import Mathlib.Algebra.Group.Nat.Defs
import Mathlib.Data.List.Basic
import VideoCore.Proofs.Emulator.SlotMap
import VideoCore.Proofs.Memory.Block

/-!
# The memory that a kernel is given

A model of the QPUs gets the live buffers as regions under bus addresses, writes to them as it likes
and gives them back. Nothing that it can do to its memory leaves the shape of the table behind:
whatever it has written so far, its memory is the list of regions of some table with the same buffers
(`Stores.exists_table`), and giving the memory back makes that table the emulator's
(`absorb_regions`). So what an address leads to (`resolve_regions`), what is read there and what a
write changes are all questions about one table.
-/

namespace VideoCore.Emulator

open SlotTable (handleOf)

/-! ## Addresses -/

/-- The physical address of a bus address is what is left of it below the two alias bits. -/
theorem toNat_physical (address : BusAddress) :
    address.physical.toNat = address.value.toNat % 2 ^ 30 := by
  have hmask : (~~~BusAddress.aliasMask).toNat = 2 ^ 30 - 1 := by decide
  rw [BusAddress.physical, UInt32.toNat_and, hmask, Nat.and_two_pow_sub_one_eq_mod]

theorem physical_lt (address : BusAddress) : address.physical.toNat < 2 ^ 30 := by
  rw [toNat_physical]
  exact Nat.mod_lt _ (by omega)

/-- Every address belongs to the window of some slot. -/
theorem index_lt (address : BusAddress) : address.physical.toNat / window < slotCount := by
  have hphysical := physical_lt address
  unfold window slotCount
  omega

theorem slotAddress_inj {i j : Nat} (hi : i < slotCount) (hj : j < slotCount)
    (h : slotAddress i = slotAddress j) : i = j := by
  have hvalue : i * window = j * window := by
    rw [← toNat_slotAddress hi, ← toNat_slotAddress hj, h]
  unfold window at hvalue
  omega

/-! ## Slots with other contents -/

theorem Slot.ext_block {slot other : Slot} (hsize : slot.size = other.size)
    (hblock : slot.block = other.block) : slot = other := by
  obtain ⟨size, block, _⟩ := slot
  obtain ⟨size', block', _⟩ := other
  cases hsize
  cases hblock
  rfl

theorem block_withBlock {slot : Slot} {block : Block} (h : block.size = slot.block.size) :
    (slot.withBlock block).block = block := by
  rw [Slot.withBlock, dif_pos h]

namespace SlotTable

variable {t u : SlotTable}

/-- Tables with the same buffers in the same slots are the same. -/
theorem ext_get? (h : ∀ i, t.get? i = u.get? i) : t = u := by
  obtain ⟨slots⟩ := t
  obtain ⟨slots'⟩ := u
  have hslots : slots = slots' := by
    apply Vector.ext
    intro i hi
    have hsame := h i
    simp only [get?, Vector.getElem?_eq_getElem hi, Option.join_some] at hsame
    exact hsame
  rw [hslots]

theorem lt_of_get? {i : Nat} {slot : Slot} (h : t.get? i = some slot) : i < slotCount := by
  by_contra hle
  rw [t.get?_of_le (Nat.le_of_not_lt hle)] at h
  cases h

/-- Two tables hold buffers of the same sizes in the same slots. -/
def SameSizes (t u : SlotTable) : Prop :=
  ∀ i, (u.get? i).map Slot.size = (t.get? i).map Slot.size

theorem SameSizes.refl (t : SlotTable) : SameSizes t t := fun _ => rfl

theorem SameSizes.symm (h : SameSizes t u) : SameSizes u t := fun i => (h i).symm

theorem SameSizes.slot {i : Nat} {slot : Slot} (h : SameSizes t u) (hu : u.get? i = some slot) :
    ∃ old, t.get? i = some old ∧ old.size = slot.size ∧ old.block.size = slot.block.size := by
  have hi := h i
  rw [hu] at hi
  obtain ⟨old, hold, hsize⟩ := Option.map_eq_some_iff.mp hi.symm
  refine ⟨old, hold, hsize, ?_⟩
  rw [old.block_size, slot.block_size, hsize]

/-- The table in which one buffer has other contents. -/
def setBlock (t : SlotTable) (i : Nat) (slot : Slot) (block : Block) : SlotTable :=
  t.put i (some (slot.withBlock block))

theorem get?_setBlock {i : Nat} {slot : Slot} (h : t.get? i = some slot) (block : Block) (j : Nat) :
    (t.setBlock i slot block).get? j = if j = i then some (slot.withBlock block) else t.get? j :=
  t.get?_put _ (lt_of_get? h) j

theorem sameSizes_setBlock {i : Nat} {slot : Slot} (h : SameSizes t u) (hu : u.get? i = some slot)
    (block : Block) : SameSizes t (u.setBlock i slot block) := by
  intro j
  rw [get?_setBlock hu, ← h j]
  split
  · next heq =>
    rw [heq, hu, Option.map_some, Option.map_some, size_withBlock]
  · rfl

/-! ## Regions -/

/-- The buffer of a slot as the QPUs see it. -/
def regionAt (i : Nat) (slot : Slot) : Region := ⟨slotAddress i, slot.block⟩

theorem regions_eq (t : SlotTable) :
    t.regions = (List.range slotCount).filterMap fun i => (t.get? i).map (regionAt i) := by
  rw [regions, live, List.map_filterMap]
  congr 1
  funext i
  rw [Option.map_map]
  rfl

theorem mem_regions {region : Region} :
    region ∈ t.regions ↔ ∃ i slot, t.get? i = some slot ∧ region = regionAt i slot := by
  rw [regions_eq, List.mem_filterMap]
  constructor
  · rintro ⟨i, -, h⟩
    obtain ⟨slot, hslot, rfl⟩ := Option.map_eq_some_iff.mp h
    exact ⟨i, slot, hslot, rfl⟩
  · rintro ⟨i, slot, hslot, rfl⟩
    refine ⟨i, List.mem_range.mpr (lt_of_get? hslot), ?_⟩
    rw [hslot]
    rfl

/-- The regions stand in ascending order of their addresses, each address once. -/
theorem pairwise_regions (t : SlotTable) :
    t.regions.Pairwise fun one other => one.address.value.toNat < other.address.value.toNat := by
  rw [regions_eq]
  refine List.Pairwise.filterMap _ ?_ List.pairwise_lt_range
  intro i j hij one hone other hother
  obtain ⟨slot, hslot, rfl⟩ := Option.map_eq_some_iff.mp hone
  obtain ⟨slot', hslot', rfl⟩ := Option.map_eq_some_iff.mp hother
  show (slotAddress i).value.toNat < (slotAddress j).value.toNat
  rw [toNat_slotAddress (lt_of_get? hslot), toNat_slotAddress (lt_of_get? hslot')]
  unfold window
  omega

/-- A search that only one of the numbered items can answer is answered by that item. -/
private theorem find?_filterMap_range {α : Type} {f : Nat → Option α} {p : α → Bool} {n i : Nat}
    (hi : i < n) (hown : ∀ a, f i = some a → p a = true)
    (hother : ∀ j < n, j ≠ i → ∀ a, f j = some a → p a = false) :
    ((List.range n).filterMap f).find? p = f i := by
  cases hitem : f i with
  | none =>
    rw [List.find?_eq_none]
    intro a ha
    obtain ⟨j, hj, hja⟩ := List.mem_filterMap.mp ha
    have hne : j ≠ i := by
      rintro rfl
      rw [hitem] at hja
      cases hja
    rw [hother j (List.mem_range.mp hj) hne a hja]
    simp
  | some a =>
    have hfind : (List.range n).find? (fun j => (f j).any p) = some i := by
      rw [List.find?_range_eq_some]
      refine ⟨?_, List.mem_range.mpr hi, ?_⟩
      · rw [hitem]
        exact hown a hitem
      · intro j hj
        cases hget : f j with
        | none => rfl
        | some b => simp [hother j (by omega) (by omega) b hget]
    rw [List.find?_filterMap, hfind, Option.bind_some, hitem]

/-- The region at the address of a slot is the buffer of that slot, if there is one. -/
theorem find?_regions (t : SlotTable) {i : Nat} (hi : i < slotCount) :
    (t.regions.find? fun region => region.address == slotAddress i) =
      (t.get? i).map (regionAt i) := by
  rw [regions_eq]
  refine find?_filterMap_range hi ?_ ?_
  · intro region hregion
    obtain ⟨slot, -, rfl⟩ := Option.map_eq_some_iff.mp hregion
    exact beq_self_eq_true (slotAddress i)
  · intro j hj hne region hregion
    obtain ⟨slot, -, rfl⟩ := Option.map_eq_some_iff.mp hregion
    rw [beq_eq_false_iff_ne]
    intro hsame
    exact hne (slotAddress_inj hj hi hsame)

/-- Replacing the contents of one region is putting other contents into the slot. -/
theorem replaceRegion_regions {i : Nat} {slot : Slot} {block : Block} (h : t.get? i = some slot)
    (hsize : block.size = slot.block.size) :
    replaceRegion t.regions (slotAddress i) block = (t.setBlock i slot block).regions := by
  rw [replaceRegion, regions_eq, regions_eq, List.map_filterMap]
  refine List.filterMap_congr ?_
  intro j hj
  rw [get?_setBlock h]
  by_cases heq : j = i
  · rw [if_pos heq, heq, h]
    simp [regionAt, block_withBlock hsize]
  · rw [if_neg heq]
    cases hget : t.get? j with
    | none => rfl
    | some other =>
      have hne : slotAddress j ≠ slotAddress i := fun hsame =>
        heq (slotAddress_inj (List.mem_range.mp hj) (lt_of_get? h) hsame)
      simp [regionAt, hne]

/-! ## What an address leads to -/

/-- An address leads to the buffer whose window it is in, if the buffer reaches that far. -/
theorem resolve_regions (t : SlotTable) (address : BusAddress) :
    resolve t.regions address =
      (t.get? (address.physical.toNat / window)).bind fun slot =>
        if address.physical.toNat % window < slot.block.size then
          some (regionAt (address.physical.toNat / window) slot,
            address.physical.toNat % window)
        else none := by
  unfold resolve
  simp only [locate, find?_regions t (index_lt address)]
  cases t.get? (address.physical.toNat / window) with
  | none => rfl
  | some slot => rfl

theorem resolve_eq_some {address : BusAddress} {region : Region} {distance : Nat} :
    resolve t.regions address = some (region, distance) ↔
      ∃ slot, t.get? (address.physical.toNat / window) = some slot ∧
        distance = address.physical.toNat % window ∧ distance < slot.block.size ∧
        region = regionAt (address.physical.toNat / window) slot := by
  rw [resolve_regions, Option.bind_eq_some_iff]
  constructor
  · rintro ⟨slot, hslot, h⟩
    split at h
    · next hreaches =>
      cases h
      exact ⟨slot, hslot, rfl, hreaches, rfl⟩
    · cases h
  · rintro ⟨slot, hslot, rfl, hreaches, rfl⟩
    exact ⟨slot, hslot, if_pos hreaches⟩

/-! ## Giving memory back -/

/-- What a slot gets back from a model's memory. -/
def returned (memory : List Region) (i : Nat) (slot : Slot) : Slot :=
  match memory.find? fun region => region.address == slotAddress i with
  | some region => slot.withBlock region.block
  | none => slot

theorem get?_giveBack {memory : List Region} {i : Nat} {slot : Slot} (h : t.get? i = some slot)
    (j : Nat) :
    (t.giveBack memory (i, slot)).get? j = if j = i then some (returned memory i slot) else t.get? j := by
  unfold giveBack returned
  generalize memory.find? (fun region => region.address == slotAddress i) = found
  match found with
  | some region => exact t.get?_put _ (lt_of_get? h) j
  | none =>
    show t.get? j = if j = i then some slot else t.get? j
    split
    · next heq => rw [heq, h]
    · rfl

/-- Slots that are served one after the other: each gets what is its own, as long as each still holds
what it held at the start when its turn comes. -/
theorem get?_foldl_giveBack (memory : List Region) (j : Nat) {slots : List (Nat × Slot)}
    (hdistinct : (slots.map Prod.fst).Nodup) (hheld : ∀ entry ∈ slots, t.get? entry.1 = some entry.2) :
    (slots.foldl (giveBack memory) t).get? j =
      if j ∈ slots.map Prod.fst then (t.get? j).map (returned memory j) else t.get? j := by
  induction slots generalizing t with
  | nil => rfl
  | cons entry rest ih =>
    obtain ⟨i, slot⟩ := entry
    obtain ⟨hfresh, hdistinct⟩ := List.nodup_cons.mp hdistinct
    have hfirst : t.get? i = some slot := hheld (i, slot) List.mem_cons_self
    have hrest : ∀ entry ∈ rest, (t.giveBack memory (i, slot)).get? entry.1 = some entry.2 := by
      intro later hlater
      have hne : later.1 ≠ i := by
        intro heq
        exact hfresh (List.mem_map.mpr ⟨later, hlater, heq⟩)
      rw [get?_giveBack hfirst, if_neg hne]
      exact hheld later (List.mem_cons_of_mem _ hlater)
    rw [List.foldl_cons, ih hdistinct hrest, get?_giveBack hfirst]
    by_cases heq : j = i
    · subst heq
      rw [if_neg hfresh, if_pos rfl, if_pos (List.mem_map.mpr ⟨(j, slot), List.mem_cons_self, rfl⟩),
        hfirst, Option.map_some]
    · simp only [List.map_cons, List.mem_cons, heq, false_or, if_false]

theorem mem_live {i : Nat} {slot : Slot} : (i, slot) ∈ t.live ↔ t.get? i = some slot := by
  rw [live, List.mem_filterMap]
  constructor
  · rintro ⟨j, -, h⟩
    obtain ⟨other, hother, heq⟩ := Option.map_eq_some_iff.mp h
    cases heq
    exact hother
  · intro h
    refine ⟨i, List.mem_range.mpr (lt_of_get? h), ?_⟩
    rw [h, Option.map_some]

/-- The live buffers stand in the order of their slots. -/
theorem pairwise_live (t : SlotTable) : t.live.Pairwise fun one other => one.1 < other.1 := by
  refine List.Pairwise.filterMap _ ?_ List.pairwise_lt_range
  intro i k hlt one hone other hother
  obtain ⟨slot, -, rfl⟩ := Option.map_eq_some_iff.mp hone
  obtain ⟨slot', -, rfl⟩ := Option.map_eq_some_iff.mp hother
  exact hlt

theorem nodup_live (t : SlotTable) : (t.live.map Prod.fst).Nodup :=
  List.pairwise_map.mpr (t.pairwise_live.imp Nat.ne_of_lt)

/-- Every slot gets back what is its own. -/
theorem get?_absorb (t : SlotTable) (memory : List Region) (j : Nat) :
    (t.absorb memory).get? j = (t.get? j).map (returned memory j) := by
  rw [absorb_eq, get?_foldl_giveBack memory j t.nodup_live fun entry h => mem_live.mp h]
  split
  · rfl
  · next hnot =>
    have hfree : t.get? j = none := by
      rw [Option.eq_none_iff_forall_ne_some]
      intro slot hslot
      exact hnot (List.mem_map.mpr ⟨(j, slot), mem_live.mpr hslot, rfl⟩)
    rw [hfree, Option.map_none]

/-- A table that gets back the regions of another with buffers of the same sizes becomes that
other. -/
theorem absorb_regions (h : SameSizes t u) : t.absorb u.regions = u := by
  apply ext_get?
  intro i
  rw [get?_absorb]
  cases hslot : u.get? i with
  | none =>
    have hi := h i
    rw [hslot, Option.map_none, eq_comm, Option.map_eq_none_iff] at hi
    rw [hi]
    rfl
  | some slot =>
    obtain ⟨old, hold, hsize, hblock⟩ := h.slot hslot
    rw [hold, Option.map_some, returned, find?_regions u (lt_of_get? hslot), hslot, Option.map_some]
    have hback : old.withBlock slot.block = slot := by
      apply Slot.ext_block
      · rw [size_withBlock, hsize]
      · exact block_withBlock hblock.symm
    exact congrArg some hback

end SlotTable

/-! ## Writing -/

/-- What a model can make of the memory that it is given: any number of writes, each into a region
that an address led to. -/
inductive Stores (given : List Region) : List Region → Prop where
  | untouched : Stores given given
  | store {memory : List Region} {address : BusAddress} {region : Region} {distance offset : Nat}
      {bytes : ByteArray} {block : Block} (before : Stores given memory)
      (resolved : resolve memory address = some (region, distance))
      (written : region.block.write? offset bytes = some block) :
      Stores given (replaceRegion memory region.address block)

namespace SlotTable

variable {t u : SlotTable}

/-- A write into the region that an address led to is one into the buffer of its slot. -/
theorem store_regions {address : BusAddress} {region : Region} {distance offset : Nat}
    {bytes : ByteArray} {block : Block}
    (resolved : resolve u.regions address = some (region, distance))
    (written : region.block.write? offset bytes = some block) :
    ∃ i slot, u.get? i = some slot ∧ region = regionAt i slot ∧
      slot.block.write? offset bytes = some block ∧
      replaceRegion u.regions region.address block = (u.setBlock i slot block).regions := by
  obtain ⟨slot, hslot, -, -, rfl⟩ := resolve_eq_some.mp resolved
  refine ⟨_, slot, hslot, rfl, written, ?_⟩
  exact replaceRegion_regions hslot (Block.size_of_write? written)

/-- However much a model has written, its memory is that of a table with the same buffers. -/
theorem exists_table_of_stores {memory : List Region} (h : Stores t.regions memory) :
    ∃ u, memory = u.regions ∧ SameSizes t u := by
  induction h with
  | untouched => exact ⟨t, rfl, .refl t⟩
  | store _ resolved written ih =>
    obtain ⟨u, rfl, hsizes⟩ := ih
    obtain ⟨i, slot, hslot, -, -, hreplaced⟩ := store_regions resolved written
    exact ⟨_, hreplaced, sameSizes_setBlock hsizes hslot _⟩

end SlotTable

end VideoCore.Emulator

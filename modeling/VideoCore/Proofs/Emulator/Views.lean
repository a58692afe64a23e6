import VideoCore.Proofs.Emulator.Access
import VideoCore.Proofs.Emulator.Refinement

/-!
# One memory under two names

The host names a byte by a buffer and an index, the QPUs name it by a bus address, through any of the
cache aliases. `OneMemory` says that both name the same bytes: an address leads to the buffer that it
lies in and to no other, what one side writes the other reads, and a store of the QPUs reaches one
buffer only. A model may have written any number of times before; its memory is always that of a
table with the same buffers, and it is tables that the proofs speak of.
-/

namespace VideoCore.Emulator

open Hardware
open Dialog (Transcript)
open Session (Run)

/-- The address of a byte of a buffer, through the cache alias of some bits. -/
def busAddress (buffer : Buffer) (offset : Nat) (bits : UInt32) : BusAddress :=
  aliased (buffer.address.offset (UInt32.ofNat offset)) bits

/-- What the host and the QPUs see of the buffers of an emulator is the same memory. -/
structure OneMemory (e : Emulator) : Prop where
  /-- An address leads somewhere exactly if it lies in the rounded memory of a live slot. -/
  leads : ∀ memory, Stores e.slots.regions memory → ∀ address,
    (resolve memory address).isSome = true ↔
      ∃ i slot, e.slots.get? i = some slot ∧ Spans i slot address 1
  /-- No address lies in two of them. -/
  unique : ∀ address i j slot other, e.slots.get? i = some slot → e.slots.get? j = some other →
    Spans i slot address 1 → Spans j other address 1 → i = j
  /-- It leads to the slot it lies in, whose address is its own without the low 23 bits, and as far
  into it as it is away from there. -/
  origin : ∀ memory, Stores e.slots.regions memory → ∀ address region distance,
    resolve memory address = some (region, distance) →
    region ∈ memory ∧ (∃ i slot, e.slots.get? i = some slot ∧ Spans i slot address 1 ∧
      region.address = slotAddress i ∧ region.block.size = roundedSize slot.size) ∧
    region.address.value.toNat = address.physical.toNat / 2 ^ 23 * 2 ^ 23 ∧
    region.address.value.toNat + distance = address.physical.toNat
  /-- What the host writes is what the QPUs load. -/
  host_store : ∀ (b : Backends) (buffer : Buffer) (offset : Nat) (bytes : ByteArray),
    b.emulator = some e → Live e buffer → offset + bytes.size ≤ buffer.size.toNat →
    ∃ e' : Emulator,
      b.writeBuffer? buffer offset bytes = pure (some { b with emulator := some e' }) ∧
      ∀ bits, load? e'.slots.regions (busAddress buffer offset bits) bytes.size = some bytes
  /-- What the QPUs store is what they load, through the same alias or another. -/
  model_store : ∀ memory, Stores e.slots.regions memory → ∀ buffer offset (bytes : ByteArray) bits,
    Live e buffer → offset + bytes.size ≤ buffer.size.toNat →
    ∃ region distance block,
      resolve memory (busAddress buffer offset bits) = some (region, distance) ∧
      region.address = buffer.address ∧ region.block.write? distance bytes = some block ∧
      ∀ bits', load? (replaceRegion memory region.address block) (busAddress buffer offset bits')
        bytes.size = some bytes
  /-- The host reads what a model of the QPUs left to be loaded, when a dispatch is through. -/
  host_load : ∀ (κ : Type) (d : Dispatch) (events : List (Exchange Hardware)) (handle : Handle κ)
    (e' : Emulator) (E : Emulation) (emulated : Emulated),
    Performs (e.execute d) events (.ok (handle, e')) → ⟨.emulate E, emulated⟩ ∈ events →
    Stores E.memory emulated.memory →
    ∀ (b : Backends) (buffer : Buffer) (offset length : Nat) (bits : UInt32),
      b.emulator = some e' → Live e buffer → offset + length ≤ buffer.size.toNat →
      b.readBuffer? buffer offset length =
        pure (load? emulated.memory (busAddress buffer offset bits) length)
  /-- A store through an address that leads to one buffer changes no byte of any other. -/
  apart : ∀ memory, Stores e.slots.regions memory →
    ∀ address region distance offset (bytes : ByteArray) block,
      resolve memory address = some (region, distance) →
      region.block.write? offset bytes = some block →
      ∀ other, Live e other → other.address ≠ region.address →
        ∀ i < roundedSize other.size, ∀ length bits,
          load? (replaceRegion memory region.address block) (busAddress other i bits) length =
            load? memory (busAddress other i bits) length

/-! ## Tables -/

section Tables

variable {e : Emulator} {u : SlotTable} {i : Nat} {slot : Slot}

/-- A live buffer is in every table with the same buffers, under the same address. -/
theorem Live.in_table {buffer : Buffer} (h : Live e buffer) (hsizes : SlotTable.SameSizes e.slots u) :
    ∃ i slot, u.get? i = some slot ∧ buffer = bufferAt i slot.size := by
  obtain ⟨i, slot, hslot, rfl⟩ := h
  obtain ⟨new, hnew, hsize, -⟩ := hsizes.symm.slot hslot
  exact ⟨i, new, hnew, by rw [hsize]⟩

/-- The QPUs reach the byte of a buffer in its slot, through every alias. -/
theorem physical_busAddress {offset : Nat} (hslot : u.get? i = some slot) (hfits : Fits u)
    (hoffset : offset < roundedSize slot.size) (size bits : UInt32) :
    (busAddress (bufferAt i size) offset bits).physical.toNat = i * window + offset := by
  rw [busAddress, physical_aliased]
  exact physical_offset (SlotTable.lt_of_get? hslot)
    (Nat.lt_of_lt_of_le hoffset (hfits i slot hslot))

theorem load?_busAddress {offset : Nat} (hslot : u.get? i = some slot) (hfits : Fits u)
    (hoffset : offset < roundedSize slot.size) (size bits : UInt32) (length : Nat) :
    load? u.regions (busAddress (bufferAt i size) offset bits) length =
      slot.block.read? offset length := by
  have hwindow : offset < window := Nat.lt_of_lt_of_le hoffset (hfits i slot hslot)
  rw [← slot.block_size] at hoffset
  refine load?_regions hslot ?_ hoffset hwindow length
  exact physical_busAddress hslot hfits (by rwa [slot.block_size] at hoffset) size bits

/-- What was put into a slot is loaded from there. -/
theorem load?_setBlock {offset : Nat} {bytes : ByteArray} {block : Block}
    (hslot : u.get? i = some slot) (hfits : Fits u)
    (hwrite : slot.block.write? offset bytes = some block)
    (hoffset : offset < roundedSize slot.size) (size bits : UInt32) :
    load? (u.setBlock i slot block).regions (busAddress (bufferAt i size) offset bits) bytes.size =
      some bytes := by
  have hsize := Block.size_of_write? hwrite
  have hnew : (u.setBlock i slot block).get? i = some (slot.withBlock block) := by
    rw [SlotTable.get?_setBlock hslot, if_pos rfl]
  have hfits' : Fits (u.setBlock i slot block) :=
    hfits.sameSizes (SlotTable.sameSizes_setBlock (.refl u) hslot block)
  rw [load?_busAddress hnew hfits' (by rwa [size_withBlock]), block_withBlock hsize,
    Block.read?_write? hwrite]

/-- And what is put into another slot does not show. -/
theorem load?_setBlock_of_ne {j offset : Nat} {other : Slot} (block : Block)
    (hslot : u.get? i = some slot) (hother : u.get? j = some other) (hfits : Fits u) (hne : j ≠ i)
    (hoffset : offset < roundedSize other.size) (size bits : UInt32) (length : Nat) :
    load? (u.setBlock i slot block).regions (busAddress (bufferAt j size) offset bits) length =
      load? u.regions (busAddress (bufferAt j size) offset bits) length := by
  have hkept : (u.setBlock i slot block).get? j = some other := by
    rw [SlotTable.get?_setBlock hslot, if_neg hne, hother]
  have hfits' : Fits (u.setBlock i slot block) :=
    hfits.sameSizes (SlotTable.sameSizes_setBlock (.refl u) hslot block)
  rw [load?_busAddress hkept hfits' hoffset, load?_busAddress hother hfits hoffset]

/-- A range in a buffer starts before the end of its memory. -/
theorem lt_roundedSize {size : UInt32} {offset length : Nat} (h : offset + length ≤ size.toNat) :
    offset < roundedSize size := by
  have hbounds := roundedSize_bounds size
  omega

theorem spans_one_iff {address : BusAddress} (hslot : u.get? i = some slot) (hfits : Fits u) :
    Spans i slot address 1 ↔
      address.physical.toNat / window = i ∧ address.physical.toNat % window < slot.block.size :=
  spans_iff (SlotTable.lt_of_get? hslot) (hfits i slot hslot) Nat.one_pos

end Tables

/-! ## The memory of a dispatch -/

section Memory

variable {e : Emulator} {memory : List Region} {address : BusAddress} {region : Region}
    {distance offset : Nat} {bytes : ByteArray} {block : Block}

theorem leads_iff (hfits : Fits e.slots) (hstores : Stores e.slots.regions memory)
    (address : BusAddress) :
    (resolve memory address).isSome = true ↔
      ∃ i slot, e.slots.get? i = some slot ∧ Spans i slot address 1 := by
  obtain ⟨u, rfl, hsizes⟩ := SlotTable.exists_table_of_stores hstores
  rw [SlotTable.resolve_regions, Option.isSome_iff_exists]
  constructor
  · rintro ⟨found, h⟩
    obtain ⟨new, hnew, h⟩ := Option.bind_eq_some_iff.mp h
    obtain ⟨slot, hslot, -, hblock⟩ := hsizes.slot hnew
    refine ⟨_, slot, hslot, (spans_one_iff hslot hfits).mpr ⟨rfl, ?_⟩⟩
    rw [hblock]
    by_contra hbeyond
    rw [if_neg hbeyond] at h
    cases h
  · rintro ⟨i, slot, hslot, hspans⟩
    obtain ⟨rfl, hinside⟩ := (spans_one_iff hslot hfits).mp hspans
    obtain ⟨new, hnew, -, hblock⟩ := hsizes.symm.slot hslot
    rw [← hblock] at hinside
    exact ⟨_, by rw [hnew, Option.bind_some, if_pos hinside]⟩

theorem origin_of_resolve (hfits : Fits e.slots) (hstores : Stores e.slots.regions memory)
    (hresolve : resolve memory address = some (region, distance)) :
    region ∈ memory ∧ (∃ i slot, e.slots.get? i = some slot ∧ Spans i slot address 1 ∧
      region.address = slotAddress i ∧ region.block.size = roundedSize slot.size) ∧
    region.address.value.toNat = address.physical.toNat / 2 ^ 23 * 2 ^ 23 ∧
    region.address.value.toNat + distance = address.physical.toNat := by
  obtain ⟨u, rfl, hsizes⟩ := SlotTable.exists_table_of_stores hstores
  obtain ⟨new, hnew, rfl, hinside, rfl⟩ := SlotTable.resolve_eq_some.mp hresolve
  obtain ⟨slot, hslot, hsize, hblock⟩ := hsizes.slot hnew
  have haddress : (slotAddress (address.physical.toNat / window)).value.toNat =
      address.physical.toNat / window * window := toNat_slotAddress (index_lt address)
  refine ⟨SlotTable.mem_regions.mpr ⟨_, new, hnew, rfl⟩, ⟨_, slot, hslot, ?_, rfl, ?_⟩, ?_, ?_⟩
  · rw [spans_one_iff hslot hfits, hblock]
    exact ⟨rfl, hinside⟩
  · show new.block.size = _
    rw [new.block_size, hsize]
  · show (slotAddress _).value.toNat = _
    rw [haddress]
    rfl
  · show (slotAddress _).value.toNat + _ = _
    rw [haddress, Nat.mul_comm]
    exact Nat.div_add_mod _ _

theorem model_store_loaded (hfits : Fits e.slots) (hstores : Stores e.slots.regions memory)
    {buffer : Buffer} (bits : UInt32) (hlive : Live e buffer)
    (hrange : offset + bytes.size ≤ buffer.size.toNat) :
    ∃ region distance block,
      resolve memory (busAddress buffer offset bits) = some (region, distance) ∧
      region.address = buffer.address ∧ region.block.write? distance bytes = some block ∧
      ∀ bits', load? (replaceRegion memory region.address block) (busAddress buffer offset bits')
        bytes.size = some bytes := by
  obtain ⟨u, rfl, hsizes⟩ := SlotTable.exists_table_of_stores hstores
  have hfits' : Fits u := hfits.sameSizes hsizes
  obtain ⟨i, slot, hslot, rfl⟩ := hlive.in_table hsizes
  have hoffset : offset < roundedSize slot.size := lt_roundedSize hrange
  have hphysical := physical_busAddress hslot hfits' hoffset slot.size bits
  obtain ⟨block, hwrite⟩ := exists_write?_slot hrange
  have hwindow : offset < window := Nat.lt_of_lt_of_le hoffset (hfits' i slot hslot)
  obtain ⟨hindex, hdistance⟩ := div_mod_window (i := i) rfl hwindow
  refine ⟨SlotTable.regionAt i slot, offset, block, ?_, rfl, hwrite, ?_⟩
  · rw [SlotTable.resolve_eq_some, hphysical, hindex, hdistance]
    refine ⟨slot, hslot, rfl, ?_, rfl⟩
    rw [slot.block_size]
    exact hoffset
  · intro bits'
    show load? (replaceRegion u.regions (slotAddress i) block) _ _ = _
    rw [SlotTable.replaceRegion_regions hslot (Block.size_of_write? hwrite)]
    exact load?_setBlock hslot hfits' hwrite hoffset slot.size bits'

theorem store_apart (hfits : Fits e.slots) (hstores : Stores e.slots.regions memory)
    (hresolve : resolve memory address = some (region, distance))
    (hwrite : region.block.write? offset bytes = some block) {other : Buffer}
    (hlive : Live e other) (hne : other.address ≠ region.address) {i : Nat}
    (hi : i < roundedSize other.size) (length : Nat) (bits : UInt32) :
    load? (replaceRegion memory region.address block) (busAddress other i bits) length =
      load? memory (busAddress other i bits) length := by
  obtain ⟨u, rfl, hsizes⟩ := SlotTable.exists_table_of_stores hstores
  have hfits' : Fits u := hfits.sameSizes hsizes
  obtain ⟨k, slot, hslot, rfl, -, hreplaced⟩ := SlotTable.store_regions hresolve hwrite
  obtain ⟨j, slot', hslot', rfl⟩ := hlive.in_table hsizes
  have hjk : j ≠ k := by
    rintro rfl
    exact hne rfl
  rw [hreplaced]
  exact load?_setBlock_of_ne block hslot hslot' hfits' hjk hi slot'.size bits length

theorem host_store_loaded (hfits : Fits e.slots) {b : Backends} {buffer : Buffer}
    (he : b.emulator = some e) (hlive : Live e buffer)
    (hrange : offset + bytes.size ≤ buffer.size.toNat) :
    ∃ e' : Emulator,
      b.writeBuffer? buffer offset bytes = pure (some { b with emulator := some e' }) ∧
      ∀ bits, load? e'.slots.regions (busAddress buffer offset bits) bytes.size = some bytes := by
  obtain ⟨i, slot, hslot, rfl⟩ := hlive
  obtain ⟨block, hwrite⟩ := exists_write?_slot hrange
  refine ⟨_, writeBuffer?_slot he hslot hrange hwrite, ?_⟩
  intro bits
  exact load?_setBlock hslot hfits hwrite (lt_roundedSize hrange) slot.size bits

/-- The emulator takes back what a model made of the memory that it was given. -/
theorem absorbed_of_performs {κ : Type} {d : Dispatch} {events : List (Exchange Hardware)}
    {handle : Handle κ} {e' : Emulator} {E : Emulation} {emulated : Emulated}
    (h : Performs (e.execute d) events (.ok (handle, e'))) (hmem : ⟨.emulate E, emulated⟩ ∈ events) :
    E.memory = e.slots.regions ∧ e'.slots = e.slots.absorb emulated.memory := by
  have hcheck : d.check = .ok () := by
    obtain ⟨_, hcheck, -⟩ := performs_check_ok.mp h
    exact hcheck
  cases hwords : e.slots.words? d.controlAddress (2 * d.control.length) with
  | none =>
    obtain ⟨rfl, -⟩ := (performs_execute_unknown hcheck (.inl hwords)).mp h
    cases hmem
  | some words =>
    cases hmodel : e.hasModel with
    | false =>
      obtain ⟨rfl, -⟩ := (performs_execute_unknown hcheck (.inr hmodel)).mp h
      cases hmem
    | true =>
      obtain ⟨emulated', rfl, hr⟩ := (performs_execute_known hcheck hwords hmodel).mp h
      cases hr
      rw [List.mem_singleton] at hmem
      cases hmem
      exact ⟨rfl, rfl⟩

theorem host_load_left {κ : Type} {d : Dispatch} {events : List (Exchange Hardware)}
    {handle : Handle κ} {e' : Emulator} {E : Emulation} {emulated : Emulated} {b : Backends}
    {buffer : Buffer} {length : Nat} (hfits : Fits e.slots)
    (h : Performs (e.execute d) events (.ok (handle, e'))) (hmem : ⟨.emulate E, emulated⟩ ∈ events)
    (hstores : Stores E.memory emulated.memory) (bits : UInt32) (he' : b.emulator = some e')
    (hlive : Live e buffer) (hrange : offset + length ≤ buffer.size.toNat) :
    b.readBuffer? buffer offset length =
      pure (load? emulated.memory (busAddress buffer offset bits) length) := by
  obtain ⟨hgiven, habsorbed⟩ := absorbed_of_performs h hmem
  rw [hgiven] at hstores
  obtain ⟨u, hmemory, hsizes⟩ := SlotTable.exists_table_of_stores hstores
  obtain ⟨i, slot, hslot, rfl⟩ := hlive.in_table hsizes
  have hafter : e'.slots.get? i = some slot := by
    rw [habsorbed, hmemory, SlotTable.absorb_regions hsizes, hslot]
  rw [readBuffer?_slot he' hafter hrange, hmemory,
    load?_busAddress hslot (hfits.sameSizes hsizes) (lt_roundedSize hrange)]

end Memory

theorem oneMemory_of_fits {e : Emulator} (hfits : Fits e.slots) : OneMemory e where
  leads _ hstores := leads_iff hfits hstores
  unique := by
    intro address i j slot other hslot hother hspans hspans'
    rw [spans_one_iff hslot hfits] at hspans
    rw [spans_one_iff hother hfits] at hspans'
    rw [← hspans.1, ← hspans'.1]
  origin _ hstores _ _ _ hresolve := origin_of_resolve hfits hstores hresolve
  host_store _ _ _ _ he hlive hrange := host_store_loaded hfits he hlive hrange
  model_store _ hstores _ _ _ bits hlive hrange := model_store_loaded hfits hstores bits hlive hrange
  host_load _ _ _ _ _ _ _ h hmem hstores _ _ _ _ bits he' hlive hrange :=
    host_load_left hfits h hmem hstores bits he' hlive hrange
  apart _ hstores _ _ _ _ _ _ hresolve hwrite _ hlive hne _ hi length bits :=
    store_apart hfits hstores hresolve hwrite hlive hne hi length bits

/-- Wherever a session gets to, bus addresses and the host name the same bytes of its emulator. -/
theorem views_agree {start s : Session} {events : List (Exchange Hardware)} {e : Emulator}
    (hstart : Vacant start) (run : Run (fun _ _ => True) start events s)
    (he : s.system.backends.emulator = some e) : OneMemory e :=
  oneMemory_of_fits (fits_of_run hstart run he)

theorem vacant_sampleEmpty : Vacant sampleEmpty := by
  intro e he
  cases he
  rfl

set_option maxRecDepth 8000 in
/-- Two allocations, of 64 bytes and of 100. -/
theorem run_sampleTwo : Run (fun _ _ => True) sampleEmpty [] sampleTwo := by
  have hfirst : Transcript (sampleEmpty.perform (.allocate "a" (some .emulator) { size := 64 }))
      [] sampleOne := .done _
  have hsecond : Transcript (sampleOne.perform (.allocate "b" (some .emulator) { size := 100 }))
      [] sampleTwo := .done _
  exact .trans (.single trivial hfirst) (.single trivial hsecond)

/-- The last byte of the second buffer has the address `0x80800063`, among others. -/
theorem views_agree_sample :
    (resolve sampleSlots'.regions ⟨0x80800063⟩).isSome = true := by
  have hone : OneMemory { slots := sampleSlots' } := views_agree vacant_sampleEmpty run_sampleTwo rfl
  refine (hone.leads _ .untouched ⟨0x80800063⟩).mpr ⟨1, .zeroed 100, ?_, ?_⟩
  · exact SlotTable.get?_put_self _ _ (by decide)
  · unfold Spans
    decide

end VideoCore.Emulator

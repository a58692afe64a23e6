import Mathlib.Logic.Function.Basic
import VideoCore.Emulator
import VideoCore.Proofs.Attempt

/-!
# The emulator as a map from handles to memory

Seen from outside, the emulator is a partial map from the handles 1 to 128 to the memory of a buffer
(`Emulator.find?`). Everything that can be done to it is an update of that map: an allocation defines
it at the lowest handle where it is not defined, the return of a handle undefines it there, and a
kernel or a write of the host changes contents without changing where the map is defined. Each
operation gets one lemma.
-/

namespace VideoCore.Emulator

open Hardware
open Dialog (Transcript)

/-! ## Slots -/

namespace SlotTable

variable (t : SlotTable)

theorem get?_of_le {index : Nat} (h : slotCount ≤ index) : t.get? index = none := by
  simp [get?, h]

theorem get?_put {index : Nat} (slot : Option Slot) (h : index < slotCount) (other : Nat) :
    (t.put index slot).get? other = if other = index then slot else t.get? other := by
  split
  · next he => rw [he, get?_put_self t slot h]
  · next hne => exact get?_put_of_ne t slot (Ne.symm hne)

theorem toNat_handleOf {index : Nat} (h : index < slotCount) :
    (handleOf index).toNat = index + 1 := by
  unfold slotCount at h
  rw [handleOf, UInt32.toNat_ofNat']
  omega

theorem indexOf?_handleOf {index : Nat} (h : index < slotCount) :
    indexOf? (handleOf index) = some index := by
  have hval := toNat_handleOf h
  have hne : handleOf index ≠ 0 := by
    intro he
    rw [he] at hval
    exact absurd hval (by simp)
  rw [indexOf?, if_neg hne, hval, Nat.add_sub_cancel]

/-- A handle that leads to a slot is the handle of that slot. -/
theorem eq_handleOf_of_indexOf? {handle : UInt32} {index : Nat} (h : indexOf? handle = some index) :
    handle = handleOf index := by
  unfold indexOf? at h
  split at h
  · cases h
  · next hne =>
    cases h
    have hpos : handle.toNat ≠ 0 := fun hz => hne (UInt32.toNat.inj hz)
    rw [handleOf, Nat.sub_add_cancel (by omega), UInt32.ofNat_toNat]

theorem firstFree?_eq_some {index : Nat} :
    t.firstFree? = some index ↔
      index < slotCount ∧ t.get? index = none ∧ ∀ j < index, (t.get? j).isSome := by
  rw [firstFree?, List.find?_range_eq_some]
  simp only [List.mem_range, Option.isNone_iff_eq_none, Bool.not_eq_true', Option.isNone_eq_false_iff]
  exact and_left_comm

theorem firstFree?_eq_none :
    t.firstFree? = none ↔ ∀ index < slotCount, (t.get? index).isSome := by
  rw [firstFree?, List.find?_eq_none]
  simp [Option.isSome_iff_ne_none]

end SlotTable

/-- The address of a slot is its index in bits 23 to 29. -/
theorem toNat_slotAddress {index : Nat} (h : index < slotCount) :
    (slotAddress index).value.toNat = index * window := by
  unfold slotCount at h
  rw [slotAddress, UInt32.toNat_ofNat', window]
  omega

theorem slotAddress_eq_shift {index : Nat} (h : index < slotCount) :
    slotAddress index = ⟨UInt32.ofNat index <<< 23⟩ := by
  have hvalue : UInt32.ofNat (index * window) = UInt32.ofNat index <<< 23 := by
    apply UInt32.toNat.inj
    rw [show (UInt32.ofNat (index * window)).toNat = _ from toNat_slotAddress h,
      UInt32.toNat_shiftLeft]
    unfold slotCount at h
    simp [Nat.shiftLeft_eq, window]
    omega
  rw [slotAddress, hvalue]

/-! ## The map -/

/-- The memory that a handle stands for. -/
def find? (e : Emulator) (handle : UInt32) : Option Slot :=
  (SlotTable.indexOf? handle).bind e.slots.get?

variable {e e' : Emulator}

theorem find?_handleOf (e : Emulator) {index : Nat} (h : index < slotCount) :
    e.find? (SlotTable.handleOf index) = e.slots.get? index := by
  rw [find?, SlotTable.indexOf?_handleOf h, Option.bind_some]

/-- The map is defined at most at the handles of the slots. -/
theorem handle_of_find? {handle : UInt32} (h : (e.find? handle).isSome) :
    ∃ index < slotCount, handle = SlotTable.handleOf index := by
  cases hi : SlotTable.indexOf? handle with
  | none =>
    rw [find?, hi] at h
    cases h
  | some index =>
    refine ⟨index, ?_, SlotTable.eq_handleOf_of_indexOf? hi⟩
    by_contra hle
    rw [find?, hi, Option.bind_some, SlotTable.get?_of_le _ (Nat.le_of_not_lt hle)] at h
    cases h

/-- Filling or freeing a slot updates the map at its handle. -/
theorem find?_put (e : Emulator) {index : Nat} (slot : Option Slot) (h : index < slotCount) :
    Emulator.find? { e with slots := e.slots.put index slot } =
      Function.update e.find? (SlotTable.handleOf index) slot := by
  funext handle
  by_cases he : handle = SlotTable.handleOf index
  · rw [he, Function.update_self, find?_handleOf _ h]
    exact SlotTable.get?_put_self _ slot h
  · rw [Function.update_of_ne he]
    unfold find?
    cases hi : SlotTable.indexOf? handle with
    | none => rfl
    | some other =>
      -- another handle leads to another slot
      have hne : index ≠ other := by
        rintro rfl
        exact he (SlotTable.eq_handleOf_of_indexOf? hi)
      exact SlotTable.get?_put_of_ne _ slot hne

theorem isAllocated_eq (e : Emulator) (handle : UInt32) :
    e.isAllocated handle = (e.find? handle).isSome := by
  unfold isAllocated SlotTable.isLive find?
  cases SlotTable.indexOf? handle with
  | none => rfl
  | some index => rfl

/-- The live buffers are as many as there are handles at which the map is defined. -/
theorem liveBuffers_eq (e : Emulator) :
    e.liveBuffers =
      (List.range slotCount).countP fun index => (e.find? (SlotTable.handleOf index)).isSome := by
  rw [liveBuffers, SlotTable.live, List.length_filterMap_eq_countP]
  apply List.countP_congr
  intro index hindex
  rw [find?_handleOf e (List.mem_range.mp hindex), Option.isSome_map]

/-! ## Allocation and return -/

/-- A request that is in order and fits takes the lowest free slot. -/
theorem allocate_of_free {r : AllocationRequest} {index : Nat} (hcheck : r.check = .ok ())
    (hfits : roundedSize r.size ≤ window) (hindex : index < slotCount)
    (hfree : e.find? (SlotTable.handleOf index) = none)
    (hlowest : ∀ j < index, (e.find? (SlotTable.handleOf j)).isSome) :
    e.allocate r = .ok (some (bufferAt index r.size),
      { e with slots := e.slots.put index (some (.zeroed r.size (le_largestSize hfits))) }) := by
  have hfirst : e.slots.firstFree? = some index := by
    rw [SlotTable.firstFree?_eq_some]
    refine ⟨hindex, by rwa [find?_handleOf e hindex] at hfree, ?_⟩
    intro j hj
    rw [← find?_handleOf e (Nat.lt_trans hj hindex)]
    exact hlowest j hj
  have hsize := le_largestSize hfits
  have hallocate : e.slots.allocate? r.size hsize =
      some (index, e.slots.put index (some (.zeroed r.size hsize))) := by
    rw [SlotTable.allocate?, toNat_roundedWord_iff.mpr hsize, if_neg (Nat.not_lt.mpr hfits), hfirst]
    rfl
  unfold allocate
  rw [hcheck, dif_pos hsize, hallocate]
  rfl

/-- A request that does not fit is refused, and so is every request when no slot is free. -/
theorem allocate_of_full {r : AllocationRequest} (hcheck : r.check = .ok ())
    (hsize : r.size.toNat ≤ largestSize)
    (hfull : window < roundedSize r.size ∨
      ∀ index < slotCount, (e.find? (SlotTable.handleOf index)).isSome) :
    e.allocate r = .ok (none, e) := by
  have hallocate : e.slots.allocate? r.size hsize = none := by
    unfold SlotTable.allocate?
    rw [toNat_roundedWord_iff.mpr hsize]
    split
    · rfl
    · next hfits =>
      have hnone : e.slots.firstFree? = none := by
        rw [SlotTable.firstFree?_eq_none]
        intro index hindex
        rw [← find?_handleOf e hindex]
        exact hfull.resolve_left hfits index hindex
      rw [hnone]
      rfl
  unfold allocate
  rw [hcheck, dif_pos hsize, hallocate]
  rfl

/-- A request whose rounded size overflows goes no further. -/
theorem allocate_of_overflow {r : AllocationRequest} (hcheck : r.check = .ok ())
    (hsize : largestSize < r.size.toNat) : e.allocate r = .error .overflow := by
  unfold allocate
  rw [hcheck, dif_neg (Nat.not_le.mpr hsize)]
  rfl

/-- If it went on unchecked, it would be refused by a full table alone. -/
theorem unchecked?_eq_none_iff (e : Emulator) {r : AllocationRequest}
    (hsize : largestSize < r.size.toNat) :
    e.unchecked? r = none ↔ ∀ index < slotCount, (e.find? (SlotTable.handleOf index)).isSome := by
  have hroom : ¬ window < (roundedWord r.size).toNat := by
    have hsmall := roundedWord_of_overflow hsize
    unfold window
    omega
  rw [unchecked?, if_neg hroom, Option.map_eq_none_iff, SlotTable.firstFree?_eq_none]
  refine forall₂_congr fun index hindex => ?_
  rw [find?_handleOf e hindex]

/-- A request that is not in order is turned away. -/
theorem allocate_of_invalid {r : AllocationRequest} {fault : Fault}
    (hcheck : r.check = .error fault) : e.allocate r = .error fault := by
  unfold allocate
  rw [hcheck]
  rfl

/-- The ways that an allocation can go. -/
theorem allocate_cases {r : AllocationRequest} {result : Option Buffer}
    (h : e.allocate r = .ok (result, e')) :
    (result = none ∧ e' = e) ∨
    ∃ index < slotCount, e.find? (SlotTable.handleOf index) = none ∧
      ∃ hfits : roundedSize r.size ≤ window, result = some (bufferAt index r.size) ∧
        e'.find? = Function.update e.find? (SlotTable.handleOf index)
          (some (.zeroed r.size (le_largestSize hfits))) := by
  cases hcheck : r.check with
  | error fault =>
    rw [allocate_of_invalid hcheck] at h
    cases h
  | ok _ =>
    obtain hsize | hsize := Nat.lt_or_ge largestSize r.size.toNat
    · rw [allocate_of_overflow hcheck hsize] at h
      cases h
    by_cases hfull : window < roundedSize r.size ∨
        ∀ index < slotCount, (e.find? (SlotTable.handleOf index)).isSome
    · rw [allocate_of_full hcheck hsize hfull] at h
      cases h
      exact .inl ⟨rfl, rfl⟩
    · obtain ⟨hfits, hsome⟩ := not_or.mp hfull
      cases hfirst : e.slots.firstFree? with
      | none =>
        refine absurd ?_ hsome
        intro index hindex
        rw [find?_handleOf e hindex]
        exact (SlotTable.firstFree?_eq_none _).mp hfirst index hindex
      | some index =>
        obtain ⟨hindex, hfree, hlowest⟩ := (SlotTable.firstFree?_eq_some _).mp hfirst
        rw [← find?_handleOf e hindex] at hfree
        rw [allocate_of_free hcheck (Nat.le_of_not_lt hfits) hindex hfree fun j hj => by
          rw [find?_handleOf e (Nat.lt_trans hj hindex)]
          exact hlowest j hj] at h
        cases h
        exact .inr ⟨index, hindex, hfree, Nat.le_of_not_lt hfits, rfl, find?_put e _ hindex⟩

/-- A handle is taken back if the map is defined there, and then it is not any more. -/
theorem deallocate_known {handle : UInt32} (hlive : (e.find? handle).isSome) :
    ∃ e' : Emulator, e.deallocate handle = pure (true, e') ∧
      e'.find? = Function.update e.find? handle none := by
  obtain ⟨index, hindex, rfl⟩ := handle_of_find? hlive
  have hrelease : e.slots.release? (SlotTable.handleOf index) = some (e.slots.put index none) := by
    have hlive' : e.slots.isLive (SlotTable.handleOf index) = true :=
      (isAllocated_eq e _).trans hlive
    rw [SlotTable.release?, if_pos hlive', SlotTable.indexOf?_handleOf hindex]
    rfl
  unfold deallocate
  rw [hrelease]
  exact ⟨_, rfl, find?_put e none hindex⟩

/-- Any other handle is reported and changes nothing. -/
theorem deallocate_unknown {handle : UInt32} (hdead : e.find? handle = none) :
    e.deallocate handle = do
      report (.unknownHandle handle)
      return (false, e) := by
  have hrelease : e.slots.release? handle = none := by
    have hdead' : ¬ e.slots.isLive handle = true := by
      show ¬ e.isAllocated handle = true
      rw [isAllocated_eq, hdead]
      exact Bool.false_ne_true
    rw [SlotTable.release?, if_neg hdead']
  unfold deallocate
  rw [hrelease]

/-- Either way the map is not defined at the handle afterwards, and is what it was elsewhere. -/
theorem find?_deallocate {handle : UInt32} {events : List (Exchange Hardware)} {known : Bool}
    (h : Transcript (e.deallocate handle) events (known, e')) :
    known = (e.find? handle).isSome ∧ e'.find? = Function.update e.find? handle none := by
  cases hfind : e.find? handle with
  | some slot =>
    obtain ⟨after, heq, hupdate⟩ := deallocate_known (show (e.find? handle).isSome by rw [hfind]; rfl)
    rw [heq] at h
    obtain ⟨-, h⟩ := Dialog.transcript_done.mp h
    cases h
    exact ⟨rfl, hupdate⟩
  | none =>
    rw [deallocate_unknown hfind] at h
    obtain ⟨_, -, hr⟩ := Dialog.transcript_map.mp h
    cases hr
    exact ⟨rfl, (Function.update_eq_self_iff.mpr hfind.symm).symm⟩

/-! ## Contents -/

/-- The sizes of all buffers, which say where the map is defined but not what is in the memory. -/
def size? (e : Emulator) (handle : UInt32) : Option UInt32 :=
  (e.find? handle).map Slot.size

/-- An update of the map is one of the sizes. -/
theorem size?_of_update {handle : UInt32} {slot : Option Slot}
    (h : e'.find? = Function.update e.find? handle slot) :
    e'.size? = Function.update e.size? handle (slot.map Slot.size) := by
  funext other
  rw [size?, h]
  by_cases hother : other = handle
  · rw [hother, Function.update_self, Function.update_self]
  · rw [Function.update_of_ne hother, Function.update_of_ne hother]
    rfl

theorem size_withBlock (slot : Slot) (block : Block) : (slot.withBlock block).size = slot.size := by
  unfold Slot.withBlock
  split <;> rfl

/-- Filling a slot with other contents of the same size leaves the sizes as they are. -/
theorem size?_put_same (t : SlotTable) {index : Nat} {slot : Slot}
    (h : (t.get? index).map Slot.size = some slot.size) (other : Nat) :
    ((t.put index (some slot)).get? other).map Slot.size = (t.get? other).map Slot.size := by
  have hindex : index < slotCount := by
    by_contra hle
    rw [SlotTable.get?_of_le t (Nat.le_of_not_lt hle)] at h
    cases h
  rw [SlotTable.get?_put t _ hindex]
  split
  · next he => rw [he, h]; rfl
  · rfl

/-- The table after one slot got back what a model left of its memory. -/
def SlotTable.giveBack (memory : List Region) (t : SlotTable) (entry : Nat × Slot) : SlotTable :=
  match memory.find? fun region => region.address == slotAddress entry.1 with
  | some region => t.put entry.1 (some (entry.2.withBlock region.block))
  | none => t

theorem SlotTable.absorb_eq (t : SlotTable) (memory : List Region) :
    t.absorb memory = t.live.foldl (giveBack memory) t := rfl

theorem size?_giveBack (memory : List Region) (t : SlotTable) {entry : Nat × Slot}
    (h : (t.get? entry.1).map Slot.size = some entry.2.size) (other : Nat) :
    ((t.giveBack memory entry).get? other).map Slot.size = (t.get? other).map Slot.size := by
  unfold SlotTable.giveBack
  split
  · refine size?_put_same t ?_ other
    rw [size_withBlock, h]
  · rfl

/-- The memory that a model gives back has the sizes of the memory that it was given. -/
theorem size?_absorb (t : SlotTable) (memory : List Region) (other : Nat) :
    ((t.absorb memory).get? other).map Slot.size = (t.get? other).map Slot.size := by
  have hlive : ∀ entry ∈ t.live, (t.get? entry.1).map Slot.size = some entry.2.size := by
    intro entry hentry
    obtain ⟨index, -, hsome⟩ := List.mem_filterMap.mp hentry
    obtain ⟨slot, hslot, rfl⟩ := Option.map_eq_some_iff.mp hsome
    rw [hslot]
    rfl
  -- while one slot after the other is filled, the sizes are those of the start
  have hfold : ∀ (slots : List (Nat × Slot)) (u : SlotTable),
      (∀ entry ∈ slots, (u.get? entry.1).map Slot.size = some entry.2.size) →
      ((slots.foldl (SlotTable.giveBack memory) u).get? other).map Slot.size =
        (u.get? other).map Slot.size := by
    intro slots
    induction slots with
    | nil => exact fun u _ => rfl
    | cons entry rest ih =>
      intro u hsizes
      have hstep := size?_giveBack memory u (hsizes entry (List.mem_cons_self ..))
      rw [List.foldl_cons, ih _ fun later hlater => ?_, hstep]
      rw [hstep]
      exact hsizes later (List.mem_cons_of_mem _ hlater)
  rw [SlotTable.absorb_eq]
  exact hfold t.live t hlive

/-- The same sizes in the slots make the same sizes at the handles. -/
theorem size?_congr {e e' : Emulator}
    (h : ∀ index, (e'.slots.get? index).map Slot.size = (e.slots.get? index).map Slot.size) :
    e'.size? = e.size? := by
  funext handle
  unfold size? find?
  cases SlotTable.indexOf? handle with
  | none => rfl
  | some index => exact h index

/-- A kernel neither allocates nor frees, however it ends. -/
theorem execute_size? {κ : Type} {d : Dispatch} {events : List (Exchange Hardware)}
    {handle : Handle κ} (h : Performs (e.execute d) events (.ok (handle, e'))) :
    e'.size? = e.size? := by
  unfold execute at h
  obtain ⟨_, -, h⟩ := performs_check_ok.mp h
  split at h
  · obtain ⟨-, hr⟩ := performs_pure.mp h
    cases hr
    rfl
  split at h
  · obtain ⟨-, hr⟩ := performs_pure.mp h
    cases hr
    rfl
  obtain ⟨emulated, rest, rfl, hrest⟩ := performs_ask.mp h
  -- all three outcomes leave the same state, also when the model crashed
  have hstate : e' = { e with slots := e.slots.absorb emulated.memory } := by
    split at hrest
    all_goals
      obtain ⟨-, hr⟩ := performs_pure.mp hrest
      cases hr
      rfl
  rw [hstate]
  exact size?_congr (size?_absorb e.slots emulated.memory)

/-- A change of the contents of one slot. -/
theorem find?_modify (e : Emulator) (index : Nat) (change : Block → Block) :
    Emulator.size? { e with slots := e.slots.modify index change } = e.size? ∧
    ∀ handle, handle ≠ SlotTable.handleOf index →
      Emulator.find? { e with slots := e.slots.modify index change } handle = e.find? handle := by
  unfold SlotTable.modify
  cases hslot : e.slots.get? index with
  | none => exact ⟨rfl, fun _ _ => rfl⟩
  | some slot =>
    have hindex : index < slotCount := by
      by_contra hle
      rw [SlotTable.get?_of_le _ (Nat.le_of_not_lt hle)] at hslot
      cases hslot
    constructor
    · refine size?_congr fun other => size?_put_same e.slots ?_ other
      rw [hslot, size_withBlock]
      rfl
    · intro handle hne
      show Emulator.find? { e with slots := e.slots.put index _ } handle = _
      rw [find?_put e _ hindex, Function.update_of_ne hne]

end VideoCore.Emulator

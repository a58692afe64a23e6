import VideoCore.Proofs.Emulator.Buffers

/-!
# The slot table refines a partial map

`RefinesMap` says of one state of the emulator all that a user of the map has to know: where the map
is defined, what every operation answers, and what it makes of the map. It holds of every state,
whatever led there. What only holds of sessions that leave other people's handles alone is that no
two buffers share anything, and `slots_refine_map` adds that.
-/

namespace VideoCore.Emulator

open Hardware
open Dialog (Transcript)
open Session (Run)

/-- The emulator is a partial map from the handles 1 to 128 to memory, and everything that can be
done to it is an update of that map. -/
structure RefinesMap (e : Emulator) : Prop where
  domain : ∀ handle, (e.find? handle).isSome → 1 ≤ handle.toNat ∧ handle.toNat ≤ 128
  /-- The live buffers are the handles at which the map is defined. -/
  counted : e.liveBuffers =
    (List.range 128).countP fun i => (e.find? (UInt32.ofNat (i + 1))).isSome
  known : ∀ handle, e.isAllocated handle = (e.find? handle).isSome
  /-- A request that is not in order is turned away. -/
  rejects : ∀ r fault, r.check = .error fault → e.allocate r = .error fault
  /-- A request that is too large, or that finds no free slot, changes nothing. -/
  refuses : ∀ r, r.check = .ok () → r.size.toNat ≤ largestSize →
    (window < roundedSize r.size ∨ ∀ i < 128, (e.find? (UInt32.ofNat (i + 1))).isSome) →
    e.allocate r = .ok (none, e)
  /-- Any other request takes the lowest free slot, and its memory is all zero. -/
  takes : ∀ r, r.check = .ok () → roundedSize r.size ≤ window →
    (∃ i < 128, e.find? (UInt32.ofNat (i + 1)) = none) →
    ∃ i < 128, e.find? (UInt32.ofNat (i + 1)) = none ∧
      (∀ j < i, (e.find? (UInt32.ofNat (j + 1))).isSome) ∧
      ∃ buffer e' slot, e.allocate r = .ok (some buffer, e') ∧
        buffer.handle = UInt32.ofNat (i + 1) ∧ buffer.address = ⟨UInt32.ofNat i <<< 23⟩ ∧
        buffer.size = r.size ∧ slot.size = r.size ∧
        slot.block.bytes.data = Array.replicate (roundedSize r.size) 0 ∧
        e'.find? = Function.update e.find? buffer.handle (some slot)
  /-- A request whose rounded size overflows goes no further. -/
  overflows : ∀ r, r.check = .ok () → largestSize < r.size.toNat → e.allocate r = .error .overflow
  /-- A handle at which the map is defined is taken back. -/
  frees : ∀ handle, (e.find? handle).isSome →
    ∃ e' : Emulator, e.deallocate handle = pure (true, e') ∧
      e'.find? = Function.update e.find? handle none
  /-- Any other handle is reported and changes nothing. -/
  passes_over : ∀ handle, e.find? handle = none →
    e.deallocate handle = do
      report (.unknownHandle handle)
      return (false, e)
  /-- A kernel neither allocates nor frees, whether it passes, fails or crashes its model. -/
  executes : ∀ (κ : Type) (d : Dispatch) (events : List (Exchange Hardware)) (handle : Handle κ)
    (e' : Emulator), Performs (e.execute d) events (.ok (handle, e')) →
    ∀ h, (e'.find? h).map Slot.size = (e.find? h).map Slot.size
  /-- The host reaches the memory of one buffer at a time. -/
  writes : ∀ (b b' : Backends) (buffer : Buffer) (i offset : Nat) (bytes : ByteArray)
    (events : List (Exchange Hardware)), b.emulator = some e → buffer.host = .slot i →
    Transcript (b.writeBuffer? buffer offset bytes) events (some b') →
    ∃ e' : Emulator, b'.emulator = some e' ∧
      (∀ h, (e'.find? h).map Slot.size = (e.find? h).map Slot.size) ∧
      ∀ h, h ≠ UInt32.ofNat (i + 1) → e'.find? h = e.find? h

theorem takes_lowest {e : Emulator} {r : AllocationRequest} (hcheck : r.check = .ok ())
    (hfits : roundedSize r.size ≤ window)
    (hsome : ∃ i < slotCount, e.find? (SlotTable.handleOf i) = none) :
    ∃ i < slotCount, e.find? (SlotTable.handleOf i) = none ∧
      (∀ j < i, (e.find? (SlotTable.handleOf j)).isSome) ∧
      ∃ buffer e' slot, e.allocate r = .ok (some buffer, e') ∧
        buffer.handle = SlotTable.handleOf i ∧ buffer.address = ⟨UInt32.ofNat i <<< 23⟩ ∧
        buffer.size = r.size ∧ slot.size = r.size ∧
        slot.block.bytes.data = Array.replicate (roundedSize r.size) 0 ∧
        e'.find? = Function.update e.find? buffer.handle (some slot) := by
  obtain ⟨k, hk, hfree⟩ := hsome
  cases hfirst : e.slots.firstFree? with
  | none =>
    have hfull := (SlotTable.firstFree?_eq_none _).mp hfirst k hk
    rw [← find?_handleOf e hk, hfree] at hfull
    cases hfull
  | some i =>
    obtain ⟨hi, hfree, hlowest⟩ := (SlotTable.firstFree?_eq_some _).mp hfirst
    rw [← find?_handleOf e hi] at hfree
    replace hlowest : ∀ j < i, (e.find? (SlotTable.handleOf j)).isSome := by
      intro j hj
      rw [find?_handleOf e (Nat.lt_trans hj hi)]
      exact hlowest j hj
    have hallocate := allocate_of_free hcheck hfits hi hfree hlowest
    refine ⟨i, hi, hfree, hlowest, bufferAt i r.size, _, .zeroed r.size (le_largestSize hfits),
      hallocate, rfl, slotAddress_eq_shift hi, rfl, rfl, ?_, find?_put e _ hi⟩
    exact congrArg (Array.replicate · 0) (toNat_roundedWord_iff.mpr (le_largestSize hfits))

theorem refinesMap (e : Emulator) : RefinesMap e where
  domain := by
    intro handle h
    obtain ⟨index, hindex, rfl⟩ := handle_of_find? h
    rw [SlotTable.toNat_handleOf hindex]
    exact ⟨Nat.le_add_left .., hindex⟩
  counted := liveBuffers_eq e
  known := isAllocated_eq e
  rejects _ _ hcheck := allocate_of_invalid hcheck
  refuses _ hcheck hsize hfull := allocate_of_full hcheck hsize hfull
  takes _ hcheck hfits hsome := takes_lowest hcheck hfits hsome
  overflows _ hcheck hsize := allocate_of_overflow hcheck hsize
  frees _ hlive := deallocate_known hlive
  passes_over _ hdead := deallocate_unknown hdead
  executes _ _ _ _ _ hrun h := congrFun (execute_size? hrun) h
  writes := by
    intro b b' buffer i offset bytes events he hhost hwrite
    unfold Backends.writeBuffer? at hwrite
    split at hwrite
    · cases (Dialog.transcript_done.mp hwrite).2
    simp only [hhost, he] at hwrite
    obtain ⟨-, hb⟩ := Dialog.transcript_done.mp hwrite
    cases hb
    obtain ⟨hsize, hother⟩ := find?_modify e i fun block => (block.write? offset bytes).getD block
    exact ⟨_, rfl, congrFun hsize, hother⟩

/-- Two slots do not overlap on the bus. -/
theorem disjoint_of_ne {i j : Nat} {size size' : UInt32} (hi : i < slotCount) (hj : j < slotCount)
    (hsize : roundedSize size ≤ window) (hsize' : roundedSize size' ≤ window) (hne : i ≠ j) :
    (bufferAt i size).address.value.toNat + roundedSize size ≤
        (bufferAt j size').address.value.toNat ∨
      (bufferAt j size').address.value.toNat + roundedSize size' ≤
        (bufferAt i size).address.value.toNat := by
  have haddress : (bufferAt i size).address.value.toNat = i * window := toNat_slotAddress hi
  have haddress' : (bufferAt j size').address.value.toNat = j * window := toNat_slotAddress hj
  rw [haddress, haddress']
  unfold window at *
  rcases Nat.lt_or_gt_of_ne hne with h | h
  · exact .inl (by omega)
  · exact .inr (by omega)

/-- The slot table refines a partial map from handles to memory. Every state of the emulator is such
a map and every operation an update of it (`RefinesMap`). In a session in which nobody gives back
the handle of a buffer that somebody holds, any two buffers of the emulator have different handles,
and their memory does not overlap on the bus. -/
theorem slots_refine_map {start s : Session} {events : List (Exchange Hardware)}
    (hstart : ∀ name, start.buffers.get? name = none) (run : Run OwnHandles start events s) :
    (∀ e, RefinesMap e) ∧
    ∀ name other b c, name ≠ other → s.buffers.get? name = some b → s.buffers.get? other = some c →
      b.owner = .emulator → c.owner = .emulator →
      b.handle ≠ c.handle ∧
      (b.address.value.toNat + roundedSize b.size ≤ c.address.value.toNat ∨
        c.address.value.toNat + roundedSize c.size ≤ b.address.value.toNat) := by
  refine ⟨refinesMap, ?_⟩
  intro name other b c hne hb hc hbo hco
  have hplaced := allPlaced_of_run hstart run
  have hhandles : b.handle ≠ c.handle := fun heq =>
    hne (hplaced.apart name other b c hb hc hbo hco heq)
  refine ⟨hhandles, ?_⟩
  obtain ⟨i, hi, heq, hfits, -⟩ := hplaced.in_slot name b hb hbo
  obtain ⟨j, hj, heq', hfits', -⟩ := hplaced.in_slot other c hc hco
  have hij : i ≠ j := by
    rintro rfl
    apply hhandles
    rw [heq, heq']
    rfl
  rw [heq, heq']
  exact disjoint_of_ne hi hj hfits hfits' hij

/-- A session with a fresh emulator. -/
def sampleEmpty : Session :=
  { system := { config := { emulated := true, execution := .registers, memory := .mailbox },
                backends := { emulator := some {} } } }

/-- The slots after an allocation of 64 bytes, and after a second one of 100. -/
def sampleSlots : SlotTable := SlotTable.empty.put 0 (some (.zeroed 64))

def sampleSlots' : SlotTable := sampleSlots.put 1 (some (.zeroed 100))

def sampleOne : Session :=
  { sampleEmpty.withBackends { emulator := some { slots := sampleSlots } } with
    buffers := ⟨[("a", bufferAt 0 64)]⟩ }

def sampleTwo : Session :=
  { sampleEmpty.withBackends { emulator := some { slots := sampleSlots' } } with
    buffers := ⟨[("a", bufferAt 0 64), ("b", bufferAt 1 100)]⟩ }

set_option maxRecDepth 8000 in
theorem slots_refine_map_sample : (bufferAt 0 64).handle ≠ (bufferAt 1 100).handle := by
  have hfirst : Transcript (sampleEmpty.perform (.allocate "a" (some .emulator) { size := 64 }))
      [] sampleOne := .done _
  have hsecond : Transcript (sampleOne.perform (.allocate "b" (some .emulator) { size := 100 }))
      [] sampleTwo := .done _
  have hrun : Run OwnHandles sampleEmpty ([] ++ [] ++ []) sampleTwo :=
    .step (.step .start (by trivial) hfirst) (by trivial) hsecond
  exact ((slots_refine_map (fun _ => rfl) hrun).2 "a" "b" (bufferAt 0 64) (bufferAt 1 100)
    (by decide) rfl rfl rfl rfl).1

end VideoCore.Emulator

import VideoCore.System
import VideoCore.Proofs.Mailbox.Allocation
import VideoCore.Proofs.Mailbox.Tenure

/-!
# Buffers of the mailbox and the firmware's memory

What the allocation of a buffer and the end of a buffer mean for the firmware's allocator, over all
replies. An allocation goes one of six ways (`allocate_ways`), of which one gives a buffer, and the
end of a buffer one of two (`deallocate_ways`). Ways that stop short do so only because the operating
system failed a call.
-/

namespace VideoCore.Mailbox

open Firmware Hardware
open Dialog (Transcript)

/-- The operating system failed the call, so that nobody knows what the firmware did. -/
def CallFailed : Exchange Hardware → Prop
  | ⟨.property _, .error _⟩ => True
  | _ => False

/-! ## Single trips -/

theorem ofExchange_allocate (words : List UInt32)
    (reply : Reply (.property (.ofRequest .allocateMemory words 1))) :
    MemoryEvent.ofExchange (trip .allocateMemory words reply) =
      if answerOf _ reply = 0 then none else some (.granted (answerOf _ reply)) := rfl

theorem ofExchange_lock (handle : UInt32)
    (reply : Reply (.property (.ofRequest .lockMemory [handle] 1))) :
    MemoryEvent.ofExchange (trip .lockMemory [handle] reply) =
      if answerOf _ reply = 0 then none else some (.locked handle) := rfl

variable {handle : UInt32} (rest : List (Exchange Hardware))

theorem memoryEvents_granted {words : List UInt32}
    {answer : Reply (.property (.ofRequest .allocateMemory words 1))}
    (given : answerOf _ answer = handle) (nonzero : handle ≠ 0) :
    memoryEvents (trip .allocateMemory words answer :: rest) =
      .granted handle :: memoryEvents rest := by
  apply List.filterMap_cons_some
  rw [ofExchange_allocate, given, if_neg nonzero]

theorem memoryEvents_refused {words : List UInt32}
    {answer : Reply (.property (.ofRequest .allocateMemory words 1))} (zero : answerOf _ answer = 0) :
    memoryEvents (trip .allocateMemory words answer :: rest) = memoryEvents rest := by
  apply List.filterMap_cons_none
  rw [ofExchange_allocate, if_pos zero]

theorem memoryEvents_locked {answer : Reply (.property (.ofRequest .lockMemory [handle] 1))}
    (notNull : answerOf _ answer ≠ 0) :
    memoryEvents (trip .lockMemory [handle] answer :: rest) =
      .locked handle :: memoryEvents rest := by
  apply List.filterMap_cons_some
  rw [ofExchange_lock, if_neg notNull]

theorem memoryEvents_notLocked {answer : Reply (.property (.ofRequest .lockMemory [handle] 1))}
    (null : answerOf _ answer = 0) :
    memoryEvents (trip .lockMemory [handle] answer :: rest) = memoryEvents rest := by
  apply List.filterMap_cons_none
  rw [ofExchange_lock, if_pos null]

theorem memoryEvents_unlock (reply : Reply (.property (.ofRequest .unlockMemory [handle] 1))) :
    memoryEvents (trip .unlockMemory [handle] reply :: rest) =
      .unlockSent handle :: memoryEvents rest := rfl

theorem memoryEvents_release (reply : Reply (.property (.ofRequest .releaseMemory [handle] 1))) :
    memoryEvents (trip .releaseMemory [handle] reply :: rest) =
      .releaseSent handle :: memoryEvents rest := rfl

theorem memoryEvents_map {address : UInt32} {length : Nat}
    (reply : Reply (.mapPhysical address length)) :
    memoryEvents (⟨.mapPhysical address length, reply⟩ :: rest) = memoryEvents rest := rfl

omit rest in
/-- Undoing a mapping does not concern the firmware. -/
theorem memoryEvents_unmapping {events : List (Exchange Hardware)}
    (h : ∀ e ∈ events, ∃ base length, e.request = .unmapPhysical base length) :
    memoryEvents events = [] := by
  rw [memoryEvents, List.filterMap_eq_nil_iff]
  rintro ⟨request, reply⟩ he
  obtain ⟨base, length, hrequest⟩ := h _ he
  cases hrequest
  rfl

/-! ## Buffers -/

/-- The end of a buffer sends both messages, unless the call of the first one fails. -/
theorem deallocate_ways {handle : UInt32} {events : List (Exchange Hardware)}
    {r : Except Fault Bool} (h : Performs (deallocate handle) events r) :
    memoryEvents events = [.unlockSent handle, .releaseSent handle] ∨
    (memoryEvents events = [.unlockSent handle] ∧ ∃ e ∈ events, CallFailed e) := by
  rcases performs_deallocate h with ⟨cause, rfl, -⟩ | ⟨unlock, release, rfl, -⟩
  · exact .inr ⟨rfl, _, List.mem_singleton_self _, trivial⟩
  · exact .inl rfl

/-- The mailbox takes a buffer back after its mapping is undone, if it has one. -/
theorem release_deallocates {b b' : Backends} {buffer : Buffer} {result : Except Fault Bool}
    {events : List (Exchange Hardware)} (howner : buffer.owner = .mailbox)
    (h : Transcript (b.release buffer) events (result, b')) :
    ∃ unmapping rest, events = unmapping ++ rest ∧
      (∀ e ∈ unmapping, ∃ base length, e.request = .unmapPhysical base length) ∧
      Performs (deallocate buffer.handle) rest result := by
  obtain ⟨unmapping, rest, hevents, hunmapping, hrest⟩ : ∃ unmapping rest,
      events = unmapping ++ rest ∧
      (∀ e ∈ unmapping, ∃ base length, e.request = .unmapPhysical base length) ∧
      Transcript (b.deallocate buffer) rest (result, b') := by
    unfold Backends.release at h
    split at h
    · next base _ =>
      obtain ⟨first, rest, _, rfl, hunmap, hrest⟩ := Dialog.transcript_bind.mp h
      rw [transcript_request.mp hunmap]
      refine ⟨_, rest, rfl, ?_, hrest⟩
      intro e he
      rw [List.mem_singleton.mp he]
      exact ⟨base, buffer.size.toNat, rfl⟩
    · exact ⟨[], events, rfl, by simp, h⟩
  refine ⟨unmapping, rest, hevents, hunmapping, ?_⟩
  unfold Backends.deallocate at hrest
  rw [howner] at hrest
  obtain ⟨outcome, hdeallocate, hresult⟩ := Dialog.transcript_map.mp hrest
  cases hresult
  exact hdeallocate

/-- The ways that the allocation of a buffer can go: what it means for the firmware's allocator, the
buffer that comes of it, if any, and whether it was cut short by a failed call while it held a
handle. -/
inductive AllocationWay : List MemoryEvent → Option Buffer → Bool → Prop where
  /-- The request was turned away, or the firmware gave out no handle. -/
  | nothing : AllocationWay [] none false
  | stuckAtLock {h : UInt32} : AllocationWay [.granted h] none true
  /-- The firmware did not lock the block, which was given back. -/
  | notLocked {h : UInt32} : AllocationWay [.granted h, .releaseSent h] none false
  | mapped {b : Buffer} (owner : b.owner = .mailbox) :
      AllocationWay [.granted b.handle, .locked b.handle] (some b) false
  | stuckAtUnlock {h : UInt32} :
      AllocationWay [.granted h, .locked h, .unlockSent h] none true
  /-- The block could not be mapped, and was unlocked and given back. -/
  | notMapped {h : UInt32} :
      AllocationWay [.granted h, .locked h, .unlockSent h, .releaseSent h] none false

/-- The buffer that an allocation gave. -/
def bufferOf (r : Except Fault (Option Buffer)) : Option Buffer :=
  r.toOption.join

@[simp] theorem bufferOf_error (fault : Fault) : bufferOf (.error fault) = none := rfl

@[simp] theorem bufferOf_ok (buffer : Option Buffer) : bufferOf (.ok buffer) = buffer := by
  cases buffer <;> rfl

/-- Giving a block back at the end changes nothing about there being no buffer. -/
@[simp] theorem bufferOf_bind {α : Type} (x : Except Fault α)
    {ending : Except Fault (Option Buffer)} (h : bufferOf ending = none) :
    bufferOf (x.bind fun _ => ending) = none := by
  cases x with
  | error fault => rfl
  | ok a => exact h

/-- What is done with a handle goes one of the ways. -/
theorem lockAndMap_ways {size handle : UInt32} {events : List (Exchange Hardware)}
    {result : Except Fault (Option Buffer)} (h : LocksAndMaps size handle events result) :
    ∃ short, AllocationWay (.granted handle :: memoryEvents events) (bufferOf result) short ∧
      (short = true → ∃ e ∈ events, CallFailed e) := by
  cases h with
  | @lockFailed cause =>
    have hfailed : CallFailed (trip .lockMemory [handle] (.error cause)) := trivial
    exact ⟨true, .stuckAtLock, fun _ => ⟨_, List.mem_singleton_self _, hfailed⟩⟩
  | notLocked null =>
    rw [bufferOf_bind _ rfl, memoryEvents_notLocked _ null, memoryEvents_release]
    exact ⟨false, .notLocked, by simp⟩
  | @mapped answer address base locked notNull =>
    rw [memoryEvents_locked _ (locked ▸ notNull), memoryEvents_map]
    exact ⟨false, .mapped (b := ⟨.mailbox, handle, address, .mapped base, size⟩) rfl, by simp⟩
  | @unlockFailed answer address failure cause locked notNull =>
    have hfailed : CallFailed (trip .unlockMemory [handle] (.error cause)) := trivial
    rw [memoryEvents_locked _ (locked ▸ notNull), memoryEvents_map, memoryEvents_unlock]
    exact ⟨true, .stuckAtUnlock, fun _ => ⟨_, by simp, hfailed⟩⟩
  | notMapped locked notNull =>
    rw [bufferOf_bind _ rfl, memoryEvents_locked _ (locked ▸ notNull), memoryEvents_map,
      memoryEvents_unlock, memoryEvents_release]
    exact ⟨false, .notMapped, by simp⟩

/-- The allocation of a buffer goes one of the ways, and is cut short only by a failed call. -/
theorem allocate_ways {r : AllocationRequest} {events : List (Exchange Hardware)}
    {result : Except Fault (Option Buffer)} (h : Performs (allocate r) events result) :
    ∃ short, AllocationWay (memoryEvents events) (bufferOf result) short ∧
      (short = true → ∃ e ∈ events, CallFailed e) := by
  cases allocates_of_performs h with
  | invalid => exact ⟨false, .nothing, by simp⟩
  | grantFailed =>
    rw [memoryEvents_refused _ rfl]
    exact ⟨false, .nothing, by simp⟩
  | refused zero =>
    rw [memoryEvents_refused _ zero]
    exact ⟨false, .nothing, by simp⟩
  | granted given nonzero hrest =>
    obtain ⟨short, hway, hfailed⟩ := lockAndMap_ways hrest
    rw [memoryEvents_granted _ given nonzero]
    refine ⟨short, hway, ?_⟩
    intro hshort
    obtain ⟨e, he, hf⟩ := hfailed hshort
    exact ⟨e, List.mem_cons_of_mem _ he, hf⟩

/-- The mailbox gives out its own buffers only. -/
theorem allocate_owner {r : AllocationRequest} {events : List (Exchange Hardware)}
    {buffer : Buffer} (h : Performs (allocate r) events (.ok (some buffer))) :
    buffer.owner = .mailbox := by
  obtain ⟨short, hway, -⟩ := allocate_ways h
  generalize memoryEvents events = history at hway
  cases hway with
  | mapped owner => exact owner

/-- A buffer of one page, which the firmware knows as 5. -/
def sampleBuffer : Buffer :=
  { owner := .mailbox, handle := 5, address := ⟨0x1000⟩, host := .mapped ⟨0x7000⟩, size := 4096 }

end VideoCore.Mailbox

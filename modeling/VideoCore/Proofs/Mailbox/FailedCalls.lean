import VideoCore.Proofs.Mailbox.Buffers

/-!
# What a failed call leaves with the firmware

A call that the operating system fails ends the operation that made it, wherever that operation was.
So whether a block of GPU memory is given back depends on which call failed. Giving back is attempted
for every handle that an allocation got and did not turn into a buffer, and for every buffer that is
ended, except after a call that failed to lock the block or to unlock it (`release_sent_iff`). After
such a call the block stays with the firmware, and no later call will name it
(`failed_call_keeps_memory`).
-/

namespace VideoCore.Mailbox

open Firmware Hardware
open Dialog (Transcript)

/-- The operating system failed the call that was to carry an order about a handle. -/
def FailedOrder (tag : Tag) (handle : UInt32) : Exchange Hardware → Prop
  | ⟨.property m, .error _⟩ => m.tagId = tag.id ∧ m.content 0 = handle
  | _ => False

/-- The call to lock a block failed, or the call to unlock it. -/
def CutOff (handle : UInt32) (events : List (Exchange Hardware)) : Prop :=
  ∃ e ∈ events, FailedOrder .lockMemory handle e ∨ FailedOrder .unlockMemory handle e

@[simp] theorem not_failedOrder_ok {tag tag' : Tag} {handle : UInt32} {words : List UInt32}
    {answer : Vector UInt32 _} : ¬ FailedOrder tag handle (trip tag' words (.ok answer)) :=
  id

@[simp] theorem failedOrder_error {tag tag' : Tag} {handle : UInt32} {cause : Cause} :
    FailedOrder tag handle (trip tag' [handle] (.error cause)) ↔ tag'.id = tag.id := by
  have hcontent : (Message.ofRequest tag' [handle] 1).content 0 = handle := rfl
  constructor
  · intro h
    exact h.1
  · intro h
    exact ⟨h, hcontent⟩

theorem not_failedOrder_release {handle : UInt32} {tag : Tag}
    {release : Reply (.property (.ofRequest .releaseMemory [handle] 1))}
    (hne : Tag.releaseMemory.id ≠ tag.id) :
    ¬ FailedOrder tag handle (trip .releaseMemory [handle] release) := by
  cases release with
  | ok answer => exact not_failedOrder_ok
  | error cause => exact fun h => hne (failedOrder_error.mp h)

@[simp] theorem not_failedOrder_map {tag : Tag} {handle address : UInt32} {length : Nat}
    {reply : Reply (.mapPhysical address length)} :
    ¬ FailedOrder tag handle ⟨.mapPhysical address length, reply⟩ :=
  id

theorem cutOff_cons {handle : UInt32} {e : Exchange Hardware} {rest : List (Exchange Hardware)} :
    CutOff handle (e :: rest) ↔
      (FailedOrder .lockMemory handle e ∨ FailedOrder .unlockMemory handle e) ∨
        CutOff handle rest := by
  simp [CutOff]

@[simp] theorem not_cutOff_nil {handle : UInt32} : ¬ CutOff handle [] := by
  simp [CutOff]

/-- The release itself may fail: that it was attempted is all that counts. -/
@[simp] theorem not_cutOff_release {handle : UInt32}
    {release : Reply (.property (.ofRequest .releaseMemory [handle] 1))} :
    ¬ CutOff handle [trip .releaseMemory [handle] release] := by
  have hlock : Tag.releaseMemory.id ≠ Tag.lockMemory.id := by decide
  have hunlock : Tag.releaseMemory.id ≠ Tag.unlockMemory.id := by decide
  rw [cutOff_cons]
  simp [not_failedOrder_release hlock, not_failedOrder_release hunlock]

/-! ## Allocations -/

/-- A handle that does not become a buffer is given back, unless the call to lock it failed or the
call to unlock it. -/
theorem LocksAndMaps.releaseSent_iff {size handle : UInt32} {events : List (Exchange Hardware)}
    {result : Except Fault (Option Buffer)} (h : LocksAndMaps size handle events result)
    (hnone : ∀ b, result ≠ .ok (some b)) :
    .releaseSent handle ∈ memoryEvents events ↔ ¬ CutOff handle events := by
  cases h with
  | @lockFailed cause =>
    have hcut : CutOff handle [trip .lockMemory [handle] (.error cause)] :=
      cutOff_cons.mpr (.inl (.inl (failedOrder_error.mpr rfl)))
    rw [memoryEvents_notLocked _ rfl]
    simp [hcut, memoryEvents]
  | @notLocked answer release null =>
    have hwhole : ¬ CutOff handle [trip .lockMemory [handle] (.ok answer),
        trip .releaseMemory [handle] release] := by
      rw [cutOff_cons]
      simp
    rw [memoryEvents_notLocked _ null, memoryEvents_release]
    simp [hwhole]
  | mapped => exact absurd rfl (hnone _)
  | @unlockFailed answer address failure cause locked notNull =>
    have hcut : CutOff handle [trip .lockMemory [handle] (.ok answer),
        ⟨.mapPhysical address.physical size.toNat, .error failure⟩,
        trip .unlockMemory [handle] (.error cause)] := by
      have hfailed : FailedOrder .unlockMemory handle (trip .unlockMemory [handle] (.error cause)) :=
        failedOrder_error.mpr rfl
      exact ⟨_, by simp, .inr hfailed⟩
    rw [memoryEvents_locked _ (locked ▸ notNull), memoryEvents_map, memoryEvents_unlock]
    simp [hcut, memoryEvents]
  | @notMapped answer unlock address failure release locked notNull =>
    have hwhole : ¬ CutOff handle [trip .lockMemory [handle] (.ok answer),
        ⟨.mapPhysical address.physical size.toNat, .error failure⟩,
        trip .unlockMemory [handle] (.ok unlock), trip .releaseMemory [handle] release] := by
      rw [cutOff_cons, cutOff_cons, cutOff_cons]
      simp
    rw [memoryEvents_locked _ (locked ▸ notNull), memoryEvents_map, memoryEvents_unlock,
      memoryEvents_release]
    simp [hwhole]

/-- The only handle that an allocation is given is the one that it goes on to lock. -/
theorem LocksAndMaps.not_granted {size handle other : UInt32} {events : List (Exchange Hardware)}
    {result : Except Fault (Option Buffer)} (h : LocksAndMaps size handle events result) :
    .granted other ∉ memoryEvents events := by
  obtain ⟨short, hway, -⟩ := lockAndMap_ways h
  generalize memoryEvents events = later, bufferOf result = given at hway
  cases hway with
  | stuckAtLock | notLocked | mapped | stuckAtUnlock | notMapped => simp

theorem Allocates.releaseSent_iff {r : AllocationRequest} {events : List (Exchange Hardware)}
    {result : Except Fault (Option Buffer)} {handle : UInt32} (h : Allocates r events result)
    (hnone : ∀ b, result ≠ .ok (some b)) (hgranted : .granted handle ∈ memoryEvents events) :
    .releaseSent handle ∈ memoryEvents events ↔ ¬ CutOff handle events := by
  cases h with
  | invalid => simp [memoryEvents] at hgranted
  | grantFailed =>
    rw [memoryEvents_refused _ rfl] at hgranted
    simp [memoryEvents] at hgranted
  | refused zero =>
    rw [memoryEvents_refused _ zero] at hgranted
    simp [memoryEvents] at hgranted
  | @granted answer given events _ hgiven nonzero rest =>
    rw [memoryEvents_granted _ hgiven nonzero] at hgranted ⊢
    have hsame : handle = given := by
      rcases List.mem_cons.mp hgranted with heq | hlater
      · exact MemoryEvent.granted.inj heq
      · exact absurd hlater rest.not_granted
    subst hsame
    rw [cutOff_cons, List.mem_cons, rest.releaseSent_iff hnone]
    simp

/-! ## Ends of buffers -/

/-- The end of a buffer sends the unlock, and the release unless the call to unlock failed. -/
theorem releaseSent_iff_of_deallocate {handle : UInt32} {events : List (Exchange Hardware)}
    {result : Except Fault Bool} (h : Performs (deallocate handle) events result) :
    .unlockSent handle ∈ memoryEvents events ∧
      (.releaseSent handle ∈ memoryEvents events ↔ ¬ CutOff handle events) := by
  rcases performs_deallocate h with ⟨cause, rfl, -⟩ | ⟨unlock, release, rfl, -⟩
  · have hcut : CutOff handle [trip .unlockMemory [handle] (.error cause)] :=
      cutOff_cons.mpr (.inl (.inr (failedOrder_error.mpr rfl)))
    rw [memoryEvents_unlock]
    simp [hcut, memoryEvents]
  · have hwhole : ¬ CutOff handle [trip .unlockMemory [handle] (.ok unlock),
        trip .releaseMemory [handle] release] := by
      rw [cutOff_cons]
      simp
    rw [memoryEvents_unlock, memoryEvents_release]
    simp [hwhole]

theorem releaseSent_iff_of_release {b b' : Backends} {buffer : Buffer} {result : Except Fault Bool}
    {events : List (Exchange Hardware)} (howner : buffer.owner = .mailbox)
    (h : Transcript (b.release buffer) events (result, b')) :
    .unlockSent buffer.handle ∈ memoryEvents events ∧
      (.releaseSent buffer.handle ∈ memoryEvents events ↔ ¬ CutOff buffer.handle events) := by
  obtain ⟨unmapping, rest, rfl, hunmapping, hrest⟩ := release_deallocates howner h
  have hcut : CutOff buffer.handle (unmapping ++ rest) ↔ CutOff buffer.handle rest := by
    -- undoing a mapping carries no order
    have hnone : ∀ e ∈ unmapping, ∀ tag, ¬ FailedOrder tag buffer.handle e := by
      rintro ⟨request, reply⟩ he tag
      obtain ⟨base, length, hrequest⟩ := hunmapping _ he
      cases hrequest
      exact id
    constructor
    · rintro ⟨e, he, hfailed⟩
      rcases List.mem_append.mp he with he | he
      · rcases hfailed with hfailed | hfailed
        · exact absurd hfailed (hnone e he _)
        · exact absurd hfailed (hnone e he _)
      · exact ⟨e, he, hfailed⟩
    · rintro ⟨e, he, hfailed⟩
      exact ⟨e, List.mem_append_right _ he, hfailed⟩
  rw [memoryEvents_append, memoryEvents_unmapping hunmapping, List.nil_append, hcut]
  exact releaseSent_iff_of_deallocate hrest

/-! ## The result -/

/-- Whether the memory behind a handle is given back. For an allocation that got a handle and gave no
buffer, whatever was refused and whatever call failed, the release of the handle is sent exactly if
neither the call to lock it nor the call to unlock it failed. For a buffer that is ended the unlock is
always sent, and the release exactly if the call to unlock did not fail. -/
theorem release_sent_iff (handle : UInt32) :
    (∀ r events result, Performs (allocate r) events result →
      (∀ b, result ≠ .ok (some b)) → .granted handle ∈ memoryEvents events →
      (.releaseSent handle ∈ memoryEvents events ↔ ¬ CutOff handle events)) ∧
    (∀ b b' buffer result events, buffer.owner = .mailbox → buffer.handle = handle →
      Transcript (Backends.release b buffer) events (result, b') →
      .unlockSent handle ∈ memoryEvents events ∧
      (.releaseSent handle ∈ memoryEvents events ↔ ¬ CutOff handle events)) := by
  constructor
  · intro r events result h hnone hgranted
    exact (allocates_of_performs h).releaseSent_iff hnone hgranted
  · rintro b b' buffer result events howner rfl h
    exact releaseSent_iff_of_release howner h

/-! ### Three calls that fail -/

/-- A new block cannot be mapped, and the call to release it fails. -/
def releaseFailing : List (Exchange Hardware) :=
  [trip .allocateMemory [4096, 4096, 12] (.ok (accepting 3 5)),
    trip .lockMemory [5] (.ok (accepting 1 0x1000)),
    ⟨.mapPhysical 0x1000 4096, .error (.mapping (.system 19))⟩,
    trip .unlockMemory [5] (.ok (accepting 1 0)),
    trip .releaseMemory [5] (.error (.system 5))]

theorem performs_releaseFailing :
    Performs (allocate { size := 4096 }) releaseFailing
      (.error (.transport Tag.releaseMemory.id (.system 5))) := by
  refine .ask _ ?_
  refine .ask _ ?_
  refine .ask _ ?_
  refine .ask _ ?_
  refine .ask _ ?_
  exact .done _

/-- The call to lock a new block fails. -/
def lockFailing : List (Exchange Hardware) :=
  [trip .allocateMemory [4096, 4096, 12] (.ok (accepting 3 5)),
    trip .lockMemory [5] (.error (.system 5))]

theorem performs_lockFailing :
    Performs (allocate { size := 4096 }) lockFailing
      (.error (.transport Tag.lockMemory.id (.system 5))) := by
  refine .ask _ ?_
  refine .ask _ ?_
  exact .done _

/-- The call to unlock a buffer that is ended fails. -/
def unlockFailing : List (Exchange Hardware) :=
  [⟨.unmapPhysical ⟨0x7000⟩ 4096, ()⟩, trip .unlockMemory [5] (.error (.system 5))]

theorem transcript_unlockFailing :
    Transcript (Backends.release { mailbox := true } sampleBuffer) unlockFailing
      (.error (.transport Tag.unlockMemory.id (.system 5)), { mailbox := true }) := by
  refine .ask _ ?_
  refine .ask _ ?_
  exact .done _

/-- A release that fails was attempted, and so was an unlock. -/
theorem release_sent_iff_failing :
    .releaseSent 5 ∈ memoryEvents releaseFailing ∧ .unlockSent 5 ∈ memoryEvents unlockFailing := by
  have hevents : memoryEvents releaseFailing =
      [.granted 5, .locked 5, .unlockSent 5, .releaseSent 5] := rfl
  have hcalls : ¬ CutOff 5 releaseFailing := by
    rintro ⟨e, he, hfailed⟩
    have htags : Tag.releaseMemory.id ≠ Tag.lockMemory.id ∧
        Tag.releaseMemory.id ≠ Tag.unlockMemory.id := by decide
    simp only [releaseFailing, List.mem_cons, List.not_mem_nil, or_false] at he
    rcases he with rfl | rfl | rfl | rfl | rfl
    -- only the last call failed, and it carried neither order
    case inr.inr.inr.inr =>
      rcases hfailed with hfailed | hfailed
      · exact htags.1 hfailed.1
      · exact htags.2 hfailed.1
    all_goals exact hfailed.elim id id
  constructor
  · have hgranted : .granted 5 ∈ memoryEvents releaseFailing := by simp [hevents]
    exact ((release_sent_iff 5).1 _ _ _ performs_releaseFailing (by simp) hgranted).mpr hcalls
  · exact ((release_sent_iff 5).2 _ _ sampleBuffer _ _ rfl rfl transcript_unlockFailing).1

/-- A failed call can leave memory with the firmware: it is not so that every handle that did not
become a buffer is given back, nor that every buffer that is ended is. -/
theorem failed_call_keeps_memory :
    (¬ ∀ r events result handle, Performs (allocate r) events result →
      (∀ b, result ≠ .ok (some b)) → .granted handle ∈ memoryEvents events →
      .releaseSent handle ∈ memoryEvents events) ∧
    (¬ ∀ b b' buffer result events, buffer.owner = .mailbox →
      Transcript (Backends.release b buffer) events (result, b') →
      .unlockSent buffer.handle ∈ memoryEvents events ∧
      .releaseSent buffer.handle ∈ memoryEvents events) := by
  constructor
  · intro hall
    have hevents : memoryEvents lockFailing = [.granted 5] := rfl
    have hsent := hall _ _ _ 5 performs_lockFailing (by simp) (by simp [hevents])
    simp [hevents] at hsent
  · intro hall
    have hevents : memoryEvents unlockFailing = [.unlockSent 5] := rfl
    have hsent := (hall _ _ sampleBuffer _ _ rfl transcript_unlockFailing).2
    rw [hevents] at hsent
    simp [sampleBuffer] at hsent

end VideoCore.Mailbox

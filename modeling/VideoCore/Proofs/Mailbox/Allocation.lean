import VideoCore.Proofs.Mailbox.Calls

/-!
# Buffers of the mailbox, call by call

The allocation of a buffer asks for memory, locks what it gets and maps it. It can stop at each of
these calls, because the firmware refuses or because the call fails, and what it does then depends
on how far it has come. `Allocates` lists every way, with all that is exchanged and with the result,
and `allocates_of_performs` says that there is no other. The end of a buffer is shorter, and
`performs_deallocate` lists its two ways.

What an allocation means for one purpose or another is read off this list.
-/

namespace VideoCore.Mailbox

open Firmware Hardware

/-- The word that a reply gives, or 0. -/
def answerOf (m : Message) (reply : Reply (.property m)) : UInt32 :=
  ((wordOf m 0 reply).toOption.join).getD 0

/-! ## Allocating -/

/-- What is done with a handle that the firmware gave out. -/
inductive LocksAndMaps (size handle : UInt32) :
    List (Exchange Hardware) → Except Fault (Option Buffer) → Prop where
  | lockFailed {cause : Cause} :
      LocksAndMaps size handle [trip .lockMemory [handle] (.error cause)]
        (.error (.transport Tag.lockMemory.id cause))
  /-- The firmware does not lock the block, which is given back. -/
  | notLocked {answer : Vector UInt32 _}
      {release : Reply (.property (.ofRequest .releaseMemory [handle] 1))}
      (null : answerOf _ (.ok answer) = 0) :
      LocksAndMaps size handle
        [trip .lockMemory [handle] (.ok answer), trip .releaseMemory [handle] release]
        ((wordOf _ 0 release).bind fun _ => .ok none)
  | mapped {answer : Vector UInt32 _} {address : BusAddress} {base : HostAddress}
      (locked : answerOf _ (.ok answer) = address.value) (notNull : address.value ≠ 0) :
      LocksAndMaps size handle
        [trip .lockMemory [handle] (.ok answer),
          ⟨.mapPhysical address.physical size.toNat, .ok base⟩]
        (.ok (some { owner := .mailbox, handle, address, host := .mapped base, size }))
  | unlockFailed {answer : Vector UInt32 _} {address : BusAddress} {failure : MapFailure}
      {cause : Cause} (locked : answerOf _ (.ok answer) = address.value)
      (notNull : address.value ≠ 0) :
      LocksAndMaps size handle
        [trip .lockMemory [handle] (.ok answer),
          ⟨.mapPhysical address.physical size.toNat, .error failure⟩,
          trip .unlockMemory [handle] (.error cause)]
        (.error (.transport Tag.unlockMemory.id cause))
  /-- The block cannot be mapped, and is unlocked and given back. -/
  | notMapped {answer unlock : Vector UInt32 _} {address : BusAddress} {failure : MapFailure}
      {release : Reply (.property (.ofRequest .releaseMemory [handle] 1))}
      (locked : answerOf _ (.ok answer) = address.value) (notNull : address.value ≠ 0) :
      LocksAndMaps size handle
        [trip .lockMemory [handle] (.ok answer),
          ⟨.mapPhysical address.physical size.toNat, .error failure⟩,
          trip .unlockMemory [handle] (.ok unlock), trip .releaseMemory [handle] release]
        ((wordOf _ 0 release).bind fun _ =>
          .error (mapFault address.physical size.toNat failure))

/-- The request that an allocation makes of the firmware. The host maps whole pages. -/
def grantWords (r : AllocationRequest) : List UInt32 :=
  [r.size, max r.alignment BusAddress.pageAlignment, (MemoryFlags.ofCachePolicy r.cache).bits]

/-- The allocation of a buffer can have some exchanges and then ends with a result. -/
inductive Allocates (r : AllocationRequest) :
    List (Exchange Hardware) → Except Fault (Option Buffer) → Prop where
  /-- The request is turned away before anything is asked. -/
  | invalid {fault : Fault} (check : r.check = .error fault) : Allocates r [] (.error fault)
  | grantFailed {cause : Cause} :
      Allocates r [trip .allocateMemory (grantWords r) (.error cause)]
        (.error (.transport Tag.allocateMemory.id cause))
  /-- The firmware has no memory, or refuses the message. -/
  | refused {answer : Vector UInt32 _} (zero : answerOf _ (.ok answer) = 0) :
      Allocates r [trip .allocateMemory (grantWords r) (.ok answer)] (.ok none)
  | granted {answer : Vector UInt32 _} {handle : UInt32} {events : List (Exchange Hardware)}
      {result : Except Fault (Option Buffer)} (given : answerOf _ (.ok answer) = handle)
      (nonzero : handle ≠ 0) (rest : LocksAndMaps r.size handle events result) :
      Allocates r (trip .allocateMemory (grantWords r) (.ok answer) :: events) result

/-- A block that is given back before a sequence ends is released once, and the sequence ends as it
would have, unless the call for that fails. -/
theorem performs_giveBack {handle : UInt32} {x : Attempt (Option Buffer)}
    {ending r : Except Fault (Option Buffer)} {events : List (Exchange Hardware)}
    (hx : ∀ events r, Performs x events r → events = [] ∧ r = ending)
    (h : Performs (do discard (releaseMemory handle); x) events r) :
    ∃ release, events = [trip .releaseMemory [handle] release] ∧
      r = (wordOf _ 0 release).bind fun _ => ending := by
  rcases performs_bind.mp h with ⟨fault, hrelease, rfl⟩ | ⟨first, rest, _, rfl, hrelease, hrest⟩
  · obtain ⟨q, hrelease, hq⟩ := performs_discard.mp hrelease
    obtain ⟨release, rfl, rfl⟩ := performs_releaseMemory.mp hrelease
    refine ⟨release, rfl, ?_⟩
    cases release with
    | ok words => cases hq
    | error cause => cases hq; rfl
  · obtain ⟨q, hrelease, hq⟩ := performs_discard.mp hrelease
    obtain ⟨release, rfl, rfl⟩ := performs_releaseMemory.mp hrelease
    obtain ⟨rfl, rfl⟩ := hx rest r hrest
    refine ⟨release, rfl, ?_⟩
    cases release with
    | ok words => rfl
    | error cause => cases hq

/-- What is done after a locked block could not be mapped. -/
theorem performs_unmapped {handle : UInt32} {fault : Fault} {events : List (Exchange Hardware)}
    {r : Except Fault (Option Buffer)}
    (h : Performs (do
      discard (unlockMemory handle)
      discard (releaseMemory handle)
      throw fault) events r) :
    (∃ cause, events = [trip .unlockMemory [handle] (.error cause)] ∧
      r = .error (.transport Tag.unlockMemory.id cause)) ∨
    ∃ unlock release, events = [trip .unlockMemory [handle] (.ok unlock),
        trip .releaseMemory [handle] release] ∧
      r = (wordOf _ 0 release).bind fun _ => .error fault := by
  rcases performs_bind.mp h with ⟨cause, hunlock, rfl⟩ | ⟨first, rest, _, rfl, hunlock, hrest⟩
  · obtain ⟨q, hunlock, hq⟩ := performs_discard.mp hunlock
    obtain ⟨unlock, rfl, rfl⟩ := performs_unlockMemory.mp hunlock
    cases unlock with
    | ok words => cases hq
    | error cause =>
      cases hq
      exact .inl ⟨cause, rfl, rfl⟩
  · obtain ⟨q, hunlock, hq⟩ := performs_discard.mp hunlock
    obtain ⟨unlock, rfl, rfl⟩ := performs_unlockMemory.mp hunlock
    have hthrow : ∀ events r, Performs (throw fault : Attempt (Option Buffer)) events r →
        events = [] ∧ r = .error fault := fun events r h => performs_throw.mp h
    obtain ⟨release, rfl, rfl⟩ := performs_giveBack hthrow hrest
    cases unlock with
    | ok words => exact .inr ⟨words, release, rfl, rfl⟩
    | error cause => cases hq

/-- A handle that the firmware gave out is dealt with in one of the ways. -/
theorem locksAndMaps_of_performs {size handle : UInt32} {events : List (Exchange Hardware)}
    {result : Except Fault (Option Buffer)}
    (h : Performs (do
      let address ← lockMemory handle
      if address.isNull then
        discard (releaseMemory handle)
        return none
      match ← outcome (mapPhysical address.physical size.toNat) with
      | .ok base => return some { owner := .mailbox, handle, address, host := .mapped base, size }
      | .error fault =>
        discard (unlockMemory handle)
        discard (releaseMemory handle)
        throw fault) events result) : LocksAndMaps size handle events result := by
  rcases performs_bind.mp h with ⟨fault, hl, rfl⟩ | ⟨locking, rest, address, rfl, hl, hrest⟩
  · obtain ⟨locked, rfl, hr⟩ := performs_lockMemory.mp hl
    cases locked with
    | ok _ => cases hr
    | error cause => cases hr; exact .lockFailed
  obtain ⟨locked, rfl, hr⟩ := performs_lockMemory.mp hl
  rcases locked with cause | answer
  · cases hr
  have haddress : answerOf _ (.ok answer) = address.value := by cases hr; rfl
  by_cases hnull : address.isNull
  · -- the firmware did not lock the block
    rw [if_pos hnull] at hrest
    have hreturn : ∀ events r, Performs (pure none : Attempt (Option Buffer)) events r →
        events = [] ∧ r = .ok none := fun events r h => performs_pure.mp h
    obtain ⟨release, rfl, rfl⟩ := performs_giveBack hreturn hrest
    have hzero : address.value = 0 := by simpa [BusAddress.isNull] using hnull
    exact .notLocked (haddress.trans hzero)
  rw [if_neg hnull] at hrest
  have hnonzero : address.value ≠ 0 := by simpa [BusAddress.isNull] using hnull
  rcases performs_bind.mp hrest with ⟨fault, hm, rfl⟩ | ⟨mapping, last, mapped, rfl, hm, hlast⟩
  · -- the outcome of the mapping is looked at, so its fault cuts nothing off
    obtain ⟨q, -, hq⟩ := performs_outcome.mp hm
    cases hq
  obtain ⟨q, hm, hq⟩ := performs_outcome.mp hm
  cases hq
  obtain ⟨reply, rfl, hmapped⟩ := performs_mapPhysical.mp hm
  rcases reply with failure | base
  · cases hmapped
    rcases performs_unmapped hlast with ⟨cause, rfl, rfl⟩ | ⟨unlock, release, rfl, rfl⟩
    · exact .unlockFailed haddress hnonzero
    · exact .notMapped haddress hnonzero
  · cases hmapped
    obtain ⟨rfl, rfl⟩ := performs_pure.mp hlast
    exact .mapped haddress hnonzero

/-- The allocation of a buffer goes one of the ways. -/
theorem allocates_of_performs {r : AllocationRequest} {events : List (Exchange Hardware)}
    {result : Except Fault (Option Buffer)} (h : Performs (allocate r) events result) :
    Allocates r events result := by
  rcases performs_check.mp h with ⟨fault, hcheck, rfl, rfl⟩ | ⟨_, -, hrest⟩
  · exact .invalid hcheck
  rcases performs_bind.mp hrest with ⟨fault, hg, rfl⟩ | ⟨granting, last, handle, rfl, hg, hlast⟩
  · obtain ⟨reply, rfl, hr⟩ := performs_allocateMemory.mp hg
    cases reply with
    | ok _ => cases hr
    | error cause => cases hr; exact .grantFailed
  obtain ⟨reply, rfl, hr⟩ := performs_allocateMemory.mp hg
  rcases reply with cause | answer
  · cases hr
  have hhandle : answerOf _ (.ok answer) = handle := by cases hr; rfl
  by_cases hzero : handle = 0
  · rw [if_pos hzero] at hlast
    obtain ⟨rfl, rfl⟩ := performs_pure.mp hlast
    exact .refused (hhandle.trans hzero)
  · rw [if_neg hzero] at hlast
    exact .granted hhandle hzero (locksAndMaps_of_performs hlast)

/-! ## Taking back -/

/-- The end of a buffer sends the unlock, and the release unless the call for the unlock fails. -/
theorem performs_deallocate {handle : UInt32} {events : List (Exchange Hardware)}
    {r : Except Fault Bool} (h : Performs (deallocate handle) events r) :
    (∃ cause, events = [trip .unlockMemory [handle] (.error cause)] ∧
      r = .error (.transport Tag.unlockMemory.id cause)) ∨
    ∃ unlock release, events = [trip .unlockMemory [handle] (.ok unlock),
        trip .releaseMemory [handle] release] ∧
      r = (wordOf _ 0 (.ok unlock)).bind fun unlocked =>
        (wordOf _ 0 release).map fun released => unlocked == some 0 && released == some 0 := by
  rcases performs_bind.mp h with ⟨fault, hunlock, rfl⟩ | ⟨first, rest, _, rfl, hunlock, hrest⟩
  · obtain ⟨unlock, rfl, hr⟩ := performs_unlockMemory.mp hunlock
    cases unlock with
    | ok words => cases hr
    | error cause =>
      cases hr
      exact .inl ⟨cause, rfl, rfl⟩
  · obtain ⟨unlock, rfl, hr⟩ := performs_unlockMemory.mp hunlock
    obtain ⟨q, hrelease, rfl⟩ := performs_map.mp hrest
    obtain ⟨release, rfl, rfl⟩ := performs_releaseMemory.mp hrelease
    rcases unlock with cause | words
    · cases hr
    · cases hr
      refine .inr ⟨words, release, rfl, ?_⟩
      cases release with
      | ok _ => rfl
      | error _ => rfl

end VideoCore.Mailbox

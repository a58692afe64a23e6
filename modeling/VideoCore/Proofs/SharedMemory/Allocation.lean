import VideoCore.Proofs.Attempt
import VideoCore.SharedMemory

/-!
# Blocks of shared memory, call by call

An allocation asks the service for a block, has it locked and asks where it lies on the bus. Each of
the three answers can be one that the allocation cannot go on with, and then it gives back what it
has so far. `Allocates` lists every way, with all that is exchanged and with the result;
`performs_allocate` says that these are the ways there are, and that the service can bring about every
one of them.
-/

namespace VideoCore.SharedMemory

open Hardware
open Dialog (Transcript)

/-- The call that asks for a block, with the service's answer to it. -/
def granting (r : AllocationRequest) (handle : UInt32) : Exchange Hardware :=
  ⟨.allocateShared r.size (.ofPolicy r.cache) (listedName r.name), handle⟩

/-- A bus address that a buffer cannot have: none at all, or one that is not aligned as it was asked
for. -/
def Unusable (r : AllocationRequest) (address : UInt32) : Prop :=
  address = 0 ∨ address % r.alignment ≠ 0

instance (r : AllocationRequest) (address : UInt32) : Decidable (Unusable r address) :=
  inferInstanceAs (Decidable (_ ∨ _))

/-- The buffer for a block that was given out and locked. -/
def bufferAt (r : AllocationRequest) (handle address : UInt32) (host : HostAddress) : Buffer where
  owner := .sharedMemory
  handle := handle
  address := ⟨address⟩
  host := .borrowed host
  size := r.size

/-- What is done with a block that was given out. -/
inductive LocksAndPlaces (r : AllocationRequest) (handle : UInt32) :
    List (Exchange Hardware) → Option Buffer → Prop where
  /-- The service does not lock the block, which is freed. -/
  | notLocked :
      LocksAndPlaces r handle [⟨.lockShared handle, none⟩, ⟨.freeShared handle, ()⟩] none
  /-- The block lies where it cannot be used, and is unlocked and freed. -/
  | unusable {host : HostAddress} {address : UInt32} {unlocked : Bool}
      (bad : Unusable r address) :
      LocksAndPlaces r handle
        [⟨.lockShared handle, some host⟩, ⟨.sharedAddress handle, address⟩,
          ⟨.unlockShared (.address host), unlocked⟩, ⟨.freeShared handle, ()⟩] none
  | placed {host : HostAddress} {address : UInt32} (good : ¬ Unusable r address) :
      LocksAndPlaces r handle
        [⟨.lockShared handle, some host⟩, ⟨.sharedAddress handle, address⟩]
        (some (bufferAt r handle address host))

/-- The allocation of a buffer can have some exchanges and then ends with a result. -/
inductive Allocates (r : AllocationRequest) :
    List (Exchange Hardware) → Except Fault (Option Buffer) → Prop where
  /-- The request is turned away before anything is asked. -/
  | invalid {fault : Fault} (turnedAway : r.check = .error fault) : Allocates r [] (.error fault)
  /-- The service has no memory. -/
  | refused (valid : r.check = .ok ()) : Allocates r [granting r 0] (.ok none)
  | granted {handle : UInt32} {events : List (Exchange Hardware)} {result : Option Buffer}
      (valid : r.check = .ok ()) (nonzero : handle ≠ 0)
      (rest : LocksAndPlaces r handle events result) :
      Allocates r (granting r handle :: events) (.ok result)

variable {r : AllocationRequest} {handle : UInt32} {events : List (Exchange Hardware)}
  {result : Except Fault (Option Buffer)}

/-- What an allocation goes on with once a block was given out. -/
def lockAndPlace (r : AllocationRequest) (handle : UInt32) : Attempt (Option Buffer) := do
  match ← lockShared handle with
  | none =>
    freeShared handle
    return none
  | some host =>
    let address ← sharedAddress handle
    if address = 0 || address % r.alignment ≠ 0 then
      discard (unlockShared (.address host) : Access Bool)
      freeShared handle
      return none
    return some (bufferAt r handle address host)

theorem allocate_eq (r : AllocationRequest) : allocate r = (do
    r.check
    let handle ← allocateShared r.size (.ofPolicy r.cache) (listedName r.name)
    if handle = 0 then return none
    lockAndPlace r handle) := rfl

theorem performs_free :
    Performs (do freeShared handle; return none) events result ↔
      events = [⟨.freeShared handle, ()⟩] ∧ result = .ok none := by
  refine performs_ask.trans ?_
  constructor
  · rintro ⟨_, rest, rfl, hlast⟩
    obtain ⟨rfl, rfl⟩ := performs_pure.mp hlast
    exact ⟨rfl, rfl⟩
  · rintro ⟨rfl, rfl⟩
    exact ⟨(), [], rfl, performs_pure.mpr ⟨rfl, rfl⟩⟩

theorem locksAndPlaces_of_performs (h : Performs (lockAndPlace r handle) events result) :
    ∃ buffer, result = .ok buffer ∧ LocksAndPlaces r handle events buffer := by
  obtain ⟨locked, rest, rfl, hlocked⟩ := performs_ask.mp h
  cases locked with
  | none =>
    obtain ⟨rfl, rfl⟩ := performs_free.mp hlocked
    exact ⟨none, rfl, .notLocked⟩
  | some host =>
    obtain ⟨address, last, rfl, hplaced⟩ := performs_ask.mp hlocked
    split at hplaced
    · next hbad =>
      obtain ⟨unlocked, freeing, rfl, hfree⟩ := performs_ask_discard.mp hplaced
      obtain ⟨rfl, rfl⟩ := performs_free.mp hfree
      exact ⟨none, rfl, .unusable (by simpa [Unusable] using hbad)⟩
    · next hgood =>
      obtain ⟨rfl, rfl⟩ := performs_pure.mp hplaced
      exact ⟨_, rfl, .placed (by simpa [Unusable] using hgood)⟩

theorem LocksAndPlaces.performs {buffer : Option Buffer}
    (h : LocksAndPlaces r handle events buffer) :
    Performs (lockAndPlace r handle) events (.ok buffer) := by
  cases h with
  | notLocked =>
    exact performs_ask.mpr ⟨none, _, rfl, performs_free.mpr ⟨rfl, rfl⟩⟩
  | @unusable host address unlocked bad =>
    refine performs_ask.mpr ⟨some host, _, rfl, performs_ask.mpr ⟨address, _, rfl, ?_⟩⟩
    rw [if_pos (by simpa [Unusable] using bad)]
    exact performs_ask_discard.mpr ⟨unlocked, _, rfl, performs_free.mpr ⟨rfl, rfl⟩⟩
  | @placed host address good =>
    refine performs_ask.mpr ⟨some host, _, rfl, performs_ask.mpr ⟨address, _, rfl, ?_⟩⟩
    rw [if_neg (by simpa [Unusable] using good)]
    exact performs_pure.mpr ⟨rfl, rfl⟩

theorem performs_allocate : Performs (allocate r) events result ↔ Allocates r events result := by
  rw [allocate_eq, performs_check]
  constructor
  · rintro (⟨fault, hfault, rfl, rfl⟩ | ⟨_, hvalid, hgranting⟩)
    · exact .invalid hfault
    obtain ⟨handle, rest, rfl, hrest⟩ := performs_ask.mp hgranting
    split at hrest
    · next hzero =>
      obtain ⟨rfl, rfl⟩ := performs_pure.mp hrest
      rw [hzero]
      exact .refused hvalid
    · next hnonzero =>
      obtain ⟨buffer, rfl, hway⟩ := locksAndPlaces_of_performs hrest
      exact .granted hvalid hnonzero hway
  · intro h
    cases h with
    | invalid turnedAway => exact .inl ⟨_, turnedAway, rfl, rfl⟩
    | refused valid =>
      refine .inr ⟨(), valid, performs_ask.mpr ⟨0, [], rfl, ?_⟩⟩
      rw [if_pos rfl]
      exact performs_pure.mpr ⟨rfl, rfl⟩
    | granted valid nonzero rest =>
      refine .inr ⟨(), valid, performs_ask.mpr ⟨_, _, rfl, ?_⟩⟩
      rw [if_neg nonzero]
      exact rest.performs

/-- The shared memory service gives out its own buffers only. -/
theorem allocate_owner {buffer : Buffer}
    (h : Performs (allocate r) events (.ok (some buffer))) : buffer.owner = .sharedMemory := by
  cases performs_allocate.mp h with
  | granted _ _ rest =>
    cases rest with
    | placed => rfl

/-- A block that is taken back is unlocked and freed, with a report between the two if it could not
be unlocked. -/
theorem transcript_deallocate {host : HostPointer} {unlocked : Bool} :
    Transcript (deallocate handle host) events unlocked ↔
      events = ⟨.unlockShared host, unlocked⟩ ::
        ((if unlocked then [] else [⟨.report (.unlockFailed handle), ()⟩]) ++
          [⟨.freeShared handle, ()⟩]) := by
  have hlast : ∀ {rest : List (Exchange Hardware)} {u : Bool},
      Transcript (do freeShared handle; return u : Access Bool) rest unlocked ↔
        rest = [⟨.freeShared handle, ()⟩] ∧ unlocked = u := by
    intro rest u
    refine transcript_ask.trans ?_
    constructor
    · rintro ⟨_, last, rfl, hdone⟩
      obtain ⟨rfl, rfl⟩ := Dialog.transcript_done.mp hdone
      exact ⟨rfl, rfl⟩
    · rintro ⟨rfl, rfl⟩
      exact ⟨(), [], rfl, .done _⟩
  refine transcript_ask.trans ?_
  constructor
  · rintro ⟨reply, rest, rfl, h⟩
    cases reply with
    | true =>
      obtain ⟨rfl, rfl⟩ := hlast.mp h
      rfl
    | false =>
      obtain ⟨_, last, rfl, hfreeing⟩ := transcript_ask.mp h
      obtain ⟨rfl, rfl⟩ := hlast.mp hfreeing
      rfl
  · rintro rfl
    refine ⟨unlocked, _, rfl, ?_⟩
    cases unlocked with
    | true => exact hlast.mpr ⟨rfl, rfl⟩
    | false => exact transcript_ask.mpr ⟨(), _, rfl, hlast.mpr ⟨rfl, rfl⟩⟩

end VideoCore.SharedMemory

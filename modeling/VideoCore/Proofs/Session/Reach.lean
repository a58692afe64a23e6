import VideoCore.Proofs.Emulator.SlotMap
import VideoCore.Proofs.Mailbox.Buffers
import VideoCore.Proofs.Session.Run
import VideoCore.Proofs.SharedMemory.Allocation

/-!
# Which backend a request reaches

Every backend has requests of its own: the mailbox its messages, shared memory its blocks, and so
on. Memory of this process, time and reports belong to nobody. What a backend asks in use stays
within that, and neither switches the QPUs nor gives a way to the hardware up; what it asks when it is
stopped stays within that too.

So the exchanges of a session can be told apart by the backend that they reach, whatever the order in
which the backends are used.
-/

namespace VideoCore

open Firmware Hardware
open Dialog (Transcript)
open Trial (Asks asks_throw asks_bind asks_map asks_lift asks_check asks_pure Plain plain_pure plain_throw
  plain_bind plain_map plain_discard plain_check plain_first plain_lift)

namespace Hardware

/-- The backend that a request reaches, if it reaches one. -/
def Request.backend? : Request → Option BackendKind
  | .property _ => some .mailbox
  | .readRegister _ | .writeRegister _ _ => some .v3d
  | .allocateShared _ _ _ | .sharedAddress _ | .lockShared _ | .unlockShared _ | .freeShared _
  | .cleanShared _ => some .sharedMemory
  | .submitJob _ _ | .command _ => some .gpuService
  | .emulate _ => some .emulator
  | .retire kind => some kind
  | .awaitCompletion _ | .readClock | .sleep _ | .mapPhysical _ _ | .unmapPhysical _ _
  | .load _ _ _ | .store _ _ _ | .fileContents _ | .report _ | .overflow => none

/-- Where a request maps physical memory. -/
def Request.mapped? : Request → Option UInt32
  | .mapPhysical address _ => some address
  | _ => none

/-- A request that reaches a backend, if it reaches one, of one kind. -/
def Within (kind : BackendKind) (q : Request) : Prop :=
  q.backend? = none ∨ q.backend? = some kind

/-- A request that reaches a backend reaches the one that it stays within. -/
theorem Within.eq {kind other : BackendKind} {q : Request} (h : Within kind q)
    (k : q.backend? = some other) : kind = other := by
  rcases h with hnone | hsome
  · rw [hnone] at k
    cases k
  · rw [hsome] at k
    exact Option.some.inj k

/-- A request that belongs to the beginning or to the end of a backend. -/
def StartsOrStops : Request → Prop
  | .property m => m.tagId = Tag.enableQpu.id
  | .retire _ => True
  | _ => False

/-- Every beginning and every end is that of some backend. -/
theorem StartsOrStops.reaches {q : Request} (h : StartsOrStops q) : q.backend? ≠ none := by
  intro hnone
  cases q with
  | property | retire => cases hnone
  | _ => exact h

/-- A request that a backend makes in use. -/
structure Uses (kind : BackendKind) (q : Request) : Prop where
  within : Within kind q
  inUse : ¬ StartsOrStops q

/-- Time, memory of this process and reports are nobody's. -/
theorem Uses.ofNobody {kind : BackendKind} {q : Request} (h : q.backend? = none)
    (k : ¬ StartsOrStops q) : Uses kind q :=
  ⟨.inl h, k⟩

/-- What a request reports, if it is a report. -/
def Request.diagnostic? : Request → Option Diagnostic
  | .report diagnostic => some diagnostic
  | _ => none

/-- A request that a backend makes in use, and that reports nothing which is reported only when a backend
stops. -/
structure Works (kind : BackendKind) (q : Request) : Prop extends Uses kind q where
  noFarewell : ∀ d, q.diagnostic? = some d → ¬ d.OfStop

/-- What reaches a backend is no report. -/
theorem Works.ofBackend {kind : BackendKind} {q : Request} (h : q.backend? = some kind)
    (k : ¬ StartsOrStops q) : Works kind q := by
  refine ⟨⟨.inr h, k⟩, ?_⟩
  intro d hd
  cases q with
  | report => cases h
  | _ => cases hd

theorem Works.ofNobody {kind : BackendKind} {q : Request} (h : q.backend? = none)
    (k : ¬ StartsOrStops q) (hreport : q.diagnostic? = none) : Works kind q := by
  refine ⟨.ofNobody h k, ?_⟩
  intro d hd
  rw [hreport] at hd
  cases hd

theorem Works.ofReport {kind : BackendKind} {diagnostic : Diagnostic} (h : ¬ diagnostic.OfStop) :
    Works kind (.report diagnostic) := by
  refine ⟨.ofNobody rfl id, ?_⟩
  intro d hd
  cases hd
  exact h

end Hardware

/-! ## The mailbox -/

namespace Mailbox

theorem call_works {m : Message} (h : m.tagId ≠ Tag.enableQpu.id) :
    Plain (Works .mailbox) (call m) := by
  refine plain_first (.ofBackend rfl h) fun reply => ?_
  cases reply with
  | error cause => exact plain_throw _
  | ok words => exact plain_pure _

theorem requestWord_works {tag : Tag} {words : List UInt32} {responseWords index : Nat}
    (h : tag ≠ .enableQpu) :
    Plain (Works .mailbox) (requestWord tag words responseWords index) := by
  have htag : (Message.ofRequest tag words responseWords).tagId ≠ Tag.enableQpu.id :=
    fun hsame => h (Tag.id_injective hsame)
  exact plain_map (plain_map (call_works htag))

theorem mapPhysical_works {kind : BackendKind} (address : UInt32) (length : Nat) :
    Plain (Works kind) (mapPhysical address length) := by
  refine plain_first (.ofNobody rfl id rfl) fun reply => ?_
  rcases reply with (cause | cause) | base
  · exact plain_throw _
  · exact plain_throw _
  · exact plain_pure _

theorem allocateMemory_works (size alignment : UInt32) (flags : MemoryFlags) :
    Plain (Works .mailbox) (allocateMemory size alignment flags) :=
  plain_map (requestWord_works (by decide))

theorem lockMemory_works (handle : UInt32) : Plain (Works .mailbox) (lockMemory handle) :=
  plain_map (requestWord_works (by decide))

theorem unlockMemory_works (handle : UInt32) : Plain (Works .mailbox) (unlockMemory handle) :=
  plain_map (requestWord_works (by decide))

theorem releaseMemory_works (handle : UInt32) : Plain (Works .mailbox) (releaseMemory handle) :=
  plain_map (requestWord_works (by decide))

theorem allocate_works (r : AllocationRequest) : Plain (Works .mailbox) (allocate r) := by
  refine plain_check fun _ => ?_
  refine plain_bind (allocateMemory_works _ _ _) fun handle => ?_
  split
  · exact plain_pure _
  refine plain_bind (lockMemory_works handle) fun address => ?_
  split
  · exact plain_bind (plain_discard (releaseMemory_works handle)) fun _ => plain_pure _
  refine plain_bind (plain_outcome (mapPhysical_works _ _)) fun mapped => ?_
  cases mapped with
  | ok base => exact plain_pure _
  | error fault =>
    refine plain_bind (plain_discard (unlockMemory_works handle)) fun _ => ?_
    exact plain_bind (plain_discard (releaseMemory_works handle)) fun _ => plain_throw _

theorem deallocate_works (handle : UInt32) : Plain (Works .mailbox) (deallocate handle) :=
  plain_bind (unlockMemory_works handle) fun _ => plain_map (releaseMemory_works handle)

theorem execute_works {κ : Type} (d : Dispatch) :
    Plain (Works .mailbox) (execute (κ := κ) d) := by
  refine plain_check fun _ => ?_
  split
  · exact plain_pure _
  · exact plain_map (requestWord_works (by decide))

end Mailbox

/-! ## The register block -/

namespace V3d

theorem readRegister_works (offset : UInt32) : (readRegister offset).Plain (Works .v3d) :=
  plain_ask (.ofBackend rfl id)

theorem writeRegister_works (offset value : UInt32) :
    (writeRegister offset value).Plain (Works .v3d) :=
  plain_ask (.ofBackend rfl id)

theorem poll_works (expected : UInt32) (start : Instant) (timeout interval : Duration) :
    (poll expected start timeout interval).Plain (Works .v3d) := by
  have hclock : readClock.Plain (Works .v3d) := plain_ask (.ofNobody rfl id rfl)
  refine Dialog.Plain.bind (Dialog.Plain.bind (readRegister_works _) fun _ => trivial) fun count => ?_
  split
  · trivial
  refine Dialog.Plain.bind hclock fun now => ?_
  split
  · trivial
  split
  · refine Dialog.Plain.bind hclock fun _ => ?_
    exact Dialog.Plain.bind (plain_ask (.ofNobody rfl id rfl)) fun _ => trivial
  · trivial

theorem flushCaches_works : flushCaches.Plain (Works .v3d) :=
  Dialog.Plain.bind (writeRegister_works _ _) fun _ => writeRegister_works _ _

theorem enqueue_works (control : List ControlPair) : (enqueue control).Plain (Works .v3d) := by
  refine Dialog.Plain.bind (writeRegister_works _ _) fun _ => ?_
  induction control with
  | nil => trivial
  | cons pair rest ih =>
    refine Dialog.Plain.bind ?_ fun _ => ih
    exact Dialog.Plain.bind (writeRegister_works _ _) fun _ => writeRegister_works _ _

theorem run_works (v3d : V3d) (control : List ControlPair) (flushCache : Bool)
    (timeout : Duration) : (v3d.run control flushCache timeout).Asks (Works .v3d) := by
  refine Dialog.Asks.bind (asks_ask (.ofNobody rfl id rfl)) fun start => ?_
  have hrest : ∀ u : PUnit, Dialog.Asks (Works .v3d) (do
      enqueue control
      let expected := UInt32.ofNat control.length &&& countMask
      Dialog.iterate (fun () => poll expected start timeout v3d.pollInterval) () :
        Access Bool) := by
    intro _
    refine Dialog.Asks.bind (enqueue_works control).asks fun _ => ?_
    exact ⟨fun _ => (poll_works _ _ _ _).asks, fun _ => trivial⟩
  split
  · exact Dialog.Asks.bind flushCaches_works.asks hrest
  · exact hrest ⟨⟩

theorem execute_works {κ : Type} (v3d : V3d) (d : Dispatch) :
    Asks (Works .v3d) (v3d.execute (κ := κ) d) :=
  asks_check fun _ => asks_bind (asks_lift (v3d.run_works _ _ _)) fun _ => asks_pure _

end V3d

/-! ## Shared memory -/

namespace SharedMemory

theorem allocate_works (r : AllocationRequest) : Plain (Works .sharedMemory) (allocate r) := by
  refine plain_check fun _ => ?_
  refine plain_first (.ofBackend rfl id) fun handle => ?_
  split
  · exact plain_pure _
  refine plain_first (.ofBackend rfl id) fun locked => ?_
  cases locked with
  | none => exact plain_first (.ofBackend rfl id) fun _ => plain_pure _
  | some host =>
    refine plain_first (.ofBackend rfl id) fun address => ?_
    split
    · refine plain_bind (plain_discard (plain_lift (plain_ask (.ofBackend rfl id)))) fun _ => ?_
      exact plain_first (.ofBackend rfl id) fun _ => plain_pure _
    · exact plain_pure _

theorem deallocate_works (handle : UInt32) (host : HostPointer) :
    (deallocate handle host).Plain (Works .sharedMemory) := by
  have hfree : ∀ unlocked : Bool, Dialog.Plain (Works .sharedMemory)
      (do freeShared handle; return unlocked : Access Bool) :=
    fun unlocked => Dialog.Plain.bind (plain_ask (.ofBackend rfl id)) fun _ => trivial
  refine Dialog.Plain.bind (plain_ask (.ofBackend rfl id)) fun unlocked => ?_
  cases unlocked with
  | false => exact Dialog.Plain.bind (plain_ask (.ofReport id)) fun _ => hfree false
  | true => exact hfree true

end SharedMemory

/-! ## The GPU service -/

namespace GpuService

theorem execute_works (g : GpuService) (d : Dispatch) : Plain (Works .gpuService) (g.execute d) := by
  refine plain_check fun _ => ?_
  split
  · exact plain_pure _
  refine plain_first (.ofNobody rfl id rfl) fun submitted => ?_
  refine plain_first (.ofBackend rfl id) fun submission => ?_
  split
  · exact plain_pure _
  · exact plain_pure _

theorem waitTurn_works {kind : BackendKind} (w : JobWait) (t : Tracker) :
    (waitTurn w t).Plain (Works kind) := by
  unfold waitTurn
  split
  · trivial
  refine Dialog.Plain.bind (plain_ask (.ofNobody rfl id rfl)) fun now => ?_
  split
  · trivial
  · exact Dialog.Plain.bind (plain_ask (.ofNobody rfl id rfl)) fun _ => trivial

/-- A wait blocks and reads the clock. -/
theorem awaitJob_works {kind : BackendKind} (w : JobWait) (t : Tracker) :
    (awaitJob w t).Asks (Works kind) :=
  ⟨fun t => (waitTurn_works w t).asks, fun _ => trivial⟩

end GpuService

/-! ## The emulator -/

namespace Emulator

theorem deallocate_works (e : Emulator) (handle : UInt32) :
    (e.deallocate handle).Plain (Works .emulator) := by
  unfold deallocate
  split
  · trivial
  · exact Dialog.Plain.bind (plain_ask (.ofReport id)) fun _ => trivial

theorem execute_works {κ : Type} (e : Emulator) (d : Dispatch) :
    Plain (Works .emulator) (e.execute (κ := κ) d) := by
  refine plain_check fun _ => ?_
  split
  · exact plain_pure _
  split
  · exact plain_pure _
  refine plain_first (.ofBackend rfl id) fun emulated => ?_
  dsimp only
  split
  · exact plain_pure _
  · exact plain_pure _
  · exact plain_pure _

end Emulator

/-! ## Backends -/

namespace Backends

theorem allocate_works (b : Backends) (owner : Owner) (r : AllocationRequest) :
    Plain (Works owner.kind) (b.allocate owner r) := by
  cases owner with
  | mailbox => exact plain_map (Mailbox.allocate_works r)
  | sharedMemory => exact plain_map (SharedMemory.allocate_works r)
  | emulator =>
    unfold Backends.allocate
    dsimp only
    split
    · exact plain_pure _
    · exact plain_check fun _ => plain_pure _

theorem allocate_uses (b : Backends) (owner : Owner) (r : AllocationRequest) :
    Plain (Uses owner.kind) (b.allocate owner r) :=
  (b.allocate_works owner r).imp fun _ h => h.toUses

/-- A backend gives out its own buffers only. -/
theorem allocate_owner {b b' : Backends} {owner : Owner} {r : AllocationRequest} {buffer : Buffer}
    {events : List (Exchange Hardware)}
    (h : Performs (b.allocate owner r) events (.ok (some buffer, b'))) : buffer.owner = owner := by
  cases owner with
  | mailbox =>
    obtain ⟨given, hgiven, hr⟩ := performs_map_ok.mp h
    cases hr
    exact Mailbox.allocate_owner hgiven
  | sharedMemory =>
    obtain ⟨given, hgiven, hr⟩ := performs_map_ok.mp h
    cases hr
    exact SharedMemory.allocate_owner hgiven
  | emulator =>
    obtain ⟨-, e, e', -, hallocate, -⟩ := emulator_allocated h
    rcases Emulator.allocate_cases hallocate with ⟨hnone, -⟩ | ⟨index, -, -, -, hsome, -⟩
    · cases hnone
    · cases hsome
      rfl

theorem deallocate_works (b : Backends) (buffer : Buffer) :
    (b.deallocate buffer).Plain (Works buffer.owner.kind) := by
  unfold Backends.deallocate
  cases buffer.owner with
  | mailbox =>
    have hback := (Mailbox.deallocate_works buffer.handle).run
    exact hback.bind fun _ => trivial
  | sharedMemory => exact Dialog.Plain.bind (SharedMemory.deallocate_works _ _) fun _ => trivial
  | emulator =>
    dsimp only
    split
    · trivial
    · next e _ => exact Dialog.Plain.bind (e.deallocate_works _) fun _ => trivial

theorem deallocate_uses (b : Backends) (buffer : Buffer) :
    (b.deallocate buffer).Plain (Uses buffer.owner.kind) :=
  (b.deallocate_works buffer).imp fun _ h => h.toUses

/-- A mapping that belongs to a buffer is nobody's. -/
theorem release_works (b : Backends) (buffer : Buffer) :
    (b.release buffer).Plain (Works buffer.owner.kind) := by
  unfold Backends.release
  split
  · exact Dialog.Plain.bind (plain_ask (.ofNobody rfl id rfl)) fun _ => b.deallocate_works buffer
  · exact b.deallocate_works buffer

theorem release_uses (b : Backends) (buffer : Buffer) :
    (b.release buffer).Plain (Uses buffer.owner.kind) :=
  (b.release_works buffer).imp fun _ h => h.toUses

theorem execute_works (b : Backends) (kind : BackendKind) (d : Dispatch) :
    Asks (Works kind) (b.execute kind d) := by
  unfold Backends.execute
  cases kind with
  | mailbox => exact asks_map (Mailbox.execute_works d).asks
  | sharedMemory => exact asks_throw _
  | v3d =>
    dsimp only
    split
    · exact asks_throw _
    · next v _ => exact asks_map (v.execute_works d)
  | gpuService =>
    dsimp only
    split
    · exact asks_throw _
    · next g _ => exact asks_map (g.execute_works d).asks
  | emulator =>
    dsimp only
    split
    · exact asks_throw _
    · next e _ => exact asks_map (e.execute_works d).asks

theorem writeBuffer_works {kind : BackendKind} (b : Backends) (buffer : Buffer) (offset : Nat)
    (bytes : ByteArray) : (b.writeBuffer? buffer offset bytes).Plain (Works kind) := by
  unfold Backends.writeBuffer?
  split
  · trivial
  split
  · exact Dialog.Plain.bind (plain_ask (.ofNobody rfl id rfl)) fun _ => trivial
  · exact Dialog.Plain.bind (plain_ask (.ofNobody rfl id rfl)) fun _ => trivial
  · trivial

/-- A backend that is stopped reaches itself alone. -/
theorem stop_within (b : Backends) (kind : BackendKind) : (b.stop kind).Plain (Within kind) := by
  refine b.stop_plain ?_ (fun _ => .inl rfl) (.inr rfl)
  rintro rfl
  exact .inr rfl

end Backends

/-! ## Sessions -/

namespace Session

/-- Everything but losing sight of a buffer, with what that leaves behind, and giving a handle back
behind the back of its buffer. -/
def Verb.Orderly : Verb → Prop
  | .forget _ | .surrender _ | .deallocate _ => False
  | _ => True

/-- A backend that is not stopped is left alone. -/
theorem stopUnheld_within (s : Session) (kind : BackendKind) :
    (s.stopUnheld kind).Plain (Within kind) := by
  unfold stopUnheld
  split
  · trivial
  · exact Dialog.Plain.bind (s.system.backends.stop_within kind) fun _ => trivial

theorem stopUnheld_plain (s : Session) (kind : BackendKind) :
    (s.stopUnheld kind).Plain fun _ => True :=
  (s.stopUnheld_within kind).imp fun _ _ => trivial

/-- The end of a buffer repeats nothing. -/
theorem endBuffer_plain (s : Session) (buffer : Buffer) :
    (s.endBuffer buffer).Plain fun _ => True := by
  have hback : (s.system.backends.release buffer).Plain fun _ => True :=
    (s.system.backends.release_works buffer).imp fun _ _ => trivial
  exact hback.bind fun _ => (stopUnheld_plain _ _).bind fun _ => trivial

/-- An execution reaches one backend, and not the one that executes nothing. -/
theorem execute_works {s s' : Session} {name : String} {path : Option BackendKind} {d : Dispatch}
    {events : List (Exchange Hardware)}
    (h : Transcript (s.perform (.execute name path d)) events s') :
    ∃ kind ≠ .sharedMemory, ∀ e ∈ events, Works kind e.request := by
  obtain ⟨⟨result, _⟩, h, rfl⟩ := Dialog.transcript_map.mp h
  obtain ⟨first, rest, outcome, rfl, hattempt, h⟩ := Dialog.transcript_bind.mp h
  -- nothing is asked once the attempt is over
  obtain rfl : rest = [] := by
    cases outcome with
    | error fault => exact (Dialog.transcript_done.mp h).1
    | ok pair => exact (Dialog.transcript_done.mp h).1
  rw [List.append_nil]
  rcases executing_ways hattempt with ⟨rfl, -⟩ | ⟨kind, hkind⟩
  · exact ⟨.mailbox, nofun, by simp⟩
  by_cases hshared : kind = .sharedMemory
  · subst hshared
    obtain ⟨rfl, -⟩ := performs_throw.mp hkind
    exact ⟨.mailbox, nofun, by simp⟩
  · exact ⟨kind, hshared, (Backends.execute_works _ kind d).run.of_transcript hkind⟩

theorem execute_uses {s s' : Session} {name : String} {path : Option BackendKind} {d : Dispatch}
    {events : List (Exchange Hardware)}
    (h : Transcript (s.perform (.execute name path d)) events s') :
    ∃ kind ≠ .sharedMemory, ∀ e ∈ events, Uses kind e.request := by
  obtain ⟨kind, hkind, hworks⟩ := execute_works h
  exact ⟨kind, hkind, fun e he => (hworks e he).toUses⟩

/-- Writing to a buffer reaches no backend. -/
theorem write_works {kind : BackendKind} (s : Session) (name : String) (offset : Nat)
    (bytes : ByteArray) : (s.perform (.write name offset bytes)).Plain (Works kind) := by
  show (s.write name offset bytes).Plain (Works kind)
  unfold write
  split
  · trivial
  · next buffer _ =>
    refine Dialog.Plain.bind (Backends.writeBuffer_works _ buffer offset bytes) fun written => ?_
    cases written <;> trivial

theorem write_uses {kind : BackendKind} (s : Session) (name : String) (offset : Nat)
    (bytes : ByteArray) : (s.perform (.write name offset bytes)).Plain (Uses kind) :=
  (s.write_works name offset bytes).imp fun _ h => h.toUses

/-- Waiting reaches no backend. -/
theorem wait_works {kind : BackendKind} (s : Session) (name : String) :
    (s.perform (.wait name)).Asks (Works kind) := by
  refine Dialog.Asks.bind ?_ fun _ => trivial
  unfold wait
  split
  · trivial
  · next handle _ =>
    refine Dialog.Asks.bind ?_ fun _ => trivial
    cases handle with
    | settled passed => trivial
    | abandoned => trivial
    | pending w =>
      refine Dialog.Asks.bind ?_ fun _ => trivial
      exact Dialog.Asks.bind (GpuService.awaitJob_works w _) fun _ => trivial

theorem wait_uses {kind : BackendKind} (s : Session) (name : String) :
    (s.perform (.wait name)).Asks (Uses kind) :=
  (s.wait_works name).imp fun _ h => h.toUses

end Session

end VideoCore

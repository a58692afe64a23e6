import VideoCore.Proofs.Session.Run
import VideoCore.Proofs.System.Faults

/-!
# Mistakes of the caller

Some arguments no backend could serve: a buffer of no bytes, an alignment that is not a power of two, a
dispatch to no QPU or to more than there are, a counter or a QPU that does not exist. A call with such
arguments is turned away where it is made, by the system or by the backend that is used directly, before
anything is asked of the machine and before any state of a backend changes (`MistakesTurnedAway`).

The calls are those that take an allocation request, a dispatch, or the number of a counter or of a
QPU. The single messages of the mailbox and the bare run of a list of programs take none of these, and
check nothing.
-/

namespace VideoCore

open Hardware
open Dialog (Transcript)
open GpuService (JobWait)

/-! ## Attempts that are turned away -/

namespace Hardware

variable {α β : Type}

/-- An attempt that is turned away with a fault: it asks nothing, and it comes back in any surroundings,
which are then as they were. -/
structure TurnedAway (x : Attempt α) (fault : Fault) : Prop where
  silent : ∀ events r, Performs x events r ↔ events = [] ∧ r = .error fault
  untouched : ∀ {τ : Type} (answer : Surroundings Hardware τ) (turns : Nat) (t : τ),
    x.run.run answer turns t = some (.error fault, t)

theorem turnedAway_throw (fault : Fault) : TurnedAway (throw fault : Attempt α) fault :=
  ⟨fun _ _ => performs_throw, fun _ _ _ => rfl⟩

/-- A sequence is turned away where its first part is. -/
theorem TurnedAway.bind {x : Attempt α} {fault : Fault} (h : TurnedAway x fault)
    (f : α → Attempt β) : TurnedAway (x >>= f) fault := by
  constructor
  · intro events r
    rw [performs_bind]
    constructor
    · rintro (⟨other, hx, rfl⟩ | ⟨first, rest, a, rfl, hx, -⟩)
      · obtain ⟨rfl, hr⟩ := (h.silent _ _).mp hx
        cases hr
        exact ⟨rfl, rfl⟩
      · cases ((h.silent _ _).mp hx).2
    · rintro ⟨rfl, rfl⟩
      exact .inl ⟨fault, (h.silent _ _).mpr ⟨rfl, rfl⟩, rfl⟩
  · intro τ answer turns t
    rw [Trial.run_bind, Dialog.run_bind, h.untouched]
    rfl

/-- So is everything that a check which fails stands in front of. -/
theorem turnedAway_of_check {e : Except Fault α} {fault : Fault} (h : e = .error fault)
    (f : α → Attempt β) : TurnedAway (liftM e >>= f) fault := by
  subst h
  exact (turnedAway_throw fault).bind f

/-- A transcript of what goes on from an attempt that is turned away is one of the failure alone. -/
theorem TurnedAway.transcript {x : Attempt α} {fault : Fault} (h : TurnedAway x fault)
    {f : Except Fault α → Access β} {events : List (Exchange Hardware)} {b : β} :
    Transcript (x.run.bind f) events b ↔ Transcript (f (.error fault)) events b := by
  rw [Dialog.transcript_bind]
  constructor
  · rintro ⟨first, rest, r, rfl, hx, hrest⟩
    obtain ⟨rfl, rfl⟩ := (h.silent _ _).mp hx
    exact hrest
  · intro hrest
    exact ⟨[], events, .error fault, rfl, (h.silent _ _).mpr ⟨rfl, rfl⟩, hrest⟩

end Hardware

/-! ## What is wrong with the arguments -/

/-- What is said of a request that no backend could serve. -/
def AllocationRequest.complaint (r : AllocationRequest) : Fault :=
  .invalidArgument (if r.size = 0 then .emptyBuffer else .alignment r.alignment)

theorem AllocationRequest.check_of_invalid {r : AllocationRequest} (h : r.Invalid) :
    r.check = .error r.complaint := by
  unfold check complaint
  split
  · rfl
  · next hsize =>
    have hpower : ¬ isPowerOfTwo r.alignment = true := by
      rw [isPowerOfTwo_iff]
      exact h.resolve_left hsize
    rw [if_neg hpower]

/-- What is said of a dispatch that no backend could execute. -/
def Dispatch.complaint (d : Dispatch) : Fault :=
  .invalidArgument (.dispatchWidth d.control.length)

theorem Dispatch.check_of_invalid {d : Dispatch} (h : d.Invalid) :
    d.check = .error d.complaint := by
  cases hcheck : d.check with
  | ok => exact absurd h (check_eq_ok_iff_not_invalid.mp hcheck)
  | error fault =>
    unfold check at hcheck
    split at hcheck
    · cases hcheck
      rfl
    · cases hcheck

namespace V3d

theorem checkCounter_of_le {index : UInt8} (h : 16 ≤ index.toNat) :
    checkCounter index = .error (.counterIndexOutOfRange index 15) := by
  have hrange : ¬ index < counterCount := by
    rw [UInt8.lt_iff_toNat_lt]
    exact Nat.not_lt.mpr h
  exact if_neg hrange

theorem reservationPlace_of_le {qpu : UInt8} (h : 16 ≤ qpu.toNat) :
    reservationPlace qpu = .error (.qpuIndexOutOfRange qpu 15) := by
  have hrange : ¬ qpu < reservationCount := by
    rw [UInt8.lt_iff_toNat_lt]
    exact Nat.not_lt.mpr h
  exact if_neg hrange

end V3d

/-! ## Calls -/

/-- A call whose arguments can be wrong. Buffers and dispatches go through the system, or directly
through one of its backends. -/
inductive Call where
  | allocate (source : Option Owner) (request : AllocationRequest)
  | execute (path : Option BackendKind) (dispatch : Dispatch)
  | setCounter (index : UInt8) (event : V3d.CounterEvent)
  | resetCounter (index : UInt8)
  | getCounter (index : UInt8)
  | disableCounter (index : UInt8)
  | setReservation (qpu : UInt8) (bits : UInt32)
  | reservation (qpu : UInt8)

namespace Call

/-- What a call gives back if it succeeds. -/
def Result : Call → Type
  | allocate _ _ => Option Buffer × Backends
  | execute _ _ => Handle JobWait × Backends
  | setCounter _ _ | resetCounter _ | disableCounter _ | setReservation _ _ => Unit
  | getCounter _ | reservation _ => UInt32

/-- A call as a session makes it. -/
def made (s : Session) : (c : Call) → Attempt c.Result
  | allocate source r => s.allocating source r
  | execute path d => s.executing path d
  | setCounter index event => V3d.setCounter index event
  | resetCounter index => V3d.resetCounter index
  | getCounter index => V3d.getCounter index
  | disableCounter index => V3d.disableCounter index
  | setReservation qpu bits => V3d.setReservation qpu bits
  | reservation qpu => V3d.reservation qpu

/-- A session offers every call through its system, and the calls of the backends that are up. -/
def Offered (b : Backends) : Call → Prop
  | allocate source _ => ∀ owner, source = some owner → b.has owner.kind = true
  | execute path _ => ∀ kind, path = some kind → b.has kind = true ∧ kind ≠ .sharedMemory
  | setCounter _ _ | resetCounter _ | getCounter _ | disableCounter _ | setReservation _ _
  | reservation _ => b.has .v3d = true

/-- A call with arguments that no backend could serve. -/
def Mistaken : Call → Prop
  | allocate _ r => r.size = 0 ∨ ¬ r.alignment.toNat.isPowerOfTwo
  | execute _ d => d.control.length = 0 ∨ 12 < d.control.length
  | setCounter index _ | resetCounter index | getCounter index | disableCounter index =>
    16 ≤ index.toNat
  | setReservation qpu _ | reservation qpu => 16 ≤ qpu.toNat

/-- What is said of such a call. -/
def complaint : Call → Fault
  | allocate _ r => r.complaint
  | execute _ d => d.complaint
  | setCounter index _ | resetCounter index | getCounter index | disableCounter index =>
    .counterIndexOutOfRange index 15
  | setReservation qpu _ | reservation qpu => .qpuIndexOutOfRange qpu 15

/-- The name of the kind of fault that fits the arguments. -/
def faultKind : Call → String
  | allocate _ _ | execute _ _ => "InvalidArgument"
  | setCounter _ _ | resetCounter _ | getCounter _ | disableCounter _ => "CounterIndexOutOfRange"
  | setReservation _ _ | reservation _ => "QpuIndexOutOfRange"

/-- A complaint is of the kind that fits, and no reason to give a device up. -/
theorem complaint_harmless (c : Call) :
    c.complaint.kind = c.faultKind ∧ c.complaint.isFatal = false := by
  cases c
  all_goals exact ⟨rfl, rfl⟩

end Call

/-! ## Turning away -/

namespace Backends

variable {b : Backends}

/-- Every owner of memory looks at a request before anything else. -/
theorem allocate_turnedAway {owner : Owner} {r : AllocationRequest}
    (hhas : b.has owner.kind = true) (h : r.Invalid) :
    TurnedAway (b.allocate owner r) r.complaint := by
  have hcheck := AllocationRequest.check_of_invalid h
  cases owner with
  | mailbox => exact (turnedAway_of_check hcheck _).bind _
  | sharedMemory => exact (turnedAway_of_check hcheck _).bind _
  | emulator =>
    unfold allocate
    cases hemulator : b.emulator with
    | none => simp [has, Owner.kind, hemulator] at hhas
    | some e =>
      -- the emulator's own allocation asks nothing and can be looked at as a whole
      have hfails : e.allocate r = .error r.complaint := by
        unfold Emulator.allocate
        rw [hcheck]
        rfl
      exact turnedAway_of_check hfails _

/-- So does every backend that executes with a dispatch. -/
theorem execute_turnedAway {kind : BackendKind} {d : Dispatch}
    (hhas : b.has kind = true) (hexecutes : kind ≠ .sharedMemory) (h : d.Invalid) :
    TurnedAway (b.execute kind d) d.complaint := by
  have hcheck := Dispatch.check_of_invalid h
  cases kind with
  | sharedMemory => exact absurd rfl hexecutes
  | mailbox => exact (turnedAway_of_check hcheck _).bind _
  | v3d =>
    unfold execute
    cases hv3d : b.v3d with
    | none => simp [has, hv3d] at hhas
    | some v => exact (turnedAway_of_check hcheck _).bind _
  | gpuService =>
    unfold execute
    cases hservice : b.gpuService with
    | none => simp [has, hservice] at hhas
    | some g => exact (turnedAway_of_check hcheck _).bind _
  | emulator =>
    unfold execute
    cases hemulator : b.emulator with
    | none => simp [has, hemulator] at hhas
    | some e => exact (turnedAway_of_check hcheck _).bind _

end Backends

namespace Call

variable {s : Session}

theorem allocate_turnedAway {source : Option Owner} {r : AllocationRequest}
    (hoffered : (allocate source r).Offered s.system.backends) (h : r.Invalid) :
    TurnedAway (s.allocating source r) r.complaint := by
  cases source with
  | none => exact (turnedAway_of_check (AllocationRequest.check_of_invalid h) _).bind _
  | some owner => exact Backends.allocate_turnedAway (hoffered owner rfl) h

theorem execute_turnedAway {path : Option BackendKind} {d : Dispatch}
    (hoffered : (execute path d).Offered s.system.backends) (h : d.Invalid) :
    TurnedAway (s.executing path d) d.complaint := by
  cases path with
  | none => exact (turnedAway_of_check (Dispatch.check_of_invalid h) _).bind _
  | some kind =>
    obtain ⟨hhas, hexecutes⟩ := hoffered kind rfl
    exact Backends.execute_turnedAway hhas hexecutes h

/-- A call with wrong arguments is turned away for what is wrong with them. -/
theorem made_turnedAway {c : Call} (hoffered : c.Offered s.system.backends) (h : c.Mistaken) :
    TurnedAway (c.made s) c.complaint := by
  cases c with
  | allocate source r => exact allocate_turnedAway hoffered h
  | execute path d => exact execute_turnedAway hoffered h
  | setCounter index event => exact turnedAway_of_check (V3d.checkCounter_of_le h) _
  | resetCounter index => exact turnedAway_of_check (V3d.checkCounter_of_le h) _
  | getCounter index => exact turnedAway_of_check (V3d.checkCounter_of_le h) _
  | disableCounter index => exact turnedAway_of_check (V3d.checkCounter_of_le h) _
  | setReservation qpu bits => exact turnedAway_of_check (V3d.reservationPlace_of_le h) _
  | reservation qpu => exact turnedAway_of_check (V3d.reservationPlace_of_le h) _

end Call

/-! ## All calls -/

namespace Session

/-- What becomes of wrong arguments, whatever the state of the session and of the machine. -/
structure MistakesTurnedAway (s : Session) : Prop where
  /-- The system and its backends turn the call away, before anything else. -/
  turnedAway : ∀ c : Call, c.Offered s.system.backends → c.Mistaken →
    TurnedAway (c.made s) c.complaint
  /-- What is said fits the arguments, and gives no reason to give a device up. -/
  harmless : ∀ c : Call, c.complaint.kind = c.faultKind ∧ c.complaint.isFatal = false
  /-- An allocation that is turned away leaves the session as it is: its buffers, and the state of
  every backend. -/
  allocation : ∀ name source r events answer s',
    (Call.allocate source r).Offered s.system.backends → r.Invalid →
    (Transcript (s.allocate name source r) events (answer, s') ↔
      events = [] ∧ answer = .error r.complaint ∧ s' = s)
  /-- So does a dispatch that is turned away. -/
  execution : ∀ name path d events answer s',
    (Call.execute path d).Offered s.system.backends → d.Invalid →
    (Transcript (s.execute name path d) events (answer, s') ↔
      events = [] ∧ answer = .error d.complaint ∧ s' = s)
  /-- Where no backend was selected for memory, that is said of requests without mistakes only. -/
  withoutMemory : s.system.memory = none → ∀ r,
    (r.Invalid → TurnedAway (s.system.allocate r) r.complaint) ∧
    (¬ r.Invalid → TurnedAway (s.system.allocate r) (.unsupported .allocation))
  /-- It is the same where none was selected for execution. -/
  withoutExecution : s.system.execution = none → ∀ d,
    (d.Invalid → TurnedAway (s.system.execute d) d.complaint) ∧
    (¬ d.Invalid → TurnedAway (s.system.execute d) (.unsupported .execution))

/-- Mistakes of the caller never reach the hardware, and change nothing. -/
theorem mistakes_turned_away (s : Session) : MistakesTurnedAway s where
  turnedAway _ hoffered hmistaken := Call.made_turnedAway hoffered hmistaken
  harmless := Call.complaint_harmless
  allocation name source r events answer s' hoffered hinvalid := by
    refine (Call.allocate_turnedAway hoffered hinvalid).transcript.trans ?_
    refine Dialog.transcript_done.trans ?_
    rw [Prod.mk.injEq]
  execution name path d events answer s' hoffered hinvalid := by
    refine (Call.execute_turnedAway hoffered hinvalid).transcript.trans ?_
    refine Dialog.transcript_done.trans ?_
    rw [Prod.mk.injEq]
  withoutMemory hmemory r := by
    refine ⟨fun h => turnedAway_of_check (AllocationRequest.check_of_invalid h) _, fun h => ?_⟩
    unfold System.allocate
    rw [AllocationRequest.check_eq_ok_iff_not_invalid.mpr h, hmemory]
    exact turnedAway_throw _
  withoutExecution hexecution d := by
    refine ⟨fun h => turnedAway_of_check (Dispatch.check_of_invalid h) _, fun h => ?_⟩
    unfold System.execute
    rw [Dispatch.check_eq_ok_iff_not_invalid.mpr h, hexecution]
    exact turnedAway_throw _

/-- A session with the mailbox and the register block, whose memory would come from a service that is
not there. -/
def sampleUnselected : Session :=
  { system :=
      { config := { Config.standard with execution := .registers }
        backends := { mailbox := true, v3d := some {} } } }

/-- A buffer of no bytes is refused for that and not for want of a backend, thirteen programs are not
sent to the firmware, and a counter that does not exist is not looked for. -/
theorem mistakes_turned_away_sample :
    sampleUnselected.system.memory = none ∧
    TurnedAway (sampleUnselected.system.allocate { size := 0 }) (.invalidArgument .emptyBuffer) ∧
    Transcript
      (sampleUnselected.execute "k" (some .mailbox) { control := List.replicate 13 default }) []
      (.error (.invalidArgument (.dispatchWidth 13)), sampleUnselected) ∧
    TurnedAway (V3d.getCounter 16) (.counterIndexOutOfRange 16 15) := by
  have hsorted := mistakes_turned_away sampleUnselected
  have hoffered : (Call.execute (some .mailbox) { control := List.replicate 13 default }).Offered
      sampleUnselected.system.backends := by
    rintro kind ⟨⟩
    exact ⟨rfl, nofun⟩
  have hwide : Dispatch.Invalid { control := List.replicate 13 default } := .inr (by decide)
  refine ⟨rfl, (hsorted.withoutMemory rfl _).1 (.inl rfl), ?_, ?_⟩
  · exact (hsorted.execution "k" _ _ _ _ _ hoffered hwide).mpr ⟨rfl, rfl, rfl⟩
  · exact hsorted.turnedAway (.getCounter 16) rfl (by decide : 16 ≤ (16 : UInt8).toNat)

end Session

end VideoCore

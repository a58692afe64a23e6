import VideoCore.Proofs.Mailbox.MemoryProtocol
import VideoCore.Proofs.System.Alignment
import VideoCore.Proofs.System.Endings
import VideoCore.Proofs.System.Refusals

/-!
# Faults and refusals of a system

A caller decides by the result of a call whether to give the device up. `FaultsSorted` says what the
four calls of a system let him conclude, over all backends and all answers of the machine. A fault
means that the arguments were wrong, that no backend was selected, or that a call of the operating
system failed, and it is fatal in the last case only. A refusal of the hardware is a result like any
other.

The one failure that does not come out is that of the order to switch the QPUs off, which the mailbox
sends when the last buffer that held it is gone (`inUse`).

The one result that is neither of them is an overflow. The emulator rounds a size before it looks whether
there is room for it, and the rounded size of the 191 largest does not fit its word: a request for one
of them is not refused as too large (`System.Overflows`).
-/

namespace VideoCore

open Firmware Hardware
open Dialog (Transcript)
open GpuService (JobWait)

/-! ## Results -/

/-- The result of a call accounts for what happened in it: it is a fault exactly if the call was
misused or something broke down, fatal exactly in the latter case, and otherwise says no exactly if the
call was refused. -/
structure Accounts {α : Type} (misused broken refused : Prop) (saysNo : α → Prop)
    (result : Except Fault α) : Prop where
  faulty : (∃ fault, result = .error fault) ↔ misused ∨ broken
  fatal : ∀ fault, result = .error fault → (fault.isFatal = true ↔ broken)
  declined : ∀ a, result = .ok a → (saysNo a ↔ refused)

section Accounts

variable {α : Type} {misused broken refused : Prop} {saysNo : α → Prop} {result : Except Fault α}

/-- A call that is not misused accounts for what its backend tells apart. -/
theorem ToldApart.accounts (h : ToldApart saysNo refused broken result) (hmisused : ¬ misused) :
    Accounts misused broken refused saysNo result := by
  cases result with
  | error fault =>
    obtain ⟨hfatal, hbroken⟩ := h
    refine ⟨iff_of_true ⟨fault, rfl⟩ (.inr hbroken), ?_, nofun⟩
    rintro _ ⟨⟩
    exact iff_of_true hfatal hbroken
  | ok a =>
    obtain ⟨hbroken, hno⟩ := h
    refine ⟨iff_of_false nofun (not_or.mpr ⟨hmisused, hbroken⟩), nofun, ?_⟩
    rintro _ ⟨⟩
    exact hno

/-- A call that is misused is turned away before anything can break down. -/
theorem accounts_of_misused {fault : Fault} (hmisused : misused) (hbroken : ¬ broken)
    (hharmless : fault.isFatal = false) : Accounts misused broken refused saysNo (.error fault) := by
  refine ⟨iff_of_true ⟨fault, rfl⟩ (.inl hmisused), ?_, nofun⟩
  rintro _ ⟨⟩
  rw [hharmless]
  exact iff_of_false nofun hbroken

end Accounts

/-! ## Allocations and executions -/

/-- A request that no backend could serve. -/
def AllocationRequest.Invalid (r : AllocationRequest) : Prop :=
  r.size = 0 ∨ ¬ r.alignment.toNat.isPowerOfTwo

theorem AllocationRequest.check_eq_ok_iff_not_invalid {r : AllocationRequest} :
    r.check = .ok () ↔ ¬ r.Invalid := by
  rw [check_eq_ok_iff, isPowerOfTwo_iff, Invalid, not_or, not_not]

/-- A request is turned away for what is wrong with it, and that is no reason to give a device up. -/
theorem AllocationRequest.invalid_of_check {r : AllocationRequest} {fault : Fault}
    (h : r.check = .error fault) : r.Invalid ∧ fault.isFatal = false := by
  constructor
  · by_contra hvalid
    rw [check_eq_ok_iff_not_invalid.mpr hvalid] at h
    cases h
  · unfold check at h
    split at h
    · cases h
      rfl
    · split at h
      · cases h
      · cases h
        rfl

theorem AllocationRequest.check_ne_overflow {r : AllocationRequest} : r.check ≠ .error .overflow := by
  unfold check
  split
  · exact nofun
  · split
    all_goals exact nofun

/-- A dispatch that no backend could execute. -/
def Dispatch.Invalid (d : Dispatch) : Prop := d.control.length = 0 ∨ 12 < d.control.length

theorem Dispatch.check_eq_ok_iff_not_invalid {d : Dispatch} : d.check = .ok () ↔ ¬ d.Invalid := by
  rw [check_eq_ok_iff, Invalid, maxQpus]
  omega

theorem Dispatch.invalid_of_check {d : Dispatch} {fault : Fault} (h : d.check = .error fault) :
    d.Invalid ∧ fault.isFatal = false := by
  constructor
  · by_contra hvalid
    rw [check_eq_ok_iff_not_invalid.mpr hvalid] at h
    cases h
  · unfold check at h
    split at h
    · cases h
      rfl
    · cases h

namespace System

variable {s : System} {events : List (Exchange Hardware)}

/-- A backend that memory comes from is up. -/
theorem has_of_memory {owner : Owner} (h : s.memory = some owner) :
    s.backends.has owner.kind = true := by
  unfold memory at h
  dsimp only at h
  split at h
  · next hhas =>
    cases h
    exact hhas
  · cases h

/-- A backend that kernels execute through is up, and it is not that of shared memory. -/
theorem has_of_execution {kind : BackendKind} (h : s.execution = some kind) :
    s.backends.has kind = true ∧ kind ≠ .sharedMemory := by
  unfold execution at h
  dsimp only at h
  split at h
  · next hhas =>
    cases h
    refine ⟨hhas, ?_⟩
    unfold preferredExecution
    split
    · exact nofun
    · split
      all_goals exact nofun
  · cases h

/-- The request that a backend gets is as well formed as the one that was made. -/
theorem check_adjust {r : AllocationRequest} (c : Config) (h : r.check = .ok ()) :
    (adjust c r).check = .ok () := by
  obtain ⟨hsize, hpower⟩ := AllocationRequest.check_eq_ok_iff.mp h
  refine AllocationRequest.check_eq_ok_iff.mpr ⟨hsize, ?_⟩
  show isPowerOfTwo (if r.alignment ≤ BusAddress.pageAlignment then BusAddress.pageAlignment
    else r.alignment) = true
  split
  · decide
  · exact hpower

/-- Whether the memory backend refuses a request, in the form in which it gets it. -/
def MemoryRefused (s : System) (r : AllocationRequest) (events : List (Exchange Hardware)) : Prop :=
  ∃ owner, s.memory = some owner ∧ s.backends.MemoryRefused owner (adjust s.config r) events

/-- A request for which the emulator would round a size that is too large for that. -/
structure Overflows (s : System) (r : AllocationRequest) : Prop where
  valid : ¬ r.Invalid
  memory : s.memory = some .emulator
  size : Emulator.largestSize < r.size.toNat

theorem allocate_accounts {r : AllocationRequest} {result : Except Fault (Option Buffer × System)}
    (hoverflow : ¬ s.Overflows r) (h : Performs (s.allocate r) events result) :
    Accounts (r.Invalid ∨ s.memory = none) (Broken events) (s.MemoryRefused r events)
      (fun pair => pair.1 = none) result := by
  unfold allocate at h
  rcases performs_check.mp h with ⟨fault, hfault, rfl, rfl⟩ | ⟨_, hcheck, hrest⟩
  · obtain ⟨hinvalid, hharmless⟩ := AllocationRequest.invalid_of_check hfault
    exact accounts_of_misused (.inl hinvalid) not_broken_nil hharmless
  have hvalid := AllocationRequest.check_eq_ok_iff_not_invalid.mp hcheck
  cases hmemory : s.memory with
  | none =>
    simp only [hmemory] at hrest
    obtain ⟨rfl, rfl⟩ := performs_throw.mp hrest
    exact accounts_of_misused (.inr rfl) not_broken_nil rfl
  | some owner =>
    simp only [hmemory] at hrest
    obtain ⟨pair, hpair, rfl⟩ := performs_map.mp hrest
    have hsize : owner = .emulator → r.size.toNat ≤ Emulator.largestSize := by
      rintro rfl
      exact Nat.le_of_not_lt fun hsize => hoverflow ⟨hvalid, hmemory, hsize⟩
    have htold := Backends.allocate_toldApart (has_of_memory hmemory)
      (check_adjust s.config hcheck) hsize hpair
    have hrefused : s.backends.MemoryRefused owner (adjust s.config r) events ↔
        s.MemoryRefused r events := by
      simp [MemoryRefused, hmemory]
    refine ToldApart.accounts ((htold.congr hrefused Iff.rfl).map fun _ => Iff.rfl) ?_
    exact not_or.mpr ⟨hvalid, nofun⟩

/-- A request that overflows gets no further than that. -/
theorem Overflows.performs {r : AllocationRequest} (h : s.Overflows r)
    {result : Except Fault (Option Buffer × System)} (hrun : Performs (s.allocate r) events result) :
    events = [] ∧ result = .error .overflow := by
  have hcheck := AllocationRequest.check_eq_ok_iff_not_invalid.mpr h.valid
  obtain ⟨e, he⟩ := Option.isSome_iff_exists.mp (has_of_memory h.memory)
  have hstop : e.allocate (adjust s.config r) = .error .overflow :=
    Emulator.allocate_of_overflow (check_adjust s.config hcheck) h.size
  unfold allocate at hrun
  rw [hcheck, h.memory] at hrun
  simp only [Backends.allocate, he, hstop] at hrun
  exact performs_throw.mp hrun

/-- And no other request ends like that. -/
theorem overflows_of_performs {r : AllocationRequest}
    (h : Performs (s.allocate r) events (.error .overflow)) : s.Overflows r := by
  by_contra hoverflow
  have haccounts := allocate_accounts hoverflow h
  have hsound : ¬ Broken events := fun hbroken =>
    Bool.false_ne_true ((haccounts.fatal .overflow rfl).mpr hbroken)
  have hmisused := (haccounts.faulty.mp ⟨_, rfl⟩).resolve_right hsound
  -- so it was misused, and then another fault came out
  unfold allocate at h
  rcases performs_check.mp h with ⟨fault, hfault, -, hsame⟩ | ⟨_, hcheck, hrest⟩
  · cases hsame
    exact AllocationRequest.check_ne_overflow hfault
  rcases hmisused with hinvalid | hmemory
  · exact AllocationRequest.check_eq_ok_iff_not_invalid.mp hcheck hinvalid
  · rw [hmemory] at hrest
    cases (performs_throw.mp hrest).2

/-- Whether the execution backend declines a dispatch. -/
def DispatchRefused (s : System) (d : Dispatch) (events : List (Exchange Hardware)) : Prop :=
  ∃ kind, s.execution = some kind ∧ s.backends.DispatchRefused kind d events

theorem execute_accounts {d : Dispatch} {result : Except Fault (Handle JobWait × System)}
    (h : Performs (s.execute d) events result) :
    Accounts (d.Invalid ∨ s.execution = none) (Broken events) (s.DispatchRefused d events)
      (fun pair => HasFailed pair.1) result := by
  unfold execute at h
  rcases performs_check.mp h with ⟨fault, hfault, rfl, rfl⟩ | ⟨_, hcheck, hrest⟩
  · obtain ⟨hinvalid, hharmless⟩ := Dispatch.invalid_of_check hfault
    exact accounts_of_misused (.inl hinvalid) not_broken_nil hharmless
  have hvalid := Dispatch.check_eq_ok_iff_not_invalid.mp hcheck
  cases hexecution : s.execution with
  | none =>
    simp only [hexecution] at hrest
    obtain ⟨rfl, rfl⟩ := performs_throw.mp hrest
    exact accounts_of_misused (.inr rfl) not_broken_nil rfl
  | some kind =>
    simp only [hexecution] at hrest
    obtain ⟨pair, hpair, rfl⟩ := performs_map.mp hrest
    obtain ⟨hhas, hexecutes⟩ := has_of_execution hexecution
    have htold := Backends.execute_toldApart hhas hexecutes hcheck hpair
    have hrefused : s.backends.DispatchRefused kind d events ↔ s.DispatchRefused d events := by
      simp [DispatchRefused, hexecution]
    refine ToldApart.accounts ((htold.congr hrefused Iff.rfl).map fun _ => Iff.rfl) ?_
    exact not_or.mpr ⟨hvalid, nofun⟩

end System

/-! ## Ends of buffers -/

/-- The order to switch the QPUs off, which a mailbox gives when nobody holds it any more. -/
def switchesOff (e : Exchange Hardware) : Bool :=
  match e.request with
  | .property m => m.tagId == Tag.enableQpu.id && m.content 0 == 0
  | _ => false

/-- What happens apart from switching the QPUs off. -/
def inUse (events : List (Exchange Hardware)) : List (Exchange Hardware) :=
  events.filter fun e => !switchesOff e

/-- A backend in use does not switch the QPUs off. -/
theorem inUse_of_uses {kind : BackendKind} {events : List (Exchange Hardware)}
    (h : ∀ e ∈ events, Uses kind e.request) : inUse events = events := by
  refine List.filter_eq_self.mpr fun e he => ?_
  have hplain := (h e he).inUse
  unfold switchesOff
  split
  · next m hm =>
    rw [hm] at hplain
    have htag : m.tagId ≠ Tag.enableQpu.id := hplain
    simp [htag]
  · rfl

/-- A request of a backend that stops. -/
def Stopping : Request → Prop
  | .property m => m.tagId = Tag.enableQpu.id ∧ m.content 0 = 0
  | .report _ | .retire _ => True
  | _ => False

/-- A backend that stops does nothing else that can break down or be declined. -/
theorem quiet_of_stopUnheld {s s' : Session} {kind : BackendKind}
    {events : List (Exchange Hardware)} (h : Transcript (s.stopUnheld kind) events s') :
    ∀ e ∈ inUse events, ¬ BreaksDown e ∧ ¬ Declines e := by
  have hstop : (s.stopUnheld kind).Plain Stopping := by
    unfold Session.stopUnheld
    split
    · trivial
    · refine Dialog.Plain.bind ?_ fun _ => trivial
      have horder : Stopping (.property (.ofRequest .enableQpu [0] 1)) :=
        ⟨rfl, Message.content_ofRequest ..⟩
      exact s.system.backends.stop_plain (fun _ => horder) (fun _ => trivial) trivial
  intro e he
  obtain ⟨hmem, hnot⟩ := List.mem_filter.mp he
  have hstopping := hstop.of_transcript h e hmem
  obtain ⟨request, reply⟩ := e
  cases request with
  | property m =>
    obtain ⟨htag, hoff⟩ : m.tagId = Tag.enableQpu.id ∧ m.content 0 = 0 := hstopping
    simp [switchesOff, htag, hoff] at hnot
  | report | retire => exact ⟨id, id⟩
  | _ => exact absurd hstopping id

namespace Session

variable {s s' : Session} {events : List (Exchange Hardware)}

/-- The release of a buffer accounts for all that happens in it but the switching off. -/
theorem release_accounts {name : String} {buffer : Buffer} {answer : Option (Except Fault Bool)}
    (hbuffer : s.buffers.get? name = some buffer)
    (h : Transcript (s.release name) events (answer, s')) :
    ∃ result, answer = some result ∧
      Accounts False (Broken (inUse events)) (s.system.backends.EndRefused buffer (inUse events))
        (· = false) result := by
  unfold release at h
  rw [hbuffer] at h
  obtain ⟨⟨result, t⟩, hend, hr⟩ := Dialog.transcript_map.mp h
  cases hr
  obtain ⟨back, stopping, ⟨result', backends⟩, rfl, hback, hstop⟩ := Dialog.transcript_bind.mp hend
  obtain ⟨t', hstop, hr⟩ := Dialog.transcript_map.mp hstop
  cases hr
  have hquiet := quiet_of_stopUnheld hstop
  have hback' := inUse_of_uses ((Backends.release_uses _ buffer).of_transcript hback)
  have hsplit : inUse (back ++ stopping) = back ++ inUse stopping := by
    rw [inUse, List.filter_append]
    exact congrArg (· ++ inUse stopping) hback'
  refine ⟨result, rfl, ToldApart.accounts ?_ id⟩
  rw [hsplit]
  refine (Backends.release_toldApart hback).congr ?_ ?_
  · -- what is declined is declined by the owner
    have hdeclines : (∃ e ∈ back ++ inUse stopping, Declines e) ↔ ∃ e ∈ back, Declines e := by
      refine ⟨?_, fun ⟨e, he, hno⟩ => ⟨e, List.mem_append_left _ he, hno⟩⟩
      rintro ⟨e, he, hno⟩
      rcases List.mem_append.mp he with he | he
      · exact ⟨e, he, hno⟩
      · exact absurd hno (hquiet e he).2
    unfold Backends.EndRefused
    split
    · exact hdeclines.symm
    · exact hdeclines.symm
    · exact Iff.rfl
  · rw [broken_append, or_iff_left]
    rintro ⟨e, he, hbroken⟩
    exact (hquiet e he).1 hbroken

/-! ## All calls -/

/-- What the results of the four calls say, whatever the machine does. -/
structure FaultsSorted (s : Session) : Prop where
  /-- No buffer means that the memory backend refused the request. -/
  allocation : ∀ r events result, ¬ s.system.Overflows r →
    Performs (s.system.allocate r) events result →
    Accounts (r.Invalid ∨ s.system.memory = none) (Broken events) (s.system.MemoryRefused r events)
      (fun pair => pair.1 = none) result
  /-- A request whose rounded size overflows stops the call, and no other request does. -/
  overflow : ∀ r events result, Performs (s.system.allocate r) events result →
    (s.system.Overflows r ↔ result = .error .overflow) ∧ (s.system.Overflows r → events = [])
  /-- If it went on unchecked, it would not be refused as too large either: a free slot is all it takes,
  and the buffer stands over no more than two lines. -/
  unchecked : ∀ r e, s.system.Overflows r → s.system.backends.emulator = some e →
    (e.unchecked? (System.adjust s.system.config r) = none ↔
      ∀ i < Emulator.slotCount, (e.find? (Emulator.SlotTable.handleOf i)).isSome) ∧
    (Emulator.roundedWord r.size).toNat ≤ 128
  /-- A handle that has failed means that the execution backend declined the dispatch. -/
  execution : ∀ d events result, Performs (s.system.execute d) events result →
    Accounts (d.Invalid ∨ s.system.execution = none) (Broken events)
      (s.system.DispatchRefused d events) (fun pair => HasFailed pair.1) result
  /-- A wait never ends in a fault, as nothing can break down in it. -/
  waiting : ∀ name handle events answer s', s.handles.get? name = some handle →
    Transcript (s.wait name) events (answer, s') →
    ∃ passed, answer = some passed ∧ ¬ Broken events ∧ (passed = false ↔ WaitFails handle events)
  /-- A release cannot be misused, and what becomes of the QPUs in the end does not count. -/
  release : ∀ name buffer events answer s', s.buffers.get? name = some buffer →
    Transcript (s.release name) events (answer, s') →
    ∃ result, answer = some result ∧
      Accounts False (Broken (inUse events)) (s.system.backends.EndRefused buffer (inUse events))
        (· = false) result
  /-- Every call comes back, a call with a loop where the clock goes on. -/
  comesBack : ∀ {τ : Type} (answer : Surroundings Hardware τ) (t : τ),
    (∀ r, (s.system.allocate r).run.Ends answer t) ∧
    (∀ d, (s.system.execution = some .v3d → ClockGoesOn answer) →
      (s.system.execute d).run.Ends answer t) ∧
    (∀ name, (∀ w, s.handles.get? name = some (.pending w) → ClockGoesOn answer) →
      (s.wait name).Ends answer t) ∧
    ∀ name, (s.release name).Ends answer t

/-- A buffer of a mailbox that has outlived its system. -/
def sampleLast : Session := { Mailbox.sampleHeld with attached := false }

/-- Its end, in which the order to switch the QPUs off is not delivered. -/
def sampleSwitchOff : List (Exchange Hardware) :=
  Mailbox.sampleRelease ++
    [Mailbox.trip .enableQpu [0] (.error (.system 5)),
      ⟨.report (.disableFailed (.transport Tag.enableQpu.id (.system 5))), ()⟩,
      ⟨.retire .mailbox, ()⟩]

end Session

end VideoCore

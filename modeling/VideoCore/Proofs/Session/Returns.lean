import VideoCore.Proofs.Session.Dealings

/-!
# Buffers that are taken back

Every way in which a buffer ends comes to the same calls (`Ending`): its mapping is undone, its
owner is told to take it back, and then its owner is stopped if nobody holds it any more. There is
one call of the owner, whatever it answers. Who releases the buffer gets the answer, and where
nobody does, a failure is reported (`destroy_returned`).

No answer of a backend is ruled out, so an owner may refuse or fail as it likes.
-/

namespace VideoCore

open Hardware
open Dialog (Transcript)
open Session (dropDiagnostic)

/-- A report on a buffer that could not be given back. -/
def Diagnostic.OfRelease : Diagnostic → Bool
  | bufferRejected .. | bufferReleaseFailed .. => true
  | _ => false

namespace Dealings

open Dealing

variable {ι α : Type} {events first rest : List (Exchange (Dealings ι))}

/-! ## What is exchanged aside from calls -/

/-- An exchange with the hardware aside from any call. -/
def aside (e : Exchange Hardware) : Exchange (Dealings ι) := ⟨.hardware e.request, e.reply⟩

theorem spells_aside {hardware : List (Exchange Hardware)} :
    Dialog.Spells (fun q => Dialog.request (V := Dealings ι) (.hardware q)) hardware events ↔
      events = hardware.map aside := by
  constructor
  · intro h
    induction h with
    | nil => rfl
    | cons first _ ih =>
      rw [Trial.transcript_request.mp first, ih]
      rfl
  · rintro rfl
    induction hardware with
    | nil => exact .nil
    | cons e rest ih =>
      have hfirst : Transcript (Dialog.request (V := Dealings ι) (.hardware e.request)) [aside e]
          e.reply := Trial.transcript_request.mpr rfl
      exact .cons hfirst ih

theorem transcript_access {d : Access α} {a : α} :
    Transcript (access d : Dialog (Dealings ι) α) events a ↔
      ∃ hardware, Transcript d hardware a ∧ events = hardware.map aside := by
  simp only [access, Dialog.transcript_via, spells_aside]

theorem plain_access {d : Access α} (h : d.Plain fun _ => True) :
    (access d : Dialog (Dealings ι) α).Plain fun _ => True :=
  h.via fun _ _ => ⟨trivial, fun _ => trivial⟩

/-! ## Logs -/

/-- A call in which a buffer is taken back, and what the owner said. -/
structure Return (ι : Type) where
  place : ι
  buffer : Buffer
  verdict : Except Fault Bool

def returnOf : Exchange (Dealings ι) → Option (Return ι)
  | ⟨.deallocate place _ buffer, reply⟩ => some ⟨place, buffer, reply.1⟩
  | _ => none

/-- The calls in which buffers were taken back. -/
def returns (events : List (Exchange (Dealings ι))) : List (Return ι) :=
  events.filterMap returnOf

def grantOf : Exchange (Dealings ι) → Option (ι × Buffer)
  | ⟨.allocate place _ _ _, reply⟩ =>
    reply.toOption.bind fun given => given.1.map fun buffer => (place, buffer)
  | _ => none

/-- The buffers that were given out, and where. -/
def grants (events : List (Exchange (Dealings ι))) : List (ι × Buffer) :=
  events.filterMap grantOf

def complaintOf : Exchange (Dealings ι) → Option Diagnostic
  | ⟨.hardware (.report diagnostic), _⟩ =>
    if diagnostic.OfRelease then some diagnostic else none
  | _ => none

/-- What was reported of buffers that could not be given back. -/
def complaints (events : List (Exchange (Dealings ι))) : List Diagnostic :=
  events.filterMap complaintOf

@[simp] theorem returns_append : returns (first ++ rest) = returns first ++ returns rest :=
  List.filterMap_append

@[simp] theorem grants_append : grants (first ++ rest) = grants first ++ grants rest :=
  List.filterMap_append

@[simp] theorem complaints_append :
    complaints (first ++ rest) = complaints first ++ complaints rest :=
  List.filterMap_append

@[simp] theorem returns_aside (hardware : List (Exchange Hardware)) :
    returns (hardware.map aside : List (Exchange (Dealings ι))) = [] := by
  simp [returns, returnOf, aside]

@[simp] theorem grants_aside (hardware : List (Exchange Hardware)) :
    grants (hardware.map aside : List (Exchange (Dealings ι))) = [] := by
  simp [grants, grantOf, aside]

/-- Whatever is asked, it is not to report on a buffer that could not be given back. -/
def Uncomplaining (q : Hardware.Request) : Prop :=
  ∀ d : Diagnostic, q = .report d → d.OfRelease = false

theorem complaints_aside {hardware : List (Exchange Hardware)}
    (h : ∀ e ∈ hardware, Uncomplaining e.request) :
    complaints (hardware.map aside : List (Exchange (Dealings ι))) = [] := by
  rw [complaints, List.filterMap_map, List.filterMap_eq_nil_iff]
  rintro ⟨request, reply⟩ he
  cases request with
  | report d => exact if_neg (by simpa using h _ he d rfl)
  | _ => rfl

theorem complaints_of_stopUnheld {s s' : Session} {kind : BackendKind}
    {hardware : List (Exchange Hardware)} (h : Transcript (s.stopUnheld kind) hardware s') :
    complaints (hardware.map aside : List (Exchange (Dealings ι))) = [] := by
  refine complaints_aside ?_
  rcases Session.stopUnheld_cases h with ⟨rfl, -, -⟩ | ⟨-, -, -, hstop, -⟩
  · exact List.forall_mem_nil _
  have hplain : (s.system.backends.stop kind).Plain Uncomplaining := by
    refine s.system.backends.stop_plain_reports (fun _ => nofun) (fun d hd => ?_) nofun
    rintro _ ⟨⟩
    cases d with
    | neverReleased | disableRefused | disableFailed => rfl
    | _ => exact hd.elim
  exact hplain.of_transcript hstop

/-! ## The end of a buffer -/

section Ending

variable {place : ι} {s s' : Session} {buffer : Buffer} {result : Except Fault Bool}

/-- How a buffer ends: its mapping is undone, its owner takes it back, and the owner is stopped if
nobody holds it any more. -/
def Ending (place : ι) (s : Session) (buffer : Buffer) (events : List (Exchange (Dealings ι)))
    (result : Except Fault Bool) (s' : Session) : Prop :=
  ∃ unmapping stopping backends,
    events = unmapping.map aside ++
      ⟨.deallocate place s.system.backends buffer, (result, backends)⟩ :: stopping.map aside ∧
    Transcript (OwnedBuffer.of buffer).unmap unmapping () ∧
    Transcript ((s.withBackends backends).stopUnheld buffer.owner.kind) stopping s'

theorem transcript_releaseInner {o : OwnedBuffer} :
    Transcript ((OwnedBuffer.of buffer).releaseInner place s) events (result, s', o) ↔
      Ending place s buffer events result s' ∧ o = (OwnedBuffer.of buffer).spent := by
  constructor
  · intro h
    obtain ⟨before, later, _, rfl, hunmap, hlater⟩ := Dialog.transcript_bind.mp h
    obtain ⟨call, last, ⟨verdict, backends⟩, rfl, hcall, hlast⟩ := Dialog.transcript_bind.mp hlater
    obtain ⟨t, hstop, heq⟩ := Dialog.transcript_map.mp hlast
    cases heq
    obtain ⟨unmapping, hunmapping, rfl⟩ := transcript_access.mp hunmap
    obtain ⟨stopping, hstopping, rfl⟩ := transcript_access.mp hstop
    rw [Trial.transcript_request.mp hcall]
    exact ⟨⟨unmapping, stopping, backends, rfl, hunmapping, hstopping⟩, rfl⟩
  · rintro ⟨⟨unmapping, stopping, backends, rfl, hunmapping, hstopping⟩, rfl⟩
    have hunmap : Transcript (access (OwnedBuffer.of buffer).unmap : Dialog (Dealings ι) Unit)
        (unmapping.map aside) () := transcript_access.mpr ⟨unmapping, hunmapping, rfl⟩
    have hstop : Transcript (access ((s.withBackends backends).stopUnheld buffer.owner.kind) :
        Dialog (Dealings ι) Session) (stopping.map aside) s' :=
      transcript_access.mpr ⟨stopping, hstopping, rfl⟩
    have hcall : Transcript (deallocating place s.system.backends buffer)
        [⟨.deallocate place s.system.backends buffer, (result, backends)⟩] (result, backends) :=
      Trial.transcript_request.mpr rfl
    exact hunmap.append (hcall.append (Dialog.transcript_map.mpr ⟨s', hstop, rfl⟩))

theorem transcript_release :
    Transcript ((OwnedBuffer.of buffer).release place s) events (result, s') ↔
      Ending place s buffer events result s' := by
  constructor
  · intro h
    obtain ⟨ending, later, ⟨verdict, t, o⟩, rfl, hinner, hlater⟩ := Dialog.transcript_bind.mp h
    obtain ⟨hends, rfl⟩ := transcript_releaseInner.mp hinner
    -- the object finds no owner when it goes out of sight
    obtain ⟨rfl, heq⟩ := Dialog.transcript_done.mp hlater
    cases heq
    rwa [List.append_nil]
  · intro h
    have hinner := transcript_releaseInner.mpr ⟨h, rfl⟩
    rw [← List.append_nil events]
    exact hinner.append (.done _)

/-- The report of a failure. -/
def reporting (diagnostic : Diagnostic) : Exchange (Dealings ι) :=
  ⟨.hardware (.report diagnostic), ()⟩

theorem transcript_reporting {diagnostic : Diagnostic} {answer : Unit} :
    Transcript (access (report diagnostic)) events answer ↔ events = [reporting diagnostic] := by
  rw [transcript_access]
  constructor
  · rintro ⟨hardware, hreport, rfl⟩
    rw [Hardware.transcript_request.mp hreport]
    rfl
  · rintro rfl
    exact ⟨[⟨.report diagnostic, ()⟩], Hardware.transcript_request.mpr rfl, rfl⟩

theorem transcript_destroy :
    Transcript ((OwnedBuffer.of buffer).destroy place s) events s' ↔
      ∃ ending result, Ending place s buffer ending result s' ∧
        events = ending ++ (dropDiagnostic buffer result).toList.map reporting := by
  have hbuffer : (OwnedBuffer.of buffer).spent.buffer = buffer := rfl
  constructor
  · intro h
    obtain ⟨ending, later, ⟨result, t, o⟩, rfl, hinner, hlater⟩ := Dialog.transcript_bind.mp h
    obtain ⟨hends, rfl⟩ := transcript_releaseInner.mp hinner
    refine ⟨ending, result, ?_⟩
    simp only [hbuffer] at hlater
    cases hreport : dropDiagnostic buffer result with
    | none =>
      simp only [hreport] at hlater
      obtain ⟨rfl, rfl⟩ := Dialog.transcript_done.mp hlater
      exact ⟨hends, rfl⟩
    | some diagnostic =>
      simp only [hreport] at hlater
      obtain ⟨_, hreporting, rfl⟩ := Dialog.transcript_map.mp hlater
      rw [transcript_reporting.mp hreporting]
      exact ⟨hends, rfl⟩
  · rintro ⟨ending, result, hends, rfl⟩
    refine (transcript_releaseInner.mpr ⟨hends, rfl⟩).append ?_
    simp only [hbuffer]
    cases hreport : dropDiagnostic buffer result with
    | none => exact .done _
    | some diagnostic =>
      exact Dialog.transcript_map.mpr ⟨(), transcript_reporting.mpr rfl, rfl⟩

theorem Ending.returns (h : Ending place s buffer events result s') :
    returns events = [⟨place, buffer, result⟩] := by
  obtain ⟨unmapping, stopping, backends, rfl, -, -⟩ := h
  rw [returns_append, returns_aside, List.nil_append]
  show _ :: Dealings.returns (stopping.map aside) = _
  rw [returns_aside]

theorem Ending.grants (h : Ending place s buffer events result s') : grants events = [] := by
  obtain ⟨unmapping, stopping, backends, rfl, -, -⟩ := h
  rw [grants_append, grants_aside, List.nil_append]
  exact grants_aside stopping

theorem Ending.complaints (h : Ending place s buffer events result s') :
    complaints events = [] := by
  obtain ⟨unmapping, stopping, backends, rfl, hunmap, hstop⟩ := h
  have hunmapping : Dealings.complaints (unmapping.map aside : List (Exchange (Dealings ι))) = [] := by
    refine complaints_aside ?_
    have hplain : (OwnedBuffer.of buffer).unmap.Plain Uncomplaining := by
      unfold OwnedBuffer.unmap
      split
      · exact plain_ask nofun
      · trivial
    exact hplain.of_transcript hunmap
  rw [complaints_append, hunmapping, List.nil_append]
  exact complaints_of_stopUnheld hstop

theorem Ending.buffers (h : Ending place s buffer events result s') : s'.buffers = s.buffers := by
  obtain ⟨unmapping, stopping, backends, -, -, hstop⟩ := h
  exact (Session.stopUnheld_alike hstop).1.buffers

/-- A diagnostic is made of a buffer that was not taken back, and it is about that buffer. -/
theorem dropDiagnostic_eq_none_iff : dropDiagnostic buffer result = none ↔ result = .ok true := by
  rcases result with fault | _ | _ <;> simp [dropDiagnostic]

theorem ofRelease_dropDiagnostic {diagnostic : Diagnostic}
    (h : dropDiagnostic buffer result = some diagnostic) :
    diagnostic.OfRelease = true ∧ diagnostic.handle? = some buffer.handle.toNat := by
  rcases result with fault | _ | _
  · cases h
    exact ⟨rfl, rfl⟩
  · cases h
    exact ⟨rfl, rfl⟩
  · cases h

theorem returns_reporting (reports : List Diagnostic) :
    returns (reports.map reporting : List (Exchange (Dealings ι))) = [] := by
  simp [Dealings.returns, returnOf, reporting]

theorem grants_reporting (reports : List Diagnostic) :
    grants (reports.map reporting : List (Exchange (Dealings ι))) = [] := by
  simp [Dealings.grants, grantOf, reporting]

theorem complaints_dropDiagnostic :
    complaints ((dropDiagnostic buffer result).toList.map reporting : List (Exchange (Dealings ι))) =
      (dropDiagnostic buffer result).toList := by
  cases hreport : dropDiagnostic buffer result with
  | none => rfl
  | some diagnostic =>
    have hown := (ofRelease_dropDiagnostic hreport).1
    simp [Dealings.complaints, complaintOf, reporting, hown]

theorem within_of_aside {hardware : List (Exchange Hardware)} {kind : BackendKind}
    (h : ∀ e ∈ hardware, Within kind e.request) :
    ∀ e ∈ (hardware.map aside : List (Exchange (Dealings ι))),
      ∀ q, e.request = .hardware q → Within kind q := by
  intro e he q hq
  obtain ⟨made, hmade, rfl⟩ := List.mem_map.mp he
  cases hq
  exact h made hmade

theorem Ending.within (h : Ending place s buffer events result s') :
    ∀ e ∈ events, ∀ q, e.request = .hardware q → Within buffer.owner.kind q := by
  obtain ⟨unmapping, stopping, backends, rfl, hunmap, hstop⟩ := h
  have hplain : (OwnedBuffer.of buffer).unmap.Plain (Within buffer.owner.kind) := by
    unfold OwnedBuffer.unmap
    split
    · exact plain_ask (.inl rfl)
    · trivial
  intro e he q hq
  rcases List.mem_append.mp he with he | he
  · exact within_of_aside (hplain.of_transcript hunmap) e he q hq
  rcases List.mem_cons.mp he with rfl | he
  · cases hq
  · have hstopping := Session.stopUnheld_within (s.withBackends backends) buffer.owner.kind
    exact within_of_aside (hstopping.of_transcript hstop) e he q hq

/-- What a buffer is owed in the end: its owner is told once to take it back, as it was given out, and
no other backend is reached. -/
structure Returned (place : ι) (buffer : Buffer) (verdict : Except Fault Bool)
    (events : List (Exchange (Dealings ι))) : Prop where
  returns : returns events = [⟨place, buffer, verdict⟩]
  grants : grants events = []
  within : ∀ e ∈ events, ∀ q, e.request = .hardware q → Within buffer.owner.kind q

/-- A failure is reported once, and nothing is reported but a failure. -/
def Reported (buffer : Buffer) (verdict : Except Fault Bool)
    (events : List (Exchange (Dealings ι))) : Prop :=
  (verdict = .ok true ∧ complaints events = []) ∨
  (verdict ≠ .ok true ∧ ∃ diagnostic, complaints events = [diagnostic] ∧
    diagnostic.handle? = some buffer.handle.toNat)

theorem Ending.returned (h : Ending place s buffer events result s') :
    Returned place buffer result events :=
  ⟨h.returns, h.grants, h.within⟩

theorem destroy_returned (h : Transcript ((OwnedBuffer.of buffer).destroy place s) events s') :
    ∃ verdict, Returned place buffer verdict events ∧ Reported buffer verdict events ∧
      s'.buffers = s.buffers := by
  obtain ⟨ending, result, hending, rfl⟩ := transcript_destroy.mp h
  have hreports : Dealings.complaints (ending ++ (dropDiagnostic buffer result).toList.map reporting) =
      (dropDiagnostic buffer result).toList := by
    rw [complaints_append, hending.complaints, complaints_dropDiagnostic, List.nil_append]
  refine ⟨result, ⟨?_, ?_, ?_⟩, ?_, hending.buffers⟩
  · rw [returns_append, hending.returns, returns_reporting, List.append_nil]
  · rw [grants_append, hending.grants, grants_reporting, List.append_nil]
  · intro e he q hq
    rcases List.mem_append.mp he with he | he
    · exact hending.within e he q hq
    · obtain ⟨diagnostic, -, rfl⟩ := List.mem_map.mp he
      cases hq
      exact .inl rfl
  · rw [Reported, hreports]
    cases hdiagnostic : dropDiagnostic buffer result with
    | none => exact .inl ⟨dropDiagnostic_eq_none_iff.mp hdiagnostic, rfl⟩
    | some diagnostic =>
      refine .inr ⟨fun hok => ?_, diagnostic, rfl, (ofRelease_dropDiagnostic hdiagnostic).2⟩
      rw [dropDiagnostic_eq_none_iff.mpr hok] at hdiagnostic
      cases hdiagnostic

/-- The end of a buffer repeats nothing. -/
theorem plain_releaseInner (place : ι) (s : Session) (o : OwnedBuffer) :
    (o.releaseInner place s).Plain fun _ => True := by
  unfold OwnedBuffer.releaseInner
  split
  · trivial
  have hunmap : o.unmap.Plain fun _ => True := by
    unfold OwnedBuffer.unmap
    split
    · exact plain_ask trivial
    · trivial
  have hcall : ∀ b buffer, (deallocating place b buffer).Plain fun _ => True :=
    fun _ _ => ⟨trivial, fun _ => trivial⟩
  refine (plain_access hunmap).bind fun _ => (hcall _ _).bind fun _ => ?_
  exact (plain_access (Session.stopUnheld_plain _ _)).bind fun _ => trivial

theorem plain_destroy (place : ι) (s : Session) (o : OwnedBuffer) :
    (o.destroy place s).Plain fun _ => True := by
  refine (plain_releaseInner place s o).bind fun ended => ?_
  dsimp only
  split
  · exact (plain_access (plain_ask trivial)).bind fun _ => trivial
  · trivial

theorem plain_releaseObject (place : ι) (s : Session) (o : OwnedBuffer) :
    (o.release place s).Plain fun _ => True :=
  (plain_releaseInner place s o).bind fun _ => (plain_destroy place _ _).bind fun _ => trivial

end Ending

/-! ## The ends of named buffers -/

section Named

variable {place : ι} {s s' : Session} {name : String}

theorem release_held {buffer : Buffer} {answer : Option (Except Fault Bool)}
    (hsome : s.buffers.get? name = some buffer)
    (h : Transcript (release place s name) events (answer, s')) :
    ∃ result, answer = some result ∧
      Ending place { s with buffers := s.buffers.erase name } buffer events result s' := by
  unfold release at h
  simp only [hsome] at h
  obtain ⟨⟨result, t⟩, hrelease, heq⟩ := Dialog.transcript_map.mp h
  cases heq
  exact ⟨result, rfl, transcript_release.mp hrelease⟩

theorem release_free {answer : Option (Except Fault Bool)} (hnone : s.buffers.get? name = none)
    (h : Transcript (release place s name) events (answer, s')) : events = [] ∧ s' = s := by
  unfold release at h
  simp only [hnone] at h
  obtain ⟨rfl, heq⟩ := Dialog.transcript_done.mp h
  cases heq
  exact ⟨rfl, rfl⟩

theorem drop_held {buffer : Buffer} {answer : Bool} (hsome : s.buffers.get? name = some buffer)
    (h : Transcript (drop place s name) events (answer, s')) :
    answer = true ∧ Transcript ((OwnedBuffer.of buffer).destroy place
      { s with buffers := s.buffers.erase name }) events s' := by
  unfold drop at h
  simp only [hsome] at h
  obtain ⟨t, hdestroy, heq⟩ := Dialog.transcript_map.mp h
  cases heq
  exact ⟨rfl, hdestroy⟩

theorem drop_free {answer : Bool} (hnone : s.buffers.get? name = none)
    (h : Transcript (drop place s name) events (answer, s')) : events = [] ∧ s' = s := by
  unfold drop at h
  simp only [hnone] at h
  obtain ⟨rfl, heq⟩ := Dialog.transcript_done.mp h
  cases heq
  exact ⟨rfl, rfl⟩

/-- A buffer that loses its name to another is dropped. -/
theorem keep_held {buffer previous : Buffer} (hsome : s.buffers.get? name = some previous)
    (h : Transcript (keep place s name buffer) events s') :
    Transcript ((OwnedBuffer.of previous).destroy place
      { s with buffers := s.buffers.put name buffer }) events s' := by
  unfold keep at h
  simp only [hsome] at h
  exact h

theorem keep_free {buffer : Buffer} (hnone : s.buffers.get? name = none)
    (h : Transcript (keep place s name buffer) events s') :
    events = [] ∧ s' = { s with buffers := s.buffers.put name buffer } := by
  unfold keep at h
  simp only [hnone] at h
  exact Dialog.transcript_done.mp h

/-- The part of an allocation that can fail is one call of a backend, or it fails before that. -/
theorem attempt_ways {source : Option Owner} {r : AllocationRequest}
    {outcome : Except Fault (Option Buffer × Backends)}
    (h : Transcript (attempt place s source r) events outcome) :
    (events = [] ∧ ∃ fault, outcome = .error fault) ∨
    ∃ owner r', events = [⟨.allocate place s.system.backends owner r', outcome⟩] := by
  unfold attempt at h
  cases source with
  | some owner => exact .inr ⟨owner, r, Trial.transcript_request.mp h⟩
  | none =>
    cases hcheck : r.check with
    | error fault =>
      simp only [hcheck] at h
      obtain ⟨rfl, rfl⟩ := Dialog.transcript_done.mp h
      exact .inl ⟨rfl, fault, rfl⟩
    | ok valid =>
      cases hmemory : s.system.memory with
      | none =>
        simp only [hcheck, hmemory] at h
        obtain ⟨rfl, rfl⟩ := Dialog.transcript_done.mp h
        exact .inl ⟨rfl, _, rfl⟩
      | some owner =>
        simp only [hcheck, hmemory] at h
        exact .inr ⟨owner, _, Trial.transcript_request.mp h⟩

/-- An allocation gives out nothing, or it gives out one buffer, which then gets its name. -/
theorem allocate_ways {source : Option Owner} {r : AllocationRequest}
    (h : Transcript (allocate place s name source r) events s') :
    (grants events = [] ∧ returns events = [] ∧ s'.buffers = s.buffers) ∨
    ∃ call later buffer backends, events = call :: later ∧ grants [call] = [(place, buffer)] ∧
      returns [call] = [] ∧
      Transcript (keep place (s.withBackends backends) name buffer) later s' := by
  obtain ⟨first, later, outcome, rfl, hattempt, hlater⟩ := Dialog.transcript_bind.mp h
  rcases outcome with fault | ⟨_ | buffer, backends⟩
  · obtain ⟨rfl, rfl⟩ := Dialog.transcript_done.mp hlater
    rw [List.append_nil]
    rcases attempt_ways hattempt with ⟨rfl, -⟩ | ⟨owner, r', rfl⟩ <;> exact .inl ⟨rfl, rfl, rfl⟩
  · obtain ⟨rfl, rfl⟩ := Dialog.transcript_done.mp hlater
    rw [List.append_nil]
    rcases attempt_ways hattempt with ⟨rfl, -⟩ | ⟨owner, r', rfl⟩ <;> exact .inl ⟨rfl, rfl, rfl⟩
  · rcases attempt_ways hattempt with ⟨-, fault, hfault⟩ | ⟨owner, r', rfl⟩
    · cases hfault
    · exact .inr ⟨_, later, buffer, backends, rfl, rfl, rfl, hlater⟩

theorem plain_release (place : ι) (s : Session) (name : String) :
    (release place s name).Plain fun _ => True := by
  unfold release
  split
  · trivial
  · exact (plain_releaseObject place _ _).bind fun _ => trivial

theorem plain_drop (place : ι) (s : Session) (name : String) :
    (drop place s name).Plain fun _ => True := by
  unfold drop
  split
  · trivial
  · exact (plain_destroy place _ _).bind fun _ => trivial

end Named

end Dealings

end VideoCore

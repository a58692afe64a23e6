import VideoCore.Session
import VideoCore.Proofs.Attempt

/-!
# Runs of a session

What a user can do with a session, one thing at a time, is a `Verb`, and `perform` is what the session
makes of it. A `Run` is any number of verbs in any order, with every reply that the hardware may give
to what they ask. Which verbs a run may use is a parameter, so that a statement can be made about
sessions of one kind.
-/

namespace VideoCore

open Hardware
open Dialog (Transcript)
open GpuService (JobId JobWait)

/-- What is reported when a backend stops. -/
def Diagnostic.OfStop : Diagnostic → Prop
  | neverReleased .. | disableRefused | disableFailed _ => True
  | _ => False

/-- What the emulator alone reports when it stops. -/
def Diagnostic.OfLeftover : Diagnostic → Prop
  | neverReleased .. => True
  | _ => False

/-- A backend that is stopped sends at most the order to switch the QPUs off, reports what became of
that or which buffers are left, and gives up the way to the hardware. -/
theorem Backends.stop_plain_sorted {allowed : Request → Prop} (b : Backends) {kind : BackendKind}
    (horder : kind = .mailbox → allowed (.property (.ofRequest .enableQpu [0] 1)))
    (hreport : ∀ d : Diagnostic, d.OfStop → (d.OfLeftover → kind = .emulator) → allowed (.report d))
    (hretire : allowed (.retire kind)) : (b.stop kind).Plain allowed := by
  have hend : (retire kind).Plain allowed := plain_ask hretire
  cases kind with
  | v3d | sharedMemory | gpuService => exact hend
  | mailbox =>
    have hswitch : (Mailbox.enableQpus false).run.Plain allowed := by
      refine ⟨horder rfl, fun reply => ?_⟩
      cases reply with
      | error cause => trivial
      | ok words => trivial
    refine Dialog.Plain.bind hswitch fun answer => ?_
    -- what the firmware answered decides only on the report
    rcases answer with fault | _ | _
    · exact Dialog.Plain.bind (plain_ask (hreport _ trivial False.elim)) fun _ => hend
    · exact Dialog.Plain.bind (plain_ask (hreport _ trivial False.elim)) fun _ => hend
    · exact hend
  | emulator =>
    unfold Backends.stop
    cases b.emulator with
    | none => trivial
    | some e =>
      refine Dialog.Plain.bind ?_ fun _ => hend
      -- one report for every buffer that is left
      induction e.slots.live with
      | nil => trivial
      | cons slot rest ih =>
        exact Dialog.Plain.bind (plain_ask (hreport _ trivial fun _ => rfl)) fun _ => ih

theorem Backends.stop_plain_reports {allowed : Request → Prop} (b : Backends) {kind : BackendKind}
    (horder : kind = .mailbox → allowed (.property (.ofRequest .enableQpu [0] 1)))
    (hreport : ∀ d : Diagnostic, d.OfStop → allowed (.report d)) (hretire : allowed (.retire kind)) :
    (b.stop kind).Plain allowed :=
  b.stop_plain_sorted horder (fun d hstop _ => hreport d hstop) hretire

theorem Backends.stop_plain {allowed : Request → Prop} (b : Backends) {kind : BackendKind}
    (horder : kind = .mailbox → allowed (.property (.ofRequest .enableQpu [0] 1)))
    (hreport : ∀ d, allowed (.report d)) (hretire : allowed (.retire kind)) :
    (b.stop kind).Plain allowed :=
  b.stop_plain_reports horder (fun d _ => hreport d) hretire

theorem Mailbox.stop_plain {allowed : Request → Prop} (horder : ∀ m, allowed (.property m))
    (hreport : ∀ d, allowed (.report d)) (hretire : allowed (.retire .mailbox)) :
    Mailbox.stop.Plain allowed := by
  show (Backends.stop {} .mailbox).Plain allowed
  exact Backends.stop_plain {} (fun _ => horder _) hreport hretire

/-- The emulator allocates without asking anything, and gives out nothing if it is not there. -/
theorem Backends.emulator_ways {b b' : Backends} {r : AllocationRequest} {given : Option Buffer}
    {events : List (Exchange Hardware)}
    (h : Performs (b.allocate .emulator r) events (.ok (given, b'))) :
    events = [] ∧ ((b.emulator = none ∧ given = none ∧ b' = b) ∨
      ∃ e e' : Emulator, b.emulator = some e ∧ e.allocate r = .ok (given, e') ∧
        b' = { b with emulator := some e' }) := by
  unfold allocate at h
  cases he : b.emulator with
  | none =>
    simp only [he] at h
    obtain ⟨rfl, hgiven⟩ := performs_pure.mp h
    cases hgiven
    exact ⟨rfl, .inl ⟨rfl, rfl, rfl⟩⟩
  | some e =>
    simp only [he] at h
    obtain ⟨⟨_, e'⟩, hallocate, hlast⟩ := performs_check_ok.mp h
    obtain ⟨rfl, hgiven⟩ := performs_pure.mp hlast
    cases hgiven
    exact ⟨rfl, .inr ⟨e, e', rfl, hallocate, rfl⟩⟩

/-- A buffer of the emulator comes from the emulator. -/
theorem Backends.emulator_allocated {b b' : Backends} {r : AllocationRequest} {buffer : Buffer}
    {events : List (Exchange Hardware)}
    (h : Performs (b.allocate .emulator r) events (.ok (some buffer, b'))) :
    events = [] ∧ ∃ e e' : Emulator, b.emulator = some e ∧ e.allocate r = .ok (some buffer, e') ∧
      b'.emulator = some e' := by
  obtain ⟨hquiet, ⟨-, hnone, -⟩ | ⟨e, e', he, hallocate, rfl⟩⟩ := emulator_ways h
  · cases hnone
  · exact ⟨hquiet, e, e', he, hallocate, rfl⟩

namespace Session

/-- One thing that the user of a session does. -/
inductive Verb where
  /-- Allocates a buffer, from the system or directly from one of its backends. -/
  | allocate (name : String) (source : Option Owner) (request : AllocationRequest)
  | release (name : String)
  | drop (name : String)
  | forget (name : String)
  /-- Gives up the hold on an owner that a forgotten buffer still has. -/
  | surrender (owner : Owner)
  /-- Gives a handle back to a backend directly, whatever buffers there are. -/
  | deallocate (buffer : Buffer)
  /-- Writes to the memory of a buffer. -/
  | write (name : String) (offset : Nat) (bytes : ByteArray)
  | execute (name : String) (path : Option BackendKind) (dispatch : Dispatch)
  | wait (name : String)
  | notify (id : JobId)
  /-- Lets go of the system. -/
  | detach

/-- Writes to the memory of a buffer that is held. A write that leaves the buffer is not made. -/
def write (s : Session) (name : String) (offset : Nat) (bytes : ByteArray) : Access Session := do
  match s.buffers.get? name with
  | none => return s
  | some buffer =>
    match ← s.system.backends.writeBuffer? buffer offset bytes with
    | none => return s
    | some backends => return s.withBackends backends

/-- The session after a verb. -/
def perform (s : Session) : Verb → Access Session
  | .allocate name source request => do return (← s.allocate name source request).2
  | .release name => do return (← s.release name).2
  | .drop name => do return (← s.drop name).2
  | .forget name => return (s.forget name).2
  | .surrender owner => s.surrender owner
  | .deallocate buffer => do return (← s.deallocate buffer).2
  | .write name offset bytes => s.write name offset bytes
  | .execute name path dispatch => do return (← s.execute name path dispatch).2
  | .wait name => do return (← s.wait name).2
  | .notify id => return s.notify id
  | .detach => s.detach

/-- The sessions that can be reached from a start by verbs that are allowed, each with all that was
exchanged with the hardware on the way. -/
inductive Run (allowed : Session → Verb → Prop) (start : Session) :
    List (Exchange Hardware) → Session → Prop where
  | start : Run allowed start [] start
  | step {events more : List (Exchange Hardware)} {s s' : Session} {verb : Verb} :
      Run allowed start events s → allowed s verb → Transcript (s.perform verb) more s' →
      Run allowed start (events ++ more) s'

/-- A property that every allowed verb keeps holds wherever a run leads. -/
theorem Run.induct {allowed : Session → Verb → Prop} {start s : Session}
    {events : List (Exchange Hardware)} {P : List (Exchange Hardware) → Session → Prop}
    (run : Run allowed start events s) (first : P [] start)
    (keep : ∀ events s verb more s', P events s → allowed s verb →
      Transcript (s.perform verb) more s' → P (events ++ more) s') : P events s := by
  induction run with
  | start => exact first
  | step _ hallowed hstep ih => exact keep _ _ _ _ _ ih hallowed hstep

theorem Run.imp {allowed allowed' : Session → Verb → Prop} {start s : Session}
    {events : List (Exchange Hardware)} (run : Run allowed start events s)
    (h : ∀ s verb, allowed s verb → allowed' s verb) : Run allowed' start events s := by
  induction run with
  | start => exact .start
  | step _ hallowed hstep ih => exact .step ih (h _ _ hallowed) hstep

/-- A run that goes on where another ended. -/
theorem Run.trans {allowed : Session → Verb → Prop} {start middle s : Session}
    {events more : List (Exchange Hardware)} (h : Run allowed start events middle)
    (k : Run allowed middle more s) : Run allowed start (events ++ more) s := by
  induction k with
  | start =>
    rw [List.append_nil]
    exact h
  | step _ hallowed hstep ih =>
    rw [← List.append_assoc]
    exact .step ih hallowed hstep

theorem Run.single {allowed : Session → Verb → Prop} {s s' : Session} {verb : Verb}
    {events : List (Exchange Hardware)} (h : allowed s verb)
    (step : Transcript (s.perform verb) events s') : Run allowed s events s' := by
  rw [← List.nil_append events]
  exact .step .start h step

/-! ## Stopping backends -/

/-- What is asked of the hardware when a backend stops, and what is reported. None of it concerns
memory. -/
def Housekeeping : Request → Prop
  | .property m => m.tagId = Firmware.Tag.enableQpu.id
  | .report _ | .retire _ => True
  | _ => False

theorem stop_keepsHouse (b : Backends) (kind : BackendKind) :
    (b.stop kind).Plain Housekeeping :=
  b.stop_plain (fun _ => rfl) (fun _ => trivial) trivial

/-- A session with the same buffers and the same backends as another, whatever else is different. -/
structure Alike (s s' : Session) : Prop where
  buffers : s'.buffers = s.buffers
  system : s'.system = s.system

theorem Alike.refl (s : Session) : Alike s s := ⟨rfl, rfl⟩

theorem Alike.trans {s t u : Session} (h : Alike s t) (k : Alike t u) : Alike s u :=
  ⟨k.buffers.trans h.buffers, k.system.trans h.system⟩

/-- Stopping a backend changes neither what is held nor the state of a backend. -/
theorem stopUnheld_alike {s s' : Session} {kind : BackendKind}
    {events : List (Exchange Hardware)} (h : Transcript (s.stopUnheld kind) events s') :
    Alike s s' ∧ ∀ e ∈ events, Housekeeping e.request := by
  unfold stopUnheld at h
  split at h
  · obtain ⟨rfl, rfl⟩ := Dialog.transcript_done.mp h
    exact ⟨.refl s', by simp⟩
  · obtain ⟨_, hstop, rfl⟩ := Dialog.transcript_map.mp h
    exact ⟨⟨rfl, rfl⟩, (stop_keepsHouse _ kind).of_transcript hstop⟩

/-- Letting go of the system stops the backends that nobody holds, one after the other. -/
theorem detach_alike {s s' : Session} {events : List (Exchange Hardware)}
    (h : Transcript s.detach events s') :
    Alike s s' ∧ ∀ e ∈ events, Housekeeping e.request := by
  have hdetached : Alike s { s with attached := false } := ⟨rfl, rfl⟩
  refine Dialog.transcript_foldlM (P := fun events t => Alike s t ∧ ∀ e ∈ events, Housekeeping e.request)
    [] ?_ ⟨hdetached, List.forall_mem_nil _⟩ h
  rintro before t kind more u ⟨halike, hquiet⟩ hstop
  obtain ⟨halike', hquiet'⟩ := stopUnheld_alike hstop
  exact ⟨halike.trans halike', List.forall_mem_append.mpr ⟨hquiet, hquiet'⟩⟩

/-! ## The end of a buffer -/

/-- The end of a buffer that is no longer listed, call by call: its owner takes it back and is
stopped if nobody holds it any more, and a failure may be reported. -/
def GivenUp (s : Session) (buffer : Buffer) (events : List (Exchange Hardware))
    (s' : Session) : Prop :=
  ∃ back stopping reports result backends, events = back ++ (stopping ++ reports) ∧
    Transcript (s.system.backends.release buffer) back (result, backends) ∧
    Transcript ((s.withBackends backends).stopUnheld buffer.owner.kind) stopping s' ∧
    ∀ e ∈ reports, ∃ diagnostic, e.request = .report diagnostic ∧ ¬ diagnostic.OfStop

/-- What is reported of the end of a buffer is not what is reported of the end of a backend. -/
theorem not_ofStop_of_dropDiagnostic {buffer : Buffer} {result : Except Fault Bool}
    {diagnostic : Diagnostic} (h : dropDiagnostic buffer result = some diagnostic) :
    ¬ diagnostic.OfStop := by
  unfold dropDiagnostic at h
  split at h
  · cases h
  · cases h
    exact id
  · cases h
    exact id

theorem endBuffer_givenUp {s s' : Session} {buffer : Buffer} {result : Except Fault Bool}
    {events : List (Exchange Hardware)}
    (h : Transcript (s.endBuffer buffer) events (result, s')) : GivenUp s buffer events s' := by
  obtain ⟨back, stopping, ⟨result, backends⟩, rfl, hrelease, h⟩ := Dialog.transcript_bind.mp h
  obtain ⟨t, hstop, h⟩ := Dialog.transcript_map.mp h
  cases h
  exact ⟨back, stopping, [], result, backends, by simp, hrelease, hstop, by simp⟩

theorem dropBuffer_givenUp {s s' : Session} {buffer : Buffer} {events : List (Exchange Hardware)}
    (h : Transcript (s.dropBuffer buffer) events s') : GivenUp s buffer events s' := by
  obtain ⟨ending, last, ⟨result, t⟩, rfl, hend, hlast⟩ := Dialog.transcript_bind.mp h
  obtain ⟨back, stopping, reports, result', backends, rfl, hrelease, hstop, hreports⟩ :=
    endBuffer_givenUp hend
  have hreport : t = s' ∧
      ∀ e ∈ last, ∃ diagnostic, e.request = .report diagnostic ∧ ¬ diagnostic.OfStop := by
    cases hd : dropDiagnostic buffer result with
    | none =>
      simp only [hd] at hlast
      obtain ⟨rfl, rfl⟩ := Dialog.transcript_done.mp hlast
      exact ⟨rfl, by simp⟩
    | some diagnostic =>
      simp only [hd] at hlast
      obtain ⟨_, hreport, rfl⟩ := Dialog.transcript_map.mp hlast
      rw [transcript_request.mp hreport]
      refine ⟨rfl, ?_⟩
      intro e he
      obtain rfl := List.mem_singleton.mp he
      exact ⟨diagnostic, rfl, not_ofStop_of_dropDiagnostic hd⟩
  obtain ⟨rfl, hmore⟩ := hreport
  refine ⟨back, stopping, reports ++ last, result', backends, by simp, hrelease, hstop, ?_⟩
  exact List.forall_mem_append.mpr ⟨hreports, hmore⟩

/-- The end of a buffer by its name: either there is none, or it is struck off the list and given
up. -/
def GivenUpByName (s : Session) (name : String) (events : List (Exchange Hardware))
    (s' : Session) : Prop :=
  (s.buffers.get? name = none ∧ events = [] ∧ s' = s) ∨
  ∃ buffer, s.buffers.get? name = some buffer ∧
    GivenUp { s with buffers := s.buffers.erase name } buffer events s'

theorem release_givenUp {s s' : Session} {name : String} {events : List (Exchange Hardware)}
    (h : Transcript (s.perform (.release name)) events s') : GivenUpByName s name events s' := by
  obtain ⟨⟨result, _⟩, h, rfl⟩ := Dialog.transcript_map.mp h
  unfold release at h
  split at h
  · next hnone =>
    obtain ⟨rfl, h⟩ := Dialog.transcript_done.mp h
    cases h
    exact .inl ⟨hnone, rfl, rfl⟩
  · next buffer hsome =>
    obtain ⟨⟨result', _⟩, hend, h⟩ := Dialog.transcript_map.mp h
    cases h
    exact .inr ⟨buffer, hsome, endBuffer_givenUp hend⟩

theorem drop_givenUp {s s' : Session} {name : String} {events : List (Exchange Hardware)}
    (h : Transcript (s.perform (.drop name)) events s') : GivenUpByName s name events s' := by
  obtain ⟨⟨result, _⟩, h, rfl⟩ := Dialog.transcript_map.mp h
  unfold drop at h
  split at h
  · next hnone =>
    obtain ⟨rfl, h⟩ := Dialog.transcript_done.mp h
    cases h
    exact .inl ⟨hnone, rfl, rfl⟩
  · next buffer hsome =>
    obtain ⟨t, hdrop, h⟩ := Dialog.transcript_map.mp h
    cases h
    exact .inr ⟨buffer, hsome, dropBuffer_givenUp hdrop⟩

/-- A buffer is given up when it loses its name to another. -/
theorem keep_givenUp {s s' : Session} {name : String} {buffer : Buffer}
    {events : List (Exchange Hardware)} (h : Transcript (s.keep name buffer) events s') :
    (s.buffers.get? name = none ∧ events = [] ∧
      s' = { s with buffers := s.buffers.put name buffer }) ∨
    ∃ previous, s.buffers.get? name = some previous ∧
      GivenUp { s with buffers := s.buffers.put name buffer } previous events s' := by
  unfold keep at h
  split at h
  · next previous hsome => exact .inr ⟨previous, hsome, dropBuffer_givenUp h⟩
  · next hnone =>
    obtain ⟨rfl, rfl⟩ := Dialog.transcript_done.mp h
    exact .inl ⟨hnone, rfl, rfl⟩

/-- What the end of a buffer that is no longer listed comes to: its owner takes it back, and then
nothing but housekeeping is done. -/
def Ended (s : Session) (buffer : Buffer) (events : List (Exchange Hardware)) (s' : Session) : Prop :=
  ∃ first rest result backends, events = first ++ rest ∧
    Transcript (s.system.backends.release buffer) first (result, backends) ∧
    (∀ e ∈ rest, Housekeeping e.request) ∧ Alike (s.withBackends backends) s'

theorem GivenUp.ended {s s' : Session} {buffer : Buffer} {events : List (Exchange Hardware)}
    (h : GivenUp s buffer events s') : Ended s buffer events s' := by
  obtain ⟨back, stopping, reports, result, backends, rfl, hrelease, hstop, hreports⟩ := h
  obtain ⟨halike, hquiet⟩ := stopUnheld_alike hstop
  refine ⟨back, stopping ++ reports, result, backends, rfl, hrelease, ?_, halike⟩
  refine List.forall_mem_append.mpr ⟨hquiet, ?_⟩
  intro e he
  obtain ⟨diagnostic, hrequest, -⟩ := hreports e he
  rw [hrequest]
  trivial

/-- The end of a buffer by its name: either there is none, or it is struck off the list and ended. -/
def EndedByName (s : Session) (name : String) (events : List (Exchange Hardware))
    (s' : Session) : Prop :=
  (s.buffers.get? name = none ∧ events = [] ∧ s' = s) ∨
  ∃ buffer, s.buffers.get? name = some buffer ∧
    Ended { s with buffers := s.buffers.erase name } buffer events s'

theorem GivenUpByName.ended {s s' : Session} {name : String} {events : List (Exchange Hardware)}
    (h : GivenUpByName s name events s') : EndedByName s name events s' :=
  h.imp_right fun ⟨buffer, hsome, hgiven⟩ => ⟨buffer, hsome, hgiven.ended⟩

theorem release_ended {s s' : Session} {name : String} {events : List (Exchange Hardware)}
    (h : Transcript (s.perform (.release name)) events s') : EndedByName s name events s' :=
  (release_givenUp h).ended

theorem drop_ended {s s' : Session} {name : String} {events : List (Exchange Hardware)}
    (h : Transcript (s.perform (.drop name)) events s') : EndedByName s name events s' :=
  (drop_givenUp h).ended

/-! ## New buffers -/

/-- What putting a new buffer under a name comes to: a buffer that had the name is ended. -/
def Kept (s : Session) (name : String) (buffer : Buffer) (events : List (Exchange Hardware))
    (s' : Session) : Prop :=
  let listed := { s with buffers := s.buffers.put name buffer }
  (s.buffers.get? name = none ∧ events = [] ∧ s' = listed) ∨
  ∃ previous, s.buffers.get? name = some previous ∧ Ended listed previous events s'

theorem keep_kept {s s' : Session} {name : String} {buffer : Buffer}
    {events : List (Exchange Hardware)} (h : Transcript (s.keep name buffer) events s') :
    Kept s name buffer events s' :=
  (keep_givenUp h).imp_right fun ⟨previous, hsome, hgiven⟩ => ⟨previous, hsome, hgiven.ended⟩

/-- The part of an allocation that can fail. -/
def allocating (s : Session) (source : Option Owner) (r : AllocationRequest) :
    Attempt (Option Buffer × Backends) :=
  match source with
  | none => do
    let (buffer, system) ← s.system.allocate r
    return (buffer, system.backends)
  | some owner => s.system.backends.allocate owner r

/-- What an allocation answers and comes to: the attempt, and then a new buffer is kept. -/
theorem allocate_answers {s s' : Session} {name : String} {source : Option Owner}
    {r : AllocationRequest} {answer : Except Fault (Option Buffer)}
    {events : List (Exchange Hardware)}
    (h : Transcript (s.allocate name source r) events (answer, s')) :
    ∃ first rest outcome, events = first ++ rest ∧
      Performs (s.allocating source r) first outcome ∧
      match outcome with
      | .error fault => answer = .error fault ∧ rest = [] ∧ s' = s
      | .ok (none, backends) => answer = .ok none ∧ rest = [] ∧ s' = s.withBackends backends
      | .ok (some buffer, backends) => answer = .ok (some buffer) ∧
        Transcript ((s.withBackends backends).keep name buffer) rest s' := by
  obtain ⟨first, rest, outcome, rfl, hattempt, h⟩ := Dialog.transcript_bind.mp h
  refine ⟨first, rest, outcome, rfl, hattempt, ?_⟩
  rcases outcome with fault | ⟨_ | buffer, backends⟩
  · obtain ⟨rfl, h⟩ := Dialog.transcript_done.mp h
    cases h
    exact ⟨rfl, rfl, rfl⟩
  · obtain ⟨rfl, h⟩ := Dialog.transcript_done.mp h
    cases h
    exact ⟨rfl, rfl, rfl⟩
  · obtain ⟨t, hkeep, h⟩ := Dialog.transcript_map.mp h
    cases h
    exact ⟨rfl, hkeep⟩

theorem allocate_keeps {s s' : Session} {name : String} {source : Option Owner}
    {r : AllocationRequest} {events : List (Exchange Hardware)}
    (h : Transcript (s.perform (.allocate name source r)) events s') :
    ∃ first rest outcome, events = first ++ rest ∧
      Performs (s.allocating source r) first outcome ∧
      match outcome with
      | .error _ => rest = [] ∧ s' = s
      | .ok (none, backends) => rest = [] ∧ s' = s.withBackends backends
      | .ok (some buffer, backends) =>
        Transcript ((s.withBackends backends).keep name buffer) rest s' := by
  obtain ⟨⟨answer, _⟩, h, rfl⟩ := Dialog.transcript_map.mp h
  obtain ⟨first, rest, outcome, hsplit, hattempt, hafter⟩ := allocate_answers h
  refine ⟨first, rest, outcome, hsplit, hattempt, ?_⟩
  rcases outcome with fault | ⟨_ | buffer, backends⟩
  · exact hafter.2
  · exact hafter.2
  · exact hafter.2

theorem allocate_kept {s s' : Session} {name : String} {source : Option Owner}
    {r : AllocationRequest} {events : List (Exchange Hardware)}
    (h : Transcript (s.perform (.allocate name source r)) events s') :
    ∃ first rest outcome, events = first ++ rest ∧
      Performs (s.allocating source r) first outcome ∧
      match outcome with
      | .error _ => rest = [] ∧ s' = s
      | .ok (none, backends) => rest = [] ∧ s' = s.withBackends backends
      | .ok (some buffer, backends) => Kept (s.withBackends backends) name buffer rest s' := by
  obtain ⟨first, rest, outcome, hsplit, hattempt, hafter⟩ := allocate_keeps h
  refine ⟨first, rest, outcome, hsplit, hattempt, ?_⟩
  rcases outcome with fault | ⟨_ | buffer, backends⟩
  · exact hafter
  · exact hafter
  · exact keep_kept hafter

/-- An allocation fails before anything is asked, or is the allocation of a backend, which is asked for
as many bytes. -/
theorem allocating_sized {s : Session} {source : Option Owner} {r : AllocationRequest}
    {events : List (Exchange Hardware)} {result : Except Fault (Option Buffer × Backends)}
    (h : Performs (s.allocating source r) events result) :
    (events = [] ∧ ∃ fault, result = .error fault) ∨
    ∃ owner r', r'.size = r.size ∧
      Performs (s.system.backends.allocate owner r') events result := by
  cases source with
  | some owner => exact .inr ⟨owner, r, rfl, h⟩
  | none =>
    obtain ⟨given, hsystem, rfl⟩ := performs_map.mp h
    unfold System.allocate at hsystem
    rcases performs_check.mp hsystem with ⟨fault, -, rfl, rfl⟩ | ⟨_, -, hsystem⟩
    · exact .inl ⟨rfl, fault, rfl⟩
    split at hsystem
    · obtain ⟨rfl, rfl⟩ := performs_throw.mp hsystem
      exact .inl ⟨rfl, _, rfl⟩
    · next owner howner =>
      obtain ⟨given, hbackend, rfl⟩ := performs_map.mp hsystem
      refine .inr ⟨owner, System.adjust s.system.config r, rfl, ?_⟩
      cases given with
      | error fault => exact hbackend
      | ok pair => exact hbackend

theorem allocating_ways {s : Session} {source : Option Owner} {r : AllocationRequest}
    {events : List (Exchange Hardware)} {result : Except Fault (Option Buffer × Backends)}
    (h : Performs (s.allocating source r) events result) :
    (events = [] ∧ ∃ fault, result = .error fault) ∨
    ∃ owner r', Performs (s.system.backends.allocate owner r') events result := by
  refine (allocating_sized h).imp_right ?_
  rintro ⟨owner, r', -, hbackend⟩
  exact ⟨owner, r', hbackend⟩

/-- A system allocates from one of its backends, or fails. -/
theorem allocating_backend {s : Session} {source : Option Owner} {r : AllocationRequest}
    {events : List (Exchange Hardware)} {result : Option Buffer × Backends}
    (h : Performs (s.allocating source r) events (.ok result)) :
    ∃ owner r', Performs (s.system.backends.allocate owner r') events (.ok result) := by
  rcases allocating_ways h with ⟨-, fault, hfault⟩ | hbackend
  · cases hfault
  · exact hbackend

/-! ## The other verbs -/

/-- A buffer that is forgotten is struck off the list, and its owner stays up for it. -/
theorem forget_ways {s s' : Session} {name : String} {events : List (Exchange Hardware)}
    (h : Transcript (s.perform (.forget name)) events s') :
    events = [] ∧ ((s.buffers.get? name = none ∧ s' = s) ∨
      ∃ buffer, s.buffers.get? name = some buffer ∧
        s' = { s with buffers := s.buffers.erase name, kept := buffer.owner :: s.kept }) := by
  obtain ⟨rfl, rfl⟩ := Dialog.transcript_done.mp h
  refine ⟨rfl, ?_⟩
  unfold forget
  cases hname : s.buffers.get? name with
  | none => exact .inl ⟨rfl, rfl⟩
  | some buffer => exact .inr ⟨buffer, rfl, rfl⟩

theorem forget_alike {s s' : Session} {name : String} {events : List (Exchange Hardware)}
    (h : Transcript (s.perform (.forget name)) events s') :
    (s.buffers.get? name = none ∧ s' = s) ∨
      Alike { s with buffers := s.buffers.erase name } s' := by
  obtain ⟨-, ⟨hnone, rfl⟩ | ⟨buffer, -, rfl⟩⟩ := forget_ways h
  · exact .inl ⟨hnone, rfl⟩
  · exact .inr ⟨rfl, rfl⟩

/-- An owner that loses a hold stops, unless somebody else holds it. -/
theorem surrender_ways {s s' : Session} {owner : Owner} {events : List (Exchange Hardware)}
    (h : Transcript (s.perform (.surrender owner)) events s') :
    (owner ∉ s.kept ∧ events = [] ∧ s' = s) ∨
    (owner ∈ s.kept ∧ Transcript
      (Session.stopUnheld { s with kept := s.kept.erase owner } owner.kind) events s') := by
  replace h : Transcript (s.surrender owner) events s' := h
  unfold surrender at h
  split at h
  · next hkept => exact .inr ⟨hkept, h⟩
  · next hkept =>
    obtain ⟨rfl, rfl⟩ := Dialog.transcript_done.mp h
    exact .inl ⟨hkept, rfl, rfl⟩

theorem surrender_alike {s s' : Session} {owner : Owner} {events : List (Exchange Hardware)}
    (h : Transcript (s.perform (.surrender owner)) events s') : Alike s s' := by
  rcases surrender_ways h with ⟨-, -, rfl⟩ | ⟨-, hstop⟩
  · exact .refl s'
  · have hsurrendered : Alike s { s with kept := s.kept.erase owner } := ⟨rfl, rfl⟩
    exact hsurrendered.trans (stopUnheld_alike hstop).1

theorem deallocate_backend {s s' : Session} {buffer : Buffer} {events : List (Exchange Hardware)}
    (h : Transcript (s.perform (.deallocate buffer)) events s') :
    ∃ result backends, Transcript (s.system.backends.deallocate buffer) events (result, backends) ∧
      s' = s.withBackends backends := by
  obtain ⟨⟨result, _⟩, h, rfl⟩ := Dialog.transcript_map.mp h
  obtain ⟨⟨result, backends⟩, hgive, h⟩ := Dialog.transcript_map.mp h
  cases h
  exact ⟨result, backends, hgive, rfl⟩

theorem write_backend {s s' : Session} {name : String} {offset : Nat} {bytes : ByteArray}
    {events : List (Exchange Hardware)}
    (h : Transcript (s.perform (.write name offset bytes)) events s') :
    s' = s ∨ ∃ buffer backends, s.buffers.get? name = some buffer ∧
      Transcript (s.system.backends.writeBuffer? buffer offset bytes) events (some backends) ∧
      s' = s.withBackends backends := by
  replace h : Transcript (s.write name offset bytes) events s' := h
  unfold write at h
  split at h
  · exact .inl (Dialog.transcript_done.mp h).2
  · next buffer hsome =>
    obtain ⟨first, rest, result, rfl, hwrite, hrest⟩ := Dialog.transcript_bind.mp h
    split at hrest
    · exact .inl (Dialog.transcript_done.mp hrest).2
    · next backends =>
      obtain ⟨rfl, rfl⟩ := Dialog.transcript_done.mp hrest
      rw [List.append_nil]
      exact .inr ⟨buffer, backends, hsome, hwrite, rfl⟩

/-- The part of an execution that can fail. -/
def executing (s : Session) (path : Option BackendKind) (d : Dispatch) :
    Attempt (Handle JobWait × Backends) :=
  match path with
  | none => do
    let (handle, system) ← s.system.execute d
    return (handle, system.backends)
  | some kind => s.system.backends.execute kind d

/-- An execution fails before anything is asked, or is the execution of a backend. -/
theorem executing_ways {s : Session} {path : Option BackendKind} {d : Dispatch}
    {events : List (Exchange Hardware)} {result : Except Fault (Handle JobWait × Backends)}
    (h : Performs (s.executing path d) events result) :
    (events = [] ∧ ∃ fault, result = .error fault) ∨
    ∃ kind, Performs (s.system.backends.execute kind d) events result := by
  cases path with
  | some kind => exact .inr ⟨kind, h⟩
  | none =>
    obtain ⟨given, hsystem, rfl⟩ := performs_map.mp h
    unfold System.execute at hsystem
    rcases performs_check.mp hsystem with ⟨fault, -, rfl, rfl⟩ | ⟨_, -, hsystem⟩
    · exact .inl ⟨rfl, fault, rfl⟩
    split at hsystem
    · obtain ⟨rfl, rfl⟩ := performs_throw.mp hsystem
      exact .inl ⟨rfl, _, rfl⟩
    · next kind hkind =>
      obtain ⟨given, hbackend, rfl⟩ := performs_map.mp hsystem
      refine .inr ⟨kind, ?_⟩
      cases given with
      | error fault => exact hbackend
      | ok pair => exact hbackend

theorem execute_backend {s s' : Session} {name : String} {path : Option BackendKind} {d : Dispatch}
    {events : List (Exchange Hardware)}
    (h : Transcript (s.perform (.execute name path d)) events s') :
    s' = s ∨ ∃ kind handle backends,
      Performs (s.system.backends.execute kind d) events (.ok (handle, backends)) ∧
      Alike (s.withBackends backends) s' := by
  obtain ⟨⟨result, _⟩, h, rfl⟩ := Dialog.transcript_map.mp h
  obtain ⟨first, rest, outcome, rfl, hattempt, h⟩ := Dialog.transcript_bind.mp h
  rcases outcome with fault | ⟨handle, backends⟩
  · cases (Dialog.transcript_done.mp h).2
    exact .inl rfl
  · obtain ⟨rfl, h⟩ := Dialog.transcript_done.mp h
    cases h
    rw [List.append_nil]
    rcases executing_ways hattempt with ⟨-, fault, hfault⟩ | ⟨kind, hkind⟩
    · cases hfault
    · exact .inr ⟨kind, handle, backends, hkind, rfl, rfl⟩

/-- Waiting changes the handles and the tracker. -/
theorem wait_tracker {s s' : Session} {name : String} {events : List (Exchange Hardware)}
    (h : Transcript (s.perform (.wait name)) events s') :
    s' = s ∨ ∃ tracker, Alike (s.withTracker tracker) s' := by
  obtain ⟨⟨result, _⟩, h, rfl⟩ := Dialog.transcript_map.mp h
  unfold wait at h
  split at h
  · cases (Dialog.transcript_done.mp h).2
    exact .inl rfl
  · obtain ⟨⟨⟨passed, handle⟩, tracker⟩, -, h⟩ := Dialog.transcript_map.mp h
    cases h
    exact .inr ⟨tracker, rfl, rfl⟩

/-! ## Buffers that are held -/

/-- What holds of every buffer that a session holds. -/
def AllHeld (P : Buffer → Prop) (s : Session) : Prop :=
  ∀ name b, s.buffers.get? name = some b → P b

section AllHeld

variable {P : Buffer → Prop} {s s' : Session} {events : List (Exchange Hardware)}

theorem AllHeld.alike (k : AllHeld P s) (h : Alike s s') : AllHeld P s' := by
  unfold AllHeld
  rw [h.buffers]
  exact k

theorem AllHeld.erase (k : AllHeld P s) (name : String) :
    AllHeld P { s with buffers := s.buffers.erase name } := by
  intro other b hb
  rw [show Session.buffers _ = s.buffers.erase name from rfl, Directory.get?_erase] at hb
  split at hb
  · cases hb
  · exact k other b hb

theorem AllHeld.put {buffer : Buffer} (k : AllHeld P s) (name : String) (hnew : P buffer) :
    AllHeld P { s with buffers := s.buffers.put name buffer } := by
  intro other b hb
  rw [show Session.buffers _ = s.buffers.put name buffer from rfl, Directory.get?_put] at hb
  split at hb
  · cases hb
    exact hnew
  · exact k other b hb

theorem AllHeld.ended {buffer : Buffer} (k : AllHeld P s) (h : Ended s buffer events s') :
    AllHeld P s' := by
  obtain ⟨_, _, _, backends, -, -, -, halike⟩ := h
  exact AllHeld.alike (s := s.withBackends backends) k halike

theorem AllHeld.endedByName {name : String} (k : AllHeld P s)
    (h : EndedByName s name events s') : AllHeld P s' := by
  rcases h with ⟨-, -, rfl⟩ | ⟨buffer, -, hended⟩
  · exact k
  · exact (k.erase name).ended hended

theorem AllHeld.allocated {name : String} {source : Option Owner} {r : AllocationRequest}
    (hnew : ∀ (b b' : Backends) owner r events buffer,
      Performs (b.allocate owner r) events (.ok (some buffer, b')) → P buffer)
    (k : AllHeld P s) (h : Transcript (s.perform (.allocate name source r)) events s') :
    AllHeld P s' := by
  obtain ⟨first, rest, outcome, -, hattempt, hafter⟩ := allocate_kept h
  rcases outcome with fault | ⟨_ | buffer, backends⟩
  · obtain ⟨-, rfl⟩ := hafter
    exact k
  · obtain ⟨-, rfl⟩ := hafter
    exact k
  · obtain ⟨owner, r', hbackend⟩ := allocating_backend hattempt
    have hlisted := AllHeld.put (s := s.withBackends backends) k name (hnew _ _ _ _ _ _ hbackend)
    rcases hafter with ⟨-, -, rfl⟩ | ⟨previous, -, hended⟩
    · exact hlisted
    · exact hlisted.ended hended

theorem AllHeld.verb {verb : Verb}
    (hnew : ∀ (b b' : Backends) owner r events buffer,
      Performs (b.allocate owner r) events (.ok (some buffer, b')) → P buffer)
    (k : AllHeld P s) (h : Transcript (s.perform verb) events s') : AllHeld P s' := by
  cases verb with
  | allocate name source r => exact k.allocated hnew h
  | release name => exact k.endedByName (release_ended h)
  | drop name => exact k.endedByName (drop_ended h)
  | forget name =>
    rcases forget_alike h with ⟨-, rfl⟩ | halike
    · exact k
    · exact (k.erase name).alike halike
  | surrender owner => exact k.alike (surrender_alike h)
  | deallocate buffer =>
    obtain ⟨_, _, -, rfl⟩ := deallocate_backend h
    exact k
  | write name offset bytes =>
    rcases write_backend h with rfl | ⟨_, _, -, -, rfl⟩
    · exact k
    · exact k
  | execute name path d =>
    rcases execute_backend h with rfl | ⟨_, _, backends, -, halike⟩
    · exact k
    · exact AllHeld.alike (s := s.withBackends backends) k halike
  | wait name =>
    rcases wait_tracker h with rfl | ⟨tracker, halike⟩
    · exact k
    · exact AllHeld.alike (s := s.withTracker tracker) k halike
  | notify id =>
    cases (Dialog.transcript_done.mp h).2
    exact k
  | detach => exact k.alike (detach_alike h).1

/-- What holds of every buffer that is handed out holds of every buffer that is held. -/
theorem allHeld_of_run {allowed : Session → Verb → Prop} {start : Session}
    (hnew : ∀ (b b' : Backends) owner r events buffer,
      Performs (b.allocate owner r) events (.ok (some buffer, b')) → P buffer)
    (hstart : ∀ name, start.buffers.get? name = none) (run : Run allowed start events s) :
    AllHeld P s := by
  refine run.induct (P := fun _ s => AllHeld P s) ?_ fun _ _ _ _ _ k _ h => k.verb hnew h
  intro name b hb
  rw [hstart] at hb
  cases hb

end AllHeld

end Session

end VideoCore

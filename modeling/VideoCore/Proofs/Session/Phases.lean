import VideoCore.Proofs.Mailbox.Power
import VideoCore.Proofs.Session.Holding

/-!
# The two phases of a backend

Seen from one backend a session is in one of two phases. While somebody holds the backend, nothing of
its teardown has been asked (`Up`). Whoever lets go of it last has it torn down, and from then on
nothing reaches it (`Down`). Every verb that forgets no buffer leads from phase to phase
(`InPhase.verb`).
-/

namespace VideoCore

open Firmware Hardware
open Dialog (Transcript)

/-! ## Calls to one backend -/

/-- What was asked of a backend, in order. -/
def callsTo (kind : BackendKind) (events : List (Exchange Hardware)) : List Request :=
  (events.map (·.request)).filter (·.backend? = some kind)

/-- What stops a backend: the QPUs are switched off before the mailbox is given up, and the others
are just given up. -/
def teardown : BackendKind → List Request
  | .mailbox => [.property (Mailbox.powerOrder false), .retire .mailbox]
  | kind => [.retire kind]

section Calls

variable {kind other : BackendKind} {events first rest : List (Exchange Hardware)}

@[simp] theorem callsTo_append :
    callsTo kind (first ++ rest) = callsTo kind first ++ callsTo kind rest := by
  rw [callsTo, List.map_append, List.filter_append, callsTo, callsTo]

theorem callsTo_eq_nil (h : ∀ e ∈ events, e.request.backend? ≠ some kind) :
    callsTo kind events = [] := by
  rw [callsTo, List.filter_eq_nil_iff]
  intro q hq
  obtain ⟨e, he, rfl⟩ := List.mem_map.mp hq
  simpa using h e he

/-- What reaches another backend does not reach this one. -/
theorem callsTo_of_within (hne : other ≠ kind) (h : ∀ e ∈ events, Within other e.request) :
    callsTo kind events = [] := by
  apply callsTo_eq_nil
  intro e he hkind
  exact hne ((h e he).eq hkind)

/-- Requests that belong neither to the beginning nor to the end of a backend. -/
def Calm (calls : List Request) : Prop := ∀ q ∈ calls, ¬ StartsOrStops q

@[simp] theorem calm_nil : Calm [] := by
  simp [Calm]

theorem Calm.append {first rest : List Request} (h : Calm first) (k : Calm rest) :
    Calm (first ++ rest) :=
  List.forall_mem_append.mpr ⟨h, k⟩

/-- A backend that is used, this one or another, is neither started nor stopped. -/
theorem calm_of_uses (h : ∀ e ∈ events, Uses other e.request) : Calm (callsTo kind events) := by
  intro q hq
  obtain ⟨e, he, rfl⟩ := List.mem_map.mp (List.mem_filter.mp hq).1
  exact (h e he).inUse

theorem startsOrStops_of_teardown {q : Request} (h : q ∈ teardown kind) : StartsOrStops q := by
  cases kind with
  | mailbox =>
    rcases List.mem_cons.mp h with rfl | h
    · rfl
    · obtain rfl := List.mem_singleton.mp h
      trivial
  | _ =>
    obtain rfl := List.mem_singleton.mp h
    trivial

theorem reports_reach_nobody (h : ∀ e ∈ events, ∃ d, e.request = .report d) :
    callsTo kind events = [] := by
  apply callsTo_eq_nil
  intro e he
  obtain ⟨d, hd⟩ := h e he
  rw [hd]
  nofun

end Calls

/-- A backend that is stopped is asked for its teardown and for nothing else. -/
theorem Backends.callsTo_stop {b : Backends} {kind : BackendKind}
    {events : List (Exchange Hardware)} (hhas : b.has kind = true)
    (h : Transcript (b.stop kind) events ()) : callsTo kind events = teardown kind := by
  cases kind with
  | v3d | sharedMemory | gpuService =>
    rw [transcript_request.mp h]
    rfl
  | mailbox =>
    obtain ⟨first, rest, answer, rfl, hswitch, hrest⟩ := Dialog.transcript_bind.mp h
    obtain ⟨reply, rfl, -⟩ := Mailbox.performs_enableQpus.mp hswitch
    -- whether there is a report depends on the answer
    rcases answer with fault | _ | _
    · obtain ⟨_, last, rfl, hlast⟩ := transcript_ask.mp hrest
      rw [transcript_request.mp hlast]
      rfl
    · obtain ⟨_, last, rfl, hlast⟩ := transcript_ask.mp hrest
      rw [transcript_request.mp hlast]
      rfl
    · rw [transcript_request.mp hrest]
      rfl
  | emulator =>
    obtain ⟨e, he⟩ := Option.isSome_iff_exists.mp hhas
    simp only [Backends.stop, he] at h
    obtain ⟨reports, last, _, rfl, hreports, hlast⟩ := Dialog.transcript_bind.mp h
    rw [transcript_request.mp hlast, callsTo_append]
    have hasks : Dialog.Asks (fun q : Request => ∃ d, q = .report d)
        (e.slots.live.forM fun held =>
          report (.neverReleased (held.1 + 1) held.2.size (Emulator.slotAddress held.1))) := by
      induction e.slots.live with
      | nil => trivial
      | cons slot rest ih => exact Dialog.Asks.bind (asks_ask ⟨_, rfl⟩) fun _ => ih
    rw [reports_reach_nobody (hasks.of_transcript hreports)]
    rfl

namespace Session

/-! ## Phases -/

/-- A backend is up, whether or not somebody holds it. -/
structure Running (kind : BackendKind) (events : List (Exchange Hardware)) (s : Session) : Prop where
  tidy : s.Tidy
  has : s.system.backends.has kind = true
  running : kind ∉ s.stopped
  calm : Calm (callsTo kind events)

/-- A backend is up and held. -/
structure Up (kind : BackendKind) (events : List (Exchange Hardware)) (s : Session) : Prop
    extends Running kind events s where
  held : s.holds kind = true

/-- A backend has been torn down, and that was the last that was asked of it. -/
structure Down (kind : BackendKind) (events : List (Exchange Hardware)) (s : Session) : Prop where
  tidy : s.Tidy
  stopped : kind ∈ s.stopped
  unheld : s.holds kind = false
  tornDown : ∃ earlier, callsTo kind events = earlier ++ teardown kind ∧ Calm earlier

/-- A backend is in one of its two phases. -/
def InPhase (kind : BackendKind) (events : List (Exchange Hardware)) (s : Session) : Prop :=
  Up kind events s ∨ Down kind events s

section Phases

variable {kind other : BackendKind} {events more : List (Exchange Hardware)} {s s' t : Session}

theorem Running.alike (k : Running kind events s) (halike : HeldAlike s s')
    (hcalm : Calm (callsTo kind more)) : Running kind (events ++ more) s' where
  tidy := halike.tidy k.tidy
  has := by rw [halike.has, k.has]
  running := by rw [halike.stopped]; exact k.running
  calm := by rw [callsTo_append]; exact k.calm.append hcalm

theorem Up.alike (k : Up kind events s) (halike : HeldAlike s s')
    (hcalm : Calm (callsTo kind more)) : Up kind (events ++ more) s' where
  toRunning := k.toRunning.alike halike hcalm
  held := by rw [halike.holds, k.held]

/-- Nothing reaches a backend that is down. -/
theorem Down.quiet (k : Down kind events s) (halike : HeldAlike s s')
    (hquiet : callsTo kind more = []) : Down kind (events ++ more) s' where
  tidy := halike.tidy k.tidy
  stopped := by rw [halike.stopped]; exact k.stopped
  unheld := by rw [halike.holds, k.unheld]
  tornDown := by rw [callsTo_append, hquiet, List.append_nil]; exact k.tornDown

/-- A backend that is given the chance to stop does so if nobody holds it. -/
theorem Running.stopUnheld (k : Running kind events s)
    (h : Transcript (s.stopUnheld kind) more s') : InPhase kind (events ++ more) s' := by
  rcases stopUnheld_cases h with ⟨rfl, rfl, hheld⟩ | ⟨hunheld, -, hhas, hstop, rfl⟩
  · rw [List.append_nil]
    exact .inl ⟨k, hheld k.has k.running⟩
  · refine .inr ⟨⟨k.tidy.names, k.tidy.kept⟩, List.mem_cons_self, hunheld, callsTo kind events, ?_,
      k.calm⟩
    rw [callsTo_append, Backends.callsTo_stop hhas hstop]

theorem callsTo_stopUnheld (hne : other ≠ kind)
    (h : Transcript (s.stopUnheld other) more s') : callsTo kind more = [] :=
  callsTo_of_within hne ((stopUnheld_within s other).of_transcript h)

/-- Another backend that stops is of no concern. -/
theorem Running.stopUnheld_other (k : Running kind events s) (hne : other ≠ kind)
    (h : Transcript (s.stopUnheld other) more s') : Running kind (events ++ more) s' := by
  obtain ⟨hbuffers, -, hkept, hsystem, hstopped⟩ := Session.stopUnheld_other hne.symm h
  constructor
  · exact ⟨hbuffers ▸ k.tidy.names, hkept.trans k.tidy.kept⟩
  · rw [hsystem, k.has]
  · rw [hstopped]
    exact k.running
  · rw [callsTo_append, callsTo_stopUnheld hne h, List.append_nil]
    exact k.calm

theorem holds_stopUnheld (hne : other ≠ kind) (h : Transcript (s.stopUnheld other) more s') :
    s'.holds kind = s.holds kind := by
  obtain ⟨hbuffers, hattached, hkept, -, -⟩ := Session.stopUnheld_other hne.symm h
  rw [holds, hbuffers, hattached, hkept, holds]

theorem Up.stopUnheld_other (k : Up kind events s) (hne : other ≠ kind)
    (h : Transcript (s.stopUnheld other) more s') : Up kind (events ++ more) s' where
  toRunning := k.toRunning.stopUnheld_other hne h
  held := by rw [holds_stopUnheld hne h, k.held]

theorem Down.stopUnheld (k : Down kind events s)
    (h : Transcript (s.stopUnheld other) more s') : Down kind (events ++ more) s' := by
  by_cases hne : other = kind
  · subst hne
    rcases stopUnheld_cases h with ⟨rfl, rfl, -⟩ | ⟨-, hrunning, -⟩
    · rwa [List.append_nil]
    · exact absurd k.stopped hrunning
  · obtain ⟨hbuffers, -, hkept, -, hstopped⟩ := Session.stopUnheld_other (Ne.symm hne) h
    constructor
    · exact ⟨hbuffers ▸ k.tidy.names, hkept.trans k.tidy.kept⟩
    · rw [hstopped]
      exact k.stopped
    · rw [holds_stopUnheld hne h, k.unheld]
    · rw [callsTo_append, callsTo_stopUnheld hne h, List.append_nil]
      exact k.tornDown

theorem InPhase.stopUnheld (k : InPhase kind events s)
    (h : Transcript (s.stopUnheld other) more s') : InPhase kind (events ++ more) s' := by
  rcases k with k | k
  · by_cases hne : other = kind
    · subst hne
      exact k.toRunning.stopUnheld h
    · exact .inl (k.stopUnheld_other hne h)
  · exact .inr (k.stopUnheld h)

/-- Reports are of no concern. -/
theorem InPhase.reports (k : InPhase kind events s)
    (h : ∀ e ∈ more, ∃ d, e.request = .report d) : InPhase kind (events ++ more) s := by
  have hquiet : callsTo kind more = [] := reports_reach_nobody h
  rcases k with k | k
  · refine .inl (k.alike (.refl s) ?_)
    rw [hquiet]
    exact calm_nil
  · exact .inr (k.quiet (.refl s) hquiet)

/-! ## Letting go of a buffer -/

/-- A buffer that is given up, of this backend or of one that does not matter here. -/
theorem Running.givenUp {buffer : Buffer} (k : Running kind events t)
    (hheld : buffer.owner.kind ≠ kind → t.holds kind = true)
    (h : GivenUp t buffer more s') : InPhase kind (events ++ more) s' := by
  obtain ⟨back, stopping, reports, result, backends, rfl, hrelease, hstop, hreports⟩ := h
  have huses := (Backends.release_uses _ buffer).of_transcript hrelease
  have halike : HeldAlike t (t.withBackends backends) :=
    heldAlike_withBackends (Backends.has_release hrelease)
  have hback := k.alike halike (calm_of_uses huses)
  rw [← List.append_assoc, ← List.append_assoc]
  refine InPhase.reports ?_ fun e he => (hreports e he).imp fun _ h => h.1
  by_cases hkind : buffer.owner.kind = kind
  · rw [hkind] at hstop
    exact hback.stopUnheld hstop
  · have hup : Up kind (events ++ back) (t.withBackends backends) :=
      ⟨hback, by rw [halike.holds, hheld hkind]⟩
    exact .inl (hup.stopUnheld_other hkind hstop)

/-- A backend that is down owns no buffer that could be given up. -/
theorem Down.givenUp {buffer : Buffer} (k : Down kind events t) (hother : buffer.owner.kind ≠ kind)
    (h : GivenUp t buffer more s') : Down kind (events ++ more) s' := by
  obtain ⟨back, stopping, reports, result, backends, rfl, hrelease, hstop, hreports⟩ := h
  have huses := (Backends.release_uses _ buffer).of_transcript hrelease
  have hquiet : callsTo kind back = [] :=
    callsTo_of_within hother fun e he => (huses e he).within
  have hback := k.quiet (heldAlike_withBackends (Backends.has_release hrelease)) hquiet
  rw [← List.append_assoc, ← List.append_assoc]
  refine (hback.stopUnheld hstop).quiet (.refl s') ?_
  exact reports_reach_nobody fun e he => (hreports e he).imp fun _ h => h.1

/-- No buffer is left of a backend that is down. -/
theorem Down.owner_ne {name : String} {buffer : Buffer} (k : Down kind events s)
    (hsome : s.buffers.get? name = some buffer) : buffer.owner.kind ≠ kind :=
  owner_ne_of_unheld k.tidy.names k.unheld hsome

theorem InPhase.givenUpByName {name : String} (k : InPhase kind events s)
    (h : GivenUpByName s name more s') : InPhase kind (events ++ more) s' := by
  rcases h with ⟨-, rfl, rfl⟩ | ⟨buffer, hsome, hgiven⟩
  · rwa [List.append_nil]
  rcases k with k | k
  · have hrunning : Running kind events { s with buffers := s.buffers.erase name } :=
      ⟨tidy_erase k.tidy name, k.has, k.running, k.calm⟩
    exact hrunning.givenUp (fun hother => holds_erase k.tidy.names hsome hother k.held) hgiven
  · have hdown : Down kind events { s with buffers := s.buffers.erase name } :=
      ⟨tidy_erase k.tidy name, k.stopped, unheld_erase k.tidy.names name k.unheld, k.tornDown⟩
    exact .inr (hdown.givenUp (k.owner_ne hsome) hgiven)

/-! ## Letting go of the system -/

/-- The backends stop one after the other. What holds until one of them has its turn, and makes its turn
lead to something that the later ones keep, leads to that in the end. -/
theorem transcript_stopAll {P Q : List (Exchange Hardware) → Session → Prop}
    {kinds : List BackendKind}
    (hother : ∀ {events s other more s'}, P events s → other ≠ kind →
      Transcript (s.stopUnheld other) more s' → P (events ++ more) s')
    (hturn : ∀ {events s more s'}, P events s → Transcript (s.stopUnheld kind) more s' →
      Q (events ++ more) s')
    (hlater : ∀ {events s other more s'}, Q events s →
      Transcript (s.stopUnheld other) more s' → Q (events ++ more) s')
    (hmem : kind ∈ kinds) (k : P events s)
    (h : Transcript (kinds.foldlM Session.stopUnheld s) more s') : Q (events ++ more) s' := by
  induction kinds generalizing events more s with
  | nil => cases hmem
  | cons first rest ih =>
    rw [List.foldlM_cons] at h
    obtain ⟨stopping, last, u, rfl, hfirst, hrest⟩ := Dialog.transcript_bind.mp h
    rw [← List.append_assoc]
    by_cases hne : first = kind
    · subst hne
      exact Dialog.transcript_foldlM _ hlater (hturn k hfirst) hrest
    · have hmem : kind ∈ rest := (List.mem_cons.mp hmem).resolve_left (Ne.symm hne)
      exact ih hmem (hother k hne hfirst) hrest

theorem mem_kinds (kind : BackendKind) : kind ∈ Backends.kinds := by
  cases kind <;> decide

theorem mem_filter_or_mem {first later : List BackendKind} (h : kind ∈ first) :
    kind ∈ first.filter (· ∉ later) ++ later := by
  rw [List.mem_append]
  by_cases hlater : kind ∈ later
  · exact .inr hlater
  · refine .inl (List.mem_filter.mpr ⟨h, ?_⟩)
    rwa [decide_eq_true_iff]

/-- Every backend loses its hold when the system is let go of. -/
theorem mem_detachOrder (s : Session) (kind : BackendKind) : kind ∈ s.detachOrder :=
  mem_filter_or_mem (mem_filter_or_mem (mem_kinds kind))

theorem Up.detach (k : Up kind events s) (h : Transcript s.detach more s') :
    InPhase kind (events ++ more) s' := by
  have hrunning : Running kind events { s with attached := false } :=
    ⟨⟨k.tidy.names, k.tidy.kept⟩, k.has, k.running, k.calm⟩
  exact transcript_stopAll (Q := InPhase kind) Running.stopUnheld_other Running.stopUnheld
    InPhase.stopUnheld (mem_detachOrder s kind) hrunning h

/-! ## Verbs -/

/-- What can be done only with a system that is held. -/
def Verb.NeedsSystem : Verb → Prop
  | .allocate _ _ _ | .execute _ _ _ | .detach => True
  | _ => False

/-- What a user who forgets no buffer can do with a session. -/
def Permitted (s : Session) (verb : Verb) : Prop :=
  verb.Orderly ∧ (verb.NeedsSystem → s.attached = true)

theorem holds_of_attached (h : s.attached = true) : s.holds kind = true := by
  rw [holds, h, Bool.true_or]

/-- What the system holds is up. -/
theorem InPhase.up (k : InPhase kind events s) (h : s.attached = true) : Up kind events s := by
  rcases k with k | k
  · exact k
  · have hunheld := k.unheld
    rw [holds_of_attached h] at hunheld
    cases hunheld

/-- What the system does not start. -/
theorem calm_allocating {source : Option Owner} {r : AllocationRequest}
    {result : Except Fault (Option Buffer × Backends)}
    (h : Performs (s.allocating source r) more result) : Calm (callsTo kind more) := by
  rcases allocating_ways h with ⟨rfl, -⟩ | ⟨owner, r', hbackend⟩
  · exact calm_nil
  · exact calm_of_uses ((Backends.allocate_uses _ owner r').run.of_transcript hbackend)

theorem Up.allocate {name : String} {source : Option Owner} {r : AllocationRequest}
    (k : Up kind events s) (hattached : s.attached = true)
    (h : Transcript (s.perform (.allocate name source r)) more s') :
    InPhase kind (events ++ more) s' := by
  obtain ⟨first, rest, outcome, rfl, hattempt, hafter⟩ := allocate_keeps h
  have hcalm : Calm (callsTo kind first) := calm_allocating hattempt
  rw [← List.append_assoc]
  match outcome with
  | .error fault =>
    obtain ⟨rfl, rfl⟩ := hafter
    rw [List.append_nil]
    exact .inl (k.alike (.refl s') hcalm)
  | .ok (none, backends) =>
    obtain ⟨rfl, rfl⟩ := hafter
    obtain ⟨owner, r', hbackend⟩ := allocating_backend hattempt
    rw [List.append_nil]
    exact .inl (k.alike (heldAlike_withBackends (Backends.has_allocate hbackend)) hcalm)
  | .ok (some buffer, backends) =>
    obtain ⟨owner, r', hbackend⟩ := allocating_backend hattempt
    have hup := k.alike (heldAlike_withBackends (Backends.has_allocate hbackend)) hcalm
    -- the new buffer is listed, and the system still holds everything
    have hlisted : Running kind (events ++ first)
        { s.withBackends backends with
          buffers := (s.withBackends backends).buffers.put name buffer } :=
      ⟨tidy_put hup.tidy name buffer, hup.has, hup.running, hup.calm⟩
    rcases keep_givenUp hafter with ⟨-, rfl, rfl⟩ | ⟨previous, -, hgiven⟩
    · rw [List.append_nil]
      exact .inl ⟨hlisted, holds_of_attached hattached⟩
    · exact hlisted.givenUp (fun _ => holds_of_attached hattached) hgiven

/-- A use of some backend, or of none, that leaves all that is held as it is. -/
theorem InPhase.used (k : InPhase kind events s) (halike : HeldAlike s s')
    (huses : ∀ other, ∀ e ∈ more, Uses other e.request) : InPhase kind (events ++ more) s' := by
  rcases k with k | k
  · exact .inl (k.alike halike (calm_of_uses (huses kind)))
  · refine .inr (k.quiet halike ?_)
    -- what reaches every backend at most reaches none
    apply callsTo_eq_nil
    intro e he hkind
    have hmailbox : BackendKind.mailbox = kind := (huses .mailbox e he).within.eq hkind
    have hv3d : BackendKind.v3d = kind := (huses .v3d e he).within.eq hkind
    cases hmailbox.trans hv3d.symm

/-- Every verb leads from phase to phase. -/
theorem InPhase.verb {verb : Verb} (k : InPhase kind events s) (hverb : Permitted s verb)
    (h : Transcript (s.perform verb) more s') : InPhase kind (events ++ more) s' := by
  obtain ⟨horderly, hsystem⟩ := hverb
  cases verb with
  | allocate name source r =>
    have hattached := hsystem trivial
    exact (k.up hattached).allocate hattached h
  | release name => exact k.givenUpByName (release_givenUp h)
  | drop name => exact k.givenUpByName (drop_givenUp h)
  | forget | surrender | deallocate => exact horderly.elim
  | write name offset bytes =>
    exact k.used (write_heldAlike h) fun other => (s.write_uses name offset bytes).of_transcript h
  | execute name path d =>
    obtain ⟨other, -, huses⟩ := execute_uses h
    exact .inl ((k.up (hsystem trivial)).alike (execute_heldAlike h) (calm_of_uses huses))
  | wait name =>
    exact k.used (wait_heldAlike h) fun other => (s.wait_uses name).of_transcript h
  | notify id =>
    obtain ⟨rfl, rfl⟩ := Dialog.transcript_done.mp h
    exact k.used (heldAlike_withTracker s _) (by simp)
  | detach => exact (k.up (hsystem trivial)).detach h

theorem InPhase.run (k : InPhase kind events s) (run : Run Permitted s more s') :
    InPhase kind (events ++ more) s' := by
  refine run.induct (P := fun more s' => InPhase kind (events ++ more) s') ?_ ?_
  · rwa [List.append_nil]
  · intro more t verb last t' k hverb hstep
    rw [← List.append_assoc]
    exact k.verb hverb hstep

end Phases

end Session

end VideoCore

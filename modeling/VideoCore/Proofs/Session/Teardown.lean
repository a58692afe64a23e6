import VideoCore.Proofs.Emulator.Buffers
import VideoCore.Proofs.Session.Phases

/-!
# The end of the backends

A session uses its backends in any order: it allocates and ends buffers, lets go of the system, and at
last lets go of everything that is left. A buffer may outlive the system, and then it is the buffer
that keeps its backend up.

A buffer is held until it is given back to its owner (`run_keeps`), and a session that is closed holds
nothing any more. So the backends that it started with are torn down in the end, each after the last of
its buffers (`tornDown_of_finishes`). Closing itself asks for a bounded number of things and ends
(`close_plain`).
-/

namespace VideoCore

open Firmware Hardware
open Dialog (Transcript)

namespace Session

variable {kind : BackendKind} {events more first rest : List (Exchange Hardware)} {s s' t : Session}

/-! ## Taking a buffer back -/

/-- What the owner of a buffer is asked when it takes the buffer back, whatever comes of it. The
emulator is part of the program, and there is nobody to ask. -/
def returning (buffer : Buffer) : List Request :=
  match buffer.owner with
  | .mailbox => [.property (.ofRequest .unlockMemory [buffer.handle] 1)]
  | .sharedMemory => [.unlockShared buffer.host.pointer, .freeShared buffer.handle]
  | .emulator => []

theorem asked_of_deallocate {b b' : Backends} {buffer : Buffer} {result : Except Fault Bool}
    (h : Transcript (b.deallocate buffer) events (result, b')) :
    ∀ q ∈ returning buffer, q ∈ events.map (·.request) := by
  unfold Backends.deallocate at h
  unfold returning
  cases howner : buffer.owner with
  | emulator => exact List.forall_mem_nil _
  | mailbox =>
    simp only [howner] at h
    obtain ⟨answer, hgive, -⟩ := Dialog.transcript_map.mp h
    -- the unlock comes first, whether or not the release follows
    rcases Mailbox.performs_deallocate hgive with ⟨cause, rfl, -⟩ | ⟨unlock, release, rfl, -⟩
    · simp [Mailbox.trip]
    · simp [Mailbox.trip]
  | sharedMemory =>
    simp only [howner] at h
    obtain ⟨unlocked, hgive, -⟩ := Dialog.transcript_map.mp h
    rw [SharedMemory.transcript_deallocate.mp hgive]
    simp

theorem asked_of_release {b b' : Backends} {buffer : Buffer} {result : Except Fault Bool}
    (h : Transcript (b.release buffer) events (result, b')) :
    ∀ q ∈ returning buffer, q ∈ events.map (·.request) := by
  unfold Backends.release at h
  split at h
  · obtain ⟨unmapping, last, _, rfl, -, hlast⟩ := Dialog.transcript_bind.mp h
    intro q hq
    rw [List.map_append]
    exact List.mem_append_right _ (asked_of_deallocate hlast q hq)
  · exact asked_of_deallocate h

/-- A buffer is taken back by its owner. The emulator, which asks nobody, has it until then and not any
longer. -/
structure TakenBack (buffer : Buffer) (b : Backends) (events : List (Exchange Hardware))
    (b' : Backends) : Prop where
  released : ∃ result, Transcript (b.release buffer) events (result, b')
  asked : ∀ q ∈ returning buffer, q ∈ events.map (·.request)
  freed : buffer.owner = .emulator →
    b.sizeAt? buffer.handle = some buffer.size ∧ b'.sizeAt? buffer.handle = none

theorem takenBack_of_release {b b' : Backends} {buffer : Buffer} {result : Except Fault Bool}
    (h : Transcript (b.release buffer) events (result, b'))
    (hstill : buffer.owner = .emulator → b.sizeAt? buffer.handle = some buffer.size) :
    TakenBack buffer b events b' where
  released := ⟨result, h⟩
  asked := asked_of_release h
  freed howner := ⟨hstill howner, by
    rw [Backends.sizeAt?_release h, if_pos howner, Function.update_self]⟩

/-! ## Where a session comes through -/

/-- The backends that a session comes to have, each with all that was exchanged before. They are those
of a session that can be reached, or those of an allocation that has got a buffer and is about to end
the one whose name that takes. A session that is closed lets go of its handles first. -/
inductive Passes : Session → List (Exchange Hardware) → Backends → Prop where
  | reached {s t : Session} {events : List (Exchange Hardware)} (run : Run Permitted s events t) :
      Passes s events t.system.backends
  | allocated {s t : Session} {events more : List (Exchange Hardware)} {source : Option Owner}
      {r : AllocationRequest} {buffer : Buffer} {b : Backends} (run : Run Permitted s events t)
      (got : Performs (t.allocating source r) more (.ok (some buffer, b))) :
      Passes s (events ++ more) b
  | closing {s t : Session} {events more : List (Exchange Hardware)} {b : Backends}
      (run : Run Permitted s events t) (later : Passes { t with handles := {} } more b) :
      Passes s (events ++ more) b

theorem Passes.after {b : Backends} (run : Run Permitted s events t) (h : Passes t more b) :
    Passes s (events ++ more) b := by
  cases h with
  | reached later => exact .reached (run.trans later)
  | allocated later got =>
    rw [← List.append_assoc]
    exact .allocated (run.trans later) got
  | closing later last =>
    rw [← List.append_assoc]
    exact .closing (run.trans later) last

/-- A buffer was given back to its owner, before anything of the owner's teardown was asked. The
events are those of a session after some others. -/
def GivenBack (s : Session) (kind : BackendKind) (buffer : Buffer)
    (before events : List (Exchange Hardware)) : Prop :=
  ∃ pre back post b b', events = pre ++ (back ++ post) ∧ Passes s pre b ∧
    TakenBack buffer b back b' ∧ Calm (callsTo kind (before ++ (pre ++ back)))

section Keeping

variable {name : String} {buffer : Buffer} {before : List (Exchange Hardware)}

theorem GivenBack.later (h : GivenBack s kind buffer before events)
    (more : List (Exchange Hardware)) : GivenBack s kind buffer before (events ++ more) := by
  obtain ⟨pre, back, post, b, b', rfl, hpasses, htaken, hcalm⟩ := h
  exact ⟨pre, back, post ++ more, b, b', by simp, hpasses, htaken, hcalm⟩

theorem GivenBack.preceded (run : Run Permitted s first t)
    (h : GivenBack t kind buffer (before ++ first) events) :
    GivenBack s kind buffer before (first ++ events) := by
  obtain ⟨pre, back, post, b, b', rfl, hpasses, htaken, hcalm⟩ := h
  exact ⟨first ++ pre, back, post, b, b', by simp, hpasses.after run, htaken, by simpa using hcalm⟩

theorem GivenBack.closing (run : Run Permitted s first t)
    (h : GivenBack { t with handles := {} } kind buffer (before ++ first) events) :
    GivenBack s kind buffer before (first ++ events) := by
  obtain ⟨pre, back, post, b, b', rfl, hpasses, htaken, hcalm⟩ := h
  exact ⟨first ++ pre, back, post, b, b', by simp, .closing run hpasses, htaken, by simpa using hcalm⟩

theorem GivenUp.givenBack (h : GivenUp t buffer rest s') (hpasses : Passes s first t.system.backends)
    (hstill : buffer.owner = .emulator →
      t.system.backends.sizeAt? buffer.handle = some buffer.size)
    (hcalm : Calm (callsTo kind (before ++ first))) :
    GivenBack s kind buffer before (first ++ rest) := by
  obtain ⟨back, stopping, reports, result, b', rfl, hrelease, -, -⟩ := h
  refine ⟨first, back, stopping ++ reports, _, b', rfl, hpasses,
    takenBack_of_release hrelease hstill, ?_⟩
  rw [← List.append_assoc, callsTo_append]
  exact hcalm.append (calm_of_uses ((Backends.release_uses _ buffer).of_transcript hrelease))

/-! ## What verbs do to a buffer -/

/-- Where the emulator has a buffer that is held. -/
theorem size_of_placed (k : Emulator.AllPlaced s) (hsome : s.buffers.get? name = some buffer)
    (howner : buffer.owner = .emulator) :
    s.system.backends.sizeAt? buffer.handle = some buffer.size := by
  obtain ⟨-, -, -, -, hsize⟩ := k.in_slot name buffer hsome howner
  exact hsize

theorem givenUpByName_keeps {other : String} (k : Emulator.AllPlaced s)
    (hsome : s.buffers.get? name = some buffer) (hcalm : Calm (callsTo kind before))
    (h : GivenUpByName s other more s') :
    s'.buffers.get? name = some buffer ∨ GivenBack s kind buffer before more := by
  rcases h with ⟨-, -, rfl⟩ | ⟨b, hb, hgiven⟩
  · exact .inl hsome
  by_cases hname : name = other
  · subst hname
    rw [hsome] at hb
    cases hb
    have hpasses : Passes s [] s.system.backends := .reached .start
    have hstill := size_of_placed k hsome
    have hcalm' : Calm (callsTo kind (before ++ [])) := by rwa [List.append_nil]
    exact .inr (hgiven.givenBack hpasses hstill hcalm')
  · obtain ⟨_, _, _, _, -, -, -, halike⟩ := hgiven.ended
    rw [halike.buffers]
    exact .inl ((Directory.get?_erase_of_ne _ hname).trans hsome)

/-- An allocation frees nothing. -/
theorem sizeAt?_of_allocating {source : Option Owner} {r : AllocationRequest}
    {got : Option Buffer} {b : Backends} {handle size : UInt32}
    (h : Performs (s.allocating source r) events (.ok (got, b)))
    (hsize : s.system.backends.sizeAt? handle = some size) : b.sizeAt? handle = some size := by
  obtain ⟨owner, r', hbackend⟩ := allocating_backend h
  rcases Backends.sizeAt?_allocate hbackend with ⟨hsame, -⟩ | ⟨index, -, hfree, -, -, hupdate⟩
  · rw [hsame, hsize]
  · have hne : handle ≠ Emulator.SlotTable.handleOf index := by
      rintro rfl
      rw [hfree] at hsize
      cases hsize
    rw [hupdate, Function.update_of_ne hne, hsize]

/-- A buffer that is put under another name leaves a buffer where it is, and one that is put under the
same name gives it back. -/
theorem keep_keeps {other : String} {b : Buffer} (hsome : s.buffers.get? name = some buffer)
    (h : Transcript (s.keep other b) more s') :
    s'.buffers.get? name = some buffer ∨
      GivenUp { s with buffers := s.buffers.put other b } buffer more s' := by
  have hput : name ≠ other → (s.buffers.put other b).get? name = some buffer :=
    fun hname => (Directory.get?_put_of_ne _ b hname).trans hsome
  rcases keep_givenUp h with ⟨hnone, -, rfl⟩ | ⟨previous, hprevious, hgiven⟩
  · refine .inl (hput ?_)
    rintro rfl
    rw [hnone] at hsome
    cases hsome
  by_cases hname : name = other
  · subst hname
    have hsame := hsome.symm.trans hprevious
    cases hsame
    exact .inr hgiven
  · obtain ⟨_, _, _, _, -, -, -, halike⟩ := hgiven.ended
    rw [halike.buffers]
    exact .inl (hput hname)

theorem allocate_keeps_buffer {other : String} {source : Option Owner} {r : AllocationRequest}
    (k : Emulator.AllPlaced s) (hsome : s.buffers.get? name = some buffer)
    (hcalm : Calm (callsTo kind before))
    (h : Transcript (s.perform (.allocate other source r)) more s') :
    s'.buffers.get? name = some buffer ∨ GivenBack s kind buffer before more := by
  obtain ⟨first, rest, outcome, rfl, hattempt, hafter⟩ := allocate_keeps h
  match outcome with
  | .error fault =>
    obtain ⟨-, rfl⟩ := hafter
    exact .inl hsome
  | .ok (none, backends) =>
    obtain ⟨-, rfl⟩ := hafter
    exact .inl hsome
  | .ok (some b, backends) =>
    have hsome' : (s.withBackends backends).buffers.get? name = some buffer := hsome
    refine (keep_keeps hsome' hafter).imp_right fun hgiven => ?_
    have hstill : buffer.owner = .emulator → backends.sizeAt? buffer.handle = some buffer.size :=
      fun howner => sizeAt?_of_allocating hattempt (size_of_placed k hsome howner)
    have hcalm' : Calm (callsTo kind (before ++ first)) := by
      rw [callsTo_append]
      exact hcalm.append (calm_allocating hattempt)
    exact hgiven.givenBack (.allocated .start hattempt) hstill hcalm'

/-- A verb leaves a buffer under its name, or it gives the buffer back. -/
theorem verb_keeps {verb : Verb} (k : Emulator.AllPlaced s)
    (hsome : s.buffers.get? name = some buffer) (hcalm : Calm (callsTo kind before))
    (horderly : verb.Orderly) (h : Transcript (s.perform verb) more s') :
    s'.buffers.get? name = some buffer ∨ GivenBack s kind buffer before more := by
  cases verb with
  | allocate other source r => exact allocate_keeps_buffer k hsome hcalm h
  | release other => exact givenUpByName_keeps k hsome hcalm (release_givenUp h)
  | drop other => exact givenUpByName_keeps k hsome hcalm (drop_givenUp h)
  | forget | surrender | deallocate => exact horderly.elim
  | write other offset bytes => exact .inl ((write_heldAlike h).buffers ▸ hsome)
  | execute other path d => exact .inl ((execute_heldAlike h).buffers ▸ hsome)
  | wait other => exact .inl ((wait_heldAlike h).buffers ▸ hsome)
  | notify id =>
    obtain ⟨-, rfl⟩ := Dialog.transcript_done.mp h
    exact .inl hsome
  | detach => exact .inl ((detach_alike h).1.buffers ▸ hsome)

/-- Nobody who is permitted what he does gives back a handle that somebody else holds. -/
theorem ownHandles_of_permitted {verb : Verb} (h : Permitted s verb) :
    Emulator.OwnHandles s verb := by
  cases verb with
  | deallocate => exact h.1.elim
  | _ => trivial

/-- A buffer that a session once held is still held, or it has been given back in time. -/
theorem run_keeps (k : InPhase buffer.owner.kind before s) (hplaced : Emulator.AllPlaced s)
    (hsome : s.buffers.get? name = some buffer) (run : Run Permitted s more s') :
    s'.buffers.get? name = some buffer ∨ GivenBack s buffer.owner.kind buffer before more := by
  induction run with
  | start => exact .inl hsome
  | @step events last t t' verb run hverb hstep ih =>
    rcases ih with hheld | hback
    · have hphase := k.run run
      -- a backend that one of its buffers holds is up, so nothing of its end was asked
      have hcalm : Calm (callsTo buffer.owner.kind (before ++ events)) := by
        rcases hphase with hup | hdown
        · exact hup.calm
        · exact absurd rfl (hdown.owner_ne hheld)
      have hstill : Emulator.AllPlaced t := by
        refine run.induct (P := fun _ t => Emulator.AllPlaced t) hplaced ?_
        exact fun _ u verb _ u' k hverb h => k.verb (ownHandles_of_permitted hverb) h
      exact (verb_keeps hstill hheld hcalm hverb.1 hstep).imp_right (GivenBack.preceded run)
    · exact .inr (hback.later last)

end Keeping

/-! ## Closing -/

theorem stopUnheld_attached (h : Transcript (s.stopUnheld kind) events s') :
    s'.attached = s.attached := by
  rcases stopUnheld_cases h with ⟨-, rfl, -⟩ | ⟨-, -, -, -, rfl⟩ <;> rfl

theorem detach_attached (h : Transcript s.detach events s') : s'.attached = false := by
  refine Dialog.transcript_foldlM (P := fun _ t => t.attached = false) [] ?_ rfl h
  intro _ t kind more u hdetached hstop
  exact (stopUnheld_attached hstop).trans hdetached

/-- Dropping buffers one after the other. -/
theorem dropAll_run {names : List String}
    (h : Transcript (names.foldlM (fun s name => s.perform (.drop name)) s) events s') :
    Run Permitted s events s' ∧ ∀ name, s'.buffers.get? name =
      if name ∈ names then none else s.buffers.get? name := by
  induction names generalizing s events with
  | nil =>
    obtain ⟨rfl, rfl⟩ := Dialog.transcript_done.mp h
    exact ⟨.start, by simp⟩
  | cons first rest ih =>
    rw [List.foldlM_cons] at h
    obtain ⟨dropping, last, u, rfl, hfirst, hrest⟩ := Dialog.transcript_bind.mp h
    obtain ⟨hrun, hbuffers⟩ := ih hrest
    refine ⟨(Run.single ⟨trivial, nofun⟩ hfirst).trans hrun, fun name => ?_⟩
    have hdropped : u.buffers.get? name =
        if name = first then none else s.buffers.get? name := by
      rcases drop_ended hfirst with ⟨hnone, -, rfl⟩ | ⟨b, -, _, _, _, _, -, -, -, halike⟩
      · split
        · next heq => rw [heq, hnone]
        · rfl
      · rw [halike.buffers]
        exact Directory.get?_erase _ first name
    rw [hbuffers name, hdropped]
    by_cases hrest : name ∈ rest <;> by_cases hfirst : name = first <;> simp [hrest, hfirst]

/-- Closing a session is a run that ends without a system and without buffers. -/
theorem close_run (h : Transcript s.close events s') :
    Run Permitted { s with handles := {} } events s' ∧ s'.attached = false ∧
      ∀ name, s'.buffers.get? name = none := by
  obtain ⟨dropping, last, u, rfl, hdrops, hlast⟩ := Dialog.transcript_bind.mp h
  obtain ⟨hrun, hbuffers⟩ := dropAll_run hdrops
  have hnone : ∀ name, u.buffers.get? name = none := by
    intro name
    rw [hbuffers name]
    split
    · rfl
    · next hmem => exact Directory.get?_eq_none hmem
  split at hlast
  · next hattached =>
    have hpermitted : Permitted u .detach := ⟨trivial, fun _ => hattached⟩
    refine ⟨hrun.trans (Run.single hpermitted hlast), detach_attached hlast, ?_⟩
    rwa [(detach_alike hlast).1.buffers]
  · next hattached =>
    obtain ⟨rfl, rfl⟩ := Dialog.transcript_done.mp hlast
    rw [List.append_nil]
    exact ⟨hrun, by simpa using hattached, hnone⟩

/-- A session goes on in any way and is closed in the end. -/
def Finishes (s : Session) (events : List (Exchange Hardware)) : Prop :=
  ∃ used closing t t', events = used ++ closing ∧ Run Permitted s used t ∧
    Transcript t.close closing t'

/-- A backend that was up and held when a session started. -/
theorem up_start {system : System} (h : system.backends.has kind = true) :
    Up kind [] { system } where
  tidy := ⟨List.nodup_nil, rfl⟩
  has := h
  running := List.not_mem_nil
  calm := calm_nil
  held := holds_of_attached rfl

/-- The teardown of a backend is the last that is asked of it, and was not asked before. Every buffer of
the backend that was held between some exchanges and the rest has been given back by then. -/
structure TornDown (kind : BackendKind) (before after : List (Exchange Hardware)) (s : Session) :
    Prop where
  last : ∃ earlier, callsTo kind (before ++ after) = earlier ++ teardown kind ∧ Calm earlier
  givenBack : ∀ name buffer, s.buffers.get? name = some buffer → buffer.owner.kind = kind →
    GivenBack s kind buffer before after

/-- Calm requests tear nothing down, so the teardown is asked for once. -/
theorem TornDown.once {before after : List (Exchange Hardware)} (h : TornDown kind before after s) :
    ∃ earlier, callsTo kind (before ++ after) = earlier ++ teardown kind ∧
      ∀ q ∈ teardown kind, q ∉ earlier := by
  obtain ⟨earlier, hlast, hcalm⟩ := h.last
  refine ⟨earlier, hlast, ?_⟩
  intro q hq hearlier
  exact hcalm q hearlier (startsOrStops_of_teardown hq)

/-- Whatever a session does, its backends are torn down in the end. -/
theorem tornDown_of_finishes {system : System} {before after : List (Exchange Hardware)}
    (hup : system.backends.has kind = true) (life : Run Permitted { system } before s)
    (finish : s.Finishes after) : TornDown kind before after s := by
  obtain ⟨used, closing, u, u', rfl, huse, hclose⟩ := finish
  obtain ⟨hclosing, hdetached, hempty⟩ := close_run hclose
  have hlife : InPhase kind before s := by
    have hrun := InPhase.run (.inl (up_start hup)) life
    rwa [List.nil_append] at hrun
  have hclosed : InPhase kind (before ++ used) { u with handles := {} } := by
    -- the handles hold nothing
    have halike : HeldAlike u { u with handles := {} } := ⟨rfl, rfl, rfl, rfl, rfl⟩
    have hquiet : ∀ other, ∀ e ∈ ([] : List (Exchange Hardware)), Uses other e.request :=
      fun _ => List.forall_mem_nil _
    have hrun := InPhase.used (hlife.run huse) halike hquiet
    rwa [List.append_nil] at hrun
  constructor
  · rcases hclosed.run hclosing with hup | hdown
    · have hheld := (holds_iff hup.tidy).mp hup.held
      rw [hdetached] at hheld
      rcases hheld with hattached | ⟨name, buffer, hsome, -⟩
      · cases hattached
      · rw [hempty name] at hsome
        cases hsome
    · rw [← List.append_assoc]
      exact hdown.tornDown
  · rintro name buffer hsome rfl
    have hplaced : ∀ {events t}, Run Permitted { system } events t → Emulator.AllPlaced t :=
      fun run => Emulator.allPlaced_of_run (fun _ => rfl) (run.imp fun _ _ => ownHandles_of_permitted)
    rcases run_keeps hlife (hplaced life) hsome huse with hkept | hback
    · have hplaced' : Emulator.AllPlaced u := hplaced (life.trans huse)
      rcases run_keeps hclosed hplaced' hkept hclosing with hstill | hback
      · rw [hempty name] at hstill
        cases hstill
      · exact hback.closing huse
    · exact hback.later closing

theorem drop_plain (s : Session) (name : String) : (s.drop name).Plain fun _ => True := by
  unfold drop
  split
  · trivial
  · next buffer _ =>
    refine Dialog.Plain.bind ?_ fun _ => trivial
    refine (endBuffer_plain _ buffer).bind fun ended => ?_
    dsimp only
    split
    · exact (plain_ask trivial).bind fun _ => trivial
    · trivial

/-- Closing a session ends, whatever the hardware answers. -/
theorem close_plain (s : Session) : s.close.Plain fun _ => True := by
  refine (Dialog.Plain.foldlM ?_ s.buffers.names _).bind fun t => ?_
  · exact fun t name => (drop_plain t name).bind fun _ => trivial
  · split
    · exact Dialog.Plain.foldlM stopUnheld_plain t.detachOrder _
    · trivial

end Session

end VideoCore

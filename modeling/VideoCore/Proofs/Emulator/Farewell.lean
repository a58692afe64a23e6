import VideoCore.Proofs.Emulator.Ledger
import VideoCore.Proofs.Emulator.Windows
import VideoCore.Proofs.Session.Teardown

/-!
# What the emulator reports in the end

The emulator is given up by whoever lets go of it last, and then it reports every buffer that it still
has. Such a buffer was forgotten by its user. But not every forgotten buffer is left: its handle may
have been given back since by somebody who knew it, and its slot may have gone to another buffer, which
may have been forgotten as well. And a forgotten buffer still holds the emulator. As long as nobody gives
up what it holds, the emulator stays up, after the end of the session as well, and reports nothing.

What is left is told by the ledger of a session's user. While the emulator is held it reports nothing
of the kind, and its table and the ledger agree (`Going`). Once it is given up the report has been made,
it says what the ledger says, and nothing of it is said again (`Gone`). Every verb leads from phase to
phase (`Phase.verb`).
-/

namespace VideoCore.Emulator

open Hardware
open Dialog (Transcript)
open Session (Verb HeldAlike GivenUp GivenUpByName)

variable {events more : List (Exchange Hardware)} {s s' t : Session} {system : System}
  {postings : List Posting}

/-! ## What a user writes down -/

/-- What a user does, with the buffer that he is given. -/
def tell (s : Session) : Verb → Access (Option Buffer × Session)
  | .allocate name source r => do
    let (answer, s) ← s.allocate name source r
    return (answer.toOption.join, s)
  | verb => do return (none, ← s.perform verb)

/-- What is told is what the session does. -/
theorem perform_eq_tell (s : Session) (verb : Verb) :
    s.perform verb = (tell s verb).bind fun told => pure told.2 := by
  cases verb with
  | allocate name source r =>
    show _ = Dialog.bind (Dialog.bind _ _) _
    rw [Dialog.bind_assoc]
    rfl
  | _ =>
    show _ = Dialog.bind (Dialog.bind _ _) _
    rw [Dialog.bind_assoc]
    exact (Dialog.bind_pure _).symm

theorem perform_of_tell {verb : Verb} {given : Option Buffer}
    (h : Transcript (tell s verb) events (given, s')) : Transcript (s.perform verb) events s' := by
  rw [perform_eq_tell]
  exact Dialog.transcript_map.mpr ⟨_, h, rfl⟩

/-- What is written down when the buffer of a name ends. -/
def ending (s : Session) (name : String) : List Posting :=
  (s.buffers.get? name).toList.flatMap fun buffer => (Posting.returned buffer.handle).about buffer

/-- What is written down after a verb that may have given out a buffer. A buffer that gets its name from
another ends the other. -/
def written (s : Session) (given : Option Buffer) : Verb → List Posting
  | .allocate name _ r => given.toList.flatMap fun buffer =>
      (Posting.given name buffer r.size).about buffer ++ ending s name
  | .release name | .drop name => ending s name
  | .forget name => (s.buffers.get? name).toList.flatMap fun buffer =>
      (Posting.forgotten name).about buffer
  | .surrender owner => if owner = .emulator ∧ owner ∈ s.kept then [.surrendered] else []
  | .deallocate buffer => (Posting.returned buffer.handle).about buffer
  | .write _ _ _ | .execute _ _ _ | .wait _ | .notify _ | .detach => []

theorem written_given (s : Session) (name : String) (source : Option Owner) (r : AllocationRequest)
    (buffer : Buffer) : written s (some buffer) (.allocate name source r) =
      (Posting.given name buffer r.size).about buffer ++ ending s name :=
  List.append_nil _

theorem written_forget {name : String} {buffer : Buffer} (h : s.buffers.get? name = some buffer)
    (given : Option Buffer) :
    written s given (.forget name) = (Posting.forgotten name).about buffer := by
  rw [written, h]
  exact List.append_nil _

theorem written_forget_of_none {name : String} (h : s.buffers.get? name = none)
    (given : Option Buffer) : written s given (.forget name) = [] := by
  rw [written, h]
  rfl

/-- The calls that are made on a system, which must be held for that. -/
def CallsSystem : Verb → Prop
  | .deallocate _ => True
  | verb => verb.NeedsSystem

/-- Any number of verbs in any order on a new session, with every reply that the hardware may give, and
what the user wrote down on the way. -/
inductive History (system : System) :
    List (Exchange Hardware) → Session → List Posting → Prop where
  | start : History system [] { system } []
  | step {events more : List (Exchange Hardware)} {s s' : Session} {verb : Verb}
      {given : Option Buffer} {postings : List Posting} (history : History system events s postings)
      (feasible : CallsSystem verb → s.attached = true)
      (told : Transcript (tell s verb) more (given, s')) :
      History system (events ++ more) s' (postings ++ written s given verb)

/-- A history after which the session is closed. That ends every buffer that is still held. -/
inductive Life (system : System) : List (Exchange Hardware) → List Posting → Prop where
  | closed {events closing : List (Exchange Hardware)} {s s' : Session} {postings : List Posting}
      (history : History system events s postings) (close : Transcript s.close closing s') :
      Life system (events ++ closing) (postings ++ s.buffers.names.flatMap (ending s))

/-! ## What is reported -/

/-- What is asked when the emulator is given up, and at no other time. -/
def OfFarewell : Request → Prop
  | .retire kind => kind = .emulator
  | .report diagnostic => diagnostic.OfLeftover
  | _ => False

/-- Exchanges in which the emulator is not given up. -/
def Quiet (events : List (Exchange Hardware)) : Prop := ∀ e ∈ events, ¬ OfFarewell e.request

/-- The report of a buffer that was never released: its handle, the size that was asked for, and where
it is on the bus. -/
def Entry.report (entry : Entry) : Request :=
  .report (.neverReleased entry.buffer.handle.toNat entry.requested entry.buffer.address)

/-- The emulator is given up once, after it has reported some buffers, each once and in that order, and
nothing but these. -/
def Farewell (left : List Entry) (requests : List Request) : Prop :=
  ∃ before after, requests = before ++ (left.map Entry.report ++ [.retire .emulator]) ++ after ∧
    ∀ q ∈ before ++ after, ¬ OfFarewell q

@[simp] theorem quiet_nil : Quiet [] := List.forall_mem_nil _

theorem Quiet.append (h : Quiet events) (k : Quiet more) : Quiet (events ++ more) :=
  List.forall_mem_append.mpr ⟨h, k⟩

theorem Farewell.later {left : List Entry} (h : Farewell left (events.map (·.request)))
    (k : Quiet more) : Farewell left ((events ++ more).map (·.request)) := by
  obtain ⟨before, after, hsplit, hquiet⟩ := h
  refine ⟨before, after ++ more.map (·.request), ?_, ?_⟩
  · rw [List.map_append, hsplit, List.append_assoc]
  · rw [← List.append_assoc]
    refine List.forall_mem_append.mpr ⟨hquiet, ?_⟩
    exact List.forall_mem_map.mpr k

/-- A backend that works is not given up. -/
theorem not_ofFarewell_of_works {kind : BackendKind} {q : Request} (h : Works kind q) :
    ¬ OfFarewell q := by
  intro hq
  cases q with
  | retire => exact h.inUse trivial
  | report diagnostic =>
    refine h.noFarewell diagnostic rfl ?_
    cases diagnostic with
    | neverReleased => trivial
    | _ => exact hq.elim
  | _ => exact hq.elim

theorem quiet_of_works {kind : BackendKind} (h : ∀ e ∈ events, Works kind e.request) :
    Quiet events :=
  fun e he => not_ofFarewell_of_works (h e he)

/-- What is reported of the end of a buffer. -/
theorem quiet_of_reports
    (h : ∀ e ∈ events, ∃ diagnostic, e.request = .report diagnostic ∧ ¬ diagnostic.OfStop) :
    Quiet events := by
  intro e he
  obtain ⟨diagnostic, hrequest, hstop⟩ := h e he
  rw [hrequest]
  exact not_ofFarewell_of_works (Works.ofReport hstop : Works .emulator _)

/-- Another backend that stops says nothing of the emulator. -/
theorem quiet_stopUnheld {kind : BackendKind} (hne : kind ≠ .emulator)
    (h : Transcript (s.stopUnheld kind) events s') : Quiet events := by
  rcases Session.stopUnheld_cases h with ⟨rfl, -, -⟩ | ⟨-, -, -, hstop, -⟩
  · exact quiet_nil
  · have hplain : (s.system.backends.stop kind).Plain fun q => ¬ OfFarewell q := by
      refine Backends.stop_plain_sorted _ (fun _ => id) ?_ hne
      intro diagnostic _ hleftover hq
      exact hne (hleftover hq)
    exact hplain.of_transcript hstop

/-- Reports that are made one after the other. -/
theorem requests_of_reports {α : Type} {f : α → Diagnostic} {list : List α}
    (h : Transcript (list.forM fun a => report (f a)) events ()) :
    events.map (·.request) = list.map fun a => Request.report (f a) := by
  induction list generalizing events with
  | nil =>
    obtain ⟨rfl, -⟩ := Dialog.transcript_done.mp h
    rfl
  | cons first rest ih =>
    obtain ⟨reporting, last, _, rfl, hfirst, hrest⟩ := Dialog.transcript_bind.mp h
    rw [transcript_request.mp hfirst, List.map_append, ih hrest]
    rfl

theorem report_of_slot {index : Nat} (h : index < slotCount) (slot : Slot) :
    Entry.report ⟨bufferAt index slot.size, slot.size, none⟩ =
      .report (.neverReleased (index + 1) slot.size (slotAddress index)) := by
  rw [Entry.report, show (bufferAt index slot.size).handle = SlotTable.handleOf index from rfl,
    SlotTable.toNat_handleOf h]
  rfl

/-- The emulator that is given up reports all that it has. -/
theorem requests_of_stop {e : Emulator} (h : Transcript e.stop events ()) :
    events.map (·.request) = e.entries.map Entry.report ++ [.retire .emulator] := by
  obtain ⟨reports, last, _, rfl, hreports, hlast⟩ := Dialog.transcript_bind.mp h
  have hall : reports.map (·.request) = e.slots.live.map fun held =>
      Request.report (.neverReleased (held.1 + 1) held.2.size (slotAddress held.1)) :=
    requests_of_reports hreports
  rw [List.map_append, hall, transcript_request.mp hlast, entries, List.map_map]
  congr 1
  refine List.map_congr_left fun held hheld => ?_
  have hindex := SlotTable.lt_of_get? (SlotTable.mem_live.mp hheld)
  exact (report_of_slot hindex held.2).symm

/-! ## Phases -/

/-- The emulator is up, whether or not somebody holds it, and has reported nothing of the kind. Its table
is what the ledger says, but for a buffer that is about to give back its handle. -/
structure Going (events : List (Exchange Hardware)) (leaving : Option UInt32) (l : List Entry)
    (s : Session) : Prop where
  names : s.buffers.names.Nodup
  has : s.system.backends.has .emulator = true
  running : .emulator ∉ s.stopped
  quiet : Quiet events
  books : Books s.buffers s.system.backends.sizeAt? leaving l

/-- The emulator is up and held. -/
structure Staying (events : List (Exchange Hardware)) (l : List Entry) (s : Session) : Prop
    extends Going events none l s where
  held : s.holds .emulator = true

/-- The emulator has been given up. Nothing in the ledger has a name any more, and all that is in it has
been reported. -/
structure Gone (events : List (Exchange Hardware)) (l : List Entry) (s : Session) : Prop where
  names : s.buffers.names.Nodup
  stopped : .emulator ∈ s.stopped
  unheld : s.holds .emulator = false
  forgotten : ∀ entry ∈ l, entry.holder = none
  farewell : Farewell (inSlotOrder l) (events.map (·.request))

/-- The emulator is in one of its two phases. -/
def Phase (events : List (Exchange Hardware)) (l : List Entry) (s : Session) : Prop :=
  Staying events l s ∨ Gone events l s

theorem Phase.names {l : List Entry} (k : Phase events l s) : s.buffers.names.Nodup :=
  k.elim (·.names) (·.names)

section Phases

variable {leaving : Option UInt32} {l : List Entry} {kind : BackendKind} {buffer : Buffer}
  {name : String}

/-- No name stands for a buffer of the emulator once nobody holds it. -/
theorem emulated?_of_unheld (names : s.buffers.names.Nodup) (h : s.holds .emulator = false)
    (name : String) : emulated? s.buffers name = none := by
  rw [Option.eq_none_iff_forall_ne_some]
  intro buffer hsome
  obtain ⟨hget, howner⟩ := emulated?_eq_some.mp hsome
  exact Session.owner_ne_of_unheld names h hget (congrArg Owner.kind howner)

/-- The emulator that is given the chance to stop does so if nobody holds it, and reports what it has. -/
theorem Going.stopUnheld (k : Going events none l s)
    (h : Transcript (s.stopUnheld .emulator) more s') : Phase (events ++ more) l s' := by
  rcases Session.stopUnheld_cases h with ⟨rfl, rfl, hheld⟩ | ⟨hunheld, -, hhas, hstop, rfl⟩
  · rw [List.append_nil]
    exact .inl ⟨k, hheld k.has k.running⟩
  obtain ⟨e, he⟩ := Option.isSome_iff_exists.mp hhas
  have hbooks : Books s.buffers e.size? none l := Backends.sizeAt?_emulator he ▸ k.books
  have hforgotten := hbooks.all_forgotten (emulated?_of_unheld k.names hunheld)
  simp only [Backends.stop, he] at hstop
  refine .inr ⟨k.names, List.mem_cons_self, hunheld, hforgotten, ?_⟩
  refine ⟨events.map (·.request), [], ?_, ?_⟩
  · rw [List.map_append, requests_of_stop hstop, hbooks.entries_eq hforgotten, List.append_nil]
  · rw [List.append_nil]
    exact List.forall_mem_map.mpr k.quiet

/-- Another backend that stops is of no concern. -/
theorem Going.stopUnheld_other (k : Going events leaving l s) (hne : kind ≠ .emulator)
    (h : Transcript (s.stopUnheld kind) more s') : Going (events ++ more) leaving l s' := by
  obtain ⟨hbuffers, -, -, hsystem, hstopped⟩ := Session.stopUnheld_other hne.symm h
  constructor
  · exact hbuffers ▸ k.names
  · rw [hsystem, k.has]
  · rw [hstopped]
    exact k.running
  · exact k.quiet.append (quiet_stopUnheld hne h)
  · rw [hbuffers, hsystem]
    exact k.books

theorem Staying.stopUnheld_other (k : Staying events l s) (hne : kind ≠ .emulator)
    (h : Transcript (s.stopUnheld kind) more s') : Staying (events ++ more) l s' where
  toGoing := k.toGoing.stopUnheld_other hne h
  held := by rw [Session.holds_stopUnheld hne h, k.held]

/-- An emulator that has been given up is not given up again. -/
theorem Gone.stopUnheld (k : Gone events l s) (h : Transcript (s.stopUnheld kind) more s') :
    Gone (events ++ more) l s' := by
  by_cases hne : kind = .emulator
  · subst hne
    rcases Session.stopUnheld_cases h with ⟨rfl, rfl, -⟩ | ⟨-, hrunning, -⟩
    · rwa [List.append_nil]
    · exact absurd k.stopped hrunning
  · obtain ⟨hbuffers, -, -, -, hstopped⟩ := Session.stopUnheld_other (Ne.symm hne) h
    constructor
    · exact hbuffers ▸ k.names
    · rw [hstopped]
      exact k.stopped
    · rw [Session.holds_stopUnheld hne h, k.unheld]
    · exact k.forgotten
    · exact k.farewell.later (quiet_stopUnheld hne h)

theorem Phase.stopUnheld (k : Phase events l s) (h : Transcript (s.stopUnheld kind) more s') :
    Phase (events ++ more) l s' := by
  rcases k with k | k
  · by_cases hne : kind = .emulator
    · subst hne
      exact k.toGoing.stopUnheld h
    · exact .inl (k.stopUnheld_other hne h)
  · exact .inr (k.stopUnheld h)

/-! ## Uses -/

theorem Going.used (k : Going events leaving l s) (halike : HeldAlike s s')
    (hsizes : s'.system.backends.sizeAt? = s.system.backends.sizeAt?) (hquiet : Quiet more) :
    Going (events ++ more) leaving l s' where
  names := halike.buffers ▸ k.names
  has := by rw [halike.has, k.has]
  running := by
    rw [halike.stopped]
    exact k.running
  quiet := k.quiet.append hquiet
  books := by
    rw [halike.buffers, hsizes]
    exact k.books

theorem Staying.used (k : Staying events l s) (halike : HeldAlike s s')
    (hsizes : s'.system.backends.sizeAt? = s.system.backends.sizeAt?) (hquiet : Quiet more) :
    Staying (events ++ more) l s' where
  toGoing := k.toGoing.used halike hsizes hquiet
  held := by rw [halike.holds, k.held]

theorem Gone.used (k : Gone events l s) (halike : HeldAlike s s') (hquiet : Quiet more) :
    Gone (events ++ more) l s' where
  names := halike.buffers ▸ k.names
  stopped := by
    rw [halike.stopped]
    exact k.stopped
  unheld := by rw [halike.holds, k.unheld]
  forgotten := k.forgotten
  farewell := k.farewell.later hquiet

/-- A use of the backends that leaves what is held and what there is as it is. -/
theorem Phase.used (k : Phase events l s) (halike : HeldAlike s s')
    (hsizes : s'.system.backends.sizeAt? = s.system.backends.sizeAt?) (hquiet : Quiet more) :
    Phase (events ++ more) l s' :=
  k.imp (·.used halike hsizes hquiet) (·.used halike hquiet)

/-! ## Letting go of a buffer -/

theorem ending_of_get? (h : s.buffers.get? name = some buffer) :
    ending s name = (Posting.returned buffer.handle).about buffer := by
  rw [ending, h]
  exact List.append_nil _

theorem ending_of_none (h : s.buffers.get? name = none) : ending s name = [] := by
  rw [ending, h]
  rfl

/-- The return of a handle, which is that of the buffer that is leaving, if one is. -/
theorem Going.returned {backends : Backends} (k : Going events leaving l t)
    (hleaving : ∀ handle, leaving = some handle →
      buffer.owner = .emulator ∧ buffer.handle = handle)
    (hhas : backends.has = t.system.backends.has)
    (hsizes : backends.sizeAt? = if buffer.owner = .emulator then
      Function.update t.system.backends.sizeAt? buffer.handle none
      else t.system.backends.sizeAt?)
    (hquiet : Quiet more) :
    Going (events ++ more) none
      (((Posting.returned buffer.handle).about buffer).foldl Posting.enter l)
      (t.withBackends backends) where
  names := k.names
  has := by
    rw [← k.has, ← hhas]
    rfl
  running := k.running
  quiet := k.quiet.append hquiet
  books := by
    show Books t.buffers backends.sizeAt? none _
    rw [hsizes]
    exact k.books.ended hleaving

/-- The end of a buffer that is no longer listed. -/
theorem Going.givenUp (k : Going events leaving l t)
    (hleaving : ∀ handle, leaving = some handle →
      buffer.owner = .emulator ∧ buffer.handle = handle)
    (hheld : buffer.owner ≠ .emulator → t.holds .emulator = true)
    (h : GivenUp t buffer more s') :
    Phase (events ++ more)
      (((Posting.returned buffer.handle).about buffer).foldl Posting.enter l) s' := by
  obtain ⟨back, stopping, reports, result, backends, rfl, hrelease, hstop, hreports⟩ := h
  have hhas := Backends.has_release hrelease
  have hworks := (Backends.release_works _ buffer).of_transcript hrelease
  have hback := k.returned hleaving hhas (Backends.sizeAt?_release hrelease) (quiet_of_works hworks)
  rw [← List.append_assoc, ← List.append_assoc]
  refine Phase.used ?_ (.refl s') rfl (quiet_of_reports hreports)
  -- the end of a buffer gives its own backend the chance to stop, and no other
  by_cases howner : buffer.owner = .emulator
  · rw [howner] at hstop
    exact hback.stopUnheld hstop
  · have halike : HeldAlike t (t.withBackends backends) := Session.heldAlike_withBackends hhas
    have hstaying : Staying _ _ (t.withBackends backends) :=
      ⟨hback, by rw [halike.holds, hheld howner]⟩
    exact .inl (hstaying.stopUnheld_other (Owner.kind_ne howner) hstop)

theorem Gone.givenUp (k : Gone events l t) (h : GivenUp t buffer more s') :
    Gone (events ++ more) l s' := by
  obtain ⟨back, stopping, reports, result, backends, rfl, hrelease, hstop, hreports⟩ := h
  have hworks := (Backends.release_works _ buffer).of_transcript hrelease
  have halike : HeldAlike t (t.withBackends backends) :=
    Session.heldAlike_withBackends (Backends.has_release hrelease)
  have hback := k.used halike (quiet_of_works hworks)
  rw [← List.append_assoc, ← List.append_assoc]
  exact (hback.stopUnheld hstop).used (.refl s') (quiet_of_reports hreports)

/-- No buffer of the emulator is held once it has been given up. -/
theorem Gone.owner_ne (k : Gone events l s) (hsome : s.buffers.get? name = some buffer) :
    buffer.owner ≠ .emulator :=
  fun howner => Session.owner_ne_of_unheld k.names k.unheld hsome (congrArg Owner.kind howner)

/-- A name that is struck off the list. -/
theorem Going.struckOff (k : Going events none l s) (name : String) :
    Going events (leavingAt s.buffers name) l { s with buffers := s.buffers.erase name } :=
  ⟨Directory.nodup_erase k.names name, k.has, k.running, k.quiet,
    k.books.renamed fun _ hne => Directory.get?_erase_of_ne _ hne⟩

theorem Gone.struckOff (k : Gone events l s) (name : String) :
    Gone events l { s with buffers := s.buffers.erase name } :=
  ⟨Directory.nodup_erase k.names name, k.stopped, Session.unheld_erase k.names name k.unheld,
    k.forgotten, k.farewell⟩

theorem Phase.givenUpByName (k : Phase events l s) (h : GivenUpByName s name more s') :
    Phase (events ++ more) ((ending s name).foldl Posting.enter l) s' := by
  rcases h with ⟨hnone, rfl, rfl⟩ | ⟨buffer, hsome, hgiven⟩
  · rwa [ending_of_none hnone, List.append_nil]
  rw [ending_of_get? hsome]
  rcases k with k | k
  · refine (k.struckOff name).givenUp (fun _ => leavingAt_eq_some hsome) ?_ hgiven
    exact fun hother => Session.holds_erase k.names hsome (Owner.kind_ne hother) k.held
  · rw [about_other (k.owner_ne hsome)]
    exact .inr ((k.struckOff name).givenUp hgiven)

/-! ## Verbs -/

/-- What is held is up. -/
theorem Phase.staying_of_held (k : Phase events l s) (h : s.holds .emulator = true) :
    Staying events l s := by
  rcases k with k | k
  · exact k
  · have hunheld := k.unheld
    rw [h] at hunheld
    cases hunheld

theorem Phase.staying (k : Phase events l s) (h : s.attached = true) : Staying events l s :=
  k.staying_of_held (Session.holds_of_attached h)

/-- What nobody holds has been given up. -/
theorem Phase.gone (k : Phase events l s) (h : s.holds .emulator = false) : Gone events l s := by
  rcases k with k | k
  · have hheld := k.held
    rw [h] at hheld
    cases hheld
  · exact k

/-- A new buffer that has got its name, before a buffer that had the name has ended. -/
theorem Going.listed {source : Option Owner} {r : AllocationRequest} {backends : Backends}
    (k : Going events none l s) (name : String)
    (h : Performs (s.allocating source r) more (.ok (some buffer, backends))) (hquiet : Quiet more) :
    Going (events ++ more) (leavingAt (s.withBackends backends).buffers name)
      (((Posting.given name buffer r.size).about buffer).foldl Posting.enter l)
      { s.withBackends backends with
        buffers := (s.withBackends backends).buffers.put name buffer } := by
  rcases Session.allocating_sized h with ⟨-, fault, hfault⟩ | ⟨owner, r', hsize, hbackend⟩
  · cases hfault
  have hrenamed : Books (s.buffers.put name buffer) s.system.backends.sizeAt?
      (leavingAt s.buffers name) l :=
    k.books.renamed fun _ hne => Directory.get?_put_of_ne _ buffer hne
  refine ⟨Directory.nodup_put k.names name buffer, ?_, k.running, k.quiet.append hquiet, ?_⟩
  · rw [← k.has, ← Backends.has_allocate hbackend]
    rfl
  show Books (s.buffers.put name buffer) backends.sizeAt? _ _
  rcases Backends.sizeAt?_allocate hbackend with
    ⟨hsame, hother⟩ | ⟨index, hindex, hfree, hfits, hbuffer, hupdate⟩
  · rw [about_other (hother buffer rfl), hsame]
    exact hrenamed
  · cases hbuffer
    rw [about_emulated rfl, hupdate, ← hsize]
    exact hrenamed.given hindex hfits hfree (Directory.get?_put_self ..)

theorem quiet_allocating {source : Option Owner} {r : AllocationRequest}
    {result : Except Fault (Option Buffer × Backends)}
    (h : Performs (s.allocating source r) events result) : Quiet events := by
  rcases Session.allocating_ways h with ⟨rfl, -⟩ | ⟨owner, r', hbackend⟩
  · exact quiet_nil
  · exact quiet_of_works ((Backends.allocate_works _ owner r').run.of_transcript hbackend)

/-- A buffer that had the name of a new one ends. -/
theorem Going.keep (k : Going events (leavingAt t.buffers name) l
    { t with buffers := t.buffers.put name buffer }) (hattached : t.attached = true)
    (h : Transcript (t.keep name buffer) more s') :
    Phase (events ++ more) ((ending t name).foldl Posting.enter l) s' := by
  rcases Session.keep_givenUp h with ⟨hnone, rfl, rfl⟩ | ⟨previous, hsome, hgiven⟩
  · have hleaving : leavingAt t.buffers name = none := by
      refine leavingAt_eq_none fun previous hsome => ?_
      rw [hnone] at hsome
      cases hsome
    rw [hleaving] at k
    rw [ending_of_none hnone, List.append_nil]
    exact .inl ⟨k, Session.holds_of_attached hattached⟩
  · rw [ending_of_get? hsome]
    refine k.givenUp (fun _ => leavingAt_eq_some hsome) ?_ hgiven
    exact fun _ => Session.holds_of_attached hattached

theorem answer_of_tell {source : Option Owner} {r : AllocationRequest} {given : Option Buffer}
    (h : Transcript (tell s (.allocate name source r)) more (given, s')) :
    ∃ answer, given = answer.toOption.join ∧
      Transcript (s.allocate name source r) more (answer, s') := by
  obtain ⟨⟨answer, t⟩, hallocate, htold⟩ := Dialog.transcript_map.mp h
  cases htold
  exact ⟨answer, rfl, hallocate⟩

/-- What is given out is entered, and what had the name is struck out. -/
theorem Staying.allocate {source : Option Owner} {r : AllocationRequest} {given : Option Buffer}
    (k : Staying events l s) (hattached : s.attached = true)
    (h : Transcript (tell s (.allocate name source r)) more (given, s')) :
    Phase (events ++ more)
      ((written s given (.allocate name source r)).foldl Posting.enter l) s' := by
  obtain ⟨answer, rfl, hallocate⟩ := answer_of_tell h
  obtain ⟨first, rest, outcome, rfl, hattempt, hafter⟩ := Session.allocate_answers hallocate
  have hquiet := quiet_allocating hattempt
  match outcome with
  | .error fault =>
    obtain ⟨rfl, rfl, rfl⟩ := hafter
    rw [List.append_nil]
    exact .inl (k.used (.refl s') rfl hquiet)
  | .ok (none, backends) =>
    obtain ⟨rfl, rfl, rfl⟩ := hafter
    obtain ⟨owner, r', hbackend⟩ := Session.allocating_backend hattempt
    have halike : HeldAlike s (s.withBackends backends) :=
      Session.heldAlike_withBackends (Backends.has_allocate hbackend)
    rw [List.append_nil]
    rcases Backends.sizeAt?_allocate hbackend with ⟨hsame, -⟩ | ⟨_, _, _, _, hnone, -⟩
    · exact .inl (k.used halike hsame hquiet)
    · cases hnone
  | .ok (some buffer, backends) =>
    obtain ⟨rfl, hkeep⟩ := hafter
    rw [← List.append_assoc]
    show Phase _ ((written s (some buffer) (.allocate name source r)).foldl Posting.enter l) s'
    rw [written_given, List.foldl_append]
    have hlisted := k.toGoing.listed name hattempt hquiet
    exact Going.keep (t := s.withBackends backends) hlisted hattached hkeep

/-- A buffer of the emulator that is forgotten stays in the ledger, without its name. It holds the emulator
as it did before. -/
theorem Phase.forget {given : Option Buffer} (k : Phase events l s)
    (h : Transcript (s.perform (.forget name)) more s') :
    Phase (events ++ more) ((written s given (.forget name)).foldl Posting.enter l) s' := by
  obtain ⟨rfl, ⟨hnone, rfl⟩ | ⟨buffer, hsome, rfl⟩⟩ := Session.forget_ways h
  · rw [written_forget_of_none hnone, List.append_nil]
    exact k
  have hnames := Directory.nodup_erase k.names name
  have hholds := Session.holds_forgotten k.names hsome .emulator
  rw [written_forget hsome, List.append_nil]
  rcases k with k | k
  · refine .inl ⟨⟨hnames, k.has, k.running, k.quiet, ?_⟩, hholds.trans k.held⟩
    by_cases howner : buffer.owner = .emulator
    · rw [about_emulated howner]
      exact k.books.forgotten name
    · have hleaving : leavingAt s.buffers name = none := by
        refine leavingAt_eq_none fun b hb => ?_
        rw [hsome] at hb
        cases hb
        exact howner
      have hgoing := k.struckOff name
      rw [hleaving] at hgoing
      rw [about_other howner]
      exact hgoing.books
  · rw [about_other (k.owner_ne hsome)]
    exact .inr ⟨hnames, k.stopped, hholds.trans k.unheld, k.forgotten, k.farewell⟩

/-- A hold that is given up may have been the last. The ledger says of buffers what it said before. -/
theorem Phase.surrender {owner : Owner} {given : Option Buffer} (k : Phase events l s)
    (h : Transcript (s.perform (.surrender owner)) more s') :
    Phase (events ++ more) ((written s given (.surrender owner)).foldl Posting.enter l) s' := by
  have hwritten : (written s given (.surrender owner)).foldl Posting.enter l = l := by
    rw [written]
    split <;> rfl
  rw [hwritten]
  rcases Session.surrender_ways h with ⟨-, rfl, rfl⟩ | ⟨hkept, hstop⟩
  · rwa [List.append_nil]
  rcases k with k | k
  · have hgoing : Going events none l { s with kept := s.kept.erase owner } :=
      ⟨k.names, k.has, k.running, k.quiet, k.books⟩
    by_cases hother : owner.kind = .emulator
    · rw [hother] at hstop
      exact hgoing.stopUnheld hstop
    · have hheld := (Session.holds_surrendered k.names hother).trans k.held
      exact .inl (Staying.stopUnheld_other ⟨hgoing, hheld⟩ hother hstop)
  · have hother := Session.kept_ne_of_unheld k.names k.unheld hkept
    have hunheld := (Session.holds_surrendered k.names hother).trans k.unheld
    have hgone : Gone events l { s with kept := s.kept.erase owner } :=
      ⟨k.names, k.stopped, hunheld, k.forgotten, k.farewell⟩
    exact .inr (hgone.stopUnheld hstop)

/-- A handle that is given back directly may be that of any buffer. -/
theorem Staying.deallocate (k : Staying events l s)
    (h : Transcript (s.perform (.deallocate buffer)) more s') :
    Phase (events ++ more)
      (((Posting.returned buffer.handle).about buffer).foldl Posting.enter l) s' := by
  obtain ⟨result, backends, hgive, rfl⟩ := Session.deallocate_backend h
  have hhas := Backends.has_deallocate hgive
  have hquiet := quiet_of_works ((Backends.deallocate_works _ buffer).of_transcript hgive)
  have halike : HeldAlike s (s.withBackends backends) := Session.heldAlike_withBackends hhas
  refine .inl ⟨k.toGoing.returned ?_ hhas (Backends.sizeAt?_deallocate hgive) hquiet, ?_⟩
  · intro handle hleaving
    cases hleaving
  · rw [halike.holds, k.held]

theorem Staying.detach (k : Staying events l s) (h : Transcript s.detach more s') :
    Phase (events ++ more) l s' := by
  have hgoing : Going events none l { s with attached := false } :=
    ⟨k.names, k.has, k.running, k.quiet, k.books⟩
  exact Session.transcript_stopAll (P := fun events t => Going events none l t)
    (Q := fun events t => Phase events l t) Going.stopUnheld_other Going.stopUnheld
    Phase.stopUnheld (Session.mem_detachOrder s .emulator) hgoing h

/-- Every verb leads from phase to phase, and what is written down keeps the ledger right. -/
theorem Phase.verb {verb : Verb} {given : Option Buffer} (k : Phase events l s)
    (feasible : CallsSystem verb → s.attached = true)
    (told : Transcript (tell s verb) more (given, s')) :
    Phase (events ++ more) ((written s given verb).foldl Posting.enter l) s' := by
  have h := perform_of_tell told
  cases verb with
  | allocate name source r =>
    have hattached := feasible trivial
    exact (k.staying hattached).allocate hattached told
  | release name => exact k.givenUpByName (Session.release_givenUp h)
  | drop name => exact k.givenUpByName (Session.drop_givenUp h)
  | forget name => exact k.forget h
  | surrender owner => exact k.surrender h
  | deallocate buffer => exact (k.staying (feasible trivial)).deallocate h
  | write name offset bytes =>
    have hworks : (s.perform (.write name offset bytes)).Plain (Works .emulator) :=
      s.write_works name offset bytes
    have hquiet := quiet_of_works (hworks.of_transcript h)
    exact k.used (Session.write_heldAlike h) (write_sameStock h).sizes hquiet
  | execute name path d =>
    obtain ⟨kind, -, hworks⟩ := Session.execute_works h
    exact k.used (Session.execute_heldAlike h) (execute_sameStock h).sizes (quiet_of_works hworks)
  | wait name =>
    have hworks : (s.perform (.wait name)).Asks (Works .emulator) := s.wait_works name
    have hquiet := quiet_of_works (hworks.of_transcript h)
    exact k.used (Session.wait_heldAlike h) (wait_sameStock h).sizes hquiet
  | notify id =>
    obtain ⟨rfl, rfl⟩ := Dialog.transcript_done.mp h
    exact k.used (Session.heldAlike_withTracker s _) rfl quiet_nil
  | detach => exact (k.staying (feasible trivial)).detach h

/-! ## The end of a session -/

/-- Dropping buffers one after the other. -/
theorem Phase.dropAll {names : List String} (k : Phase events l s) (hnodup : names.Nodup)
    (h : Transcript (names.foldlM (fun s name => s.perform (.drop name)) s) more s') :
    Phase (events ++ more) ((names.flatMap (ending s)).foldl Posting.enter l) s' := by
  induction names generalizing s l events more with
  | nil =>
    obtain ⟨rfl, rfl⟩ := Dialog.transcript_done.mp h
    rwa [List.append_nil]
  | cons first rest ih =>
    rw [List.foldlM_cons] at h
    obtain ⟨dropping, last, u, rfl, hfirst, hrest⟩ := Dialog.transcript_bind.mp h
    obtain ⟨hfresh, hnodup⟩ := List.nodup_cons.mp hnodup
    -- the other names stand for the buffers that they stood for
    have hsame : ∀ name ∈ rest, ending u name = ending s name := by
      intro name hname
      have hne : name ≠ first := by
        rintro rfl
        exact hfresh hname
      rcases Session.drop_ended hfirst with ⟨-, -, rfl⟩ | ⟨b, -, _, _, _, _, -, -, -, halike⟩
      · rfl
      · rw [ending, ending, halike.buffers]
        exact congrArg _ (congrArg _ (Directory.get?_erase_of_ne _ hne))
    have hlater := ih (k.givenUpByName (Session.drop_givenUp hfirst)) hnodup hrest
    rwa [List.flatMap_congr hsame, List.append_assoc, ← List.foldl_append,
      ← List.flatMap_cons] at hlater

/-- Once a session is closed, the emulator is held by forgotten buffers at most. -/
theorem Phase.close (k : Phase events l s) (h : Transcript s.close more s') :
    Phase (events ++ more) ((s.buffers.names.flatMap (ending s)).foldl Posting.enter l) s' ∧
      (s'.holds .emulator = true ↔ .emulator ∈ s.kept) := by
  obtain ⟨hrun, hdetached, hempty⟩ := Session.close_run h
  have hhandles : Phase (events ++ []) l { s with handles := {} } :=
    k.used ⟨rfl, rfl, rfl, rfl, rfl⟩ rfl quiet_nil
  rw [List.append_nil] at hhandles
  have hclosed : Phase (events ++ more)
      ((s.buffers.names.flatMap (ending s)).foldl Posting.enter l) s' := by
    obtain ⟨dropping, last, u, rfl, hdrops, hlast⟩ := Dialog.transcript_bind.mp h
    have hdropped := hhandles.dropAll k.names hdrops
    rw [← List.append_assoc]
    split at hlast
    · next hattached => exact (hdropped.staying hattached).detach hlast
    · obtain ⟨rfl, rfl⟩ := Dialog.transcript_done.mp hlast
      rwa [List.append_nil]
  have hkept : s'.kept = s.kept :=
    Session.run_kept (s := { s with handles := {} }) (fun _ _ hverb => hverb.1) hrun
  refine ⟨hclosed, ?_⟩
  rw [Session.holds_iff_of_names hclosed.names, hdetached, hkept]
  constructor
  · rintro (hattached | ⟨name, b, hsome, -⟩ | ⟨owner, howner, hkind⟩)
    · cases hattached
    · rw [hempty name] at hsome
      cases hsome
    · by_cases hother : owner = .emulator
      · exact hother ▸ howner
      · exact absurd hkind (Owner.kind_ne hother)
  · exact fun howner => .inr (.inr ⟨.emulator, howner, rfl⟩)

/-- Wherever a history leads, the emulator is in one of its phases. -/
theorem History.phase (hup : system.backends.has .emulator = true) (hvacant : Vacant { system })
    (history : History system events s postings) : Phase events (ledger postings) s := by
  induction history with
  | start =>
    refine .inl ⟨⟨List.nodup_nil, hup, List.not_mem_nil, quiet_nil, ?_⟩,
      Session.holds_of_attached rfl⟩
    exact Books.empty (sizeAt?_of_vacant hvacant)
  | step history feasible told ih =>
    rw [ledger_append]
    exact ih.verb feasible told

/-- What is reported once the emulator has been given up is what is left over. -/
theorem Gone.reported (k : Gone events (ledger postings) s) :
    Farewell (leftovers postings) (events.map (·.request)) := by
  have hall : (ledger postings).filter (fun entry => entry.holder.isNone) = ledger postings := by
    rw [List.filter_eq_self]
    intro entry hentry
    rw [k.forgotten entry hentry]
    rfl
  rw [leftovers, hall]
  exact k.farewell

/-! ## Forgotten holds -/

theorem unseenHolds_about {posting : Posting} (h : posting.hold = 0) (buffer : Buffer) :
    unseenHolds (posting.about buffer) = 0 := by
  unfold Posting.about
  split
  · rw [unseenHolds, h]
    rfl
  · rfl

theorem unseenHolds_ending (s : Session) (name : String) : unseenHolds (ending s name) = 0 := by
  cases hname : s.buffers.get? name with
  | none => rw [ending_of_none hname]; rfl
  | some buffer =>
    rw [ending_of_get? hname]
    exact unseenHolds_about rfl buffer

/-- The end of a buffer gives up no hold that is out of sight. -/
theorem unseenHolds_endings (s : Session) (names : List String) :
    unseenHolds (names.flatMap (ending s)) = 0 := by
  induction names with
  | nil => rfl
  | cons name rest ih =>
    rw [List.flatMap_cons, unseenHolds_append, unseenHolds_ending, ih, Int.add_zero]

/-- What is written down of a verb says how the number of forgotten buffers changes that hold the
emulator. -/
theorem count_kept_of_tell {verb : Verb} {given : Option Buffer}
    (told : Transcript (tell s verb) more (given, s')) :
    (s'.kept.count .emulator : Int) =
      s.kept.count .emulator + unseenHolds (written s given verb) := by
  have h := perform_of_tell told
  -- but for two of the verbs neither side changes
  have hplain : s'.kept = s.kept → unseenHolds (written s given verb) = 0 →
      (s'.kept.count .emulator : Int) =
        s.kept.count .emulator + unseenHolds (written s given verb) := by
    intro hkept hnone
    rw [hkept, hnone, Int.add_zero]
  cases verb with
  | allocate name source r =>
    refine hplain (Session.perform_kept h trivial) ?_
    cases given with
    | none => rfl
    | some buffer =>
      rw [written_given, unseenHolds_append, unseenHolds_ending, unseenHolds_about rfl]
      rfl
  | release name | drop name =>
    exact hplain (Session.perform_kept h trivial) (unseenHolds_ending s name)
  | deallocate buffer =>
    exact hplain (Session.perform_kept h trivial) (unseenHolds_about rfl buffer)
  | write | execute | wait | notify | detach =>
    exact hplain (Session.perform_kept h trivial) rfl
  | forget name =>
    obtain ⟨rfl, ⟨hnone, rfl⟩ | ⟨buffer, hsome, rfl⟩⟩ := Session.forget_ways h
    · refine hplain rfl ?_
      rw [written_forget_of_none hnone, unseenHolds]
    · rw [written_forget hsome, List.count_cons]
      by_cases howner : buffer.owner = .emulator
      · rw [about_emulated howner, howner]
        rfl
      · rw [about_other howner, if_neg (by simpa using howner)]
        rfl
  | surrender owner =>
    rcases Session.surrender_ways h with ⟨hkept, -, rfl⟩ | ⟨hkept, hstop⟩
    · refine hplain rfl ?_
      rw [written, if_neg fun howner => hkept howner.2]
      rfl
    · rw [Session.stopUnheld_kept hstop, written]
      by_cases howner : owner = .emulator
      · subst howner
        have hpositive := List.count_pos_iff.mpr hkept
        rw [if_pos ⟨rfl, hkept⟩, List.count_erase_self]
        show ((_ - 1 : Nat) : Int) = _ + -1
        omega
      · rw [if_neg fun h => howner h.1, List.count_erase_of_ne (Ne.symm howner)]
        exact (Int.add_zero _).symm

/-- The emulator stays up for as many forgotten buffers as the user has written down. -/
theorem History.count_kept (history : History system events s postings) :
    (s.kept.count .emulator : Int) = unseenHolds postings := by
  induction history with
  | start => rfl
  | step history feasible told ih => rw [unseenHolds_append, ← ih, count_kept_of_tell told]

end Phases

/-- What the emulator of a system promises of its reports. -/
structure ReportsLeftovers (system : System) : Prop where
  /-- It is given up by whoever lets go of it last, and by nobody else. A buffer that was forgotten holds
  it until that hold is given up. -/
  last : ∀ {events s postings}, History system events s postings →
    (.emulator ∈ s.stopped ↔ s.holds .emulator = false)
  /-- As long as it is up, no buffer is reported. -/
  before : ∀ {events s postings}, History system events s postings → .emulator ∉ s.stopped →
    Quiet events
  /-- Once it has been given up, the buffers that were forgotten and not given back since have been
  reported, in the order of their slots, and then it was given up. -/
  after : ∀ {events s postings}, History system events s postings → .emulator ∈ s.stopped →
    Farewell (leftovers postings) (events.map (·.request))
  /-- It is given up at the latest when the session is closed, unless a forgotten buffer still holds it. -/
  closed : ∀ {events postings}, Life system events postings → unseenHolds postings = 0 →
    Farewell (leftovers postings) (events.map (·.request))
  /-- A forgotten buffer that still holds it then keeps it up for good, and nothing is reported. -/
  leaked : ∀ {events postings}, Life system events postings → unseenHolds postings ≠ 0 → Quiet events
  /-- Nothing is reported where no buffer was forgotten. -/
  clean : ∀ {events postings}, Life system events postings → (∀ name, .forgotten name ∉ postings) →
    Farewell [] (events.map (·.request))

/-- What became of the emulator when a session was closed is told by the forgotten buffers that still hold
it. -/
theorem Life.ends {events : List (Exchange Hardware)} {postings : List Posting}
    (hup : system.backends.has .emulator = true) (hvacant : Vacant { system })
    (life : Life system events postings) : 0 ≤ unseenHolds postings ∧
      (unseenHolds postings = 0 → Farewell (leftovers postings) (events.map (·.request))) ∧
      (unseenHolds postings ≠ 0 → Quiet events) := by
  cases life with
  | @closed _ _ s _ earlier history close =>
    obtain ⟨hphase, hholds⟩ := (history.phase hup hvacant).close close
    rw [← ledger_append] at hphase
    have hcount : (s.kept.count .emulator : Int) =
        unseenHolds (earlier ++ s.buffers.names.flatMap (ending s)) := by
      rw [unseenHolds_append, unseenHolds_endings, Int.add_zero]
      exact history.count_kept
    rw [← hcount, ne_eq, Int.natCast_eq_zero, List.count_eq_zero, ← hholds, Bool.not_eq_true]
    refine ⟨Int.natCast_nonneg _, fun hunheld => (hphase.gone hunheld).reported, fun hheld => ?_⟩
    exact (hphase.staying_of_held (by simpa using hheld)).quiet

/-- A session of a system that is emulated. -/
def sampleSession (slots : SlotTable) (buffers : Directory Buffer) (kept : List Owner) : Session where
  system := { config := .fullyEmulated, backends := { emulator := some { slots } } }
  buffers
  kept

/-- Slots of which the lowest has a buffer of 200 bytes. -/
def sampleFilled : SlotTable := SlotTable.empty.put 0 (some (.zeroed 200))

/-- The same slots after that buffer has made way for one of 50 bytes. -/
def sampleReused : SlotTable := (sampleFilled.put 0 none).put 0 (some (.zeroed 50))

/-- Two buffers are forgotten, one after the other in the same slot, as somebody gave the first handle
back in between. Then both give up what they hold. -/
def sampleForgotten : List Posting :=
  [.given "a" (bufferAt 0 200) 200, .forgotten "a", .returned 1, .given "b" (bufferAt 0 50) 50,
    .forgotten "b", .surrendered, .surrendered]

end VideoCore.Emulator

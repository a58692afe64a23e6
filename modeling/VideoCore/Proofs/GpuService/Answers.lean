import Mathlib.Data.List.Induction
import Mathlib.Data.List.Pairwise
import VideoCore.Proofs.GpuService.Tracking

/-!
# What a wait returns

The tracker remembers one completion, so what a wait returns is decided by what had happened when it
looked. Here that is made a function of the log. `trackerOf` is the state of the numbers after a log,
and `verdict` is what a wait on a dispatch returns at the end of a log: the first wait passes if the
completion that was noted last is that of its own job, and every later wait repeats the first.

`judged_of_run` says that this is what waits return in every run. So two runs in which the same things
happen answer alike (`Judged.determined`).
-/

namespace VideoCore.GpuService

open Hardware
open Dialog (Transcript)

variable {log more : List Event}

/-! ## The numbers of a log -/

theorem numbers_append (log more : List Event) :
    numbers (log ++ more) = numbers log ++ numbers more :=
  List.filterMap_append

/-- The last job is one of those that began, if there is any. -/
theorem lastBegan_mem (log : List Event) : lastBegan log = 0 ∨ lastBegan log ∈ numbers log := by
  induction log using List.reverseRecOn with
  | nil => exact .inl rfl
  | append_singleton log e ih =>
    cases e with
    | began id => simp
    | notified id => simpa using ih
    | waited k passed now => simpa using ih

theorem ascending_of_append (ascending : (numbers (log ++ more)).Pairwise (· < ·)) :
    (numbers log).Pairwise (· < ·) := by
  rw [numbers_append] at ascending
  exact (List.pairwise_append.mp ascending).1

/-- If numbers ascend, a job that begins has a number past that of the last. -/
theorem lastBegan_le_of_began {id : JobId}
    (ascending : (numbers (log ++ [.began id])).Pairwise (· < ·)) : lastBegan log ≤ id := by
  rw [numbers_began, List.pairwise_append] at ascending
  rcases lastBegan_mem log with hzero | hmem
  · rw [hzero]
    exact Nat.zero_le id
  · exact Nat.le_of_lt (ascending.2.2 _ hmem id (List.mem_singleton_self id))

/-- If numbers ascend, the last job is never an earlier one again. -/
theorem lastBegan_le_append (ascending : (numbers (log ++ more)).Pairwise (· < ·)) :
    lastBegan log ≤ lastBegan (log ++ more) := by
  induction more using List.reverseRecOn with
  | nil => exact Nat.le_of_eq (by rw [List.append_nil])
  | append_singleton more e ih =>
    rw [← List.append_assoc] at ascending ⊢
    refine Nat.le_trans (ih (ascending_of_append ascending)) ?_
    cases e with
    | began id =>
      rw [lastBegan_began]
      exact lastBegan_le_of_began ascending
    | notified id => exact Nat.le_of_eq (lastBegan_notified _ _).symm
    | waited k passed now => exact Nat.le_of_eq (lastBegan_waited _ _ _ _).symm

/-- What an event does to the numbers. -/
def Event.track (t : Tracker) : Event → Tracker
  | .began id => { t with current := id }
  | .notified id => t.complete id
  | .waited _ _ _ => t

/-- The numbers after a log. -/
def trackerOf (log : List Event) : Tracker := log.foldl Event.track {}

@[simp] theorem trackerOf_began (log : List Event) (id : JobId) :
    trackerOf (log ++ [.began id]) = { trackerOf log with current := id } := by
  simp [trackerOf, Event.track]

@[simp] theorem trackerOf_notified (log : List Event) (id : JobId) :
    trackerOf (log ++ [.notified id]) = (trackerOf log).complete id := by
  simp [trackerOf, Event.track]

@[simp] theorem trackerOf_waited (log : List Event) (k : Ticket) (passed : Bool) (now : Instant) :
    trackerOf (log ++ [.waited k passed now]) = trackerOf log := by
  simp [trackerOf, Event.track]

theorem trackerOf_notifiedAll (log : List Event) (ids : List JobId) :
    trackerOf (log ++ ids.map .notified) = (trackerOf log).completeAll ids := by
  rw [trackerOf, List.foldl_append, List.foldl_map]
  rfl

theorem current_trackerOf (log : List Event) : (trackerOf log).current = lastBegan log := by
  induction log using List.reverseRecOn with
  | nil => rfl
  | append_singleton log e ih =>
    cases e with
    | began id => simp
    | notified id => simp [ih]
    | waited k passed now => simp [ih]

/-! ## The answers of a log -/

/-- The number of a job that the service took. -/
def Ticket.taken? (k : Ticket) : Option JobId := if k.accepted then some k.id else none

/-- What an event answers to a wait on a job. -/
def Event.answer? (id : JobId) : Event → Option Bool
  | .waited k passed _ => if k.taken? = some id then some passed else none
  | _ => none

/-- What the waits on a job returned so far. -/
def answers (log : List Event) (id : JobId) : List Bool := log.filterMap (Event.answer? id)

/-- What a wait on a dispatch returns at the end of a log. -/
def verdict (log : List Event) (k : Ticket) : Bool :=
  k.accepted && (answers log k.id).head?.getD ((trackerOf log).completed == k.id)

theorem answers_append (log more : List Event) (id : JobId) :
    answers (log ++ more) id = answers log id ++ answers more id :=
  List.filterMap_append

/-- Events that are no answers answer nothing. -/
theorem answers_quiet (hquiet : ∀ k passed now, .waited k passed now ∉ more) (id : JobId) :
    answers more id = [] := by
  apply List.filterMap_eq_nil_iff.mpr
  intro e he
  cases e with
  | began => rfl
  | notified => rfl
  | waited k passed now => exact absurd he (hquiet k passed now)

theorem answers_waited {k : Ticket} {passed : Bool} {now : Instant} {id : JobId} :
    answers [.waited k passed now] id = if k.taken? = some id then [passed] else [] := by
  by_cases h : k.taken? = some id
  · simp [answers, Event.answer?, h]
  · simp [answers, Event.answer?, h]

theorem taken?_of_accepted {k : Ticket} (h : k.accepted = true) : k.taken? = some k.id :=
  if_pos h

theorem taken?_eq_some {k : Ticket} {id : JobId} :
    k.taken? = some id ↔ k.accepted = true ∧ k.id = id := by
  unfold Ticket.taken?
  split
  · next h => simp [h]
  · next h => simp [h]

/-- A log that answers nothing about a job has no answer to a wait on it. -/
theorem answers_eq_nil {id : JobId} :
    answers log id = [] ↔ ∀ k passed now, k.taken? = some id → .waited k passed now ∉ log := by
  rw [answers, List.filterMap_eq_nil_iff]
  constructor
  · intro h k passed now htaken hmem
    have hnone := h _ hmem
    rw [Event.answer?, if_pos htaken] at hnone
    cases hnone
  · intro h e he
    cases e with
    | began => rfl
    | notified => rfl
    | waited k passed now =>
      have hnot : k.taken? ≠ some id := fun htaken => h k passed now htaken he
      exact if_neg hnot

/-- Every answer of a log is the verdict on what came before. -/
def Judged (log : List Event) : Prop :=
  ∀ before after k passed now, log = before ++ .waited k passed now :: after →
    passed = verdict before k

theorem Judged.quiet (h : Judged log) (hquiet : ∀ k passed now, .waited k passed now ∉ more) :
    Judged (log ++ more) := by
  intro before after k passed now he
  obtain ⟨rest, hlog⟩ := split_of_quiet hquiet he
  exact h before rest k passed now hlog

theorem Judged.waited (h : Judged log) {k : Ticket} {passed : Bool} (hpassed : passed = verdict log k)
    (now : Instant) : Judged (log ++ [.waited k passed now]) := by
  intro before after k' passed' now' he
  rcases split_of_concat he with ⟨rfl, hlast⟩ | ⟨rest, hlog⟩
  · cases hlast
    exact hpassed
  · exact h before rest k' passed' now' hlog

theorem Judged.of_append (h : Judged (log ++ more)) : Judged log := by
  intro before after k passed now he
  refine h before (after ++ more) k passed now ?_
  rw [he, List.append_assoc, List.cons_append]

/-- An event with the answer left out. -/
def Event.unanswered : Event → Event
  | .waited k _ now => .waited k false now
  | e => e

/-- Where the same things happen, waits return the same. -/
theorem Judged.determined {log' : List Event} (h : Judged log) (h' : Judged log')
    (he : log.map Event.unanswered = log'.map Event.unanswered) : log = log' := by
  induction log using List.reverseRecOn generalizing log' with
  | nil => exact (List.map_eq_nil_iff.mp he.symm).symm
  | append_singleton log e ih =>
    rcases List.eq_nil_or_concat log' with rfl | ⟨front, last, rfl⟩
    · simp at he
    rw [List.concat_eq_append] at he h' ⊢
    rw [List.map_append, List.map_append] at he
    obtain ⟨hfront, hlast⟩ := List.append_inj' he rfl
    obtain rfl := ih h.of_append h'.of_append hfront
    have hsame : e.unanswered = last.unanswered := by simpa using hlast
    -- what is left is an answer, and both are the verdict on the same log
    suffices e = last by rw [this]
    cases e with
    | began id => cases last <;> simp_all [Event.unanswered]
    | notified id => cases last <;> simp_all [Event.unanswered]
    | waited k passed now =>
      cases last with
      | began | notified => simp [Event.unanswered] at hsame
      | waited k' passed' now' =>
        simp only [Event.unanswered, Event.waited.injEq] at hsame
        obtain ⟨rfl, -, rfl⟩ := hsame
        rw [h log [] k passed now rfl, h' log [] k passed' now rfl]

/-! ## What a world remembers of its log -/

/-- The dispatches whose handles were given out. -/
def World.tickets (w : World) : List Ticket := w.handles.map Prod.fst

/-- The numbers of the submissions that are under way and of the jobs that the service took. -/
def World.issued (w : World) : List JobId :=
  w.calls.map Call.id ++ w.tickets.filterMap Ticket.taken?

/-- A handle is pending until its job is first answered, and keeps that answer. -/
def Stands (log : List Event) (k : Ticket) : Handle JobWait → Prop
  | .pending wait => k.accepted = true ∧ wait = ⟨k.id, k.deadline⟩ ∧ answers log k.id = []
  | .settled passed =>
    (k.accepted = true → (answers log k.id).head? = some passed) ∧
      (k.accepted = false → passed = false)
  | .abandoned => False

/-- The numbers, the handles and the answers are what the log says. -/
structure Recorded (log : List Event) (w : World) : Prop where
  tracker : w.tracker = trackerOf log
  /-- Every number was given out. -/
  callsBounded : ∀ call ∈ w.calls, call.id ≤ w.tracker.current
  ticketsBounded : ∀ k ∈ w.tickets, k.id ≤ w.tracker.current
  /-- No two submissions share a number. -/
  distinct : w.issued.Nodup
  /-- Only handles that were given out are waited for. -/
  known : ∀ k passed now, .waited k passed now ∈ log → k ∈ w.tickets
  stands : ∀ k handle, (k, handle) ∈ w.handles → Stands log k handle
  judged : Judged log

/-- A settled handle keeps its answer, and a pending one stays so as long as its job is not answered. -/
theorem Stands.append {k : Ticket} {handle : Handle JobWait} (h : Stands log k handle)
    (hpending : ∀ wait, handle = .pending wait → answers more k.id = []) :
    Stands (log ++ more) k handle := by
  cases handle with
  | pending wait =>
    obtain ⟨haccepted, hwait, hnone⟩ := h
    refine ⟨haccepted, hwait, ?_⟩
    rw [answers_append, hnone, hpending wait rfl, List.nil_append]
  | settled passed =>
    refine ⟨?_, h.2⟩
    intro haccepted
    rw [answers_append, List.head?_append, h.1 haccepted]
    rfl
  | abandoned => exact h

/-- A settled handle has the answer that a wait returns. -/
theorem Stands.verdict {k : Ticket} {passed : Bool} (h : Stands log k (.settled passed)) :
    verdict log k = passed := by
  unfold GpuService.verdict
  cases haccepted : k.accepted with
  | true => simp [h.1 haccepted]
  | false => simp [h.2 haccepted]

/-- The answer that a wait returns settles the handle. -/
theorem stands_settled {k : Ticket} {passed : Bool} {now : Instant} (hnone : answers log k.id = [])
    (haccepted : k.accepted = true) :
    Stands (log ++ [.waited k passed now]) k (.settled passed) := by
  refine ⟨fun _ => ?_, fun hnot => absurd haccepted (by simp [hnot])⟩
  rw [answers_append, hnone, answers_waited, if_pos (taken?_of_accepted haccepted)]
  rfl

/-- Two handles of jobs that the service took are the same if their numbers are. -/
theorem eq_of_taken {w : World} (h : w.issued.Nodup) {k k' : Ticket} {handle handle' : Handle JobWait}
    (hmem : (k, handle) ∈ w.handles) (hmem' : (k', handle') ∈ w.handles) {id : JobId}
    (hid : k.taken? = some id) (hid' : k'.taken? = some id) : (k, handle) = (k', handle') := by
  have hpairs : w.handles.Pairwise fun a a' => ∀ b, a.1.taken? = some b → ∀ b',
      a'.1.taken? = some b' → b ≠ b' := by
    have hnodup := (List.nodup_append.mp h).2.1
    rw [World.tickets, List.filterMap_map] at hnodup
    exact List.pairwise_filterMap.mp hnodup
  have hsymm : Std.Symm fun (a a' : Ticket × Handle JobWait) => ∀ b,
      a.1.taken? = some b → ∀ b', a'.1.taken? = some b' → b ≠ b' :=
    ⟨fun a a' hdiffer b hb b' hb' heq => hdiffer b' hb' b hb heq.symm⟩
  by_contra hne
  exact hpairs.forall hmem hmem' hne id hid id hid' rfl

/-! ### One step -/

/-- Another handle in the place of one leaves the dispatches as they are. -/
theorem tickets_set {w : World} {i : Nat} {k : Ticket} {handle : Handle JobWait}
    (hold : w.handles[i]? = some (k, handle)) (handle' : Handle JobWait) :
    (w.handles.set i (k, handle')).map Prod.fst = w.tickets := by
  obtain ⟨hlt, hget⟩ := List.getElem?_eq_some_iff.mp hold
  have hbound : i < (w.handles.map Prod.fst).length := by simpa using hlt
  have hsame : (w.handles.map Prod.fst)[i] = k := by simp [hget]
  rw [List.map_set, ← hsame, List.set_getElem_self]
  rfl

/-- Numbers that change without an answer leave everything else as it is. -/
theorem Recorded.quiet {w : World} (h : Recorded log w) {t : Tracker}
    (htracker : t = trackerOf (log ++ more)) (hcurrent : w.tracker.current ≤ t.current)
    (hquiet : ∀ k passed now, .waited k passed now ∉ more) :
    Recorded (log ++ more) { w with tracker := t } where
  tracker := htracker
  callsBounded call hmem := Nat.le_trans (h.callsBounded call hmem) hcurrent
  ticketsBounded k hmem := Nat.le_trans (h.ticketsBounded k hmem) hcurrent
  distinct := h.distinct
  known := by
    intro k passed now hmem
    rcases List.mem_append.mp hmem with hmem | hmem
    · exact h.known k passed now hmem
    · exact absurd hmem (hquiet k passed now)
  stands k handle hmem := (h.stands k handle hmem).append fun _ _ => answers_quiet hquiet k.id
  judged := h.judged.quiet hquiet

/-- A wait that returns what its handle comes to stand for is recorded in that handle. -/
theorem Recorded.waited {w : World} (h : Recorded log w) {k : Ticket} {passed : Bool}
    {handles : List (Ticket × Handle JobWait)} (hfst : handles.map Prod.fst = w.tickets)
    (hheld : (k, .settled passed) ∈ handles)
    (hothers : ∀ k' handle, (k', handle) ∈ handles → (k', handle) = (k, .settled passed) ∨
      (k', handle) ∈ w.handles)
    (hpassed : passed = verdict log k)
    (hstands : Stands (log ++ [.waited k passed w.now]) k (.settled passed)) :
    Recorded (log ++ [.waited k passed w.now]) { w with handles } := by
  have hissued : ({ w with handles } : World).issued.Nodup := by
    unfold World.issued World.tickets
    rw [hfst]
    exact h.distinct
  refine ⟨?_, h.callsBounded, ?_, hissued, ?_, ?_, h.judged.waited hpassed w.now⟩
  · rw [trackerOf_waited]
    exact h.tracker
  · intro k' hmem
    exact h.ticketsBounded k' (hfst ▸ hmem)
  · intro k' passed' now hmem
    show k' ∈ handles.map Prod.fst
    rw [hfst]
    rcases List.mem_append.mp hmem with hmem | hmem
    · exact h.known k' passed' now hmem
    · cases List.mem_singleton.mp hmem
      rw [← hfst]
      exact List.mem_map_of_mem hheld
  · intro k' handle hmem
    rcases hothers k' handle hmem with hsame | hold
    · cases hsame
      exact hstands
    refine (h.stands k' handle hold).append ?_
    rintro wait rfl
    rw [answers_waited]
    refine if_neg fun htaken => ?_
    -- the handle of a job that is answered is not pending
    have haccepted := (h.stands k' _ hold).1
    have heq := eq_of_taken hissued hheld hmem htaken (taken?_of_accepted haccepted)
    cases heq

/-- A handle that is given out stands for what the log says of its dispatch. -/
theorem Recorded.handed {w : World} (h : Recorded log w) {calls : List Call} {k : Ticket}
    {handle : Handle JobWait} (hcalls : ∀ call ∈ calls, call ∈ w.calls)
    (hbound : k.id ≤ w.tracker.current)
    (hdistinct : (calls.map Call.id ++ (w.tickets.filterMap Ticket.taken? ++ k.taken?.toList)).Nodup)
    (hstands : Stands log k handle) :
    Recorded log { w with calls, handles := w.handles ++ [(k, handle)] } := by
  have htickets : ({ w with calls, handles := w.handles ++ [(k, handle)] } : World).tickets =
      w.tickets ++ [k] := List.map_append
  refine ⟨h.tracker, fun call hmem => h.callsBounded call (hcalls call hmem), ?_, ?_, ?_, ?_, h.judged⟩
  · intro k' hmem
    rw [htickets] at hmem
    rcases List.mem_append.mp hmem with hmem | hmem
    · exact h.ticketsBounded k' hmem
    · rw [List.mem_singleton.mp hmem]
      exact hbound
  · rw [World.issued, htickets, List.filterMap_append]
    have hlast : [k].filterMap Ticket.taken? = k.taken?.toList := by
      cases hk : k.taken? with
      | none => simp [hk]
      | some id => simp [hk]
    rw [hlast]
    exact hdistinct
  · intro k' passed now hmem
    rw [htickets]
    exact List.mem_append_left _ (h.known k' passed now hmem)
  · intro k' handle' hmem
    rcases List.mem_append.mp hmem with hmem | hmem
    · exact h.stands k' handle' hmem
    · cases List.mem_singleton.mp hmem
      exact hstands

/-- A submission that returns gives out a handle with the number that it went under. -/
theorem Recorded.finished {w : World} (h : Recorded log w) {front back : List Call} {call : Call}
    (hcalls : w.calls = front ++ call :: back) (accepted : Bool) :
    Recorded log
      { w with
        calls := front ++ back
        handles := w.handles ++ [(⟨call.dispatch, call.id, call.submitted, accepted⟩,
          handleFor call.dispatch call.submitted call.id accepted)] } := by
  have hmem : call ∈ w.calls := by simp [hcalls]
  have hperm : w.issued.Perm (call.id :: ((front ++ back).map Call.id ++
      w.tickets.filterMap Ticket.taken?)) := by
    rw [World.issued, hcalls]
    simp only [List.map_append, List.map_cons, List.append_assoc, List.cons_append]
    exact List.perm_middle
  obtain ⟨hfresh, hrest⟩ := List.nodup_cons.mp (hperm.nodup_iff.mp h.distinct)
  refine h.handed (fun c hc => ?_) (h.callsBounded call hmem) ?_ ?_
  · rw [hcalls]
    rcases List.mem_append.mp hc with hc | hc
    · exact List.mem_append_left _ hc
    · exact List.mem_append_right _ (List.mem_cons_of_mem _ hc)
  · rw [← List.append_assoc]
    cases accepted with
    | true =>
      rw [taken?_of_accepted rfl]
      refine List.nodup_append.mpr ⟨hrest, List.pairwise_singleton .., ?_⟩
      rintro id hid _ hlast rfl
      rw [List.mem_singleton.mp hlast] at hid
      exact hfresh hid
    | false => simpa [Ticket.taken?] using hrest
  · cases accepted with
    | true =>
      refine ⟨rfl, rfl, answers_eq_nil.mpr ?_⟩
      -- an answer would be one to a handle that has the same number
      intro k passed now htaken hlog
      have hknown := List.mem_filterMap.mpr ⟨k, h.known k passed now hlog, htaken⟩
      exact hfresh (List.mem_append_right _ hknown)
    | false => exact ⟨fun haccepted => (nomatch haccepted), fun _ => rfl⟩

/-- A submission that begins has a number of its own. -/
theorem Recorded.began {w : World} (h : Recorded log w) (d : Dispatch) (job : Job)
    (submitted : Instant) :
    Recorded (log ++ [.began w.tracker.begin.1])
      { w with
        tracker := w.tracker.begin.2
        calls := w.calls ++ [⟨d, job, w.tracker.begin.1, submitted, w.tracker⟩] } := by
  have hquiet : ∀ k passed now, Event.waited k passed now ∉ [.began w.tracker.begin.1] := by simp
  have htracker : w.tracker.begin.2 = trackerOf (log ++ [.began w.tracker.begin.1]) := by
    rw [trackerOf_began, ← h.tracker]
    rfl
  have hbase := h.quiet htracker (Nat.le_succ _) hquiet
  have hfresh : w.tracker.begin.1 ∉ w.issued := by
    intro hmem
    have hle : w.tracker.begin.1 ≤ w.tracker.current := by
      rcases List.mem_append.mp hmem with hmem | hmem
      · obtain ⟨call, hcall, hid⟩ := List.mem_map.mp hmem
        exact hid ▸ h.callsBounded call hcall
      · obtain ⟨k, hk, htaken⟩ := List.mem_filterMap.mp hmem
        exact (taken?_eq_some.mp htaken).2 ▸ h.ticketsBounded k hk
    exact absurd hle (Nat.not_succ_le_self _)
  refine ⟨hbase.tracker, ?_, hbase.ticketsBounded, ?_, hbase.known, hbase.stands, hbase.judged⟩
  · intro call hmem
    rcases List.mem_append.mp hmem with hmem | hmem
    · exact hbase.callsBounded call hmem
    · rw [List.mem_singleton.mp hmem]
      exact Nat.le_refl _
  · have hperm : (w.tracker.begin.1 :: w.issued).Perm
        ((w.calls.map Call.id ++ [w.tracker.begin.1]) ++
          w.tickets.filterMap Ticket.taken?) := by
      rw [World.issued, List.append_assoc]
      exact List.perm_middle.symm
    rw [World.issued, List.map_append]
    exact hperm.nodup_iff.mp (List.nodup_cons.mpr ⟨hfresh, h.distinct⟩)

/-- Every step keeps the record. -/
theorem Recorded.step {w w' : World} {events : List Event} (h : Recorded log w)
    (step : Step w events w') : Recorded (log ++ events) w' := by
  cases step with
  | tick le =>
    rw [List.append_nil]
    exact ⟨h.tracker, h.callsBounded, h.ticketsBounded, h.distinct, h.known, h.stands, h.judged⟩
  | decline performs =>
    rw [List.append_nil]
    rcases performs_execute.mp performs with
      ⟨fault, -, -, hr⟩ | ⟨-, -, -, hr⟩ | ⟨_, _, _, -, -, he, -⟩
    · cases hr
    · cases hr
      refine h.handed (fun _ hc => hc) (Nat.zero_le _) ?_
        ⟨fun haccepted => (nomatch haccepted), fun _ => rfl⟩
      have hdistinct := h.distinct
      simpa [World.issued, Ticket.taken?] using hdistinct
    · cases he
  | begin earlier performs =>
    obtain ⟨rfl, -⟩ := submission_eq performs
    exact h.began _ _ _
  | finish calls performs =>
    rw [List.append_nil]
    obtain ⟨-, hr⟩ := submission_eq performs
    cases hr
    exact h.finished calls _
  | notify id =>
    refine h.quiet ?_ (Nat.le_of_eq (Tracker.current_complete _ _).symm) (by simp)
    rw [trackerOf_notified, h.tracker]
  | block pending turn =>
    obtain ⟨now, ids, he, rfl⟩ := waitTurn_again turn
    cases he
    refine h.quiet ?_ (Nat.le_of_eq (Tracker.current_completeAll _ _).symm) (by simp)
    rw [trackerOf_notifiedAll, h.tracker]
  | @settle i k wait passed t events pending clock turn =>
    have hmem := List.mem_of_getElem? pending
    obtain ⟨haccepted, rfl, hnone⟩ := h.stands k _ hmem
    obtain ⟨rfl, hpassed⟩ := waitTurn_passed turn
    obtain ⟨hlt, -⟩ := List.getElem?_eq_some_iff.mp pending
    refine h.waited (tickets_set pending _) (List.mem_set hlt _) ?_ ?_
      (stands_settled hnone haccepted)
    · intro k' handle hmem'
      exact (List.mem_or_eq_of_mem_set hmem').symm
    · rw [verdict, haccepted, hnone, ← h.tracker, hpassed]
      rfl
  | @reread k handle held checked =>
    have hstands := h.stands k handle held
    cases handle with
    | pending wait => exact absurd rfl (checked wait)
    | settled passed =>
      refine h.waited rfl held (fun _ _ hmem => .inr hmem) hstands.verdict.symm (hstands.append ?_)
      intro wait hpending
      cases hpending
    | abandoned => exact hstands.elim

theorem recorded_of_run {w w' : World} {events : List Event} (h : Recorded log w)
    (run : Run w events w') : Recorded (log ++ events) w' := by
  induction run with
  | none => rwa [List.append_nil]
  | step _ hstep ih =>
    rw [← List.append_assoc]
    exact ih.step hstep

theorem recorded_start (now : Instant) : Recorded [] (.start now) where
  tracker := rfl
  callsBounded call hmem := nomatch hmem
  ticketsBounded k hmem := nomatch hmem
  distinct := .nil
  known k passed now hmem := nomatch hmem
  stands k handle hmem := nomatch hmem
  judged before after k passed now he := by simp at he

/-- The waits on a job that the service took are waits on one handle. -/
theorem Recorded.ticket_eq {w : World} (h : Recorded log w) {k k' : Ticket} {passed : Bool}
    {now : Instant} (held : k ∈ w.tickets) (accepted : k.accepted = true)
    (answered : .waited k' passed now ∈ log) (same : k'.taken? = some k.id) : k' = k := by
  obtain ⟨⟨_, handle⟩, hmem, rfl⟩ := List.mem_map.mp held
  obtain ⟨⟨_, handle'⟩, hmem', rfl⟩ := List.mem_map.mp (h.known k' passed now answered)
  have heq := eq_of_taken h.distinct hmem' hmem same (taken?_of_accepted accepted)
  rw [heq]

/-- Every answer of a run is the verdict on what came before. -/
theorem judged_of_run {start : Instant} {w : World} (run : Run (.start start) log w) : Judged log :=
  (recorded_of_run (recorded_start start) run).judged

/-- A world in which one job was submitted and is in flight. -/
def oneInFlight : World where
  tracker := { current := 1 }
  now := ⟨7⟩
  handles := [(sampleTicket, .pending ⟨1, sampleTicket.deadline⟩)]

theorem run_oneInFlight : Run (.start ⟨7⟩) [.began 1] oneInFlight :=
  run_of_execute (w := .start ⟨7⟩) (performs_submission (g := ⟨{}⟩) (d := sampleTicket.dispatch)
    rfl rfl ⟨7⟩ ⟨true, []⟩)

end VideoCore.GpuService

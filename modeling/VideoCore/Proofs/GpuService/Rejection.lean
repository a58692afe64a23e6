import Mathlib.Data.List.Perm.Basic
import VideoCore.Proofs.GpuService.Answers

/-!
# Submissions that the service rejects

A submission takes the next number before the service is asked, and the number stays taken if the
service rejects the job. Here a run is compared with the same run into which a rejected submission was
inserted. All later submissions then have numbers that are larger by one (`renumber`), and apart from
that the second run can follow the first step by step (`Beside.step`, `Beside.run`), as long as the job
that was in flight at the rejection is not noted before the next submission begins.

Under that condition every other wait returns the same (`rejection_passed_over`). Without it the
completion of the job in flight is passed over, as if a later job had been submitted
(`rejection_outdates`).
-/

namespace VideoCore.GpuService

open Hardware
open Dialog (Transcript)

variable {last : JobId}

/-! ## Numbers with a gap -/

/-- The number of a submission if one more has begun after number `last` was given out. -/
def renumber (last id : JobId) : JobId := if id ≤ last then id else id + 1

theorem renumber_of_le {id : JobId} (h : id ≤ last) : renumber last id = id :=
  if_pos h

theorem renumber_of_lt {id : JobId} (h : last < id) : renumber last id = id + 1 :=
  if_neg (Nat.not_le_of_lt h)

theorem renumber_inj {id id' : JobId} : renumber last id = renumber last id' ↔ id = id' := by
  unfold renumber JobId at *
  split <;> split <;> omega

/-- The numbers with a gap after `last`. -/
def Tracker.renumber (last : JobId) (t : Tracker) : Tracker :=
  ⟨t.current + 1, GpuService.renumber last t.completed⟩

def Ticket.renumber (last : JobId) (k : Ticket) : Ticket :=
  { k with id := GpuService.renumber last k.id }

def JobWait.renumber (last : JobId) (wait : JobWait) : JobWait :=
  { wait with id := GpuService.renumber last wait.id }

def Call.renumber (last : JobId) (call : Call) : Call :=
  { call with
    id := GpuService.renumber last call.id
    before := if call.id ≤ last then call.before else call.before.renumber last }

def Event.renumber (last : JobId) : Event → Event
  | .began id => .began (GpuService.renumber last id)
  | .notified id => .notified (GpuService.renumber last id)
  | .waited k passed now => .waited (k.renumber last) passed now

/-- A dispatch and its handle, renumbered. -/
def renumberHeld (last : JobId) : Ticket × Handle JobWait → Ticket × Handle JobWait
  | (k, .pending wait) => (k.renumber last, .pending (wait.renumber last))
  | (k, .settled passed) => (k.renumber last, .settled passed)
  | (k, .abandoned) => (k.renumber last, .abandoned)

theorem renumberHeld_of_checked {k : Ticket} {handle : Handle JobWait}
    (checked : ∀ wait, handle ≠ .pending wait) :
    renumberHeld last (k, handle) = (k.renumber last, handle) := by
  cases handle with
  | pending wait => exact absurd rfl (checked wait)
  | settled | abandoned => rfl

/-- A completion is noted with the gap as it is without, unless it is that of the last job before the
gap and no other has been submitted since. -/
theorem renumber_complete {t : Tracker} {id : JobId} (reached : last ≤ t.current)
    (apart : t.current = last → id ≠ last) :
    (t.complete id).renumber last = (t.renumber last).complete (renumber last id) := by
  have hsame : (t.renumber last).current = renumber last id ↔ t.current = id := by
    show t.current + 1 = renumber last id ↔ _
    constructor
    · intro h
      rcases Nat.lt_or_ge last id with hlt | hle
      · rw [renumber_of_lt hlt] at h
        exact Nat.succ.inj h
      · rw [renumber_of_le hle] at h
        exact absurd (Nat.le_trans (Nat.le_of_eq h) hle) (Nat.not_le_of_lt (Nat.lt_succ_of_le reached))
    · rintro rfl
      have hlt : last < t.current := Nat.lt_of_le_of_ne reached fun h => apart h.symm h.symm
      rw [renumber_of_lt hlt]
  unfold Tracker.complete
  by_cases h : t.current = id
  · rw [if_pos h, if_pos (hsame.mpr h)]
    rfl
  · rw [if_neg h, if_neg fun hback => h (hsame.mp hback)]

theorem renumber_completeAll {t : Tracker} {ids : List JobId} (reached : last ≤ t.current)
    (apart : t.current = last → last ∉ ids) :
    (t.completeAll ids).renumber last = (t.renumber last).completeAll (ids.map (renumber last)) := by
  induction ids generalizing t with
  | nil => rfl
  | cons id rest ih =>
    have hid : t.current = last → id ≠ last :=
      fun hlast heq => apart hlast (heq ▸ List.mem_cons_self ..)
    have hrest := ih (t := t.complete id) (by rwa [Tracker.current_complete]) (by
      rw [Tracker.current_complete]
      exact fun hlast hmem => apart hlast (List.mem_cons_of_mem _ hmem))
    rw [renumber_complete reached hid] at hrest
    exact hrest

/-- The last turn of a wait comes to the same with the gap. -/
theorem waitTurn_last_renumber {wait : JobWait} {t t' : Tracker} {passed : Bool}
    {events : List (Exchange Hardware)}
    (turn : Transcript (waitTurn wait t) events (.inr (passed, t'))) :
    Transcript (waitTurn (wait.renumber last) (t.renumber last)) events
      (.inr (passed, t'.renumber last)) := by
  have hdone : (t.renumber last).completed = (wait.renumber last).id ↔ t.completed = wait.id :=
    renumber_inj
  rcases transcript_waitTurn.mp turn with
    ⟨hyes, hevents, hr⟩ | ⟨hno, now, hlate, hevents, hr⟩ | ⟨-, now, ids, -, -, hr⟩
  · cases hr
    exact transcript_waitTurn.mpr (.inl ⟨hdone.mpr hyes, hevents, rfl⟩)
  · cases hr
    exact transcript_waitTurn.mpr
      (.inr (.inl ⟨fun h => hno (hdone.mp h), now, hlate, hevents, rfl⟩))
  · cases hr

/-- A turn after which the wait goes on does so with the gap as well. -/
theorem waitTurn_again_renumber {wait : JobWait} {t t' : Tracker} {now : Instant} {limit : Duration}
    {ids : List JobId} (reached : last ≤ t.current) (apart : t.current = last → last ∉ ids)
    (turn : Transcript (waitTurn wait t)
      [⟨.readClock, now⟩, ⟨.awaitCompletion limit, ids⟩] (.inl t')) :
    Transcript (waitTurn (wait.renumber last) (t.renumber last))
      [⟨.readClock, now⟩, ⟨.awaitCompletion limit, ids.map (renumber last)⟩]
      (.inl (t'.renumber last)) := by
  have hdone : (t.renumber last).completed = (wait.renumber last).id ↔ t.completed = wait.id :=
    renumber_inj
  rcases transcript_waitTurn.mp turn with
    ⟨-, -, hr⟩ | ⟨-, _, -, -, hr⟩ | ⟨hno, now, ids, hearly, hevents, hr⟩
  · cases hr
  · cases hr
  · cases hevents
    cases hr
    refine transcript_waitTurn.mpr (.inr (.inr ⟨fun h => hno (hdone.mp h), now, _, hearly, rfl, ?_⟩))
    rw [renumber_completeAll reached apart]

/-! ## Two worlds side by side -/

/-- One world is another in which one more dispatch was handed over and rejected, after number `last`
was given out. -/
structure Beside (last : JobId) (extra : Ticket × Handle JobWait) (w v : World) : Prop where
  reached : last ≤ w.tracker.current
  now : v.now = w.now
  tracker : v.tracker = w.tracker.renumber last
  calls : v.calls = w.calls.map (Call.renumber last)
  handles : v.handles.Perm (extra :: w.handles.map (renumberHeld last))

/-- An entry of a list is found in any arrangement of the mapped list with one more entry, and can be
replaced there. -/
theorem exists_set_perm {α β : Type} {f : α → β} {l : List α} {l' : List β} {extra : β} {i : Nat}
    {a : α} (h : l'.Perm (extra :: l.map f)) (hi : l[i]? = some a) :
    ∃ j, l'[j]? = some (f a) ∧ ∀ b, (l'.set j (f b)).Perm (extra :: (l.set i b).map f) := by
  obtain ⟨hlt, rfl⟩ := List.getElem?_eq_some_iff.mp hi
  have hmem : f l[i] ∈ l' :=
    h.mem_iff.mpr (List.mem_cons_of_mem _ (List.mem_map_of_mem (List.getElem_mem hlt)))
  obtain ⟨j, hj, hget⟩ := List.getElem_of_mem hmem
  refine ⟨j, List.getElem?_eq_some_iff.mpr ⟨hj, hget⟩, fun b => ?_⟩
  -- both lists without the entry are arrangements of each other
  have hwithout : (l'.eraseIdx j).Perm (extra :: (l.eraseIdx i).map f) := by
    have hleft : (f l[i] :: l'.eraseIdx j).Perm l' := hget ▸ List.getElem_cons_eraseIdx_perm hj
    have hright : (l.map f).Perm (f l[i] :: (l.eraseIdx i).map f) :=
      ((List.getElem_cons_eraseIdx_perm hlt).map f).symm
    have hboth := (hleft.trans h).trans ((hright.cons extra).trans (List.Perm.swap ..))
    exact hboth.cons_inv
  calc List.Perm (l'.set j (f b)) (f b :: l'.eraseIdx j) := List.set_perm_cons_eraseIdx hj _
    List.Perm _ (f b :: extra :: (l.eraseIdx i).map f) := hwithout.cons _
    List.Perm _ (extra :: f b :: (l.eraseIdx i).map f) := .swap ..
    List.Perm _ (extra :: (l.set i b).map f) :=
      ((List.set_perm_cons_eraseIdx hlt b).symm.map f).cons extra

theorem Beside.held {extra : Ticket × Handle JobWait} {w v : World} (h : Beside last extra w v)
    {held : Ticket × Handle JobWait} (hmem : held ∈ w.handles) :
    renumberHeld last held ∈ v.handles :=
  h.handles.mem_iff.mpr (List.mem_cons_of_mem _ (List.mem_map_of_mem hmem))

/-- Giving out a handle keeps two worlds side by side. -/
theorem Beside.handed {extra held held' : Ticket × Handle JobWait} {w v : World}
    (h : Beside last extra w v) {calls calls' : List Call}
    (hcalls : calls' = calls.map (Call.renumber last)) (hheld : held' = renumberHeld last held) :
    Beside last extra { w with calls, handles := w.handles ++ [held] }
      { v with calls := calls', handles := v.handles ++ [held'] } where
  reached := h.reached
  now := h.now
  tracker := h.tracker
  calls := hcalls
  handles := by
    rw [List.map_append, List.map_singleton, ← hheld]
    exact h.handles.append_right [held']

/-- Other numbers keep two worlds side by side, if they are the same with the gap. -/
theorem Beside.tracked {extra : Ticket × Handle JobWait} {w v : World} (h : Beside last extra w v)
    {t t' : Tracker} (reached : last ≤ t.current) (htracker : t' = t.renumber last) :
    Beside last extra { w with tracker := t } { v with tracker := t' } :=
  ⟨reached, h.now, htracker, h.calls, h.handles⟩

/-- A submission gets the same handle with the gap, under its new number. -/
theorem renumberHeld_handleFor (d : Dispatch) (submitted : Instant) (id : JobId) (accepted : Bool) :
    renumberHeld last (⟨d, id, submitted, accepted⟩, handleFor d submitted id accepted) =
      (⟨d, renumber last id, submitted, accepted⟩,
        handleFor d submitted (renumber last id) accepted) := by
  cases accepted with
  | true => rfl
  | false => rfl

/-- A submission that is under way is so under the number that was the next when it began. -/
theorem Call.renumber_id {call : Call} (h : call.id = call.before.begin.1) :
    (call.renumber last).id = (call.renumber last).before.begin.1 := by
  unfold Call.renumber
  by_cases hle : call.id ≤ last
  · simp only [if_pos hle]
    rw [renumber_of_le hle, h]
  · simp only [if_neg hle]
    rw [renumber_of_lt (Nat.lt_of_not_le hle), h]
    rfl

/-- What a submission exchanged under one number it can exchange under any other that is the next. -/
theorem performs_renumbered {g : GpuService} {d : Dispatch} {submitted : Instant} {job : Job}
    {id : JobId} {answer : Submission} {r : Except Fault (Handle JobWait × GpuService)}
    (h : Performs (execute g d) (submissionOf submitted job id answer) r) (t : Tracker) :
    Performs (execute ⟨t⟩ d) (submissionOf submitted job t.begin.1 answer)
      (.ok (handleFor d submitted t.begin.1 answer.accepted,
        ⟨t.begin.2.completeAll answer.completed⟩)) := by
  rcases performs_execute.mp h with
    ⟨fault, -, he, -⟩ | ⟨-, -, he, -⟩ | ⟨timeout, submitted', answer', hcheck, htimeout, he, -⟩
  · cases he
  · cases he
  · cases he
    exact performs_submission hcheck htimeout submitted answer

/-- What one world does the other can do beside it, unless the job in flight at the gap is noted before
another submission began. -/
theorem Beside.step {extra : Ticket × Handle JobWait} {w w' v : World} {events : List Event}
    (h : Beside last extra w v) (step : Step w events w')
    (apart : w.tracker.current = last → .notified last ∉ events) :
    ∃ v', Step v (events.map (Event.renumber last)) v' ∧ Beside last extra w' v' := by
  cases step with
  | @tick later le =>
    refine ⟨{ v with now := later }, .tick (h.now ▸ le), ?_⟩
    exact ⟨h.reached, rfl, h.tracker, h.calls, h.handles⟩
  | @decline d handle g performs =>
    rcases performs_execute.mp performs with
      ⟨fault, -, -, hr⟩ | ⟨hcheck, htimeout, -, hr⟩ | ⟨_, _, _, -, -, he, -⟩
    · cases hr
    · cases hr
      have hdeclined : Performs (execute ⟨v.tracker⟩ d) [] (.ok (.settled false, ⟨v.tracker⟩)) :=
        performs_execute.mpr (.inr (.inl ⟨hcheck, htimeout, rfl, rfl⟩))
      refine ⟨_, .decline hdeclined, h.handed h.calls ?_⟩
      rw [h.now]
      rfl
    · cases he
  | @begin d submitted job id answer r earlier performs =>
    obtain ⟨rfl, -⟩ := submission_eq performs
    have hlt : last < w.tracker.begin.1 := Nat.lt_succ_of_le h.reached
    have hid : v.tracker.begin.1 = renumber last w.tracker.begin.1 := by
      rw [renumber_of_lt hlt, h.tracker]
      rfl
    have hbegin := Step.begin (w := v) (h.now ▸ earlier) (performs_renumbered performs v.tracker)
    rw [hid] at hbegin
    refine ⟨_, hbegin, Nat.le_succ_of_le h.reached, h.now, ?_, ?_, h.handles⟩
    · rw [h.tracker]
      rfl
    · have hcall : Call.renumber last ⟨d, job, w.tracker.begin.1, submitted, w.tracker⟩ =
          ⟨d, job, renumber last w.tracker.begin.1, submitted, v.tracker⟩ := by
        rw [Call.renumber, if_neg (Nat.not_le_of_lt hlt), h.tracker]
      rw [List.map_append, List.map_singleton, hcall, ← h.calls]
  | @finish front back call accepted handle g calls performs =>
    obtain ⟨hid, hr⟩ := submission_eq performs
    cases hr
    have hcalls : v.calls = front.map (Call.renumber last) ++
        call.renumber last :: back.map (Call.renumber last) := by
      rw [h.calls, calls, List.map_append, List.map_cons]
    have hperforms := performs_renumbered performs (call.renumber last).before
    rw [← Call.renumber_id hid] at hperforms
    refine ⟨_, .finish hcalls hperforms, h.handed ?_ ?_⟩
    · rw [List.map_append]
    · rw [renumberHeld_handleFor]
      rfl
  | notify id =>
    have hid : w.tracker.current = last → id ≠ last :=
      fun hlast heq => apart hlast (heq ▸ List.mem_singleton_self _)
    refine ⟨_, .notify (renumber last id), h.tracked ?_ ?_⟩
    · rw [Tracker.current_complete]
      exact h.reached
    · rw [renumber_complete h.reached hid, h.tracker]
  | @block i k wait limit ids t pending turn =>
    have hids : w.tracker.current = last → last ∉ ids :=
      fun hlast hmem => apart hlast (List.mem_map_of_mem hmem)
    obtain ⟨j, hpending, -⟩ := exists_set_perm h.handles pending
    have hturn := waitTurn_again_renumber h.reached hids turn
    rw [← h.tracker, ← h.now] at hturn
    have hblock := Step.block hpending hturn
    obtain ⟨_, _, -, rfl⟩ := waitTurn_again turn
    have hevents : (ids.map (renumber last)).map Event.notified =
        (ids.map Event.notified).map (Event.renumber last) := by
      rw [List.map_map, List.map_map]
      rfl
    rw [hevents] at hblock
    refine ⟨_, hblock, h.tracked ?_ rfl⟩
    rw [Tracker.current_completeAll]
    exact h.reached
  | @settle i k wait passed t events pending clock turn =>
    obtain ⟨j, hpending, hset⟩ := exists_set_perm h.handles pending
    have hturn : Transcript (waitTurn (wait.renumber last) (w.tracker.renumber last)) events
        (.inr (passed, t.renumber last)) := waitTurn_last_renumber turn
    rw [← h.tracker] at hturn
    obtain ⟨rfl, -⟩ := waitTurn_last turn
    have hsettle := Step.settle hpending (h.now ▸ clock) hturn
    rw [h.now] at hsettle
    exact ⟨_, hsettle, h.reached, rfl, rfl, h.calls, hset (k, .ofCheck (some passed))⟩
  | reread held checked =>
    have hheld := h.held held
    rw [renumberHeld_of_checked checked] at hheld
    have hreread := Step.reread hheld checked
    rw [h.now] at hreread
    exact ⟨v, hreread, h⟩

/-! ## Two runs side by side -/

/-- A job is not noted before another submission begins. -/
def Undisturbed (id : JobId) (log : List Event) : Prop :=
  ∀ before after, log = before ++ .notified id :: after → ∃ next, .began next ∈ before

theorem Undisturbed.of_append {id : JobId} {log more : List Event} (h : Undisturbed id (log ++ more)) :
    Undisturbed id log := by
  rintro before after rfl
  exact h before (after ++ more) (by simp)

/-- A number is given out by a submission that begins, and by nothing else. -/
theorem current_of_step {w w' : World} {events : List Event} (step : Step w events w') :
    (w'.tracker.current = w.tracker.current ∧ ∀ id, .began id ∉ events) ∨
      (w'.tracker.current = w.tracker.current + 1 ∧ ∃ id, events = [.began id]) := by
  cases step with
  | tick | decline | finish | reread => exact .inl ⟨rfl, by simp⟩
  | begin => exact .inr ⟨rfl, _, rfl⟩
  | notify id => exact .inl ⟨Tracker.current_complete _ _, by simp⟩
  | block pending turn =>
    obtain ⟨_, _, -, rfl⟩ := waitTurn_again turn
    exact .inl ⟨Tracker.current_completeAll _ _, by simp⟩
  | settle pending clock turn =>
    obtain ⟨rfl, -⟩ := waitTurn_last turn
    exact .inl ⟨rfl, by simp⟩

theorem current_of_run {w w' : World} {log : List Event} (run : Run w log w') :
    w.tracker.current ≤ w'.tracker.current ∧
      ∀ id, .began id ∈ log → w.tracker.current < w'.tracker.current := by
  induction run with
  | none => exact ⟨Nat.le_refl _, fun id hmem => nomatch hmem⟩
  | step hrun hstep ih =>
    obtain ⟨hle, hlt⟩ := ih
    rcases current_of_step hstep with ⟨hsame, hnone⟩ | ⟨hnext, -⟩
    · rw [hsame]
      refine ⟨hle, fun id hmem => ?_⟩
      rcases List.mem_append.mp hmem with hmem | hmem
      · exact hlt id hmem
      · exact absurd hmem (hnone id)
    · rw [hnext]
      exact ⟨Nat.le_succ_of_le hle, fun _ _ => Nat.lt_succ_of_le hle⟩

/-- A whole run can be followed beside it, unless the job in flight at the gap is noted before another
submission began. -/
theorem Beside.run {extra : Ticket × Handle JobWait} {w w' v : World} {log : List Event}
    (h : Beside last extra w v) (run : Run w log w') (undisturbed : Undisturbed last log) :
    ∃ v', Run v (log.map (Event.renumber last)) v' ∧ Beside last extra w' v' := by
  induction run with
  | none => exact ⟨v, .none v, h⟩
  | @step u w' log events hrun hstep ih =>
    obtain ⟨v', hrun', h'⟩ := ih undisturbed.of_append
    have hapart : u.tracker.current = last → .notified last ∉ events := by
      intro hlast hmem
      obtain ⟨front, back, rfl⟩ := List.append_of_mem hmem
      obtain ⟨next, hnext⟩ := undisturbed (log ++ front) back (by simp)
      rcases List.mem_append.mp hnext with hlog | hfront
      · -- a submission that began since has moved the numbers past the gap
        have hpast := (current_of_run hrun).2 next hlog
        rw [hlast] at hpast
        exact Nat.not_lt_of_le h.reached hpast
      · rcases current_of_step hstep with ⟨-, hnone⟩ | ⟨-, id, hone⟩
        · exact hnone next (List.mem_append_left _ hfront)
        · rw [hone] at hmem
          simp at hmem
    obtain ⟨v'', hstep', h''⟩ := h'.step hstep hapart
    refine ⟨v'', ?_, h''⟩
    rw [List.map_append]
    exact .step hrun' hstep'

/-! ## The result -/

/-- The world after a dispatch was handed over and the service rejected it. -/
def World.afterRejected (w : World) (d : Dispatch) : World :=
  { w with
    tracker := w.tracker.begin.2
    handles := w.handles ++ [(⟨d, w.tracker.begin.1, w.now, false⟩, .settled false)] }

theorem run_rejected {w : World} {d : Dispatch} {job : Job} {id : JobId}
    {r : Except Fault (Handle JobWait × GpuService)}
    (rejected : Performs (execute ⟨w.tracker⟩ d) (submissionOf w.now job id ⟨false, []⟩) r) :
    Run w [.began w.tracker.begin.1] (w.afterRejected d) :=
  run_of_execute (performs_renumbered rejected w.tracker)

/-- What was given out before the gap keeps its number. -/
theorem beside_afterRejected {log : List Event} {w : World} (h : Recorded log w) (valid : w.tracker.Valid)
    (d : Dispatch) :
    Beside w.tracker.current (⟨d, w.tracker.begin.1, w.now, false⟩, .settled false) w
      (w.afterRejected d) where
  reached := Nat.le_refl _
  now := rfl
  tracker := by
    rw [Tracker.renumber, renumber_of_le valid]
    rfl
  calls := by
    have hsame : ∀ call ∈ w.calls, call.renumber w.tracker.current = call := by
      intro call hmem
      have hle := h.callsBounded call hmem
      rw [Call.renumber, renumber_of_le hle, if_pos hle]
    exact ((List.map_congr_left (g := id) hsame).trans (List.map_id _)).symm
  handles := by
    have hsame : ∀ held ∈ w.handles, renumberHeld w.tracker.current held = held := by
      rintro ⟨k, handle⟩ hmem
      have hle := h.ticketsBounded k (List.mem_map_of_mem hmem)
      have hk : k.renumber w.tracker.current = k := by
        rw [Ticket.renumber, renumber_of_le hle]
      cases handle with
      | pending wait =>
        obtain ⟨-, rfl, -⟩ := h.stands k _ hmem
        simp only [renumberHeld, hk, JobWait.renumber, renumber_of_le hle]
      | settled | abandoned => rw [renumberHeld_of_checked (by simp), hk]
    rw [(List.map_congr_left (g := id) hsame).trans (List.map_id _)]
    exact List.perm_append_singleton _ _

/-- A job that was not noted while it was the last one is not noted any more once another began. -/
theorem Timely.of_began {log more : List Event} {id : JobId}
    (h : Timely (log ++ [.began id] ++ more) last) (later : last < id)
    (ascending : (numbers (log ++ [.began id] ++ more)).Pairwise (· < ·)) : Timely log last := by
  obtain ⟨before, after, he, hlast⟩ := h
  have hbefore : (numbers before).Pairwise (· < ·) := by
    rw [he] at ascending
    exact ascending_of_append ascending
  rw [List.append_assoc] at he
  rcases List.append_eq_append_iff.mp he with ⟨rest, rfl, hrest⟩ | ⟨rest, rfl, hrest⟩
  · cases rest with
    | nil => cases hrest
    | cons e tail =>
      cases hrest
      have hle : lastBegan (log ++ [.began id]) ≤ lastBegan (log ++ [.began id] ++ tail) :=
        lastBegan_le_append (by simpa using hbefore)
      rw [lastBegan_began, List.append_assoc, List.singleton_append, hlast] at hle
      exact absurd later (Nat.not_lt_of_le hle)
  · cases rest with
    | nil => cases hrest
    | cons e tail =>
      cases hrest
      exact ⟨before, tail, rfl, hlast⟩

/-- What a rejected submission does to the waits on other dispatches. Take any moment of any run, and
let one more dispatch be handed over and rejected there.

If the job in flight is not noted between that moment and the next submission, the rest of the run is
possible after the rejection as well, under the new numbers, and every wait in it returns the same. And
it can go no other way: wherever the same things happen, every wait returns what it returned without
the rejected submission.

But if the job in flight was not noted before, then it never is, and every wait on it fails. -/
theorem rejection_passed_over {start : Instant} {before : List Event} {w : World} {d : Dispatch}
    {job : Job} {id : JobId} {r : Except Fault (Handle JobWait × GpuService)}
    (run : Run (.start start) before w)
    (rejected : Performs (execute ⟨w.tracker⟩ d) (submissionOf w.now job id ⟨false, []⟩) r) :
    Run w [.began id] (w.afterRejected d) ∧
    (∀ after w', Run w after w' → Undisturbed w.tracker.current after →
      (∃ v, Run (w.afterRejected d) (after.map (Event.renumber w.tracker.current)) v) ∧
      ∀ after' v, Run (.start start) (before ++ [.began id] ++ after') v →
        after'.map Event.unanswered =
          (after.map (Event.renumber w.tracker.current)).map Event.unanswered →
        after' = after.map (Event.renumber w.tracker.current)) ∧
    (¬ Timely before w.tracker.current →
      ∀ after' v, Run (.start start) (before ++ [.began id] ++ after') v →
        ∀ k passed now, .waited k passed now ∈ after' → k.id = w.tracker.current →
          passed = false) := by
  obtain ⟨rfl, -⟩ := submission_eq rejected
  have hrecorded := recorded_of_run (recorded_start start) run
  have hsound := sound_of_run (sound_start start) run
  have hrejected := run_rejected rejected
  refine ⟨hrejected, ?_, ?_⟩
  · intro after w' rest undisturbed
    obtain ⟨v, hv, -⟩ :=
      (beside_afterRejected hrecorded hsound.tracked.valid d).run rest undisturbed
    refine ⟨⟨v, hv⟩, ?_⟩
    intro after' v' hrun hsame
    have hjudged := judged_of_run ((run.append hrejected).append hv)
    have hboth := (judged_of_run hrun).determined hjudged (by simp only [List.map_append, hsame])
    exact List.append_cancel_left hboth
  · intro unnoted after' v hrun k passed now hmem hk
    have hafter := sound_of_run (sound_start start) hrun
    rw [List.nil_append] at hafter
    obtain ⟨front, back, rfl⟩ := List.append_of_mem hmem
    rw [← List.append_assoc] at hafter
    have hanswered := hafter.waits _ back k passed now rfl
    cases passed with
    | false => rfl
    | true =>
      have hascending := ascending_of_append hafter.tracked.ascending
      have htimely : Timely before k.id :=
        Timely.of_began hanswered (Nat.lt_succ_of_le (Nat.le_of_eq hk)) hascending
      exact absurd (hk ▸ htimely) unnoted

/-! ### One job in flight -/

/-- The first job was noted. -/
def oneNoted : World := { oneInFlight with tracker := ⟨1, 1⟩ }

theorem run_oneNoted : Run oneInFlight [.notified 1] oneNoted :=
  .single (.notify 1)

/-- The service is asked to take the dispatch of `sampleTicket` once more, and rejects it. -/
theorem performs_rejected (t : Tracker) :
    Performs (execute ⟨t⟩ sampleTicket.dispatch)
      (submissionOf ⟨7⟩ (.ofDispatch sampleTicket.dispatch 0) (t.current + 1) ⟨false, []⟩)
      (.ok (.settled false, ⟨t.begin.2⟩)) :=
  performs_submission (g := ⟨t⟩) rfl rfl ⟨7⟩ ⟨false, []⟩

/-- A later job that the service takes and reports done at once passes, and it still does, under its new
number, if another submission was rejected before it. -/
theorem rejection_passed_over_oneNoted :
    Undisturbed 1 [.began 2, .notified 2, .waited { sampleTicket with id := 2 } true ⟨7⟩] ∧
      ∃ v, Run (oneNoted.afterRejected sampleTicket.dispatch)
        [.began 3, .notified 3, .waited { sampleTicket with id := 3 } true ⟨7⟩] v := by
  have hundisturbed :
      Undisturbed 1 [.began 2, .notified 2, .waited { sampleTicket with id := 2 } true ⟨7⟩] := by
    intro front back he
    have hmem : Event.notified 1 ∈ front ++ .notified 1 :: back := by simp
    rw [← he] at hmem
    simp at hmem
  have hsubmit := run_of_execute (w := oneNoted) (performs_submission (g := ⟨oneNoted.tracker⟩)
    (d := sampleTicket.dispatch) rfl rfl ⟨7⟩ ⟨true, [2]⟩)
  have hturn : Transcript (waitTurn ⟨2, sampleTicket.deadline⟩ ⟨2, 2⟩) [] (.inr (true, ⟨2, 2⟩)) :=
    transcript_waitTurn.mpr (.inl ⟨rfl, rfl, rfl⟩)
  have hrest := hsubmit.append
    (.single (.settle (i := 1) (k := { sampleTicket with id := 2 }) rfl (by simp) hturn))
  have hpassed := rejection_passed_over (run_oneInFlight.append run_oneNoted) (performs_rejected _)
  exact ⟨hundisturbed, (hpassed.2.1 _ _ hrest hundisturbed).1⟩

/-- A rejected submission can cost another job its completion. It is not so that every wait in a run
returns the same if a submission that the service rejects is inserted: the job that was in flight is
then noted too late. -/
theorem rejection_outdates :
    ¬ ∀ start before after w w' d job id r, Run (.start start) before w → Run w after w' →
      Performs (execute ⟨w.tracker⟩ d) (submissionOf w.now job id ⟨false, []⟩) r →
      ∀ after' v, Run (.start start) (before ++ [.began id] ++ after') v →
        after'.map Event.unanswered =
          (after.map (Event.renumber w.tracker.current)).map Event.unanswered →
        after' = after.map (Event.renumber w.tracker.current) := by
  intro hall
  have hdeadline : oneInFlight.now ≤ sampleTicket.deadline := by decide
  -- without the rejected submission the wait passes, however late it is made
  let noted : World := { oneNoted with now := sampleTicket.deadline }
  have hpasses : Run oneInFlight [.notified 1, .waited sampleTicket true sampleTicket.deadline]
      { noted with handles := noted.handles.set 0 (sampleTicket, .settled true) } := by
    have hturn : Transcript (waitTurn ⟨1, sampleTicket.deadline⟩ noted.tracker) []
        (.inr (true, noted.tracker)) := transcript_waitTurn.mpr (.inl ⟨rfl, rfl, rfl⟩)
    exact (run_oneNoted.append (.single (.tick hdeadline))).append
      (.single (.settle (w := noted) (i := 0) (k := sampleTicket) rfl (by simp) hturn))
  -- with it the same wait fails
  let rejected : World := oneInFlight.afterRejected sampleTicket.dispatch
  let outdated : World := { rejected with now := sampleTicket.deadline }
  have hfails : Run rejected [.notified 1, .waited sampleTicket false sampleTicket.deadline]
      { outdated with handles := outdated.handles.set 0 (sampleTicket, .settled false) } := by
    have hturn : Transcript (waitTurn ⟨1, sampleTicket.deadline⟩ outdated.tracker)
        [⟨.readClock, outdated.now⟩] (.inr (false, outdated.tracker)) :=
      transcript_waitTurn.mpr (.inr (.inl ⟨by decide, outdated.now, Nat.le_refl _, rfl, rfl⟩))
    have hnotify : Run rejected [.notified 1] rejected := .single (.notify 1)
    exact (hnotify.append (.single (.tick hdeadline))).append
      (.single (.settle (w := outdated) (i := 0) (k := sampleTicket) rfl (by simp) hturn))
  have hrejected := run_rejected (w := oneInFlight) (performs_rejected ⟨1, 0⟩)
  have hsame := hall _ _ _ _ _ _ _ _ _ run_oneInFlight hpasses (performs_rejected ⟨1, 0⟩) _ _
    ((run_oneInFlight.append hrejected).append hfails) rfl
  cases hsame

end VideoCore.GpuService

import VideoCore.GpuService
import VideoCore.Proofs.Attempt

/-!
# Calls of the GPU service

What a submission and one turn of a wait can exchange with the hardware, and what they make of the
replies. A submission reads the clock and hands the job over under the next number
(`performs_execute`). A turn of a wait passes at once if the job's completion has been noted, and
looks at the clock otherwise (`transcript_waitTurn`).
-/

namespace VideoCore.GpuService

open Hardware
open Dialog (Transcript)

/-- When a wait for a job gives up. -/
def deadlineOf (d : Dispatch) (submitted : Instant) : Instant :=
  (submitted.after d.timeout).after firmwareGrace

/-- The handle of a job, depending on whether the service took it. -/
def handleFor (d : Dispatch) (submitted : Instant) (id : JobId) (accepted : Bool) :
    Handle JobWait :=
  if accepted then .pending ⟨id, deadlineOf d submitted⟩ else .settled false

/-- The exchanges of a submission. -/
def submissionOf (submitted : Instant) (job : Job) (id : JobId) (answer : Submission) :
    List (Exchange Hardware) :=
  [⟨.readClock, submitted⟩, ⟨.submitJob job id, answer⟩]

/-- A submission is turned away, or fails without a call because its timeout does not fit, or is
handed over under the next number. -/
theorem performs_execute {g : GpuService} {d : Dispatch} {events : List (Exchange Hardware)}
    {r : Except Fault (Handle JobWait × GpuService)} :
    Performs (execute g d) events r ↔
      (∃ fault, d.check = .error fault ∧ events = [] ∧ r = .error fault) ∨
      (d.check = .ok () ∧ d.timeoutMs? = none ∧ events = [] ∧ r = .ok (.settled false, g)) ∨
      ∃ timeout submitted answer, d.check = .ok () ∧ d.timeoutMs? = some timeout ∧
        events = submissionOf submitted (.ofDispatch d timeout) g.tracker.begin.1 answer ∧
        r = .ok (handleFor d submitted g.tracker.begin.1 answer.accepted,
          ⟨g.tracker.begin.2.completeAll answer.completed⟩) := by
  rw [execute, performs_check]
  cases hcheck : d.check with
  | error fault =>
    constructor
    · rintro (h | ⟨_, hok, -⟩)
      · exact .inl h
      · cases hok
    · rintro (h | ⟨hok, -⟩ | ⟨_, _, _, hok, -⟩)
      · exact .inl h
      · cases hok
      · cases hok
  | ok _ =>
    cases htimeout : d.timeoutMs? with
    | none => simp
    | some timeout =>
      constructor
      · rintro (⟨fault, hfault, -⟩ | ⟨_, -, h⟩)
        · cases hfault
        obtain ⟨submitted, rest, rfl, hrest⟩ := performs_ask.mp h
        obtain ⟨answer, last, rfl, hlast⟩ := performs_ask.mp hrest
        refine .inr (.inr ⟨timeout, submitted, answer, rfl, rfl, ?_⟩)
        -- the numbers move on either way, and only the handle depends on the answer
        unfold handleFor
        split at hlast
        · next hyes =>
          obtain ⟨rfl, rfl⟩ := performs_pure.mp hlast
          exact ⟨rfl, by rw [if_pos hyes]; rfl⟩
        · next hno =>
          obtain ⟨rfl, rfl⟩ := performs_pure.mp hlast
          exact ⟨rfl, by rw [if_neg hno]; rfl⟩
      · rintro (⟨fault, hfault, -⟩ | ⟨-, hnone, -⟩ | ⟨t, submitted, answer, -, ht, rfl, rfl⟩)
        · cases hfault
        · cases hnone
        cases ht
        refine .inr ⟨(), rfl, performs_ask.mpr ⟨submitted, _, rfl, performs_ask.mpr
          ⟨answer, [], rfl, ?_⟩⟩⟩
        unfold handleFor
        split
        · exact performs_pure.mpr ⟨rfl, rfl⟩
        · exact performs_pure.mpr ⟨rfl, rfl⟩

/-- What is handed over can be answered in any way. -/
theorem performs_submission {g : GpuService} {d : Dispatch} {timeout : UInt32}
    (hcheck : d.check = .ok ()) (htimeout : d.timeoutMs? = some timeout) (submitted : Instant)
    (answer : Submission) :
    Performs (execute g d) (submissionOf submitted (.ofDispatch d timeout) g.tracker.begin.1 answer)
      (.ok (handleFor d submitted g.tracker.begin.1 answer.accepted,
        ⟨g.tracker.begin.2.completeAll answer.completed⟩)) :=
  performs_execute.mpr (.inr (.inr ⟨timeout, submitted, answer, hcheck, htimeout, rfl, rfl⟩))

/-- What is handed over goes under the next number, and gets the handle of that. -/
theorem submission_eq {g : GpuService} {d : Dispatch} {submitted : Instant} {job : Job} {id : JobId}
    {answer : Submission} {r : Except Fault (Handle JobWait × GpuService)}
    (h : Performs (execute g d) (submissionOf submitted job id answer) r) :
    id = g.tracker.begin.1 ∧
      r = .ok (handleFor d submitted id answer.accepted,
        ⟨g.tracker.begin.2.completeAll answer.completed⟩) := by
  rcases performs_execute.mp h with
    ⟨fault, -, he, -⟩ | ⟨-, -, he, -⟩ | ⟨timeout, submitted', answer', -, -, he, rfl⟩
  · cases he
  · cases he
  · cases he
    exact ⟨rfl, rfl⟩

/-- What one turn of a wait comes to. -/
theorem transcript_waitTurn {w : JobWait} {t : Tracker} {events : List (Exchange Hardware)}
    {r : Tracker ⊕ Bool × Tracker} :
    Transcript (waitTurn w t) events r ↔
      (t.completed = w.id ∧ events = [] ∧ r = .inr (true, t)) ∨
      (t.completed ≠ w.id ∧ ∃ now, w.deadline ≤ now ∧ events = [⟨.readClock, now⟩] ∧
        r = .inr (false, t)) ∨
      (t.completed ≠ w.id ∧ ∃ now ids, ¬ w.deadline ≤ now ∧
        events = [⟨.readClock, now⟩, ⟨.awaitCompletion (w.deadline.since now), ids⟩] ∧
        r = .inl (t.completeAll ids)) := by
  unfold waitTurn
  by_cases hdone : t.completed = w.id
  · rw [if_pos hdone]
    show Transcript (Dialog.done _) _ _ ↔ _
    simp [hdone]
  rw [if_neg hdone]
  refine transcript_ask.trans ?_
  constructor
  · rintro ⟨now, rest, rfl, h⟩
    split at h
    · next hlate =>
      obtain ⟨rfl, rfl⟩ := Dialog.transcript_done.mp h
      exact .inr (.inl ⟨hdone, now, hlate, rfl, rfl⟩)
    · next hearly =>
      obtain ⟨ids, last, rfl, hlast⟩ := transcript_ask.mp h
      obtain ⟨rfl, rfl⟩ := Dialog.transcript_done.mp hlast
      exact .inr (.inr ⟨hdone, now, ids, hearly, rfl, rfl⟩)
  · rintro (⟨h, -⟩ | ⟨-, now, hlate, rfl, rfl⟩ | ⟨-, now, ids, hearly, rfl, rfl⟩)
    · exact absurd h hdone
    · refine ⟨now, [], rfl, ?_⟩
      rw [if_pos hlate]
      exact .done _
    · refine ⟨now, [_], rfl, ?_⟩
      rw [if_neg hearly]
      exact transcript_ask.mpr ⟨ids, [], rfl, .done _⟩

/-- A turn after which the wait goes on has waited once. -/
theorem waitTurn_again {w : JobWait} {t t' : Tracker} {events : List (Exchange Hardware)}
    (h : Transcript (waitTurn w t) events (.inl t')) :
    ∃ now ids, events = [⟨.readClock, now⟩, ⟨.awaitCompletion (w.deadline.since now), ids⟩] ∧
      t' = t.completeAll ids := by
  rcases transcript_waitTurn.mp h with
    ⟨-, -, hr⟩ | ⟨-, now, -, -, hr⟩ | ⟨-, now, ids, -, hevents, hr⟩
  · cases hr
  · cases hr
  · cases hr
    exact ⟨now, ids, hevents, rfl⟩

/-- The last turn of a wait changes nothing. It found the job done, or its deadline come. -/
theorem waitTurn_last {w : JobWait} {t t' : Tracker} {passed : Bool}
    {events : List (Exchange Hardware)} (h : Transcript (waitTurn w t) events (.inr (passed, t'))) :
    t' = t ∧ ((passed = true ∧ t.completed = w.id ∧ events = []) ∨
      (passed = false ∧ ∃ now, w.deadline ≤ now ∧ events = [⟨.readClock, now⟩])) := by
  rcases transcript_waitTurn.mp h with
    ⟨hdone, hevents, hr⟩ | ⟨-, now, hlate, hevents, hr⟩ | ⟨-, now, ids, -, -, hr⟩
  · cases hr
    exact ⟨rfl, .inl ⟨rfl, hdone, hevents⟩⟩
  · cases hr
    exact ⟨rfl, .inr ⟨rfl, now, hlate, hevents⟩⟩
  · cases hr

/-- A wait passes if the number noted last is its own, and fails otherwise. -/
theorem waitTurn_passed {w : JobWait} {t t' : Tracker} {passed : Bool}
    {events : List (Exchange Hardware)} (h : Transcript (waitTurn w t) events (.inr (passed, t'))) :
    t' = t ∧ passed = (t.completed == w.id) := by
  rcases transcript_waitTurn.mp h with
    ⟨hdone, -, hr⟩ | ⟨hnot, now, -, -, hr⟩ | ⟨-, now, ids, -, -, hr⟩
  · cases hr
    exact ⟨rfl, by simp [hdone]⟩
  · cases hr
    exact ⟨rfl, by simp [hnot]⟩
  · cases hr

end VideoCore.GpuService

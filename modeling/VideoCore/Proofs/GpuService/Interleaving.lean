import VideoCore.Proofs.GpuService.Calls

/-!
# Submitters, waiters and the firmware

The numbers of the jobs are shared by every thread that submits, by every thread that waits, and by
the firmware, which notes that a job is done from a thread of its own. A `World` is what they share
at one moment, together with the submissions that are under way and the handles that were given
out, and a `Step` is what one of them does without being interrupted. A submission takes two steps,
since the service may report completions before it returns, and a wait takes as many steps as it
takes turns. A wait that is woken for nothing is a turn in which no job completes.

The steps are those of `GpuService.execute` and `GpuService.waitTurn`. That a whole submission and a
whole wait are runs of the world is proved at the end.
-/

namespace VideoCore.GpuService

open Hardware
open Dialog (Transcript)

/-! ## Worlds -/

/-- What is known of a dispatch once its handle is given out. -/
structure Ticket where
  dispatch : Dispatch
  /-- 0 if the dispatch was not handed over. -/
  id : JobId
  submitted : Instant
  accepted : Bool

/-- When a wait for the dispatch gives up. -/
def Ticket.deadline (k : Ticket) : Instant := deadlineOf k.dispatch k.submitted

/-- A submission that is under way. -/
structure Call where
  dispatch : Dispatch
  job : Job
  id : JobId
  submitted : Instant
  /-- The numbers when the submission began. -/
  before : Tracker

/-- What is shared at one moment. -/
structure World where
  tracker : Tracker := {}
  now : Instant
  calls : List Call := []
  handles : List (Ticket × Handle JobWait) := []

/-- What can be observed. -/
inductive Event where
  /-- A submission began, under a number. -/
  | began (id : JobId)
  /-- The firmware noted that a job is done. -/
  | notified (id : JobId)
  /-- A wait on a handle returned, at some time. -/
  | waited (ticket : Ticket) (passed : Bool) (now : Instant)

/-- What one of the threads does in one go, and what can be observed of it. -/
inductive Step : World → List Event → World → Prop where
  /-- Time goes by. -/
  | tick {w : World} {later : Instant} (le : w.now ≤ later) : Step w [] { w with now := later }
  /-- A dispatch fails without being handed over. -/
  | decline {w : World} {d : Dispatch} {handle : Handle JobWait} {g : GpuService}
      (performs : Performs (execute ⟨w.tracker⟩ d) [] (.ok (handle, g))) :
      Step w [] { w with handles := w.handles ++ [(⟨d, 0, w.now, false⟩, handle)] }
  /-- A submission begins. It may have read the clock a while ago. -/
  | begin {w : World} {d : Dispatch} {submitted : Instant} {job : Job} {id : JobId}
      {answer : Submission} {r : Except Fault (Handle JobWait × GpuService)}
      (earlier : submitted ≤ w.now)
      (performs : Performs (execute ⟨w.tracker⟩ d) (submissionOf submitted job id answer) r) :
      Step w [.began id]
        { w with
          tracker := w.tracker.begin.2
          calls := w.calls ++ [⟨d, job, id, submitted, w.tracker⟩] }
  /-- A submission that is under way returns. -/
  | finish {w : World} {front back : List Call} {call : Call} {accepted : Bool}
      {handle : Handle JobWait} {g : GpuService} (calls : w.calls = front ++ call :: back)
      (performs : Performs (execute ⟨call.before⟩ call.dispatch)
        (submissionOf call.submitted call.job call.id ⟨accepted, []⟩) (.ok (handle, g))) :
      Step w []
        { w with
          calls := front ++ back
          handles := w.handles ++ [(⟨call.dispatch, call.id, call.submitted, accepted⟩, handle)] }
  /-- The firmware notes that a job is done. -/
  | notify {w : World} (id : JobId) :
      Step w [.notified id] { w with tracker := w.tracker.complete id }
  /-- A wait has a turn and goes on. -/
  | block {w : World} {i : Nat} {k : Ticket} {wait : JobWait} {limit : Duration}
      {ids : List JobId} {t : Tracker} (pending : w.handles[i]? = some (k, .pending wait))
      (turn : Transcript (waitTurn wait w.tracker)
        [⟨.readClock, w.now⟩, ⟨.awaitCompletion limit, ids⟩] (.inl t)) :
      Step w (ids.map .notified) { w with tracker := t }
  /-- A wait has its last turn. -/
  | settle {w : World} {i : Nat} {k : Ticket} {wait : JobWait} {passed : Bool} {t : Tracker}
      {events : List (Exchange Hardware)} (pending : w.handles[i]? = some (k, .pending wait))
      (clock : ∀ e ∈ events, e = ⟨.readClock, w.now⟩)
      (turn : Transcript (waitTurn wait w.tracker) events (.inr (passed, t))) :
      Step w [.waited k passed w.now]
        { w with tracker := t, handles := w.handles.set i (k, .ofCheck (some passed)) }
  /-- A wait on a handle that has nothing left to check. -/
  | reread {w : World} {k : Ticket} {handle : Handle JobWait} (held : (k, handle) ∈ w.handles)
      (checked : ∀ wait, handle ≠ .pending wait) : Step w [.waited k handle.passed w.now] w

/-- Any number of steps, with all that could be observed. -/
inductive Run : World → List Event → World → Prop where
  | none (w : World) : Run w [] w
  | step {u v w : World} {log events : List Event} :
      Run u log v → Step v events w → Run u (log ++ events) w

/-- The world before anything was submitted. -/
def World.start (now : Instant) : World := { now }

theorem Run.append {u v w : World} {log more : List Event} (h : Run u log v) (k : Run v more w) :
    Run u (log ++ more) w := by
  induction k with
  | none => rwa [List.append_nil]
  | step _ hstep ih =>
    rw [← List.append_assoc]
    exact .step ih hstep

theorem Run.single {v w : World} {events : List Event} (h : Step v events w) : Run v events w :=
  .step (.none v) h

/-! ## What a log says -/

/-- The job that was submitted last, or 0. -/
def lastBegan (log : List Event) : JobId :=
  log.foldl (fun last e => match e with
    | .began id => id
    | _ => last) 0

/-- The numbers of all submissions, in the order in which they began. -/
def numbers (log : List Event) : List JobId :=
  log.filterMap fun
    | .began id => some id
    | _ => none

/-- A job was notified at a moment when no later submission had begun. -/
def Timely (log : List Event) (id : JobId) : Prop :=
  ∃ before after, log = before ++ .notified id :: after ∧ lastBegan before = id

@[simp] theorem lastBegan_began (log : List Event) (id : JobId) :
    lastBegan (log ++ [.began id]) = id := by
  simp [lastBegan]

@[simp] theorem lastBegan_notified (log : List Event) (id : JobId) :
    lastBegan (log ++ [.notified id]) = lastBegan log := by
  simp [lastBegan]

@[simp] theorem lastBegan_waited (log : List Event) (k : Ticket) (passed : Bool) (now : Instant) :
    lastBegan (log ++ [.waited k passed now]) = lastBegan log := by
  simp [lastBegan]

@[simp] theorem numbers_began (log : List Event) (id : JobId) :
    numbers (log ++ [.began id]) = numbers log ++ [id] := by
  simp [numbers]

@[simp] theorem numbers_notified (log : List Event) (id : JobId) :
    numbers (log ++ [.notified id]) = numbers log := by
  simp [numbers]

@[simp] theorem numbers_waited (log : List Event) (k : Ticket) (passed : Bool) (now : Instant) :
    numbers (log ++ [.waited k passed now]) = numbers log := by
  simp [numbers]

theorem Timely.append {log : List Event} {id : JobId} (h : Timely log id) (more : List Event) :
    Timely (log ++ more) id := by
  obtain ⟨before, after, rfl, hlast⟩ := h
  exact ⟨before, after ++ more, by simp, hlast⟩

/-! ## Whole calls -/

/-- A clock that is only read and never goes back gets from one reading to another. -/
def Elapses (now : Instant) : List (Exchange Hardware) → Instant → Prop
  | [], later => now = later
  | ⟨.readClock, reading⟩ :: rest, later => now ≤ reading ∧ Elapses reading rest later
  | _ :: rest, later => Elapses now rest later

/-- The firmware may note several jobs one after the other. -/
theorem run_notify (w : World) (ids : List JobId) :
    Run w (ids.map .notified) { w with tracker := w.tracker.completeAll ids } := by
  induction ids generalizing w with
  | nil => exact .none w
  | cons id rest ih =>
    have hrest := ih { w with tracker := w.tracker.complete id }
    exact (Run.single (.notify id)).append hrest

/-- A whole submission is a run, in which the jobs are noted that the service reported meanwhile. -/
theorem run_of_execute {w : World} {d : Dispatch} {job : Job} {id : JobId} {answer : Submission}
    {handle : Handle JobWait} {g : GpuService}
    (h : Performs (execute ⟨w.tracker⟩ d) (submissionOf w.now job id answer) (.ok (handle, g))) :
    Run w (.began id :: answer.completed.map .notified)
      { w with
        tracker := g.tracker
        handles := w.handles ++ [(⟨d, id, w.now, answer.accepted⟩, handle)] } := by
  rcases performs_execute.mp h with
    ⟨fault, -, he, -⟩ | ⟨-, -, he, -⟩ | ⟨timeout, submitted, answer', hcheck, ht, he, hr⟩
  · cases he
  · cases he
  cases he
  cases hr
  let call : Call := ⟨d, .ofDispatch d timeout, w.tracker.begin.1, w.now, w.tracker⟩
  let begun : World := { w with tracker := w.tracker.begin.2, calls := w.calls ++ [call] }
  let noted : World := { begun with tracker := begun.tracker.completeAll answer.completed }
  have hbegin : Run w [.began w.tracker.begin.1] begun := .single (.begin (Nat.le_refl _) h)
  have hnotify : Run begun (answer.completed.map .notified) noted := run_notify begun _
  -- what the service reported does not show in the handle
  have hperforms := performs_submission (g := ⟨w.tracker⟩) hcheck ht w.now ⟨answer.accepted, []⟩
  have hcalls : noted.calls = w.calls ++ call :: [] := rfl
  have hfinish := Run.single (.finish hcalls hperforms)
  have hrun := (hbegin.append hnotify).append hfinish
  simp only [List.append_nil] at hrun
  exact hrun

/-- A whole wait on a pending handle is a run that ends with what the wait returned. -/
theorem run_of_awaitJob {wait : JobWait} {t t' : Tracker} {passed : Bool}
    {events : List (Exchange Hardware)} (h : Transcript (awaitJob wait t) events (passed, t'))
    {w : World} {i : Nat} {k : Ticket} {later : Instant} (htracker : w.tracker = t)
    (hpending : w.handles[i]? = some (k, .pending wait)) (hclock : Elapses w.now events later) :
    ∃ log, Run w (log ++ [.waited k passed later])
      { w with now := later, tracker := t', handles := w.handles.set i (k, .settled passed) } := by
  -- the world changes from turn to turn, so it has to be free in the induction on the turns
  suffices hall : ∀ w : World, w.tracker = t → w.handles[i]? = some (k, .pending wait) →
      Elapses w.now events later → ∃ log, Run w (log ++ [.waited k (passed, t').1 later])
        { w with
          now := later
          tracker := (passed, t').2
          handles := w.handles.set i (k, .settled (passed, t').1) } from
    hall w htracker hpending hclock
  clear htracker hpending hclock w
  refine h.iterate_induct (P := fun t events result => ∀ w : World, w.tracker = t →
      w.handles[i]? = some (k, .pending wait) → Elapses w.now events later →
      ∃ log, Run w (log ++ [.waited k result.1 later])
        { w with
          now := later
          tracker := result.2
          handles := w.handles.set i (k, .settled result.1) }) ?_ ?_
  · rintro t turn ⟨passed, t'⟩ hturn w rfl hpending hclock
    refine ⟨[], ?_⟩
    rcases waitTurn_last hturn with ⟨-, ⟨-, -, rfl⟩ | ⟨-, now, -, rfl⟩⟩
    · cases hclock
      exact .single (.settle hpending (by simp) hturn)
    · obtain ⟨hle, rfl⟩ := hclock
      exact (Run.single (.tick hle)).append (.single (.settle hpending (by simp) hturn))
  · rintro t t'' turn rest ⟨passed, t'⟩ hturn ih w rfl hpending hclock
    obtain ⟨now, ids, rfl, -⟩ := waitTurn_again hturn
    obtain ⟨hle, hrest⟩ := hclock
    obtain ⟨log, hlog⟩ := ih { w with now, tracker := t'' } rfl hpending hrest
    have hblock := (Run.single (.tick hle)).append (.single (.block hpending hturn))
    exact ⟨ids.map .notified ++ log, by simpa using hblock.append hlog⟩

end VideoCore.GpuService

import VideoCore.GpuService.Job

/-!
# Which job is done

Jobs are numbered in the order of submission. Only the job that was submitted last is tracked: a
completion counts only if no later submission has begun, and the completion of an older job is
passed over.
-/

namespace VideoCore.GpuService

/-- The number given out last, and the number of the job that was last seen to complete. -/
structure Tracker where
  current : JobId := 0
  completed : JobId := 0
  deriving DecidableEq, Repr

namespace Tracker

/-- Gives out the next number. -/
def begin (t : Tracker) : JobId × Tracker :=
  (t.current + 1, { t with current := t.current + 1 })

/-- Takes note that a job completed, unless a later one has been submitted since. -/
def complete (t : Tracker) (id : JobId) : Tracker :=
  if t.current = id then { t with completed := id } else t

/-- Takes note of several completions, in order. -/
def completeAll (t : Tracker) (ids : List JobId) : Tracker :=
  ids.foldl complete t

/-- Nothing completes that was not submitted. -/
def Valid (t : Tracker) : Prop := t.completed ≤ t.current

theorem Valid.begin {t : Tracker} (h : t.Valid) : t.begin.2.Valid :=
  Nat.le_succ_of_le h

theorem Valid.complete {t : Tracker} (h : t.Valid) (id : JobId) : (t.complete id).Valid := by
  unfold Tracker.complete Valid at *
  split
  · simp_all
  · exact h

@[simp] theorem current_complete (t : Tracker) (id : JobId) : (t.complete id).current = t.current := by
  unfold complete; split <;> rfl

@[simp] theorem current_completeAll (t : Tracker) (ids : List JobId) :
    (t.completeAll ids).current = t.current := by
  induction ids generalizing t with
  | nil => rfl
  | cons id rest ih => exact (ih (t.complete id)).trans (current_complete t id)

/-- The completion of any job but the last is passed over. -/
theorem complete_of_ne {t : Tracker} {id : JobId} (h : t.current ≠ id) : t.complete id = t := by
  simp [complete, h]

end Tracker

end VideoCore.GpuService

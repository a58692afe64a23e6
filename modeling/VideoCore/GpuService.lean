import VideoCore.Handle
import VideoCore.Hardware
import VideoCore.Query
import VideoCore.GpuService.CommandReply
import VideoCore.GpuService.Tracker

/-!
# The GPU service backend

Executes kernels through the firmware's GPU service. A submission returns at once; the service
reports later that the job completed. The handle of an accepted job is pending, and its check
blocks until the job's completion has been noted or its deadline has passed.
-/

namespace VideoCore

/-- The state of the GPU service backend. -/
structure GpuService where
  tracker : GpuService.Tracker := {}
  deriving DecidableEq, Repr

namespace GpuService

open Hardware

/-- What the firmware gets on top of a kernel's timeout before a wait gives up. -/
def firmwareGrace : Duration := .ofSeconds 1

/-- The check of a pending handle: which job it waits for, and until when. -/
structure JobWait where
  id : JobId
  deadline : Instant
  deriving DecidableEq, Repr

/-- Submits a dispatch. A timeout that does not fit the service's field fails without a call. -/
def execute (g : GpuService) (d : Dispatch) : Attempt (Handle JobWait × GpuService) := do
  d.check
  match d.timeoutMs? with
  | none => return (.settled false, g)
  | some timeout =>
    let submitted ← readClock
    let (id, tracker) := g.tracker.begin
    let submission ← submitJob (.ofDispatch d timeout) id
    let g := { g with tracker := tracker.completeAll submission.completed }
    if submission.accepted then
      return (.pending ⟨id, (submitted.after d.timeout).after firmwareGrace⟩, g)
    else return (.settled false, g)

/-- One turn of a wait: passes if the job's completion has been noted, fails if the deadline has
come, and otherwise blocks until something completes or the deadline comes. -/
def waitTurn (w : JobWait) (t : Tracker) : Access (Tracker ⊕ Bool × Tracker) := do
  if t.completed = w.id then return .inr (true, t)
  let now ← readClock
  if w.deadline ≤ now then return .inr (false, t)
  return .inl (t.completeAll (← awaitCompletion (w.deadline.since now)))

/-- Waits for a job. -/
def awaitJob (w : JobWait) (t : Tracker) : Access (Bool × Tracker) :=
  Dialog.iterate (waitTurn w) t

/-- Answers a system query through the command interpreter. -/
def readValue (q : SystemQuery) : Access (Option UInt32) := do
  match commandFor q with
  | none => return none
  | some (text, _) =>
    match ← command text with
    | none => return none
    | some reply => return readReply? q reply

/-- Gives the service up. -/
def stop : Access Unit := retire .gpuService

end GpuService

end VideoCore

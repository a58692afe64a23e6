import VideoCore.Dispatch

/-!
# Jobs

A kernel launch as the GPU service takes it: always twelve control pairs, of which the first
`programs` count, and the timeout in milliseconds. The service knows a job by the number that it
was submitted under.
-/

namespace VideoCore.GpuService

/-- The number under which a job was submitted, counted from 1. -/
abbrev JobId := Nat

/-- A kernel launch as handed to the GPU service. -/
structure Job where
  programs : UInt32
  noFlush : Bool
  timeoutMs : UInt32
  control : Vector ControlPair maxQpus
  deriving DecidableEq, Repr

/-- The job of a dispatch, with pairs of zeros for the QPUs that take no part. -/
def Job.ofDispatch (d : Dispatch) (timeoutMs : UInt32) : Job where
  programs := d.programs
  noFlush := !d.flushCache
  timeoutMs := timeoutMs
  control := Vector.ofFn fun i => d.control[i.val]?.getD ⟨0, 0⟩

/-- How the service took a submission: whether it accepted the job, and which jobs it reported
as completed before the submission returned. -/
structure Submission where
  accepted : Bool
  completed : List JobId := []
  deriving DecidableEq, Repr

end VideoCore.GpuService

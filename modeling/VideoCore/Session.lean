import VideoCore.Directory
import VideoCore.System

/-!
# Sessions

Who holds what, and for how long. A session holds a system, the buffers that came from it and
the handles of its dispatches. A backend is up as long as the system or one of the backend's own
buffers is held, and it is stopped, once, by whatever lets go of it last. So a buffer may outlive
its system and is still taken back by the backend that it came from.
-/

namespace VideoCore

open Hardware
open GpuService (JobId JobWait Tracker)

/-- A system and everything that came from it. -/
structure Session where
  system : System
  /-- The system is still held. -/
  attached : Bool := true
  /-- The backends that are held beside the system, for as long as the system is. -/
  beside : List BackendKind := []
  buffers : Directory Buffer := {}
  handles : Directory (Handle JobWait) := {}
  /-- Owners that are held by buffers that were forgotten, once for each buffer. -/
  kept : List Owner := []
  /-- The backends that have been stopped. -/
  stopped : List BackendKind := []

namespace Session

/-! ## Lifetimes -/

/-- Whether somebody still holds a backend. -/
def holds (s : Session) (kind : BackendKind) : Bool :=
  s.attached || (s.buffers.values.map Buffer.owner ++ s.kept).any fun owner => owner.kind == kind

/-- Stops a backend, unless somebody holds it or it has been stopped before. -/
def stopUnheld (s : Session) (kind : BackendKind) : Access Session := do
  if s.holds kind || s.stopped.contains kind || !s.system.backends.has kind then return s
  s.system.backends.stop kind
  return { s with stopped := kind :: s.stopped }

/-- The backends in the order in which they lose the system, and then what was held beside it. -/
def detachOrder (s : Session) : List BackendKind :=
  s.system.teardownOrder.filter (· ∉ s.beside) ++ s.beside

/-- Lets go of the system and of its backends, one after the other. Backends whose buffers are
still held stay up. -/
def detach (s : Session) : Access Session :=
  s.detachOrder.foldlM stopUnheld { s with attached := false }

/-- The session after its backends have changed. -/
def withBackends (s : Session) (backends : Backends) : Session :=
  { s with system := { s.system with backends } }

/-! ## Buffers -/

/-- Ends a buffer that the session no longer lists. -/
def endBuffer (s : Session) (buffer : Buffer) : Access (Except Fault Bool × Session) := do
  let (result, backends) ← s.system.backends.release buffer
  return (result, ← (s.withBackends backends).stopUnheld buffer.owner.kind)

/-- What is reported of the end of a buffer that nobody waits for. -/
def dropDiagnostic (buffer : Buffer) : Except Fault Bool → Option Diagnostic
  | .ok true => none
  | .ok false => some (.bufferRejected buffer.handle buffer.address)
  | .error fault => some (.bufferReleaseFailed buffer.handle fault)

/-- Ends a buffer that the session no longer lists, and then reports if that failed. An owner
that stayed up for this buffer alone is stopped before the report. -/
def dropBuffer (s : Session) (buffer : Buffer) : Access Session := do
  let (result, s) ← s.endBuffer buffer
  match dropDiagnostic buffer result with
  | some diagnostic => report diagnostic
  | none => pure ()
  return s

/-- Keeps a new buffer under a name. A buffer that had the name is dropped. -/
def keep (s : Session) (name : String) (buffer : Buffer) : Access Session := do
  let s' := { s with buffers := s.buffers.put name buffer }
  match s.buffers.get? name with
  | some previous => s'.dropBuffer previous
  | none => return s'

/-- Allocates a buffer, from the system or directly from one of its backends, and keeps it under
a name. -/
def allocate (s : Session) (name : String) (source : Option Owner) (r : AllocationRequest) :
    Access (Except Fault (Option Buffer) × Session) := do
  let attempt : Attempt (Option Buffer × Backends) := match source with
    | none => do
      let (buffer, system) ← s.system.allocate r
      return (buffer, system.backends)
    | some owner => s.system.backends.allocate owner r
  match ← attempt.run with
  | .error fault => return (.error fault, s)
  | .ok (none, backends) => return (.ok none, s.withBackends backends)
  | .ok (some buffer, backends) =>
    return (.ok (some buffer), ← (s.withBackends backends).keep name buffer)

/-- Ends a buffer and says whether its owner took it back. -/
def release (s : Session) (name : String) : Access (Option (Except Fault Bool) × Session) := do
  match s.buffers.get? name with
  | none => return (none, s)
  | some buffer =>
    let (result, s) ← { s with buffers := s.buffers.erase name }.endBuffer buffer
    return (some result, s)

/-- Ends a buffer without waiting for the result. The answer is whether there was one. -/
def drop (s : Session) (name : String) : Access (Bool × Session) := do
  match s.buffers.get? name with
  | none => return (false, s)
  | some buffer =>
    return (true, ← { s with buffers := s.buffers.erase name }.dropBuffer buffer)

/-- Loses sight of a buffer without ending it. Its owner stays up for it. -/
def forget (s : Session) (name : String) : Bool × Session :=
  match s.buffers.get? name with
  | none => (false, s)
  | some buffer =>
    (true, { s with buffers := s.buffers.erase name, kept := buffer.owner :: s.kept })

/-- Gives up the hold on an owner that a forgotten buffer still has, if there is one. The buffer is
not taken back. Nothing that a buffer offers does that, as nobody has the buffer any more: it is the
count of the owner's holders that is lowered by hand. -/
def surrender (s : Session) (owner : Owner) : Access Session :=
  if owner ∈ s.kept then { s with kept := s.kept.erase owner }.stopUnheld owner.kind
  else return s

/-- Gives a handle back to a backend directly, whatever buffers there are. -/
def deallocate (s : Session) (buffer : Buffer) : Access (Except Fault Bool × Session) := do
  let (result, backends) ← s.system.backends.deallocate buffer
  return (result, s.withBackends backends)

/-! ## Handles -/

/-- Executes a dispatch, through the system or directly through one of its backends, and keeps
the handle under a name. -/
def execute (s : Session) (name : String) (path : Option BackendKind) (d : Dispatch) :
    Access (Except Fault ExecutionState × Session) := do
  let attempt : Attempt (Handle JobWait × Backends) := match path with
    | none => do
      let (handle, system) ← s.system.execute d
      return (handle, system.backends)
    | some kind => s.system.backends.execute kind d
  match ← attempt.run with
  | .error fault => return (.error fault, s)
  | .ok (handle, backends) =>
    return (.ok handle.state,
      { s.withBackends backends with handles := s.handles.put name handle })

/-- The tracker of the jobs that were submitted in this session. -/
def tracker (s : Session) : Tracker :=
  (s.system.backends.gpuService.map (·.tracker)).getD {}

/-- The session with another state of the tracker. -/
def withTracker (s : Session) (tracker : Tracker) : Session :=
  s.withBackends { s.system.backends with
    gpuService := s.system.backends.gpuService.map fun g => { g with tracker } }

/-- Takes note that a job completed. -/
def notify (s : Session) (id : JobId) : Session :=
  s.withTracker (s.tracker.complete id)

/-- Makes the check of a pending handle. The tracker is the state. -/
def check (w : JobWait) : StateT Tracker (Dialog Hardware) (Option Bool) := fun t => do
  let (passed, t) ← GpuService.awaitJob w t
  return (some passed, t)

/-- Waits for a handle. -/
def wait (s : Session) (name : String) : Access (Option Bool × Session) := do
  match s.handles.get? name with
  | none => return (none, s)
  | some handle =>
    let ((passed, handle), tracker) ← (handle.wait check).run s.tracker
    return (passed, { s.withTracker tracker with handles := s.handles.put name handle })

/-! ## The end -/

/-- Lets go of everything: the handles, the buffers in the order of their names, and the
system. -/
def close (s : Session) : Access Session := do
  let s ← s.buffers.names.foldlM (fun s name => do return (← s.drop name).2)
    { s with handles := {} }
  if s.attached then s.detach else return s

end Session

end VideoCore

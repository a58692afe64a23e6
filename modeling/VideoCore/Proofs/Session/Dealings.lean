import VideoCore.Proofs.Session.Holding

/-!
# The calls of a session

A session reaches the hardware through its backends. Here it is told call by call: in the vocabulary
`Dealings` a backend is asked to allocate or to take a buffer back, and everything else goes to the
hardware as it is. What a call comes to at the backend is `Dealing.speak`, and in those words what is
told is what the session does (`via_perform`, `via_close`).

A buffer is an object that knows its owner until it has been ended (`OwnedBuffer`). A buffer that is
released goes out of sight as well, and finds no owner any more by then (`destroy_spent`).
-/

namespace VideoCore

open Hardware

/-! ## Calls -/

/-- What the holders of systems ask. The calls that give out and take back buffers go to a backend of
one of the systems; everything else goes to the hardware. A call carries the state of the backends, as
its answer may change that. -/
inductive Dealing (ι : Type) where
  | allocate (place : ι) (b : Backends) (owner : Owner) (r : AllocationRequest)
  | deallocate (place : ι) (b : Backends) (buffer : Buffer)
  | hardware (q : Hardware.Request)

namespace Dealing

variable {ι : Type}

/-- The type of the answer to each question. -/
abbrev Reply : Dealing ι → Type
  | allocate _ _ _ _ => Except Fault (Option Buffer × Backends)
  | deallocate _ _ _ => Except Fault Bool × Backends
  | hardware q => Hardware.Reply q

end Dealing

/-- The vocabulary of the holders. -/
abbrev Dealings (ι : Type) : Vocabulary := ⟨Dealing ι, Dealing.Reply⟩

namespace Dealing

variable {ι α : Type}

/-- What a call comes to at a backend. -/
def speak : (q : Dealing ι) → Access q.Reply
  | allocate _ b owner r => (b.allocate owner r).run
  | deallocate _ b buffer => b.deallocate buffer
  | hardware q => ask q

/-- Has a backend allocate. -/
def allocating (place : ι) (b : Backends) (owner : Owner) (r : AllocationRequest) :
    Dialog (Dealings ι) (Except Fault (Option Buffer × Backends)) :=
  Dialog.request (V := Dealings ι) (.allocate place b owner r)

/-- Has the owner of a buffer take it back. -/
def deallocating (place : ι) (b : Backends) (buffer : Buffer) :
    Dialog (Dealings ι) (Except Fault Bool × Backends) :=
  Dialog.request (V := Dealings ι) (.deallocate place b buffer)

/-- Goes to the hardware, without any call. -/
def access (d : Access α) : Dialog (Dealings ι) α :=
  d.via fun q => Dialog.request (V := Dealings ι) (.hardware q)

theorem via_allocating (place : ι) (b : Backends) (owner : Owner) (r : AllocationRequest) :
    (allocating place b owner r).via speak = (b.allocate owner r).run :=
  Dialog.bind_pure _

theorem via_deallocating (place : ι) (b : Backends) (buffer : Buffer) :
    (deallocating place b buffer).via speak = b.deallocate buffer :=
  Dialog.bind_pure _

theorem via_access (d : Access α) : (access d : Dialog (Dealings ι) α).via speak = d := by
  induction d with
  | done value => rfl
  | ask q next ih =>
    show Dialog.ask q (fun reply => (access (next reply)).via speak) = Dialog.ask q next
    congr 1
    funext reply
    exact ih reply
  | repeatUntil step start next ihstep ihnext =>
    show Dialog.repeatUntil (fun s => (access (step s)).via speak) start
      (fun value => (access (next value)).via speak) = Dialog.repeatUntil step start next
    congr 1
    · funext s
      exact ihstep s
    · funext value
      exact ihnext value

end Dealing

/-! ## Buffers as objects -/

/-- A buffer as an object, which knows its owner and its host memory until it has been ended. Whatever
ends it takes both out, so that what comes after finds nothing to end. -/
structure OwnedBuffer where
  buffer : Buffer
  owner : Option Owner
  host : Option HostMemory

namespace OwnedBuffer

open Dealing Session

variable {ι : Type}

/-- The object for a buffer that has just been handed out. -/
def of (buffer : Buffer) : OwnedBuffer := ⟨buffer, some buffer.owner, some buffer.host⟩

/-- The object after it has been ended. -/
def spent (o : OwnedBuffer) : OwnedBuffer := { o with owner := none, host := none }

/-- Undoes the mapping of a buffer, if it has one of its own. -/
def unmap (o : OwnedBuffer) : Access Unit :=
  match o.host with
  | some (.mapped base) => unmapPhysical base o.buffer.size.toNat
  | _ => pure ()

/-- Ends the buffer if nobody has yet. The owner takes it back once its mapping is undone, and is let
go of. -/
def releaseInner (place : ι) (s : Session) (o : OwnedBuffer) :
    Dialog (Dealings ι) (Except Fault Bool × Session × OwnedBuffer) :=
  match o.owner with
  | none => return (.ok true, s, o)
  | some owner => do
    access o.unmap
    let (result, backends) ← deallocating place s.system.backends { o.buffer with owner }
    let s ← access ((s.withBackends backends).stopUnheld owner.kind)
    return (result, s, o.spent)

/-- What happens when an object goes out of sight: it is ended, and a report is made if that failed. -/
def destroy (place : ι) (s : Session) (o : OwnedBuffer) : Dialog (Dealings ι) Session := do
  let (result, s, o) ← o.releaseInner place s
  match dropDiagnostic o.buffer result with
  | some diagnostic => access (report diagnostic)
  | none => pure ()
  return s

/-- Ends the buffer, and says how that went. Then the object goes out of sight. -/
def release (place : ι) (s : Session) (o : OwnedBuffer) :
    Dialog (Dealings ι) (Except Fault Bool × Session) := do
  let (result, s, o) ← o.releaseInner place s
  let s ← o.destroy place s
  return (result, s)

/-- Gives a buffer back through a system, whichever system that is. -/
def releaseThrough (_through : System) (place : ι) (s : Session) (o : OwnedBuffer) :
    Dialog (Dealings ι) (Except Fault Bool × Session) :=
  o.release place s

/-- An object that has been ended goes out of sight without a call. -/
theorem destroy_spent (place : ι) (s : Session) (o : OwnedBuffer) :
    o.spent.destroy place s = pure s := rfl

/-- A backend releases a buffer by undoing its mapping and taking it back. -/
theorem release_eq (b : Backends) (buffer : Buffer) :
    b.release buffer = (of buffer).unmap.bind fun _ => b.deallocate buffer := by
  obtain ⟨owner, handle, address, host, size⟩ := buffer
  cases host with
  | mapped | borrowed | slot => rfl

/-- The object is ended where the session ends the buffer. -/
theorem via_releaseInner (place : ι) (s : Session) (buffer : Buffer) :
    ((of buffer).releaseInner place s).via speak =
      (s.endBuffer buffer).bind fun ended => pure (ended.1, ended.2, (of buffer).spent) := by
  unfold releaseInner endBuffer
  simp only [release_eq, of, Dialog.bind_eq, Dialog.via_bind, via_access, via_deallocating,
    Dialog.bind_assoc]
  rfl

theorem via_destroy (place : ι) (s : Session) (buffer : Buffer) :
    ((of buffer).destroy place s).via speak = s.dropBuffer buffer := by
  unfold destroy dropBuffer
  simp only [Dialog.bind_eq, Dialog.via_bind, via_releaseInner, Dialog.bind_assoc]
  congr 1
  funext ended
  obtain ⟨result, t⟩ := ended
  have hbuffer : (of buffer).spent.buffer = buffer := rfl
  simp only [Dialog.pure_eq, Dialog.bind_done, hbuffer]
  cases dropDiagnostic buffer result with
  | none => rfl
  | some diagnostic =>
    simp only [Dialog.via_bind, via_access]
    rfl

theorem via_release (place : ι) (s : Session) (buffer : Buffer) :
    ((of buffer).release place s).via speak = s.endBuffer buffer := by
  unfold release
  simp only [Dialog.bind_eq, Dialog.via_bind, via_releaseInner, Dialog.bind_assoc]
  exact Dialog.bind_pure _

end OwnedBuffer

/-! ## Sessions that tell their calls -/

namespace Dealings

open Dealing Session

variable {ι : Type}

/-- Puts a new buffer under a name. The object that had the name goes out of sight. -/
def keep (place : ι) (s : Session) (name : String) (buffer : Buffer) :
    Dialog (Dealings ι) Session :=
  let listed := { s with buffers := s.buffers.put name buffer }
  match s.buffers.get? name with
  | some previous => (OwnedBuffer.of previous).destroy place listed
  | none => pure listed

/-- The part of an allocation that can fail. -/
def attempt (place : ι) (s : Session) (source : Option Owner) (r : AllocationRequest) :
    Dialog (Dealings ι) (Except Fault (Option Buffer × Backends)) :=
  match source with
  | some owner => allocating place s.system.backends owner r
  | none =>
    match r.check, s.system.memory with
    | .error fault, _ => pure (.error fault)
    | .ok _, none => pure (.error (.unsupported .allocation))
    | .ok _, some owner =>
      allocating place s.system.backends owner (System.adjust s.system.config r)

def allocate (place : ι) (s : Session) (name : String) (source : Option Owner)
    (r : AllocationRequest) : Dialog (Dealings ι) Session := do
  match ← attempt place s source r with
  | .error _ => return s
  | .ok (none, backends) => return s.withBackends backends
  | .ok (some buffer, backends) => keep place (s.withBackends backends) name buffer

def release (place : ι) (s : Session) (name : String) :
    Dialog (Dealings ι) (Option (Except Fault Bool) × Session) := do
  match s.buffers.get? name with
  | none => return (none, s)
  | some buffer =>
    let (result, s) ← (OwnedBuffer.of buffer).release place
      { s with buffers := s.buffers.erase name }
    return (some result, s)

/-- Gives a buffer back through a system, be it the system of another session. -/
def handBack (through : System) (place : ι) (s : Session) (name : String) :
    Dialog (Dealings ι) (Option (Except Fault Bool) × Session) := do
  match s.buffers.get? name with
  | none => return (none, s)
  | some buffer =>
    let (result, s) ← (OwnedBuffer.of buffer).releaseThrough through place
      { s with buffers := s.buffers.erase name }
    return (some result, s)

def drop (place : ι) (s : Session) (name : String) : Dialog (Dealings ι) (Bool × Session) := do
  match s.buffers.get? name with
  | none => return (false, s)
  | some buffer =>
    return (true, ← (OwnedBuffer.of buffer).destroy place
      { s with buffers := s.buffers.erase name })

/-- The session after a verb. -/
def perform (place : ι) (s : Session) : Verb → Dialog (Dealings ι) Session
  | .allocate name source r => allocate place s name source r
  | .release name => do return (← release place s name).2
  | .drop name => do return (← drop place s name).2
  | .deallocate buffer => do
    return s.withBackends (← deallocating place s.system.backends buffer).2
  | verb => access (s.perform verb)

/-- Lets go of everything. -/
def close (place : ι) (s : Session) : Dialog (Dealings ι) Session := do
  let s ← s.buffers.names.foldlM (fun s name => perform place s (.drop name))
    { s with handles := {} }
  if s.attached then access s.detach else return s

/-! ## What is told is what the session does -/

theorem via_keep (place : ι) (s : Session) (name : String) (buffer : Buffer) :
    (keep place s name buffer).via speak = s.keep name buffer := by
  unfold keep Session.keep
  cases s.buffers.get? name with
  | none => rfl
  | some previous => exact OwnedBuffer.via_destroy place _ previous

theorem via_attempt (place : ι) (s : Session) (source : Option Owner) (r : AllocationRequest) :
    (attempt place s source r).via speak = (s.allocating source r).run := by
  cases source with
  | some owner => exact via_allocating place _ owner r
  | none =>
    unfold attempt Session.allocating System.allocate
    cases r.check with
    | error fault => rfl
    | ok valid =>
      cases s.system.memory with
      | none => rfl
      | some owner =>
        refine (via_allocating place _ owner _).trans (congrArg ExceptT.run ?_)
        have hcheck : (liftM (Except.ok valid : Except Fault Unit) : Attempt Unit) = pure valid := rfl
        simp only [hcheck, pure_bind, bind_assoc]
        exact (bind_pure _).symm

theorem via_allocate (place : ι) (s : Session) (name : String) (source : Option Owner)
    (r : AllocationRequest) :
    (allocate place s name source r).via speak = s.perform (.allocate name source r) := by
  show _ = Dialog.bind (Dialog.bind (s.allocating source r).run _) _
  rw [Dialog.bind_assoc, allocate, Dialog.bind_eq, Dialog.via_bind, via_attempt]
  congr 1
  funext outcome
  rcases outcome with fault | ⟨_ | buffer, backends⟩
  · rfl
  · rfl
  · show (keep place (s.withBackends backends) name buffer).via speak = Dialog.bind (Dialog.bind _ _) _
    rw [via_keep, Dialog.bind_assoc]
    exact (Dialog.bind_pure _).symm

theorem via_release (place : ι) (s : Session) (name : String) :
    (release place s name).via speak = s.release name := by
  unfold release Session.release
  cases s.buffers.get? name with
  | none => rfl
  | some buffer =>
    simp only [Dialog.bind_eq, Dialog.via_bind, OwnedBuffer.via_release]
    rfl

theorem via_drop (place : ι) (s : Session) (name : String) :
    (drop place s name).via speak = s.drop name := by
  unfold drop Session.drop
  cases s.buffers.get? name with
  | none => rfl
  | some buffer =>
    simp only [Dialog.bind_eq, Dialog.via_bind, OwnedBuffer.via_destroy]
    rfl

theorem via_perform (place : ι) (s : Session) (verb : Verb) :
    (perform place s verb).via speak = s.perform verb := by
  cases verb with
  | allocate name source r => exact via_allocate place s name source r
  | release name =>
    simp only [perform, Session.perform, Dialog.bind_eq, Dialog.via_bind, via_release]
    rfl
  | drop name =>
    simp only [perform, Session.perform, Dialog.bind_eq, Dialog.via_bind, via_drop]
    rfl
  | deallocate buffer =>
    simp only [perform, Dialog.bind_eq, Dialog.via_bind, via_deallocating]
    show _ = Dialog.bind (Dialog.bind _ _) _
    rw [Dialog.bind_assoc]
    rfl
  | _ => exact via_access _

theorem via_close (place : ι) (s : Session) : (close place s).via speak = s.close := by
  have hdrops := Dialog.via_foldlM (fun s name => via_perform place s (.drop name)) s.buffers.names
    { s with handles := {} }
  unfold close
  rw [Dialog.bind_eq, Dialog.via_bind, hdrops]
  refine congrArg (Dialog.bind _) ?_
  funext t
  split
  · exact via_access _
  · rfl

end Dealings

end VideoCore

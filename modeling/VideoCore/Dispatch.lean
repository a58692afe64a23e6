import VideoCore.Bus
import VideoCore.Fault
import VideoCore.Time

/-!
# Dispatches

One launch of a kernel: a pair of addresses for every QPU that takes part, the place in GPU
memory that holds the same pairs, whether the GPU caches are flushed first, and how long the
kernel may take.
-/

namespace VideoCore

/-- What one QPU starts with: the address of its uniforms and of its program. -/
structure ControlPair where
  uniforms : UInt32
  program : UInt32
  deriving DecidableEq, Repr, Inhabited

/-- One launch of a kernel. -/
structure Dispatch where
  control : List ControlPair
  /-- Where the same pairs stand in GPU memory. The firmware reads them from there; the register
  backend takes them from `control`. -/
  controlAddress : BusAddress := .null
  flushCache : Bool := false
  timeout : Duration := .zero
  deriving DecidableEq, Repr

namespace Dispatch

/-- How many programs are launched, as the firmware is told. -/
def programs (d : Dispatch) : UInt32 :=
  UInt32.ofNat d.control.length

/-- A dispatch must use at least one QPU, and no more than there are. -/
def check (d : Dispatch) : Except Fault Unit :=
  if d.control.isEmpty || d.control.length > maxQpus then
    .error (.invalidArgument (.dispatchWidth d.control.length))
  else .ok ()

/-- The timeout in whole milliseconds, if it fits the firmware's 32-bit field. -/
def timeoutMs? (d : Dispatch) : Option UInt32 :=
  if d.timeout.milliseconds < UInt32.size then some (UInt32.ofNat d.timeout.milliseconds) else none

theorem check_eq_ok_iff {d : Dispatch} :
    d.check = .ok () ↔ 1 ≤ d.control.length ∧ d.control.length ≤ maxQpus := by
  unfold check
  cases h : d.control with
  | nil => simp
  | cons p rest => simp

end Dispatch

end VideoCore

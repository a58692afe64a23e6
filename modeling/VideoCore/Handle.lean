/-!
# Completion handles

What a caller holds after a dispatch. A backend that blocks until the kernel is through gives a
handle that is already settled; one that does not gives a pending handle with a check that blocks
when it is made. The check is made once, by the first wait: its result settles the handle for
good, and a check that was cut short leaves a handle that stays pending and never passes.
-/

namespace VideoCore

/-- How far a dispatch has come, as far as its handle knows. -/
inductive ExecutionState where
  | pending
  | passed
  | failed
  deriving DecidableEq, Repr

def ExecutionState.name : ExecutionState → String
  | pending => "Pending"
  | passed => "Passed"
  | failed => "Failed"

/-- The outcome of a dispatch, or what has to be checked to learn it. -/
inductive Handle (κ : Type) where
  | settled (passed : Bool)
  | pending (check : κ)
  /-- The check was begun and cut short. -/
  | abandoned
  deriving DecidableEq, Repr

namespace Handle

variable {κ : Type}

def state : Handle κ → ExecutionState
  | settled true => .passed
  | settled false => .failed
  | pending _ => .pending
  | abandoned => .pending

/-- The handle after its check ended with a result, or was cut short. -/
def ofCheck : Option Bool → Handle κ
  | some passed => settled passed
  | none => abandoned

/-- What a wait reports of a handle that has nothing left to check. -/
def passed : Handle κ → Bool
  | settled passed => passed
  | _ => false

/-- Waits for the outcome. The result is `none` if the check was cut short by this very wait. -/
def wait.{v} {m : Type → Type v} [Monad m] (make : κ → m (Option Bool)) :
    Handle κ → m (Option Bool × Handle κ)
  | pending check => do
    let result ← make check
    return (result, ofCheck result)
  | handle => return (some handle.passed, handle)

end Handle

end VideoCore

import VideoCore.Bus
import VideoCore.Fault

/-!
# Diagnostics

What goes wrong where nobody is waiting for an answer, as when a buffer or a backend is given
up, is reported as a diagnostic.
-/

namespace VideoCore

/-- A report about something that went wrong unattended. -/
inductive Diagnostic where
  /-- A backend did not take a buffer back. -/
  | bufferRejected (handle : UInt32) (address : BusAddress)
  /-- Giving a buffer back failed. -/
  | bufferReleaseFailed (handle : UInt32) (fault : Fault)
  /-- The emulator was given back a handle that it does not know. -/
  | unknownHandle (handle : UInt32)
  /-- Shared memory could not be unlocked. -/
  | unlockFailed (handle : UInt32)
  /-- A buffer outlived the emulator. -/
  | neverReleased (handle : Nat) (size : UInt32) (address : BusAddress)
  /-- The firmware did not switch the QPUs off. -/
  | disableRefused
  /-- Switching the QPUs off failed. -/
  | disableFailed (fault : Fault)
  deriving DecidableEq, Repr

namespace Diagnostic

/-- What happened. -/
def message : Diagnostic → String
  | bufferRejected .. => "backend rejected buffer release"
  | bufferReleaseFailed .. => "failed to release buffer"
  | unknownHandle _ => "released unknown emulated buffer"
  | unlockFailed _ => "failed to unlock VCSM buffer"
  | neverReleased .. => "emulated buffer was never released"
  | disableRefused => "firmware refused to disable the QPUs"
  | disableFailed _ => "failed to disable the QPUs"

/-- The handle that the report is about. -/
def handle? : Diagnostic → Option Nat
  | bufferRejected handle _ | bufferReleaseFailed handle _ | unknownHandle handle
  | unlockFailed handle => some handle.toNat
  | neverReleased handle _ _ => some handle
  | disableRefused | disableFailed _ => none

/-- The size of the buffer that the report is about. -/
def size? : Diagnostic → Option UInt32
  | neverReleased _ size _ => some size
  | _ => none

/-- The address of the buffer that the report is about. -/
def address? : Diagnostic → Option BusAddress
  | bufferRejected _ address | neverReleased _ _ address => some address
  | _ => none

/-- The fault behind the report. -/
def fault? : Diagnostic → Option Fault
  | bufferReleaseFailed _ fault | disableFailed fault => some fault
  | _ => none

end Diagnostic

end VideoCore

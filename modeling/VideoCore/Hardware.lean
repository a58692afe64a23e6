import VideoCore.Dialog
import VideoCore.Diagnostic
import VideoCore.Time
import VideoCore.Emulator.Emulation
import VideoCore.Firmware.Message
import VideoCore.GpuService.Job
import VideoCore.Memory.Buffer
import VideoCore.SharedMemory.Cache

/-!
# The hardware, as the backends see it

The vocabulary in which the backends talk to what lies below them: property calls to the
firmware, accesses to registers, calls to the shared memory service and to the GPU service,
memory of this process, time, and a model of the QPUs. Diagnostics are part of it, so that what
a backend reports stands in order with what it does.

A dialog over this vocabulary does not know whether the calls go to devices and libraries or to a
simulation.
-/

namespace VideoCore

/-- The ways in which the GPU is reached. -/
inductive BackendKind where
  | mailbox
  | v3d
  | sharedMemory
  | gpuService
  | emulator
  deriving DecidableEq, Repr

/-- The backend that an owner of memory is. -/
def Owner.kind : Owner → BackendKind
  | .mailbox => .mailbox
  | .sharedMemory => .sharedMemory
  | .emulator => .emulator

/-- The owner that a backend is, if it provides memory. -/
def BackendKind.owner? : BackendKind → Option Owner
  | .mailbox => some .mailbox
  | .sharedMemory => some .sharedMemory
  | .emulator => some .emulator
  | .v3d | .gpuService => none

theorem Owner.owner?_kind (o : Owner) : o.kind.owner? = some o := by
  cases o <;> rfl

/-- Owners are different backends. -/
theorem Owner.kind_ne {owner other : Owner} (h : owner ≠ other) : owner.kind ≠ other.kind := by
  intro hkind
  apply h
  rw [← Option.some_inj, ← owner?_kind, ← owner?_kind, hkind]

/-- The step at which mapping physical memory failed. -/
inductive MapFailure where
  | opening (cause : Cause)
  | mapping (cause : Cause)
  deriving DecidableEq, Repr

namespace Hardware

open Firmware GpuService SharedMemory Emulator

/-- What a backend may ask of what lies below it. -/
inductive Request where
  /-- One round trip of a property message. -/
  | property (message : Message)
  | readRegister (offset : UInt32)
  | writeRegister (offset value : UInt32)
  /-- A new block of shared memory. The reply is its handle, or 0. -/
  | allocateShared (size : UInt32) (cache : CacheType) (name : String)
  /-- The bus address of a block, or 0. -/
  | sharedAddress (handle : UInt32)
  /-- Where the host sees a block, which must then be unlocked again. -/
  | lockShared (handle : UInt32)
  /-- Unlocks a block without writing the host's caches back. -/
  | unlockShared (host : HostPointer)
  | freeShared (handle : UInt32)
  /-- Writes the host's caches of some ranges back to memory. -/
  | cleanShared (ranges : List (HostPointer × UInt32))
  /-- Submits a job under a number. -/
  | submitJob (job : Job) (id : JobId)
  /-- Asks the firmware's command interpreter. -/
  | command (text : String)
  /-- Blocks until a job completes or the time is up; the reply names the jobs that completed
  while blocked. -/
  | awaitCompletion (limit : Duration)
  | readClock
  | sleep (length : Duration)
  | mapPhysical (address : UInt32) (length : Nat)
  | unmapPhysical (base : HostAddress) (length : Nat)
  | load (base : HostAddress) (offset length : Nat)
  | store (base : HostAddress) (offset : Nat) (bytes : ByteArray)
  | fileContents (path : String)
  /-- Runs a kernel on a model of the QPUs. -/
  | emulate (emulation : Emulation)
  | report (diagnostic : Diagnostic)
  /-- A product did not fit its word. Arithmetic that is checked stops the program here, any other
  goes on with the low bits. -/
  | overflow
  /-- Gives up the way to the hardware that a backend used. -/
  | retire (backend : BackendKind)

/-- The type of the reply to each request. -/
abbrev Reply : Request → Type
  | .property message => Except Cause (Vector UInt32 (message.contentWords + 6))
  | .readRegister _ => UInt32
  | .writeRegister _ _ => Unit
  | .allocateShared _ _ _ => UInt32
  | .sharedAddress _ => UInt32
  | .lockShared _ => Option HostAddress
  | .unlockShared _ => Bool
  | .freeShared _ => Unit
  | .cleanShared _ => Bool
  | .submitJob _ _ => Submission
  | .command _ => Option String
  | .awaitCompletion _ => List JobId
  | .readClock => Instant
  | .sleep _ => Unit
  | .mapPhysical _ _ => Except MapFailure HostAddress
  | .unmapPhysical _ _ => Unit
  | .load _ _ _ => ByteArray
  | .store _ _ _ => Unit
  | .fileContents _ => Except Cause ByteArray
  | .emulate _ => Emulated
  | .report _ => Unit
  | .overflow => Unit
  | .retire _ => Unit

end Hardware

/-- The vocabulary of the backends. -/
abbrev Hardware : Vocabulary := ⟨Hardware.Request, Hardware.Reply⟩

/-- A dialog with the hardware. -/
abbrev Access (α : Type) : Type 1 := Dialog Hardware α

/-- A dialog with the hardware that can end in a fault. -/
abbrev Attempt (α : Type) : Type 1 := ExceptT Fault (Dialog Hardware) α

namespace Hardware

open Firmware GpuService SharedMemory Emulator

/-- Makes an attempt and goes on either way, with what came of it. -/
def outcome {α : Type} (attempt : Attempt α) : Attempt (Except Fault α) := ExceptT.lift attempt.run

/-! ## The requests as dialogs -/

/-- Asks one thing of the hardware. -/
def ask (q : Request) : Access (Reply q) := Dialog.request (V := Hardware) q

def property (message : Message) :
    Access (Except Cause (Vector UInt32 (message.contentWords + 6))) :=
  ask (.property message)

def readRegister (offset : UInt32) : Access UInt32 := ask (.readRegister offset)

def writeRegister (offset value : UInt32) : Access Unit := ask (.writeRegister offset value)

def allocateShared (size : UInt32) (cache : CacheType) (name : String) : Access UInt32 :=
  ask (.allocateShared size cache name)

def sharedAddress (handle : UInt32) : Access UInt32 := ask (.sharedAddress handle)

def lockShared (handle : UInt32) : Access (Option HostAddress) := ask (.lockShared handle)

def unlockShared (host : HostPointer) : Access Bool := ask (.unlockShared host)

def freeShared (handle : UInt32) : Access Unit := ask (.freeShared handle)

def cleanShared (ranges : List (HostPointer × UInt32)) : Access Bool :=
  ask (.cleanShared ranges)

def submitJob (job : Job) (id : JobId) : Access Submission := ask (.submitJob job id)

def command (text : String) : Access (Option String) := ask (.command text)

def awaitCompletion (limit : Duration) : Access (List JobId) := ask (.awaitCompletion limit)

def readClock : Access Instant := ask .readClock

def sleep (length : Duration) : Access Unit := ask (.sleep length)

def unmapPhysical (base : HostAddress) (length : Nat) : Access Unit :=
  ask (.unmapPhysical base length)

def load (base : HostAddress) (offset length : Nat) : Access ByteArray :=
  ask (.load base offset length)

def store (base : HostAddress) (offset : Nat) (bytes : ByteArray) : Access Unit :=
  ask (.store base offset bytes)

/-- The contents of a file. A name that cannot be passed, as it holds the character that ends
names, is not asked for. -/
def fileContents (path : String) : Access (Except Cause ByteArray) :=
  if path.contains '\x00' then return .error .unusableName else ask (.fileContents path)

def emulate (emulation : Emulation) : Access Emulated := ask (.emulate emulation)

def report (diagnostic : Diagnostic) : Access Unit := ask (.report diagnostic)

def overflow : Access Unit := ask .overflow

def retire (backend : BackendKind) : Access Unit := ask (.retire backend)

/-- The device through which physical memory is mapped. -/
def memoryDevice : String := "/dev/mem"

/-- Maps physical memory into this process. The address need not be page aligned. -/
def mapPhysical (address : UInt32) (length : Nat) : Attempt HostAddress := do
  match ← (ask (.mapPhysical address length) : Access (Except MapFailure HostAddress)) with
  | .ok base => return base
  | .error (.opening cause) => throw (.deviceOpen memoryDevice cause)
  | .error (.mapping cause) => throw (.map address length cause)

end Hardware

end VideoCore

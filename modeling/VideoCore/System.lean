import VideoCore.Board
import VideoCore.Config
import VideoCore.Emulator
import VideoCore.GpuService
import VideoCore.Mailbox
import VideoCore.SharedMemory
import VideoCore.V3d

/-!
# The system

A system is a set of backends that are up, and a configuration that picks one of them for memory
and one for execution. Every backend that can answer a query is asked in a fixed order until one
does. A backend that is missing is simply not consulted.

The backends carry state (the emulator's slots, the numbers of submitted jobs, the poll interval),
so an operation that can change it gives the backends back.
-/

namespace VideoCore

open Hardware
open GpuService (JobWait)

/-! ## Backends -/

/-- The backends that are up. -/
structure Backends where
  mailbox : Bool := false
  v3d : Option V3d := none
  sharedMemory : Option SharedMemory := none
  gpuService : Option GpuService := none
  emulator : Option Emulator := none

namespace Backends

/-- Whether a backend is up. -/
def has (b : Backends) : BackendKind → Bool
  | .mailbox => b.mailbox
  | .v3d => b.v3d.isSome
  | .sharedMemory => b.sharedMemory.isSome
  | .gpuService => b.gpuService.isSome
  | .emulator => b.emulator.isSome

/-- Every kind of backend, in the order in which they are listed. -/
def kinds : List BackendKind := [.mailbox, .v3d, .sharedMemory, .gpuService, .emulator]

/-- Allocates from a backend. -/
def allocate (b : Backends) (owner : Owner) (r : AllocationRequest) :
    Attempt (Option Buffer × Backends) := do
  match owner with
  | .mailbox => return (← Mailbox.allocate r, b)
  | .sharedMemory => return (← SharedMemory.allocate r, b)
  | .emulator =>
    match b.emulator with
    | none => return (none, b)
    | some e =>
      let (buffer, e) ← e.allocate r
      return (buffer, { b with emulator := some e })

/-- Has the owner of a buffer take it back. -/
def deallocate (b : Backends) (buffer : Buffer) : Access (Except Fault Bool × Backends) := do
  match buffer.owner with
  | .mailbox => return (← (Mailbox.deallocate buffer.handle).run, b)
  | .sharedMemory =>
    return (.ok (← SharedMemory.deallocate buffer.handle buffer.host.pointer), b)
  | .emulator =>
    match b.emulator with
    | none => return (.ok false, b)
    | some e =>
      let (known, e) ← e.deallocate buffer.handle
      return (.ok known, { b with emulator := some e })

/-- Ends a buffer: a mapping that belongs to it is undone before its owner takes it back. -/
def release (b : Backends) (buffer : Buffer) : Access (Except Fault Bool × Backends) := do
  match buffer.host with
  | .mapped base => unmapPhysical base buffer.size.toNat
  | _ => pure ()
  b.deallocate buffer

/-- Has a backend execute a dispatch. -/
def execute (b : Backends) (kind : BackendKind) (d : Dispatch) :
    Attempt (Handle JobWait × Backends) := do
  match kind with
  | .mailbox => return (← Mailbox.execute d, b)
  | .v3d =>
    match b.v3d with
    | none => throw (.unsupported .execution)
    | some v => return (← v.execute d, b)
  | .gpuService =>
    match b.gpuService with
    | none => throw (.unsupported .execution)
    | some g =>
      let (handle, g) ← g.execute d
      return (handle, { b with gpuService := some g })
  | .emulator =>
    match b.emulator with
    | none => throw (.unsupported .execution)
    | some e =>
      let (handle, e) ← e.execute d
      return (handle, { b with emulator := some e })
  | .sharedMemory => throw (.unsupported .execution)

/-- Stops a backend. -/
def stop (b : Backends) : BackendKind → Access Unit
  | .mailbox => Mailbox.stop
  | .v3d => retire .v3d
  | .sharedMemory => SharedMemory.stop
  | .gpuService => GpuService.stop
  | .emulator => match b.emulator with
    | some e => e.stop
    | none => pure ()

/-- The part of a buffer's memory at an offset, as the host sees it. The range must lie in the
buffer. -/
def readBuffer? (b : Backends) (buffer : Buffer) (offset length : Nat) :
    Access (Option ByteArray) := do
  if buffer.size.toNat < offset + length then return none
  match buffer.host with
  | .mapped base | .borrowed base => return some (← load base offset length)
  | .slot index =>
    return (b.emulator.bind fun e => e.slots.get? index).bind fun slot =>
      slot.block.read? offset length

/-- Overwrites a part of a buffer's memory. Nothing is written unless all of it lies in the
buffer. -/
def writeBuffer? (b : Backends) (buffer : Buffer) (offset : Nat) (bytes : ByteArray) :
    Access (Option Backends) := do
  if buffer.size.toNat < offset + bytes.size then return none
  match buffer.host with
  | .mapped base | .borrowed base =>
    store base offset bytes
    return some b
  | .slot index =>
    return b.emulator.map fun e =>
      let slots := e.slots.modify index fun block => (block.write? offset bytes).getD block
      { b with emulator := some { e with slots } }

/-- All bytes of a buffer, as the host sees them. -/
def allBytes? (b : Backends) (buffer : Buffer) : Access (Option ByteArray) :=
  b.readBuffer? buffer 0 buffer.size.toNat

/-- The word at an offset into a buffer. An offset so large that the end of the word is past the last
number of the machine is refused like any other that leaves the buffer. -/
def readWord? (b : Backends) (buffer : Buffer) (offset : Nat) : Access (Option UInt32) := do
  return (← b.readBuffer? buffer offset 4).bind Block.wordOf?

/-- Overwrites a part of a buffer with words. -/
def writeWords? (b : Backends) (buffer : Buffer) (offset : Nat) (words : List UInt32) :
    Access (Option Backends) :=
  b.writeBuffer? buffer offset (Block.ofWords words)

end Backends

/-! ## Systems -/

/-- Backends under a configuration. -/
structure System where
  config : Config
  backends : Backends := {}

namespace System

/-- Composes backends that are up according to a configuration. -/
def ofBackends (config : Config) (backends : Backends) : System :=
  let v3d := backends.v3d.map (·.setPollInterval config.pollInterval)
  { config, backends := { backends with v3d } }

/-- The backend that memory is meant to come from. -/
def preferredMemory (c : Config) : Owner :=
  if c.emulated then .emulator
  else match c.memory with
    | .mailbox => .mailbox
    | .shared | .sharedPool => .sharedMemory

/-- The backend that memory comes from. -/
def memory (s : System) : Option Owner :=
  let owner := preferredMemory s.config
  if s.backends.has owner.kind then some owner else none

/-- The backend that kernels are meant to execute through. -/
def preferredExecution (c : Config) : BackendKind :=
  if c.emulated then .emulator
  else match c.execution with
    | .registers => .v3d
    | .mailbox => .mailbox
    | .gpuService => .gpuService

/-- The backend that kernels execute through. -/
def execution (s : System) : Option BackendKind :=
  let kind := preferredExecution s.config
  if s.backends.has kind then some kind else none

/-- The backends in the order in which a system lets go of them: first those that it has picked for
nothing, as they are listed, then the one that memory comes from, and the one that executes. -/
def teardownOrder (s : System) : List BackendKind :=
  let picked := (s.memory.map Owner.kind).toList ++ s.execution.toList
  Backends.kinds.filter (· ∉ picked) ++ picked

/-- The name of the memory backend. -/
def memoryName (s : System) : String :=
  match s.memory with
  | some .mailbox => "mailbox"
  | some .sharedMemory =>
    if s.backends.sharedMemory.any (·.usesPool) then "vcsm-cma" else "vcsm"
  | some .emulator => "emulator"
  | none => "none"

/-- The name of the execution backend. -/
def executionName (s : System) : String :=
  match s.execution with
  | some .v3d => "v3d"
  | some .mailbox => "mailbox"
  | some .gpuService => "vchi"
  | some .emulator => "emulator"
  | some .sharedMemory | none => "none"

def executesByRegisters (s : System) : Bool := s.execution == some .v3d

/-! ### Queries -/

/-- Asks a list of sources until one answers. -/
def firstAnswer : List (Access (Option UInt32)) → Access (Option UInt32)
  | [] => return none
  | source :: rest => do
    match ← source with
    | some value => return some value
    | none => firstAnswer rest

/-- The sources of a query, in the order in which they are asked. -/
def sources (b : Backends) (q : SystemQuery) : List (Access (Option UInt32)) :=
  (b.sharedMemory.map (·.readValue q)).toList
    ++ (if b.v3d.isSome then [V3d.readValue q] else [])
    ++ (if b.gpuService.isSome then [GpuService.readValue q] else [])
    ++ (if b.mailbox then [Mailbox.readValue q] else [])

/-- Asks the backends in order until one answers. An emulated system asks the emulator alone. -/
def query (s : System) (q : SystemQuery) : Access (Option UInt32) :=
  if s.config.emulated then
    return if s.backends.emulator.isSome then some (Emulator.readValue q) else none
  else firstAnswer (sources s.backends q)

/-- The answer to a query, or the default if there is none. -/
def queryOrDefault (s : System) (q : SystemQuery) : Access UInt32 := do
  return (← s.query q).getD q.default

def totalGpuMemory (s : System) : Access UInt32 := s.queryOrDefault .totalGpuMemoryBytes

def numQpus (s : System) : Access UInt32 := s.queryOrDefault .numQpus

def qpuClockRate (s : System) : Access UInt32 := s.queryOrDefault .currentQpuClockRateHz

def gpuTemperature (s : System) : Access UInt32 := s.queryOrDefault .qpuTemperatureMilliDegrees

def totalVpmMemory (s : System) : Access UInt32 := s.queryOrDefault .totalVpmMemoryBytes

/-- The board, if the mailbox is up and answers. -/
def board (s : System) : Access (Option Board) := do
  if !s.backends.mailbox then return none
  match ← Mailbox.boardRevision.run with
  | .ok (some revision) => return some (.ofRevision revision)
  | _ => return none

/-! ### Memory and execution -/

/-- A request as the memory backend gets it: with the forced cache policy, and page aligned. -/
def adjust (c : Config) (r : AllocationRequest) : AllocationRequest :=
  { r with
    cache := c.forcedCache.getD r.cache
    alignment := max r.alignment BusAddress.pageAlignment }

/-- Allocates a buffer from the memory backend. Nothing is returned if the backend refuses. -/
def allocate (s : System) (r : AllocationRequest) : Attempt (Option Buffer × System) := do
  r.check
  match s.memory with
  | none => throw (.unsupported .allocation)
  | some owner =>
    let (buffer, backends) ← s.backends.allocate owner (adjust s.config r)
    return (buffer, { s with backends })

/-- Executes a dispatch through the execution backend. -/
def execute (s : System) (d : Dispatch) : Attempt (Handle JobWait × System) := do
  d.check
  match s.execution with
  | none => throw (.unsupported .execution)
  | some kind =>
    let (handle, backends) ← s.backends.execute kind d
    return (handle, { s with backends })

/-- Writes the host's caches of some buffers back. Only shared memory is cached by the host. -/
def flushCpuCache (s : System) (buffers : List Buffer) : Access Bool :=
  match s.memory with
  | some .sharedMemory => SharedMemory.flushCpuCache buffers
  | some .mailbox | some .emulator => return true
  | none => return false

end System

end VideoCore

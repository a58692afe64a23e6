import VideoCore.Time
import VideoCore.Memory.Allocation

/-!
# Configuration

Which backends a system uses, and how. Privileged users have the register block and the mailbox;
everybody else has the GPU service and shared memory.
-/

namespace VideoCore

/-- How kernels reach the QPUs. -/
inductive ExecutionMode where
  /-- Write the queue registers of the mapped V3D block; needs privileges. -/
  | registers
  /-- Ask the firmware by a property message. -/
  | mailbox
  /-- Submit jobs to the firmware's GPU service. -/
  | gpuService
  deriving DecidableEq, Repr

/-- Where memory comes from. -/
inductive MemoryMode where
  /-- From the firmware, mapped as physical memory; needs privileges. -/
  | mailbox
  /-- From the shared memory service. -/
  | shared
  /-- From the shared memory service, out of the pool of contiguous memory. -/
  | sharedPool
  deriving DecidableEq, Repr

/-- The configuration of a system. It does not change once the system is built. -/
structure Config where
  /-- Everything goes to the emulator. -/
  emulated : Bool := false
  execution : ExecutionMode
  memory : MemoryMode
  /-- A cache policy that takes the place of whatever is asked for. -/
  forcedCache : Option CachePolicy := none
  disableMailbox : Bool := false
  disableV3d : Bool := false
  disableSharedMemory : Bool := false
  disableGpuService : Bool := false
  /-- The register block is mapped for its performance counters even when nothing executes
  through it. -/
  performanceCounters : Bool := false
  /-- How long to sleep between two polls of the completion count; zero spins. -/
  pollInterval : Duration := .zero
  deriving DecidableEq, Repr

namespace Config

/-- The configuration for a user with or without privileges. -/
def forPrivileges (privileged : Bool) : Config :=
  if privileged then { execution := .registers, memory := .mailbox }
  else { execution := .gpuService, memory := .sharedPool }

/-- The configuration that needs no privileges. -/
def standard : Config := forPrivileges false

/-- The configuration of a fully emulated system. -/
def fullyEmulated : Config := { forPrivileges false with emulated := true }

/-- Whether the mailbox is opened. It powers the QPUs for as long as it is open, so it is opened
only if memory or execution depend on it. -/
def activatesMailbox (c : Config) : Bool :=
  !c.emulated && !c.disableMailbox && (c.memory == .mailbox || c.execution == .mailbox)

/-- Whether the shared memory service is opened. -/
def activatesSharedMemory (c : Config) : Bool :=
  !c.emulated && !c.disableSharedMemory && c.memory != .mailbox

/-- Whether execution depends on the register block. -/
def needsV3d (c : Config) : Bool := c.execution == .registers

/-- Whether the register block is mapped. -/
def activatesV3d (c : Config) : Bool :=
  !c.emulated && !c.disableV3d && (c.needsV3d || c.performanceCounters)

/-- Whether the GPU service is connected to. -/
def activatesGpuService (c : Config) : Bool :=
  !c.emulated && !c.disableGpuService && c.execution == .gpuService

end Config

end VideoCore

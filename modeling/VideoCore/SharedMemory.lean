import VideoCore.Hardware
import VideoCore.Query
import VideoCore.SharedMemory.CmaPool

/-!
# The shared memory backend

Allocates through the shared memory service of the VideoCore, which works without privileges. If
the service draws on the kernel's pool of contiguous memory, the size of that pool is the total
memory of the GPU.
-/

namespace VideoCore

/-- The state of the shared memory backend. -/
structure SharedMemory where
  /-- The service draws on the pool of contiguous memory. -/
  usesPool : Bool
  /-- The memory report that lists the size of the pool. -/
  memoryReport : String := "/proc/meminfo"
  deriving DecidableEq, Repr

namespace SharedMemory

open Hardware

/-! ## Size of the pool -/

/-- The size of the pool of contiguous memory, at most what fits a word. -/
def totalGpuMemory (s : SharedMemory) : Attempt UInt32 := do
  if !s.usesPool then throw (.unsupported .poolSizeWithoutPool)
  match ← fileContents s.memoryReport with
  | .error cause => throw (.deviceOpen s.memoryReport cause)
  | .ok bytes =>
    match String.fromUTF8? bytes with
    | none => throw (.deviceOpen s.memoryReport .notText)
    | some report =>
      match poolSize? report with
      | none => throw (.unsupported .poolSizeUnlisted)
      | some size =>
        if poolOverflows report then overflow
        return UInt32.ofNat (min size.toNat (UInt32.size - 1))

/-- Answers a system query; a fault counts as no answer. -/
def readValue (s : SharedMemory) (q : SystemQuery) : Access (Option UInt32) := do
  if q ≠ .totalGpuMemoryBytes then return none
  match ← s.totalGpuMemory.run with
  | .ok size => return some size
  | .error _ => return none

/-! ## Buffers -/

/-- The name under which the service lists a block. A name that the service could not take, as
it holds the character that ends texts there, is left out. -/
def listedName (name : String) : String :=
  if name.contains '\x00' then "" else name

/-- Allocates and locks a buffer. If the service refuses, or gives a block that is not aligned as
it was asked for, everything is given back and nothing is returned. -/
def allocate (r : AllocationRequest) : Attempt (Option Buffer) := do
  r.check
  let handle ← allocateShared r.size (.ofPolicy r.cache) (listedName r.name)
  if handle = 0 then return none
  match ← lockShared handle with
  | none =>
    freeShared handle
    return none
  | some host =>
    let address ← sharedAddress handle
    if address = 0 || address % r.alignment ≠ 0 then
      discard (unlockShared (.address host) : Access Bool)
      freeShared handle
      return none
    return some
      { owner := .sharedMemory, handle, address := ⟨address⟩, host := .borrowed host, size := r.size }

/-- Takes a block back. The answer is whether it could be unlocked; it is freed in any case. -/
def deallocate (handle : UInt32) (host : HostPointer) : Access Bool := do
  let unlocked ← unlockShared host
  if !unlocked then report (.unlockFailed handle)
  freeShared handle
  return unlocked

/-- Writes the host's caches of some buffers back to memory. -/
def flushCpuCache (buffers : List Buffer) : Access Bool :=
  cleanShared (buffers.map fun b => (b.host.pointer, b.size))

/-- Gives the service up. -/
def stop : Access Unit := retire .sharedMemory

end SharedMemory

end VideoCore

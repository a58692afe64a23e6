import VideoCore.Memory.Allocation

/-!
# Cache types of the shared memory service

The shared memory service has its own names and numbers for cache policies, and a bit that asks
for memory up front instead of on first access.
-/

namespace VideoCore.SharedMemory

/-- Which sides may cache a block of shared memory. -/
inductive CacheType where
  | none
  | host
  | videoCore
  | hostAndVideoCore
  deriving DecidableEq, Repr

namespace CacheType

/-- The cache type for a policy. -/
def ofPolicy : CachePolicy → CacheType
  | .uncached => none
  | .hostCached => host
  | .gpuCached => videoCore
  | .bothCached => hostAndVideoCore

/-- The service's number for a cache type. -/
def number : CacheType → UInt32
  | none => 0
  | host => 1
  | videoCore => 2
  | hostAndVideoCore => 3

def name : CacheType → String
  | none => "None"
  | host => "Host"
  | videoCore => "VideoCore"
  | hostAndVideoCore => "HostAndVideoCore"

/-- Asks for memory up front instead of on first access. -/
def pinned : UInt32 := 0x80

/-- The number as the library takes it, with the pinned bit set. -/
def pinnedFlags (c : CacheType) : UInt32 := c.number ||| pinned

end CacheType

end VideoCore.SharedMemory

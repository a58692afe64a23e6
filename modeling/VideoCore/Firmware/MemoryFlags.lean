import VideoCore.Memory.Allocation

/-!
# Memory flags

The flags of the firmware's memory allocator. Two bits select the cache alias of the block; the
others say how it is filled, whether it may be discarded and where it may lie.
-/

namespace VideoCore.Firmware

/-- A set of allocation flags, as the firmware takes it. -/
structure MemoryFlags where
  bits : UInt32
  deriving DecidableEq, Repr

namespace MemoryFlags

/-- Can be resized to 0 at any time. -/
def discardable : MemoryFlags := ⟨1⟩

/-- Allocate from the first 256 MB. -/
def low256M : MemoryFlags := ⟨2⟩

/-- Cached on both levels. -/
def normal : MemoryFlags := ⟨0⟩

/-- Not cached. -/
def direct : MemoryFlags := ⟨4⟩

/-- Cached on the second level only. -/
def coherent : MemoryFlags := ⟨8⟩

/-- Allocating on the second level. -/
def l1NonAllocating : MemoryFlags := ⟨direct.bits ||| coherent.bits⟩

/-- Filled with zeros. -/
def zero : MemoryFlags := ⟨16⟩

/-- Not filled at all; the default is all ones. -/
def noInit : MemoryFlags := ⟨32⟩

/-- Likely to be locked for long periods of time. -/
def hintPermalock : MemoryFlags := ⟨64⟩

/-- The flags under the names that the firmware's documentation gives them. -/
def named : List (String × MemoryFlags) :=
  [("DISCARDABLE", discardable), ("NORMAL", normal), ("DIRECT", direct), ("COHERENT", coherent),
   ("L1_NONALLOCATING", l1NonAllocating), ("ZERO", zero), ("NO_INIT", noInit),
   ("HINT_PERMALOCK", hintPermalock), ("LOW_256M", low256M)]

/-- The flags for a cache policy. -/
def ofCachePolicy : CachePolicy → MemoryFlags
  | .uncached => direct
  | .gpuCached => normal
  | .hostCached | .bothCached => l1NonAllocating

end MemoryFlags

end VideoCore.Firmware

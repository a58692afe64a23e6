import VideoCore.Bus
import VideoCore.Fault

/-!
# Allocation requests

What a caller asks of a memory backend: how many bytes, at what alignment, which side of the bus
may cache them, and under what name. A request for no bytes or for an alignment that is not a
power of two is a mistake of the caller and is turned away before any backend sees it.
-/

namespace VideoCore

/-- Which sides of the bus may cache a buffer. -/
inductive CachePolicy where
  | uncached
  | hostCached
  | gpuCached
  | bothCached
  deriving DecidableEq, Repr

namespace CachePolicy

def all : List CachePolicy := [uncached, hostCached, gpuCached, bothCached]

/-- The policy's number. -/
def index : CachePolicy → Nat
  | uncached => 0
  | hostCached => 1
  | gpuCached => 2
  | bothCached => 3

/-- The policy with a number, if there is one. -/
def ofIndex? (index : Nat) : Option CachePolicy :=
  all[index]?

def name : CachePolicy → String
  | uncached => "Uncached"
  | hostCached => "HostCached"
  | gpuCached => "GpuCached"
  | bothCached => "BothCached"

theorem ofIndex?_index (c : CachePolicy) : ofIndex? c.index = some c := by cases c <;> rfl

end CachePolicy

/-- Whether a word is a power of two: exactly one bit is set. -/
def isPowerOfTwo (n : UInt32) : Bool :=
  n != 0 && n &&& (n - 1) == 0

/-- The parameters of one allocation. -/
structure AllocationRequest where
  size : UInt32
  /-- Must be a power of two. Backends may raise it to a page. -/
  alignment : UInt32 := BusAddress.pageAlignment
  cache : CachePolicy := .bothCached
  /-- For the listings of the shared memory service, the only backend that records it. -/
  name : String := "vc4-hal"
  deriving DecidableEq, Repr

/-- Turns away a request that no backend could serve. -/
def AllocationRequest.check (request : AllocationRequest) : Except Fault Unit :=
  if request.size = 0 then .error (.invalidArgument .emptyBuffer)
  else if isPowerOfTwo request.alignment then .ok ()
  else .error (.invalidArgument (.alignment request.alignment))

theorem AllocationRequest.check_eq_ok_iff {request : AllocationRequest} :
    request.check = .ok () ↔ request.size ≠ 0 ∧ isPowerOfTwo request.alignment = true := by
  unfold check
  split
  · simp [*]
  · split <;> simp [*]

end VideoCore

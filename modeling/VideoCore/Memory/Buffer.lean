import VideoCore.Bus

/-!
# Buffers

A live allocation: the handle under which its backend knows it, where the GPU and the host see
it, and how long it is. A buffer belongs to the backend that allocated it, and only that backend
can take it back.
-/

namespace VideoCore

/-- The backends that can own memory. -/
inductive Owner where
  | mailbox
  | sharedMemory
  | emulator
  deriving DecidableEq, Repr

/-- An address in the memory of this process. -/
structure HostAddress where
  value : Nat
  deriving DecidableEq, Repr, Inhabited

/-- Where the host sees a buffer. -/
inductive HostMemory where
  /-- A mapping of physical memory that belongs to the buffer and is undone with it. -/
  | mapped (base : HostAddress)
  /-- Memory that the allocating service maps and unmaps. -/
  | borrowed (base : HostAddress)
  /-- The memory of a slot of the emulator. -/
  | slot (index : Nat)
  deriving DecidableEq, Repr

/-- A pointer into the memory of this process: an address that was given from outside, or the start of
what the emulator has for a slot, wherever that lies. -/
inductive HostPointer where
  | address (base : HostAddress)
  | slot (index : Nat)
  deriving DecidableEq, Repr

/-- Where the host sees the first byte. -/
def HostMemory.pointer : HostMemory → HostPointer
  | .mapped base | .borrowed base => .address base
  | .slot index => .slot index

/-- A live allocation. -/
structure Buffer where
  owner : Owner
  /-- Never 0. -/
  handle : UInt32
  address : BusAddress
  host : HostMemory
  size : UInt32
  deriving DecidableEq, Repr

end VideoCore

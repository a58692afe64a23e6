import VideoCore.Emulator.Emulation

/-!
# The slots of the emulator

A table of 128 slots. A slot is free or holds the memory of one buffer: its nominal size, and a
block of the rounded size. Handles count from 1, so the buffer in slot `i` has the handle
`i + 1`. A new buffer takes the lowest free slot.
-/

namespace VideoCore.Emulator

/-- The memory of one buffer. -/
structure Slot where
  /-- The size that was asked for. -/
  size : UInt32
  block : Block
  block_size : block.size = roundedSize size

/-- The slot of a new buffer: all zeros. -/
def Slot.zeroed (size : UInt32) (fits : size.toNat ≤ largestSize := by decide) : Slot :=
  ⟨size, .zeroed (roundedWord size).toNat, (Block.size_zeroed _).trans (toNat_roundedWord_iff.mpr fits)⟩

/-- The slot with other contents, which must have the same length. -/
def Slot.withBlock (slot : Slot) (block : Block) : Slot :=
  if h : block.size = slot.block.size then { slot with block, block_size := h.trans slot.block_size }
  else slot

/-- The table of all slots. -/
structure SlotTable where
  slots : Vector (Option Slot) slotCount

namespace SlotTable

/-- A table of free slots. -/
def empty : SlotTable :=
  ⟨Vector.replicate slotCount none⟩

/-- The buffer in a slot, if there is one. -/
def get? (t : SlotTable) (index : Nat) : Option Slot :=
  t.slots[index]?.join

/-- The table with one slot filled or freed. -/
def put (t : SlotTable) (index : Nat) (slot : Option Slot) : SlotTable :=
  ⟨t.slots.setIfInBounds index slot⟩

/-- The lowest free slot. -/
def firstFree? (t : SlotTable) : Option Nat :=
  (List.range slotCount).find? fun i => (t.get? i).isNone

/-- Puts a new buffer into the lowest free slot, unless it is larger than the slot's window or no
slot is free. -/
def allocate? (t : SlotTable) (size : UInt32) (fits : size.toNat ≤ largestSize) :
    Option (Nat × SlotTable) :=
  if window < (roundedWord size).toNat then none
  else t.firstFree?.map fun i => (i, t.put i (some (.zeroed size fits)))

/-- The slot that a handle stands for. -/
def indexOf? (handle : UInt32) : Option Nat :=
  if handle = 0 then none else some (handle.toNat - 1)

/-- The handle of the buffer in a slot. -/
def handleOf (index : Nat) : UInt32 :=
  UInt32.ofNat (index + 1)

/-- Whether a handle stands for a live buffer. -/
def isLive (t : SlotTable) (handle : UInt32) : Bool :=
  match indexOf? handle with
  | some index => (t.get? index).isSome
  | none => false

/-- The table with the buffer of a handle freed; nothing if there is no such buffer. -/
def release? (t : SlotTable) (handle : UInt32) : Option SlotTable :=
  if t.isLive handle then (indexOf? handle).map fun i => t.put i none else none

/-- The live buffers with their slots, in ascending order. -/
def live (t : SlotTable) : List (Nat × Slot) :=
  (List.range slotCount).filterMap fun i => (t.get? i).map (i, ·)

/-- Every live buffer under its bus address, in ascending order. -/
def regions (t : SlotTable) : List Region :=
  t.live.map fun (i, slot) => ⟨slotAddress i, slot.block⟩

/-- The words at a bus address, if they lie in one live buffer. -/
def words? (t : SlotTable) (address : BusAddress) (count : Nat) : Option (List UInt32) := do
  let (index, offset) := locate address
  let slot ← t.get? index
  let bytes ← slot.block.read? offset (4 * count)
  return Word.listOfBytes bytes.data.toList

/-- The table after a model of the QPUs worked on its regions. Memory that the model was not
given is not taken from it. -/
def absorb (t : SlotTable) (memory : List Region) : SlotTable :=
  t.live.foldl (fun t (i, slot) =>
    match memory.find? fun region => region.address == slotAddress i with
    | some region => t.put i (some (slot.withBlock region.block))
    | none => t) t

/-- The table after the host changed the contents of a slot. -/
def modify (t : SlotTable) (index : Nat) (change : Block → Block) : SlotTable :=
  match t.get? index with
  | some slot => t.put index (some (slot.withBlock (change slot.block)))
  | none => t

@[simp] theorem get?_empty (index : Nat) : empty.get? index = none := by
  simp only [get?, empty, Vector.getElem?_replicate]
  split <;> rfl

theorem get?_put_self (t : SlotTable) {index : Nat} (slot : Option Slot) (h : index < slotCount) :
    (t.put index slot).get? index = slot := by
  simp [get?, put, h]

theorem get?_put_of_ne (t : SlotTable) {index other : Nat} (slot : Option Slot) (h : index ≠ other) :
    (t.put index slot).get? other = t.get? other := by
  simp [get?, put, h]

end SlotTable

end VideoCore.Emulator

import VideoCore.V3d.Layout

/-!
# A simulated register block

The V3D registers in memory, with the side effects that dispatching and counting rely on: the
queue status and the error status clear the bits that are written as 1, queueing a program
advances the count of requests, performance counters are cleared by a mask, and a block without
power reads as one fixed value and keeps what is stored. Programs complete when they are told
to, or at once if the block is set so.
-/

namespace VideoCore.V3d

/-- How many registers the block has. -/
def registerCount : Nat := blockLength / 4

/-- The state of a simulated register block. -/
structure RegisterFile where
  registers : Vector UInt32 registerCount
  /-- Programs complete as soon as they are queued. -/
  autoComplete : Bool := false
  /-- The block has no power. -/
  powerGated : Bool := false

namespace RegisterFile

/-- The register that holds the word at an offset. -/
def index (offset : UInt32) : Nat := offset.toNat / 4

/-- Whether an offset lies in the block. -/
def Contains (offset : UInt32) : Prop := index offset < registerCount

instance (offset : UInt32) : Decidable (Contains offset) :=
  inferInstanceAs (Decidable (index offset < registerCount))

/-- What is stored in a register, with or without power; 0 outside the block. -/
def get (file : RegisterFile) (offset : UInt32) : UInt32 :=
  file.registers[index offset]?.getD 0

/-- Stores into a register without any side effect. -/
def set (file : RegisterFile) (offset value : UInt32) : RegisterFile :=
  { file with registers := file.registers.setIfInBounds (index offset) value }

/-- A VideoCore IV: three slices of four QPUs with two texture units each, 12 KiB of vertex pipe
memory of which 4 KiB are for user programs, 16 semaphores, revision 1. -/
def videoCoreIV : RegisterFile :=
  let blank : RegisterFile := { registers := Vector.replicate registerCount 0 }
  ((blank.set Reg.ident0 (((2 : UInt32) <<< 24) ||| identLetters)).set Reg.ident1
    (((12 : UInt32) <<< 28) ||| ((16 : UInt32) <<< 16) ||| ((2 : UInt32) <<< 12)
      ||| ((4 : UInt32) <<< 8) ||| ((3 : UInt32) <<< 4) ||| 1)).set
    Reg.vpmbase 16

/-- Adds to one of the eight-bit counts of the queue status, modulo 256. -/
def addCount (status shift count : UInt32) : UInt32 :=
  let field := (((status >>> shift) &&& countMask) + count) &&& countMask
  (status &&& ~~~(countMask <<< shift)) ||| (field <<< shift)

/-- Marks some more user programs as completed. -/
def completePrograms (file : RegisterFile) (count : UInt32) : RegisterFile :=
  file.set Reg.srqcs (addCount (file.get Reg.srqcs) completedShift count)

/-- What a read of a register sees. -/
def read (file : RegisterFile) (offset : UInt32) : UInt32 :=
  if file.powerGated then gatedValue else file.get offset

/-- The queue status after a write to it: bits written as 1 clear what they stand for. -/
def clearStatus (status value : UInt32) : UInt32 :=
  let status := if value &&& queueError ≠ 0 then status &&& ~~~queueError else status
  let status :=
    if value &&& clearRequested ≠ 0 then status &&& ~~~(countMask <<< requestedShift) else status
  if value &&& clearCompleted ≠ 0 then status &&& ~~~(countMask <<< completedShift) else status

/-- The queue status after a program was queued. -/
def countRequest (autoComplete : Bool) (status : UInt32) : UInt32 :=
  let status := addCount status requestedShift 1
  if autoComplete then addCount status completedShift 1 else status

/-- The block with the performance counters of a mask cleared. -/
def clearCounters (file : RegisterFile) (mask : UInt32) : RegisterFile :=
  (List.range counterCount.toNat).foldl (fun file i =>
    if mask &&& ((1 : UInt32) <<< UInt32.ofNat i) ≠ 0 then file.set (Reg.counterValue (UInt8.ofNat i)) 0
    else file) file

/-- A write to a register, with its side effects. -/
def write (file : RegisterFile) (offset value : UInt32) : RegisterFile :=
  if offset = Reg.srqcs then
    file.set Reg.srqcs (clearStatus (file.get Reg.srqcs) value)
  else if offset = Reg.srqpc then
    let file := file.set Reg.srqpc value
    file.set Reg.srqcs (countRequest file.autoComplete (file.get Reg.srqcs))
  else if offset = Reg.errstat then
    file.set Reg.errstat (file.get Reg.errstat &&& ~~~value)
  else if offset = Reg.pctrc then
    file.clearCounters value
  else
    file.set offset value

/-- Replaces the bits of a register that a mask selects. -/
def writeMasked (file : RegisterFile) (offset mask value : UInt32) : RegisterFile :=
  file.write offset ((file.read offset &&& ~~~mask) ||| (value &&& mask))

theorem get_set_self {file : RegisterFile} {offset value : UInt32} (h : Contains offset) :
    (file.set offset value).get offset = value := by
  simp only [get, set, Contains] at *
  rw [Vector.getElem?_setIfInBounds]
  simp [h]

theorem get_set_of_ne {file : RegisterFile} {offset other value : UInt32}
    (h : index offset ≠ index other) : (file.set offset value).get other = file.get other := by
  simp only [get, set]
  rw [Vector.getElem?_setIfInBounds]
  simp [h]

end RegisterFile

end VideoCore.V3d

import VideoCore.Emulator.Emulation

/-!
# Accesses to regions

What a model of the QPUs does with the memory that it was given. An access names a place in a region
and a number of bytes, both of them words of the machine, and a single check stands before the copy:
the range must end inside the region. The end may be no word of the machine any more, and then the
range is in no region.
-/

namespace VideoCore.Emulator

/-- The sum of two words of the machine, unless it is too large for one. -/
def checkedAdd? (a b : USize) : Option USize :=
  -- a sum that has wrapped around is less than what was added to
  if a ≤ a + b then some (a + b) else none

namespace Region

/-- The length of a region in bytes. -/
def size (region : Region) : Nat := region.block.size

/-- Whether a range of bytes lies in a region. -/
def contains (region : Region) (offset length : USize) : Bool :=
  (checkedAdd? offset length).any fun stop => stop.toNat ≤ region.size

/-- Fills `out` with the bytes from an offset on. The answer is whether they lie in the region; if
they do not, `out` is left as it is. -/
def read (region : Region) (offset : USize) (out : ByteArray) : Bool × ByteArray :=
  if region.contains offset out.usize then
    (true, region.block.bytes.copySlice offset.toNat out 0 out.size)
  else (false, out)

/-- Puts bytes at an offset. The answer is whether they fit in; if they do not, the region is left as
it is. -/
def write (region : Region) (offset : USize) (bytes : ByteArray) : Bool × Region :=
  if region.contains offset bytes.usize then
    (true, { region with
      block := ⟨bytes.copySlice 0 region.block.bytes offset.toNat bytes.size⟩ })
  else (false, region)

/-- The word at an offset. -/
def readWord? (region : Region) (offset : USize) : Option UInt32 :=
  let (inside, bytes) := region.read offset ⟨Array.replicate 4 0⟩
  if inside then Block.wordOf? bytes else none

/-- Puts a word at an offset. -/
def writeWord (region : Region) (offset : USize) (word : UInt32) : Bool × Region :=
  region.write offset (Block.ofWords [word])

end Region

end VideoCore.Emulator

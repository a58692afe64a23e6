import VideoCore.Memory.Word

/-!
# Blocks of memory

A block is a row of bytes of fixed length. Every access names an offset and a length and is
refused when the range leaves the block: a refused read has no answer and a refused write no
result, so nothing is ever half written. Words are read and written at any offset, aligned or
not.
-/

namespace VideoCore

/-- A block of memory. -/
structure Block where
  bytes : ByteArray

namespace Block

/-- The number of bytes of a block. -/
def size (block : Block) : Nat :=
  block.bytes.size

/-- A block of zeros. -/
def zeroed (size : Nat) : Block :=
  ⟨⟨Array.replicate size 0⟩⟩

/-- The `length` bytes at `offset`. -/
def read? (block : Block) (offset length : Nat) : Option ByteArray :=
  if offset + length ≤ block.size then some (block.bytes.extract offset (offset + length)) else none

/-- The block with `bytes` at `offset`. -/
def write? (block : Block) (offset : Nat) (bytes : ByteArray) : Option Block :=
  if offset + bytes.size ≤ block.size then
    some ⟨bytes.copySlice 0 block.bytes offset bytes.size⟩
  else none

/-- The word that four bytes make. -/
def wordOf? (bytes : ByteArray) : Option UInt32 :=
  match bytes.data.toList with
  | [b₀, b₁, b₂, b₃] => some (Word.ofBytes b₀ b₁ b₂ b₃)
  | _ => none

/-- The bytes of a row of words. -/
def ofWords (words : List UInt32) : ByteArray :=
  ⟨(words.flatMap Word.toBytes).toArray⟩

/-- The word at `offset`. -/
def readWord? (block : Block) (offset : Nat) : Option UInt32 :=
  (block.read? offset 4).bind wordOf?

/-- The block with `words` one after the other from `offset` on. -/
def writeWords? (block : Block) (offset : Nat) (words : List UInt32) : Option Block :=
  block.write? offset (ofWords words)

@[simp] theorem size_zeroed (size : Nat) : (zeroed size).size = size := by
  simp [zeroed, Block.size, ByteArray.size]

@[simp] theorem size_ofWords (words : List UInt32) : (ofWords words).size = 4 * words.length := by
  simp only [ofWords, ByteArray.size, List.size_toArray]
  induction words with
  | nil => rfl
  | cons w rest ih => simp only [List.flatMap_cons, List.length_append, Word.length_toBytes, ih,
      List.length_cons]; omega

theorem read?_eq_none_iff {block : Block} {offset length : Nat} :
    block.read? offset length = none ↔ block.size < offset + length := by
  unfold read?
  split <;> simp <;> omega

theorem write?_eq_none_iff {block : Block} {offset : Nat} {bytes : ByteArray} :
    block.write? offset bytes = none ↔ block.size < offset + bytes.size := by
  unfold write?
  split <;> simp <;> omega

/-- Writing keeps the length of a block. -/
theorem size_of_write? {block written : Block} {offset : Nat} {bytes : ByteArray}
    (h : block.write? offset bytes = some written) : written.size = block.size := by
  obtain ⟨contents⟩ := block
  unfold write? at h
  split at h
  · cases h
    simp only [size, ByteArray.size, ByteArray.copySlice, Array.size_append, Array.size_extract] at *
    omega
  · cases h

end Block

end VideoCore

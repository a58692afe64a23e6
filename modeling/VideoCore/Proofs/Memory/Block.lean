import VideoCore.Memory.Block

/-!
# Blocks, byte by byte

A block is a row of bytes, and `byteAt?` is the view through which its operations are stated: a read
gives the bytes of its range in order, a write puts its bytes into its range and leaves every other
byte alone. That a range is inside a block is all that an access depends on.
-/

namespace VideoCore.Block

variable {block written : Block} {offset length : Nat} {bytes : ByteArray}

/-- The byte at an offset, if the block reaches that far. -/
def byteAt? (block : Block) (i : Nat) : Option UInt8 := block.bytes.data[i]?

/-! ## Reading -/

/-- A read is answered exactly if its range is in the block, and then with the bytes of the range. -/
theorem read?_eq_some :
    block.read? offset length = some bytes ↔
      offset + length ≤ block.size ∧ bytes.size = length ∧
        ∀ i < length, bytes.data[i]? = block.byteAt? (offset + i) := by
  have hlength : (block.bytes.extract offset (offset + length)).data =
      block.bytes.data.extract offset (offset + length) := ByteArray.data_extract
  constructor
  · intro h
    unfold read? at h
    split at h
    · next hfits =>
      have hsize : offset + length ≤ block.bytes.data.size := hfits
      cases h
      refine ⟨hfits, ?_, ?_⟩
      · show (block.bytes.extract offset (offset + length)).data.size = length
        rw [hlength, Array.size_extract]
        omega
      · intro i hi
        rw [hlength, Array.getElem?_extract, if_pos (by omega)]
        rfl
    · cases h
  · rintro ⟨hfits, hsize, hbytes⟩
    have hblock : offset + length ≤ block.bytes.data.size := hfits
    rw [read?, if_pos hfits, Option.some.injEq]
    apply ByteArray.ext
    rw [hlength]
    apply Array.ext_getElem?
    intro i
    rw [Array.getElem?_extract]
    split
    · next hi =>
      rw [hbytes i (by omega)]
      rfl
    · next hi =>
      symm
      rw [Array.getElem?_eq_none_iff]
      show bytes.size ≤ i
      omega

/-! ## Writing -/

theorem exists_write? (h : offset + bytes.size ≤ block.size) :
    ∃ written, block.write? offset bytes = some written :=
  ⟨_, if_pos h⟩

/-- A write puts its bytes into its range, and leaves all others as they are. -/
theorem byteAt?_write? (h : block.write? offset bytes = some written) (i : Nat) :
    written.byteAt? i =
      if offset ≤ i ∧ i < offset + bytes.size then bytes.data[i - offset]? else block.byteAt? i := by
  unfold write? at h
  split at h
  · next hfits =>
    have hblock : offset + bytes.data.size ≤ block.bytes.data.size := hfits
    have hsize : bytes.size = bytes.data.size := rfl
    cases h
    simp only [byteAt?, ByteArray.copySlice, Array.getElem?_append, Array.getElem?_extract,
      Array.size_append, Array.size_extract, hsize]
    by_cases hbefore : i < offset
    · rw [if_pos (by omega), if_pos (by omega), if_pos (by omega), if_neg (by omega), Nat.zero_add]
    by_cases hinside : i < offset + bytes.data.size
    · rw [if_pos (by omega), if_neg (by omega), if_pos (by omega), if_pos (by omega)]
      congr 1
      omega
    -- behind the range, as far as the block reaches
    by_cases hreaches : i < block.bytes.data.size
    · rw [if_neg (by omega), if_pos (by omega), if_neg (by omega)]
      congr 1
      omega
    · rw [if_neg (by omega), if_neg (by omega), if_neg (by omega)]
      symm
      rw [Array.getElem?_eq_none_iff]
      omega
  · cases h

/-- What was written is read back. -/
theorem read?_write? (h : block.write? offset bytes = some written) :
    written.read? offset bytes.size = some bytes := by
  rw [read?_eq_some]
  refine ⟨?_, rfl, ?_⟩
  · rw [size_of_write? h]
    have hsome : block.write? offset bytes ≠ none := by rw [h]; simp
    rw [Ne, write?_eq_none_iff] at hsome
    omega
  · intro i hi
    rw [byteAt?_write? h, if_pos (by omega), Nat.add_sub_cancel_left]

/-! ## Words -/

/-- Four bytes make a word. -/
theorem exists_wordOf? (h : bytes.size = 4) : ∃ b₀ b₁ b₂ b₃,
    bytes.data[0]? = some b₀ ∧ bytes.data[1]? = some b₁ ∧ bytes.data[2]? = some b₂ ∧
      bytes.data[3]? = some b₃ ∧ wordOf? bytes = some (Word.ofBytes b₀ b₁ b₂ b₃) := by
  obtain ⟨⟨list⟩⟩ := bytes
  have hlength : list.length = 4 := h
  match list, hlength with
  | [b₀, b₁, b₂, b₃], _ => exact ⟨b₀, b₁, b₂, b₃, rfl, rfl, rfl, rfl, rfl⟩

/-- The bytes of the word that four bytes make are those bytes, the least significant first. -/
theorem exists_wordOf?_byte (h : bytes.size = 4) :
    ∃ w, wordOf? bytes = some w ∧ ∀ k < 4, bytes.data[k]? = some (Word.byte w k) := by
  obtain ⟨b₀, b₁, b₂, b₃, h₀, h₁, h₂, h₃, hword⟩ := exists_wordOf? h
  have hbytes := Word.toBytes_ofBytes b₀ b₁ b₂ b₃
  simp only [Word.toBytes, List.cons.injEq, and_true] at hbytes
  refine ⟨_, hword, fun k hk => ?_⟩
  obtain rfl | rfl | rfl | rfl : k = 0 ∨ k = 1 ∨ k = 2 ∨ k = 3 := by omega
  · rw [h₀, hbytes.1]
  · rw [h₁, hbytes.2.1]
  · rw [h₂, hbytes.2.2.1]
  · rw [h₃, hbytes.2.2.2]

/-- A word whose four bytes lie in the block is composed of them, the least significant first. -/
theorem exists_readWord? (h : offset + 4 ≤ block.size) : ∃ w, block.readWord? offset = some w ∧
    ∀ k < 4, block.byteAt? (offset + k) = some (Word.byte w k) := by
  have hread : block.read? offset 4 = some (block.bytes.extract offset (offset + 4)) := if_pos h
  obtain ⟨-, hsize, hbytes⟩ := read?_eq_some.mp hread
  obtain ⟨w, hword, hbyte⟩ := exists_wordOf?_byte hsize
  refine ⟨w, ?_, fun k hk => ?_⟩
  · rw [readWord?, hread, Option.bind_some, hword]
  · rw [← hbytes k hk, hbyte k hk]

theorem readWord?_outside (h : block.size < offset + 4) : block.readWord? offset = none := by
  rw [readWord?, read?_eq_none_iff.mpr h, Option.bind_none]

end VideoCore.Block

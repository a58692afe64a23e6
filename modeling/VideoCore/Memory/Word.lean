/-!
# Words as bytes

The bytes of a 32-bit word, least significant first, as the GPU and the host both store them.
-/

namespace VideoCore.Word

/-- Byte `k` of a word, counted from the least significant. -/
def byte (w : UInt32) (k : Nat) : UInt8 :=
  UInt8.ofNat (w.toNat >>> (8 * k))

/-- The four bytes of a word. -/
def toBytes (w : UInt32) : List UInt8 :=
  [byte w 0, byte w 1, byte w 2, byte w 3]

/-- The word that four bytes make. -/
def ofBytes (b₀ b₁ b₂ b₃ : UInt8) : UInt32 :=
  UInt32.ofNat (b₀.toNat + 256 * (b₁.toNat + 256 * (b₂.toNat + 256 * b₃.toNat)))

/-- The words of a row of bytes, four at a time; up to three bytes at the end are left over. -/
def listOfBytes : List UInt8 → List UInt32
  | b₀ :: b₁ :: b₂ :: b₃ :: rest => ofBytes b₀ b₁ b₂ b₃ :: listOfBytes rest
  | _ => []

@[simp] theorem length_toBytes (w : UInt32) : (toBytes w).length = 4 := rfl

/-- A word is the word of its bytes. -/
@[simp] theorem ofBytes_byte (w : UInt32) : ofBytes (byte w 0) (byte w 1) (byte w 2) (byte w 3) = w := by
  have h : w.toNat < 2 ^ 32 := w.toNat_lt
  apply UInt32.toNat_inj.mp
  simp only [ofBytes, byte, UInt8.toNat_ofNat', UInt32.toNat_ofNat']
  omega

/-- The bytes of a word that four bytes make are those bytes. -/
theorem toBytes_ofBytes (b₀ b₁ b₂ b₃ : UInt8) : toBytes (ofBytes b₀ b₁ b₂ b₃) = [b₀, b₁, b₂, b₃] := by
  have h₀ := b₀.toNat_lt
  have h₁ := b₁.toNat_lt
  have h₂ := b₂.toNat_lt
  have h₃ := b₃.toNat_lt
  simp only [toBytes, byte, ofBytes, List.cons.injEq, and_true, ← UInt8.toNat_inj,
    UInt8.toNat_ofNat', UInt32.toNat_ofNat']
  omega

theorem listOfBytes_flatMap (words : List UInt32) : listOfBytes (words.flatMap toBytes) = words := by
  induction words with
  | nil => rfl
  | cons w rest ih => simp [toBytes, listOfBytes] at ih ⊢; exact ih

/-- Every four bytes make a word. -/
theorem length_listOfBytes (bytes : List UInt8) : (listOfBytes bytes).length = bytes.length / 4 := by
  induction bytes using listOfBytes.induct with
  | case1 b₀ b₁ b₂ b₃ rest ih =>
    rw [listOfBytes, List.length_cons, ih]
    simp only [List.length_cons]
    omega
  | case2 bytes hshort =>
    match bytes, hshort with
    | [], _ | [_], _ | [_, _], _ | [_, _, _], _ => simp [listOfBytes]
    | b₀ :: b₁ :: b₂ :: b₃ :: rest, hshort => exact absurd rfl (hshort b₀ b₁ b₂ b₃ rest)

end VideoCore.Word

/-!
# UTF-8 with faults

Text that arrives as bytes from a device need not be well formed. `decodeLossy` reads it all the
same: every maximal piece that begins a character but does not complete it, and every byte that
can begin none, is read as one replacement character. Well-formed text is read unchanged.
-/

namespace VideoCore.Text

/-- Stands for bytes that are no character. -/
def replacement : Char := '\uFFFD'

/-- How a first byte announces the bytes that follow it: how many there are, and the range that
the first of them must lie in (all others lie between `0x80` and `0xBF`). -/
def leadByte (b : UInt8) : Option (Nat × UInt8 × UInt8) :=
  if b < 0x80 then some (0, 0, 0)
  else if 0xC2 ≤ b ∧ b ≤ 0xDF then some (1, 0x80, 0xBF)
  else if b = 0xE0 then some (2, 0xA0, 0xBF)
  else if b = 0xED then some (2, 0x80, 0x9F)
  else if 0xE1 ≤ b ∧ b ≤ 0xEF then some (2, 0x80, 0xBF)
  else if b = 0xF0 then some (3, 0x90, 0xBF)
  else if 0xF1 ≤ b ∧ b ≤ 0xF3 then some (3, 0x80, 0xBF)
  else if b = 0xF4 then some (3, 0x80, 0x8F)
  else none

/-- The payload bits of a first byte that `count` further bytes follow. -/
def leadBits (count : Nat) (b : UInt8) : Nat :=
  match count with
  | 0 => b.toNat
  | 1 => b.toNat % 32
  | 2 => b.toNat % 16
  | _ => b.toNat % 8

/-- Takes up to `count` further bytes of a character, the first of them within `[low, high]`.
Answers the bits so far, how many bytes are still missing, and the rest of the input. -/
def followers : Nat → UInt8 → UInt8 → Nat → List UInt8 → Nat × Nat × List UInt8
  | 0, _, _, bits, rest => (bits, 0, rest)
  | count + 1, _, _, bits, [] => (bits, count + 1, [])
  | count + 1, low, high, bits, b :: rest =>
    if low ≤ b ∧ b ≤ high then followers count 0x80 0xBF (64 * bits + b.toNat % 64) rest
    else (bits, count + 1, b :: rest)

theorem followers_length_le (count : Nat) (low high : UInt8) (bits : Nat) (rest : List UInt8) :
    (followers count low high bits rest).2.2.length ≤ rest.length := by
  induction count generalizing low high bits rest with
  | zero => simp [followers]
  | succ count ih =>
    cases rest with
    | nil => simp [followers]
    | cons b rest =>
      simp only [followers]
      split
      · exact Nat.le_succ_of_le (ih _ _ _ _)
      · simp

/-- Reads bytes as UTF-8, with the replacement character in place of whatever is malformed. -/
def decodeLossy : List UInt8 → List Char
  | [] => []
  | b :: rest =>
    match leadByte b with
    | none => replacement :: decodeLossy rest
    | some (count, low, high) =>
      let piece := followers count low high (leadBits count b) rest
      (if piece.2.1 = 0 then Char.ofNat piece.1 else replacement) :: decodeLossy piece.2.2
termination_by bytes => bytes.length
decreasing_by
  · simp
  · simp only [List.length_cons]
    exact Nat.lt_succ_of_le (followers_length_le _ _ _ _ _)

/-- A text is read back from its bytes. -/
theorem fromUTF8?_toUTF8 (text : String) : String.fromUTF8? text.toUTF8 = some text :=
  dif_pos text.isValidUTF8

end VideoCore.Text

import VideoCore.Text.Blank
import VideoCore.Text.Numeral

/-!
# The contiguous memory pool

The kernel lists the size of the pool of contiguous memory in its memory report, on the line
that starts with `CmaTotal:`, in units of 1024 bytes. A line of that name whose value cannot be
read is passed over. The units are a word of 64 bits, and their bytes are a product of such words.
-/

namespace VideoCore.SharedMemory

/-- The lines of a text, without their ends; a line may end in a carriage return too. -/
def lines (text : List Char) : List (List Char) :=
  (text.splitOn '\n').map fun line =>
    if line.getLast? = some '\r' then line.dropLast else line

/-- What follows a label, if a line starts with it. -/
def afterLabel? (label : List Char) (line : List Char) : Option (List Char) :=
  if label.isPrefixOf line then some (line.drop label.length) else none

/-- A text without all its endings of one kind. -/
def dropUnits (unit : List Char) (text : List Char) : List Char :=
  (dropFront unit.reverse text.reverse).reverse
where
  /-- A text without all its beginnings of one kind. -/
  dropFront (front : List Char) (text : List Char) : List Char :=
    if front.isEmpty then text
    else if front.isPrefixOf text then dropFront front (text.drop front.length)
    else text
  termination_by text.length
  decreasing_by
    rename_i hne hpre
    have h := List.isPrefixOf_iff_prefix.mp hpre |>.length_le
    have : 0 < front.length := List.length_pos_iff.mpr (by simpa using hne)
    simp only [List.length_drop]
    omega

/-- The units that one line of the report lists for the pool. -/
def unitsOfLine? (line : List Char) : Option UInt64 := do
  let rest ← afterLabel? "CmaTotal:".toList line
  let kib ← Text.readWord? 64 (Text.trim (dropUnits "kB".toList (Text.trim rest)))
  return UInt64.ofNat kib

/-- The units that a memory report lists for the pool, from the first line that gives any. -/
def poolUnits? (report : String) : Option UInt64 :=
  (lines report.toList).findSome? unitsOfLine?

/-- The size of the pool in bytes, as far as it fits 64 bits. -/
def poolSize? (report : String) : Option UInt64 :=
  (poolUnits? report).map fun kib => kib * 1024

/-- Whether the bytes of some units do not fit 64 bits. -/
def overflows (kib : UInt64) : Bool := UInt64.size ≤ kib.toNat * 1024

/-- Whether the size that a memory report lists loses its high bits. -/
def poolOverflows (report : String) : Bool := (poolUnits? report).any overflows

end VideoCore.SharedMemory

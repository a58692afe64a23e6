/-!
# Numerals

Decimal numbers are read with an optional plus sign and any number of leading zeros, and are
refused as soon as they leave the range of the word they are read into. Hexadecimal numbers are
written with the mark `0x` and lowercase digits, padded with zeros up to a total width where a
fixed column is wanted.
-/

namespace VideoCore.Text

/-- Whether a character is one of the ten ASCII digits. -/
def isDigit (c : Char) : Bool :=
  '0' ≤ c ∧ c ≤ '9'

/-- The value of an ASCII digit. -/
def digitValue (c : Char) : Nat :=
  c.toNat - '0'.toNat

/-- The number that a row of digits denotes. -/
def digitsValue (digits : List Char) : Nat :=
  digits.foldl (fun n c => 10 * n + digitValue c) 0

/-- Reads a row of digits; an empty row or any other character is refused. -/
def readDigits? (text : List Char) : Option Nat :=
  if text.isEmpty then none
  else if text.all isDigit then some (digitsValue text)
  else none

/-- Reads a natural number with an optional plus sign. -/
def readNatural? : List Char → Option Nat
  | '+' :: digits => readDigits? digits
  | digits => readDigits? digits

/-- Reads a number below `2 ^ bits`; a larger one is refused, not cut. -/
def readWord? (bits : Nat) (text : List Char) : Option Nat :=
  (readNatural? text).filter (· < 1 <<< bits)

/-- The lowercase hexadecimal digits of a number, without a mark. -/
def hexDigits (n : Nat) : String :=
  String.ofList (Nat.toDigits 16 n)

/-- A number in hexadecimal with the mark `0x`. -/
def hex (n : Nat) : String :=
  "0x" ++ hexDigits n

/-- A number in hexadecimal with the mark `0x`, filled with zeros to eight digits. -/
def hexWord (n : Nat) : String :=
  let digits := hexDigits n
  "0x" ++ String.ofList (List.replicate (8 - digits.length) '0') ++ digits

/-- The decimal digits of a natural number. -/
def decimal (n : Nat) : String :=
  String.ofList (Nat.toDigits 10 n)

/-- The decimal digits of an integer, with a minus sign in front of a negative one. -/
def signedDecimal : Int → String
  | .ofNat n => decimal n
  | .negSucc n => "-" ++ decimal (n + 1)

end VideoCore.Text

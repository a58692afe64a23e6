import VideoCore.Text.Numeral

/-!
# Decimal fractions

Numbers with a decimal point. They are read into the nearest double, and a quantity that is
counted in thousandths is written with one place: the double nearest to the quotient is rounded
by its exact value, and a value halfway between two places goes to the even one.
-/

namespace VideoCore.Text

/-- The digits of a decimal fraction as one whole number, and how many of them stand behind the
point. There must be a digit, and no more than one point. -/
def readFraction? (text : List Char) : Option (Nat × Nat) :=
  let whole := text.takeWhile isDigit
  match text.dropWhile isDigit with
  | [] => (readDigits? whole).map (·, 0)
  | '.' :: places =>
    if places.all isDigit then (readDigits? (whole ++ places)).map (·, places.length) else none
  | _ => none

/-- Reads a decimal fraction as the nearest double. -/
def readDouble? (text : List Char) : Option Float :=
  (readFraction? text).map fun (digits, places) => Float.ofScientific digits true places

/-- The quotient of two numbers, rounded to the nearest whole number; a half goes to the even
neighbour. -/
def divideToEven (num den : Nat) : Nat :=
  let whole := num / den
  let twice := 2 * (num % den)
  if twice < den then whole
  else if den < twice then whole + 1
  else if whole % 2 = 0 then whole else whole + 1

/-- A finite double that is not negative, as a whole number times a power of two. -/
def binaryValue (x : Float) : Nat × Int :=
  let bits := x.toBits.toNat
  let leading : Nat := 1 <<< 52
  let exponent : Nat := bits / leading % 2048
  let fraction : Nat := bits % leading
  if exponent = 0 then (fraction, -1074) else (fraction + leading, (exponent : Int) - 1075)

/-- The tenths of a finite double that is not negative, rounded by its exact value. -/
def tenths (x : Float) : Nat :=
  match binaryValue x with
  | (m, .ofNat k) => (10 * m) <<< k
  | (m, .negSucc k) => divideToEven (10 * m) (1 <<< (k + 1))

/-- A count of thousandths, written with one place. -/
def renderThousandths (count : Nat) : String :=
  let t := tenths (Float.ofNat count / 1000)
  decimal (t / 10) ++ "." ++ decimal (t % 10)

/-- Rounding a quotient errs by no more than a half. -/
theorem divideToEven_near (num den : Nat) (h : 0 < den) :
    2 * num ≤ 2 * (divideToEven num den * den) + den ∧
      2 * (divideToEven num den * den) ≤ 2 * num + den := by
  have hd := Nat.div_add_mod num den
  have hm := Nat.mod_lt num h
  have hc : num / den * den = den * (num / den) := Nat.mul_comm _ _
  have hs : (num / den + 1) * den = den * (num / den) + den := by
    rw [Nat.add_mul, Nat.one_mul, hc]
  unfold divideToEven
  simp only
  split
  · omega
  · split
    · omega
    · split <;> omega

end VideoCore.Text

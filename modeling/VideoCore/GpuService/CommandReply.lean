import VideoCore.Query
import VideoCore.Text.Blank
import VideoCore.Text.Decimal

/-!
# Replies of the command interpreter

The firmware's command interpreter answers in texts of the form `key=value`. The value begins
with a number; what follows it names a unit, which matters for sizes only. Which command answers
a system query, and in which unit, is fixed by the query.
-/

namespace VideoCore.GpuService

/-- The unit of a reply. -/
inductive CommandUnit where
  | hertz
  | megahertz
  /-- Bytes, or the multiple of them that a letter after the number says. -/
  | memorySize
  | celsius
  deriving DecidableEq, Repr

/-- The command that answers a query, and the unit of its reply. -/
def commandFor : SystemQuery → Option (String × CommandUnit)
  | .currentQpuClockRateHz => some ("measure_clock v3d", .hertz)
  | .maximumQpuClockRateHz => some ("get_config gpu_freq", .megahertz)
  | .currentArmClockRateHz => some ("measure_clock arm", .hertz)
  | .maximumArmClockRateHz => some ("get_config arm_freq", .megahertz)
  | .qpuTemperatureMilliDegrees => some ("measure_temp", .celsius)
  | .totalArmMemoryBytes => some ("get_mem arm", .memorySize)
  | .totalGpuMemoryBytes => some ("get_mem gpu", .memorySize)
  | .totalVpmMemoryBytes | .numQpus => none

/-- The power of two that the character after a size stands for. -/
def sizeShift : List Char → Nat
  | 'G' :: _ => 30
  | 'M' :: _ => 20
  | 'K' :: _ => 10
  | _ => 0

/-- Whether a character can stand in the number of a reply. -/
def isNumberPart (c : Char) : Bool :=
  Text.isDigit c || c == '.'

/-- What stands behind the first equals sign of a text. -/
def afterEquals? (text : List Char) : Option (List Char) :=
  match text.dropWhile (· != '=') with
  | _ :: rest => some rest
  | [] => none

/-- A number in a unit, as a whole multiple of the query's unit. A size is kept in 64 bits: what
its letter shifts beyond them is lost. -/
def scale (unit : CommandUnit) (number suffix : List Char) : Option Nat :=
  match unit with
  | .hertz => Text.readWord? 64 number
  | .megahertz => do
    let n ← Text.readWord? 64 number
    if n * 1000000 < UInt64.size then some (n * 1000000) else none
  | .memorySize => do
    let n ← Text.readWord? 64 number
    some (n <<< sizeShift suffix % UInt64.size)
  | .celsius => do
    let degrees ← Text.readDouble? number
    some (degrees * 1000).round.toUInt64.toNat

/-- The answer to a query in the reply to its command, if it can be read and fits a word. -/
def readReply? (q : SystemQuery) (reply : String) : Option UInt32 := do
  let (_, unit) ← commandFor q
  let value ← afterEquals? (Text.trim reply.toList)
  let n ← scale unit (value.takeWhile isNumberPart) (value.dropWhile isNumberPart)
  if n < UInt32.size then some (UInt32.ofNat n) else none

end VideoCore.GpuService

import VideoCore.Text.Numeral

/-!
# Board revisions

The firmware names the board by a revision code. Codes of the new style have bit 23 set and hold
the model and the processor in fields of their own; older codes are plain numbers in a list that
only ever had boards of one processor.
-/

namespace VideoCore

/-- The system on a chip of a board. -/
inductive Processor where
  | bcm2835
  | bcm2836
  | bcm2837
  | bcm2838
  | unknown
  deriving DecidableEq, Repr

namespace Processor

def name : Processor → String
  | bcm2835 => "BCM2835"
  | bcm2836 => "BCM2836"
  | bcm2837 => "BCM2837"
  | bcm2838 => "BCM2838"
  | unknown => "unknown"

/-- The processor with a number in a new-style code. -/
def ofNumber : Nat → Processor
  | 0 => bcm2835
  | 1 => bcm2836
  | 2 => bcm2837
  | 3 => bcm2838
  | _ => unknown

/-- Whether the chip carries a VideoCore IV. -/
def hasVideoCoreIV : Processor → Bool
  | bcm2835 | bcm2836 | bcm2837 => true
  | bcm2838 | unknown => false

end Processor

/-- What a revision code says of a board. -/
structure Board where
  revision : UInt32
  model : String
  processor : Processor
  warrantyVoid : Bool
  deriving DecidableEq, Repr

namespace Board

/-- A model that no list names. -/
def unknownModel : String := "unknown"

/-- The models of new-style codes, by number. -/
def newStyleModels : List String :=
  ["A", "B", "A+", "B+", "B+", "Alpha", "CM", "unknown", "3 B", "Zero", "3 CM", "unknown",
   "Zero W", "3 B+", "3 A+", "unknown", "3 CM+", "4 B"]

/-- The model of an old-style code. -/
def oldStyleModel (code : Nat) : String :=
  if 0x2 ≤ code ∧ code ≤ 0x6 ∨ 0xD ≤ code ∧ code ≤ 0xF then "B"
  else if 0x7 ≤ code ∧ code ≤ 0x9 then "A"
  else if code = 0x10 ∨ code = 0x13 then "B+"
  else if code = 0x11 ∨ code = 0x14 then "CM"
  else if code = 0x12 ∨ code = 0x15 then "A+"
  else unknownModel

/-- Whether bit `i` of a code is set. -/
def bit (revision : UInt32) (i : Nat) : Bool :=
  revision.toNat.testBit i

/-- Whether a code is of the new style. -/
def isNewStyle (revision : UInt32) : Bool := bit revision 23

/-- Reads a revision code. -/
def ofRevision (revision : UInt32) : Board :=
  let code := revision.toNat
  if isNewStyle revision then
    { revision
      model := newStyleModels[code / 16 % 256]?.getD unknownModel
      processor := .ofNumber (code / 4096 % 16)
      warrantyVoid := bit revision 25 }
  else
    { revision
      model := oldStyleModel (code % 256)
      processor := .bcm2835
      warrantyVoid := bit revision 24 }

/-- The board in words, with a remark after the revision. -/
def describe (b : Board) (remark : String := "") : String :=
  "Raspberry Pi " ++ b.model ++ " (" ++ b.processor.name ++ ", revision "
    ++ Text.hex b.revision.toNat ++ remark ++ ")"

theorem revision_ofRevision (revision : UInt32) : (ofRevision revision).revision = revision := by
  unfold ofRevision
  split <;> rfl

end Board

end VideoCore

import VideoCore.Text.Numeral

/-!
# Options of the report

The command line: three options, each at most once and in any order. An option is written out in
full. The number of bytes follows its option as a word of its own, which must not look like an
option, or after an equals sign.
-/

namespace VideoCore.Info

/-- What the user asks for. -/
structure Options where
  /-- Report on the emulator instead of the hardware. -/
  emulated : Bool := false
  /-- Write the report as JSON. -/
  json : Bool := false
  /-- Also allocate, and give back, a buffer of this many bytes. -/
  allocate : Option UInt32 := none
  deriving DecidableEq, Repr

namespace Options

/-- Reads a number of bytes. A plus sign may stand before it, and a minus sign before a zero. -/
def readBytes? (text : String) : Option UInt32 :=
  match text.toList with
  | '-' :: digits => (Text.readDigits? digits).bind fun n => if n = 0 then some 0 else none
  | chars => (Text.readWord? 32 chars).map UInt32.ofNat

/-- The options with the bytes to allocate given, unless they were before. -/
def withBytes? (o : Options) (value : String) : Option Options :=
  if o.allocate.isSome then none
  else (readBytes? value).map fun bytes => { o with allocate := some bytes }

/-- The part of a text after some other text that it begins with. -/
def after? (start text : String) : Option String :=
  if start.toList.isPrefixOf text.toList then
    some (String.ofList (text.toList.drop start.length))
  else none

/-- Takes one word of the command line after the other. A lone pair of dashes ends the options,
and nothing may follow it. -/
def readFrom? (o : Options) : List String → Option Options
  | [] => some o
  | ["--"] => some o
  | "--emulated" :: rest => if o.emulated then none else readFrom? { o with emulated := true } rest
  | "--json" :: rest => if o.json then none else readFrom? { o with json := true } rest
  | "--allocate" :: value :: rest =>
    if (after? "-" value).isSome then none
    else (o.withBytes? value).bind fun o => readFrom? o rest
  | word :: rest =>
    match after? "--allocate=" word with
    | some value => (o.withBytes? value).bind fun o => readFrom? o rest
    | none => none

/-- Reads the words of the command line. -/
def read? (words : List String) : Option Options :=
  readFrom? {} words

end Options

end VideoCore.Info

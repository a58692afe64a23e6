import VideoCore.Text.Numeral

/-!
# JSON

Values of the JSON data format, written with one member of an object on a line and two blanks of
indentation for each level. Members keep their order. Numbers are natural numbers, and there are
no arrays, as no report has any.
-/

namespace VideoCore.Text

mutual

/-- A value of the JSON data format. -/
inductive Json where
  | null
  | boolean (value : Bool)
  | number (value : Nat)
  | text (value : String)
  | object (members : Members)

/-- The members of an object, in order. -/
inductive Members where
  | none
  | also (key : String) (value : Json) (rest : Members)

end

namespace Json

/-- The four lowercase hexadecimal digits of a number below 65536. -/
def fourDigits (n : Nat) : List Char :=
  let digits := Nat.toDigits 16 n
  List.replicate (4 - digits.length) '0' ++ digits

/-- How a character stands in a written text. -/
def escape (c : Char) : List Char :=
  if c = '"' then ['\\', '"']
  else if c = '\\' then ['\\', '\\']
  else if c = '\n' then ['\\', 'n']
  else if c = '\r' then ['\\', 'r']
  else if c = '\t' then ['\\', 't']
  else if c = '\x08' then ['\\', 'b']
  else if c = '\x0c' then ['\\', 'f']
  else if c.toNat < 0x20 then ['\\', 'u'] ++ fourDigits c.toNat
  else [c]

/-- A text in quotes. -/
def quoted (s : String) : String :=
  "\"" ++ String.ofList (s.toList.flatMap escape) ++ "\""

/-- A new line, indented to a level. -/
def newLine (level : Nat) : String :=
  String.ofList ('\n' :: List.replicate (2 * level) ' ')

mutual

/-- A value in writing, where it stands at some level of indentation. -/
def render (level : Nat) : Json → String
  | null => "null"
  | boolean true => "true"
  | boolean false => "false"
  | number n => decimal n
  | text s => quoted s
  | object .none => "\x7b\x7d"
  | object (.also key value rest) =>
    "\x7b" ++ newLine (level + 1) ++ quoted key ++ ": " ++ render (level + 1) value
      ++ renderMembers level rest

/-- The members of an object after the first, and its end. -/
def renderMembers (level : Nat) : Members → String
  | .none => newLine level ++ "\x7d"
  | .also key value rest =>
    "," ++ newLine (level + 1) ++ quoted key ++ ": " ++ render (level + 1) value
      ++ renderMembers level rest

end

/-- The object with some members. -/
def ofMembers (members : List (String × Json)) : Json :=
  object (members.foldr (fun (key, value) rest => .also key value rest) .none)

/-- A number, or nothing. -/
def numberOrNull (n : Option UInt32) : Json :=
  n.elim null fun n => number n.toNat

end Json

end VideoCore.Text

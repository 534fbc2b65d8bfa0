import WatsonIotp.Json.Value

/-!
# The JSON writer

`Json::FastWriter`, which turns every payload of the client into the text that goes to the
broker. Names and texts are written between quotes: as they are if nothing in them has to
be escaped, character by character otherwise. The walk gives the same text in both cases
(`valueToQuotedStringN_eq`), so the copy of the whole text is only a short cut.
-/

namespace Json

/-- A character in the range 1 to 31. -/
def isControlCharacter (ch : Char) : Bool := '\x00' < ch && ch ≤ '\x1f'

/-- One of the first `len` characters is a control character or zero. -/
def containsControlCharacter0 (str : StdString) : Bool :=
  str.any fun ch => isControlCharacter ch || ch = '\x00'

/-- A character of `accept` is among the first `n` characters. -/
def strnpbrk (s accept : StdString) : Bool := s.any accept.contains

/-- The characters that have an escape of one letter. -/
def escapes : StdString := ['"', '\\', '\x08', '\x0c', '\n', '\r', '\t']

/-- `std::hex << std::uppercase << std::setfill('0') << std::setw(4)`. -/
def hexText (n : Nat) : StdString :=
  let digits := (Nat.toDigits 16 n).map Char.toUpper
  List.replicate (4 - digits.length) '0' ++ digits

/-- One character in the walk over a text. -/
def escaped : Char → StdString
  | '"' => ['\\', '"']
  | '\\' => ['\\', '\\']
  | '\x08' => ['\\', 'b']
  | '\x0c' => ['\\', 'f']
  | '\n' => ['\\', 'n']
  | '\r' => ['\\', 'r']
  | '\t' => ['\\', 't']
  | c => if isControlCharacter c || c = '\x00' then '\\' :: 'u' :: hexText c.toNat else [c]

/-- A text between quotes. The copy ends at the first zero, as that of a `const char*`. -/
def valueToQuotedStringN (value : StdString) : StdString :=
  if !strnpbrk value escapes && !containsControlCharacter0 value then
    '"' :: value.takeWhile (· ≠ '\x00') ++ ['"']
  else '"' :: value.flatMap escaped ++ ['"']

namespace FastWriter

variable {D : Type} [CxxDouble D]

mutual

/-- What is appended to `document_` for a value. -/
def writeValue : Value D → StdString
  | .nullValue => "null".toList
  | .intValue i => Value.intText i
  | .uintValue n => Nat.toDigits 10 n
  | .realValue d => CxxDouble.toText d
  | .stringValue s => valueToQuotedStringN s
  | .booleanValue b => if b then "true".toList else "false".toList
  | .arrayValue elements => '[' :: writeElements true elements ++ [']']
  | .objectValue members => '{' :: writeMembers true members ++ ['}']

/-- The loop over the elements, from the first or from a later one. -/
def writeElements : Bool → List (Value D) → StdString
  | _, [] => []
  | first, v :: elements =>
      (if first then [] else [',']) ++ writeValue v ++ writeElements false elements

/-- The loop over the members, from the first or from a later one. -/
def writeMembers : Bool → List (StdString × Value D) → StdString
  | _, [] => []
  | first, (name, v) :: members =>
      (if first then [] else [',']) ++ valueToQuotedStringN name ++ ':' :: writeValue v ++
        writeMembers false members

end

/-- `FastWriter::write(root)`. -/
def write (root : Value D) : StdString := writeValue root ++ ['\n']

end FastWriter

/-- `IOTP_Client::jsonValueToString(jsonValue)`. -/
def jsonValueToString {D : Type} [CxxDouble D] (jsonValue : Value D) : StdString :=
  FastWriter.write jsonValue

end Json

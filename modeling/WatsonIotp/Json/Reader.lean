import WatsonIotp.Json.Value

/-!
# The JSON reader

`Json::Reader` on a document held as a list of characters. `current_` is what is
left of the document. A token keeps the text it spans (between the quotes, for a
string); comments are skipped and not kept, since nothing reads them. What the
reader does after an error only positions it for messages that are never asked
for, so a failed read is just `failed`.

The nesting limit is the recursion: `readValue` gets the number of levels still
allowed and throws at zero, as `stackDepth_g` does at `stackLimit_g`. The loops
over members and elements take the characters left as their fuel, which is
enough since each round consumes some.
-/

namespace Json.Reader

inductive TokenType where
  | endOfStream | objectBegin | objectEnd | arrayBegin | arrayEnd | string | number
  | «true» | «false» | null | arraySeparator | memberSeparator | comment | error
  deriving DecidableEq

structure Token where
  type : TokenType
  text : StdString
  deriving DecidableEq

/-- `stackLimit_g`. -/
def stackLimit : Nat := 1000

def isSpace (c : Char) : Bool := c = ' ' || c = '\t' || c = '\r' || c = '\n'

def isDigit (c : Char) : Bool := '0' ≤ c && c ≤ '9'

def skipSpaces (cs : StdString) : StdString := cs.dropWhile isSpace

/-- The text up to the closing quote and what follows it. -/
def readString : StdString → Option (StdString × StdString)
  | [] => none
  | '"' :: cs => some ([], cs)
  | ['\\'] => none
  | '\\' :: c :: cs => (readString cs).map fun r => ('\\' :: c :: r.1, r.2)
  | c :: cs => (readString cs).map fun r => (c :: r.1, r.2)

def readCStyleComment : StdString → Bool × StdString
  | [] => (false, [])
  | '*' :: '/' :: cs => (true, cs)
  | _ :: cs => readCStyleComment cs

def readCppStyleComment : StdString → StdString
  | [] => []
  | '\n' :: cs => cs
  | '\r' :: '\n' :: cs => cs
  | '\r' :: cs => cs
  | _ :: cs => readCppStyleComment cs

def readComment : StdString → Bool × StdString
  | '*' :: cs => readCStyleComment cs
  | '/' :: cs => (true, readCppStyleComment cs)
  | _ :: cs => (false, cs)
  | [] => (false, [])

/-- The characters of a number behind its first one. -/
def readNumber (cs : StdString) : StdString × StdString :=
  let integral := cs.span isDigit
  let fractional := match integral.2 with
    | '.' :: rest => ('.' :: (rest.span isDigit).1, (rest.span isDigit).2)
    | rest => ([], rest)
  let exponential := match fractional.2 with
    | c :: rest =>
        if c = 'e' ∨ c = 'E' then
          match rest with
          | sign :: digits =>
              if sign = '+' ∨ sign = '-' then
                (c :: sign :: (digits.span isDigit).1, (digits.span isDigit).2)
              else (c :: (rest.span isDigit).1, (rest.span isDigit).2)
          | [] => ([c], [])
        else ([], c :: rest)
    | [] => ([], [])
  (integral.1 ++ fractional.1 ++ exponential.1, exponential.2)

/-- The token of a fixed word, whose first character is already consumed. -/
def matchWord (type : TokenType) (word cs : StdString) : Token × StdString :=
  if word <+: cs then (⟨type, []⟩, cs.drop word.length) else (⟨.error, []⟩, cs)

def readToken (cs : StdString) : Token × StdString :=
  match skipSpaces cs with
  | [] => (⟨.endOfStream, []⟩, [])
  | '{' :: cs => (⟨.objectBegin, []⟩, cs)
  | '}' :: cs => (⟨.objectEnd, []⟩, cs)
  | '[' :: cs => (⟨.arrayBegin, []⟩, cs)
  | ']' :: cs => (⟨.arrayEnd, []⟩, cs)
  | '"' :: cs =>
      match readString cs with
      | some (text, cs) => (⟨.string, text⟩, cs)
      | none => (⟨.error, []⟩, [])
  | '/' :: cs =>
      match readComment cs with
      | (true, cs) => (⟨.comment, []⟩, cs)
      | (false, cs) => (⟨.error, []⟩, cs)
  | 't' :: cs => matchWord .true "rue".toList cs
  | 'f' :: cs => matchWord .false "alse".toList cs
  | 'n' :: cs => matchWord .null "ull".toList cs
  | ',' :: cs => (⟨.arraySeparator, []⟩, cs)
  | ':' :: cs => (⟨.memberSeparator, []⟩, cs)
  | '\x00' :: cs => (⟨.endOfStream, []⟩, cs)
  | c :: cs =>
      if isDigit c ∨ c = '-' then (⟨.number, c :: (readNumber cs).1⟩, (readNumber cs).2)
      else (⟨.error, []⟩, cs)

/-- Read on while the token is a comment. -/
def skipComments : Nat → StdString → Token × StdString
  | 0, cs => readToken cs
  | fuel + 1, cs =>
      if (readToken cs).1.type = .comment then skipComments fuel (readToken cs).2
      else readToken cs

/-- The next token that is not a comment; every comment consumes characters. -/
def skipCommentTokens (cs : StdString) : Token × StdString := skipComments cs.length cs

/-- The digits as an integer of at most `maxIntegerValue`, if they are one. -/
def decodeDigits (maxIntegerValue : Nat) : Nat → StdString → Option Nat
  | value, [] => some value
  | value, c :: cs =>
      let digit := c.toNat - '0'.toNat
      if isDigit c = false then none
      else if maxIntegerValue / 10 ≤ value ∧
          (maxIntegerValue / 10 < value ∨ cs ≠ [] ∨ maxIntegerValue % 10 < digit) then none
      else decodeDigits maxIntegerValue (value * 10 + digit) cs

/-- The value of four hexadecimal digits. -/
def decodeUnicodeEscapeSequence (digits : StdString) : Option Nat :=
  digits.foldl (fun acc c => acc.bind fun unicode =>
    if isDigit c then some (unicode * 16 + (c.toNat - '0'.toNat))
    else if 'a' ≤ c ∧ c ≤ 'f' then some (unicode * 16 + (c.toNat - 'a'.toNat + 10))
    else if 'A' ≤ c ∧ c ≤ 'F' then some (unicode * 16 + (c.toNat - 'A'.toNat + 10))
    else none) (some 0)

def codePointToUTF8 (cp : Nat) : StdString :=
  if cp ≤ 0x7f then [Char.ofNat cp]
  else if cp ≤ 0x7FF then
    [Char.ofNat (0xC0 ||| (0x1f &&& (cp >>> 6))), Char.ofNat (0x80 ||| (0x3f &&& cp))]
  else if cp ≤ 0xFFFF then
    [Char.ofNat (0xE0 ||| (0xf &&& (cp >>> 12))),
      Char.ofNat (0x80 ||| (0x3f &&& (cp >>> 6))), Char.ofNat (0x80 ||| (0x3f &&& cp))]
  else if cp ≤ 0x10FFFF then
    [Char.ofNat (0xF0 ||| (0x7 &&& (cp >>> 18))),
      Char.ofNat (0x80 ||| (0x3f &&& (cp >>> 12))),
      Char.ofNat (0x80 ||| (0x3f &&& (cp >>> 6))), Char.ofNat (0x80 ||| (0x3f &&& cp))]
  else []

/-- The character that a one-letter escape stands for. -/
def escapedChar : Char → Option Char
  | '"' => some '"'
  | '/' => some '/'
  | '\\' => some '\\'
  | 'b' => some '\x08'
  | 'f' => some '\x0c'
  | 'n' => some '\n'
  | 'r' => some '\r'
  | 't' => some '\t'
  | _ => none

def decodeString : StdString → Option StdString
  | [] => some []
  | '"' :: _ => some []
  | '\\' :: 'u' :: a :: b :: c :: d :: cs =>
      match decodeUnicodeEscapeSequence [a, b, c, d] with
      | none => none
      | some unicode =>
          if 0xD800 ≤ unicode ∧ unicode ≤ 0xDBFF then
            match cs with
            | '\\' :: 'u' :: e :: f :: g :: h :: cs =>
                match decodeUnicodeEscapeSequence [e, f, g, h] with
                | none => none
                | some surrogatePair =>
                    (decodeString cs).map (codePointToUTF8 (0x10000 +
                      ((unicode &&& 0x3FF) <<< 10) + (surrogatePair &&& 0x3FF)) ++ ·)
            | _ => none
          else (decodeString cs).map (codePointToUTF8 unicode ++ ·)
  | ['\\'] => none
  | '\\' :: escape :: cs =>
      match escapedChar escape with
      | none => none
      | some c => (decodeString cs).map (c :: ·)
  | c :: cs => (decodeString cs).map (c :: ·)

/-- What reading one value comes to: the value and the rest of the document, an
error, or an exception. -/
inductive Result (D : Type) where
  | value (v : Value D) (rest : StdString)
  | failed
  | thrown (e : Error)

variable {D : Type}

/-- Integers that fit are kept as such; everything else is left to `double`. -/
def decodeNumber [CxxDouble D] (text : StdString) : Option (Value D) :=
  match text with
  | '-' :: digits =>
      match decodeDigits (2 ^ 63) 0 digits with
      | some value => some (.intValue (-(value : Int)))
      | none => (CxxDouble.ofToken text).map .realValue
  | digits =>
      match decodeDigits (2 ^ 64 - 1) 0 digits with
      | some value =>
          if (value : Int) ≤ maxInt then some (.intValue value) else some (.uintValue value)
      | none => (CxxDouble.ofToken text).map .realValue

/-- The members of an object, read by `element`, up to its closing brace. The
name of the previous member decides whether a brace may stand for the next one. -/
def readObject (element : StdString → Result D) :
    Nat → StdString → List (StdString × Value D) → StdString → Result D
  | 0, _, _, _ => .failed
  | fuel + 1, name, members, cs =>
      match skipCommentTokens cs with
      | (⟨.objectEnd, _⟩, cs) => if name = [] then .value (.objectValue members) cs else .failed
      | (⟨.string, text⟩, cs) =>
          match decodeString text with
          | none => .failed
          | some name =>
              match readToken cs with
              | (⟨.memberSeparator, _⟩, cs) =>
                  match element cs with
                  | .value v cs =>
                      match (readToken cs).1.type with
                      | .objectEnd =>
                          .value (.objectValue (setMember name v members)) (readToken cs).2
                      | .arraySeparator =>
                          readObject element fuel name (setMember name v members) (readToken cs).2
                      | .comment =>
                          match skipCommentTokens (readToken cs).2 with
                          | (⟨.objectEnd, _⟩, cs) =>
                              .value (.objectValue (setMember name v members)) cs
                          | (_, cs) => readObject element fuel name (setMember name v members) cs
                      | _ => .failed
                  | .failed => .failed
                  | .thrown e => .thrown e
              | _ => .failed
      | _ => .failed

/-- The elements of an array that is not empty, up to its closing bracket. -/
def readArray (element : StdString → Result D) :
    Nat → List (Value D) → StdString → Result D
  | 0, _, _ => .failed
  | fuel + 1, elements, cs =>
      match element cs with
      | .value v cs =>
          match skipCommentTokens cs with
          | (⟨.arrayEnd, _⟩, cs) => .value (.arrayValue (elements ++ [v])) cs
          | (⟨.arraySeparator, _⟩, cs) => readArray element fuel (elements ++ [v]) cs
          | _ => .failed
      | .failed => .failed
      | .thrown e => .thrown e

/-- One value, with `limit` levels of nesting left. -/
def readValue [CxxDouble D] : Nat → StdString → Result D
  | 0, _ => .thrown (.runtimeError "Exceeded stackLimit in readValue().")
  | limit + 1, cs =>
      match skipCommentTokens cs with
      | (⟨.objectBegin, _⟩, cs) => readObject (readValue limit) (cs.length + 1) [] [] cs
      | (⟨.arrayBegin, _⟩, cs) =>
          match skipSpaces cs with
          | ']' :: cs => .value (.arrayValue []) cs
          | cs => readArray (readValue limit) (cs.length + 1) [] cs
      | (⟨.number, text⟩, cs) =>
          match decodeNumber text with
          | some v => .value v cs
          | none => .failed
      | (⟨.string, text⟩, cs) =>
          match decodeString text with
          | some s => .value (.stringValue s) cs
          | none => .failed
      | (⟨.true, _⟩, cs) => .value (.booleanValue true) cs
      | (⟨.false, _⟩, cs) => .value (.booleanValue false) cs
      | (⟨.null, _⟩, cs) => .value .nullValue cs
      | _ => .failed

/-- `Reader::parse(document, root)`: the root where it answers true, none where
it answers false, or what it throws. Text behind the root is ignored. -/
def parse [CxxDouble D] (document : StdString) : Except Error (Option (Value D)) :=
  match readValue stackLimit document with
  | .value v _ => .ok (some v)
  | .failed => .ok none
  | .thrown e => .error e

end Json.Reader

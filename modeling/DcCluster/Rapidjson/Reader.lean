import DcCluster.Lib.Decoder
import DcCluster.Server.HttpCore

/-!
Executable model of `GenericReader::Parse` over a `StringStream` with the default flags.
The stream is the list of the characters up to the NUL, so that at its end `Peek` gives
the NUL. A `Document` takes every event.
-/

namespace DcCluster.Rapidjson

open DcCluster.Lib DcCluster.Mq DcCluster.Server

/-- The errors that these flags and a `Document` leave. -/
inductive ParseErrorCode
  | documentEmpty
  | documentRootNotSingular
  | valueInvalid
  | objectMissName
  | objectMissColon
  | objectMissCommaOrCurlyBracket
  | arrayMissCommaOrSquareBracket
  | stringUnicodeEscapeInvalidHex
  | stringUnicodeSurrogateInvalid
  | stringEscapeInvalid
  | stringMissQuotationMark
  | stringInvalidEncoding
  | numberTooBig
  | numberMissFraction
  | numberMissExponent
  deriving DecidableEq, Repr

abbrev GenericReader (α : Type) := Decoder Char ParseErrorCode α

def nul : Char := Char.ofNat 0

def peek : GenericReader Char := fun is => .ok (is.headD nul, is)

def takeChar : GenericReader Char := fun is => .ok (is.headD nul, is.tail)

def isBlank (c : Char) : Bool := c == ' ' || c == '\n' || c == '\r' || c == '\t'

def skipWhitespace : GenericReader Unit := fun is => .ok ((), is.dropWhile isBlank)

def consume (expect : Char) : GenericReader Bool := fun is =>
  if is.headD nul = expect then .ok (true, is.tail) else .ok (false, is)

/-- `Consume(is, a) && Consume(is, b) && …`. -/
def consumeAll : List Char → GenericReader Bool
  | [] => pure true
  | expect :: more => do
      if ← consume expect then consumeAll more else pure false

def parseLiteral (more : List Char) (value : Json) : GenericReader Json := do
  let _ ← takeChar
  if ← consumeAll more then pure value else Decoder.fail .valueInvalid

def parseNull : GenericReader Json := parseLiteral ['u', 'l', 'l'] .null

def parseTrue : GenericReader Json := parseLiteral ['r', 'u', 'e'] (.bool true)

def parseFalse : GenericReader Json := parseLiteral ['a', 'l', 's', 'e'] (.bool false)

def hexDigit (c : Char) : Option Nat :=
  if '0' ≤ c ∧ c ≤ '9' then some (c.toNat - '0'.toNat)
  else if 'A' ≤ c ∧ c ≤ 'F' then some (c.toNat - ('A'.toNat - 10))
  else if 'a' ≤ c ∧ c ≤ 'f' then some (c.toNat - ('a'.toNat - 10))
  else none

def hexDigits : Nat → Nat → GenericReader Nat
  | 0, codepoint => pure codepoint
  | count + 1, codepoint => do
      match hexDigit (← peek) with
      | some digit => do
          let _ ← takeChar
          hexDigits count (codepoint * 16 + digit)
      | none => Decoder.fail .stringUnicodeEscapeInvalidHex

def parseHex4 : GenericReader Nat := hexDigits 4 0

/-- `UTF8::Encode`, which does not know of surrogates. -/
def encode (codepoint : Nat) : Text :=
  if codepoint ≤ 0x7F then [Char.ofNat codepoint]
  else if codepoint ≤ 0x7FF then
    [Char.ofNat (0xC0 + codepoint / 64), Char.ofNat (0x80 + codepoint % 64)]
  else if codepoint ≤ 0xFFFF then
    [Char.ofNat (0xE0 + codepoint / 4096), Char.ofNat (0x80 + codepoint / 64 % 64),
      Char.ofNat (0x80 + codepoint % 64)]
  else
    [Char.ofNat (0xF0 + codepoint / 262144), Char.ofNat (0x80 + codepoint / 4096 % 64),
      Char.ofNat (0x80 + codepoint / 64 % 64), Char.ofNat (0x80 + codepoint % 64)]

/-- The table `escape`, where `none` is a zero. -/
def escape : Char → Option Char
  | '"' => some '"'
  | '/' => some '/'
  | '\\' => some '\\'
  | 'b' => some (Char.ofNat 8)
  | 'f' => some (Char.ofNat 12)
  | 'n' => some '\n'
  | 'r' => some '\r'
  | 't' => some '\t'
  | _ => none

def isLeadSurrogate (codepoint : Nat) : Bool := 0xD800 ≤ codepoint && codepoint ≤ 0xDBFF

def isTrailSurrogate (codepoint : Nat) : Bool := 0xDC00 ≤ codepoint && codepoint ≤ 0xDFFF

def pairOf (codepoint codepoint2 : Nat) : Nat :=
  (codepoint - 0xD800) * 1024 + (codepoint2 - 0xDC00) + 0x10000

def parseTrail (codepoint : Nat) : GenericReader Text := do
  if ← consumeAll ['\\', 'u'] then
    let codepoint2 ← parseHex4
    if isTrailSurrogate codepoint2 then pure (encode (pairOf codepoint codepoint2))
    else Decoder.fail .stringUnicodeSurrogateInvalid
  else Decoder.fail .stringUnicodeSurrogateInvalid

def parseUnicode : GenericReader Text := do
  let codepoint ← parseHex4
  if isLeadSurrogate codepoint then parseTrail codepoint else pure (encode codepoint)

/-- What is put after a backslash. -/
def parseEscape : GenericReader Text := do
  let e ← takeChar
  match escape e with
  | some c => pure [c]
  | none => if e = 'u' then parseUnicode else Decoder.fail .stringEscapeInvalid

/-- One turn of `ParseStringToStream`; `os` is what was put. -/
def stringTurn (os : Text) : GenericReader (Turn Text) := do
  let c ← peek
  if c = '\\' then
    let _ ← takeChar
    let put ← parseEscape
    pure (.again (os ++ put))
  else if c = '"' then
    let _ ← takeChar
    pure (.done os)
  else if c.toNat < 0x20 then
    if c = nul then Decoder.fail .stringMissQuotationMark
    else Decoder.fail .stringInvalidEncoding
  else
    let _ ← takeChar
    pure (.again (os ++ [c]))

def parseString : GenericReader Text := do
  let _ ← takeChar
  Decoder.loop .stringMissQuotationMark stringTurn []

def isDigit (c : Char) : Bool := '0' ≤ c && c ≤ '9'

/-- The loops over digits; `s` is the number up to here. -/
def digits (refuses : Text → Bool) (s : Text) : GenericReader Text
  | [] => .ok (s, [])
  | c :: is =>
      if isDigit c then
        if refuses (s ++ [c]) then .error .numberTooBig else digits refuses (s ++ [c]) is
      else .ok (s, c :: is)

def noLimit (_ : Text) : Bool := false

section Numbers

/- What the arithmetic of doubles says of a number that would get one more digit in its
integer part, or in an exponent that is not negative. -/
variable (tooBig : Text → Bool)

def parseInteger (s : Text) : GenericReader Text := do
  let c ← peek
  if c = '0' then
    let _ ← takeChar
    pure (s ++ [c])
  else if isDigit c then
    let _ ← takeChar
    digits tooBig (s ++ [c])
  else Decoder.fail .valueInvalid

/-- `1*DIGIT`, of a fraction and of an exponent. -/
def parseDigits (missing : ParseErrorCode) (refuses : Text → Bool) (s : Text) :
    GenericReader Text := do
  let c ← peek
  if isDigit c then
    let _ ← takeChar
    digits refuses (s ++ [c])
  else Decoder.fail missing

def parseFraction (s : Text) : GenericReader Text := do
  if ← consume '.' then parseDigits .numberMissFraction noLimit (s ++ ['.']) else pure s

def parseExponentSign (s : Text) : GenericReader Text := do
  if ← consume '+' then parseDigits .numberMissExponent tooBig (s ++ ['+'])
  else if ← consume '-' then parseDigits .numberMissExponent noLimit (s ++ ['-'])
  else parseDigits .numberMissExponent tooBig s

def parseExponent (s : Text) : GenericReader Text := do
  if ← consume 'e' then parseExponentSign tooBig (s ++ ['e'])
  else if ← consume 'E' then parseExponentSign tooBig (s ++ ['E'])
  else pure s

def parseNumber : GenericReader Json := do
  let minus ← consume '-'
  let integer ← parseInteger tooBig (if minus then ['-'] else [])
  let significand ← parseFraction integer
  let _ ← parseExponent tooBig significand
  pure .number

end Numbers

section Values

variable (value : GenericReader Json)

def elementTurn (elements : List Json) : GenericReader (Turn (List Json)) := do
  let element ← value
  skipWhitespace
  if ← consume ',' then
    skipWhitespace
    pure (.again (elements ++ [element]))
  else if ← consume ']' then pure (.done (elements ++ [element]))
  else Decoder.fail .arrayMissCommaOrSquareBracket

def parseArray : GenericReader Json := do
  let _ ← takeChar
  skipWhitespace
  if ← consume ']' then pure (.array [])
  else
    let elements ← Decoder.loop .valueInvalid (elementTurn value) []
    pure (.array elements)

/-- One turn of the loop of `ParseObject`, after the colon. -/
def memberValue (members : List (Text × Json)) (name : Text) :
    GenericReader (Turn (List (Text × Json))) := do
  skipWhitespace
  let member ← value
  skipWhitespace
  if ← consume ',' then
    skipWhitespace
    pure (.again (members ++ [(name, member)]))
  else if ← consume '\x7d' then pure (.done (members ++ [(name, member)]))
  else Decoder.fail .objectMissCommaOrCurlyBracket

def memberTurn (members : List (Text × Json)) : GenericReader (Turn (List (Text × Json))) := do
  let c ← peek
  if c = '"' then
    let name ← parseString
    skipWhitespace
    if ← consume ':' then memberValue value members name
    else Decoder.fail .objectMissColon
  else Decoder.fail .objectMissName

def parseObject : GenericReader Json := do
  let _ ← takeChar
  skipWhitespace
  if ← consume '\x7d' then pure (.object [])
  else
    let members ← Decoder.loop .objectMissName (memberTurn value) []
    pure (.object members)

end Values

/-- `ParseValue`. Every array and every object takes a character before it goes on to its
values, so that the length of the stream bounds the depth. -/
def parseValue (tooBig : Text → Bool) : Nat → GenericReader Json
  | 0 => Decoder.fail .valueInvalid
  | depth + 1 => do
      let c ← peek
      if c = 'n' then parseNull
      else if c = 't' then parseTrue
      else if c = 'f' then parseFalse
      else if c = '"' then
        let text ← parseString
        pure (.string text)
      else if c = '\x7b' then parseObject (parseValue tooBig depth)
      else if c = '[' then parseArray (parseValue tooBig depth)
      else parseNumber tooBig

def parseRoot (tooBig : Text → Bool) (depth : Nat) : GenericReader Json := do
  skipWhitespace
  let c ← peek
  if c = nul then Decoder.fail .documentEmpty
  else
    let root ← parseValue tooBig depth
    skipWhitespace
    let c ← peek
    if c = nul then pure root else Decoder.fail .documentRootNotSingular

def parse (tooBig : Text → Bool) (str : Text) : Except ParseErrorCode Json :=
  (parseRoot tooBig (cString str).length (cString str)).map Prod.fst

end DcCluster.Rapidjson

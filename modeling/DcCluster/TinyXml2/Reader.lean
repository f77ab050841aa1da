import DcCluster.Lib.CInt
import DcCluster.Lib.Decoder
import DcCluster.Mq.MqUri

/-!
Executable model of `XMLDocument::LoadFile` and of what reads the tree that it builds.
A pointer into the buffer is the list of the characters from there up to the NUL.
Line numbers and the text of an error are not kept. The virtual `ParseDeep` is `parseDeep`
with one definition for each class, and `XMLNode::ParseDeep` is the loop of `nodeTurn`.
-/

namespace DcCluster.TinyXml2

open DcCluster.Lib DcCluster.Mq

inductive XMLError
  | fileNotFound
  | parsingElement
  | parsingAttribute
  | parsingText
  | parsingCdata
  | parsingComment
  | parsingDeclaration
  | parsingUnknown
  | emptyDocument
  | mismatchedElement
  | parsing
  deriving DecidableEq, Repr

abbrev XMLReader (α : Type) := Decoder Char XMLError α

def nul : Char := Char.ofNat 0
def lf : Char := Char.ofNat 0x0A
def cr : Char := Char.ofNat 0x0D
def singleQuote : Char := Char.ofNat 0x27
def doubleQuote : Char := Char.ofNat 0x22

def isWhiteSpace (p : Char) : Bool := p.toNat == 0x20 || (9 ≤ p.toNat && p.toNat ≤ 13)

def isNameStartChar (ch : Char) : Bool :=
  128 ≤ ch.toNat || ('a' ≤ ch && ch ≤ 'z') || ('A' ≤ ch && ch ≤ 'Z') || ch == ':' || ch == '_'

def isNameChar (ch : Char) : Bool :=
  isNameStartChar ch || ('0' ≤ ch && ch ≤ '9') || ch == '.' || ch == '-'

section StrPair

def entities : List (Text × Char) :=
  [(['q', 'u', 'o', 't'], doubleQuote), (['a', 'm', 'p'], '&'),
    (['a', 'p', 'o', 's'], singleQuote), (['l', 't'], '<'), (['g', 't'], '>')]

def convertUTF32ToUTF8 (input : Nat) : Text :=
  if input < 0x80 then [Char.ofNat input]
  else if input < 0x800 then
    [Char.ofNat (0xC0 + input / 64), Char.ofNat (0x80 + input % 64)]
  else if input < 0x10000 then
    [Char.ofNat (0xE0 + input / 4096), Char.ofNat (0x80 + input / 64 % 64),
      Char.ofNat (0x80 + input % 64)]
  else if input < 0x200000 then
    [Char.ofNat (0xF0 + input / 262144), Char.ofNat (0x80 + input / 4096 % 64),
      Char.ofNat (0x80 + input / 64 % 64), Char.ofNat (0x80 + input % 64)]
  else []

def decimalDigit (q : Char) : Option Nat :=
  if '0' ≤ q ∧ q ≤ '9' then some (q.toNat - '0'.toNat) else none

def hexadecimalDigit (q : Char) : Option Nat :=
  if '0' ≤ q ∧ q ≤ '9' then some (q.toNat - '0'.toNat)
  else if 'a' ≤ q ∧ q ≤ 'f' then some (q.toNat - 'a'.toNat + 10)
  else if 'A' ≤ q ∧ q ≤ 'F' then some (q.toNat - 'A'.toNat + 10)
  else none

/-- The loops of `GetCharacterRef` over the digits, from the last one to the first. `mult` and
its product with a digit are `unsigned`. -/
def sumDigits (base : Nat) (digit : Char → Option Nat) : Nat → Nat → Text → Option Nat
  | _, ucs, [] => some ucs
  | mult, ucs, q :: more =>
      (digit q).bind fun digit' =>
        sumDigits base digit (mult * base % 4294967296) ((ucs + mult * digit' % 4294967296) % 18446744073709551616) more

/-- A reference from its digits on. The loops go back from the semicolon to `mark`. -/
def numberRef (base : Nat) (digit : Char → Option Nat) (mark : Char) (q : Text) :
    Option (Text × Text) :=
  if ';' ∈ q then
    let body := q.takeWhile fun char => char ≠ ';'
    (sumDigits base digit 1 0 (body.reverse.takeWhile fun char => char ≠ mark)).map fun ucs =>
      (convertUTF32ToUTF8 ucs, (q.dropWhile fun char => char ≠ ';').tail)
  else none

/-- `GetCharacterRef` behind `&#`: what it stands for and what follows it. -/
def getCharacterRef : Text → Option (Text × Text)
  | [] => some ([], ['#'])
  | c :: more =>
      if c = 'x' then
        if more = [] then none else numberRef 16 hexadecimalDigit 'x' more
      else numberRef 10 decimalDigit '#' (c :: more)

/-- A turn of `GetStr` at an ampersand: `start` is the string before the call, `written` what has
been put over its beginning. A name that is not in the table leaves a byte as it is there. -/
def replaceEntity (start written p : Text) : Text × Text :=
  match p with
  | '#' :: more =>
      match getCharacterRef more with
      | some (buf, adjusted) => (written ++ buf, adjusted)
      | none => (written ++ ['&'], p)
  | _ =>
      match entities.find? fun entity => (entity.1 ++ [';']).isPrefixOf p with
      | some entity => (written ++ [entity.2], p.drop (entity.1.length + 1))
      | none => (written ++ [start.getD written.length nul], p)

def getStrFrom (start : Text) : Nat → Text → Text → Text
  | _, written, [] => written
  | 0, written, _ => written
  | fuel + 1, written, c :: p =>
      if c = cr then getStrFrom start fuel (written ++ [lf]) (if p.head? = some lf then p.tail else p)
      else if c = lf then
        getStrFrom start fuel (written ++ [lf]) (if p.head? = some cr then p.tail else p)
      else if c = '&' then
        let (next, rest) := replaceEntity start written p
        getStrFrom start fuel next rest
      else getStrFrom start fuel (written ++ [c]) p

/-- `GetStr`, as the C string that the caller sees. -/
def getStr (start : Text) : Text := cString (getStrFrom start start.length [] start)

/-- `ParseText`: the text before the first `endTag` and what follows the tag. -/
def findEndTag (endTag : Text) : Text → Option (Text × Text)
  | [] => none
  | c :: p =>
      if endTag.isPrefixOf (c :: p) then some ([], (c :: p).drop endTag.length)
      else (findEndTag endTag p).map fun found => (c :: found.1, found.2)

def parseText (error : XMLError) (endTag : Text) : XMLReader Text := fun p =>
  match findEndTag endTag p with
  | some found => .ok found
  | none => .error error

def parseName (error : XMLError) : XMLReader Text := fun p =>
  match p with
  | [] => .error error
  | c :: more =>
      if isNameStartChar c then .ok (c :: more.takeWhile isNameChar, more.dropWhile isNameChar)
      else .error error

end StrPair

def peek : XMLReader Char := fun p => .ok (p.headD nul, p)

def takeChar : XMLReader Char := fun p => .ok (p.headD nul, p.tail)

def skipWhiteSpace : XMLReader Unit := fun p => .ok ((), p.dropWhile isWhiteSpace)

def quotedValue (name : Text) (quote : Char) : XMLReader (Text × Text) :=
  if quote = doubleQuote ∨ quote = singleQuote then do
    let value ← parseText .parsingAttribute [quote]
    pure (name, value)
  else Decoder.fail .parsingAttribute

def equalsValue (name : Text) : XMLReader (Text × Text) := do
  skipWhiteSpace
  let equals ← takeChar
  if equals = '=' then
    skipWhiteSpace
    let quote ← takeChar
    quotedValue name quote
  else Decoder.fail .parsingAttribute

def parseAttribute : XMLReader (Text × Text) := parseName .parsingAttribute >>= equalsValue

abbrev Attributes := List (Text × Text)

def readAttribute (attributes : Attributes) : XMLReader (Turn (Attributes × Bool)) := do
  let attrib ← parseAttribute
  if attributes.any fun other => other.1 = attrib.1 then Decoder.fail .parsingAttribute
  else pure (.again (attributes ++ [attrib], false))

/-- The end of a tag at `c`; the flag is set by `/>`. -/
def readEnd (attributes : Attributes) (c : Char) : XMLReader (Turn (Attributes × Bool)) :=
  if c = '>' then pure (.done (attributes, false))
  else if c = '/' then do
    let next ← takeChar
    if next = '>' then pure (.done (attributes, true)) else Decoder.fail .parsingElement
  else Decoder.fail .parsingElement

def attributeOrEnd (attributes : Attributes) : XMLReader (Turn (Attributes × Bool)) := do
  let c ← peek
  if isNameStartChar c then readAttribute attributes else takeChar >>= readEnd attributes

def attributeTurn (state : Attributes × Bool) : XMLReader (Turn (Attributes × Bool)) := do
  skipWhiteSpace
  attributeOrEnd state.1

def parseAttributes : XMLReader (Attributes × Bool) :=
  Decoder.loop .parsingElement attributeTurn ([], false)

inductive ClosingType
  | opened
  | closed
  | closing
  deriving DecidableEq, Repr

inductive XMLNode
  | text (value : Text) (isCData : Bool)
  | comment (value : Text)
  | declaration (value : Text)
  | unknown (value : Text)
  | element (name : Text) (attributes : Attributes) (closingType : ClosingType)
      (children : List XMLNode)
  deriving Repr

/-- What a level of the tree has got so far, and the end tag that has closed it. -/
structure Level where
  children : List XMLNode
  endTag : Option Text

inductive Header
  | declaration
  | comment
  | cdata
  | unknown
  | element
  | text
  deriving DecidableEq, Repr

/-- The patterns of `Identify`, in the order in which it tries them. -/
def headers : List (Text × Header) :=
  [(['<', '?'], .declaration), (['<', '!', '-', '-'], .comment),
    (['<', '!', '[', 'C', 'D', 'A', 'T', 'A', '['], .cdata), (['<', '!'], .unknown),
    (['<'], .element)]

/-- `Identify`. A text starts before the blanks that were skipped. -/
def identify : XMLReader (Option Header) := fun p =>
  let q := p.dropWhile isWhiteSpace
  if q = [] then .ok (none, q)
  else
    match headers.find? fun header => header.1.isPrefixOf q with
    | some header => .ok (some header.2, q.drop header.1.length)
    | none => .ok (some .text, p)

/-- `XMLText::ParseDeep` outside of CDATA: it stops before the `<`, which may not be the last
character. -/
def parseTextNode : XMLReader XMLNode := fun p =>
  match findEndTag ['<'] p with
  | none => .error .parsingText
  | some (value, rest) =>
      if rest = [] then .error .parsing else .ok (.text value false, '<' :: rest)

structure Tag where
  name : Text
  attributes : Attributes
  closingType : ClosingType

def tagName (c : Char) : XMLReader Text := do
  if c = '/' then
    let _ ← takeChar
    parseName .parsing
  else parseName .parsing

def nameAndAttributes (c : Char) : XMLReader Tag := do
  let name ← tagName c
  let attributes ← parseAttributes
  pure
    { name := name
      attributes := attributes.1
      closingType := if attributes.2 then .closed else if c = '/' then .closing else .opened }

def parseTag : XMLReader Tag := do
  skipWhiteSpace
  let c ← peek
  nameAndAttributes c

section Nodes

/- `XMLNode::ParseDeep` for the children of an element. -/
variable (level : XMLReader Level)

/-- The end tag comes back with the children. Without one the call has returned a null
pointer. -/
def closeElement (tag : Tag) (inner : Level) : XMLReader (XMLNode × Option Text) :=
  match inner.endTag with
  | none => Decoder.fail .parsing
  | some endTag =>
      pure (.element tag.name tag.attributes tag.closingType inner.children, some endTag)

def parseChildren (tag : Tag) : XMLReader (XMLNode × Option Text) := fun p =>
  if p = [] ∨ tag.closingType ≠ .opened then
    .ok ((.element tag.name tag.attributes tag.closingType [], none), p)
  else (level >>= closeElement tag) p

def parseElement : XMLReader (XMLNode × Option Text) := parseTag >>= parseChildren level

def parseDeep : Header → XMLReader (XMLNode × Option Text)
  | .declaration => do
      let value ← parseText .parsingDeclaration ['?', '>']
      pure (.declaration value, none)
  | .comment => do
      let value ← parseText .parsingComment ['-', '-', '>']
      pure (.comment value, none)
  | .cdata => do
      let value ← parseText .parsingCdata [']', ']', '>']
      pure (.text value true, none)
  | .unknown => do
      let value ← parseText .parsingUnknown ['>']
      pure (.unknown value, none)
  | .element => parseElement level
  | .text => do
      let node ← parseTextNode
      pure (node, none)

def isDeclaration : XMLNode → Bool
  | .declaration _ => true
  | _ => false

def mismatch (name : Text) (closingType : ClosingType) : Option Text → Bool
  | none => closingType = .opened
  | some endTag => closingType ≠ .opened || endTag ≠ name

def placeNode (isDocument : Bool) (state : Level) (node : XMLNode) (endTag : Option Text) :
    XMLReader (Turn Level) :=
  match node with
  | .declaration _ =>
      if isDocument && state.children.all isDeclaration then
        pure (.again { state with children := state.children ++ [node] })
      else Decoder.fail .parsingDeclaration
  | .element name _ closingType _ =>
      if closingType = .closing then pure (.done { state with endTag := some name })
      else if mismatch name closingType endTag then Decoder.fail .mismatchedElement
      else pure (.again { state with children := state.children ++ [node] })
  | _ => pure (.again { state with children := state.children ++ [node] })

def nodeTurn (isDocument : Bool) (state : Level) : XMLReader (Turn Level) := do
  match ← identify with
  | none => pure (.done state)
  | some header => do
      let parsed ← parseDeep level header
      placeNode isDocument state parsed.1 parsed.2

end Nodes

/-- `XMLNode::ParseDeep`. Every element takes a character before it goes on to its children, so
that the length of the buffer bounds the depth. -/
def parseLevel : Nat → Bool → XMLReader Level
  | 0, _ => Decoder.fail .parsing
  | depth + 1, isDocument =>
      Decoder.loop .parsing (nodeTurn (parseLevel depth false) isDocument) ⟨[], none⟩

def bom : Text := [Char.ofNat 0xEF, Char.ofNat 0xBB, Char.ofNat 0xBF]

def readBOM (p : Text) : Text := if bom.isPrefixOf p then p.drop bom.length else p

/-- Where `XMLDocument::Parse` starts in the buffer, which ends at a NUL. -/
def documentStart (charBuffer : Text) : Text :=
  readBOM ((cString charBuffer).dropWhile isWhiteSpace)

def parse (charBuffer : Text) : Except XMLError (List XMLNode) :=
  let p := documentStart charBuffer
  if p = [] then .error .emptyDocument
  else (parseLevel (p.length + 1) true p).map fun result => result.1.children

def loadFile : Option Text → Except XMLError (List XMLNode)
  | none => .error .fileNotFound
  | some file => parse file

structure XMLElement where
  name : Text
  attributes : Attributes
  children : List XMLNode

def XMLNode.toElement : XMLNode → Option XMLElement
  | .element name attributes _ children =>
      some { name := name, attributes := attributes, children := children }
  | _ => none

/-- `FirstChildElement`; any element without a name. -/
def firstChildElement (name : Option Text) (children : List XMLNode) : Option XMLElement :=
  (children.filterMap XMLNode.toElement).find? fun element =>
    name.all fun name => element.name = name

/-- The integer that `sscanf` reads with `%d`; too long a number is cut as glibc does it. -/
def toInt (str : Text) : Option Int :=
  let p := str.dropWhile isWhiteSpace
  let negative := p.head? = some '-'
  let q := if negative ∨ p.head? = some '+' then p.tail else p
  let digits := q.takeWhile fun c => '0' ≤ c ∧ c ≤ '9'
  if digits = [] then none
  else
    let value : Int := digits.foldl (fun number c => number * 10 + (c.toNat - '0'.toNat : Nat)) 0
    let long := if negative then max (-value) (-9223372036854775808)
      else min value 9223372036854775807
    some (wrapInt long)

namespace XMLElement

def attributeValue (element : XMLElement) (name : Text) : Option Text :=
  (element.attributes.find? fun attrib => attrib.1 = name).map fun attrib => getStr attrib.2

def intAttribute (element : XMLElement) (name : Text) : Int :=
  ((element.attributeValue name).bind toInt).getD 0

end XMLElement

end DcCluster.TinyXml2

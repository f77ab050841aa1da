import DcCluster.Lib.CInt

/-!
`MqMgr::ParseMqUri`, with the positions that it keeps in `int` variables. A
string is its list of characters. Positions past `INT_MAX` wrap, and a `substr`
that starts behind the end leaves the function by an exception.
-/

namespace DcCluster.Mq

open DcCluster.Lib

abbrev Text := List Char

/-- The part of a string that a function taking a `const char*` sees. -/
def cString (text : Text) : Text := text.takeWhile fun char => char ≠ Char.ofNat 0

inductive MqMsgMode
  | topic
  | queue
  deriving DecidableEq, Repr

def npos : Nat := 18446744073709551615

def findIn (pattern : Text) : Text → Nat → Option Nat
  | [], offset => if pattern.isEmpty then some offset else none
  | char :: rest, offset =>
      if pattern.isPrefixOf (char :: rest) then some offset else findIn pattern rest (offset + 1)

def find (text pattern : Text) (pos : Nat) : Nat :=
  if pos ≤ text.length then (findIn pattern (text.drop pos) pos).getD npos else npos

/-- `text.substr(pos, count)`, or `none` when it throws `std::out_of_range`. -/
def substr (text : Text) (pos count : Nat) : Option Text :=
  if pos ≤ text.length then some ((text.drop pos).take count) else none

inductive ParsedUri
  | fail
  | outOfRange
  | ok (strMQSvr strDstName : Text) (nType : MqMsgMode)
  deriving DecidableEq, Repr

def modeOf (strType : Text) : Option MqMsgMode :=
  if strType = ['q', 'u', 'e', 'u', 'e'] then some .queue
  else if strType = ['t', 'o', 'p', 'i', 'c'] then some .topic
  else none

def parseDst (strMqUri strMQSvr : Text) (nType : MqMsgMode) (nCurr : Int) : ParsedUri :=
  match substr strMqUri (toSize nCurr) npos with
  | none => .outOfRange
  | some strDstName => if strDstName.isEmpty then .fail else .ok strMQSvr strDstName nType

def parseMode (strMqUri strMQSvr : Text) (nCurr : Int) : ParsedUri :=
  let nIndex := toInt (find strMqUri ['/'] (toSize nCurr))
  if toSize nIndex = npos then .fail
  else
    match substr strMqUri (toSize nCurr) (toSize (wrapInt (nIndex - nCurr))) with
    | none => .outOfRange
    | some strType =>
        match modeOf strType with
        | none => .fail
        | some nType => parseDst strMqUri strMQSvr nType (wrapInt (nIndex + 1))

def parseMqUri (strMqUri : Text) : ParsedUri :=
  let nIndex := toInt (find strMqUri ['m', 'q', '/'] 0)
  if toSize nIndex = npos then .fail
  else
    let nCurr := wrapInt (nIndex + 3)
    let nIndex := toInt (find strMqUri ['/'] (toSize nCurr))
    if toSize nIndex = npos then .fail
    else
      match substr strMqUri (toSize nCurr) (toSize (wrapInt (nIndex - nCurr))) with
      | none => .outOfRange
      | some strMQSvr => parseMode strMqUri strMQSvr (wrapInt (nIndex + 1))

end DcCluster.Mq

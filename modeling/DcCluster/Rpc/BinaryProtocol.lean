import DcCluster.Lib.Decoder

/-!
Executable model of `TBinaryProtocolT` and of the generic `skip` of `TProtocol.h`.
A buffer is the list of its bytes. What is written is the list of bytes that go to
the transport, and a read takes its bytes from the front of the frame.
-/

namespace DcCluster.Rpc

open DcCluster.Lib

abbrev Bytes := List UInt8

/-- What the protocol, the transport and the generated clients throw. `application` is a
`TApplicationException` of the other side. -/
inductive TException
  | endOfFile
  | badVersion (what : String)
  | negativeSize
  | sizeLimit
  | depthLimit
  | application
  | missingResult (what : String)
  deriving DecidableEq, Repr

abbrev Reader (α : Type) := Decoder UInt8 TException α

abbrev Written := Except TException Bytes

def Written.append (first second : Written) : Written := do
  let bytes ← first
  let more ← second
  pure (bytes ++ more)

instance : Append Written := ⟨Written.append⟩

/-- `other` stands for a byte that was cast to the enumeration without being one of its
values. -/
inductive TType
  | stop
  | void
  | bool
  | byte
  | double
  | i16
  | i32
  | u64
  | i64
  | string
  | struct
  | map
  | set
  | list
  | utf8
  | utf16
  | other (code : Int8)
  deriving DecidableEq, Repr

def TType.code : TType → Int8
  | .stop => 0
  | .void => 1
  | .bool => 2
  | .byte => 3
  | .double => 4
  | .i16 => 6
  | .i32 => 8
  | .u64 => 9
  | .i64 => 10
  | .string => 11
  | .struct => 12
  | .map => 13
  | .set => 14
  | .list => 15
  | .utf8 => 16
  | .utf16 => 17
  | .other code => code

def TType.named : List TType :=
  [.stop, .void, .bool, .byte, .double, .i16, .i32, .u64, .i64, .string, .struct, .map, .set,
    .list, .utf8, .utf16]

/-- The cast `(TType)type`. -/
def TType.ofCode (code : Int8) : TType :=
  (TType.named.find? fun ttype => ttype.code == code).getD (.other code)

abbrev TMessageType := Int32

def tCall : TMessageType := 1
def tReply : TMessageType := 2
def tException : TMessageType := 3
def tOneway : TMessageType := 4

/-- The members of `TBinaryProtocolT` that its functions read, as its one-argument
constructor sets them. -/
structure TBinaryProtocol where
  stringLimit : Int32 := 0
  containerLimit : Int32 := 0
  strictRead : Bool := false
  strictWrite : Bool := true
  deriving DecidableEq, Repr

def versionMask : Int32 := Int32.ofBitVec 0xffff0000#32

def version1 : Int32 := Int32.ofBitVec 0x80010000#32

/-- `numeric_limits<int32_t>::max()`. -/
def int32Max : Nat := 2147483647

def recursionLimit : Nat := 64

def writeBool (value : Bool) : Bytes := [if value then 1 else 0]

def writeByte (byte : Int8) : Bytes := writeBits 1 byte.toBitVec

def writeI16 (i16 : Int16) : Bytes := writeBits 2 i16.toBitVec

def writeI32 (i32 : Int32) : Bytes := writeBits 4 i32.toBitVec

def writeI64 (i64 : Int64) : Bytes := writeBits 8 i64.toBitVec

/-- A `double` is its 64 bits, which go through `bitwise_cast` unchanged. -/
def writeDouble (dub : BitVec 64) : Bytes := writeBits 8 dub

def writeString (str : Bytes) : Written :=
  if str.length > int32Max then .error .sizeLimit
  else .ok (writeI32 (Int32.ofNat str.length) ++ str)

def writeFieldBegin (fieldType : TType) (fieldId : Int16) : Bytes :=
  writeByte fieldType.code ++ writeI16 fieldId

def writeFieldStop : Bytes := writeByte TType.stop.code

def writeMapBegin (keyType valType : TType) (size : Nat) : Bytes :=
  writeByte keyType.code ++ writeByte valType.code ++ writeI32 (Int32.ofNat size)

def writeListBegin (elemType : TType) (size : Nat) : Bytes :=
  writeByte elemType.code ++ writeI32 (Int32.ofNat size)

def writeSetBegin (elemType : TType) (size : Nat) : Bytes := writeListBegin elemType size

def writeMessageBegin (protocol : TBinaryProtocol) (name : Bytes) (messageType : TMessageType)
    (seqid : Int32) : Written :=
  if protocol.strictWrite then
    .ok (writeI32 (version1 ||| messageType)) ++ writeString name ++ .ok (writeI32 seqid)
  else
    writeString name ++ .ok (writeByte messageType.toInt8) ++ .ok (writeI32 seqid)

def readByte : Reader Int8 := do
  let bits ← readBits TException.endOfFile 1
  pure (Int8.ofBitVec bits)

def readBool : Reader Bool := do
  let byte ← readByte
  pure (byte ≠ 0)

def readI16 : Reader Int16 := do
  let bits ← readBits TException.endOfFile 2
  pure (Int16.ofBitVec bits)

def readI32 : Reader Int32 := do
  let bits ← readBits TException.endOfFile 4
  pure (Int32.ofBitVec bits)

def readI64 : Reader Int64 := do
  let bits ← readBits TException.endOfFile 8
  pure (Int64.ofBitVec bits)

def readDouble : Reader (BitVec 64) := readBits TException.endOfFile 8

def readFieldBegin : Reader (TType × Int16) := do
  let type ← readByte
  if TType.ofCode type = .stop then pure (.stop, 0)
  else
    let fieldId ← readI16
    pure (TType.ofCode type, fieldId)

section Limits

variable {σ : Type} (protocol : TBinaryProtocol)

def readStringBody (size : Int32) : Reader Bytes :=
  if size < 0 then Decoder.fail .negativeSize
  else if protocol.stringLimit > 0 ∧ size > protocol.stringLimit then Decoder.fail .sizeLimit
  else if size = 0 then pure []
  else Decoder.take .endOfFile size.toNatClampNeg

def readString : Reader Bytes := do
  let size ← readI32
  readStringBody protocol size

/-- The check of a container's size, which `readMapBegin`, `readListBegin` and
`readSetBegin` repeat. -/
def containerSize (sizei : Int32) : Reader Nat :=
  if sizei < 0 then Decoder.fail .negativeSize
  else if protocol.containerLimit ≠ 0 ∧ sizei > protocol.containerLimit then
    Decoder.fail .sizeLimit
  else pure sizei.toNatClampNeg

def readMapBegin : Reader (TType × TType × Nat) := do
  let k ← readByte
  let v ← readByte
  let sizei ← readI32
  let size ← containerSize protocol sizei
  pure (TType.ofCode k, TType.ofCode v, size)

def readListBegin : Reader (TType × Nat) := do
  let e ← readByte
  let sizei ← readI32
  let size ← containerSize protocol sizei
  pure (TType.ofCode e, size)

def readSetBegin : Reader (TType × Nat) := readListBegin protocol

structure MessageBegin where
  name : Bytes
  messageType : TMessageType
  seqid : Int32
  deriving DecidableEq, Repr

def readMessageBegin : Reader MessageBegin := do
  let sz ← readI32
  if sz < 0 then
    if sz &&& versionMask ≠ version1 then Decoder.fail (.badVersion "Bad version identifier")
    else
      let name ← readString protocol
      let seqid ← readI32
      pure { name := name, messageType := sz &&& 0xff, seqid := seqid }
  else if protocol.strictRead then
    Decoder.fail
      (.badVersion "No version identifier... old protocol client in strict mode?")
  else
    -- pre-versioned input
    let name ← readStringBody protocol sz
    let type ← readByte
    let seqid ← readI32
    pure { name := name, messageType := type.toInt32, seqid := seqid }

/-- One turn of a loop over the fields of a struct, of `skip` and of every generated `read`:
`body` is what happens to a field. -/
def fieldTurn (body : σ → Int16 → TType → Reader σ) (struct : σ) : Reader (Turn σ) := do
  let (ftype, fid) ← readFieldBegin
  if ftype = .stop then pure (.done struct)
  else
    let struct ← body struct fid ftype
    pure (.again struct)

def readFields (body : σ → Int16 → TType → Reader σ) (struct : σ) : Reader σ :=
  Decoder.loop .endOfFile (fieldTurn body) struct

/-- `skip`, where `depth` more recursion trackers can be built. -/
def skip : Nat → TType → Reader Unit
  | 0, _ => Decoder.fail .depthLimit
  | depth + 1, type =>
      match type with
      | .bool => discard readBool
      | .byte => discard readByte
      | .i16 => discard readI16
      | .i32 => discard readI32
      | .i64 => discard readI64
      | .double => discard readDouble
      | .string => discard (readString protocol)
      | .struct => readFields (fun _ _ ftype => skip depth ftype) ()
      | .map => do
          let (keyType, valType, size) ← readMapBegin protocol
          Decoder.times (do skip depth keyType; skip depth valType) size
      | .set => do
          let (elemType, size) ← readSetBegin protocol
          Decoder.times (skip depth elemType) size
      | .list => do
          let (elemType, size) ← readListBegin protocol
          Decoder.times (skip depth elemType) size
      | .stop | .void | .u64 | .utf8 | .utf16 | .other _ => pure ()

/-- The shape of every generated `read`: the tracker, and the loop whose `switch` on the
field id reads or skips a field. `depth` is what `switch` has left. -/
def readStruct (switch : Nat → σ → Int16 → TType → Reader σ) : Nat → σ → Reader σ
  | 0, _ => Decoder.fail .depthLimit
  | depth + 1, struct => readFields (switch depth) struct

end Limits

end DcCluster.Rpc

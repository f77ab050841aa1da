import DcCluster.Rpc.BinaryProtocol

/-!
Every read of `TBinaryProtocolT` gets back what the matching write put out, and no
read looks further than the bytes it takes.
-/

namespace DcCluster.Rpc

open DcCluster.Lib

theorem TType.ofCode_code {ttype : TType} (known : ttype ∈ TType.named) :
    TType.ofCode ttype.code = ttype := by
  cases ttype with
  | other code => simp [TType.named] at known
  | _ => rfl

theorem readByte_writeByte (byte : Int8) : Decodes readByte (writeByte byte) byte :=
  (readBits_writeBits .endOfFile 1 byte.toBitVec).bind_pure Int8.ofBitVec

theorem readI16_writeI16 (i16 : Int16) : Decodes readI16 (writeI16 i16) i16 :=
  (readBits_writeBits .endOfFile 2 i16.toBitVec).bind_pure Int16.ofBitVec

theorem readI32_writeI32 (i32 : Int32) : Decodes readI32 (writeI32 i32) i32 :=
  (readBits_writeBits .endOfFile 4 i32.toBitVec).bind_pure Int32.ofBitVec

theorem readI64_writeI64 (i64 : Int64) : Decodes readI64 (writeI64 i64) i64 :=
  (readBits_writeBits .endOfFile 8 i64.toBitVec).bind_pure Int64.ofBitVec

theorem readDouble_writeDouble (dub : BitVec 64) : Decodes readDouble (writeDouble dub) dub :=
  readBits_writeBits .endOfFile 8 dub

theorem readBool_writeBool (value : Bool) : Decodes readBool (writeBool value) value := by
  have reads := (readByte_writeByte (if value then 1 else 0)).bind_pure fun byte =>
    decide (byte ≠ 0)
  cases value with
  | false => exact reads
  | true => exact reads

theorem readFieldBegin_writeFieldBegin {fieldType : TType} (known : fieldType ∈ TType.named)
    (goes : fieldType ≠ .stop) (fieldId : Int16) :
    Decodes readFieldBegin (writeFieldBegin fieldType fieldId) (fieldType, fieldId) := by
  refine (readByte_writeByte fieldType.code).bind ?_
  rw [TType.ofCode_code known, if_neg goes]
  exact (readI16_writeI16 fieldId).bind_pure fun fieldId => (fieldType, fieldId)

theorem readFieldBegin_writeFieldStop : Decodes readFieldBegin writeFieldStop (.stop, 0) :=
  (readByte_writeByte TType.stop.code).bind_pure fun _ => (TType.stop, (0 : Int16))

section Limits

variable (protocol : TBinaryProtocol)

/-- The lengths that can be written and that the limit on strings lets through. -/
def TBinaryProtocol.StringFits (size : Nat) : Prop :=
  size ≤ int32Max ∧ (protocol.stringLimit > 0 → Int32.ofNat size ≤ protocol.stringLimit)

def TBinaryProtocol.ContainerFits (size : Nat) : Prop :=
  size ≤ int32Max ∧ (protocol.containerLimit ≠ 0 → Int32.ofNat size ≤ protocol.containerLimit)

instance (size : Nat) : Decidable (protocol.StringFits size) :=
  inferInstanceAs (Decidable (_ ∧ _))

instance (size : Nat) : Decidable (protocol.ContainerFits size) :=
  inferInstanceAs (Decidable (_ ∧ _))

variable {protocol}

theorem stringFits_of_unlimited (unlimited : protocol.stringLimit = 0) {size : Nat}
    (writable : size ≤ int32Max) : protocol.StringFits size := by
  refine ⟨writable, fun positive => ?_⟩
  rw [unlimited] at positive
  exact absurd positive (by decide)

theorem ofNat_nonneg {size : Nat} (fits : size ≤ int32Max) : ¬ Int32.ofNat size < 0 := by
  unfold int32Max at fits
  rw [Int32.lt_iff_toInt_lt, Int32.toInt_ofNat_of_lt (by omega), Int32.toInt_zero]
  omega

theorem ofNat_toNatClampNeg {size : Nat} (fits : size ≤ int32Max) :
    (Int32.ofNat size).toNatClampNeg = size := by
  unfold int32Max at fits
  exact Int32.toNatClampNeg_ofNat_of_lt (by omega)

theorem ofNat_eq_zero {size : Nat} (fits : size ≤ int32Max) :
    Int32.ofNat size = 0 ↔ size = 0 := by
  constructor
  · intro zero
    have clamped := ofNat_toNatClampNeg fits
    rw [zero] at clamped
    exact clamped.symm
  · intro zero
    rw [zero]
    rfl

theorem readStringBody_decodes {str : Bytes} (fits : protocol.StringFits str.length) :
    Decodes (readStringBody protocol (Int32.ofNat str.length)) str str := by
  obtain ⟨writable, within⟩ := fits
  unfold readStringBody
  rw [if_neg (ofNat_nonneg writable)]
  split
  next large => exact absurd (within large.1) (Int32.not_le.mpr large.2)
  next =>
    split
    next zero =>
      have empty := List.length_eq_zero_iff.mp ((ofNat_eq_zero writable).mp zero)
      subst empty
      exact Decodes.pure []
    next =>
      rw [ofNat_toNatClampNeg writable]
      exact Decodes.take _ str

theorem writeString_ok {str : Bytes} (writable : str.length ≤ int32Max) :
    writeString str = .ok (writeI32 (Int32.ofNat str.length) ++ str) := by
  unfold writeString
  rw [if_neg (by omega)]

theorem readString_decodes {str : Bytes} (fits : protocol.StringFits str.length) :
    Decodes (readString protocol) (writeI32 (Int32.ofNat str.length) ++ str) str :=
  (readI32_writeI32 _).bind (readStringBody_decodes fits)

theorem containerSize_ofNat {size : Nat} (fits : protocol.ContainerFits size) :
    containerSize protocol (Int32.ofNat size) = pure size := by
  obtain ⟨writable, within⟩ := fits
  unfold containerSize
  rw [if_neg (ofNat_nonneg writable), ofNat_toNatClampNeg writable]
  split
  next large => exact absurd (within large.1) (Int32.not_le.mpr large.2)
  next => rfl

theorem readListBegin_decodes {elemType : TType} {size : Nat}
    (fits : protocol.ContainerFits size) :
    Decodes (readListBegin protocol) (writeListBegin elemType size)
      (TType.ofCode elemType.code, size) := by
  refine (readByte_writeByte elemType.code).bind ?_
  intro rest
  rw [Decoder.bind_ok (readI32_writeI32 _ rest), containerSize_ofNat fits]
  rfl

theorem readMapBegin_decodes {keyType valType : TType} {size : Nat}
    (fits : protocol.ContainerFits size) :
    Decodes (readMapBegin protocol) (writeMapBegin keyType valType size)
      (TType.ofCode keyType.code, TType.ofCode valType.code, size) := by
  unfold writeMapBegin
  rw [List.append_assoc]
  refine (readByte_writeByte keyType.code).bind ((readByte_writeByte valType.code).bind ?_)
  intro rest
  rw [Decoder.bind_ok (readI32_writeI32 _ rest), containerSize_ofNat fits]
  rfl

end Limits

/-- Reads no further than what it takes. -/
abbrev Framed {α : Type} (reader : Reader α) : Prop := Streaming TException.endOfFile reader

theorem framed_readByte : Framed readByte :=
  (Streaming.readBits _ 1).bind fun _ => Streaming.pure _ _

theorem framed_readBool : Framed readBool := framed_readByte.bind fun _ => Streaming.pure _ _

theorem framed_readI16 : Framed readI16 :=
  (Streaming.readBits _ 2).bind fun _ => Streaming.pure _ _

theorem framed_readI32 : Framed readI32 :=
  (Streaming.readBits _ 4).bind fun _ => Streaming.pure _ _

theorem framed_readI64 : Framed readI64 :=
  (Streaming.readBits _ 8).bind fun _ => Streaming.pure _ _

theorem framed_readFieldBegin : Framed readFieldBegin := by
  refine framed_readByte.bind fun type => ?_
  split
  next => exact Streaming.pure _ _
  next => exact framed_readI16.bind fun _ => Streaming.pure _ _

section Limits

variable (protocol : TBinaryProtocol)

theorem framed_readStringBody (size : Int32) : Framed (readStringBody protocol size) := by
  unfold readStringBody
  split
  next => exact Streaming.fail _ _
  next =>
    split
    next => exact Streaming.fail _ _
    next =>
      split
      next => exact Streaming.pure _ _
      next => exact Streaming.take _ _

theorem framed_readString : Framed (readString protocol) :=
  framed_readI32.bind fun size => framed_readStringBody protocol size

theorem framed_containerSize (sizei : Int32) : Framed (containerSize protocol sizei) := by
  unfold containerSize
  split
  next => exact Streaming.fail _ _
  next =>
    split
    next => exact Streaming.fail _ _
    next => exact Streaming.pure _ _

theorem framed_readListBegin : Framed (readListBegin protocol) :=
  framed_readByte.bind fun _ => framed_readI32.bind fun sizei =>
    (framed_containerSize protocol sizei).bind fun _ => Streaming.pure _ _

theorem framed_readMapBegin : Framed (readMapBegin protocol) :=
  framed_readByte.bind fun _ => framed_readByte.bind fun _ => framed_readI32.bind fun sizei =>
    (framed_containerSize protocol sizei).bind fun _ => Streaming.pure _ _

theorem framed_readMessageBegin : Framed (readMessageBegin protocol) := by
  refine framed_readI32.bind fun sz => ?_
  split
  next =>
    split
    next => exact Streaming.fail _ _
    next =>
      exact (framed_readString protocol).bind fun _ => framed_readI32.bind fun _ =>
        Streaming.pure _ _
  next =>
    split
    next => exact Streaming.fail _ _
    next =>
      exact (framed_readStringBody protocol sz).bind fun _ => framed_readByte.bind fun _ =>
        framed_readI32.bind fun _ => Streaming.pure _ _

theorem readStringBody_length {size : Int32} {bytes rest str : Bytes}
    (read : readStringBody protocol size bytes = .ok (str, rest)) : str.length ≤ int32Max := by
  unfold readStringBody at read
  split at read
  next => cases read
  next =>
    split at read
    next => cases read
    next =>
      split at read
      next =>
        cases read
        exact Nat.zero_le int32Max
      next =>
        unfold Decoder.take at read
        split at read
        next =>
          cases read
          have small := Int32.toNatClampNeg_lt size
          rw [List.length_take]
          unfold int32Max
          omega
        next => cases read

theorem readMessageBegin_name {bytes rest : Bytes} {call : MessageBegin}
    (read : readMessageBegin protocol bytes = .ok (call, rest)) :
    call.name.length ≤ int32Max := by
  obtain ⟨sz, left, _, read⟩ := Decoder.of_bind_ok read
  split at read
  next =>
    split at read
    next => cases read
    next =>
      obtain ⟨name, left, named, read⟩ := Decoder.of_bind_ok read
      obtain ⟨size, left, _, body⟩ := Decoder.of_bind_ok named
      obtain ⟨seqid, left, _, ends⟩ := Decoder.of_bind_ok read
      cases ends
      exact readStringBody_length protocol body
  next =>
    split at read
    next => cases read
    next =>
      obtain ⟨name, left, body, read⟩ := Decoder.of_bind_ok read
      obtain ⟨type, left, _, read⟩ := Decoder.of_bind_ok read
      obtain ⟨seqid, left, _, ends⟩ := Decoder.of_bind_ok read
      cases ends
      exact readStringBody_length protocol body

end Limits

section Fields

variable {σ : Type} {body : σ → Int16 → TType → Reader σ}

theorem readByte_length {bytes rest : Bytes} {byte : Int8}
    (read : readByte bytes = .ok (byte, rest)) : rest.length < bytes.length := by
  obtain ⟨bits, left, taken, ends⟩ := Decoder.of_bind_ok read
  cases ends
  have lengths := readBits_length taken
  omega

theorem readFieldBegin_length {bytes rest : Bytes} {field : TType × Int16}
    (read : readFieldBegin bytes = .ok (field, rest)) : rest.length < bytes.length := by
  obtain ⟨type, left, taken, follows⟩ := Decoder.of_bind_ok read
  have shorter := readByte_length taken
  split at follows
  next =>
    cases follows
    exact shorter
  next =>
    obtain ⟨fieldId, last, taken, ends⟩ := Decoder.of_bind_ok follows
    cases ends
    have fewer := framed_readI16.length_le taken
    omega

theorem advances_fieldTurn (framed : ∀ struct fid ftype, Framed (body struct fid ftype)) :
    Advances (fieldTurn body) := by
  intro struct bytes next rest read
  obtain ⟨⟨ftype, fid⟩, left, header, follows⟩ := Decoder.of_bind_ok read
  have shorter := readFieldBegin_length header
  dsimp only at follows
  split at follows
  next => cases follows
  next =>
    obtain ⟨value, last, field, ends⟩ := Decoder.of_bind_ok follows
    cases ends
    have fewer := (framed struct fid ftype).length_le field
    omega

theorem framed_fieldTurn (framed : ∀ struct fid ftype, Framed (body struct fid ftype))
    (struct : σ) : Framed (fieldTurn body struct) := by
  refine framed_readFieldBegin.bind fun ⟨ftype, fid⟩ => ?_
  dsimp only
  split
  next => exact Streaming.pure _ _
  next => exact (framed struct _ _).bind fun _ => Streaming.pure _ _

theorem framed_readFields (framed : ∀ struct fid ftype, Framed (body struct fid ftype))
    (struct : σ) : Framed (readFields body struct) :=
  Streaming.loop (advances_fieldTurn framed) (framed_fieldTurn framed) struct

theorem readFields_stop (framed : ∀ struct fid ftype, Framed (body struct fid ftype))
    (struct : σ) : Decodes (readFields body struct) writeFieldStop struct :=
  Decodes.loop_break (advances_fieldTurn framed)
    (readFieldBegin_writeFieldStop.bind_pure fun _ => Turn.done struct)

theorem readFields_field (framed : ∀ struct fid ftype, Framed (body struct fid ftype))
    {struct next last : σ} {ftype : TType} {fid : Int16} {value more : Bytes}
    (known : ftype ∈ TType.named) (goes : ftype ≠ .stop)
    (reads : Decodes (body struct fid ftype) value next)
    (follows : Decodes (readFields body next) more last) :
    Decodes (readFields body struct) (writeFieldBegin ftype fid ++ value ++ more) last := by
  refine Decodes.loop (advances_fieldTurn framed) ?_ follows
  refine (readFieldBegin_writeFieldBegin known goes fid).bind ?_
  dsimp only
  rw [if_neg goes]
  exact reads.bind_pure Turn.again

theorem readFields_refuses (framed : ∀ struct fid ftype, Framed (body struct fid ftype))
    {struct : σ} {ftype : TType} {fid : Int16} {value : Bytes} {error : TException}
    (known : ftype ∈ TType.named) (goes : ftype ≠ .stop)
    (refused : Refuses (body struct fid ftype) value error) :
    Refuses (readFields body struct) (writeFieldBegin ftype fid ++ value) error := by
  refine Refuses.loop (advances_fieldTurn framed) ?_
  refine (readFieldBegin_writeFieldBegin known goes fid).bind_refuses ?_
  dsimp only
  rw [if_neg goes]
  exact refused.bind

theorem readFields_later (framed : ∀ struct fid ftype, Framed (body struct fid ftype))
    {struct next : σ} {ftype : TType} {fid : Int16} {value more : Bytes} {error : TException}
    (known : ftype ∈ TType.named) (goes : ftype ≠ .stop)
    (reads : Decodes (body struct fid ftype) value next)
    (refused : Refuses (readFields body next) more error) :
    Refuses (readFields body struct) (writeFieldBegin ftype fid ++ value ++ more) error := by
  refine Decodes.loop_refuses (advances_fieldTurn framed) ?_ refused
  refine (readFieldBegin_writeFieldBegin known goes fid).bind ?_
  dsimp only
  rw [if_neg goes]
  exact reads.bind_pure Turn.again

end Fields

theorem framed_skip (protocol : TBinaryProtocol) (depth : Nat) (type : TType) :
    Framed (skip protocol depth type) := by
  induction depth generalizing type with
  | zero => exact Streaming.fail _ _
  | succ depth ih =>
      cases type with
      | bool => exact framed_readBool.discard
      | byte => exact framed_readByte.discard
      | i16 => exact framed_readI16.discard
      | i32 => exact framed_readI32.discard
      | i64 => exact framed_readI64.discard
      | double => exact (Streaming.readBits _ 8).discard
      | string => exact (framed_readString protocol).discard
      | struct => exact framed_readFields (fun _ _ ftype => ih ftype) ()
      | map =>
          exact (framed_readMapBegin protocol).bind fun header =>
            Streaming.times ((ih _).bind fun _ => ih _) _
      | set => exact (framed_readListBegin protocol).bind fun _ => (ih _).times _
      | list => exact (framed_readListBegin protocol).bind fun _ => (ih _).times _
      | stop | void | u64 | utf8 | utf16 | other _ => exact Streaming.pure _ _

theorem framed_readStruct {σ : Type} {switch : Nat → σ → Int16 → TType → Reader σ}
    (framed : ∀ depth struct fid ftype, Framed (switch depth struct fid ftype)) (depth : Nat)
    (struct : σ) : Framed (readStruct switch depth struct) := by
  cases depth with
  | zero => exact Streaming.fail _ _
  | succ depth => exact framed_readFields (framed depth) struct

end DcCluster.Rpc

import DcCluster.Rpc.ProtocolReads

/-!
The values that the binary protocol can carry, with their types and their bytes, and
what `skip` does on them: it takes a value whole, whatever is in it, unless the value
is nested deeper than the trackers allow.
-/

namespace DcCluster.Rpc

open DcCluster.Lib

inductive Value
  | bool (value : Bool)
  | byte (byte : Int8)
  | i16 (i16 : Int16)
  | i32 (i32 : Int32)
  | i64 (i64 : Int64)
  | double (dub : BitVec 64)
  | string (str : Bytes)
  | struct (fields : List (Int16 × Value))
  | map (keyType valType : TType) (entries : List (Value × Value))
  | set (elemType : TType) (elems : List Value)
  | list (elemType : TType) (elems : List Value)

def Value.type : Value → TType
  | .bool _ => .bool
  | .byte _ => .byte
  | .i16 _ => .i16
  | .i32 _ => .i32
  | .i64 _ => .i64
  | .double _ => .double
  | .string _ => .string
  | .struct _ => .struct
  | .map .. => .map
  | .set .. => .set
  | .list .. => .list

mutual

def Value.encode : Value → Bytes
  | .bool value => writeBool value
  | .byte byte => writeByte byte
  | .i16 i16 => writeI16 i16
  | .i32 i32 => writeI32 i32
  | .i64 i64 => writeI64 i64
  | .double dub => writeDouble dub
  | .string str => writeI32 (Int32.ofNat str.length) ++ str
  | .struct fields => encodeFields fields
  | .map keyType valType entries =>
      writeMapBegin keyType valType entries.length ++ encodeEntries entries
  | .set elemType elems => writeSetBegin elemType elems.length ++ encodeElems elems
  | .list elemType elems => writeListBegin elemType elems.length ++ encodeElems elems

/-- The fields of a struct up to and with its stop byte. -/
def encodeFields : List (Int16 × Value) → Bytes
  | [] => writeFieldStop
  | (fid, value) :: fields => writeFieldBegin value.type fid ++ value.encode ++ encodeFields fields

def encodeEntries : List (Value × Value) → Bytes
  | [] => []
  | (key, value) :: entries => key.encode ++ value.encode ++ encodeEntries entries

def encodeElems : List Value → Bytes
  | [] => []
  | elem :: elems => elem.encode ++ encodeElems elems

end

mutual

/-- The trackers that are alive at once while the value is skipped. -/
def Value.depth : Value → Nat
  | .struct fields => depthFields fields + 1
  | .map _ _ entries => depthEntries entries + 1
  | .set _ elems => depthElems elems + 1
  | .list _ elems => depthElems elems + 1
  | _ => 1

def depthFields : List (Int16 × Value) → Nat
  | [] => 0
  | (_, value) :: fields => max value.depth (depthFields fields)

def depthEntries : List (Value × Value) → Nat
  | [] => 0
  | (key, value) :: entries => max (max key.depth value.depth) (depthEntries entries)

def depthElems : List Value → Nat
  | [] => 0
  | elem :: elems => max elem.depth (depthElems elems)

end

section Fits

variable (protocol : TBinaryProtocol)

mutual

/-- Every length is one that can be written and read, and elements have the type that
their container announces. -/
def Value.Fits : Value → Prop
  | .string str => protocol.StringFits str.length
  | .struct fields => FitsFields fields
  | .map keyType valType entries =>
      protocol.ContainerFits entries.length ∧ FitsEntries keyType valType entries
  | .set elemType elems => protocol.ContainerFits elems.length ∧ FitsElems elemType elems
  | .list elemType elems => protocol.ContainerFits elems.length ∧ FitsElems elemType elems
  | _ => True

def FitsFields : List (Int16 × Value) → Prop
  | [] => True
  | (_, value) :: fields => value.Fits ∧ FitsFields fields

def FitsEntries (keyType valType : TType) : List (Value × Value) → Prop
  | [] => True
  | (key, value) :: entries =>
      (key.type = keyType ∧ key.Fits) ∧ (value.type = valType ∧ value.Fits) ∧
        FitsEntries keyType valType entries

def FitsElems (elemType : TType) : List Value → Prop
  | [] => True
  | elem :: elems => (elem.type = elemType ∧ elem.Fits) ∧ FitsElems elemType elems

end

end Fits

theorem Value.type_named (value : Value) : value.type ∈ TType.named := by
  cases value <;> simp [Value.type, TType.named]

theorem Value.type_goes (value : Value) : value.type ≠ .stop := by
  cases value <;> simp [Value.type]

variable {protocol : TBinaryProtocol}

theorem framed_skipBody (depth : Nat) (struct : Unit) (fid : Int16) (ftype : TType) :
    Framed ((fun _ _ ftype => skip protocol depth ftype : Unit → Int16 → TType → Reader Unit)
      struct fid ftype) :=
  framed_skip protocol depth ftype

mutual

theorem skip_encode (value : Value) (depth : Nat) (fits : value.Fits protocol)
    (shallow : value.depth ≤ depth) :
    Decodes (skip protocol depth value.type) value.encode () := by
  cases depth with
  | zero => cases value <;> simp [Value.depth] at shallow
  | succ depth =>
      cases value with
      | bool value => exact (readBool_writeBool value).discard
      | byte byte => exact (readByte_writeByte byte).discard
      | i16 i16 => exact (readI16_writeI16 i16).discard
      | i32 i32 => exact (readI32_writeI32 i32).discard
      | i64 i64 => exact (readI64_writeI64 i64).discard
      | double dub => exact (readDouble_writeDouble dub).discard
      | string str => exact (readString_decodes fits).discard
      | struct fields =>
          have nested : depthFields fields ≤ depth := Nat.le_of_succ_le_succ shallow
          exact skip_encodeFields fields depth fits nested
      | map keyType valType entries =>
          have nested : depthEntries entries ≤ depth := Nat.le_of_succ_le_succ shallow
          exact (readMapBegin_decodes fits.1).bind
            (skip_encodeEntries keyType valType entries depth fits.2 nested)
      | set elemType elems =>
          have nested : depthElems elems ≤ depth := Nat.le_of_succ_le_succ shallow
          exact (readListBegin_decodes fits.1).bind
            (skip_encodeElems elemType elems depth fits.2 nested)
      | list elemType elems =>
          have nested : depthElems elems ≤ depth := Nat.le_of_succ_le_succ shallow
          exact (readListBegin_decodes fits.1).bind
            (skip_encodeElems elemType elems depth fits.2 nested)

theorem skip_encodeFields (fields : List (Int16 × Value)) (depth : Nat)
    (fits : FitsFields protocol fields) (shallow : depthFields fields ≤ depth) :
    Decodes (readFields (fun _ _ ftype => skip protocol depth ftype) ()) (encodeFields fields)
      () := by
  cases fields with
  | nil => exact readFields_stop (framed_skipBody depth) ()
  | cons field fields =>
      obtain ⟨fid, value⟩ := field
      have bounds : value.depth ≤ depth ∧ depthFields fields ≤ depth := max_le_iff.mp shallow
      exact readFields_field (framed_skipBody depth) value.type_named value.type_goes
        (skip_encode value depth fits.1 bounds.1)
        (skip_encodeFields fields depth fits.2 bounds.2)

theorem skip_encodeEntries (keyType valType : TType) (entries : List (Value × Value)) (depth : Nat)
    (fits : FitsEntries protocol keyType valType entries) (shallow : depthEntries entries ≤ depth) :
    Decodes (Decoder.times (do
      skip protocol depth (TType.ofCode keyType.code)
      skip protocol depth (TType.ofCode valType.code)) entries.length) (encodeEntries entries)
      () := by
  cases entries with
  | nil => exact Decodes.pure ()
  | cons entry entries =>
      obtain ⟨key, value⟩ := entry
      obtain ⟨⟨rfl, keyFits⟩, ⟨rfl, valueFits⟩, later⟩ := fits
      have bounds : max key.depth value.depth ≤ depth ∧ depthEntries entries ≤ depth :=
        max_le_iff.mp shallow
      have apart := max_le_iff.mp bounds.1
      refine Decodes.times ?_ (skip_encodeEntries _ _ entries depth later bounds.2)
      rw [TType.ofCode_code key.type_named, TType.ofCode_code value.type_named]
      exact (skip_encode key depth keyFits apart.1).bind (skip_encode value depth valueFits apart.2)

theorem skip_encodeElems (elemType : TType) (elems : List Value) (depth : Nat)
    (fits : FitsElems protocol elemType elems) (shallow : depthElems elems ≤ depth) :
    Decodes (Decoder.times (skip protocol depth (TType.ofCode elemType.code)) elems.length)
      (encodeElems elems) () := by
  cases elems with
  | nil => exact Decodes.pure ()
  | cons elem elems =>
      obtain ⟨⟨rfl, elemFits⟩, later⟩ := fits
      have bounds : elem.depth ≤ depth ∧ depthElems elems ≤ depth := max_le_iff.mp shallow
      refine Decodes.times ?_ (skip_encodeElems _ elems depth later bounds.2)
      rw [TType.ofCode_code elem.type_named]
      exact skip_encode elem depth elemFits bounds.1

end

theorem skip_zero (type : TType) (bytes : Bytes) :
    Refuses (skip protocol 0 type) bytes .depthLimit :=
  (Refuses.fail TException.depthLimit).append bytes

mutual

theorem skip_refuses (value : Value) (depth : Nat) (fits : value.Fits protocol)
    (deep : depth < value.depth) :
    Refuses (skip protocol depth value.type) value.encode .depthLimit := by
  cases depth with
  | zero => exact skip_zero value.type value.encode
  | succ depth =>
      cases value with
      | struct fields =>
          have nested : depth < depthFields fields := Nat.lt_of_succ_lt_succ deep
          exact skipFields_refuses fields depth fits nested
      | map keyType valType entries =>
          have nested : depth < depthEntries entries := Nat.lt_of_succ_lt_succ deep
          exact (readMapBegin_decodes fits.1).bind_refuses
            (skipEntries_refuses keyType valType entries depth fits.2 nested)
      | set elemType elems =>
          have nested : depth < depthElems elems := Nat.lt_of_succ_lt_succ deep
          exact (readListBegin_decodes fits.1).bind_refuses
            (skipElems_refuses elemType elems depth fits.2 nested)
      | list elemType elems =>
          have nested : depth < depthElems elems := Nat.lt_of_succ_lt_succ deep
          exact (readListBegin_decodes fits.1).bind_refuses
            (skipElems_refuses elemType elems depth fits.2 nested)
      | bool _ | byte _ | i16 _ | i32 _ | i64 _ | double _ | string _ =>
          simp only [Value.depth] at deep
          omega

theorem skipFields_refuses (fields : List (Int16 × Value)) (depth : Nat)
    (fits : FitsFields protocol fields) (deep : depth < depthFields fields) :
    Refuses (readFields (fun _ _ ftype => skip protocol depth ftype) ()) (encodeFields fields)
      .depthLimit := by
  cases fields with
  | nil => exact absurd deep (Nat.not_lt_zero depth)
  | cons field fields =>
      obtain ⟨fid, value⟩ := field
      by_cases first : value.depth ≤ depth
      · have later : depth < depthFields fields := by
          simp only [depthFields] at deep
          omega
        exact readFields_later (framed_skipBody depth) value.type_named value.type_goes
          (skip_encode value depth fits.1 first) (skipFields_refuses fields depth fits.2 later)
      · refine Refuses.append ?_ (encodeFields fields)
        exact readFields_refuses (framed_skipBody depth) value.type_named value.type_goes
          (skip_refuses value depth fits.1 (by omega))

theorem skipEntries_refuses (keyType valType : TType) (entries : List (Value × Value))
    (depth : Nat) (fits : FitsEntries protocol keyType valType entries)
    (deep : depth < depthEntries entries) :
    Refuses (Decoder.times (do
      skip protocol depth (TType.ofCode keyType.code)
      skip protocol depth (TType.ofCode valType.code)) entries.length) (encodeEntries entries)
      .depthLimit := by
  cases entries with
  | nil => exact absurd deep (Nat.not_lt_zero depth)
  | cons entry entries =>
      obtain ⟨key, value⟩ := entry
      obtain ⟨⟨rfl, keyFits⟩, ⟨rfl, valueFits⟩, fits⟩ := fits
      have types := And.intro (TType.ofCode_code key.type_named)
        (TType.ofCode_code value.type_named)
      by_cases keyDeep : key.depth ≤ depth
      · by_cases valueDeep : value.depth ≤ depth
        · have later : depth < depthEntries entries := by
            simp only [depthEntries] at deep
            omega
          refine Decodes.times_refuses ?_ (skipEntries_refuses _ _ entries depth fits later)
          rw [types.1, types.2]
          exact (skip_encode key depth keyFits keyDeep).bind
            (skip_encode value depth valueFits valueDeep)
        · refine Refuses.times (Refuses.append ?_ _)
          rw [types.1, types.2]
          exact (skip_encode key depth keyFits keyDeep).bind_refuses
            (skip_refuses value depth valueFits (by omega))
      · refine Refuses.times (Refuses.append (Refuses.append ?_ _) _)
        rw [types.1, types.2]
        exact (skip_refuses key depth keyFits (by omega)).bind

theorem skipElems_refuses (elemType : TType) (elems : List Value) (depth : Nat)
    (fits : FitsElems protocol elemType elems) (deep : depth < depthElems elems) :
    Refuses (Decoder.times (skip protocol depth (TType.ofCode elemType.code)) elems.length)
      (encodeElems elems) .depthLimit := by
  cases elems with
  | nil => exact absurd deep (Nat.not_lt_zero depth)
  | cons elem elems =>
      obtain ⟨⟨rfl, elemFits⟩, fits⟩ := fits
      by_cases first : elem.depth ≤ depth
      · have later : depth < depthElems elems := by
          simp only [depthElems] at deep
          omega
        refine Decodes.times_refuses ?_ (skipElems_refuses _ elems depth fits later)
        rw [TType.ofCode_code elem.type_named]
        exact skip_encode elem depth elemFits first
      · refine Refuses.times (Refuses.append ?_ _)
        rw [TType.ofCode_code elem.type_named]
        exact skip_refuses elem depth elemFits (by omega)

end

/-- The outcome of skipping any value that was encoded, whatever follows it. -/
theorem skip_value (value : Value) (depth : Nat) (rest : Bytes) (fits : value.Fits protocol) :
    skip protocol depth value.type (value.encode ++ rest) =
      if value.depth ≤ depth then .ok ((), rest) else .error .depthLimit := by
  split
  next shallow => exact skip_encode value depth fits shallow rest
  next deep => exact skip_refuses value depth fits (by omega) rest

/-- A struct that holds a list, as a later version of a peer can send it. -/
def nestedValue : Value := .struct [(7, .list .i32 [.i32 1, .i32 (-1)]), (-3, .bool true)]

theorem nestedValue_fits (protocol : TBinaryProtocol) (unlimited : protocol.containerLimit = 0) :
    nestedValue.Fits protocol := by
  refine ⟨⟨⟨by decide, fun limited => absurd unlimited limited⟩, ?_⟩, trivial, trivial⟩
  exact ⟨⟨rfl, trivial⟩, ⟨rfl, trivial⟩, trivial⟩

theorem skip_value_nested :
    skip {} 3 .struct (nestedValue.encode ++ [9]) = .ok ((), [9]) ∧
      skip {} 2 .struct (nestedValue.encode ++ [9]) = .error .depthLimit :=
  ⟨(skip_value nestedValue 3 [9] (nestedValue_fits {} rfl)).trans (if_pos (by decide)),
    (skip_value nestedValue 2 [9] (nestedValue_fits {} rfl)).trans (if_neg (by decide))⟩

end DcCluster.Rpc

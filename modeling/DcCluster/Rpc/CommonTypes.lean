import DcCluster.Rpc.WireValue

/-!
Executable model of the generated structs of `common_types.cpp`, `Regist.cpp` and
`Request.cpp`, and what their `read` makes of any list of fields: a field it does not
know or that has another type is skipped, the last of several wins, and a field that
is missing leaves what was there.
-/

namespace DcCluster.Rpc

open DcCluster.Lib

structure NodeInfoIsset where
  Ip : Bool := false
  Port : Bool := false
  msg : Bool := false
  deriving DecidableEq, Repr

/-- `ClientInfo` and `HeartBeatInfo`, whose generated code is the same. -/
structure NodeInfo where
  Ip : Bytes := []
  Port : Int32 := 0
  msg : Bytes := []
  isset : NodeInfoIsset := {}
  deriving DecidableEq, Repr

/-- The arguments of a method or its result: one field and its `__isset` bit. -/
structure OneField (α : Type) where
  value : α
  isset : Bool := false
  deriving DecidableEq, Repr

section Definitions

variable (protocol : TBinaryProtocol)

def nodeInfoSwitch (depth : Nat) (info : NodeInfo) (fid : Int16) (ftype : TType) :
    Reader NodeInfo :=
  let skipped : Reader NodeInfo := do
    skip protocol depth ftype
    pure info
  if fid = 1 then
    if ftype = .string then do
      let Ip ← readString protocol
      pure { info with Ip := Ip, isset := { info.isset with Ip := true } }
    else skipped
  else if fid = 2 then
    if ftype = .i32 then do
      let Port ← readI32
      pure { info with Port := Port, isset := { info.isset with Port := true } }
    else skipped
  else if fid = 3 then
    if ftype = .string then do
      let msg ← readString protocol
      pure { info with msg := msg, isset := { info.isset with msg := true } }
    else skipped
  else skipped

def NodeInfo.read (depth : Nat) (info : NodeInfo) : Reader NodeInfo :=
  readStruct (nodeInfoSwitch protocol) depth info

def NodeInfo.write (info : NodeInfo) : Written :=
  .ok (writeFieldBegin .string 1) ++ writeString info.Ip ++
  .ok (writeFieldBegin .i32 2 ++ writeI32 info.Port) ++
  (if info.isset.msg then .ok (writeFieldBegin .string 3) ++ writeString info.msg else .ok []) ++
  .ok writeFieldStop

def oneFieldSwitch {α : Type} (id : Int16) (expected : TType) (readField : Nat → α → Reader α)
    (depth : Nat) (struct : OneField α) (fid : Int16) (ftype : TType) : Reader (OneField α) :=
  let skipped : Reader (OneField α) := do
    skip protocol depth ftype
    pure struct
  if fid = id then
    if ftype = expected then do
      let value ← readField depth struct.value
      pure { value := value, isset := true }
    else skipped
  else skipped

def OneField.read {α : Type} (id : Int16) (expected : TType) (readField : Nat → α → Reader α)
    (depth : Nat) (struct : OneField α) : Reader (OneField α) :=
  readStruct (oneFieldSwitch protocol id expected readField) depth struct

def readRegistClientArgs (depth : Nat) (args : OneField NodeInfo) : Reader (OneField NodeInfo) :=
  args.read protocol 1 .struct (NodeInfo.read protocol) depth

def readHeartbeatArgs (depth : Nat) (args : OneField NodeInfo) : Reader (OneField NodeInfo) :=
  args.read protocol 1 .struct (NodeInfo.read protocol) depth

def readClusterWorkArgs (depth : Nat) (args : OneField Bytes) : Reader (OneField Bytes) :=
  args.read protocol 1 .string (fun _ _ => readString protocol) depth

/-- The value of the enumeration is kept as its `int32_t`, from which it is cast unchecked. -/
def readRegistClientResult (depth : Nat) (result : OneField Int32) : Reader (OneField Int32) :=
  result.read protocol 0 .i32 (fun _ _ => readI32) depth

def readHeartbeatResult (depth : Nat) (result : OneField Bool) : Reader (OneField Bool) :=
  result.read protocol 0 .bool (fun _ _ => readBool) depth

def readClusterWorkResult (depth : Nat) (result : OneField Bool) : Reader (OneField Bool) :=
  result.read protocol 0 .bool (fun _ _ => readBool) depth

/-- `write` of an args struct around its written field. -/
def writeArgs (ftype : TType) (value : Written) : Written :=
  .ok (writeFieldBegin ftype 1) ++ value ++ .ok writeFieldStop

def writeRegistClientArgs (clientInfo : NodeInfo) : Written := writeArgs .struct clientInfo.write

def writeHeartbeatArgs (heartbeatInfo : NodeInfo) : Written :=
  writeArgs .struct heartbeatInfo.write

def writeClusterWorkArgs (msg : Bytes) : Written := writeArgs .string (writeString msg)

/-- `write` of a result struct, which leaves out a field that is not set. -/
def writeResult {α : Type} (ftype : TType) (write : α → Bytes) (result : OneField α) : Bytes :=
  (if result.isset then writeFieldBegin ftype 0 ++ write result.value else []) ++ writeFieldStop

def writeRegistClientResult (result : OneField Int32) : Bytes := writeResult .i32 writeI32 result

def writeHeartbeatResult (result : OneField Bool) : Bytes := writeResult .bool writeBool result

def writeClusterWorkResult (result : OneField Bool) : Bytes := writeResult .bool writeBool result

end Definitions

section Fields

variable {protocol : TBinaryProtocol} {σ : Type}

theorem readFields_encodeFields {body : σ → Int16 → TType → Reader σ}
    (framed : ∀ struct fid ftype, Framed (body struct fid ftype))
    {absorb : σ → Int16 × Value → σ} (fields : List (Int16 × Value))
    (reads : ∀ field ∈ fields, ∀ struct,
      Decodes (body struct field.1 field.2.type) field.2.encode (absorb struct field))
    (struct : σ) :
    Decodes (readFields body struct) (encodeFields fields) (fields.foldl absorb struct) := by
  induction fields generalizing struct with
  | nil => exact readFields_stop framed struct
  | cons field fields ih =>
      have first := reads field (List.mem_cons_self ..) struct
      have later := ih (fun other member => reads other (List.mem_cons_of_mem field member))
        (absorb struct field)
      exact readFields_field framed field.2.type_named field.2.type_goes first later

theorem FitsFields.of_mem {fields : List (Int16 × Value)} (fits : FitsFields protocol fields)
    {field : Int16 × Value} (member : field ∈ fields) : field.2.Fits protocol := by
  induction fields with
  | nil => cases member
  | cons first fields ih =>
      rcases List.mem_cons.mp member with same | later
      · subst same
        exact fits.1
      · exact ih fits.2 later

theorem depth_le_depthFields {fields : List (Int16 × Value)} {field : Int16 × Value}
    (member : field ∈ fields) : field.2.depth ≤ depthFields fields := by
  induction fields with
  | nil => cases member
  | cons first fields ih =>
      rcases List.mem_cons.mp member with same | later
      · subst same
        exact le_max_left _ _
      · exact (ih later).trans (le_max_right _ _)

/-- The string of a field with this id, if its type is that of a string. -/
def stringAt (id : Int16) : Int16 × Value → Option Bytes
  | (fid, .string str) => if fid = id then some str else none
  | _ => none

def i32At (id : Int16) : Int16 × Value → Option Int32
  | (fid, .i32 i32) => if fid = id then some i32 else none
  | _ => none

def structAt (id : Int16) : Int16 × Value → Option (List (Int16 × Value))
  | (fid, .struct fields) => if fid = id then some fields else none
  | _ => none

def NodeInfo.absorb (info : NodeInfo) (field : Int16 × Value) : NodeInfo :=
  { Ip := (stringAt 1 field).getD info.Ip
    Port := (i32At 2 field).getD info.Port
    msg := (stringAt 3 field).getD info.msg
    isset :=
      { Ip := info.isset.Ip || (stringAt 1 field).isSome
        Port := info.isset.Port || (i32At 2 field).isSome
        msg := info.isset.msg || (stringAt 3 field).isSome } }

/-- What a struct holds after it was read from these fields. -/
def NodeInfo.updatedBy (info : NodeInfo) (fields : List (Int16 × Value)) : NodeInfo :=
  { Ip := (fields.filterMap (stringAt 1)).getLastD info.Ip
    Port := (fields.filterMap (i32At 2)).getLastD info.Port
    msg := (fields.filterMap (stringAt 3)).getLastD info.msg
    isset :=
      { Ip := info.isset.Ip || fields.any fun field => (stringAt 1 field).isSome
        Port := info.isset.Port || fields.any fun field => (i32At 2 field).isSome
        msg := info.isset.msg || fields.any fun field => (stringAt 3 field).isSome } }

theorem getLastD_filterMap_cons {α β : Type} (pick : α → Option β) (first : α) (rest : List α)
    (old : β) :
    ((first :: rest).filterMap pick).getLastD old =
      (rest.filterMap pick).getLastD ((pick first).getD old) := by
  cases picked : pick first with
  | none => rw [List.filterMap_cons_none picked]; rfl
  | some value => rw [List.filterMap_cons_some picked, List.getLastD_cons]; rfl

theorem NodeInfo.foldl_absorb (fields : List (Int16 × Value)) (info : NodeInfo) :
    fields.foldl NodeInfo.absorb info = info.updatedBy fields := by
  induction fields generalizing info with
  | nil => simp [NodeInfo.updatedBy]
  | cons field fields ih =>
      rw [List.foldl_cons, ih]
      simp only [NodeInfo.updatedBy, NodeInfo.absorb, getLastD_filterMap_cons, List.any_cons,
        Bool.or_assoc]

theorem framed_nodeInfoSwitch (depth : Nat) (info : NodeInfo) (fid : Int16) (ftype : TType) :
    Framed (nodeInfoSwitch protocol depth info fid ftype) := by
  have skipped : Framed (do skip protocol depth ftype; pure info : Reader NodeInfo) :=
    (framed_skip protocol depth ftype).bind fun _ => Streaming.pure _ _
  have string := framed_readString protocol
  unfold nodeInfoSwitch
  dsimp only
  split
  next =>
    split
    next => exact string.bind fun _ => Streaming.pure _ _
    next => exact skipped
  next =>
    split
    next =>
      split
      next => exact framed_readI32.bind fun _ => Streaming.pure _ _
      next => exact skipped
    next =>
      split
      next =>
        split
        next => exact string.bind fun _ => Streaming.pure _ _
        next => exact skipped
      next => exact skipped

theorem Value.eq_string {value : Value} (type : value.type = .string) :
    ∃ str, value = .string str := by
  cases value <;> simp [Value.type] at type ⊢

theorem Value.eq_i32 {value : Value} (type : value.type = .i32) : ∃ i32, value = .i32 i32 := by
  cases value <;> simp [Value.type] at type ⊢

theorem Value.eq_bool {value : Value} (type : value.type = .bool) : ∃ flag, value = .bool flag := by
  cases value <;> simp [Value.type] at type ⊢

theorem Value.eq_struct {value : Value} (type : value.type = .struct) :
    ∃ fields, value = .struct fields := by
  cases value <;> simp [Value.type] at type ⊢

theorem stringAt_of_type {id : Int16} {field : Int16 × Value} (type : field.2.type ≠ .string) :
    stringAt id field = none := by
  obtain ⟨fid, value⟩ := field
  cases value with
  | string str => exact absurd rfl type
  | _ => rfl

theorem i32At_of_type {id : Int16} {field : Int16 × Value} (type : field.2.type ≠ .i32) :
    i32At id field = none := by
  obtain ⟨fid, value⟩ := field
  cases value with
  | i32 i32 => exact absurd rfl type
  | _ => rfl

theorem stringAt_of_id {id : Int16} {field : Int16 × Value} (other : field.1 ≠ id) :
    stringAt id field = none := by
  obtain ⟨fid, value⟩ := field
  cases value with
  | string str => exact if_neg other
  | _ => rfl

theorem i32At_of_id {id : Int16} {field : Int16 × Value} (other : field.1 ≠ id) :
    i32At id field = none := by
  obtain ⟨fid, value⟩ := field
  cases value with
  | i32 i32 => exact if_neg other
  | _ => rfl

theorem NodeInfo.absorb_of_none {info : NodeInfo} {field : Int16 × Value}
    (noIp : stringAt 1 field = none) (noPort : i32At 2 field = none)
    (noMsg : stringAt 3 field = none) : info.absorb field = info := by
  simp only [NodeInfo.absorb, noIp, noPort, noMsg, Option.getD_none, Option.isSome_none,
    Bool.or_false]

theorem NodeInfo.absorb_Ip (info : NodeInfo) (str : Bytes) :
    info.absorb (1, .string str) =
      { info with Ip := str, isset := { info.isset with Ip := true } } := by
  simp [NodeInfo.absorb, stringAt, i32At]

theorem NodeInfo.absorb_Port (info : NodeInfo) (port : Int32) :
    info.absorb (2, .i32 port) =
      { info with Port := port, isset := { info.isset with Port := true } } := by
  simp [NodeInfo.absorb, stringAt, i32At]

theorem NodeInfo.absorb_msg (info : NodeInfo) (str : Bytes) :
    info.absorb (3, .string str) =
      { info with msg := str, isset := { info.isset with msg := true } } := by
  simp [NodeInfo.absorb, stringAt, i32At]

theorem skipped_decodes {value : Value} {depth : Nat} (struct : σ) (fits : value.Fits protocol)
    (shallow : value.depth ≤ depth) :
    Decodes (do skip protocol depth value.type; pure struct : Reader σ) value.encode struct :=
  (skip_encode value depth fits shallow).bind_pure fun _ => struct

theorem nodeInfoSwitch_decodes {depth : Nat} {info : NodeInfo} {fid : Int16} {value : Value}
    (fits : value.Fits protocol) (shallow : value.depth ≤ depth) :
    Decodes (nodeInfoSwitch protocol depth info fid value.type) value.encode
      (info.absorb (fid, value)) := by
  have skipped := skipped_decodes info fits shallow
  unfold nodeInfoSwitch
  dsimp only
  split
  next first =>
    subst first
    have noPort : i32At 2 (1, value) = none := i32At_of_id (show (1 : Int16) ≠ 2 by decide)
    have noMsg : stringAt 3 (1, value) = none := stringAt_of_id (show (1 : Int16) ≠ 3 by decide)
    split
    next type =>
      obtain ⟨str, rfl⟩ := Value.eq_string type
      rw [NodeInfo.absorb_Ip]
      exact (readString_decodes fits).bind_pure fun Ip =>
        { info with Ip := Ip, isset := { info.isset with Ip := true } }
    next type =>
      rw [NodeInfo.absorb_of_none (stringAt_of_type type) noPort noMsg]
      exact skipped
  next =>
    have noIp : stringAt 1 (fid, value) = none := stringAt_of_id ‹_›
    split
    next second =>
      subst second
      have noMsg : stringAt 3 (2, value) = none := stringAt_of_id (show (2 : Int16) ≠ 3 by decide)
      split
      next type =>
        obtain ⟨port, rfl⟩ := Value.eq_i32 type
        rw [NodeInfo.absorb_Port]
        exact (readI32_writeI32 port).bind_pure fun Port =>
          { info with Port := Port, isset := { info.isset with Port := true } }
      next type =>
        rw [NodeInfo.absorb_of_none noIp (i32At_of_type type) noMsg]
        exact skipped
    next =>
      have noPort : i32At 2 (fid, value) = none := i32At_of_id ‹_›
      split
      next third =>
        subst third
        split
        next type =>
          obtain ⟨str, rfl⟩ := Value.eq_string type
          rw [NodeInfo.absorb_msg]
          exact (readString_decodes fits).bind_pure fun msg =>
            { info with msg := msg, isset := { info.isset with msg := true } }
        next type =>
          rw [NodeInfo.absorb_of_none noIp noPort (stringAt_of_type type)]
          exact skipped
      next other =>
        rw [NodeInfo.absorb_of_none noIp noPort (stringAt_of_id other)]
        exact skipped

theorem framed_readNodeInfo (depth : Nat) (info : NodeInfo) : Framed (info.read protocol depth) :=
  framed_readStruct framed_nodeInfoSwitch depth info

theorem readNodeInfo_fields {depth : Nat} (info : NodeInfo) (fields : List (Int16 × Value))
    (fits : FitsFields protocol fields) (shallow : depthFields fields ≤ depth) :
    Decodes (info.read protocol (depth + 1)) (encodeFields fields) (info.updatedBy fields) := by
  rw [← NodeInfo.foldl_absorb]
  refine readFields_encodeFields (framed_nodeInfoSwitch depth) fields ?_ info
  intro field member struct
  exact nodeInfoSwitch_decodes (fits.of_mem member) ((depth_le_depthFields member).trans shallow)

theorem NodeInfo.updatedBy_append (info : NodeInfo) (first second : List (Int16 × Value)) :
    info.updatedBy (first ++ second) = (info.updatedBy first).updatedBy second := by
  simp only [← NodeInfo.foldl_absorb, List.foldl_append]

end Fields

section OneField

variable {protocol : TBinaryProtocol} {α β : Type} {id : Int16} {expected : TType}
variable {readField : Nat → α → Reader α} {depth : Nat}

theorem framed_oneFieldSwitch (framed : ∀ depth old, Framed (readField depth old)) (depth : Nat)
    (struct : OneField α) (fid : Int16) (ftype : TType) :
    Framed (oneFieldSwitch protocol id expected readField depth struct fid ftype) := by
  have skipped : Framed (do skip protocol depth ftype; pure struct : Reader (OneField α)) :=
    (framed_skip protocol depth ftype).bind fun _ => Streaming.pure _ _
  unfold oneFieldSwitch
  dsimp only
  split
  next =>
    split
    next => exact (framed depth struct.value).bind fun _ => Streaming.pure _ _
    next => exact skipped
  next => exact skipped

theorem framed_readOneField (framed : ∀ depth old, Framed (readField depth old)) (depth : Nat)
    (struct : OneField α) : Framed (struct.read protocol id expected readField depth) :=
  framed_readStruct (framed_oneFieldSwitch framed) depth struct

def OneField.absorb (pick : Int16 × Value → Option β) (merge : α → β → α) (struct : OneField α)
    (field : Int16 × Value) : OneField α :=
  match pick field with
  | some found => { value := merge struct.value found, isset := true }
  | none => struct

/-- What such a struct holds after it was read from these fields: those that `pick` finds are
merged in their order. -/
def OneField.updatedBy (pick : Int16 × Value → Option β) (merge : α → β → α)
    (struct : OneField α) (fields : List (Int16 × Value)) : OneField α :=
  { value := (fields.filterMap pick).foldl merge struct.value
    isset := struct.isset || fields.any fun field => (pick field).isSome }

theorem OneField.foldl_absorb (pick : Int16 × Value → Option β) (merge : α → β → α)
    (fields : List (Int16 × Value)) (struct : OneField α) :
    fields.foldl (OneField.absorb pick merge) struct = struct.updatedBy pick merge fields := by
  induction fields generalizing struct with
  | nil => simp [OneField.updatedBy]
  | cons field fields ih =>
      rw [List.foldl_cons, ih]
      cases picked : pick field with
      | none => simp [OneField.updatedBy, OneField.absorb, picked]
      | some found => simp [OneField.updatedBy, OneField.absorb, picked]

/-- `pick` finds the fields that the generated code reads, and `merge` is what it does with
their values. -/
structure Reads (protocol : TBinaryProtocol) (id : Int16) (expected : TType)
    (readField : Nat → α → Reader α) (depth : Nat) (pick : Int16 × Value → Option β)
    (merge : α → β → α) : Prop where
  framed : ∀ depth old, Framed (readField depth old)
  found : ∀ value : Value, value.type = expected → value.Fits protocol → value.depth ≤ depth →
    ∃ found, pick (id, value) = some found ∧
      ∀ old, Decodes (readField depth old) value.encode (merge old found)
  other : ∀ fid (value : Value), ¬ (fid = id ∧ value.type = expected) → pick (fid, value) = none

theorem readOneField_fields {pick : Int16 × Value → Option β} {merge : α → β → α}
    (reads : Reads protocol id expected readField depth pick merge) (struct : OneField α)
    (fields : List (Int16 × Value)) (fits : FitsFields protocol fields)
    (shallow : depthFields fields ≤ depth) :
    Decodes (struct.read protocol id expected readField (depth + 1)) (encodeFields fields)
      (struct.updatedBy pick merge fields) := by
  rw [← OneField.foldl_absorb]
  refine readFields_encodeFields (framed_oneFieldSwitch reads.framed depth) fields ?_ struct
  rintro ⟨fid, value⟩ member struct
  have valueFits : value.Fits protocol := fits.of_mem member
  have valueShallow : value.depth ≤ depth := (depth_le_depthFields member).trans shallow
  have skipped := skipped_decodes struct valueFits valueShallow
  unfold oneFieldSwitch OneField.absorb
  dsimp only
  split
  next same =>
    subst same
    split
    next type =>
      obtain ⟨found, picked, decodes⟩ := reads.found value type valueFits valueShallow
      rw [picked]
      exact (decodes struct.value).bind_pure fun value =>
        ({ value := value, isset := true } : OneField α)
    next type =>
      rw [reads.other fid value fun both => type both.2]
      exact skipped
  next different =>
    rw [reads.other fid value fun both => different both.1]
    exact skipped

def boolAt (id : Int16) : Int16 × Value → Option Bool
  | (fid, .bool flag) => if fid = id then some flag else none
  | _ => none

theorem structAt_of_other {fid : Int16} {value : Value}
    (other : ¬ (fid = id ∧ value.type = .struct)) : structAt id (fid, value) = none := by
  cases value with
  | struct fields => exact if_neg fun same => other ⟨same, rfl⟩
  | _ => rfl

theorem boolAt_of_other {fid : Int16} {value : Value}
    (other : ¬ (fid = id ∧ value.type = .bool)) : boolAt id (fid, value) = none := by
  cases value with
  | bool flag => exact if_neg fun same => other ⟨same, rfl⟩
  | _ => rfl

theorem reads_nodeInfo :
    Reads protocol 1 .struct (NodeInfo.read protocol) depth (structAt 1) NodeInfo.updatedBy where
  framed depth old := framed_readNodeInfo depth old
  found value type fits shallow := by
    obtain ⟨fields, rfl⟩ := Value.eq_struct type
    refine ⟨fields, rfl, fun old => ?_⟩
    cases depth with
    | zero => simp [Value.depth] at shallow
    | succ depth => exact readNodeInfo_fields old fields fits (Nat.le_of_succ_le_succ shallow)
  other fid value other := structAt_of_other other

theorem reads_string :
    Reads protocol 1 .string (fun _ _ => readString protocol) depth (stringAt 1)
      (fun _ str => str) where
  framed _ _ := framed_readString protocol
  found value type fits shallow := by
    obtain ⟨str, rfl⟩ := Value.eq_string type
    exact ⟨str, rfl, fun old => readString_decodes fits⟩
  other fid value other := by
    by_cases same : fid = 1
    · exact stringAt_of_type fun type => other ⟨same, type⟩
    · exact stringAt_of_id same

theorem reads_i32 :
    Reads protocol 0 .i32 (fun _ _ => readI32) depth (i32At 0) (fun _ i32 => i32) where
  framed _ _ := framed_readI32
  found value type fits shallow := by
    obtain ⟨i32, rfl⟩ := Value.eq_i32 type
    exact ⟨i32, rfl, fun old => readI32_writeI32 i32⟩
  other fid value other := by
    by_cases same : fid = 0
    · exact i32At_of_type fun type => other ⟨same, type⟩
    · exact i32At_of_id same

theorem reads_bool :
    Reads protocol 0 .bool (fun _ _ => readBool) depth (boolAt 0) (fun _ flag => flag) where
  framed _ _ := framed_readBool
  found value type fits shallow := by
    obtain ⟨flag, rfl⟩ := Value.eq_bool type
    exact ⟨flag, rfl, fun old => readBool_writeBool flag⟩
  other fid value other := boolAt_of_other other

end OneField

section Evolution

variable {protocol : TBinaryProtocol}

theorem foldl_updatedBy (structs : List (List (Int16 × Value))) (info : NodeInfo) :
    structs.foldl NodeInfo.updatedBy info = info.updatedBy structs.flatten := by
  induction structs generalizing info with
  | nil => simp [NodeInfo.updatedBy]
  | cons fields structs ih => rw [List.foldl_cons, ih, List.flatten_cons, NodeInfo.updatedBy_append]

/-- The arguments that any list of fields stands for, whoever wrote it: only the structs under
the id 1 count, and in them only the fields of `NodeInfo` with their own types. -/
theorem readRegistClientArgs_fields (fields : List (Int16 × Value))
    (fits : FitsFields protocol fields) (shallow : depthFields fields < recursionLimit) :
    Decodes (readRegistClientArgs protocol recursionLimit { value := {} }) (encodeFields fields)
      { value := NodeInfo.updatedBy {} (fields.filterMap (structAt 1)).flatten
        isset := fields.any fun field => (structAt 1 field).isSome } := by
  have bound : depthFields fields ≤ 63 := Nat.le_of_lt_succ shallow
  have reads := readOneField_fields reads_nodeInfo { value := {} } fields fits bound
  rw [OneField.updatedBy, foldl_updatedBy, Bool.false_or] at reads
  exact reads

/-- An unknown field, an address in two parts and a port that has the type of a string. -/
def oddFields : List (Int16 × Value) :=
  [(9, nestedValue), (1, .struct [(1, .string [49]), (2, .string [50])]),
    (1, .struct [(2, .i32 6000), (1, .string [51])])]

theorem readRegistClientArgs_fields_odd :
    Decodes (readRegistClientArgs {} recursionLimit { value := {} }) (encodeFields oddFields)
      { value := { Ip := [51], Port := 6000, isset := { Ip := true, Port := true } }
        isset := true } := by
  have string : ∀ size, size ≤ int32Max → TBinaryProtocol.StringFits {} size :=
    fun _ writable => stringFits_of_unlimited rfl writable
  exact readRegistClientArgs_fields oddFields
    ⟨nestedValue_fits {} rfl, ⟨string 1 (by decide), string 1 (by decide), trivial⟩,
      ⟨trivial, string 1 (by decide), trivial⟩, trivial⟩ (by decide)

end Evolution

section Written

variable {protocol : TBinaryProtocol}

@[simp] theorem written_ok_append (first second : Bytes) :
    (.ok first : Written) ++ (.ok second : Written) = .ok (first ++ second) := rfl

@[simp] theorem written_error_append (error : TException) (second : Written) :
    (.error error : Written) ++ second = .error error := rfl

@[simp] theorem written_append_error (first : Bytes) (error : TException) :
    (.ok first : Written) ++ (.error error : Written) = .error error := rfl

/-- No string that `write` puts out is too long for it. -/
def NodeInfo.Writable (info : NodeInfo) : Prop :=
  info.Ip.length ≤ int32Max ∧ (info.isset.msg = true → info.msg.length ≤ int32Max)

instance (info : NodeInfo) : Decidable info.Writable := inferInstanceAs (Decidable (_ ∧ _))

/-- The fields that `write` puts out. -/
def NodeInfo.fields (info : NodeInfo) : List (Int16 × Value) :=
  [(1, .string info.Ip), (2, .i32 info.Port)] ++
    if info.isset.msg then [(3, .string info.msg)] else []

theorem writeString_error {str : Bytes} (long : ¬ str.length ≤ int32Max) :
    writeString str = .error .sizeLimit := by
  unfold writeString
  rw [if_pos (by omega)]

theorem NodeInfo.write_eq (info : NodeInfo) :
    info.write = if info.Writable then .ok (encodeFields info.fields) else .error .sizeLimit := by
  unfold NodeInfo.write NodeInfo.Writable NodeInfo.fields
  by_cases Ip : info.Ip.length ≤ int32Max
  · rw [writeString_ok Ip]
    by_cases flag : info.isset.msg = true
    · by_cases msg : info.msg.length ≤ int32Max
      · rw [writeString_ok msg]
        simp [flag, Ip, msg, encodeFields, Value.type, Value.encode, List.append_assoc]
      · rw [writeString_error msg]
        simp [flag, msg]
    · simp [flag, Ip, encodeFields, Value.type, Value.encode, List.append_assoc]
  · rw [writeString_error Ip]
    simp [Ip]

theorem NodeInfo.fits_fields {info : NodeInfo} (writable : info.Writable)
    (unlimited : protocol.stringLimit = 0) : FitsFields protocol info.fields := by
  have fits : ∀ size, size ≤ int32Max → protocol.StringFits size :=
    fun _ small => stringFits_of_unlimited unlimited small
  unfold NodeInfo.fields
  cases flag : info.isset.msg with
  | false => exact ⟨fits _ writable.1, trivial, trivial⟩
  | true => exact ⟨fits _ writable.1, trivial, fits _ (writable.2 flag), trivial⟩

theorem NodeInfo.depth_fields (info : NodeInfo) : depthFields info.fields = 1 := by
  unfold NodeInfo.fields
  cases info.isset.msg with
  | false => rfl
  | true => rfl

/-- What arrives of a struct that was written. -/
def NodeInfo.received (info : NodeInfo) : NodeInfo :=
  { Ip := info.Ip
    Port := info.Port
    msg := if info.isset.msg then info.msg else []
    isset := { Ip := true, Port := true, msg := info.isset.msg } }

theorem NodeInfo.updatedBy_fields (info : NodeInfo) :
    NodeInfo.updatedBy {} info.fields = info.received := by
  unfold NodeInfo.fields NodeInfo.received
  cases info.isset.msg with
  | false => rfl
  | true => rfl

end Written

end DcCluster.Rpc

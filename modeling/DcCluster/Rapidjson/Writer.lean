import DcCluster.Lib.Transition
import DcCluster.Rapidjson.Accepts

/-!
`Writer<StringBuffer>` as a state machine over its calls. Whatever calls complete a text,
they walk through one tree, and the text is that of the tree.
-/

namespace DcCluster.Rapidjson

open DcCluster.Lib DcCluster.Mq DcCluster.Server

structure Level where
  valueCount : Nat
  inArray : Bool
  deriving DecidableEq, Repr

/-- `os` is what the `StringBuffer` holds, and the top of `level_stack_` is first. -/
structure Writer where
  os : Text := []
  levels : List Level := []
  hasRoot : Bool := false
  deriving DecidableEq, Repr

def hexDigitsUpper : List Char :=
  ['0', '1', '2', '3', '4', '5', '6', '7', '8', '9', 'A', 'B', 'C', 'D', 'E', 'F']

/-- The table `escape` of `WriteString`, where `none` is a zero. -/
def escapeOf (c : Char) : Option Char :=
  if c = Char.ofNat 8 then some 'b'
  else if c = '\t' then some 't'
  else if c = '\n' then some 'n'
  else if c = Char.ofNat 12 then some 'f'
  else if c = '\r' then some 'r'
  else if c.toNat < 0x20 then some 'u'
  else if c = '"' then some '"'
  else if c = '\\' then some '\\'
  else none

def writeChar (c : Char) : Text :=
  match escapeOf c with
  | some e =>
      '\\' :: e :: if e = 'u' then
        ['0', '0', hexDigitsUpper.getD (c.toNat / 16) '0', hexDigitsUpper.getD (c.toNat % 16) '0']
      else []
  | none => [c]

def writeString (str : Text) : Text := '"' :: (str.flatMap writeChar ++ ['"'])

/-- `number` is any of the calls with a number, with the digits that it puts, and `string`
is also `Key`. -/
inductive Call
  | null
  | bool (b : Bool)
  | number (digits : Text)
  | string (str : Text)
  | startObject
  | endObject
  | startArray
  | endArray
  deriving DecidableEq, Repr

def Level.separator (level : Level) : Text :=
  if level.valueCount > 0 then
    if level.inArray then [','] else if level.valueCount % 2 = 0 then [','] else [':']
  else []

/-- `Prefix`. Here and below `none` is an assertion that does not hold. -/
def Writer.putPrefix (writer : Writer) (isString : Bool) : Option Writer :=
  match writer.levels with
  | level :: outer =>
      if level.inArray = false ∧ level.valueCount % 2 = 0 ∧ isString = false then none
      else some { writer with
        os := writer.os ++ level.separator
        levels := { level with valueCount := level.valueCount + 1 } :: outer }
  | [] => if writer.hasRoot then none else some { writer with hasRoot := true }

def Writer.put (writer : Writer) (text : Text) : Writer := { writer with os := writer.os ++ text }

def Writer.open (writer : Writer) (inArray : Bool) : Writer :=
  { writer with levels := { valueCount := 0, inArray := inArray } :: writer.levels }

def Writer.startObject (writer : Writer) : Option Writer :=
  (writer.putPrefix false).map fun writer => (writer.open false).put ['\x7b']

def Writer.startArray (writer : Writer) : Option Writer :=
  (writer.putPrefix false).map fun writer => (writer.open true).put ['[']

def Writer.endObject (writer : Writer) : Option Writer :=
  match writer.levels with
  | level :: outer =>
      if level.inArray ∨ level.valueCount % 2 ≠ 0 then none
      else some ({ writer with levels := outer }.put ['\x7d'])
  | [] => none

def Writer.endArray (writer : Writer) : Option Writer :=
  match writer.levels with
  | level :: outer =>
      if level.inArray then some ({ writer with levels := outer }.put [']']) else none
  | [] => none

def boolText (b : Bool) : Text :=
  if b then ['t', 'r', 'u', 'e'] else ['f', 'a', 'l', 's', 'e']

def Writer.step (writer : Writer) : Call → Option Writer
  | .null => (writer.putPrefix false).map fun writer => writer.put ['n', 'u', 'l', 'l']
  | .bool b => (writer.putPrefix false).map fun writer => writer.put (boolText b)
  | .number digits => (writer.putPrefix false).map fun writer => writer.put digits
  | .string str => (writer.putPrefix true).map fun writer => writer.put (writeString str)
  | .startObject => writer.startObject
  | .endObject => writer.endObject
  | .startArray => writer.startArray
  | .endArray => writer.endArray

def Writer.isComplete (writer : Writer) : Bool := writer.hasRoot && writer.levels.isEmpty

/-- What a run of calls says. -/
inductive Tree
  | null
  | bool (b : Bool)
  | number (digits : Text)
  | string (str : Text)
  | array (elements : List Tree)
  | object (members : List (Text × Tree))

def joined : List Text → Text
  | [] => []
  | [piece] => piece
  | piece :: next :: more => piece ++ ',' :: joined (next :: more)

mutual

def Tree.text : Tree → Text
  | .null => ['n', 'u', 'l', 'l']
  | .bool b => boolText b
  | .number digits => digits
  | .string str => writeString str
  | .array elements => '[' :: (joined (elementTexts elements) ++ [']'])
  | .object members => '\x7b' :: (joined (memberTexts members) ++ ['\x7d'])

def elementTexts : List Tree → List Text
  | [] => []
  | tree :: more => tree.text :: elementTexts more

def memberTexts : List (Text × Tree) → List Text
  | [] => []
  | (name, tree) :: more => (writeString name ++ ':' :: tree.text) :: memberTexts more

end

mutual

def Tree.calls : Tree → List Call
  | .null => [.null]
  | .bool b => [.bool b]
  | .number digits => [.number digits]
  | .string str => [.string str]
  | .array elements => .startArray :: (elementCalls elements ++ [.endArray])
  | .object members => .startObject :: (memberCalls members ++ [.endObject])

def elementCalls : List Tree → List Call
  | [] => []
  | tree :: more => tree.calls ++ elementCalls more

def memberCalls : List (Text × Tree) → List Call
  | [] => []
  | (name, tree) :: more => .string name :: (tree.calls ++ memberCalls more)

end

mutual

def Tree.json : Tree → Json
  | .null => .null
  | .bool b => .bool b
  | .number _ => .number
  | .string str => .string str
  | .array elements => .array (elementJsons elements)
  | .object members => .object (memberJsons members)

def elementJsons : List Tree → List Json
  | [] => []
  | tree :: more => tree.json :: elementJsons more

def memberJsons : List (Text × Tree) → List (Text × Json)
  | [] => []
  | (name, tree) :: more => (name, tree.json) :: memberJsons more

end

theorem joined_concat (pieces : List Text) (piece : Text) :
    joined (pieces ++ [piece]) = joined pieces ++ ((if pieces = [] then [] else [',']) ++ piece) := by
  induction pieces with
  | nil => rfl
  | cons first more ih =>
      cases more with
      | nil => rfl
      | cons second rest =>
          simp only [List.cons_append, joined] at ih ⊢
          rw [ih]
          simp

theorem elementTexts_concat (done : List Tree) (tree : Tree) :
    elementTexts (done ++ [tree]) = elementTexts done ++ [tree.text] := by
  induction done with
  | nil => rfl
  | cons first more ih => rw [List.cons_append, elementTexts, elementTexts, ih, List.cons_append]

theorem memberTexts_concat (done : List (Text × Tree)) (name : Text) (tree : Tree) :
    memberTexts (done ++ [(name, tree)]) =
      memberTexts done ++ [writeString name ++ ':' :: tree.text] := by
  induction done with
  | nil => rfl
  | cons first more ih => rw [List.cons_append, memberTexts, memberTexts, ih, List.cons_append]

theorem elementCalls_concat (done : List Tree) (tree : Tree) :
    elementCalls (done ++ [tree]) = elementCalls done ++ tree.calls := by
  induction done with
  | nil => simp [elementCalls]
  | cons first more ih => rw [List.cons_append, elementCalls, elementCalls, ih, List.append_assoc]

theorem memberCalls_concat (done : List (Text × Tree)) (name : Text) (tree : Tree) :
    memberCalls (done ++ [(name, tree)]) = memberCalls done ++ .string name :: tree.calls := by
  induction done with
  | nil => simp [memberCalls]
  | cons first more ih =>
      rw [List.cons_append, memberCalls, memberCalls, ih, List.cons_append, List.append_assoc]

theorem elementTexts_eq_nil {done : List Tree} : elementTexts done = [] ↔ done = [] := by
  cases done with
  | nil => exact iff_of_true rfl rfl
  | cons first more => exact iff_of_false (List.cons_ne_nil _ _) (List.cons_ne_nil _ _)

theorem memberTexts_eq_nil {done : List (Text × Tree)} : memberTexts done = [] ↔ done = [] := by
  cases done with
  | nil => exact iff_of_true rfl rfl
  | cons first more => exact iff_of_false (List.cons_ne_nil _ _) (List.cons_ne_nil _ _)

/-- A container that is not closed yet. `pending` is a name that waits for its value. -/
inductive Frame
  | array (done : List Tree)
  | object (done : List (Text × Tree)) (pending : Option Text)

def Frame.level : Frame → Level
  | .array done => { valueCount := done.length, inArray := true }
  | .object done none => { valueCount := 2 * done.length, inArray := false }
  | .object done (some _) => { valueCount := 2 * done.length + 1, inArray := false }

def Frame.text : Frame → Text
  | .array done => '[' :: joined (elementTexts done)
  | .object done none => '\x7b' :: joined (memberTexts done)
  | .object done (some name) => '\x7b' :: (joined (memberTexts done) ++
      ((if done = [] then [] else [',']) ++ writeString name))

def Frame.calls : Frame → List Call
  | .array done => .startArray :: elementCalls done
  | .object done none => .startObject :: memberCalls done
  | .object done (some name) => .startObject :: (memberCalls done ++ [.string name])

def Frame.waits : Frame → Prop
  | .array _ => True
  | .object _ pending => pending ≠ none

def Frame.add : Frame → Tree → Frame
  | .array done, tree => .array (done ++ [tree])
  | .object done none, .string name => .object done (some name)
  | .object done none, _ => .object done none
  | .object done (some name), tree => .object (done ++ [(name, tree)]) none

def Tree.isString : Tree → Bool
  | .string _ => true
  | _ => false

/-- `tree` can be next: in an object, a name if none is pending. -/
def Frame.takes (frame : Frame) (tree : Tree) : Prop := frame.waits ∨ tree.isString = true

theorem Frame.add_level {frame : Frame} {tree : Tree} (takes : frame.takes tree) :
    (frame.add tree).level =
      { frame.level with valueCount := frame.level.valueCount + 1 } := by
  cases frame with
  | array done => simp [Frame.add, Frame.level]
  | object done pending =>
      cases pending with
      | none =>
          cases tree with
          | string name => rfl
          | _ => simp [Frame.takes, Frame.waits, Tree.isString] at takes
      | some name =>
          simp only [Frame.add, Frame.level, List.length_append, List.length_singleton]
          rw [Nat.mul_add]

theorem Frame.add_text {frame : Frame} {tree : Tree} (takes : frame.takes tree) :
    (frame.add tree).text = frame.text ++ (frame.level.separator ++ tree.text) := by
  cases frame with
  | array done =>
      simp only [Frame.add, Frame.text, Frame.level, Level.separator, elementTexts_concat,
        joined_concat, elementTexts_eq_nil, List.cons_append]
      cases done <;> simp
  | object done pending =>
      cases pending with
      | none =>
          cases tree with
          | string name =>
              simp only [Frame.add, Frame.text, Frame.level, Level.separator, Tree.text,
                List.cons_append]
              cases done <;> simp
          | _ => simp [Frame.takes, Frame.waits, Tree.isString] at takes
      | some name =>
          simp only [Frame.add, Frame.text, Frame.level, Level.separator, memberTexts_concat,
            joined_concat, memberTexts_eq_nil, List.cons_append]
          simp

theorem Frame.add_calls {frame : Frame} {tree : Tree} (takes : frame.takes tree) :
    (frame.add tree).calls = frame.calls ++ tree.calls := by
  cases frame with
  | array done => simp [Frame.add, Frame.calls, elementCalls_concat]
  | object done pending =>
      cases pending with
      | none =>
          cases tree with
          | string name => simp [Frame.add, Frame.calls, Tree.calls]
          | _ => simp [Frame.takes, Frame.waits, Tree.isString] at takes
      | some name => simp [Frame.add, Frame.calls, memberCalls_concat]

/-- What the containers that are open, the innermost first, have put. -/
def stackText : List Frame → Text
  | [] => []
  | [frame] => frame.text
  | frame :: outer :: more =>
      stackText (outer :: more) ++ (outer.level.separator ++ frame.text)

def stackCalls : List Frame → List Call
  | [] => []
  | frame :: outer => stackCalls outer ++ frame.calls

/-- A level counts the value that is under way. -/
def busyLevels (frames : List Frame) : List Level :=
  frames.map fun frame => { frame.level with valueCount := frame.level.valueCount + 1 }

/-- The calls led to this writer. -/
inductive Writes : List Call → Writer → Prop
  | fresh : Writes [] {}
  | inside (frame : Frame) (outer : List Frame) (waiting : ∀ other ∈ outer, other.waits) :
      Writes (stackCalls (frame :: outer))
        { os := stackText (frame :: outer), levels := frame.level :: busyLevels outer,
          hasRoot := true }
  | complete (tree : Tree) : Writes tree.calls { os := tree.text, levels := [], hasRoot := true }

theorem stackText_add {frame : Frame} {tree : Tree} (takes : frame.takes tree)
    (outer : List Frame) : stackText (frame.add tree :: outer) =
      stackText (frame :: outer) ++ (frame.level.separator ++ tree.text) := by
  cases outer with
  | nil => exact Frame.add_text takes
  | cons next more =>
      simp only [stackText, Frame.add_text takes, List.append_assoc]

/-- A value is put whole, at the top or into the innermost container. -/
theorem Writes.value {calls : List Call} {writer next : Writer} (writes : Writes calls writer)
    (tree : Tree) (prefixed : writer.putPrefix tree.isString = some next) :
    Writes (calls ++ tree.calls) (next.put tree.text) := by
  cases writes with
  | fresh =>
      cases prefixed
      exact Writes.complete tree
  | complete other => cases prefixed
  | inside frame outer waiting =>
      simp only [Writer.putPrefix, Option.ite_none_left_eq_some, Option.some.injEq] at prefixed
      obtain ⟨allowed, same⟩ := prefixed
      have takes : frame.takes tree := by
        cases frame with
        | array done => exact Or.inl trivial
        | object done pending =>
            cases pending with
            | some name => exact Or.inl (Option.some_ne_none name)
            | none =>
                right
                simpa [Frame.level] using allowed
      subst same
      have after := Writes.inside (frame.add tree) outer waiting
      simpa only [stackCalls, Frame.add_calls takes, stackText_add takes, Frame.add_level takes,
        Writer.put, List.append_assoc] using after

theorem Frame.waits_of_level {frame : Frame}
    (allowed : ¬ (frame.level.inArray = false ∧ frame.level.valueCount % 2 = 0 ∧ True)) :
    frame.waits := by
  cases frame with
  | array done => trivial
  | object done pending =>
      cases pending with
      | some name => exact Option.some_ne_none name
      | none => simp [Frame.level] at allowed

theorem Writes.opens {calls : List Call} {writer next : Writer} (writes : Writes calls writer)
    (inner : Frame) {inArray : Bool} {call : Call} {bracket : Text}
    (empty : inner.level = { valueCount := 0, inArray := inArray })
    (begins : inner.calls = [call]) (shown : inner.text = bracket)
    (prefixed : writer.putPrefix false = some next) :
    Writes (calls ++ [call]) ((next.open inArray).put bracket) := by
  cases writes with
  | fresh =>
      cases prefixed
      have after := Writes.inside inner [] (by simp)
      simpa only [stackCalls, stackText, begins, shown, empty, busyLevels, List.map_nil,
        Writer.put, Writer.open, List.nil_append] using after
  | complete other => cases prefixed
  | inside frame outer waiting =>
      simp only [Writer.putPrefix, Option.ite_none_left_eq_some, Option.some.injEq] at prefixed
      obtain ⟨allowed, same⟩ := prefixed
      subst same
      have waits := Frame.waits_of_level allowed
      have after := Writes.inside inner (frame :: outer) (by
        intro other member
        rcases List.mem_cons.mp member with rfl | later
        · exact waits
        · exact waiting other later)
      simpa only [stackCalls, stackText, begins, shown, empty, busyLevels, List.map_cons, Writer.put,
        Writer.open, List.append_assoc] using after

theorem Writes.closes {frame : Frame} {outer : List Frame}
    (waiting : ∀ other ∈ outer, other.waits) (tree : Tree) {call : Call} {bracket : Text}
    (ends : tree.calls = frame.calls ++ [call]) (shown : tree.text = frame.text ++ bracket) :
    Writes (stackCalls (frame :: outer) ++ [call])
      { os := stackText (frame :: outer) ++ bracket, levels := busyLevels outer
        hasRoot := true } := by
  cases outer with
  | nil =>
      have after := Writes.complete tree
      rw [ends, shown] at after
      exact after
  | cons next more =>
      have takes : next.takes tree := Or.inl (waiting next List.mem_cons_self)
      have after := Writes.inside (next.add tree) more fun other member =>
        waiting other (List.mem_cons_of_mem next member)
      simpa only [stackCalls, stackText, Frame.add_calls takes, stackText_add takes,
        Frame.add_level takes, busyLevels, List.map_cons, ends, shown, List.append_assoc] using after

theorem Writes.step {calls : List Call} {writer next : Writer} (writes : Writes calls writer)
    {call : Call} (stepped : writer.step call = some next) : Writes (calls ++ [call]) next := by
  cases call with
  | null =>
      obtain ⟨middle, prefixed, rfl⟩ := Option.map_eq_some_iff.mp stepped
      exact writes.value .null prefixed
  | bool b =>
      obtain ⟨middle, prefixed, rfl⟩ := Option.map_eq_some_iff.mp stepped
      exact writes.value (.bool b) prefixed
  | number digits =>
      obtain ⟨middle, prefixed, rfl⟩ := Option.map_eq_some_iff.mp stepped
      exact writes.value (.number digits) prefixed
  | string str =>
      obtain ⟨middle, prefixed, rfl⟩ := Option.map_eq_some_iff.mp stepped
      exact writes.value (.string str) prefixed
  | startObject =>
      obtain ⟨middle, prefixed, rfl⟩ := Option.map_eq_some_iff.mp stepped
      exact writes.opens (.object [] none) rfl rfl rfl prefixed
  | startArray =>
      obtain ⟨middle, prefixed, rfl⟩ := Option.map_eq_some_iff.mp stepped
      exact writes.opens (.array []) rfl rfl rfl prefixed
  | endObject =>
      cases writes with
      | fresh => cases stepped
      | complete tree => cases stepped
      | inside frame outer waiting =>
          simp only [Writer.step, Writer.endObject, Option.ite_none_left_eq_some,
            Option.some.injEq] at stepped
          obtain ⟨closed, rfl⟩ := stepped
          cases frame with
          | array done => simp [Frame.level] at closed
          | object done pending =>
              cases pending with
              | some name => simp [Frame.level] at closed
              | none => exact Writes.closes waiting (.object done) rfl rfl
  | endArray =>
      cases writes with
      | fresh => cases stepped
      | complete tree => cases stepped
      | inside frame outer waiting =>
          simp only [Writer.step, Writer.endArray, Option.ite_none_right_eq_some,
            Option.some.injEq] at stepped
          obtain ⟨closed, rfl⟩ := stepped
          cases frame with
          | array done => exact Writes.closes waiting (.array done) rfl rfl
          | object done pending => cases pending <;> simp [Frame.level] at closed

theorem Writes.run {calls more : List Call} {writer final : Writer} (writes : Writes calls writer)
    (written : Lib.run Writer.step writer more = some final) : Writes (calls ++ more) final := by
  induction more generalizing calls writer with
  | nil =>
      cases written
      rwa [List.append_nil]
  | cons call rest ih =>
      obtain ⟨next, stepped, continued⟩ := Option.bind_eq_some_iff.mp written
      have later := ih (writes.step stepped) continued
      rwa [List.append_assoc] at later

/-- Calls that complete a text walk through one tree. -/
theorem writes_complete {calls : List Call} {writer : Writer}
    (written : Lib.run Writer.step {} calls = some writer) (complete : writer.isComplete = true) :
    ∃ tree : Tree, calls = tree.calls ∧ writer.os = tree.text := by
  have writes := Writes.fresh.run written
  rw [List.nil_append] at writes
  cases writes with
  | fresh => simp [Writer.isComplete] at complete
  | inside frame outer waiting => simp [Writer.isComplete] at complete
  | complete tree => exact ⟨tree, rfl, rfl⟩

/-- The pieces with a comma before each one but the first of all. -/
def separated : Nat → List Text → Text
  | _, [] => []
  | count, piece :: more => (if count > 0 then [','] else []) ++ (piece ++ separated (count + 1) more)

theorem separated_zero (pieces : List Text) : separated 0 pieces = joined pieces := by
  cases pieces with
  | nil => rfl
  | cons first more =>
      have later (count : Nat) (next : Text) (rest : List Text) :
          separated (count + 1) (next :: rest) = ',' :: joined (next :: rest) := by
        induction rest generalizing count next with
        | nil => simp [separated, joined]
        | cons second rest ih =>
            rw [separated, ih (count + 1) second]
            simp [joined]
      cases more with
      | nil => simp [separated, joined]
      | cons next rest =>
          rw [separated, later]
          simp [joined]

mutual

/-- A walk through a tree meets no assertion where its first value can be put. -/
theorem Tree.run_calls : ∀ (tree : Tree) (writer next : Writer) (more : List Call),
    writer.putPrefix tree.isString = some next →
      run Writer.step writer (tree.calls ++ more) = run Writer.step (next.put tree.text) more
  | .null, writer, next, more, prefixed => by
      simp only [Tree.isString] at prefixed
      simp [Tree.calls, Tree.text, run, Writer.step, prefixed]
  | .bool b, writer, next, more, prefixed => by
      simp only [Tree.isString] at prefixed
      simp [Tree.calls, Tree.text, run, Writer.step, prefixed]
  | .number digits, writer, next, more, prefixed => by
      simp only [Tree.isString] at prefixed
      simp [Tree.calls, Tree.text, run, Writer.step, prefixed]
  | .string str, writer, next, more, prefixed => by
      simp only [Tree.isString] at prefixed
      simp [Tree.calls, Tree.text, run, Writer.step, prefixed]
  | .array elements, writer, next, more, prefixed => by
      simp only [Tree.isString] at prefixed
      have opened : writer.step .startArray = some ((next.open true).put ['[']) := by
        simp only [Writer.step, Writer.startArray, prefixed, Option.map_some]
      have inside := elements_run elements ((next.open true).put ['[']) next.levels 0
        (.endArray :: more) rfl
      rw [Tree.calls, List.cons_append, List.append_assoc, run, opened, Option.bind_some]
      refine inside.trans ?_
      simp [run, Writer.step, Writer.endArray, separated_zero, Tree.text, Writer.put, Writer.open]
  | .object members, writer, next, more, prefixed => by
      simp only [Tree.isString] at prefixed
      have opened : writer.step .startObject = some ((next.open false).put ['\x7b']) := by
        simp only [Writer.step, Writer.startObject, prefixed, Option.map_some]
      have inside := members_run members ((next.open false).put ['\x7b']) next.levels 0
        (.endObject :: more) rfl
      rw [Tree.calls, List.cons_append, List.append_assoc, run, opened, Option.bind_some]
      refine inside.trans ?_
      simp [run, Writer.step, Writer.endObject, separated_zero, Tree.text, Writer.put, Writer.open]

theorem elements_run : ∀ (elements : List Tree) (writer : Writer) (outer : List Level)
    (count : Nat) (more : List Call),
    writer.levels = { valueCount := count, inArray := true } :: outer →
      run Writer.step writer (elementCalls elements ++ more) =
        run Writer.step { writer with
          os := writer.os ++ separated count (elementTexts elements)
          levels := { valueCount := count + elements.length, inArray := true } :: outer } more
  | [], writer, outer, count, more, top => by
      obtain ⟨os, levels, hasRoot⟩ := writer
      cases top
      simp [elementCalls, elementTexts, separated]
  | tree :: rest, writer, outer, count, more, top => by
      have prefixed : writer.putPrefix tree.isString = some { writer with
          os := writer.os ++ (if count > 0 then [','] else [])
          levels := { valueCount := count + 1, inArray := true } :: outer } := by
        simp [Writer.putPrefix, top, Level.separator]
      have first := tree.run_calls writer _ (elementCalls rest ++ more) prefixed
      have others := elements_run rest (Writer.put { writer with
          os := writer.os ++ (if count > 0 then [','] else [])
          levels := { valueCount := count + 1, inArray := true } :: outer } tree.text) outer
        (count + 1) more rfl
      rw [elementCalls, List.append_assoc, first, others]
      simp only [Writer.put, elementTexts, separated, List.append_assoc, List.length_cons,
        Nat.add_assoc, Nat.add_comm 1]

theorem members_run : ∀ (members : List (Text × Tree)) (writer : Writer) (outer : List Level)
    (count : Nat) (more : List Call),
    writer.levels = { valueCount := 2 * count, inArray := false } :: outer →
      run Writer.step writer (memberCalls members ++ more) =
        run Writer.step { writer with
          os := writer.os ++ separated count (memberTexts members)
          levels := { valueCount := 2 * (count + members.length), inArray := false } :: outer } more
  | [], writer, outer, count, more, top => by
      obtain ⟨os, levels, hasRoot⟩ := writer
      cases top
      simp [memberCalls, memberTexts, separated]
  | (name, tree) :: rest, writer, outer, count, more, top => by
      have named : writer.step (.string name) = some { writer with
          os := writer.os ++ ((if count > 0 then [','] else []) ++ writeString name)
          levels := { valueCount := 2 * count + 1, inArray := false } :: outer } := by
        simp [Writer.step, Writer.putPrefix, top, Level.separator, Writer.put]
      have prefixed : Writer.putPrefix { writer with
          os := writer.os ++ ((if count > 0 then [','] else []) ++ writeString name)
          levels := { valueCount := 2 * count + 1, inArray := false } :: outer } tree.isString =
          some { writer with
            os := writer.os ++ ((if count > 0 then [','] else []) ++ writeString name) ++ [':']
            levels := { valueCount := 2 * (count + 1), inArray := false } :: outer } := by
        simp [Writer.putPrefix, Level.separator, Nat.mul_add]
      have first := tree.run_calls _ _ (memberCalls rest ++ more) prefixed
      have others := members_run rest (Writer.put { writer with
          os := writer.os ++ ((if count > 0 then [','] else []) ++ writeString name) ++ [':']
          levels := { valueCount := 2 * (count + 1), inArray := false } :: outer } tree.text) outer
        (count + 1) more rfl
      rw [memberCalls, List.cons_append, List.append_assoc, run, named, Option.bind_some, first,
        others]
      simp only [Writer.put, memberTexts, separated, List.append_assoc, List.length_cons,
        List.cons_append, List.nil_append, Nat.add_assoc, Nat.add_comm 1]

end

/-- A fresh writer takes the walk through any tree. -/
theorem Tree.run_fresh (tree : Tree) : run Writer.step {} tree.calls =
    some { os := tree.text, levels := [], hasRoot := true } := by
  have taken := tree.run_calls {} { hasRoot := true } [] rfl
  rw [List.append_nil] at taken
  exact taken

end DcCluster.Rapidjson

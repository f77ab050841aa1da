import DcCluster.TinyXml2.CutTag
import Mathlib.Data.List.Find

/-!
What an element or another node is read as does not depend on what follows it in the buffer:
a document that was cut short is refused, or it has the first nodes of the whole one.
-/

namespace DcCluster.TinyXml2

open DcCluster.Lib DcCluster.Mq Decoder

section Identify

theorem findEndTag_mem {endTag p value rest : Text}
    (found : findEndTag endTag p = some (value, rest)) {c : Char} (char : c ∈ endTag) : c ∈ p := by
  rw [findEndTag_split found]
  exact List.mem_append_left _ (List.mem_append_right _ char)

theorem isPrefixOf_append_of_mem {pattern q : Text} (more : Text) {c : Char} (inside : c ∈ q)
    (outside : c ∉ pattern) : pattern.isPrefixOf (q ++ more) = pattern.isPrefixOf q := by
  by_cases long : pattern.length ≤ q.length
  · exact isPrefixOf_append long
  · have differs : ¬ pattern.isPrefixOf (q ++ more) = true := by
      intro starts
      have shorter := List.prefix_of_prefix_length_le (List.prefix_append q more)
        (List.isPrefixOf_iff_prefix.mp starts) (by omega)
      exact outside (shorter.subset inside)
    have shorter : ¬ pattern.isPrefixOf q = true := by
      intro starts
      exact long (List.isPrefixOf_iff_prefix.mp starts).length_le
    rw [Bool.eq_false_iff.mpr differs, Bool.eq_false_iff.mpr shorter]

theorem headers_end : ∀ header ∈ headers, '>' ∉ header.1 := by decide

theorem headers_start : ∀ header ∈ headers, header.1.head? = some '<' := by decide

theorem headers_other : ∀ header ∈ headers, header.2 ≠ .text := by decide

theorem headers_cons {header : Text × Header} (listed : header ∈ headers) :
    ∃ more, header.1 = '<' :: more := by
  have starts := headers_start header listed
  cases pattern : header.1 with
  | nil =>
      rw [pattern] at starts
      cases starts
  | cons c more =>
      rw [pattern] at starts
      injection starts with same
      exact ⟨more, by rw [same]⟩

/-- What `Identify` has found, and where it goes on. -/
theorem identify_some {p left : Text} {header : Header}
    (identified : identify p = .ok (some header, left)) :
    (∃ pattern, pattern ∈ headers ∧ pattern.2 = header ∧
      (headers.find? fun other => other.1.isPrefixOf (p.dropWhile isWhiteSpace)) = some pattern ∧
      p.dropWhile isWhiteSpace = pattern.1 ++ left) ∨
    (header = .text ∧ left = p ∧
      ∃ c more, p.dropWhile isWhiteSpace = c :: more ∧ c ≠ '<') := by
  unfold identify at identified
  dsimp only at identified
  split at identified
  next => cases identified
  next some_left =>
    split at identified
    next pattern found =>
      cases identified
      left
      refine ⟨pattern, List.mem_of_find?_eq_some found, rfl, found, ?_⟩
      have starts := List.find?_some found
      obtain ⟨following, split⟩ := List.isPrefixOf_iff_prefix.mp starts
      rw [← split, List.drop_left]
    next none_found =>
      cases identified
      right
      refine ⟨rfl, rfl, ?_⟩
      cases blanks : p.dropWhile isWhiteSpace with
      | nil => exact absurd blanks some_left
      | cons c more =>
          refine ⟨c, more, rfl, ?_⟩
          rintro rfl
          rw [blanks] at none_found
          have refused := List.find?_eq_none.mp none_found (['<'], .element) (by decide)
          exact refused rfl

theorem identify_none {p left : Text} (identified : identify p = .ok (none, left)) : left = [] := by
  unfold identify at identified
  dsimp only at identified
  split at identified
  next blank =>
    cases identified
    exact blank
  next =>
    split at identified
    next => cases identified
    next => cases identified

theorem identify_append {p left : Text} {header : Header} (more : Text)
    (identified : identify p = .ok (some header, left)) (ends : header = .text ∨ '>' ∈ left) :
    identify (p ++ more) = .ok (some header, left ++ more) := by
  rcases identify_some identified with
    ⟨pattern, listed, rfl, found, split⟩ | ⟨rfl, rfl, c, following, split, other⟩
  · have nonempty : pattern.1 ≠ [] := by
      obtain ⟨later, bracket⟩ := headers_cons listed
      rw [bracket]
      exact List.cons_ne_nil _ _
    have blanks : (p ++ more).dropWhile isWhiteSpace = p.dropWhile isWhiteSpace ++ more := by
      refine dropWhile_append ?_
      rw [split]
      exact List.append_ne_nil_of_left_ne_nil nonempty _
    have inside : '>' ∈ p.dropWhile isWhiteSpace := by
      rw [split]
      exact List.mem_append_right _ (ends.resolve_left (headers_other pattern listed))
    have same : (headers.find? fun other => other.1.isPrefixOf ((p ++ more).dropWhile isWhiteSpace))
        = some pattern := by
      rw [← found, blanks]
      refine List.find?_congr fun other among => ?_
      exact isPrefixOf_append_of_mem more inside (headers_end other among)
    unfold identify
    dsimp only
    rw [if_neg, same]
    · rw [blanks, split]
      simp only [List.append_assoc, List.drop_left]
    · rw [blanks, split]
      simp [nonempty]
  · have blanks : (left ++ more).dropWhile isWhiteSpace = c :: (following ++ more) := by
      rw [dropWhile_append, split]
      · rfl
      · rw [split]
        exact List.cons_ne_nil _ _
    have none_found : (headers.find? fun header => header.1.isPrefixOf (c :: (following ++ more)))
        = none := by
      refine List.find?_eq_none.mpr fun header listed => ?_
      obtain ⟨others, bracket⟩ := headers_cons listed
      intro begins
      obtain ⟨later, joined⟩ := List.isPrefixOf_iff_prefix.mp begins
      rw [bracket, List.cons_append] at joined
      injection joined with same _
      exact other same.symm
    unfold identify
    dsimp only
    rw [blanks, if_neg (List.cons_ne_nil _ _), none_found]

end Identify

section Deep

theorem parseTextNode_ok {p rest : Text} {node : XMLNode}
    (read : parseTextNode p = .ok (node, rest)) :
    ∃ value left, left ≠ [] ∧ findEndTag ['<'] p = some (value, left) ∧
      node = .text value false ∧ rest = '<' :: left := by
  unfold parseTextNode at read
  split at read
  next => cases read
  next value left found =>
    split at read
    next => cases read
    next some_left =>
      cases read
      exact ⟨value, left, some_left, found, rfl, rfl⟩

theorem parseTextNode_closed : Closed parseTextNode := by
  constructor
  · intro p node rest read
    obtain ⟨value, left, _, found, _, rfl⟩ := parseTextNode_ok read
    rw [findEndTag_split found, List.append_assoc]
    exact List.suffix_append _ _
  · intro p node rest more read
    obtain ⟨value, left, some_left, found, rfl, rfl⟩ := parseTextNode_ok read
    unfold parseTextNode
    rw [findEndTag_append more found]
    dsimp only
    rw [if_neg (List.append_ne_nil_of_left_ne_nil some_left _)]
    rfl

/-- Two readers of children: what the first one has read up to an end tag, the second one
reads in the same way when the buffer goes on. -/
def LevelGoes (level level' : XMLReader Level) : Prop :=
  ∀ p inner rest more, level p = .ok (inner, rest) → inner.endTag ≠ none →
    level' (p ++ more) = .ok (inner, rest ++ more)

def LevelShrinks (level : XMLReader Level) : Prop :=
  ∀ p inner rest, level p = .ok (inner, rest) → rest.length ≤ p.length

variable {level level' : XMLReader Level}

theorem closeElement_ok {tag : Tag} {inner : Level} {p rest : Text}
    {parsed : XMLNode × Option Text} (read : closeElement tag inner p = .ok (parsed, rest)) :
    inner.endTag ≠ none ∧ rest = p ∧ ∀ q, closeElement tag inner q = .ok (parsed, q) := by
  unfold closeElement at read ⊢
  cases closed : inner.endTag with
  | none =>
      rw [closed] at read
      cases read
  | some endTag =>
      rw [closed] at read
      cases read
      exact ⟨Option.some_ne_none _, rfl, fun _ => rfl⟩

/-- An element that is open at the end of the buffer. -/
def Unfinished : XMLNode × Option Text → Prop
  | (.element _ _ .opened _, none) => True
  | _ => False

theorem parseChildren_append (goes : LevelGoes level level') {tag : Tag} {p rest : Text}
    {parsed : XMLNode × Option Text} (more : Text)
    (read : parseChildren level tag p = .ok (parsed, rest)) (finished : ¬ Unfinished parsed) :
    parseChildren level' tag (p ++ more) = .ok (parsed, rest ++ more) := by
  unfold parseChildren at read ⊢
  by_cases opened : tag.closingType = .opened
  · split at read
    next stops =>
      cases read
      rw [opened] at finished
      exact absurd trivial finished
    next going =>
      have some_left : p ≠ [] := fun empty => going (.inl empty)
      have later : ¬ (p ++ more = [] ∨ tag.closingType ≠ .opened) := by
        rintro (empty | other)
        · exact some_left (List.append_eq_nil_iff.mp empty).1
        · exact other opened
      rw [if_neg later]
      obtain ⟨inner, left, first, follows⟩ := of_bind_ok read
      obtain ⟨closed, rfl, same⟩ := closeElement_ok follows
      rw [bind_ok (goes p inner rest more first closed), same]
  · rw [if_pos (.inr opened)] at read
    cases read
    rw [if_pos (.inr opened)]

theorem parseElement_append (goes : LevelGoes level level') {p rest : Text}
    {parsed : XMLNode × Option Text} (more : Text)
    (read : parseElement level p = .ok (parsed, rest)) (finished : ¬ Unfinished parsed) :
    parseElement level' (p ++ more) = .ok (parsed, rest ++ more) := by
  obtain ⟨tag, left, tagged, follows⟩ := of_bind_ok read
  unfold parseElement
  rw [bind_ok (parseTag_closed.goes _ _ _ more tagged)]
  exact parseChildren_append goes more follows finished

theorem parseDeep_append (goes : LevelGoes level level') {header : Header} {p rest : Text}
    {parsed : XMLNode × Option Text} (more : Text)
    (read : parseDeep level header p = .ok (parsed, rest)) (finished : ¬ Unfinished parsed) :
    parseDeep level' header (p ++ more) = .ok (parsed, rest ++ more) := by
  cases header with
  | element => exact parseElement_append goes more read finished
  | text => exact (parseTextNode_closed.bind fun _ => Closed.pure _).goes _ _ _ more read
  | declaration | comment | cdata | unknown =>
      exact ((parseText_closed _ _).bind fun _ => Closed.pure _).goes _ _ _ more read

theorem parseDeep_mem {header : Header} {p rest : Text} {parsed : XMLNode × Option Text}
    (read : parseDeep level header p = .ok (parsed, rest)) : header = .text ∨ '>' ∈ p := by
  cases header with
  | text => exact .inl rfl
  | element =>
      obtain ⟨tag, left, tagged, _⟩ := of_bind_ok read
      exact .inr (parseTag_mem tagged)
  | declaration | comment | cdata | unknown =>
      obtain ⟨value, left, found, _⟩ := of_bind_ok read
      exact .inr (findEndTag_mem (parseText_ok found) (by decide))

theorem parseDeep_length (shrinks : LevelShrinks level) {header : Header} {p rest : Text}
    {parsed : XMLNode × Option Text} (read : parseDeep level header p = .ok (parsed, rest)) :
    rest.length ≤ p.length := by
  cases header with
  | text =>
      exact ((parseTextNode_closed.bind fun _ => Closed.pure _).suffix _ _ _ read).length_le
  | element =>
      obtain ⟨tag, left, tagged, follows⟩ := of_bind_ok read
      have shorter := (parseTag_closed.suffix _ _ _ tagged).length_le
      unfold parseChildren at follows
      split at follows
      · cases follows
        exact shorter
      · obtain ⟨inner, last, first, ends⟩ := of_bind_ok follows
        obtain ⟨_, rfl, _⟩ := closeElement_ok ends
        exact (shrinks _ _ _ first).trans shorter
  | declaration | comment | cdata | unknown =>
      exact (((parseText_closed _ _).bind fun _ => Closed.pure _).suffix _ _ _ read).length_le

end Deep

section Turn

variable {level level' : XMLReader Level} {isDocument : Bool} {state : Level}

theorem placeNode_ok {node : XMLNode} {endTag : Option Text} {p rest : Text} {ended : Turn Level}
    (placed : placeNode isDocument state node endTag p = .ok (ended, rest)) :
    rest = p ∧ ¬ Unfinished (node, endTag) ∧
      (∀ q, placeNode isDocument state node endTag q = .ok (ended, q)) ∧
      ((∃ name, ended = .done { state with endTag := some name }) ∨
        ended = .again { state with children := state.children ++ [node] }) := by
  cases node with
  | declaration value =>
      unfold placeNode at placed ⊢
      dsimp only at placed ⊢
      split at placed
      next located =>
        cases placed
        rw [if_pos located]
        exact ⟨rfl, id, fun _ => rfl, .inr rfl⟩
      next => cases placed
  | element name attributes closingType children =>
      unfold placeNode at placed ⊢
      dsimp only at placed ⊢
      split at placed
      next closing =>
        cases placed
        rw [if_pos closing]
        subst closing
        exact ⟨rfl, id, fun _ => rfl, .inl ⟨name, rfl⟩⟩
      next other =>
        split at placed
        next => cases placed
        next fits =>
          cases placed
          rw [if_neg other, if_neg fits]
          refine ⟨rfl, ?_, fun _ => rfl, .inr rfl⟩
          intro unfinished
          cases closingType with
          | opened =>
              cases endTag with
              | none => exact fits rfl
              | some endTag => exact unfinished
          | closed => exact unfinished
          | closing => exact unfinished
  | text value isCData =>
      cases placed
      exact ⟨rfl, id, fun _ => rfl, .inr rfl⟩
  | comment value =>
      cases placed
      exact ⟨rfl, id, fun _ => rfl, .inr rfl⟩
  | unknown value =>
      cases placed
      exact ⟨rfl, id, fun _ => rfl, .inr rfl⟩

theorem nodeTurn_ok {p rest : Text} {ended : Turn Level}
    (turn : nodeTurn level isDocument state p = .ok (ended, rest)) :
    (identify p = .ok (none, rest) ∧ ended = .done state) ∨
      ∃ header left parsed, identify p = .ok (some header, left) ∧
        parseDeep level header left = .ok (parsed, rest) ∧
        placeNode isDocument state parsed.1 parsed.2 rest = .ok (ended, rest) := by
  obtain ⟨found, left, identified, follows⟩ := of_bind_ok turn
  cases found with
  | none =>
      cases follows
      exact .inl ⟨identified, rfl⟩
  | some header =>
      obtain ⟨parsed, after, deep, placed⟩ := of_bind_ok follows
      obtain ⟨rfl, _⟩ := placeNode_ok placed
      exact .inr ⟨header, left, parsed, identified, deep, placed⟩

theorem nodeTurn_append (goes : LevelGoes level level') {p rest : Text} {ended : Turn Level}
    (more : Text) (turn : nodeTurn level isDocument state p = .ok (ended, rest)) :
    ended = .done state ∨
      nodeTurn level' isDocument state (p ++ more) = .ok (ended, rest ++ more) := by
  rcases nodeTurn_ok turn with ⟨_, stopped⟩ | ⟨header, left, parsed, identified, deep, placed⟩
  · exact .inl stopped
  · right
    obtain ⟨_, finished, same, _⟩ := placeNode_ok placed
    have found := identify_append more identified (parseDeep_mem deep)
    have deeper := parseDeep_append goes more deep finished
    unfold nodeTurn
    rw [bind_ok found]
    dsimp only
    rw [bind_ok deeper, same]

theorem identify_length {p left : Text} {header : Header}
    (identified : identify p = .ok (some header, left)) (other : header ≠ .text) :
    left.length < p.length := by
  rcases identify_some identified with ⟨pattern, listed, rfl, _, split⟩ | ⟨text, _⟩
  · obtain ⟨following, bracket⟩ := headers_cons listed
    have shorter := (List.dropWhile_suffix isWhiteSpace (l := p)).length_le
    rw [split, List.length_append, bracket, List.length_cons] at shorter
    omega
  · exact absurd text other

/-- A text takes a character at least: `Identify` has not found a `<`. -/
theorem parseTextNode_length {p left rest : Text} {node : XMLNode}
    (identified : identify p = .ok (some .text, left))
    (read : parseTextNode left = .ok (node, rest)) : rest.length < p.length := by
  rcases identify_some identified with ⟨pattern, listed, text, _⟩ | ⟨_, rfl, c, more, split, other⟩
  · exact absurd text (headers_other pattern listed)
  · obtain ⟨value, after, _, found, _, rfl⟩ := parseTextNode_ok read
    cases value with
    | cons first value =>
        rw [findEndTag_split found]
        simp only [List.length_append, List.length_cons]
        omega
    | nil =>
        rw [findEndTag_split found] at split
        rw [List.nil_append, List.singleton_append, List.dropWhile_cons_of_neg (by decide)] at split
        injection split with same _
        exact absurd same.symm other

theorem nodeTurn_length (shrinks : LevelShrinks level) {p rest : Text} {ended : Turn Level}
    (turn : nodeTurn level isDocument state p = .ok (ended, rest)) :
    rest.length < p.length ∨ rest = [] ∧ ended = .done state := by
  rcases nodeTurn_ok turn with ⟨identified, stopped⟩ | ⟨header, left, parsed, identified, deep, _⟩
  · exact .inr ⟨identify_none identified, stopped⟩
  · left
    by_cases text : header = .text
    · subst text
      obtain ⟨node, after, read, ends⟩ := of_bind_ok deep
      cases ends
      exact parseTextNode_length identified read
    · have shorter := parseDeep_length shrinks deep
      have fewer := identify_length identified text
      omega

theorem nodeTurn_advances (shrinks : LevelShrinks level) :
    Advances (nodeTurn level isDocument) := by
  intro state p next rest turn
  rcases nodeTurn_length shrinks turn with shorter | ⟨_, stopped⟩
  · exact shorter
  · cases stopped

theorem nodeTurn_again {p rest : Text} {next : Level}
    (turn : nodeTurn level isDocument state p = .ok (.again next, rest)) :
    next.endTag = state.endTag ∧ state.children <+: next.children := by
  rcases nodeTurn_ok turn with ⟨_, stopped⟩ | ⟨header, left, parsed, _, _, placed⟩
  · cases stopped
  · obtain ⟨_, _, _, ⟨name, ended⟩ | ended⟩ := placeNode_ok placed
    · cases ended
    · cases ended
      exact ⟨rfl, List.prefix_append _ _⟩

theorem nodeTurn_done {p rest : Text} {last : Level}
    (turn : nodeTurn level isDocument state p = .ok (.done last, rest)) :
    last.children = state.children := by
  rcases nodeTurn_ok turn with ⟨_, stopped⟩ | ⟨header, left, parsed, _, _, placed⟩
  · cases stopped
    rfl
  · obtain ⟨_, _, _, ⟨name, ended⟩ | ended⟩ := placeNode_ok placed
    · cases ended
      rfl
    · cases ended

end Turn

section Level

theorem parseLevel_shrinks (depth : Nat) (isDocument : Bool) :
    LevelShrinks (parseLevel depth isDocument) := by
  induction depth generalizing isDocument with
  | zero =>
      intro p inner rest read
      cases read
  | succ depth ih =>
      intro p inner rest read
      refine Decoder.loop_induction (motive := fun _ p _ rest => rest.length ≤ p.length) ?_ ?_ read
      · intro state p last rest ended
        rcases nodeTurn_length (ih false) ended with shorter | ⟨rfl, _⟩
        · omega
        · exact Nat.zero_le _
      · intro state p next left last rest again later
        exact later.trans (nodeTurn_advances (ih false) _ _ _ _ again).le

theorem nodeLoop_grows {level : XMLReader Level} {isDocument : Bool} {state last : Level}
    {p rest : Text}
    (read : Decoder.loop .parsing (nodeTurn level isDocument) state p = .ok (last, rest)) :
    state.children <+: last.children := by
  refine Decoder.loop_induction
    (motive := fun state _ last _ => state.children <+: last.children) ?_ ?_ read
  · intro state p last rest ended
    rw [nodeTurn_done ended]
  · intro state p next left last rest again later
    exact (nodeTurn_again again).2.trans later

/-- A level that was read from the beginning of a buffer: up to an end tag it is what the whole
buffer gives; without one, the whole buffer goes on with what was read. -/
theorem nodeLoop_append {level level' : XMLReader Level} (goes : LevelGoes level level')
    (shrinks : LevelShrinks level') {isDocument : Bool} {state last : Level} {p rest : Text}
    (more : Text) (untagged : state.endTag = none)
    (read : Decoder.loop .parsing (nodeTurn level isDocument) state p = .ok (last, rest)) :
    Decoder.loop .parsing (nodeTurn level' isDocument) state (p ++ more) = .ok (last, rest ++ more) ∨
      (last.endTag = none ∧ ∀ last' rest',
        Decoder.loop .parsing (nodeTurn level' isDocument) state (p ++ more) = .ok (last', rest') →
          last.children <+: last'.children) := by
  revert untagged
  refine Decoder.loop_induction (motive := fun state p last rest => state.endTag = none →
    Decoder.loop .parsing (nodeTurn level' isDocument) state (p ++ more) = .ok (last, rest ++ more) ∨
      (last.endTag = none ∧ ∀ last' rest',
        Decoder.loop .parsing (nodeTurn level' isDocument) state (p ++ more) = .ok (last', rest') →
          last.children <+: last'.children)) ?_ ?_ read
  · intro state p last rest ended untagged
    rcases nodeTurn_append goes more ended with stopped | same
    · cases stopped
      exact .inr ⟨untagged, fun last' rest' whole => nodeLoop_grows whole⟩
    · left
      rw [Decoder.loop_eq (nodeTurn_advances shrinks), bind_ok same]
      rfl
  · intro state p next left last rest again later untagged
    rcases nodeTurn_append goes more again with stopped | same
    · cases stopped
    · rw [Decoder.loop_eq (nodeTurn_advances shrinks), bind_ok same]
      exact later ((nodeTurn_again again).1.trans untagged)

theorem parseLevel_goes {depth depth' : Nat} (deeper : depth ≤ depth') (isDocument : Bool) :
    LevelGoes (parseLevel depth isDocument) (parseLevel depth' isDocument) := by
  induction depth generalizing depth' isDocument with
  | zero =>
      intro p inner rest more read
      cases read
  | succ depth ih =>
      intro p inner rest more read tagged
      obtain ⟨below, rfl⟩ : ∃ below, depth' = below + 1 := ⟨depth' - 1, by omega⟩
      have goes := ih (show depth ≤ below by omega) false
      rcases nodeLoop_append goes (parseLevel_shrinks below false) more rfl read with
        same | ⟨untagged, _⟩
      · exact same
      · exact absurd untagged tagged

theorem parseLevel_append {depth depth' : Nat} (deeper : depth ≤ depth') {isDocument : Bool}
    {p rest more rest' : Text} {level level' : Level}
    (read : parseLevel depth isDocument p = .ok (level, rest))
    (whole : parseLevel depth' isDocument (p ++ more) = .ok (level', rest')) :
    level.children <+: level'.children := by
  cases depth with
  | zero => cases read
  | succ depth =>
      obtain ⟨below, rfl⟩ : ∃ below, depth' = below + 1 := ⟨depth' - 1, by omega⟩
      have goes := parseLevel_goes (show depth ≤ below by omega) false
      rcases nodeLoop_append goes (parseLevel_shrinks below false) more rfl read with
        same | ⟨_, extended⟩
      · have equal := same.symm.trans whole
        cases equal
        exact List.prefix_refl _
      · exact extended _ _ whole

end Level

section Document

/-- The start of a byte order mark alone is a text, and no text may end a document. -/
theorem parseLevel_bom {q : Text} (starts : q <+: bom) (some_left : q ≠ []) (short : q ≠ bom) :
    parseLevel (q.length + 1) true q = .error .parsingText := by
  have listed : q ∈ bom.inits := List.mem_inits q bom |>.mpr starts
  have cases_of : ∀ q ∈ bom.inits, q ≠ [] → q ≠ bom → q = bom.take 1 ∨ q = bom.take 2 := by decide
  rcases cases_of q listed some_left short with rfl | rfl
  · rfl
  · rfl

theorem documentStart_append {part : Text} (more : Text) (some_left : documentStart part ≠ []) :
    (∃ following, documentStart (part ++ more) = documentStart part ++ following) ∨
      (documentStart part <+: bom ∧ documentStart part ≠ bom) := by
  obtain ⟨following, same⟩ := exists_takeWhile_append (fun char => char ≠ Char.ofNat 0) part more
  have text : cString (part ++ more) = cString part ++ following := same
  unfold documentStart at some_left ⊢
  rw [text]
  have nonempty : (cString part).dropWhile isWhiteSpace ≠ [] := by
    intro empty
    rw [empty] at some_left
    exact some_left rfl
  rw [dropWhile_append nonempty]
  generalize (cString part).dropWhile isWhiteSpace = q
  unfold readBOM
  by_cases whole : bom.isPrefixOf q = true
  · left
    have long := (List.isPrefixOf_iff_prefix.mp whole).length_le
    rw [isPrefixOf_append long, if_pos whole, if_pos whole]
    exact ⟨following, List.drop_append_of_le_length long⟩
  · rw [if_neg whole]
    by_cases begun : bom.isPrefixOf (q ++ following) = true
    · right
      have short : ¬ bom.length ≤ q.length := by
        intro long
        rw [isPrefixOf_append long] at begun
        exact whole begun
      refine ⟨List.prefix_of_prefix_length_le (List.prefix_append q following)
        (List.isPrefixOf_iff_prefix.mp begun) (by omega), ?_⟩
      rintro rfl
      exact short (Nat.le_refl _)
    · rw [if_neg begun]
      exact .inl ⟨following, rfl⟩

theorem parse_ok {text : Text} {nodes : List XMLNode} (read : parse text = .ok nodes) :
    documentStart text ≠ [] ∧ ∃ level rest,
      parseLevel ((documentStart text).length + 1) true (documentStart text) = .ok (level, rest) ∧
        level.children = nodes := by
  unfold parse at read
  dsimp only at read
  split at read
  next => cases read
  next some_left =>
    refine ⟨some_left, ?_⟩
    cases deep : parseLevel ((documentStart text).length + 1) true (documentStart text) with
    | error error =>
        rw [deep] at read
        cases read
    | ok result =>
        rw [deep] at read
        cases read
        exact ⟨result.1, result.2, rfl, rfl⟩

/-- Where a document that was cut short parses at all, it has the first nodes of the whole. -/
theorem parse_append {part more : Text} {nodes nodes' : List XMLNode}
    (read : parse part = .ok nodes) (whole : parse (part ++ more) = .ok nodes') :
    nodes <+: nodes' := by
  obtain ⟨some_left, level, rest, deep, rfl⟩ := parse_ok read
  obtain ⟨_, level', rest', deep', rfl⟩ := parse_ok whole
  rcases documentStart_append more some_left with ⟨following, split⟩ | ⟨starts, short⟩
  · rw [split] at deep'
    refine parseLevel_append ?_ deep deep'
    rw [List.length_append]
    omega
  · rw [parseLevel_bom starts some_left short] at deep
    cases deep

end Document

end DcCluster.TinyXml2

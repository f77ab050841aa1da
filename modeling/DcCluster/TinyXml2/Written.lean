import DcCluster.TinyXml2.CutNode
import Mathlib.Data.List.TakeWhile

/-!
Documents as they are written: declarations, elements and comments with blanks between them.
Every such document is read back.
-/

namespace DcCluster.TinyXml2

open DcCluster.Lib DcCluster.Mq Decoder

theorem cString_visible {text : Text} (visible : nul ∉ text) : cString text = text := by
  unfold cString
  rw [List.takeWhile_eq_self_iff]
  intro c member
  refine decide_eq_true ?_
  rintro rfl
  exact visible member

section Names

def isName : Text → Bool
  | [] => false
  | c :: more => isNameStartChar c && more.all isNameChar

/-- A test that no blank passes. -/
theorem visible_of {holds : Char → Bool} {c : Char}
    (blanks : ∀ number ∈ [9, 10, 11, 12, 13, 32], holds (Char.ofNat number) = false)
    (test : holds c = true) : isWhiteSpace c = false := by
  cases blank : isWhiteSpace c with
  | false => rfl
  | true =>
      simp only [isWhiteSpace, Bool.or_eq_true, beq_iff_eq, Bool.and_eq_true,
        decide_eq_true_eq] at blank
      have listed : c.toNat ∈ [9, 10, 11, 12, 13, 32] := by
        simp only [List.mem_cons, List.not_mem_nil, or_false]
        omega
      have refused := blanks c.toNat listed
      rw [Char.ofNat_toNat, test] at refused
      cases refused

theorem visible_of_isNameStartChar {c : Char} (start : isNameStartChar c = true) :
    isWhiteSpace c = false :=
  visible_of (by decide) start

theorem takeWhile_then {holds : Char → Bool} {p rest : Text} (all : p.all holds = true)
    (stops : holds (rest.headD nul) = false) : (p ++ rest).takeWhile holds = p := by
  induction p with
  | nil =>
      cases rest with
      | nil => rfl
      | cons c rest => exact List.takeWhile_cons_of_neg (Bool.eq_false_iff.mp stops)
  | cons c p ih =>
      rw [List.all_cons, Bool.and_eq_true] at all
      rw [List.cons_append, List.takeWhile_cons_of_pos all.1, ih all.2]

theorem dropWhile_then {holds : Char → Bool} {p rest : Text} (all : p.all holds = true)
    (stops : holds (rest.headD nul) = false) : (p ++ rest).dropWhile holds = rest := by
  have split := List.takeWhile_append_dropWhile (p := holds) (l := p ++ rest)
  rw [takeWhile_then all stops] at split
  exact List.append_cancel_left split

def AfterName (rest : Text) : Prop := isNameChar (rest.headD nul) = false

theorem parseName_before (error : XMLError) {name : Text} (named : isName name = true) :
    DecodesBefore AfterName (parseName error) name name := by
  intro rest after
  cases name with
  | nil => cases named
  | cons c more =>
      obtain ⟨start, chars⟩ := (Bool.and_eq_true _ _).mp named
      unfold parseName
      simp only [List.cons_append]
      rw [if_pos start, takeWhile_then chars after, dropWhile_then chars after]

end Names

section Attributes

theorem findEndTag_char {c : Char} {value : Text} (rest : Text) (outside : c ∉ value) :
    findEndTag [c] (value ++ c :: rest) = some (value, rest) := by
  induction value with
  | nil =>
      have here : [c].isPrefixOf (c :: rest) = true := List.isPrefixOf_iff_prefix.mpr ⟨rest, rfl⟩
      rw [List.nil_append, findEndTag, if_pos here]
      rfl
  | cons d value ih =>
      have later : ¬ [c].isPrefixOf (d :: (value ++ c :: rest)) = true := by
        intro here
        obtain ⟨more, same⟩ := List.isPrefixOf_iff_prefix.mp here
        injection same with head _
        exact outside (List.mem_cons.mpr (.inl head))
      rw [List.cons_append, findEndTag, if_neg later,
        ih fun member => outside (List.mem_cons_of_mem _ member)]
      rfl

theorem skipWhiteSpace_visible {c : Char} (p : Text) (visible : isWhiteSpace c = false) :
    skipWhiteSpace (c :: p) = .ok ((), c :: p) := by
  unfold skipWhiteSpace
  rw [List.dropWhile_cons_of_neg (Bool.eq_false_iff.mp visible)]

theorem equalsValue_decodes (name : Text) {value : Text} (plain : doubleQuote ∉ value) :
    Decodes (equalsValue name) ('=' :: doubleQuote :: (value ++ [doubleQuote])) (name, value) := by
  intro rest
  have text : parseText .parsingAttribute [doubleQuote] (value ++ doubleQuote :: rest) =
      .ok (value, rest) := by
    unfold parseText
    rw [findEndTag_char rest plain]
  unfold equalsValue
  simp only [List.cons_append, List.append_assoc, List.nil_append]
  rw [bind_ok (skipWhiteSpace_visible _ rfl), bind_ok (takeChar_cons _ _), if_pos rfl,
    bind_ok (skipWhiteSpace_visible _ rfl), bind_ok (takeChar_cons _ _)]
  unfold quotedValue
  rw [if_pos (.inl rfl), bind_ok text]
  rfl

def attributeText (attrib : Text × Text) : Text :=
  attrib.1 ++ '=' :: doubleQuote :: (attrib.2 ++ [doubleQuote])

def attributesText (attributes : Attributes) : Text :=
  attributes.flatMap fun attrib => ' ' :: attributeText attrib

/-- A name and a value that can stand between quotes. -/
structure PlainAttribute (attrib : Text × Text) : Prop where
  named : isName attrib.1 = true
  plain : doubleQuote ∉ attrib.2

theorem parseAttribute_decodes {attrib : Text × Text} (plain : PlainAttribute attrib) :
    Decodes parseAttribute (attributeText attrib) attrib :=
  (parseName_before _ plain.named).closed (equalsValue_decodes _ plain.plain) fun _ => rfl

theorem attributeText_start {attrib : Text × Text} (plain : PlainAttribute attrib) (rest : Text) :
    ∃ c more, attributeText attrib ++ rest = c :: more ∧ isNameStartChar c = true := by
  obtain ⟨name, value⟩ := attrib
  cases name with
  | nil => cases plain.named
  | cons c more => exact ⟨c, _, rfl, ((Bool.and_eq_true _ _).mp plain.named).1⟩

theorem attributeTurn_attribute {attrib : Text × Text} (state : Attributes × Bool)
    (plain : PlainAttribute attrib) (fresh : ∀ other ∈ state.1, other.1 ≠ attrib.1) :
    Decodes (attributeTurn state) (' ' :: attributeText attrib)
      (.again (state.1 ++ [attrib], false)) := by
  intro rest
  have reads := parseAttribute_decodes plain rest
  obtain ⟨c, more, first, start⟩ := attributeText_start plain rest
  have blank : skipWhiteSpace (' ' :: c :: more) = .ok ((), c :: more) :=
    skipWhiteSpace_visible more (visible_of_isNameStartChar start)
  have single : ¬ (state.1.any fun other => other.1 = attrib.1) = true := by
    intro found
    obtain ⟨other, member, same⟩ := List.any_eq_true.mp found
    exact fresh other member (of_decide_eq_true same)
  rw [first] at reads
  rw [List.cons_append, first]
  unfold attributeTurn
  rw [bind_ok blank, attributeOrEnd_cons, if_pos start]
  unfold readAttribute
  rw [bind_ok reads, if_neg single]
  rfl

def tagEnd : Bool → Text
  | true => ['/', '>']
  | false => ['>']

theorem attributeTurn_end (state : Attributes × Bool) (closed : Bool) :
    Decodes (attributeTurn state) (tagEnd closed) (.done (state.1, closed)) := by
  intro rest
  cases closed with
  | true => rfl
  | false => rfl

theorem attributes_decode {attributes : Attributes} (state : Attributes × Bool) (closed : Bool)
    (plain : ∀ attrib ∈ attributes, PlainAttribute attrib)
    (fresh : ((state.1 ++ attributes).map Prod.fst).Nodup) :
    Decodes (Decoder.loop .parsingElement attributeTurn state)
      (attributesText attributes ++ tagEnd closed) (state.1 ++ attributes, closed) := by
  induction attributes generalizing state with
  | nil =>
      rw [List.append_nil]
      exact Decodes.loop_break attributeTurn_advances (attributeTurn_end state closed)
  | cons attrib attributes ih =>
      have first : ∀ other ∈ state.1, other.1 ≠ attrib.1 := by
        intro other member same
        rw [List.map_append, List.nodup_append] at fresh
        exact fresh.2.2 _ (List.mem_map_of_mem member) _ (List.mem_map_of_mem List.mem_cons_self)
          same
      have split : state.1 ++ attrib :: attributes = (state.1 ++ [attrib]) ++ attributes := by
        rw [List.append_assoc, List.singleton_append]
      rw [split] at fresh ⊢
      have later := ih (state.1 ++ [attrib], false)
        (fun other member => plain other (List.mem_cons_of_mem _ member)) fresh
      have turn := attributeTurn_attribute state (plain attrib List.mem_cons_self) first
      have text : attributesText (attrib :: attributes) ++ tagEnd closed =
          (' ' :: attributeText attrib) ++ (attributesText attributes ++ tagEnd closed) := by
        unfold attributesText
        rw [List.flatMap_cons, List.append_assoc]
      rw [text]
      exact Decodes.loop attributeTurn_advances turn later

end Attributes

section Tag

/-- What can be written as a tag. -/
structure PlainTag (name : Text) (attributes : Attributes) : Prop where
  named : isName name = true
  plain : ∀ attrib ∈ attributes, PlainAttribute attrib
  fresh : (attributes.map Prod.fst).Nodup

def tagText (name : Text) (attributes : Attributes) (closed : Bool) : Text :=
  name ++ (attributesText attributes ++ tagEnd closed)

def endType : Bool → ClosingType
  | true => .closed
  | false => .opened

def closingText (name : Text) : Text := '<' :: '/' :: (name ++ ['>'])

variable {name : Text} {attributes : Attributes}

theorem tagText_start (named : isName name = true) (attributes : Attributes) (closed : Bool)
    (rest : Text) :
    ∃ c more, tagText name attributes closed ++ rest = c :: more ∧ isNameStartChar c = true := by
  cases name with
  | nil => cases named
  | cons c more => exact ⟨c, _, rfl, ((Bool.and_eq_true _ _).mp named).1⟩

theorem afterName_attributes (attributes : Attributes) (closed : Bool) (rest : Text) :
    AfterName (attributesText attributes ++ tagEnd closed ++ rest) := by
  cases attributes with
  | cons attrib attributes => rfl
  | nil =>
      cases closed with
      | true => rfl
      | false => rfl

theorem parseTag_decodes (plain : PlainTag name attributes) (closed : Bool) :
    Decodes parseTag (tagText name attributes closed) ⟨name, attributes, endType closed⟩ := by
  intro rest
  obtain ⟨c, more, first, start⟩ := tagText_start plain.named attributes closed rest
  have other : c ≠ '/' := by
    rintro rfl
    cases start
  have named : DecodesBefore AfterName (tagName c) name name := by
    unfold tagName
    rw [if_neg other]
    exact parseName_before _ plain.named
  have follows : Decodes (parseAttributes >>= fun read => Pure.pure
      (⟨name, read.1, if read.2 then .closed else if c = '/' then .closing else .opened⟩ : Tag))
      (attributesText attributes ++ tagEnd closed) ⟨name, attributes, endType closed⟩ := by
    intro rest
    have all : Decodes parseAttributes (attributesText attributes ++ tagEnd closed)
        (attributes, closed) := attributes_decode ([], false) closed plain.plain plain.fresh
    rw [bind_ok (all rest)]
    cases closed with
    | true => rfl
    | false =>
        dsimp only
        rw [if_neg (by decide), if_neg other]
        rfl
  have reads : Decodes (nameAndAttributes c) (tagText name attributes closed)
      ⟨name, attributes, endType closed⟩ :=
    named.closed follows (afterName_attributes attributes closed)
  have whole := reads rest
  rw [first] at whole ⊢
  unfold parseTag
  rw [bind_ok (skipWhiteSpace_visible more (visible_of_isNameStartChar start)),
    bind_ok (peek_cons c more), whole]

theorem parseTag_closing (named : isName name = true) :
    Decodes parseTag ('/' :: (name ++ ['>'])) ⟨name, [], .closing⟩ := by
  intro rest
  have slash : DecodesBefore AfterName (tagName '/') ('/' :: name) name := by
    intro rest after
    exact parseName_before _ named rest after
  have all : Decodes parseAttributes (attributesText [] ++ tagEnd false) ([], false) :=
    attributes_decode ([], false) false (fun _ member => absurd member List.not_mem_nil)
      List.nodup_nil
  have follows : Decodes (parseAttributes >>= fun read => Pure.pure
      (⟨name, read.1, if read.2 then .closed else if '/' = '/' then .closing else .opened⟩ : Tag))
      ['>'] ⟨name, [], .closing⟩ := all.bind_pure _
  have reads : Decodes (nameAndAttributes '/') ('/' :: (name ++ ['>'])) ⟨name, [], .closing⟩ :=
    slash.closed follows fun _ => rfl
  unfold parseTag
  rw [List.cons_append, bind_ok (skipWhiteSpace_visible _ rfl), bind_ok (peek_cons _ _)]
  exact reads rest

end Tag

section Turn

theorem identify_element {c : Char} (p : Text) (header : c ≠ '?') (comment : c ≠ '!') :
    identify ('<' :: c :: p) = .ok (some .element, c :: p) := by
  have found : (headers.find? fun header => header.1.isPrefixOf ('<' :: c :: p)) =
      some (['<'], .element) := by
    have first : ('?' == c) = false := beq_false_of_ne header.symm
    have second : ('!' == c) = false := beq_false_of_ne comment.symm
    simp [headers, List.find?, List.isPrefixOf, first, second]
  have blanks : ('<' :: c :: p).dropWhile isWhiteSpace = '<' :: c :: p :=
    List.dropWhile_cons_of_neg (by decide)
  unfold identify
  dsimp only
  rw [blanks, if_neg (List.cons_ne_nil _ _), found]
  rfl

theorem identify_tag {name : Text} {attributes : Attributes} (named : isName name = true)
    (closed : Bool) (rest : Text) :
    identify ('<' :: (tagText name attributes closed ++ rest)) =
      .ok (some .element, tagText name attributes closed ++ rest) := by
  obtain ⟨c, more, first, start⟩ := tagText_start named attributes closed rest
  rw [first]
  refine identify_element more ?_ ?_
  · rintro rfl
    cases start
  · rintro rfl
    cases start

theorem placeNode_element (isDocument : Bool) (state : Level) (name : Text)
    (attributes : Attributes) (children : List XMLNode) (p : Text) :
    placeNode isDocument state (.element name attributes .opened children) (some name) p =
      .ok (.again { state with children := state.children ++
        [.element name attributes .opened children] }, p) := by
  have fits : ¬ mismatch name .opened (some name) = true := by simp [mismatch]
  unfold placeNode
  dsimp only
  rw [if_neg (by decide), if_neg fits]
  rfl

/-- The loop of `XMLNode::ParseDeep`. -/
def runNodes (depth : Nat) (isDocument : Bool) : Level → XMLReader Level :=
  Decoder.loop .parsing (nodeTurn (parseLevel depth false) isDocument)

variable {depth : Nat} {isDocument : Bool} {state : Level} {p rest : Text}

theorem runNodes_again {next : Level} (turn : nodeTurn (parseLevel depth false) isDocument state p =
    .ok (.again next, rest)) :
    runNodes depth isDocument state p = runNodes depth isDocument next rest := by
  unfold runNodes
  rw [Decoder.loop_eq (nodeTurn_advances (parseLevel_shrinks depth false)), bind_ok turn]

theorem runNodes_done {last : Level} (turn : nodeTurn (parseLevel depth false) isDocument state p =
    .ok (.done last, rest)) : runNodes depth isDocument state p = .ok (last, rest) := by
  unfold runNodes
  rw [Decoder.loop_eq (nodeTurn_advances (parseLevel_shrinks depth false)), bind_ok turn]
  rfl

theorem nodeTurn_of_parseDeep {level : XMLReader Level} {left : Text} {header : Header}
    {parsed : XMLNode × Option Text} {ended : Turn Level}
    (identified : identify p = .ok (some header, left))
    (deep : parseDeep level header left = .ok (parsed, rest))
    (placed : placeNode isDocument state parsed.1 parsed.2 rest = .ok (ended, rest)) :
    nodeTurn level isDocument state p = .ok (ended, rest) := by
  unfold nodeTurn
  rw [bind_ok identified]
  dsimp only
  rw [bind_ok deep]
  exact placed

end Turn

section Written

def commentEnd : Text := ['-', '-', '>']

def declarationEnd : Text := ['?', '>']

/-- What stands in an element or a document, and the nodes that it stands for. -/
inductive Written : Text → List XMLNode → Prop
  | nil : Written [] []
  | blank {c : Char} {text : Text} {nodes : List XMLNode} (white : isWhiteSpace c = true)
      (more : Written text nodes) : Written (c :: text) nodes
  | comment {value text : Text} {nodes : List XMLNode}
      (plain : findEndTag commentEnd (value ++ commentEnd) = some (value, []))
      (more : Written text nodes) :
      Written ('<' :: '!' :: '-' :: '-' :: (value ++ commentEnd ++ text)) (.comment value :: nodes)
  | empty {name text : Text} {attributes : Attributes} {nodes : List XMLNode}
      (plain : PlainTag name attributes) (more : Written text nodes) :
      Written ('<' :: (tagText name attributes true ++ text))
        (.element name attributes .closed [] :: nodes)
  | element {name inner text : Text} {attributes : Attributes} {children nodes : List XMLNode}
      (plain : PlainTag name attributes) (inside : Written inner children)
      (more : Written text nodes) :
      Written ('<' :: (tagText name attributes false ++ (inner ++ (closingText name ++ text))))
        (.element name attributes .opened children :: nodes)

/-- Nothing, or what is not a text. -/
def Opens (p : Text) : Prop := p = [] ∨ p.head? = some '<'

variable {depth : Nat} {isDocument : Bool} {state : Level} {text tail p rest : Text}
variable {nodes : List XMLNode}

theorem Written.opens (written : Written text nodes) (opens : Opens tail) :
    Opens ((text ++ tail).dropWhile isWhiteSpace) := by
  induction written with
  | nil =>
      cases tail with
      | nil => exact .inl rfl
      | cons c tail =>
          rcases opens with empty | bracket
          · cases empty
          · injection bracket with same
            subst same
            exact .inr rfl
  | blank white more ih =>
      rw [List.cons_append, List.dropWhile_cons_of_pos white]
      exact ih
  | comment plain more ih => exact .inr rfl
  | empty plain more ih => exact .inr rfl
  | element plain inside more _ ih => exact .inr rfl

theorem identify_blank {c : Char} (white : isWhiteSpace c = true)
    (opens : Opens (p.dropWhile isWhiteSpace)) : identify (c :: p) = identify p := by
  unfold identify
  dsimp only
  rw [List.dropWhile_cons_of_pos white]
  rcases opens with empty | bracket
  · rw [if_pos empty, if_pos empty]
  · cases found : headers.find? fun header => header.1.isPrefixOf (p.dropWhile isWhiteSpace) with
    | some header => rfl
    | none =>
        have refused := List.find?_eq_none.mp found (['<'], .element) (by decide)
        cases blanks : p.dropWhile isWhiteSpace with
        | nil =>
            rw [blanks] at bracket
            cases bracket
        | cons d more =>
            rw [blanks] at bracket refused
            injection bracket with same
            subst same
            exact absurd rfl refused

theorem runNodes_blank {c : Char} (white : isWhiteSpace c = true)
    (opens : Opens (p.dropWhile isWhiteSpace)) :
    runNodes depth isDocument state (c :: p) = runNodes depth isDocument state p := by
  have same : nodeTurn (parseLevel depth false) isDocument state (c :: p) =
      nodeTurn (parseLevel depth false) isDocument state p := by
    unfold nodeTurn
    rw [bind_run, bind_run, identify_blank white opens]
  unfold runNodes
  rw [Decoder.loop_eq (nodeTurn_advances (parseLevel_shrinks depth false)), bind_run, bind_run, same]

theorem runNodes_node {node : XMLNode}
    (turn : nodeTurn (parseLevel depth false) isDocument state p =
      .ok (.again { state with children := state.children ++ [node] }, rest))
    (later : runNodes depth isDocument { state with children := state.children ++ [node] } rest =
      runNodes depth isDocument { state with children := state.children ++ [node] ++ nodes } tail) :
    runNodes depth isDocument state p =
      runNodes depth isDocument { state with children := state.children ++ node :: nodes } tail := by
  rw [runNodes_again turn, later, List.append_assoc, List.singleton_append]

theorem parseText_decodes (error : XMLError) {value endTag : Text}
    (plain : findEndTag endTag (value ++ endTag) = some (value, [])) :
    Decodes (parseText error endTag) (value ++ endTag) value := by
  intro rest
  unfold parseText
  rw [findEndTag_append rest plain]
  rfl

theorem parseElement_closing {level : XMLReader Level} {name : Text} (named : isName name = true) :
    Decodes (parseElement level) ('/' :: (name ++ ['>'])) (.element name [] .closing [], none) := by
  intro rest
  unfold parseElement
  have other : ClosingType.closing ≠ .opened := by decide
  rw [bind_ok (parseTag_closing named rest)]
  unfold parseChildren
  rw [if_pos (.inr other)]

theorem parseElement_empty {level : XMLReader Level} {name : Text} {attributes : Attributes}
    (plain : PlainTag name attributes) :
    Decodes (parseElement level) (tagText name attributes true)
      (.element name attributes .closed [], none) := by
  intro rest
  unfold parseElement
  have other : endType true ≠ .opened := by decide
  rw [bind_ok (parseTag_decodes plain true rest)]
  unfold parseChildren
  rw [if_pos (.inr other)]
  rfl

theorem parseElement_element {level : XMLReader Level} {name inner : Text}
    {attributes : Attributes} {children : List XMLNode} (plain : PlainTag name attributes)
    (some_left : inner ≠ []) (reads : level inner = .ok (⟨children, some name⟩, rest)) :
    parseElement level (tagText name attributes false ++ inner) =
      .ok ((.element name attributes .opened children, some name), rest) := by
  have going : ¬ (inner = [] ∨ endType false ≠ .opened) := by
    rintro (empty | other)
    · exact some_left empty
    · exact other rfl
  unfold parseElement
  rw [bind_ok (parseTag_decodes plain false inner)]
  unfold parseChildren
  rw [if_neg going, bind_ok reads]
  rfl

/-- In front of anything but a text, what is written adds its nodes. -/
theorem Written.run (written : Written text nodes) (fits : text.length ≤ depth)
    (opens : Opens tail) :
    runNodes depth isDocument state (text ++ tail) =
      runNodes depth isDocument { state with children := state.children ++ nodes } tail := by
  induction written generalizing depth isDocument state tail with
  | nil => rw [List.append_nil, List.nil_append]
  | blank white more ih =>
      rw [List.length_cons] at fits
      rw [List.cons_append, runNodes_blank white (more.opens opens)]
      exact ih (by omega) opens
  | @comment value text nodes plain more ih =>
      have deep := ((parseText_decodes .parsingComment plain).bind_pure fun value =>
        (XMLNode.comment value, (none : Option Text))) (text ++ tail)
      have turn : nodeTurn (parseLevel depth false) isDocument state
          ('<' :: '!' :: '-' :: '-' :: (value ++ commentEnd ++ (text ++ tail))) =
          .ok (.again { state with children := state.children ++ [.comment value] }, text ++ tail) :=
        nodeTurn_of_parseDeep rfl deep rfl
      simp only [List.length_cons, List.length_append] at fits
      simp only [List.cons_append, List.append_assoc] at turn ⊢
      exact runNodes_node turn (ih (by omega) opens)
  | @empty name text attributes nodes plain more ih =>
      have turn : nodeTurn (parseLevel depth false) isDocument state
          ('<' :: (tagText name attributes true ++ (text ++ tail))) =
          .ok (.again { state with children := state.children ++
            [.element name attributes .closed []] }, text ++ tail) :=
        nodeTurn_of_parseDeep (identify_tag plain.named true _) (parseElement_empty plain _) rfl
      simp only [List.length_cons, List.length_append] at fits
      rw [List.cons_append, List.append_assoc]
      exact runNodes_node turn (ih (by omega) opens)
  | @element name inner text attributes children nodes plain inside more insideRun ih =>
      simp only [List.length_cons, List.length_append] at fits
      obtain ⟨below, rfl⟩ : ∃ below, depth = below + 1 := ⟨depth - 1, by omega⟩
      have closing : nodeTurn (parseLevel below false) false ⟨children, none⟩
          (closingText name ++ (text ++ tail)) = .ok (.done ⟨children, some name⟩, text ++ tail) :=
        nodeTurn_of_parseDeep (identify_element _ (by decide) (by decide))
          (parseElement_closing plain.named _) rfl
      have run : runNodes below false ⟨[], none⟩ (inner ++ (closingText name ++ (text ++ tail))) =
          runNodes below false ⟨children, none⟩ (closingText name ++ (text ++ tail)) :=
        insideRun (by omega) (.inr rfl)
      have level : parseLevel (below + 1) false (inner ++ (closingText name ++ (text ++ tail))) =
          .ok (⟨children, some name⟩, text ++ tail) := run.trans (runNodes_done closing)
      have deep := parseElement_element plain
        (List.append_ne_nil_of_right_ne_nil inner (List.cons_ne_nil _ _)) level
      have turn : nodeTurn (parseLevel (below + 1) false) isDocument state
          ('<' :: (tagText name attributes false ++
            (inner ++ (closingText name ++ (text ++ tail))))) =
          .ok (.again { state with children := state.children ++
            [.element name attributes .opened children] }, text ++ tail) :=
        nodeTurn_of_parseDeep (identify_tag plain.named false _) deep (placeNode_element ..)
      simp only [List.cons_append, List.append_assoc] at turn ⊢
      exact runNodes_node turn (ih (by omega) opens)

/-- A document: declarations and blanks, and then what is written. -/
inductive Document : Text → List XMLNode → Prop
  | content {text : Text} {nodes : List XMLNode} (written : Written text nodes) :
      Document text nodes
  | blank {c : Char} {text : Text} {nodes : List XMLNode} (white : isWhiteSpace c = true)
      (more : Document text nodes) : Document (c :: text) nodes
  | declaration {value text : Text} {nodes : List XMLNode}
      (plain : findEndTag declarationEnd (value ++ declarationEnd) = some (value, []))
      (more : Document text nodes) :
      Document ('<' :: '?' :: (value ++ declarationEnd ++ text)) (.declaration value :: nodes)

theorem Document.opens (document : Document text nodes) :
    Opens (text.dropWhile isWhiteSpace) := by
  induction document with
  | @content text nodes written =>
      have opens : Opens ((text ++ []).dropWhile isWhiteSpace) := written.opens (.inl rfl)
      rwa [List.append_nil] at opens
  | blank white more ih =>
      rw [List.dropWhile_cons_of_pos white]
      exact ih
  | declaration plain more ih => exact .inr rfl

theorem Document.run (document : Document text nodes) (fits : text.length ≤ depth)
    (declarations : state.children.all isDeclaration = true) :
    runNodes depth true state text =
      .ok ({ state with children := state.children ++ nodes }, []) := by
  induction document generalizing state with
  | content written =>
      have run : runNodes depth true state (_ ++ []) =
          runNodes depth true { state with children := state.children ++ _ } [] :=
        written.run fits (.inl rfl)
      rw [List.append_nil] at run
      rw [run]
      exact runNodes_done rfl
  | blank white more ih =>
      rw [List.length_cons] at fits
      rw [runNodes_blank white more.opens]
      exact ih (by omega) declarations
  | @declaration value text nodes plain more ih =>
      have deep := ((parseText_decodes .parsingDeclaration plain).bind_pure fun value =>
        (XMLNode.declaration value, (none : Option Text))) text
      have placed : placeNode true state (.declaration value) none text =
          .ok (.again { state with children := state.children ++ [.declaration value] }, text) := by
        unfold placeNode
        dsimp only
        rw [if_pos (by rw [declarations]; rfl)]
        rfl
      have turn : nodeTurn (parseLevel depth false) true state
          ('<' :: '?' :: (value ++ declarationEnd ++ text)) =
          .ok (.again { state with children := state.children ++ [.declaration value] }, text) :=
        nodeTurn_of_parseDeep rfl deep placed
      simp only [List.length_cons, List.length_append] at fits
      rw [runNodes_again turn, ih (by omega)]
      · rw [List.append_assoc, List.singleton_append]
      · rw [List.all_append, declarations]
        rfl

/-- Every document that is written so is read as the nodes that it stands for. -/
theorem parse_document (document : Document text nodes) (starts : text.head? = some '<')
    (visible : nul ∉ text) : parse text = .ok nodes := by
  have start : documentStart text = text := by
    unfold documentStart
    rw [cString_visible visible]
    cases text with
    | nil => cases starts
    | cons c text =>
        injection starts with same
        subst same
        rfl
  have some_left : text ≠ [] := by
    rintro rfl
    cases starts
  have run : runNodes text.length true ⟨[], none⟩ text = .ok (⟨nodes, none⟩, []) :=
    document.run (Nat.le_refl _) rfl
  have level : parseLevel (text.length + 1) true text = .ok (⟨nodes, none⟩, []) := run
  unfold parse
  dsimp only
  rw [start, if_neg some_left, level]
  rfl

theorem parse_document_nested :
    parse ('<' :: (tagText ['a'] [(['b'], ['c'])] false ++
      (('<' :: (tagText ['d'] [] true ++ [])) ++ (closingText ['a'] ++ [])))) =
      .ok [.element ['a'] [(['b'], ['c'])] .opened [.element ['d'] [] .closed []]] := by
  have outer : PlainTag ['a'] [(['b'], ['c'])] :=
    ⟨by decide, by simpa using ⟨by decide, by decide⟩, by simp⟩
  have inner : PlainTag ['d'] [] := ⟨by decide, by simp, by simp⟩
  exact parse_document (.content (.element outer (.empty inner .nil) .nil)) rfl (by decide)

end Written

end DcCluster.TinyXml2

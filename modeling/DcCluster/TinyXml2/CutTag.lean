import DcCluster.Lib.CutInput
import DcCluster.TinyXml2.Reader
import Mathlib.Data.List.Infix

/-!
A tag that was read from the beginning of a buffer is read in the same way when the buffer
goes on.
-/

namespace DcCluster.TinyXml2

open DcCluster.Lib DcCluster.Mq Decoder

section Runs

variable {holds : Char → Bool} {p more : Text}

theorem dropWhile_append (left : p.dropWhile holds ≠ []) :
    (p ++ more).dropWhile holds = p.dropWhile holds ++ more := by
  rw [List.dropWhile_append, if_neg (by simpa only [List.isEmpty_iff] using left)]

theorem takeWhile_append (left : p.dropWhile holds ≠ []) :
    (p ++ more).takeWhile holds = p.takeWhile holds := by
  induction p with
  | nil => exact absurd rfl left
  | cons c p ih =>
      by_cases test : holds c = true
      · rw [List.cons_append, List.takeWhile_cons_of_pos test, List.takeWhile_cons_of_pos test, ih]
        rwa [List.dropWhile_cons_of_pos test] at left
      · rw [List.cons_append, List.takeWhile_cons_of_neg test, List.takeWhile_cons_of_neg test]

theorem exists_takeWhile_append (holds : Char → Bool) (p more : Text) :
    ∃ following, (p ++ more).takeWhile holds = p.takeWhile holds ++ following := by
  induction p with
  | nil => exact ⟨_, rfl⟩
  | cons c p ih =>
      obtain ⟨following, same⟩ := ih
      by_cases test : holds c = true
      · refine ⟨following, ?_⟩
        rw [List.cons_append, List.takeWhile_cons_of_pos test, List.takeWhile_cons_of_pos test,
          same, List.cons_append]
      · refine ⟨[], ?_⟩
        rw [List.cons_append, List.takeWhile_cons_of_neg test, List.takeWhile_cons_of_neg test,
          List.append_nil]

end Runs

section Pieces

theorem peek_cons (c : Char) (p : Text) : peek (c :: p) = .ok (c, c :: p) := rfl

theorem takeChar_cons (c : Char) (p : Text) : takeChar (c :: p) = .ok (c, p) := rfl

theorem peek_steady : Steady peek := by
  constructor
  · intro p c rest read
    cases read
    exact List.suffix_refl _
  · intro p c rest more read left
    cases read
    cases p with
    | nil => exact absurd rfl left
    | cons c p => rfl

theorem takeChar_steady : Steady takeChar := by
  constructor
  · intro p c rest read
    cases read
    exact List.tail_suffix _
  · intro p c rest more read left
    cases read
    cases p with
    | nil => exact absurd rfl left
    | cons c p => rfl

theorem skipWhiteSpace_steady : Steady skipWhiteSpace := by
  constructor
  · intro p value rest read
    cases read
    exact List.dropWhile_suffix _
  · intro p value rest more read left
    cases read
    unfold skipWhiteSpace
    rw [dropWhile_append left]

theorem parseName_ok {error : XMLError} {p name rest : Text}
    (read : parseName error p = .ok (name, rest)) :
    ∃ c more, p = c :: more ∧ isNameStartChar c = true ∧ name = c :: more.takeWhile isNameChar ∧
      rest = more.dropWhile isNameChar := by
  cases p with
  | nil => cases read
  | cons c more =>
      unfold parseName at read
      dsimp only at read
      split at read
      next start =>
        cases read
        exact ⟨c, more, rfl, start, rfl, rfl⟩
      next => cases read

theorem parseName_steady (error : XMLError) : Steady (parseName error) := by
  constructor
  · intro p name rest read
    obtain ⟨c, more, rfl, start, rfl, rfl⟩ := parseName_ok read
    exact (List.dropWhile_suffix _).trans (List.suffix_cons _ _)
  · intro p name rest more read left
    obtain ⟨c, following, rfl, start, rfl, rfl⟩ := parseName_ok read
    unfold parseName
    simp only [List.cons_append]
    rw [if_pos start, takeWhile_append left, dropWhile_append left]

theorem findEndTag_split {endTag p value rest : Text}
    (found : findEndTag endTag p = some (value, rest)) :
    p = value ++ endTag ++ rest := by
  induction p generalizing value with
  | nil => cases found
  | cons c p ih =>
      unfold findEndTag at found
      split at found
      next here =>
        cases found
        obtain ⟨following, split⟩ := List.isPrefixOf_iff_prefix.mp here
        rw [← split, List.drop_left]
        rfl
      next =>
        obtain ⟨later, step, ends⟩ := Option.map_eq_some_iff.mp found
        cases ends
        rw [ih step]
        rfl

theorem isPrefixOf_append {pattern p more : Text} (long : pattern.length ≤ p.length) :
    pattern.isPrefixOf (p ++ more) = pattern.isPrefixOf p := by
  rw [Bool.eq_iff_iff, List.isPrefixOf_iff_prefix, List.isPrefixOf_iff_prefix]
  constructor
  · intro starts
    exact List.prefix_of_prefix_length_le starts (List.prefix_append p more) long
  · intro starts
    exact starts.trans (List.prefix_append p more)

theorem findEndTag_append {endTag p value rest : Text} (more : Text)
    (found : findEndTag endTag p = some (value, rest)) :
    findEndTag endTag (p ++ more) = some (value, rest ++ more) := by
  induction p generalizing value with
  | nil => cases found
  | cons c p ih =>
      have long : endTag.length ≤ (c :: p).length := by
        rw [findEndTag_split found, List.length_append, List.length_append]
        omega
      have same : endTag.isPrefixOf (c :: (p ++ more)) = endTag.isPrefixOf (c :: p) :=
        isPrefixOf_append long
      unfold findEndTag at found
      rw [List.cons_append, findEndTag, same]
      split at found
      next here =>
        cases found
        rw [if_pos here, ← List.cons_append, List.drop_append_of_le_length long]
      next other =>
        obtain ⟨later, step, ends⟩ := Option.map_eq_some_iff.mp found
        cases ends
        rw [if_neg other, ih step]
        rfl

theorem parseText_ok {error : XMLError} {endTag p value rest : Text}
    (read : parseText error endTag p = .ok (value, rest)) :
    findEndTag endTag p = some (value, rest) := by
  unfold parseText at read
  split at read
  next found same =>
    cases read
    exact same
  next => cases read

theorem parseText_closed (error : XMLError) (endTag : Text) : Closed (parseText error endTag) := by
  constructor
  · intro p value rest read
    rw [findEndTag_split (parseText_ok read)]
    exact List.suffix_append _ _
  · intro p value rest more read
    unfold parseText
    rw [findEndTag_append more (parseText_ok read)]

end Pieces

section Attributes

theorem quotedValue_closed (name : Text) (quote : Char) : Closed (quotedValue name quote) :=
  ((parseText_closed _ _).bind fun _ => Closed.pure _).ite (Closed.fail _)

theorem quotedValue_hungry (name : Text) (quote : Char) : Hungry (quotedValue name quote) := by
  unfold quotedValue
  split
  · exact Hungry.of_error rfl
  · exact Hungry.of_error rfl

theorem equalsValue_closed (name : Text) : Closed (equalsValue name) := by
  refine skipWhiteSpace_steady.closed (fun _ => ?_) fun _ => ?_
  · refine takeChar_steady.closed (fun equals => ?_) fun equals => ?_
    · refine Closed.ite ?_ (Closed.fail _)
      refine skipWhiteSpace_steady.closed (fun _ => ?_) fun _ => ?_
      · exact takeChar_steady.closed (quotedValue_closed name) (quotedValue_hungry name)
      · exact Hungry.of_error rfl
    · split
      · exact Hungry.of_error rfl
      · exact Hungry.of_error rfl
  · exact Hungry.of_error rfl

theorem parseAttribute_closed : Closed parseAttribute :=
  (parseName_steady _).closed equalsValue_closed fun _ => Hungry.of_error rfl

theorem readAttribute_closed (attributes : Attributes) : Closed (readAttribute attributes) :=
  parseAttribute_closed.bind fun _ => (Closed.fail _).ite (Closed.pure _)

theorem attributeOrEnd_hungry (attributes : Attributes) : Hungry (attributeOrEnd attributes) :=
  Hungry.of_error rfl

/-- What the reader does at a character, with all that follows it. -/
theorem attributeOrEnd_cons (attributes : Attributes) (c : Char) (p : Text) :
    attributeOrEnd attributes (c :: p) =
      if isNameStartChar c then readAttribute attributes (c :: p) else readEnd attributes c p := by
  unfold attributeOrEnd
  rw [bind_ok (peek_cons c p)]
  split
  · rfl
  · rfl

theorem readEnd_closed (attributes : Attributes) (c : Char) : Closed (readEnd attributes c) := by
  refine (Closed.pure _).ite (Closed.ite ?_ (Closed.fail _))
  constructor
  · intro p ended rest read
    cases p with
    | nil => cases read
    | cons next p =>
        rw [bind_ok (takeChar_cons next p)] at read
        split at read
        · cases read
          exact List.suffix_cons _ _
        · cases read
  · intro p ended rest more read
    cases p with
    | nil => cases read
    | cons next p =>
        rw [bind_ok (takeChar_cons next p)] at read
        rw [List.cons_append, bind_ok (takeChar_cons next _)]
        split at read
        next same =>
          cases read
          rw [if_pos same]
          rfl
        next => cases read

theorem attributeOrEnd_closed (attributes : Attributes) : Closed (attributeOrEnd attributes) := by
  constructor
  · intro p ended rest read
    cases p with
    | nil => exact absurd read (attributeOrEnd_hungry attributes _)
    | cons c p =>
        rw [attributeOrEnd_cons] at read
        split at read
        · exact (readAttribute_closed attributes).suffix _ _ _ read
        · exact ((readEnd_closed attributes c).suffix _ _ _ read).trans (List.suffix_cons _ _)
  · intro p ended rest more read
    cases p with
    | nil => exact absurd read (attributeOrEnd_hungry attributes _)
    | cons c p =>
        rw [attributeOrEnd_cons] at read
        rw [List.cons_append, attributeOrEnd_cons]
        split at read
        next start =>
          rw [if_pos start]
          exact (readAttribute_closed attributes).goes _ _ _ more read
        next other =>
          rw [if_neg other]
          exact (readEnd_closed attributes c).goes _ _ _ more read

theorem attributeTurn_closed (state : Attributes × Bool) : Closed (attributeTurn state) :=
  skipWhiteSpace_steady.closed (fun _ => attributeOrEnd_closed _) fun _ => attributeOrEnd_hungry _

theorem parseAttribute_length {p rest : Text} {attrib : Text × Text}
    (read : parseAttribute p = .ok (attrib, rest)) : rest.length < p.length := by
  obtain ⟨name, left, named, follows⟩ := of_bind_ok read
  obtain ⟨c, more, rfl, start, rfl, rfl⟩ := parseName_ok named
  have shorter := ((equalsValue_closed _).suffix _ _ _ follows).length_le
  have fewer := (List.dropWhile_suffix isNameChar (l := more)).length_le
  rw [List.length_cons]
  omega

theorem readEnd_done {attributes : Attributes} {c : Char} {p rest : Text}
    {ended : Turn (Attributes × Bool)} (read : readEnd attributes c p = .ok (ended, rest)) :
    (∃ last, ended = .done last) ∧ '>' ∈ c :: p := by
  unfold readEnd at read
  split at read
  next same =>
    cases read
    exact ⟨⟨_, rfl⟩, List.mem_cons.mpr (.inl same.symm)⟩
  next =>
    split at read
    next =>
      obtain ⟨next, left, taken, follows⟩ := of_bind_ok read
      split at follows
      next same =>
        cases follows
        cases taken
        refine ⟨⟨_, rfl⟩, List.mem_cons_of_mem _ ?_⟩
        cases p with
        | nil => exact absurd same (by decide)
        | cons d p => exact List.mem_cons.mpr (.inl same.symm)
      next => cases follows
    next => cases read

theorem attributeTurn_advances : Advances attributeTurn := by
  intro state p next rest read
  obtain ⟨_, left, skipped, follows⟩ := of_bind_ok read
  have shorter := (skipWhiteSpace_steady.suffix _ _ _ skipped).length_le
  cases left with
  | nil => exact absurd follows (attributeOrEnd_hungry _ _)
  | cons c more =>
      rw [attributeOrEnd_cons] at follows
      split at follows
      · obtain ⟨attrib, after, first, last⟩ := of_bind_ok follows
        have taken := parseAttribute_length first
        split at last
        · cases last
        · cases last
          omega
      · obtain ⟨last, ended⟩ := (readEnd_done follows).1
        cases ended

theorem parseAttributes_closed : Closed parseAttributes :=
  Closed.loop attributeTurn_advances attributeTurn_closed _

theorem attributeTurn_mem {state last : Attributes × Bool} {p rest : Text}
    (read : attributeTurn state p = .ok (.done last, rest)) : '>' ∈ p := by
  obtain ⟨_, left, skipped, follows⟩ := of_bind_ok read
  have kept := (skipWhiteSpace_steady.suffix _ _ _ skipped).subset
  cases left with
  | nil => exact absurd follows (attributeOrEnd_hungry _ _)
  | cons c more =>
      rw [attributeOrEnd_cons] at follows
      split at follows
      · obtain ⟨attrib, after, first, last⟩ := of_bind_ok follows
        split at last
        · cases last
        · cases last
      · exact kept (readEnd_done follows).2

theorem parseAttributes_mem {p rest : Text} {attributes : Attributes × Bool}
    (read : parseAttributes p = .ok (attributes, rest)) : '>' ∈ p := by
  refine Decoder.loop_induction (motive := fun _ p _ _ => '>' ∈ p) ?_ ?_ read
  · intro state p last rest ended
    exact attributeTurn_mem ended
  · intro state p next left last rest again later
    exact ((attributeTurn_closed state).suffix _ _ _ again).subset later

end Attributes

section Tag

theorem tagName_steady (c : Char) : Steady (tagName c) :=
  (takeChar_steady.bind fun _ => parseName_steady _).ite (parseName_steady _)

theorem nameAndAttributes_closed (c : Char) : Closed (nameAndAttributes c) :=
  (tagName_steady c).closed (fun _ => parseAttributes_closed.bind fun _ => Closed.pure _)
    fun _ => Hungry.of_error rfl

theorem nameAndAttributes_hungry (c : Char) : Hungry (nameAndAttributes c) := by
  have failed : tagName c [] = .error .parsing := by
    unfold tagName
    split
    · rfl
    · rfl
  exact Hungry.of_error (bind_error failed)

theorem parseTag_closed : Closed parseTag :=
  skipWhiteSpace_steady.closed
    (fun _ => peek_steady.closed nameAndAttributes_closed nameAndAttributes_hungry)
    fun _ => Hungry.of_error rfl

theorem parseTag_mem {p rest : Text} {tag : Tag} (read : parseTag p = .ok (tag, rest)) :
    '>' ∈ p := by
  obtain ⟨_, left, skipped, follows⟩ := of_bind_ok read
  obtain ⟨c, after, peeked, named⟩ := of_bind_ok follows
  obtain ⟨name, later, first, attributes⟩ := of_bind_ok named
  obtain ⟨read, last, all, _⟩ := of_bind_ok attributes
  exact (((tagName_steady c).suffix _ _ _ first).trans ((peek_steady.suffix _ _ _ peeked).trans
    (skipWhiteSpace_steady.suffix _ _ _ skipped))).subset (parseAttributes_mem all)

end Tag

end DcCluster.TinyXml2

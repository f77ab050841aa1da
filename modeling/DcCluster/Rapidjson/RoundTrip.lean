import DcCluster.Rapidjson.Writer
import DcCluster.Server.Payload

/-!
What a `Writer` puts is read back by `Parse` as the tree that its calls walk through.
-/

namespace DcCluster.Rapidjson

open DcCluster.Lib DcCluster.Mq DcCluster.Server

theorem control_hex : ∀ n, n < 32 → HexText ['0', '0', hexDigitsUpper.getD (n / 16) '0',
    hexDigitsUpper.getD (n % 16) '0'] n := by
  unfold HexText
  decide

theorem control_not_lead : ∀ n, n < 32 → isLeadSurrogate n = false := by decide

theorem encode_ascii (c : Char) (ascii : c.toNat ≤ 0x7F) : encode c.toNat = [c] := by
  rw [encode, if_pos ascii, Char.ofNat_toNat]

/-- Every character is escaped so that the reader gets it back. -/
theorem writeChar_reads (c : Char) : CharText (writeChar c) [c] := by
  by_cases backspace : c = Char.ofNat 8
  · subst backspace
    exact CharText.short 'b' _ rfl
  by_cases tab : c = '\t'
  · subst tab
    exact CharText.short 't' _ rfl
  by_cases newline : c = '\n'
  · subst newline
    exact CharText.short 'n' _ rfl
  by_cases formFeed : c = Char.ofNat 12
  · subst formFeed
    exact CharText.short 'f' _ rfl
  by_cases carriageReturn : c = '\r'
  · subst carriageReturn
    exact CharText.short 'r' _ rfl
  by_cases control : c.toNat < 0x20
  · have unicode := CharText.unicode _ _ (control_hex c.toNat control)
      (control_not_lead c.toNat control)
    rw [encode_ascii c (by omega)] at unicode
    have escaped : escapeOf c = some 'u' := by
      simp only [escapeOf, backspace, tab, newline, formFeed, carriageReturn, control, ↓reduceIte]
    unfold writeChar
    rw [escaped]
    exact unicode
  by_cases quote : c = '"'
  · subst quote
    exact CharText.short '"' _ rfl
  by_cases backslash : c = '\\'
  · subst backslash
    exact CharText.short '\\' _ rfl
  have escaped : escapeOf c = none := by
    simp only [escapeOf, backspace, tab, newline, formFeed, carriageReturn, control, quote,
      backslash, ↓reduceIte]
  unfold writeChar
  rw [escaped]
  exact CharText.plain c (by omega) quote backslash

theorem writeString_reads (str : Text) : StringText (writeString str) str := by
  refine ⟨str.flatMap writeChar, rfl, ?_⟩
  induction str with
  | nil => exact CharsText.nil
  | cons c more ih => exact CharsText.cons (writeChar_reads c) ih

theorem blanks_nil : Blanks [] := fun _ member => absurd member List.not_mem_nil

section Trees

variable {tooBig : Text → Bool}

theorem labelText_writeString (name : Text) : LabelText (writeString name ++ [':']) name :=
  ⟨writeString name, [], [], rfl, writeString_reads name, blanks_nil, blanks_nil⟩

mutual

theorem Tree.derives : ∀ tree : Tree,
    (∀ digits, .number digits ∈ tree.calls → NumberText tooBig digits) →
      Derives tooBig (.value tree.json) tree.text
  | .null, _ => Derives.nullLiteral
  | .bool b, _ => by
      cases b with
      | false => exact Derives.falseLiteral
      | true => exact Derives.trueLiteral
  | .number digits, numbers => Derives.number (numbers digits List.mem_cons_self)
  | .string str, _ => Derives.string (writeString_reads str)
  | .array elements, numbers => by
      by_cases empty : elements = []
      · subst empty
        exact Derives.emptyArray blanks_nil
      · exact Derives.array blanks_nil (elements_derives elements (fun digits member =>
          numbers digits (List.mem_cons_of_mem _ (List.mem_append_left _ member))) empty)
  | .object members, numbers => by
      by_cases empty : members = []
      · subst empty
        exact Derives.emptyObject blanks_nil
      · exact Derives.object blanks_nil (members_derives members (fun digits member =>
          numbers digits (List.mem_cons_of_mem _ (List.mem_append_left _ member))) empty)

theorem elements_derives : ∀ elements : List Tree,
    (∀ digits, .number digits ∈ elementCalls elements → NumberText tooBig digits) →
      elements ≠ [] → Derives tooBig (.elements (elementJsons elements))
        (joined (elementTexts elements))
  | [], _, nonempty => absurd rfl nonempty
  | [tree], numbers, _ => by
      have first := tree.derives fun digits member =>
        numbers digits (List.mem_append_left _ member)
      have one := Derives.element first blanks_nil
      rwa [List.append_nil] at one
  | tree :: next :: more, numbers, _ => by
      have first := tree.derives fun digits member =>
        numbers digits (List.mem_append_left _ member)
      have others := elements_derives (next :: more) (fun digits member =>
        numbers digits (List.mem_append_right _ member)) (List.cons_ne_nil _ _)
      exact Derives.elements first blanks_nil blanks_nil others

theorem members_derives : ∀ members : List (Text × Tree),
    (∀ digits, .number digits ∈ memberCalls members → NumberText tooBig digits) →
      members ≠ [] → Derives tooBig (.members (memberJsons members))
        (joined (memberTexts members))
  | [], _, nonempty => absurd rfl nonempty
  | [(name, tree)], numbers, _ => by
      have first := tree.derives fun digits member =>
        numbers digits (List.mem_cons_of_mem _ (List.mem_append_left _ member))
      have one := Derives.member (labelText_writeString name) first blanks_nil
      rw [List.append_nil, List.append_assoc] at one
      exact one
  | (name, tree) :: next :: more, numbers, _ => by
      have first := tree.derives fun digits member =>
        numbers digits (List.mem_cons_of_mem _ (List.mem_append_left _ member))
      have others := members_derives (next :: more) (fun digits member =>
        numbers digits (List.mem_cons_of_mem _ (List.mem_append_right _ member)))
        (List.cons_ne_nil _ _)
      have all := Derives.members (labelText_writeString name) first blanks_nil blanks_nil others
      obtain ⟨second, written⟩ := next
      simp only [List.nil_append, List.append_assoc, List.cons_append] at all
      simp only [memberJsons, memberTexts, joined, List.append_assoc, List.cons_append] at all ⊢
      exact all

end

theorem Tree.parse_text {tree : Tree}
    (numbers : ∀ digits, .number digits ∈ tree.calls → NumberText tooBig digits) :
    parse tooBig tree.text = .ok tree.json := by
  have derived := tree.derives numbers
  rw [parse_eq_ok_iff, (cString_eq_self_iff _).mpr derived.visible]
  exact ⟨[], tree.text, [], (List.append_nil _).symm, blanks_nil, derived, blanks_nil⟩

end Trees

/-- The calls that complete a text without meeting an assertion are the walks through a tree,
and the text is read back as the tree. -/
theorem writer_reads_back (tooBig : Text → Bool) (calls : List Call)
    (numbers : ∀ digits, .number digits ∈ calls → NumberText tooBig digits) :
    ((∃ writer, Lib.run Writer.step {} calls = some writer ∧ writer.isComplete = true) ↔
        ∃ tree : Tree, calls = tree.calls) ∧
      ∀ tree : Tree, calls = tree.calls → ∃ writer, Lib.run Writer.step {} calls = some writer ∧
        writer.isComplete = true ∧ parse tooBig writer.os = .ok tree.json := by
  refine ⟨⟨?_, ?_⟩, ?_⟩
  · rintro ⟨writer, written, complete⟩
    obtain ⟨tree, walk, -⟩ := writes_complete written complete
    exact ⟨tree, walk⟩
  · rintro ⟨tree, rfl⟩
    exact ⟨_, tree.run_fresh, rfl⟩
  · rintro tree rfl
    exact ⟨_, tree.run_fresh, rfl, Tree.parse_text numbers⟩

def nestedTree : Tree :=
  .object [(['a', '"'], .array [.number ['-', '1'], .null]), (['b'], .object [])]

theorem minusOne_isNumber : NumberText noLimit ['-', '1'] :=
  ⟨['-'], ['1'], [], [], rfl, Or.inr rfl,
    Or.inr ⟨'1', [], rfl, by decide, rfl, DigitsText.nil _⟩, Or.inl rfl, Or.inl rfl⟩

theorem writer_reads_back_nested :
    ∃ writer, Lib.run Writer.step {} nestedTree.calls = some writer ∧
      writer.isComplete = true ∧ parse noLimit writer.os = .ok nestedTree.json := by
  refine (writer_reads_back noLimit nestedTree.calls ?_).2 nestedTree rfl
  intro digits isCall
  have isMinusOne : digits = ['-', '1'] := by
    simpa [nestedTree, Tree.calls, elementCalls, memberCalls] using isCall
  rw [isMinusOne]
  exact minusOne_isNumber

end DcCluster.Rapidjson

import DcCluster.Rapidjson.Numbers

/-!
`Parse` accepts exactly the documents of the grammar, and builds what they denote.
-/

namespace DcCluster.Rapidjson

open DcCluster.Lib DcCluster.Mq DcCluster.Server

theorem parseLiteral_ok {more : List Char} (visible : nul ∉ more) {literal value : Json} {c : Char}
    {is rest : Text} (read : parseLiteral more literal (c :: is) = .ok (value, rest)) :
    value = literal ∧ c :: is = c :: more ++ rest := by
  unfold parseLiteral at read
  rw [takeChar_run] at read
  obtain ⟨all, left, consumed, ends⟩ := Decoder.of_bind_ok read
  cases all with
  | false => cases ends
  | true =>
      cases ends
      exact ⟨rfl, congrArg (c :: ·) (consumeAll_ok visible consumed)⟩

theorem parseLiteral_decodes (c : Char) (more : List Char) (literal : Json) :
    Decodes (parseLiteral more literal) (c :: more) literal := by
  intro rest
  unfold parseLiteral
  rw [List.cons_append, takeChar_run, List.tail_cons, consumeAll_run]
  rfl

theorem not_continues_of_blank {c : Char} (blank : isBlank c = true) :
    continuesNumber c = false := by
  simp only [isBlank, Bool.or_eq_true, beq_iff_eq] at blank
  rcases blank with ((rfl | rfl) | rfl) | rfl <;> rfl

theorem ends_blanks {blank rest : Text} (blanks : Blanks blank)
    (ends : Ends continuesNumber rest) : Ends continuesNumber (blank ++ rest) := by
  cases blank with
  | nil => exact ends
  | cons c more => exact not_continues_of_blank (blanks c List.mem_cons_self)

section Values

variable {tooBig : Text → Bool}

/-- The first character of a value is neither blank nor a closing bracket. -/
theorem Derives.value_head {shape : Shape} {text : Text} (derived : Derives tooBig shape text)
    {root : Json} (isValue : shape = .value root) :
    ∃ c more, text = c :: more ∧ isBlank c = false ∧ c ≠ ']' := by
  cases derived with
  | nullLiteral => exact ⟨'n', _, rfl, rfl, by decide⟩
  | trueLiteral => exact ⟨'t', _, rfl, rfl, by decide⟩
  | falseLiteral => exact ⟨'f', _, rfl, rfl, by decide⟩
  | number digits =>
      obtain ⟨c, more, same, starts⟩ := digits.head
      refine ⟨c, more, same, ?_, ?_⟩
      · rcases starts with rfl | digit
        · rfl
        · rw [Bool.eq_false_iff]
          intro blank
          have stops := not_continues_of_blank blank
          simp [continuesNumber, digit] at stops
      · rintro rfl
        rcases starts with minus | digit
        · exact absurd minus (by decide)
        · exact absurd digit (by decide)
  | string quoted =>
      obtain ⟨body, same, -⟩ := quoted
      exact ⟨'"', body ++ ['"'], same, rfl, by decide⟩
  | emptyArray blanks => exact ⟨'[', _, rfl, rfl, by decide⟩
  | array blanks inner => exact ⟨'[', _, rfl, rfl, by decide⟩
  | emptyObject blanks => exact ⟨'\x7b', _, rfl, rfl, by decide⟩
  | object blanks inner => exact ⟨'\x7b', _, rfl, rfl, by decide⟩
  | element first blanks => cases isValue
  | elements first blanks blanks2 others => cases isValue
  | member named first blanks => cases isValue
  | members named first blanks blanks2 others => cases isValue

theorem Derives.elements_head {text : Text} {values : List Json}
    (derived : Derives tooBig (.elements values) text) :
    ∃ c more, text = c :: more ∧ isBlank c = false ∧ c ≠ ']' := by
  cases derived with
  | element first blanks =>
      obtain ⟨c, more, rfl, starts⟩ := first.value_head rfl
      exact ⟨c, _, rfl, starts⟩
  | elements first blanks blanks2 others =>
      obtain ⟨c, more, rfl, starts⟩ := first.value_head rfl
      exact ⟨c, _, rfl, starts⟩

theorem LabelText.head {label name : Text} (named : LabelText label name) :
    ∃ more, label = '"' :: more := by
  obtain ⟨quoted, before, after, rfl, ⟨body, rfl, -⟩, -, -⟩ := named
  exact ⟨_, rfl⟩

theorem Derives.members_head {text : Text} {values : List (Text × Json)}
    (derived : Derives tooBig (.members values) text) : ∃ more, text = '"' :: more := by
  cases derived with
  | member named first blanks =>
      obtain ⟨more, rfl⟩ := named.head
      exact ⟨_, rfl⟩
  | members named first blanks blanks2 others =>
      obtain ⟨more, rfl⟩ := named.head
      exact ⟨_, rfl⟩

/-- Takes values of the grammar and nothing else. -/
def Sound (tooBig : Text → Bool) (value : GenericReader Json) : Prop :=
  ∀ is root rest, value is = .ok (root, rest) →
    ∃ text, is = text ++ rest ∧ Derives tooBig (.value root) text

section Sound

variable {value : GenericReader Json} (sound : Sound tooBig value)

include sound

theorem elementTurn_ok {elements : List Json} {is rest : Text} {ended : Turn (List Json)}
    (read : elementTurn value elements is = .ok (ended, rest)) :
    ∃ element text after, Derives tooBig (.value element) text ∧ Blanks after ∧
      ((ended = .done (elements ++ [element]) ∧ is = text ++ (after ++ ']' :: rest)) ∨
        ∃ before, Blanks before ∧ ended = .again (elements ++ [element]) ∧
          is = text ++ (after ++ ',' :: (before ++ rest))) := by
  obtain ⟨element, left, taken, read⟩ := Decoder.of_bind_ok read
  obtain ⟨text, split, derived⟩ := sound _ _ _ taken
  obtain ⟨after, skipped, blanks⟩ := exists_blanks left
  refine ⟨element, text, after, derived, blanks, ?_⟩
  rw [skipWhitespace_run, consume_run] at read
  split at read
  next comma =>
    cases read
    obtain ⟨before, skipped2, blanks2⟩ := exists_blanks (left.dropWhile isBlank).tail
    refine Or.inr ⟨before, blanks2, rfl, ?_⟩
    rw [← skipped2, ← eq_cons_of_headD comma (by decide), ← skipped]
    exact split
  next =>
    rw [if_neg Bool.false_ne_true, consume_run] at read
    split at read
    next bracket =>
      cases read
      refine Or.inl ⟨rfl, ?_⟩
      rw [← eq_cons_of_headD bracket (by decide), ← skipped]
      exact split
    next => cases read

theorem parseArray_ok {is rest : Text} {root : Json}
    (read : parseArray value ('[' :: is) = .ok (root, rest)) :
    ∃ text, '[' :: is = text ++ rest ∧ Derives tooBig (.value root) text := by
  unfold parseArray at read
  rw [takeChar_run, skipWhitespace_run, consume_run] at read
  obtain ⟨blank, skipped, blanks⟩ := exists_blanks is
  split at read
  next bracket =>
    cases read
    refine ⟨'[' :: (blank ++ [']']), ?_, Derives.emptyArray blanks⟩
    have closes := eq_cons_of_headD bracket (by decide)
    rw [List.cons_append, List.append_assoc, List.cons_append, List.nil_append]
    refine congrArg ('[' :: ·) (skipped.trans (congrArg (blank ++ ·) ?_))
    exact closes
  next =>
    obtain ⟨elements, left, loops, ends⟩ := Decoder.of_bind_ok read
    cases ends
    have body := Decoder.loop_induction (motive := fun before is elements rest =>
      ∃ values body, is = body ++ ']' :: rest ∧ elements = before ++ values ∧
        Derives tooBig (.elements values) body) ?_ ?_ loops
    · obtain ⟨values, body, taken, same, inner⟩ := body
      rw [List.nil_append] at same
      subst same
      refine ⟨'[' :: (blank ++ (body ++ [']'])), ?_, Derives.array blanks inner⟩
      rw [List.cons_append, List.append_assoc, List.append_assoc, List.cons_append,
        List.nil_append]
      exact congrArg ('[' :: ·) (skipped.trans (congrArg (blank ++ ·) taken))
    · intro before is last rest turn
      obtain ⟨element, text, after, derived, blanks, done | again⟩ := elementTurn_ok sound turn
      · obtain ⟨same, split⟩ := done
        cases same
        refine ⟨[element], text ++ after, ?_, rfl, Derives.element derived blanks⟩
        rw [List.append_assoc]
        exact split
      · obtain ⟨_, _, same, _⟩ := again
        cases same
    · intro before is next left last rest turn later
      obtain ⟨element, text, after, derived, blanks, done | again⟩ := elementTurn_ok sound turn
      · cases done.1
      · obtain ⟨gap, blanks2, same, split⟩ := again
        obtain ⟨values, body, taken, whole, inner⟩ := later
        cases same
        refine ⟨element :: values, text ++ (after ++ ',' :: (gap ++ body)), ?_, ?_,
          Derives.elements derived blanks blanks2 inner⟩
        · rw [split, taken]
          simp only [List.append_assoc, List.cons_append]
        · rw [whole, List.append_assoc]
          rfl

theorem memberValue_ok {members : List (Text × Json)} {name is rest : Text}
    {ended : Turn (List (Text × Json))}
    (read : memberValue value members name is = .ok (ended, rest)) :
    ∃ blank member text after, Blanks blank ∧ Derives tooBig (.value member) text ∧ Blanks after ∧
      ((ended = .done (members ++ [(name, member)]) ∧
          is = blank ++ (text ++ (after ++ '\x7d' :: rest))) ∨
        ∃ before, Blanks before ∧ ended = .again (members ++ [(name, member)]) ∧
          is = blank ++ (text ++ (after ++ ',' :: (before ++ rest)))) := by
  unfold memberValue at read
  rw [skipWhitespace_run] at read
  obtain ⟨blank, skipped, blanks⟩ := exists_blanks is
  obtain ⟨member, left, taken, read⟩ := Decoder.of_bind_ok read
  obtain ⟨text, split, derived⟩ := sound _ _ _ taken
  obtain ⟨after, skipped2, blanks2⟩ := exists_blanks left
  refine ⟨blank, member, text, after, blanks, derived, blanks2, ?_⟩
  rw [skipWhitespace_run, consume_run] at read
  split at read
  next comma =>
    cases read
    obtain ⟨before, skipped3, blanks3⟩ := exists_blanks (left.dropWhile isBlank).tail
    refine Or.inr ⟨before, blanks3, rfl, ?_⟩
    rw [← skipped3, ← eq_cons_of_headD comma (by decide), ← skipped2, ← split]
    exact skipped
  next =>
    rw [if_neg Bool.false_ne_true, consume_run] at read
    split at read
    next brace =>
      cases read
      refine Or.inl ⟨rfl, ?_⟩
      rw [← eq_cons_of_headD brace (by decide), ← skipped2, ← split]
      exact skipped
    next => cases read

theorem memberTurn_ok {members : List (Text × Json)} {is rest : Text}
    {ended : Turn (List (Text × Json))}
    (read : memberTurn value members is = .ok (ended, rest)) :
    ∃ label name member text after, LabelText label name ∧
      Derives tooBig (.value member) text ∧ Blanks after ∧
      ((ended = .done (members ++ [(name, member)]) ∧
          is = label ++ (text ++ (after ++ '\x7d' :: rest))) ∨
        ∃ before, Blanks before ∧ ended = .again (members ++ [(name, member)]) ∧
          is = label ++ (text ++ (after ++ ',' :: (before ++ rest)))) := by
  unfold memberTurn at read
  rw [peek_run] at read
  split at read
  next quote =>
    obtain ⟨name, left, quoted, read⟩ := Decoder.of_bind_ok read
    obtain ⟨text, taken, string⟩ := parseString_ok quote quoted
    obtain ⟨before, skipped, blanks⟩ := exists_blanks left
    rw [skipWhitespace_run, consume_run] at read
    split at read
    next colon =>
      rw [if_pos rfl] at read
      have follows := eq_cons_of_headD colon (by decide)
      obtain ⟨blank, member, written, after, blanks2, derived, blanks3, ended⟩ :=
        memberValue_ok sound read
      refine ⟨text ++ (before ++ ':' :: blank), name, member, written, after,
        ⟨text, before, blank, rfl, string, blanks, blanks2⟩, derived, blanks3, ?_⟩
      have label (tail : Text) (rest_eq : (left.dropWhile isBlank).tail = blank ++ tail) :
          is = text ++ (before ++ ':' :: blank) ++ tail := by
        rw [rest_eq] at follows
        rw [taken, skipped, follows]
        simp only [List.append_assoc, List.cons_append]
      rcases ended with ⟨done, split⟩ | ⟨gap, blanks4, again, split⟩
      · exact Or.inl ⟨done, label _ split⟩
      · exact Or.inr ⟨gap, blanks4, again, label _ split⟩
    next =>
      rw [if_neg Bool.false_ne_true] at read
      cases read
  next => cases read

theorem parseObject_ok {is rest : Text} {root : Json}
    (read : parseObject value ('\x7b' :: is) = .ok (root, rest)) :
    ∃ text, '\x7b' :: is = text ++ rest ∧ Derives tooBig (.value root) text := by
  unfold parseObject at read
  rw [takeChar_run, skipWhitespace_run, consume_run] at read
  obtain ⟨blank, skipped, blanks⟩ := exists_blanks is
  split at read
  next brace =>
    cases read
    refine ⟨'\x7b' :: (blank ++ ['\x7d']), ?_, Derives.emptyObject blanks⟩
    have closes := eq_cons_of_headD brace (by decide)
    rw [List.cons_append, List.append_assoc, List.cons_append, List.nil_append]
    exact congrArg ('\x7b' :: ·) (skipped.trans (congrArg (blank ++ ·) closes))
  next =>
    obtain ⟨members, left, loops, ends⟩ := Decoder.of_bind_ok read
    cases ends
    have body := Decoder.loop_induction (motive := fun before is members rest =>
      ∃ values body, is = body ++ '\x7d' :: rest ∧ members = before ++ values ∧
        Derives tooBig (.members values) body) ?_ ?_ loops
    · obtain ⟨values, body, taken, same, inner⟩ := body
      rw [List.nil_append] at same
      subst same
      refine ⟨'\x7b' :: (blank ++ (body ++ ['\x7d'])), ?_, Derives.object blanks inner⟩
      rw [List.cons_append, List.append_assoc, List.append_assoc, List.cons_append,
        List.nil_append]
      exact congrArg ('\x7b' :: ·) (skipped.trans (congrArg (blank ++ ·) taken))
    · intro before is last rest turn
      obtain ⟨label, name, member, text, after, named, derived, blanks, done | again⟩ :=
        memberTurn_ok sound turn
      · obtain ⟨same, split⟩ := done
        cases same
        refine ⟨[(name, member)], label ++ (text ++ after), ?_, rfl,
          Derives.member named derived blanks⟩
        rw [List.append_assoc, List.append_assoc]
        exact split
      · obtain ⟨_, _, same, _⟩ := again
        cases same
    · intro before is next left last rest turn later
      obtain ⟨label, name, member, text, after, named, derived, blanks, done | again⟩ :=
        memberTurn_ok sound turn
      · cases done.1
      · obtain ⟨gap, blanks2, same, split⟩ := again
        obtain ⟨values, body, taken, whole, inner⟩ := later
        cases same
        refine ⟨(name, member) :: values, label ++ (text ++ (after ++ ',' :: (gap ++ body))), ?_,
          ?_, Derives.members named derived blanks blanks2 inner⟩
        · rw [split, taken]
          simp only [List.append_assoc, List.cons_append]
        · rw [whole, List.append_assoc]
          rfl

end Sound

theorem parseValue_sound (depth : Nat) : Sound tooBig (parseValue tooBig depth) := by
  induction depth with
  | zero =>
      intro is root rest read
      cases read
  | succ depth ih =>
      intro is root rest read
      unfold parseValue at read
      rw [peek_run] at read
      split at read
      next head =>
        rw [eq_cons_of_headD head (by decide)] at read ⊢
        obtain ⟨same, split⟩ := parseLiteral_ok (by decide) read
        subst same
        exact ⟨_, split, Derives.nullLiteral⟩
      next =>
        split at read
        next head =>
          rw [eq_cons_of_headD head (by decide)] at read ⊢
          obtain ⟨same, split⟩ := parseLiteral_ok (by decide) read
          subst same
          exact ⟨_, split, Derives.trueLiteral⟩
        next =>
          split at read
          next head =>
            rw [eq_cons_of_headD head (by decide)] at read ⊢
            obtain ⟨same, split⟩ := parseLiteral_ok (by decide) read
            subst same
            exact ⟨_, split, Derives.falseLiteral⟩
          next =>
            split at read
            next head =>
              obtain ⟨text, left, quoted, ends⟩ := Decoder.of_bind_ok read
              cases ends
              obtain ⟨source, split, string⟩ := parseString_ok head quoted
              exact ⟨source, split, Derives.string string⟩
            next =>
              split at read
              next head =>
                rw [eq_cons_of_headD head (by decide)] at read ⊢
                exact parseObject_ok ih read
              next =>
                split at read
                next head =>
                  rw [eq_cons_of_headD head (by decide)] at read ⊢
                  exact parseArray_ok ih read
                next =>
                  obtain ⟨same, text, split, number⟩ := parseNumber_ok tooBig read
                  subst same
                  exact ⟨text, split, Derives.number number⟩

/-- Takes the values of the grammar that are no longer than this. -/
def Complete (tooBig : Text → Bool) (value : GenericReader Json) (size : Nat) : Prop :=
  ∀ root text, text.length ≤ size → Derives tooBig (.value root) text →
    DecodesBefore (Ends continuesNumber) value text root

theorem advances_elementTurn {value : GenericReader Json} (sound : Sound tooBig value) :
    Advances (elementTurn value) := by
  intro elements is next rest read
  obtain ⟨element, text, after, _, _, done | again⟩ := elementTurn_ok sound read
  · cases done.1
  · obtain ⟨before, _, _, split⟩ := again
    rw [split]
    simp only [List.length_append, List.length_cons]
    omega

theorem advances_memberTurn {value : GenericReader Json} (sound : Sound tooBig value) :
    Advances (memberTurn value) := by
  intro members is next rest read
  obtain ⟨label, name, member, text, after, _, _, _, done | again⟩ := memberTurn_ok sound read
  · cases done.1
  · obtain ⟨before, _, _, split⟩ := again
    rw [split]
    simp only [List.length_append, List.length_cons]
    omega

section Complete

variable {value : GenericReader Json} {size : Nat} (sound : Sound tooBig value)
variable (complete : Complete tooBig value size)

include complete

theorem elementTurn_done {element : Json} {text after : Text}
    (derived : Derives tooBig (.value element) text) (short : text.length ≤ size)
    (blanks : Blanks after) (elements : List Json) :
    Decodes (elementTurn value elements) (text ++ (after ++ [']']))
      (.done (elements ++ [element])) := by
  intro rest
  have ends : Ends continuesNumber (after ++ ']' :: rest) := ends_blanks blanks rfl
  unfold elementTurn
  rw [List.append_assoc, List.append_assoc, List.cons_append, List.nil_append,
    Decoder.bind_ok (complete _ _ short derived _ ends), skipWhitespace_run,
    dropWhile_blanks blanks rfl, consume_cons_other _ (by decide), if_neg Bool.false_ne_true,
    consume_self, if_pos rfl]
  rfl

theorem elementTurn_again {element : Json} {text after before : Text}
    (derived : Derives tooBig (.value element) text) (short : text.length ≤ size)
    (blanks : Blanks after) (blanks2 : Blanks before) (elements : List Json) :
    DecodesBefore (Ends isBlank) (elementTurn value elements)
      (text ++ (after ++ ',' :: before)) (.again (elements ++ [element])) := by
  intro rest follows
  have ends : Ends continuesNumber (after ++ ',' :: (before ++ rest)) := ends_blanks blanks rfl
  unfold elementTurn
  rw [List.append_assoc, List.append_assoc, List.cons_append,
    Decoder.bind_ok (complete _ _ short derived _ ends), skipWhitespace_run,
    dropWhile_blanks blanks rfl, consume_self, if_pos rfl, skipWhitespace_run,
    dropWhile_blanks blanks2 follows]
  rfl

theorem memberValue_done {member : Json} {text after : Text}
    (derived : Derives tooBig (.value member) text) (short : text.length ≤ size)
    (blanks : Blanks after) {blank : Text} (blanks2 : Blanks blank)
    (members : List (Text × Json)) (name : Text) :
    Decodes (memberValue value members name) (blank ++ (text ++ (after ++ ['\x7d'])))
      (.done (members ++ [(name, member)])) := by
  intro rest
  have ends : Ends continuesNumber (after ++ '\x7d' :: rest) := ends_blanks blanks rfl
  obtain ⟨c, more, same, visible, -⟩ := derived.value_head rfl
  unfold memberValue
  simp only [List.append_assoc, List.cons_append, List.nil_append]
  rw [skipWhitespace_run, dropWhile_blanks blanks2 (by rw [same]; exact visible),
    Decoder.bind_ok (complete _ _ short derived _ ends), skipWhitespace_run,
    dropWhile_blanks blanks rfl, consume_cons_other _ (by decide), if_neg Bool.false_ne_true,
    consume_self, if_pos rfl]
  rfl

theorem memberValue_again {member : Json} {text after before : Text}
    (derived : Derives tooBig (.value member) text) (short : text.length ≤ size)
    (blanks : Blanks after) (blanks3 : Blanks before) {blank : Text} (blanks2 : Blanks blank)
    (members : List (Text × Json)) (name : Text) :
    DecodesBefore (Ends isBlank) (memberValue value members name)
      (blank ++ (text ++ (after ++ ',' :: before))) (.again (members ++ [(name, member)])) := by
  intro rest follows
  have ends : Ends continuesNumber (after ++ ',' :: (before ++ rest)) := ends_blanks blanks rfl
  obtain ⟨c, more, same, visible, -⟩ := derived.value_head rfl
  unfold memberValue
  simp only [List.append_assoc, List.cons_append]
  rw [skipWhitespace_run, dropWhile_blanks blanks2 (by rw [same]; exact visible),
    Decoder.bind_ok (complete _ _ short derived _ ends), skipWhitespace_run,
    dropWhile_blanks blanks rfl, consume_self, if_pos rfl, skipWhitespace_run,
    dropWhile_blanks blanks3 follows]
  rfl

omit complete in
theorem memberTurn_label {quoted before name : Text} (string : StringText quoted name)
    (blanks : Blanks before) (members : List (Text × Json)) (tail : Text) :
    memberTurn value members (quoted ++ (before ++ ':' :: tail)) =
      memberValue value members name tail := by
  have reads := parseString_decodes string (before ++ ':' :: tail)
  obtain ⟨body, same, -⟩ := string
  subst same
  unfold memberTurn
  rw [List.cons_append] at reads ⊢
  rw [peek_run, List.headD_cons, if_pos rfl, Decoder.bind_ok reads, skipWhitespace_run,
    dropWhile_blanks blanks rfl, consume_self, if_pos rfl]

include sound

theorem elements_decodes {shape : Shape} {body : Text} (derived : Derives tooBig shape body) :
    ∀ values, shape = .elements values → body.length ≤ size → ∀ elements,
      Decodes (Decoder.loop .valueInvalid (elementTurn value) elements) (body ++ [']'])
        (elements ++ values) := by
  have advances := advances_elementTurn sound
  induction derived with
  | element first blanks ih =>
      intro values same short elements
      cases same
      rw [List.length_append] at short
      rw [List.append_assoc]
      exact Decodes.loop_break advances (elementTurn_done complete first (by omega) blanks elements)
  | @elements text after before more element values first blanks blanks2 others ih ih2 =>
      intro all same short elements
      cases same
      simp only [List.length_append, List.length_cons] at short
      have later := ih2 values rfl (by omega) (elements ++ [element])
      rw [List.append_assoc] at later
      have split : text ++ (after ++ ',' :: (before ++ more)) ++ [']'] =
          text ++ (after ++ ',' :: before) ++ (more ++ [']']) := by
        simp only [List.append_assoc, List.cons_append]
      rw [split]
      intro rest
      have turn := elementTurn_again complete first (by omega) blanks blanks2 elements
        (more ++ [']'] ++ rest) (by
          obtain ⟨c, left, same, visible, _⟩ := others.elements_head
          rw [same]
          exact visible)
      rw [Decoder.loop_eq advances, List.append_assoc, Decoder.bind_ok turn]
      exact later rest
  | _ => intro values same; cases same

theorem members_decodes {shape : Shape} {body : Text} (derived : Derives tooBig shape body) :
    ∀ values, shape = .members values → body.length ≤ size → ∀ members,
      Decodes (Decoder.loop .objectMissName (memberTurn value) members) (body ++ ['\x7d'])
        (members ++ values) := by
  have advances := advances_memberTurn sound
  induction derived with
  | @member label text after name member named first blanks ih =>
      intro values same short members
      cases same
      obtain ⟨quoted, gap, blank, rfl, string, blanks2, blanks3⟩ := named
      simp only [List.length_append] at short
      refine Decodes.loop_break advances fun rest => ?_
      have turn := memberValue_done complete first (by omega) blanks blanks3 members name rest
      simp only [List.append_assoc, List.cons_append] at turn ⊢
      rw [memberTurn_label string blanks2, turn]
  | @members label text after before more name member values named first blanks blanks2 others ih
      ih2 =>
      intro all same short members
      cases same
      obtain ⟨quoted, gap, blank, rfl, string, blanks3, blanks4⟩ := named
      simp only [List.length_append, List.length_cons] at short
      have later := ih2 values rfl (by omega) (members ++ [(name, member)])
      rw [List.append_assoc] at later
      intro rest
      have turn := memberValue_again complete first (by omega) blanks blanks2 blanks4 members name
        (more ++ ['\x7d'] ++ rest) (by
          obtain ⟨left, same⟩ := others.members_head
          rw [same]
          rfl)
      rw [Decoder.loop_eq advances]
      simp only [List.append_assoc, List.cons_append] at turn later ⊢
      rw [Decoder.bind_ok ((memberTurn_label string blanks3 members _).trans turn)]
      simpa only [List.append_assoc, List.cons_append, List.nil_append] using later rest
  | _ => intro values same; cases same

theorem parseArray_decodes {blank body : Text} {values : List Json} (blanks : Blanks blank)
    (inner : Derives tooBig (.elements values) body) (short : body.length ≤ size) :
    Decodes (parseArray value) ('[' :: (blank ++ (body ++ [']']))) (.array values) := by
  intro rest
  have loops := elements_decodes sound complete inner values rfl short [] rest
  obtain ⟨c, more, same, visible, noBracket⟩ := inner.elements_head
  unfold parseArray
  rw [List.cons_append, takeChar_run, List.tail_cons, skipWhitespace_run, List.append_assoc,
    dropWhile_blanks blanks (by rw [same]; exact visible),
    consume_other _ (by rw [same]; exact noBracket), if_neg Bool.false_ne_true,
    Decoder.bind_ok loops]
  rfl

omit complete sound in
theorem quote_ne_brace : '"' ≠ '\x7d' := by decide

theorem parseObject_decodes {blank body : Text} {values : List (Text × Json)}
    (blanks : Blanks blank) (inner : Derives tooBig (.members values) body)
    (short : body.length ≤ size) :
    Decodes (parseObject value) ('\x7b' :: (blank ++ (body ++ ['\x7d']))) (.object values) := by
  intro rest
  have loops := members_decodes sound complete inner values rfl short [] rest
  obtain ⟨more, same⟩ := inner.members_head
  unfold parseObject
  rw [List.cons_append, takeChar_run, List.tail_cons, skipWhitespace_run, List.append_assoc,
    dropWhile_blanks blanks (by rw [same]; rfl), consume_other _ (by rw [same]; exact quote_ne_brace),
    if_neg Bool.false_ne_true, Decoder.bind_ok loops]
  rfl

end Complete

theorem parseArray_empty {value : GenericReader Json} {blank : Text} (blanks : Blanks blank) :
    Decodes (parseArray value) ('[' :: (blank ++ [']'])) (.array []) := by
  intro rest
  unfold parseArray
  rw [List.cons_append, takeChar_run, List.tail_cons, skipWhitespace_run, List.append_assoc,
    dropWhile_blanks blanks rfl, List.cons_append, consume_self, if_pos rfl]
  rfl

theorem parseObject_empty {value : GenericReader Json} {blank : Text} (blanks : Blanks blank) :
    Decodes (parseObject value) ('\x7b' :: (blank ++ ['\x7d'])) (.object []) := by
  intro rest
  unfold parseObject
  rw [List.cons_append, takeChar_run, List.tail_cons, skipWhitespace_run, List.append_assoc,
    dropWhile_blanks blanks rfl, List.cons_append, consume_self, if_pos rfl]
  rfl

theorem parseValue_number {c : Char} (head : c = '-' ∨ isDigit c = true) (depth : Nat) (is : Text) :
    parseValue tooBig (depth + 1) (c :: is) = parseNumber tooBig (c :: is) := by
  have other (letter : Char) (notMinus : letter ≠ '-') (notDigit : isDigit letter = false) :
      c ≠ letter := by
    rintro rfl
    rcases head with minus | digit
    · exact notMinus minus
    · rw [notDigit] at digit
      exact Bool.false_ne_true digit
  unfold parseValue
  rw [peek_run, List.headD_cons, if_neg (other 'n' (by decide) rfl),
    if_neg (other 't' (by decide) rfl), if_neg (other 'f' (by decide) rfl),
    if_neg (other '"' (by decide) rfl), if_neg (other '\x7b' (by decide) rfl),
    if_neg (other '[' (by decide) rfl)]

theorem parseValue_string {text value : Text} (string : StringText text value) (depth : Nat) :
    Decodes (parseValue tooBig (depth + 1)) text (.string value) := by
  intro rest
  have reads := parseString_decodes string rest
  obtain ⟨body, same, -⟩ := string
  subst same
  exact Decoder.bind_ok reads

/-- A value that is no number is read without a look at what follows it. -/
theorem parseValue_settled {depth : Nat} (complete : Complete tooBig (parseValue tooBig depth) depth)
    {root : Json} {text : Text} (short : text.length ≤ depth + 1)
    (derived : Derives tooBig (.value root) text) (noNumber : root ≠ .number) :
    Decodes (parseValue tooBig (depth + 1)) text root := by
  have sound := @parseValue_sound tooBig depth
  intro rest
  cases derived with
  | nullLiteral => exact parseLiteral_decodes 'n' ['u', 'l', 'l'] .null rest
  | trueLiteral => exact parseLiteral_decodes 't' ['r', 'u', 'e'] (.bool true) rest
  | falseLiteral => exact parseLiteral_decodes 'f' ['a', 'l', 's', 'e'] (.bool false) rest
  | number digits => exact absurd rfl noNumber
  | string quoted => exact parseValue_string quoted depth rest
  | emptyArray blanks => exact parseArray_empty blanks rest
  | array blanks inner =>
      simp only [List.length_cons, List.length_append] at short
      exact parseArray_decodes sound complete blanks inner (by omega) rest
  | emptyObject blanks => exact parseObject_empty blanks rest
  | object blanks inner =>
      simp only [List.length_cons, List.length_append] at short
      exact parseObject_decodes sound complete blanks inner (by omega) rest

theorem Derives.number_text {shape : Shape} {text : Text} (derived : Derives tooBig shape text)
    (isNumber : shape = .value .number) : NumberText tooBig text := by
  cases derived with
  | number digits => exact digits
  | _ => cases isNumber

theorem parseValue_complete (depth : Nat) : Complete tooBig (parseValue tooBig depth) depth := by
  induction depth with
  | zero =>
      intro root text short derived
      obtain ⟨c, more, same, -⟩ := derived.value_head rfl
      rw [same] at short
      exact absurd short (by simp)
  | succ depth ih =>
      intro root text short derived
      by_cases isNumber : root = .number
      · subst isNumber
        intro rest ends
        have digits := derived.number_text rfl
        have reads := parseNumber_decodes tooBig digits rest ends
        obtain ⟨c, more, rfl, head⟩ := digits.head
        rw [List.cons_append, parseValue_number head]
        exact reads
      · exact (parseValue_settled ih short derived isNumber).before _

theorem LabelText.visible {label name : Text} (named : LabelText label name) : nul ∉ label := by
  obtain ⟨quoted, before, after, rfl, string, blanks, blanks2⟩ := named
  simp only [List.mem_append, List.mem_cons, not_or]
  exact ⟨string.visible, blanks.visible, by decide, blanks2.visible⟩

theorem Derives.visible {shape : Shape} {text : Text} (derived : Derives tooBig shape text) :
    nul ∉ text := by
  induction derived with
  | nullLiteral => decide
  | trueLiteral => decide
  | falseLiteral => decide
  | number digits => exact digits.visible
  | string quoted => exact quoted.visible
  | emptyArray blanks => simpa [nul] using blanks.visible
  | array blanks inner ih => simpa [nul] using And.intro blanks.visible ih
  | emptyObject blanks => simpa [nul] using blanks.visible
  | object blanks inner ih => simpa [nul] using And.intro blanks.visible ih
  | element first blanks ih => simpa using And.intro ih blanks.visible
  | elements first blanks blanks2 others ih ih2 =>
      simp only [List.mem_append, List.mem_cons, not_or]
      exact ⟨ih, blanks.visible, by decide, blanks2.visible, ih2⟩
  | member named first blanks ih =>
      simp only [List.mem_append, not_or]
      exact ⟨named.visible, ih, blanks.visible⟩
  | members named first blanks blanks2 others ih ih2 =>
      simp only [List.mem_append, List.mem_cons, not_or]
      exact ⟨named.visible, ih, blanks.visible, by decide, blanks2.visible, ih2⟩

end Values

theorem nul_not_mem_cString (str : Text) : nul ∉ cString str := by
  intro member
  simpa [nul] using List.mem_takeWhile_imp member

theorem parseRoot_ok {tooBig : Text → Bool} {depth : Nat} {is rest : Text} {root : Json}
    (visible : nul ∉ is) (read : parseRoot tooBig depth is = .ok (root, rest)) :
    DocumentText tooBig is root := by
  obtain ⟨before, skipped, blanks⟩ := exists_blanks is
  unfold parseRoot at read
  rw [skipWhitespace_run, peek_run] at read
  split at read
  next => cases read
  next =>
    obtain ⟨value, left, taken, read⟩ := Decoder.of_bind_ok read
    obtain ⟨text, split, derived⟩ := parseValue_sound depth _ _ _ taken
    obtain ⟨after, skipped2, blanks2⟩ := exists_blanks left
    rw [skipWhitespace_run, peek_run] at read
    split at read
    next stops =>
      cases read
      have ended : left.dropWhile isBlank = [] := by
        cases left_eq : left.dropWhile isBlank with
        | nil => rfl
        | cons c more =>
            rw [left_eq] at stops skipped2
            rw [skipped, split, skipped2, show c = nul from stops] at visible
            exact absurd (by simp) visible
      rw [ended, List.append_nil] at skipped2
      rw [← skipped2] at blanks2
      refine ⟨before, text, left, ?_, blanks, derived, blanks2⟩
      rw [← split]
      exact skipped
    next => cases read

/-- A body is a document of the grammar, or it is refused, and it denotes one value. -/
theorem parse_eq_ok_iff (tooBig : Text → Bool) (str : Text) (root : Json) :
    parse tooBig str = .ok root ↔ DocumentText tooBig (cString str) root := by
  unfold parse
  constructor
  · intro read
    cases reads : parseRoot tooBig (cString str).length (cString str) with
    | error error =>
        rw [reads] at read
        cases read
    | ok result =>
        rw [reads] at read
        cases read
        exact parseRoot_ok (nul_not_mem_cString str) reads
  · rintro ⟨before, text, after, split, blanks, derived, blanks2⟩
    have visible := nul_not_mem_cString str
    rw [split] at visible ⊢
    obtain ⟨c, more, same, unblank, -⟩ := derived.value_head rfl
    have notNul : ¬ (text ++ after).headD nul = nul := by
      rw [same]
      rintro isNul
      refine absurd ?_ visible
      rw [same, ← isNul]
      simp
    have reads : parseRoot tooBig (before ++ (text ++ after)).length (before ++ (text ++ after)) =
        .ok (root, []) := by
      have fits : text.length ≤ (before ++ (text ++ after)).length := by
        simp only [List.length_append]
        omega
      have ends : Ends continuesNumber after := by
        have blank := @ends_blanks after [] blanks2 rfl
        rwa [List.append_nil] at blank
      have blank := @dropWhile_blanks after [] blanks2 rfl
      rw [List.append_nil] at blank
      unfold parseRoot
      rw [skipWhitespace_run, dropWhile_blanks blanks (by rw [same]; exact unblank), peek_run,
        if_neg notNul, Decoder.bind_ok (parseValue_complete _ _ _ fits derived _ ends),
        skipWhitespace_run, blank]
      rfl
    rw [reads]
    rfl

/-- `Parse` accepts exactly the documents of the grammar, which denote one value each. -/
theorem parse_grammar (tooBig : Text → Bool) (str : Text) :
    (∀ root, parse tooBig str = .ok root ↔ DocumentText tooBig (cString str) root) ∧
      ∀ root other, DocumentText tooBig (cString str) root →
        DocumentText tooBig (cString str) other → root = other := by
  refine ⟨parse_eq_ok_iff tooBig str, fun root other first second => ?_⟩
  have parsed := (parse_eq_ok_iff tooBig str root).mpr first
  rw [(parse_eq_ok_iff tooBig str other).mpr second] at parsed
  exact (Except.ok.inj parsed).symm

end DcCluster.Rapidjson

import DcCluster.Rapidjson.Grammar

/-!
`ParseNumber` takes exactly the numbers of the grammar, as far as they go.
-/

namespace DcCluster.Rapidjson

open DcCluster.Lib DcCluster.Mq DcCluster.Server

/-- The next character is none of these. -/
def Ends (goesOn : Char → Bool) (rest : Text) : Prop := goesOn (rest.headD nul) = false

/-- A part of a number is read as far as its grammar goes. -/
structure Spells (goesOn : Char → Bool) (part : Text → GenericReader Text)
    (grammar : Text → Text → Prop) : Prop where
  sound : ∀ s is number rest, part s is = .ok (number, rest) →
    ∃ text, is = text ++ rest ∧ number = s ++ text ∧ grammar s text
  complete : ∀ s text, grammar s text → DecodesBefore (Ends goesOn) (part s) text (s ++ text)

theorem digits_spells (refuses : Text → Bool) :
    Spells isDigit (digits refuses) (DigitsText refuses) := by
  constructor
  · intro s is number rest read
    induction is generalizing s with
    | nil =>
        cases read
        exact ⟨[], rfl, (List.append_nil _).symm, DigitsText.nil _⟩
    | cons c left ih =>
        unfold digits at read
        split at read
        next digit =>
          split at read
          next => cases read
          next fits =>
            obtain ⟨text, split, same, more⟩ := ih (s ++ [c]) read
            refine ⟨c :: text, congrArg (c :: ·) split, ?_, DigitsText.cons digit ?_ more⟩
            · rw [same, List.append_assoc]
              rfl
            · simpa using fits
        next =>
          cases read
          exact ⟨[], rfl, (List.append_nil _).symm, DigitsText.nil _⟩
  · intro s text derived rest ends
    induction derived with
    | nil s =>
        cases rest with
        | nil => rw [List.append_nil, List.append_nil, digits]
        | cons c left =>
            have stops : ¬ isDigit c = true := by simpa [Ends] using ends
            rw [List.append_nil, List.nil_append, digits, if_neg stops]
    | cons digit fits more ih =>
        rw [List.cons_append, digits, if_pos digit, if_neg (by simp [fits]), ih,
          List.append_assoc]
        rfl

section Numbers

variable (tooBig : Text → Bool)

theorem parseInteger_spells : Spells isDigit (parseInteger tooBig) (IntegerText tooBig) := by
  constructor
  · intro s is number rest read
    unfold parseInteger at read
    rw [peek_run] at read
    split at read
    next zero =>
      rw [eq_cons_of_headD zero (by decide)] at read ⊢
      cases read
      exact ⟨['0'], rfl, rfl, Or.inl rfl⟩
    next nonzero =>
      split at read
      next digit =>
        cases is with
        | nil => exact absurd digit (by decide)
        | cons c left =>
            obtain ⟨more, taken, same, derived⟩ := (digits_spells tooBig).sound _ _ _ _ read
            refine ⟨c :: more, congrArg (c :: ·) taken, ?_,
              Or.inr ⟨c, more, rfl, nonzero, digit, derived⟩⟩
            rw [same, List.append_assoc]
            rfl
      next => cases read
  · intro s text derived rest ends
    rcases derived with zero | ⟨c, more, same, nonzero, digit, derived⟩
    · subst zero
      rfl
    · subst same
      unfold parseInteger
      rw [List.cons_append, peek_run, List.headD_cons, if_neg nonzero, if_pos digit, takeChar_run,
        List.tail_cons, (digits_spells tooBig).complete _ _ derived rest ends, List.append_assoc]
      rfl

theorem parseDigits_spells (missing : ParseErrorCode) (refuses : Text → Bool) :
    Spells isDigit (parseDigits missing refuses) (ManyDigits refuses) := by
  constructor
  · intro s is number rest read
    unfold parseDigits at read
    rw [peek_run] at read
    split at read
    next digit =>
      cases is with
      | nil => exact absurd digit (by decide)
      | cons c left =>
          obtain ⟨more, taken, same, derived⟩ := (digits_spells refuses).sound _ _ _ _ read
          refine ⟨c :: more, congrArg (c :: ·) taken, ?_, c, more, rfl, digit, derived⟩
          rw [same, List.append_assoc]
          rfl
    next => cases read
  · rintro s text ⟨c, more, same, digit, derived⟩ rest ends
    subst same
    unfold parseDigits
    rw [List.cons_append, peek_run, List.headD_cons, if_pos digit, takeChar_run, List.tail_cons,
      (digits_spells refuses).complete _ _ derived rest ends, List.append_assoc]
    rfl

theorem parseFraction_spells :
    Spells (fun c => isDigit c || c == '.') parseFraction FractionText := by
  constructor
  · intro s is number rest read
    unfold parseFraction at read
    rw [consume_run] at read
    split at read
    next point =>
      obtain ⟨more, taken, same, derived⟩ :=
        (parseDigits_spells .numberMissFraction noLimit).sound _ _ _ _ read
      refine ⟨'.' :: more, ?_, ?_, Or.inr ⟨more, rfl, derived⟩⟩
      · rw [eq_cons_of_headD point (by decide), taken]
        rfl
      · rw [same, List.append_assoc]
        rfl
    next =>
      cases read
      exact ⟨[], rfl, (List.append_nil _).symm, Or.inl rfl⟩
  · intro s text derived rest ends
    simp only [Ends, Bool.or_eq_false_iff, beq_eq_false_iff_ne] at ends
    unfold parseFraction
    rcases derived with empty | ⟨more, same, derived⟩
    · subst empty
      rw [List.nil_append, consume_other _ ends.2, if_neg Bool.false_ne_true, List.append_nil]
      rfl
    · subst same
      rw [List.cons_append, consume_self, if_pos rfl,
        (parseDigits_spells .numberMissFraction noLimit).complete _ _ derived rest ends.1, List.append_assoc]
      rfl

theorem parseExponentSign_spells :
    Spells isDigit (parseExponentSign tooBig) (SignedText tooBig) := by
  have signed (refuses : Text → Bool) (sign : Char) (s is number rest : Text)
      (begins : is.headD nul = sign) (visible : sign ≠ nul)
      (read : parseDigits .numberMissExponent refuses (s ++ [sign]) is.tail = .ok (number, rest)) :
      ∃ text, is = sign :: text ++ rest ∧ number = s ++ sign :: text ∧
        ManyDigits refuses (s ++ [sign]) text := by
    obtain ⟨text, taken, same, derived⟩ :=
      (parseDigits_spells .numberMissExponent refuses).sound _ _ _ _ read
    refine ⟨text, ?_, ?_, derived⟩
    · rw [eq_cons_of_headD begins visible, taken]
      rfl
    · rw [same, List.append_assoc]
      rfl
  constructor
  · intro s is number rest read
    unfold parseExponentSign at read
    rw [consume_run] at read
    split at read
    next plus =>
      obtain ⟨text, taken, same, derived⟩ := signed tooBig '+' s is number rest plus (by decide) read
      exact ⟨'+' :: text, taken, same, Or.inl ⟨text, rfl, derived⟩⟩
    next =>
      rw [if_neg Bool.false_ne_true, consume_run] at read
      split at read
      next minus =>
        obtain ⟨text, taken, same, derived⟩ :=
          signed noLimit '-' s is number rest minus (by decide) read
        exact ⟨'-' :: text, taken, same, Or.inr (Or.inl ⟨text, rfl, derived⟩)⟩
      next =>
        obtain ⟨text, taken, same, derived⟩ :=
          (parseDigits_spells .numberMissExponent tooBig).sound _ _ _ _ read
        exact ⟨text, taken, same, Or.inr (Or.inr derived)⟩
  · intro s text derived rest ends
    unfold parseExponentSign
    rcases derived with ⟨power, same, derived⟩ | ⟨power, same, derived⟩ | derived
    · subst same
      rw [List.cons_append, consume_self, if_pos rfl,
        (parseDigits_spells .numberMissExponent tooBig).complete _ _ derived rest ends, List.append_assoc]
      rfl
    · subst same
      rw [List.cons_append, consume_cons_other _ (by decide), if_neg Bool.false_ne_true,
        consume_self, if_pos rfl, (parseDigits_spells .numberMissExponent noLimit).complete _ _ derived rest ends,
        List.append_assoc]
      rfl
    · have power := (parseDigits_spells .numberMissExponent tooBig).complete _ _ derived rest ends
      obtain ⟨c, more, same, digit, -⟩ := derived
      subst same
      have noPlus : c ≠ '+' := by rintro rfl; exact absurd digit (by decide)
      have noMinus : c ≠ '-' := by rintro rfl; exact absurd digit (by decide)
      rw [List.cons_append, consume_cons_other _ noPlus, if_neg Bool.false_ne_true,
        consume_cons_other _ noMinus, if_neg Bool.false_ne_true]
      exact power

theorem parseExponent_spells :
    Spells (fun c => isDigit c || c == 'e' || c == 'E') (parseExponent tooBig)
      (ExponentText tooBig) := by
  constructor
  · intro s is number rest read
    unfold parseExponent at read
    rw [consume_run] at read
    split at read
    next letter =>
      obtain ⟨power, taken, same, derived⟩ := (parseExponentSign_spells tooBig).sound _ _ _ _ read
      refine ⟨'e' :: power, ?_, ?_, Or.inr ⟨'e', power, rfl, Or.inl rfl, derived⟩⟩
      · rw [eq_cons_of_headD letter (by decide), taken]
        rfl
      · rw [same, List.append_assoc]
        rfl
    next =>
      rw [if_neg Bool.false_ne_true, consume_run] at read
      split at read
      next letter =>
        obtain ⟨power, taken, same, derived⟩ :=
          (parseExponentSign_spells tooBig).sound _ _ _ _ read
        refine ⟨'E' :: power, ?_, ?_, Or.inr ⟨'E', power, rfl, Or.inr rfl, derived⟩⟩
        · rw [eq_cons_of_headD letter (by decide), taken]
          rfl
        · rw [same, List.append_assoc]
          rfl
      next =>
        cases read
        exact ⟨[], rfl, (List.append_nil _).symm, Or.inl rfl⟩
  · intro s text derived rest ends
    simp only [Ends, Bool.or_eq_false_iff, beq_eq_false_iff_ne] at ends
    unfold parseExponent
    rcases derived with empty | ⟨e, power, same, letter, derived⟩
    · subst empty
      rw [List.nil_append, consume_other _ ends.1.2, if_neg Bool.false_ne_true,
        consume_other _ ends.2, if_neg Bool.false_ne_true, List.append_nil]
      rfl
    · have reads := (parseExponentSign_spells tooBig).complete _ _ derived rest ends.1.1
      subst same
      rw [List.cons_append]
      rcases letter with small | capital
      · subst small
        rw [consume_self, if_pos rfl, reads, List.append_assoc]
        rfl
      · subst capital
        rw [consume_cons_other _ (by decide), if_neg Bool.false_ne_true, consume_self, if_pos rfl,
          reads, List.append_assoc]
        rfl

def continuesNumber (c : Char) : Bool := isDigit c || c == '.' || c == 'e' || c == 'E'

theorem parseNumber_ok {is rest : Text} {value : Json}
    (read : parseNumber tooBig is = .ok (value, rest)) :
    value = .number ∧ ∃ text, is = text ++ rest ∧ NumberText tooBig text := by
  unfold parseNumber at read
  obtain ⟨minus, unsigned, sign, read⟩ := Decoder.of_bind_ok read
  obtain ⟨integer, afterInteger, integers, read⟩ := Decoder.of_bind_ok read
  obtain ⟨significand, afterFraction, fractions, read⟩ := Decoder.of_bind_ok read
  obtain ⟨whole, last, exponents, ends⟩ := Decoder.of_bind_ok read
  cases ends
  obtain ⟨text, taken, rfl, derived⟩ := (parseInteger_spells tooBig).sound _ _ _ _ integers
  obtain ⟨fraction, taken2, rfl, derived2⟩ := parseFraction_spells.sound _ _ _ _ fractions
  obtain ⟨exponent, taken3, rfl, derived3⟩ := (parseExponent_spells tooBig).sound _ _ _ _ exponents
  refine ⟨rfl, (if minus then ['-'] else []) ++ (text ++ (fraction ++ exponent)), ?_,
    _, _, _, _, rfl, ?_, derived, derived2, derived3⟩
  · simp only [List.append_assoc]
    rw [← taken3, ← taken2, ← taken]
    unfold consume at sign
    split at sign
    next dash =>
      cases sign
      exact eq_cons_of_headD dash (by decide)
    next =>
      cases sign
      rfl
  · cases minus with
    | false => exact Or.inl rfl
    | true => exact Or.inr rfl

theorem FractionText.ends {s text rest : Text} {goesOn : Char → Bool}
    (fraction : FractionText s text) (point : goesOn '.' = false) (ends : Ends goesOn rest) :
    Ends goesOn (text ++ rest) := by
  rcases fraction with rfl | ⟨more, rfl, -⟩
  · exact ends
  · exact point

theorem ExponentText.ends {s text rest : Text} {goesOn : Char → Bool}
    (exponent : ExponentText tooBig s text) (small : goesOn 'e' = false)
    (capital : goesOn 'E' = false) (ends : Ends goesOn rest) : Ends goesOn (text ++ rest) := by
  rcases exponent with rfl | ⟨e, power, rfl, rfl | rfl, -⟩
  · exact ends
  · exact small
  · exact capital

theorem IntegerText.head {s text : Text} (integer : IntegerText tooBig s text) :
    ∃ c more, text = c :: more ∧ isDigit c = true := by
  rcases integer with rfl | ⟨c, more, rfl, -, digit, -⟩
  · exact ⟨'0', [], rfl, rfl⟩
  · exact ⟨c, more, rfl, digit⟩

theorem parseNumber_decodes {text : Text} (number : NumberText tooBig text) :
    DecodesBefore (Ends continuesNumber) (parseNumber tooBig) text .number := by
  obtain ⟨minus, integer, fraction, exponent, rfl, signs, integers, fractions, exponents⟩ := number
  intro rest ends
  simp only [Ends, continuesNumber, Bool.or_eq_false_iff] at ends
  have afterExponent : Ends (fun c => isDigit c || c == 'e' || c == 'E') rest := by
    simp only [Ends, Bool.or_eq_false_iff]
    exact ⟨⟨ends.1.1.1, ends.1.2⟩, ends.2⟩
  have afterFraction : Ends (fun c => isDigit c || c == '.') (exponent ++ rest) := by
    refine exponents.ends tooBig rfl rfl ?_
    simp only [Ends, Bool.or_eq_false_iff]
    exact ends.1.1
  have afterInteger : Ends isDigit (fraction ++ (exponent ++ rest)) :=
    fractions.ends rfl (exponents.ends tooBig rfl rfl ends.1.1.1)
  have unsigned (minus : Text) (integers : IntegerText tooBig minus integer)
      (fractions : FractionText (minus ++ integer) fraction)
      (exponents : ExponentText tooBig (minus ++ integer ++ fraction) exponent) :
      (do
        let integer ← parseInteger tooBig minus
        let significand ← parseFraction integer
        let _ ← parseExponent tooBig significand
        pure .number : GenericReader Json) (integer ++ (fraction ++ (exponent ++ rest))) =
        .ok (.number, rest) := by
    rw [Decoder.bind_ok ((parseInteger_spells tooBig).complete _ _ integers _ afterInteger),
      Decoder.bind_ok (parseFraction_spells.complete _ _ fractions _ afterFraction),
      Decoder.bind_ok ((parseExponent_spells tooBig).complete _ _ exponents _ afterExponent)]
    rfl
  unfold parseNumber
  simp only [List.append_assoc]
  rcases signs with rfl | rfl
  · obtain ⟨c, more, same, digit⟩ := integers.head
    have noMinus : c ≠ '-' := by
      rintro rfl
      exact absurd digit (by decide)
    have read := unsigned [] integers fractions exponents
    subst same
    rw [List.nil_append, List.cons_append, consume_cons_other _ noMinus]
    exact read
  · rw [List.cons_append, List.nil_append, consume_self]
    exact unsigned ['-'] integers fractions exponents

theorem NumberText.head {text : Text} (number : NumberText tooBig text) :
    ∃ c more, text = c :: more ∧ (c = '-' ∨ isDigit c = true) := by
  obtain ⟨minus, integer, fraction, exponent, rfl, signs, integers, -, -⟩ := number
  rcases signs with rfl | rfl
  · obtain ⟨c, more, rfl, digit⟩ := integers.head
    exact ⟨c, more ++ (fraction ++ exponent), rfl, Or.inr digit⟩
  · exact ⟨'-', integer ++ (fraction ++ exponent), rfl, Or.inl rfl⟩

theorem nul_ne_of_isDigit {c : Char} (digit : isDigit c = true) : nul ≠ c := by
  rintro rfl
  exact absurd digit (by decide)

theorem DigitsText.visible {refuses : Text → Bool} {s text : Text}
    (derived : DigitsText refuses s text) : nul ∉ text := by
  induction derived with
  | nil s => exact List.not_mem_nil
  | cons digit fits more ih =>
      rw [List.mem_cons, not_or]
      exact ⟨nul_ne_of_isDigit digit, ih⟩

theorem ManyDigits.visible {refuses : Text → Bool} {s text : Text}
    (derived : ManyDigits refuses s text) : nul ∉ text := by
  obtain ⟨c, more, rfl, digit, derived⟩ := derived
  rw [List.mem_cons, not_or]
  exact ⟨nul_ne_of_isDigit digit, derived.visible⟩

theorem IntegerText.visible {s text : Text} (integer : IntegerText tooBig s text) :
    nul ∉ text := by
  rcases integer with rfl | ⟨c, more, rfl, -, digit, derived⟩
  · decide
  · rw [List.mem_cons, not_or]
    exact ⟨nul_ne_of_isDigit digit, derived.visible⟩

theorem FractionText.visible {s text : Text} (fraction : FractionText s text) : nul ∉ text := by
  rcases fraction with rfl | ⟨more, rfl, derived⟩
  · exact List.not_mem_nil
  · rw [List.mem_cons, not_or]
    exact ⟨by decide, derived.visible⟩

theorem SignedText.visible {s text : Text} (signed : SignedText tooBig s text) : nul ∉ text := by
  rcases signed with ⟨power, rfl, derived⟩ | ⟨power, rfl, derived⟩ | derived
  · rw [List.mem_cons, not_or]
    exact ⟨by decide, derived.visible⟩
  · rw [List.mem_cons, not_or]
    exact ⟨by decide, derived.visible⟩
  · exact derived.visible

theorem ExponentText.visible {s text : Text} (exponent : ExponentText tooBig s text) :
    nul ∉ text := by
  rcases exponent with rfl | ⟨e, power, rfl, letter, signed⟩
  · exact List.not_mem_nil
  · rw [List.mem_cons, not_or]
    refine ⟨?_, signed.visible⟩
    rcases letter with rfl | rfl <;> decide

theorem NumberText.visible {text : Text} (number : NumberText tooBig text) : nul ∉ text := by
  obtain ⟨minus, integer, fraction, exponent, rfl, signs, integers, fractions, exponents⟩ := number
  simp only [List.mem_append, not_or]
  refine ⟨?_, integers.visible, fractions.visible, exponents.visible⟩
  rcases signs with rfl | rfl <;> decide

end Numbers

end DcCluster.Rapidjson

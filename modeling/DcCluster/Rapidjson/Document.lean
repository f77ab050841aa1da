import DcCluster.Rapidjson.RoundTrip

/-!
What `Parse` makes of one body: its strings are no longer than it is, nothing that follows
makes another document of it, and a comma before a closing brace is an error.
-/

namespace DcCluster.Rapidjson

open DcCluster.Lib DcCluster.Mq DcCluster.Server

theorem encode_length (codepoint : Nat) : (encode codepoint).length ≤ 4 := by
  unfold encode
  split
  next => simp
  next =>
    split
    next => simp
    next => split <;> simp

theorem CharText.length_le {source put : Text} (char : CharText source put) :
    put.length ≤ source.length := by
  cases char with
  | plain c printable noQuote noEscape => exact Nat.le_refl 1
  | short e c named => exact Nat.le_succ 1
  | unicode hex codepoint digits single =>
      have short := encode_length codepoint
      simp only [List.length_cons, digits.1]
      omega
  | surrogates hex hex2 codepoint codepoint2 digits digits2 lead trail =>
      have short := encode_length (pairOf codepoint codepoint2)
      simp only [List.length_cons, List.length_append, digits.1, digits2.1]
      omega

theorem CharsText.length_le {source put : Text} (chars : CharsText source put) :
    put.length ≤ source.length := by
  induction chars with
  | nil => exact Nat.le_refl 0
  | cons char chars ih =>
      have short := char.length_le
      simp only [List.length_append]
      omega

theorem StringText.length_le {text value : Text} (string : StringText text value) :
    value.length ≤ text.length := by
  obtain ⟨body, rfl, chars⟩ := string
  have short := chars.length_le
  simp only [List.length_cons, List.length_append]
  omega

section Parse

variable {tooBig : Text → Bool}

theorem Derives.string_length {text value : Text}
    (derived : Derives tooBig (.value (.string value)) text) : value.length ≤ text.length := by
  cases derived with
  | string quoted => exact quoted.length_le

theorem Derives.member_length {shape : Shape} {text : Text}
    (derived : Derives tooBig shape text) : ∀ members name value, shape = .members members →
      (name, Json.string value) ∈ members → value.length ≤ text.length := by
  induction derived with
  | member named first blanks ih =>
      intro members name value same member
      cases same
      cases List.mem_singleton.mp member
      have short := first.string_length
      simp only [List.length_append]
      omega
  | members named first blanks blanks2 others ih ih2 =>
      intro members name value same member
      cases same
      simp only [List.length_append, List.length_cons]
      rcases List.mem_cons.mp member with here | later
      · cases here
        have short := first.string_length
        omega
      · have short := ih2 _ _ _ rfl later
        omega
  | _ => intro members name value same; cases same

theorem Derives.object_members {text : Text} {members : List (Text × Json)}
    (derived : Derives tooBig (.value (.object members)) text) :
    members = [] ∨ ∃ body, body.length ≤ text.length ∧ Derives tooBig (.members members) body := by
  cases derived with
  | emptyObject blanks => exact Or.inl rfl
  | @object blank body members blanks inner =>
      refine Or.inr ⟨body, ?_, inner⟩
      simp only [List.length_cons, List.length_append]
      omega

theorem parse_member_length {source : Text} {members : List (Text × Json)} {name value : Text}
    (parsed : parse tooBig source = .ok (.object members))
    (found : lookup Prod.fst Prod.snd members name = some (.string value)) :
    value.length ≤ source.length := by
  have member : (name, Json.string value) ∈ members :=
    List.mem_of_find?_eq_some (find?_of_lookup found)
  obtain ⟨before, text, after, split, -, derived, -⟩ := (parse_eq_ok_iff _ _ _).mp parsed
  have shorter : (cString source).length ≤ source.length :=
    (List.takeWhile_sublist _).length_le
  rw [split] at shorter
  simp only [List.length_append] at shorter
  rcases derived.object_members with rfl | ⟨body, inside, inner⟩
  · exact absurd member List.not_mem_nil
  · have short := inner.member_length _ _ _ rfl member
    omega

theorem of_parse_ok {source : Text} {root : Json} (parsed : parse tooBig source = .ok root) :
    ∃ left, parseValue tooBig (cString source).length ((cString source).dropWhile isBlank) =
      .ok (root, left) := by
  unfold parse parseRoot at parsed
  rw [skipWhitespace_run, peek_run] at parsed
  split at parsed
  next => cases parsed
  next =>
    cases read : parseValue tooBig (cString source).length
        ((cString source).dropWhile isBlank) with
    | error error =>
        rw [Decoder.bind_error read] at parsed
        cases parsed
    | ok result =>
        rw [Decoder.bind_ok read, skipWhitespace_run, peek_run] at parsed
        split at parsed
        next =>
          cases parsed
          exact ⟨result.2, rfl⟩
        next => cases parsed

theorem cString_append_of_mem {source : Text} (hidden : nul ∈ source) (rest : Text) :
    cString (source ++ rest) = cString source := by
  induction source with
  | nil => exact absurd hidden List.not_mem_nil
  | cons c more ih =>
      by_cases isNul : c = nul
      · simp [cString, isNul, nul]
      · have later := ih ((List.mem_cons.mp hidden).resolve_left (Ne.symm isNul))
        simp only [nul] at isNul
        simpa [cString, isNul] using later

/-- Nothing that follows a document makes another one of it. -/
theorem parse_unique {source rest : Text} {first second : Json}
    (parsed : parse tooBig source = .ok first)
    (extended : parse tooBig (source ++ rest) = .ok second) : first = second := by
  by_cases hidden : nul ∈ source
  · unfold parse at parsed extended
    rw [cString_append_of_mem hidden, parsed] at extended
    exact Except.ok.inj extended
  · obtain ⟨before, text, after, split, blanks, derived, -⟩ := (parse_eq_ok_iff _ _ _).mp parsed
    rw [(cString_eq_self_iff source).mpr hidden] at split
    have whole : cString (source ++ rest) = before ++ (text ++ (after ++ cString rest)) := by
      unfold cString
      rw [List.takeWhile_append_of_pos, split, List.append_assoc, List.append_assoc]
      intro c member
      simp only [ne_eq, decide_eq_true_eq]
      rintro rfl
      exact hidden member
    obtain ⟨left, read⟩ := of_parse_ok extended
    obtain ⟨c, more, same, unblank, -⟩ := derived.value_head rfl
    rw [whole, dropWhile_blanks blanks (by rw [same]; exact unblank)] at read
    have size : (before ++ (text ++ (after ++ cString rest))).length =
        (before.length + more.length + after.length + (cString rest).length) + 1 := by
      rw [same]
      simp only [List.length_append, List.length_cons]
      omega
    rw [size] at read
    by_cases isNumber : first = .number
    · subst isNumber
      obtain ⟨c, more, rfl, head⟩ := (derived.number_text rfl).head
      rw [List.cons_append, parseValue_number head] at read
      exact (parseNumber_ok tooBig read).1.symm
    · have settled := parseValue_settled (parseValue_complete _) (by
        rw [← size]
        simp only [List.length_append]
        omega) derived isNumber (after ++ cString rest)
      rw [settled] at read
      cases read
      rfl

section Comma

variable {value : GenericReader Json} {size : Nat} (sound : Sound tooBig value)
variable (complete : Complete tooBig value size)

include sound complete

/-- The members before a comma are read, and the loop goes on after it. -/
theorem members_comma {shape : Shape} {body : Text} (derived : Derives tooBig shape body) :
    ∀ values, shape = .members values → body.length ≤ size →
      ∀ (members : List (Text × Json)) (before tail : Text), Blanks before → Ends isBlank tail →
        Decoder.loop .objectMissName (memberTurn value) members (body ++ ',' :: (before ++ tail)) =
          Decoder.loop .objectMissName (memberTurn value) (members ++ values) tail := by
  have advances := advances_memberTurn sound
  induction derived with
  | @member label text after name member named first blanks ih =>
      intro values same short members before tail blanks2 follows
      cases same
      obtain ⟨quoted, gap, blank, rfl, string, blanks3, blanks4⟩ := named
      simp only [List.length_append] at short
      have turn := memberValue_again complete first (by omega) blanks blanks2 blanks4 members name
        tail follows
      rw [Decoder.loop_eq advances]
      simp only [List.append_assoc, List.cons_append] at turn ⊢
      rw [Decoder.bind_ok ((memberTurn_label string blanks3 members _).trans turn)]
  | @members label text after gap more name member values named first blanks blanks2 others ih
      ih2 =>
      intro all same short members before tail blanks3 follows
      cases same
      obtain ⟨quoted, inner, blank, rfl, string, blanks4, blanks5⟩ := named
      simp only [List.length_append, List.length_cons] at short
      have later := ih2 values rfl (by omega) (members ++ [(name, member)]) before tail blanks3
        follows
      rw [List.append_assoc] at later
      have turn := memberValue_again complete first (by omega) blanks blanks2 blanks5 members name
        (more ++ ',' :: (before ++ tail)) (by
          obtain ⟨left, same⟩ := others.members_head
          rw [same]
          rfl)
      rw [Decoder.loop_eq advances]
      simp only [List.append_assoc, List.cons_append] at turn later ⊢
      rw [Decoder.bind_ok ((memberTurn_label string blanks4 members _).trans turn)]
      exact later
  | _ => intro values same; cases same

theorem parseObject_comma {blank body before : Text} {values : List (Text × Json)}
    (blanks : Blanks blank) (inner : Derives tooBig (.members values) body)
    (short : body.length ≤ size) (blanks2 : Blanks before) (tail : Text) :
    parseObject value ('\x7b' :: (blank ++ (body ++ ',' :: (before ++ '\x7d' :: tail)))) =
      .error .objectMissName := by
  have loops := members_comma sound complete inner values rfl short [] before ('\x7d' :: tail)
    blanks2 rfl
  have ended : Decoder.loop .objectMissName (memberTurn value) ([] ++ values) ('\x7d' :: tail) =
      .error .objectMissName := by
    rw [Decoder.loop_eq (advances_memberTurn sound)]
    rfl
  rw [ended] at loops
  obtain ⟨more, same⟩ := inner.members_head
  unfold parseObject
  rw [takeChar_run, List.tail_cons, skipWhitespace_run,
    dropWhile_blanks blanks (by rw [same]; rfl), consume_other _ (by rw [same]; exact quote_ne_brace),
    if_neg Bool.false_ne_true, Decoder.bind_error loops]

end Comma

theorem brace_ne_nul : '\x7b' ≠ nul := by decide

/-- An object whose last member is followed by a comma is refused, whatever comes after it. -/
theorem parse_trailingComma {source start blank body before tail : Text}
    {values : List (Text × Json)}
    (split : cString source =
      start ++ '\x7b' :: (blank ++ (body ++ ',' :: (before ++ '\x7d' :: tail))))
    (blanks : Blanks start) (blanks2 : Blanks blank) (blanks3 : Blanks before)
    (inner : Derives tooBig (.members values) body) :
    parse tooBig source = .error .objectMissName := by
  have size : (cString source).length = (start.length + blank.length + body.length +
      before.length + tail.length + 2) + 1 := by
    rw [split]
    simp only [List.length_append, List.length_cons]
    omega
  have object := parseObject_comma (parseValue_sound _)
    (@parseValue_complete tooBig (start.length + blank.length + body.length +
      before.length + tail.length + 2)) blanks2 inner (by omega) blanks3 tail
  have value : parseValue tooBig (cString source).length
      ('\x7b' :: (blank ++ (body ++ ',' :: (before ++ '\x7d' :: tail)))) =
        .error .objectMissName := by
    rw [size]
    exact object
  unfold parse parseRoot
  generalize (cString source).length = depth at value
  rw [split, skipWhitespace_run, dropWhile_blanks blanks rfl, peek_run, List.headD_cons,
    if_neg brace_ne_nul, Decoder.bind_error value]
  rfl

end Parse

end DcCluster.Rapidjson

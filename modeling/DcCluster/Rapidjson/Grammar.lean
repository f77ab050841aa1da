import Mathlib.Data.List.TakeWhile
import DcCluster.Rapidjson.Reader

/-!
The JSON texts, as a grammar of their own, and its strings and numbers against the
functions that read them.
-/

namespace DcCluster.Rapidjson

open DcCluster.Lib DcCluster.Mq DcCluster.Server

def Blanks (text : Text) : Prop := ∀ c ∈ text, isBlank c = true

instance (text : Text) : Decidable (Blanks text) := List.decidableBAll _ text

def hexValue : Nat → Text → Option Nat
  | codepoint, [] => some codepoint
  | codepoint, c :: more =>
      match hexDigit c with
      | some digit => hexValue (codepoint * 16 + digit) more
      | none => none

def HexText (hex : Text) (codepoint : Nat) : Prop :=
  hex.length = 4 ∧ hexValue 0 hex = some codepoint

/-- What can stand for a part of a string, and the bytes that it stands for. -/
inductive CharText : Text → Text → Prop
  | plain (c : Char) (printable : 0x20 ≤ c.toNat) (noQuote : c ≠ '"') (noEscape : c ≠ '\\') :
      CharText [c] [c]
  | short (e c : Char) (named : escape e = some c) : CharText ['\\', e] [c]
  | unicode (hex : Text) (codepoint : Nat) (digits : HexText hex codepoint)
      (single : isLeadSurrogate codepoint = false) :
      CharText ('\\' :: 'u' :: hex) (encode codepoint)
  | surrogates (hex hex2 : Text) (codepoint codepoint2 : Nat) (digits : HexText hex codepoint)
      (digits2 : HexText hex2 codepoint2) (lead : isLeadSurrogate codepoint = true)
      (trail : isTrailSurrogate codepoint2 = true) :
      CharText ('\\' :: 'u' :: (hex ++ '\\' :: 'u' :: hex2)) (encode (pairOf codepoint codepoint2))

inductive CharsText : Text → Text → Prop
  | nil : CharsText [] []
  | cons {first second put more : Text} (char : CharText first put)
      (chars : CharsText second more) : CharsText (first ++ second) (put ++ more)

def StringText (text value : Text) : Prop :=
  ∃ body, text = '"' :: (body ++ ['"']) ∧ CharsText body value

def LabelText (text name : Text) : Prop :=
  ∃ quoted before after, text = quoted ++ (before ++ ':' :: after) ∧ StringText quoted name ∧
    Blanks before ∧ Blanks after

/-- Digits that can follow `s`. -/
inductive DigitsText (refuses : Text → Bool) : Text → Text → Prop
  | nil (s : Text) : DigitsText refuses s []
  | cons {s more : Text} {c : Char} (digit : isDigit c = true) (fits : refuses (s ++ [c]) = false)
      (rest : DigitsText refuses (s ++ [c]) more) : DigitsText refuses s (c :: more)

section Numbers

variable (tooBig : Text → Bool)

def IntegerText (s text : Text) : Prop :=
  text = ['0'] ∨ ∃ c more, text = c :: more ∧ c ≠ '0' ∧ isDigit c = true ∧
    DigitsText tooBig (s ++ [c]) more

def ManyDigits (refuses : Text → Bool) (s text : Text) : Prop :=
  ∃ c more, text = c :: more ∧ isDigit c = true ∧ DigitsText refuses (s ++ [c]) more

def FractionText (s text : Text) : Prop :=
  text = [] ∨ ∃ more, text = '.' :: more ∧ ManyDigits noLimit (s ++ ['.']) more

def SignedText (s text : Text) : Prop :=
  (∃ power, text = '+' :: power ∧ ManyDigits tooBig (s ++ ['+']) power) ∨
    (∃ power, text = '-' :: power ∧ ManyDigits noLimit (s ++ ['-']) power) ∨
    ManyDigits tooBig s text

def ExponentText (s text : Text) : Prop :=
  text = [] ∨ ∃ e power, text = e :: power ∧ (e = 'e' ∨ e = 'E') ∧
    SignedText tooBig (s ++ [e]) power

def NumberText (text : Text) : Prop :=
  ∃ minus integer fraction exponent, text = minus ++ (integer ++ (fraction ++ exponent)) ∧
    (minus = [] ∨ minus = ['-']) ∧ IntegerText tooBig minus integer ∧
    FractionText (minus ++ integer) fraction ∧
    ExponentText tooBig (minus ++ integer ++ fraction) exponent

end Numbers

/-- What a part of a text is: a value, what is between brackets, or what is between braces. -/
inductive Shape
  | value (root : Json)
  | elements (elements : List Json)
  | members (members : List (Text × Json))

inductive Derives (tooBig : Text → Bool) : Shape → Text → Prop
  | nullLiteral : Derives tooBig (.value .null) ['n', 'u', 'l', 'l']
  | trueLiteral : Derives tooBig (.value (.bool true)) ['t', 'r', 'u', 'e']
  | falseLiteral : Derives tooBig (.value (.bool false)) ['f', 'a', 'l', 's', 'e']
  | number {text : Text} (digits : NumberText tooBig text) : Derives tooBig (.value .number) text
  | string {text value : Text} (quoted : StringText text value) :
      Derives tooBig (.value (.string value)) text
  | emptyArray {blank : Text} (blanks : Blanks blank) :
      Derives tooBig (.value (.array [])) ('[' :: (blank ++ [']']))
  | array {blank body : Text} {elements : List Json} (blanks : Blanks blank)
      (inner : Derives tooBig (.elements elements) body) :
      Derives tooBig (.value (.array elements)) ('[' :: (blank ++ (body ++ [']'])))
  | emptyObject {blank : Text} (blanks : Blanks blank) :
      Derives tooBig (.value (.object [])) ('\x7b' :: (blank ++ ['\x7d']))
  | object {blank body : Text} {members : List (Text × Json)} (blanks : Blanks blank)
      (inner : Derives tooBig (.members members) body) :
      Derives tooBig (.value (.object members)) ('\x7b' :: (blank ++ (body ++ ['\x7d'])))
  | element {text after : Text} {value : Json} (first : Derives tooBig (.value value) text)
      (blanks : Blanks after) : Derives tooBig (.elements [value]) (text ++ after)
  | elements {text after before more : Text} {value : Json} {values : List Json}
      (first : Derives tooBig (.value value) text) (blanks : Blanks after)
      (blanks2 : Blanks before) (others : Derives tooBig (.elements values) more) :
      Derives tooBig (.elements (value :: values)) (text ++ (after ++ ',' :: (before ++ more)))
  | member {label text after name : Text} {value : Json} (named : LabelText label name)
      (first : Derives tooBig (.value value) text) (blanks : Blanks after) :
      Derives tooBig (.members [(name, value)]) (label ++ (text ++ after))
  | members {label text after before more name : Text} {value : Json}
      {values : List (Text × Json)} (named : LabelText label name)
      (first : Derives tooBig (.value value) text) (blanks : Blanks after)
      (blanks2 : Blanks before) (others : Derives tooBig (.members values) more) :
      Derives tooBig (.members ((name, value) :: values))
        (label ++ (text ++ (after ++ ',' :: (before ++ more))))

def DocumentText (tooBig : Text → Bool) (text : Text) (root : Json) : Prop :=
  ∃ before value after, text = before ++ (value ++ after) ∧ Blanks before ∧
    Derives tooBig (.value root) value ∧ Blanks after

section Stream

variable {β : Type} (next : Char → GenericReader β) (is : Text)

@[simp] theorem peek_run : (peek >>= next) is = next (is.headD nul) is := rfl

@[simp] theorem takeChar_run : (takeChar >>= next) is = next (is.headD nul) is.tail := rfl

@[simp] theorem skipWhitespace_run (next : Unit → GenericReader β) (is : Text) :
    (skipWhitespace >>= next) is = next () (is.dropWhile isBlank) := rfl

theorem consume_run (next : Bool → GenericReader β) (expect : Char) (is : Text) :
    (consume expect >>= next) is =
      if is.headD nul = expect then next true is.tail else next false is := by
  by_cases head : is.headD nul = expect
  · rw [if_pos head]
    exact Decoder.bind_ok (if_pos head)
  · rw [if_neg head]
    exact Decoder.bind_ok (if_neg head)

theorem consume_self (next : Bool → GenericReader β) (expect : Char) (is : Text) :
    (consume expect >>= next) (expect :: is) = next true is :=
  Decoder.bind_ok (if_pos rfl)

theorem consume_other (next : Bool → GenericReader β) {expect : Char} {is : Text}
    (other : is.headD nul ≠ expect) : (consume expect >>= next) is = next false is :=
  Decoder.bind_ok (if_neg other)

theorem consume_cons_other (next : Bool → GenericReader β) {expect c : Char}
    (other : c ≠ expect) (is : Text) :
    (consume expect >>= next) (c :: is) = next false (c :: is) :=
  consume_other next other

end Stream

theorem eq_cons_of_headD {is : Text} {c : Char} (head : is.headD nul = c) (visible : c ≠ nul) :
    is = c :: is.tail := by
  cases is with
  | nil => exact absurd head.symm visible
  | cons first rest =>
      subst head
      rfl

theorem dropWhile_blanks {blank rest : Text} (blanks : Blanks blank)
    (stops : isBlank (rest.headD nul) = false) : (blank ++ rest).dropWhile isBlank = rest := by
  induction blank with
  | nil =>
      cases rest with
      | nil => rfl
      | cons c more => exact List.dropWhile_cons_of_neg (by simpa using stops)
  | cons c more ih =>
      have first : isBlank c = true := blanks c List.mem_cons_self
      rw [List.cons_append, List.dropWhile_cons_of_pos first]
      exact ih fun other member => blanks other (List.mem_cons_of_mem c member)

theorem exists_blanks (is : Text) :
    ∃ blank, is = blank ++ is.dropWhile isBlank ∧ Blanks blank :=
  ⟨is.takeWhile isBlank, List.takeWhile_append_dropWhile.symm,
    fun _ member => List.mem_takeWhile_imp member⟩

theorem consumeAll_run {β : Type} (next : Bool → GenericReader β) (expects : List Char)
    (is : Text) : (consumeAll expects >>= next) (expects ++ is) = next true is := by
  induction expects with
  | nil => rfl
  | cons expect more ih =>
      unfold consumeAll
      rw [Decoder.bind_assoc, List.cons_append, consume_self]
      exact ih

theorem consumeAll_ok {expects : List Char} (visible : nul ∉ expects) {is rest : Text}
    (read : consumeAll expects is = .ok (true, rest)) : is = expects ++ rest := by
  induction expects generalizing is with
  | nil =>
      cases read
      rfl
  | cons expect more ih =>
      rw [List.mem_cons, not_or] at visible
      unfold consumeAll at read
      rw [consume_run] at read
      split at read
      next head =>
        rw [eq_cons_of_headD head (Ne.symm visible.1), List.cons_append]
        exact congrArg (expect :: ·) (ih visible.2 read)
      next => cases read

theorem hexDigits_ok {count codepoint total : Nat} {is rest : Text}
    (read : hexDigits count codepoint is = .ok (total, rest)) :
    ∃ hex, is = hex ++ rest ∧ hex.length = count ∧ hexValue codepoint hex = some total := by
  induction count generalizing codepoint is with
  | zero =>
      cases read
      exact ⟨[], rfl, rfl, rfl⟩
  | succ count ih =>
      unfold hexDigits at read
      rw [peek_run] at read
      cases digit : hexDigit (is.headD nul) with
      | none =>
          rw [digit] at read
          cases read
      | some value =>
          rw [digit] at read
          obtain ⟨hex, split, length, more⟩ := ih read
          cases is with
          | nil => cases digit
          | cons c left =>
              refine ⟨c :: hex, congrArg (c :: ·) split, congrArg (· + 1) length, ?_⟩
              unfold hexValue
              rw [show hexDigit c = some value from digit]
              exact more

theorem hexDigits_decodes {count codepoint total : Nat} {hex : Text} (length : hex.length = count)
    (value : hexValue codepoint hex = some total) :
    Decodes (hexDigits count codepoint) hex total := by
  intro rest
  induction hex generalizing count codepoint with
  | nil =>
      subst length
      cases value
      rfl
  | cons c more ih =>
      subst length
      unfold hexValue at value
      rw [List.length_cons, hexDigits, List.cons_append, peek_run]
      cases digit : hexDigit c with
      | none =>
          rw [digit] at value
          cases value
      | some low =>
          rw [digit] at value
          dsimp only [List.headD_cons]
          rw [digit]
          exact ih rfl value

theorem parseHex4_ok {is rest : Text} {codepoint : Nat}
    (read : parseHex4 is = .ok (codepoint, rest)) :
    ∃ hex, is = hex ++ rest ∧ HexText hex codepoint := by
  obtain ⟨hex, split, length, value⟩ := hexDigits_ok read
  exact ⟨hex, split, length, value⟩

theorem parseHex4_decodes {hex : Text} {codepoint : Nat} (digits : HexText hex codepoint) :
    Decodes parseHex4 hex codepoint :=
  hexDigits_decodes digits.1 digits.2

theorem parseTrail_ok {codepoint : Nat} {is rest put : Text}
    (read : parseTrail codepoint is = .ok (put, rest)) :
    ∃ hex2 codepoint2, is = '\\' :: 'u' :: (hex2 ++ rest) ∧ HexText hex2 codepoint2 ∧
      isTrailSurrogate codepoint2 = true ∧ put = encode (pairOf codepoint codepoint2) := by
  obtain ⟨paired, middle, intro, follows⟩ := Decoder.of_bind_ok read
  cases paired with
  | false => cases follows
  | true =>
      have begins := consumeAll_ok (by decide) intro
      subst begins
      rw [if_pos rfl] at follows
      obtain ⟨codepoint2, last, hex4, ends⟩ := Decoder.of_bind_ok follows
      obtain ⟨hex2, taken, digits2⟩ := parseHex4_ok hex4
      split at ends
      next trail =>
        obtain ⟨put_eq, rest_eq⟩ := Prod.mk.inj (Except.ok.inj ends)
        rw [taken, rest_eq]
        exact ⟨hex2, codepoint2, rfl, digits2, trail, put_eq.symm⟩
      next => cases ends

theorem parseTrail_decodes {hex2 : Text} {codepoint2 : Nat} (digits2 : HexText hex2 codepoint2)
    (trail : isTrailSurrogate codepoint2 = true) (codepoint : Nat) :
    Decodes (parseTrail codepoint) ('\\' :: 'u' :: hex2)
      (encode (pairOf codepoint codepoint2)) := by
  intro rest
  refine (consumeAll_run _ ['\\', 'u'] (hex2 ++ rest)).trans ?_
  rw [if_pos rfl, Decoder.bind_ok (parseHex4_decodes digits2 rest), if_pos trail]
  rfl

theorem parseUnicode_ok {is rest put : Text} (read : parseUnicode is = .ok (put, rest)) :
    ∃ source, is = source ++ rest ∧ CharText ('\\' :: 'u' :: source) put := by
  obtain ⟨codepoint, after, hex4, follows⟩ := Decoder.of_bind_ok read
  obtain ⟨hex, split, digits⟩ := parseHex4_ok hex4
  subst split
  split at follows
  next lead =>
    obtain ⟨hex2, codepoint2, begins, digits2, trail, encoded⟩ := parseTrail_ok follows
    refine ⟨hex ++ '\\' :: 'u' :: hex2, ?_, ?_⟩
    · rw [begins, List.append_assoc, List.cons_append, List.cons_append]
    · rw [encoded]
      exact CharText.surrogates hex hex2 codepoint codepoint2 digits digits2 lead trail
  next single =>
    obtain ⟨put_eq, rest_eq⟩ := Prod.mk.inj (Except.ok.inj follows)
    refine ⟨hex, congrArg (hex ++ ·) rest_eq, ?_⟩
    rw [← put_eq]
    exact CharText.unicode hex codepoint digits (by simpa using single)

theorem parseUnicode_single {hex : Text} {codepoint : Nat} (digits : HexText hex codepoint)
    (single : isLeadSurrogate codepoint = false) : Decodes parseUnicode hex (encode codepoint) := by
  have notLead : ¬ isLeadSurrogate codepoint = true := by
    rw [single]
    exact Bool.false_ne_true
  intro rest
  rw [parseUnicode, Decoder.bind_ok (parseHex4_decodes digits rest), if_neg notLead]
  rfl

theorem parseUnicode_pair {hex hex2 : Text} {codepoint codepoint2 : Nat}
    (digits : HexText hex codepoint) (digits2 : HexText hex2 codepoint2)
    (lead : isLeadSurrogate codepoint = true) (trail : isTrailSurrogate codepoint2 = true) :
    Decodes parseUnicode (hex ++ '\\' :: 'u' :: hex2) (encode (pairOf codepoint codepoint2)) := by
  refine (parseHex4_decodes digits).bind ?_
  rw [if_pos lead]
  exact parseTrail_decodes digits2 trail codepoint

theorem parseEscape_named {e c : Char} (named : escape e = some c) (left : Text) :
    parseEscape (e :: left) = .ok ([c], left) := by
  unfold parseEscape
  rw [takeChar_run]
  simp only [List.headD_cons, named]
  rfl

theorem parseEscape_unnamed {e : Char} (unnamed : escape e = none) (left : Text) :
    parseEscape (e :: left) =
      (if e = 'u' then parseUnicode else Decoder.fail .stringEscapeInvalid) left := by
  unfold parseEscape
  rw [takeChar_run]
  simp only [List.headD_cons, unnamed, List.tail_cons]
  rfl

theorem parseEscape_ok {is rest put : Text} (read : parseEscape is = .ok (put, rest)) :
    ∃ source, is = source ++ rest ∧ CharText ('\\' :: source) put := by
  cases is with
  | nil => cases read
  | cons e left =>
      cases named : escape e with
      | some c =>
          rw [parseEscape_named named] at read
          cases read
          exact ⟨[e], rfl, CharText.short e c named⟩
      | none =>
          rw [parseEscape_unnamed named] at read
          by_cases unicode : e = 'u'
          · subst unicode
            obtain ⟨source, split, char⟩ := parseUnicode_ok read
            exact ⟨'u' :: source, congrArg ('u' :: ·) split, char⟩
          · rw [if_neg unicode] at read
            cases read

theorem parseEscape_unicode {source put : Text} (reads : Decodes parseUnicode source put) :
    Decodes parseEscape ('u' :: source) put :=
  reads

theorem parseEscape_short {e c : Char} (named : escape e = some c) :
    Decodes parseEscape [e] [c] :=
  fun rest => parseEscape_named named rest

theorem stringTurn_escape {source put : Text} (reads : Decodes parseEscape source put)
    (os : Text) : Decodes (stringTurn os) ('\\' :: source) (.again (os ++ put)) :=
  reads.bind_pure fun put => Turn.again (os ++ put)

theorem stringTurn_plain {c : Char} (printable : 0x20 ≤ c.toNat) (noQuote : c ≠ '"')
    (noEscape : c ≠ '\\') (os : Text) : Decodes (stringTurn os) [c] (.again (os ++ [c])) := by
  intro rest
  unfold stringTurn
  rw [List.cons_append, peek_run, List.headD_cons, if_neg noEscape, if_neg noQuote,
    if_neg (by omega)]
  rfl

theorem stringTurn_quote (os : Text) : Decodes (stringTurn os) ['"'] (.done os) := fun _ => rfl

theorem stringTurn_decodes {source put : Text} (char : CharText source put) (os : Text) :
    Decodes (stringTurn os) source (.again (os ++ put)) := by
  cases char with
  | plain c printable noQuote noEscape => exact stringTurn_plain printable noQuote noEscape os
  | short e c named => exact stringTurn_escape (parseEscape_short named) os
  | unicode hex codepoint digits single =>
      exact stringTurn_escape (parseEscape_unicode (parseUnicode_single digits single)) os
  | surrogates hex hex2 codepoint codepoint2 digits digits2 lead trail =>
      exact stringTurn_escape
        (parseEscape_unicode (parseUnicode_pair digits digits2 lead trail)) os

/-- A turn takes one part of a string, or the quote that closes it. -/
theorem stringTurn_ok {os is rest : Text} {ended : Turn Text}
    (read : stringTurn os is = .ok (ended, rest)) :
    (ended = .done os ∧ is = '"' :: rest) ∨
      ∃ source put, ended = .again (os ++ put) ∧ is = source ++ rest ∧ CharText source put := by
  cases is with
  | nil => cases read
  | cons c left =>
      unfold stringTurn at read
      rw [peek_run, List.headD_cons] at read
      split at read
      next backslash =>
        subst backslash
        right
        rw [takeChar_run] at read
        obtain ⟨put, last, escaped, ends⟩ := Decoder.of_bind_ok read
        obtain ⟨source, split, char⟩ := parseEscape_ok escaped
        cases ends
        exact ⟨'\\' :: source, put, rfl, congrArg ('\\' :: ·) split, char⟩
      next noEscape =>
        split at read
        next quote =>
          subst quote
          cases read
          exact Or.inl ⟨rfl, rfl⟩
        next noQuote =>
          split at read
          next =>
            split at read
            next => cases read
            next => cases read
          next printable =>
            cases read
            exact Or.inr ⟨[c], [c], rfl, rfl, CharText.plain c (by omega) noQuote noEscape⟩

theorem CharText.nonempty {source put : Text} (char : CharText source put) : source ≠ [] := by
  cases char <;> exact List.cons_ne_nil _ _

theorem advances_stringTurn : Advances stringTurn := by
  intro os is next rest read
  rcases stringTurn_ok read with ⟨ended, _⟩ | ⟨source, put, _, split, char⟩
  · cases ended
  · have taken := List.length_pos_iff.mpr char.nonempty
    rw [split, List.length_append]
    omega

theorem parseString_decodes {text value : Text} (string : StringText text value) :
    Decodes parseString text value := by
  obtain ⟨body, quoted, chars⟩ := string
  subst quoted
  suffices loops : ∀ os, Decodes (Decoder.loop .stringMissQuotationMark stringTurn os)
      (body ++ ['"']) (os ++ value) from loops []
  induction chars with
  | nil =>
      intro os
      rw [List.append_nil]
      exact Decodes.loop_break advances_stringTurn (stringTurn_quote os)
  | cons char chars ih =>
      intro os
      rw [List.append_assoc, ← List.append_assoc os]
      exact Decodes.loop advances_stringTurn (stringTurn_decodes char os) (ih _)

theorem parseString_ok {is rest value : Text} (begins : is.headD nul = '"')
    (read : parseString is = .ok (value, rest)) :
    ∃ text, is = text ++ rest ∧ StringText text value := by
  have quote := eq_cons_of_headD begins (by decide)
  suffices loops : ∃ body put, is.tail = body ++ '"' :: rest ∧ value = [] ++ put ∧
      CharsText body put by
    obtain ⟨body, put, split, same, chars⟩ := loops
    subst same
    refine ⟨'"' :: (body ++ ['"']), ?_, body, rfl, chars⟩
    rw [quote, split, List.cons_append, List.append_assoc]
    rfl
  refine Decoder.loop_induction (motive := fun os is value rest => ∃ body put,
    is = body ++ '"' :: rest ∧ value = os ++ put ∧ CharsText body put) ?_ ?_ read
  · intro os is last rest turn
    rcases stringTurn_ok turn with ⟨ended, split⟩ | ⟨source, put, ended, _, _⟩
    · cases ended
      exact ⟨[], [], split, (List.append_nil os).symm, CharsText.nil⟩
    · cases ended
  · intro os is next left last rest turn later
    rcases stringTurn_ok turn with ⟨ended, _⟩ | ⟨source, put, ended, split, char⟩
    · cases ended
    · cases ended
      obtain ⟨body, more, begins, same, chars⟩ := later
      subst split begins same
      exact ⟨source ++ body, put ++ more, (List.append_assoc ..).symm, List.append_assoc ..,
        CharsText.cons char chars⟩

theorem hexValue_visible {hex : Text} {codepoint total : Nat}
    (value : hexValue codepoint hex = some total) : nul ∉ hex := by
  induction hex generalizing codepoint with
  | nil => exact List.not_mem_nil
  | cons c more ih =>
      unfold hexValue at value
      cases digit : hexDigit c with
      | none =>
          rw [digit] at value
          cases value
      | some low =>
          rw [digit] at value
          rw [List.mem_cons, not_or]
          refine ⟨?_, ih value⟩
          rintro rfl
          cases digit

theorem CharText.visible {source put : Text} (char : CharText source put) : nul ∉ source := by
  cases char with
  | plain c printable noQuote noEscape =>
      rw [List.mem_singleton]
      rintro rfl
      exact absurd printable (by decide)
  | short e c named =>
      have shown : e ≠ nul := by
        rintro rfl
        cases named
      simpa [nul] using shown.symm
  | unicode hex codepoint digits single => simpa [nul] using hexValue_visible digits.2
  | surrogates hex hex2 codepoint codepoint2 digits digits2 lead trail =>
      have first := hexValue_visible digits.2
      have second := hexValue_visible digits2.2
      simp only [nul] at first second
      simp [nul, first, second]

theorem StringText.visible {text value : Text} (string : StringText text value) : nul ∉ text := by
  obtain ⟨body, rfl, chars⟩ := string
  have inside : nul ∉ body := by
    induction chars with
    | nil => exact List.not_mem_nil
    | cons char chars ih =>
        rw [List.mem_append, not_or]
        exact ⟨char.visible, ih⟩
  simpa [nul] using inside

theorem Blanks.visible {blank : Text} (blanks : Blanks blank) : nul ∉ blank := by
  intro member
  exact absurd (blanks nul member) (by decide)

end DcCluster.Rapidjson

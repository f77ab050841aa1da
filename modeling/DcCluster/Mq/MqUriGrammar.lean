import DcCluster.Mq.MqUri
import Mathlib.Data.List.Infix

/-!
The grammar that `MqMgr::ParseMqUri` accepts. In a string shorter than 2^31 every
position fits in an `int`, so the three searches split the string where they stop.
-/

namespace DcCluster.Mq

open DcCluster.Lib

/-- The pattern stands in the text at this position, and nowhere before. -/
def FirstAt (pattern text : Text) (pos : Nat) : Prop :=
  pattern <+: text.drop pos ∧ ∀ earlier, earlier < pos → ¬ pattern <+: text.drop earlier

theorem FirstAt.unique {pattern text : Text} {pos other : Nat} (first : FirstAt pattern text pos)
    (alsoFirst : FirstAt pattern text other) : pos = other := by
  rcases Nat.lt_trichotomy pos other with before | same | behind
  · exact absurd first.1 (alsoFirst.2 pos before)
  · exact same
  · exact absurd alsoFirst.1 (first.2 other behind)

theorem FirstAt.split {pattern text : Text} {pos : Nat} (first : FirstAt pattern text pos)
    (nonempty : pattern ≠ []) :
    ∃ before after, text = before ++ pattern ++ after ∧ before.length = pos := by
  obtain ⟨after, follows⟩ := first.1
  have inside : pos ≤ text.length := by
    by_contra outside
    rw [List.drop_of_length_le (by omega)] at follows
    exact nonempty (List.append_eq_nil_iff.mp follows).1
  refine ⟨text.take pos, after, ?_, List.length_take_of_le inside⟩
  rw [List.append_assoc, follows, List.take_append_drop]

theorem firstAt_char {char : Char} {before after : Text} (absent : char ∉ before) :
    FirstAt [char] (before ++ char :: after) before.length := by
  refine ⟨by simp, fun earlier lower occurs => ?_⟩
  rw [List.drop_append_of_le_length (by omega)] at occurs
  obtain ⟨head, tail, rest⟩ := List.exists_cons_of_ne_nil
    (List.ne_nil_of_length_pos (l := before.drop earlier) (by simp; omega))
  rw [rest, List.cons_append, List.cons_prefix_cons] at occurs
  have member : head ∈ before.drop earlier := by simp [rest]
  exact absent (occurs.1 ▸ List.mem_of_mem_drop member)

theorem findIn_spec {pattern : Text} (nonempty : pattern ≠ []) (text : Text) (offset : Nat) :
    (∃ pos, findIn pattern text offset = some (offset + pos) ∧ FirstAt pattern text pos) ∨
      findIn pattern text offset = none ∧ ∀ pos, ¬ pattern <+: text.drop pos := by
  induction text generalizing offset with
  | nil =>
      refine .inr ⟨by simp [findIn, nonempty], fun pos => ?_⟩
      simpa using nonempty
  | cons char rest ih =>
      by_cases here : pattern.isPrefixOf (char :: rest) = true
      · refine .inl ⟨0, by simp [findIn, here], ?_, fun earlier lower => absurd lower (by omega)⟩
        simpa using List.isPrefixOf_iff_prefix.mp here
      · have notHere : ¬ pattern <+: char :: rest := fun occurs =>
          here (List.isPrefixOf_iff_prefix.mpr occurs)
        rcases ih (offset + 1) with ⟨pos, found, first⟩ | ⟨missing, nowhere⟩
        · refine .inl ⟨pos + 1, by simp [findIn, here, found]; omega, ?_, ?_⟩
          · simpa using first.1
          · intro earlier lower
            cases earlier with
            | zero => simpa using notHere
            | succ earlier => simpa using first.2 earlier (by omega)
        · refine .inr ⟨by simp [findIn, here, missing], fun pos => ?_⟩
          cases pos with
          | zero => simpa using notHere
          | succ pos => simpa using nowhere pos

theorem find_first {pattern text : Text} {pos after : Nat} (nonempty : pattern ≠ [])
    (inside : pos ≤ text.length) (first : FirstAt pattern (text.drop pos) after) :
    find text pattern pos = pos + after := by
  rcases findIn_spec nonempty (text.drop pos) pos with ⟨other, found, alsoFirst⟩ | ⟨_, nowhere⟩
  · simp [find, inside, found, first.unique alsoFirst]
  · exact absurd first.1 (nowhere after)

theorem find_missing {pattern text : Text} {pos : Nat} (nonempty : pattern ≠ [])
    (missing : ∀ after, ¬ pattern <+: (text.drop pos).drop after) :
    find text pattern pos = npos := by
  rcases findIn_spec nonempty (text.drop pos) pos with ⟨after, _, first⟩ | ⟨nothing, _⟩
  · exact absurd first.1 (missing after)
  · simp [find, nothing]

theorem toSize_toInt_npos : toSize (toInt npos) = npos := by decide

theorem toSize_ofNat {size : Nat} (fits : size ≤ intMax) : toSize (size : Int) = size := by
  simp only [toSize, intMax] at *
  omega

theorem wrapInt_ofNat {size : Nat} (fits : size ≤ intMax) : wrapInt (size : Int) = size := by
  simp only [wrapInt, intMax] at *
  omega

theorem toSize_ne_npos {size : Nat} (fits : size ≤ intMax) : toSize (size : Int) ≠ npos := by
  rw [toSize_ofNat fits]
  simp only [intMax, npos] at *
  omega

section Parts

variable {strMqUri : Text}

/-- The next `'/'` behind a position splits what follows it there. -/
theorem find_slash {pos : Nat} {before after : Text} (fits : strMqUri.length ≤ intMax)
    (follows : strMqUri.drop pos = before ++ '/' :: after) (absent : '/' ∉ before) :
    toInt (find strMqUri ['/'] pos) = (pos + before.length : Nat) ∧
      pos + before.length + 1 ≤ strMqUri.length ∧
      strMqUri.drop (pos + before.length + 1) = after := by
  have length := congrArg List.length follows
  simp only [List.length_drop, List.length_append, List.length_cons] at length
  have found : find strMqUri ['/'] pos = pos + before.length :=
    find_first (by simp) (by omega) (follows ▸ firstAt_char absent)
  refine ⟨by rw [found, toInt_of_fits (by omega)], by omega, ?_⟩
  rw [Nat.add_assoc, ← List.drop_drop, follows, ← List.drop_drop, List.drop_left, List.drop_one,
    List.tail_cons]

theorem find_no_slash {pos : Nat} (absent : '/' ∉ strMqUri.drop pos) :
    find strMqUri ['/'] pos = npos := by
  refine find_missing (by simp) fun after occurs => absent ?_
  have member : '/' ∈ (strMqUri.drop pos).drop after := occurs.subset (by simp)
  exact List.mem_of_mem_drop member

theorem substr_between {pos : Nat} {before after : Text} (fits : strMqUri.length ≤ intMax)
    (follows : strMqUri.drop pos = before ++ '/' :: after) :
    substr strMqUri pos
      (toSize (wrapInt (((pos + before.length : Nat) : Int) - (pos : Nat)))) = some before := by
  have length := congrArg List.length follows
  simp only [List.length_drop, List.length_append, List.length_cons] at length
  have distance : ((pos + before.length : Nat) : Int) - (pos : Nat) = (before.length : Nat) := by
    omega
  rw [distance, wrapInt_ofNat (by omega), toSize_ofNat (by omega), substr, if_pos (by omega),
    follows, List.take_left]

theorem parseDst_eq {strMQSvr dst : Text} {nType : MqMsgMode} {pos : Nat}
    (fits : strMqUri.length ≤ intMax) (inside : pos ≤ strMqUri.length)
    (rest : strMqUri.drop pos = dst) :
    parseDst strMqUri strMQSvr nType (pos : Nat) =
      if dst.isEmpty then .fail else .ok strMQSvr dst nType := by
  have whole : dst.take npos = dst := by
    refine List.take_of_length_le ?_
    have length := congrArg List.length rest
    simp only [List.length_drop] at length
    simp only [intMax, npos] at *
    omega
  rw [parseDst, toSize_ofNat (by omega), substr, if_pos inside, rest, whole]

theorem parseMode_eq {strMQSvr word dst : Text} {pos : Nat} (fits : strMqUri.length ≤ intMax)
    (follows : strMqUri.drop pos = word ++ '/' :: dst) (absent : '/' ∉ word) :
    parseMode strMqUri strMQSvr (pos : Nat) =
      match modeOf word with
      | none => .fail
      | some nType => if dst.isEmpty then .fail else .ok strMQSvr dst nType := by
  obtain ⟨slash, inside, rest⟩ := find_slash fits follows absent
  have here : pos ≤ intMax := by omega
  have apart : toSize ((pos + word.length : Nat) : Int) ≠ npos := toSize_ne_npos (by omega)
  have next : wrapInt (((pos + word.length : Nat) : Int) + 1) =
      ((pos + word.length + 1 : Nat) : Int) := by
    rw [← Int.natCast_succ, wrapInt_ofNat (by omega)]
  simp only [parseMode, toSize_ofNat here, slash, apart, ↓reduceIte,
    substr_between fits follows, next]
  cases modeOf word with
  | none => rfl
  | some nType => exact parseDst_eq fits inside rest

theorem parseMode_no_slash {strMQSvr : Text} {pos : Nat} (here : pos ≤ intMax)
    (absent : '/' ∉ strMqUri.drop pos) : parseMode strMqUri strMQSvr (pos : Nat) = .fail := by
  simp only [parseMode, toSize_ofNat here, find_no_slash absent, toSize_toInt_npos, ↓reduceIte]

end Parts

def mqSlash : Text := ['m', 'q', '/']

section Uri

variable {strMqUri : Text}

/-- The server part is split off behind the first `"mq/"`. -/
theorem parseMqUri_eq {before rest : Text} (fits : strMqUri.length ≤ intMax)
    (split : strMqUri = before ++ mqSlash ++ rest)
    (first : FirstAt mqSlash strMqUri before.length) :
    ('/' ∉ rest → parseMqUri strMqUri = .fail) ∧
      ∀ svr after, rest = svr ++ '/' :: after → '/' ∉ svr →
        parseMqUri strMqUri =
          parseMode strMqUri svr ((before.length + 3 + svr.length + 1 : Nat) : Int) := by
  have length := congrArg List.length split
  simp only [List.length_append, mqSlash, List.length_cons, List.length_nil] at length
  have follows : strMqUri.drop (before.length + 3) = rest := by
    have whole : (before ++ mqSlash).length = before.length + 3 := by simp [mqSlash]
    rw [split, ← whole, List.drop_left]
  have found : find strMqUri mqSlash 0 = before.length := by
    have fromStart : FirstAt mqSlash (strMqUri.drop 0) before.length := by simpa using first
    rw [find_first (by simp [mqSlash]) (Nat.zero_le _) fromStart, Nat.zero_add]
  have apart : toSize ((before.length : Nat) : Int) ≠ npos := toSize_ne_npos (by omega)
  have current : wrapInt ((before.length : Int) + 3) = ((before.length + 3 : Nat) : Int) := by
    rw [show (before.length : Int) + 3 = ((before.length + 3 : Nat) : Int) by omega,
      wrapInt_ofNat (by omega)]
  have here : toSize ((before.length + 3 : Nat) : Int) = before.length + 3 :=
    toSize_ofNat (by omega)
  have start : toInt (find strMqUri ['m', 'q', '/'] 0) = before.length := by
    rw [← mqSlash, found, toInt_of_fits (by omega)]
  constructor
  · intro absent
    have missing : find strMqUri ['/'] (before.length + 3) = npos :=
      find_no_slash (follows ▸ absent)
    simp only [parseMqUri, start, apart, ↓reduceIte, current, here, missing, toSize_toInt_npos]
  · intro svr after server absent
    obtain ⟨slash, inside, _⟩ := find_slash fits (follows.trans server) absent
    have apartSlash : toSize ((before.length + 3 + svr.length : Nat) : Int) ≠ npos :=
      toSize_ne_npos (by omega)
    have next : wrapInt (((before.length + 3 + svr.length : Nat) : Int) + 1) =
        ((before.length + 3 + svr.length + 1 : Nat) : Int) := by
      rw [← Int.natCast_succ, wrapInt_ofNat (by omega)]
    simp only [parseMqUri, start, apart, ↓reduceIte, current, here, slash, apartSlash,
      substr_between fits (follows.trans server), next]

theorem parseMqUri_missing (absent : ∀ pos, ¬ mqSlash <+: strMqUri.drop pos) :
    parseMqUri strMqUri = .fail := by
  have missing : find strMqUri ['m', 'q', '/'] 0 = npos :=
    find_missing (by simp) (by simpa [mqSlash] using absent)
  simp only [parseMqUri, missing, toSize_toInt_npos, ↓reduceIte]

end Uri

theorem modeOf_eq_some {word : Text} {mode : MqMsgMode} :
    modeOf word = some mode ↔
      word = ['q', 'u', 'e', 'u', 'e'] ∧ mode = .queue ∨
        word = ['t', 'o', 'p', 'i', 'c'] ∧ mode = .topic := by
  unfold modeOf
  split
  · next queue => simp [queue, eq_comm]
  · next notQueue =>
      split
      · next topic => simp [topic, eq_comm]
      · next notTopic => simp [notQueue, notTopic]

theorem slash_not_mem_of_modeOf {word : Text} {mode : MqMsgMode} (known : modeOf word = some mode) :
    '/' ∉ word := by
  rcases modeOf_eq_some.mp known with ⟨rfl, _⟩ | ⟨rfl, _⟩ <;> decide

/-- The strings that are URIs of a destination: anything up to the first `"mq/"`, the
server, the mode and the name. -/
structure MqUri (strMqUri svr dst : Text) (mode : MqMsgMode) (before word : Text) : Prop where
  parts : strMqUri = before ++ mqSlash ++ svr ++ '/' :: word ++ '/' :: dst
  first : FirstAt mqSlash strMqUri before.length
  server : '/' ∉ svr
  known : word = ['q', 'u', 'e', 'u', 'e'] ∧ mode = .queue ∨
    word = ['t', 'o', 'p', 'i', 'c'] ∧ mode = .topic
  named : dst ≠ []

theorem parseMqUri_of_mqUri {strMqUri svr dst before word : Text} {mode : MqMsgMode}
    (fits : strMqUri.length ≤ intMax) (uri : MqUri strMqUri svr dst mode before word) :
    parseMqUri strMqUri = .ok svr dst mode := by
  obtain ⟨parts, first, server, known, named⟩ := uri
  have split : strMqUri = before ++ mqSlash ++ (svr ++ '/' :: (word ++ '/' :: dst)) := by
    simp [parts]
  have mode' : modeOf word = some mode := modeOf_eq_some.mpr known
  have behind : strMqUri.drop (before.length + 3 + svr.length + 1) = word ++ '/' :: dst := by
    have whole : (before ++ mqSlash ++ svr ++ ['/']).length = before.length + 3 + svr.length + 1 := by
      simp only [mqSlash, List.length_append, List.length_cons, List.length_nil]
    rw [← whole, parts]
    simp
  rw [(parseMqUri_eq fits split first).2 svr _ rfl server,
    parseMode_eq fits behind (slash_not_mem_of_modeOf mode'), mode']
  simp [named]

/-- No string that short makes a `substr` throw. -/
theorem parseMqUri_cases {strMqUri : Text} (fits : strMqUri.length ≤ intMax) :
    parseMqUri strMqUri = .fail ∨
      ∃ svr dst mode before word, parseMqUri strMqUri = .ok svr dst mode ∧
        MqUri strMqUri svr dst mode before word := by
  rcases findIn_spec (by simp [mqSlash] : mqSlash ≠ []) strMqUri 0 with
    ⟨pos, _, first⟩ | ⟨_, nowhere⟩
  · obtain ⟨before, rest, split, rfl⟩ := first.split (by simp [mqSlash])
    have decided := parseMqUri_eq fits split first
    by_cases slash : '/' ∈ rest
    · obtain ⟨server, after, rfl, absent⟩ := List.eq_append_cons_of_mem slash
      rw [decided.2 server after rfl absent]
      have length := congrArg List.length split
      simp only [List.length_append, List.length_cons, mqSlash, List.length_nil] at length
      have behind : strMqUri.drop (before.length + 3 + server.length + 1) = after := by
        have whole : (before ++ mqSlash ++ server ++ ['/']).length =
            before.length + 3 + server.length + 1 := by
          simp only [mqSlash, List.length_append, List.length_cons, List.length_nil]
        rw [← whole, split]
        simp
      by_cases second : '/' ∈ after
      · obtain ⟨word, name, rfl, absentWord⟩ := List.eq_append_cons_of_mem second
        rw [parseMode_eq fits behind absentWord]
        cases known : modeOf word with
        | none => exact .inl rfl
        | some mode =>
            by_cases named : name.isEmpty = true
            · exact .inl (by simp [named])
            · refine .inr ⟨server, name, mode, before, word, by simp [named], ?_⟩
              exact ⟨by simp [split], first, absent, modeOf_eq_some.mp known,
                by simpa using named⟩
      · exact .inl (parseMode_no_slash (by omega) (behind ▸ second))
    · exact .inl (decided.1 slash)
  · exact .inl (parseMqUri_missing nowhere)

theorem parseMqUri_eq_ok_iff {strMqUri svr dst : Text} {mode : MqMsgMode}
    (fits : strMqUri.length ≤ intMax) :
    parseMqUri strMqUri = .ok svr dst mode ↔
      ∃ before word, MqUri strMqUri svr dst mode before word := by
  constructor
  · intro parsed
    rcases parseMqUri_cases fits with failed | ⟨_, _, _, before, word, result, uri⟩
    · rw [failed] at parsed
      cases parsed
    · rw [result] at parsed
      cases parsed
      exact ⟨before, word, uri⟩
  · rintro ⟨before, word, uri⟩
    exact parseMqUri_of_mqUri fits uri

end DcCluster.Mq

import DcCluster.Lib.KeyedList
import DcCluster.TinyXml2.Written
import DcCluster.Node.LocalConfig
import DcCluster.Node.Dp

/-!
A configuration that is written out is loaded again: entities in the strings, decimal ports.
-/

namespace DcCluster.Node.LocalConfig

open DcCluster.Lib DcCluster.Mq DcCluster.TinyXml2

section Values

def escapeChar (c : Char) : Text :=
  if c = '&' then ['&', 'a', 'm', 'p', ';']
  else if c = doubleQuote then ['&', 'q', 'u', 'o', 't', ';']
  else [c]

def escape (value : Text) : Text := value.flatMap escapeChar

theorem escapeChar_plain {c : Char} (amp : c ≠ '&') (quote : c ≠ doubleQuote) :
    escapeChar c = [c] := by
  unfold escapeChar
  rw [if_neg amp, if_neg quote]

def entityChars : Text := ['&', 'a', 'm', 'p', ';', 'q', 'u', 'o', 't']

theorem mem_escape {d : Char} {value : Text} (member : d ∈ escape value) :
    (d ∈ value ∧ d ≠ doubleQuote) ∨ d ∈ entityChars := by
  obtain ⟨c, among, written⟩ := List.mem_flatMap.mp member
  by_cases amp : c = '&'
  · subst amp
    have listed : (escapeChar '&').all (fun d => d ∈ entityChars) = true := by decide
    exact .inr (of_decide_eq_true (List.all_eq_true.mp listed d written))
  · by_cases quote : c = doubleQuote
    · subst quote
      have listed : (escapeChar doubleQuote).all (fun d => d ∈ entityChars) = true := by decide
      exact .inr (of_decide_eq_true (List.all_eq_true.mp listed d written))
    · rw [escapeChar_plain amp quote, List.mem_singleton] at written
      subst written
      exact .inl ⟨among, quote⟩

theorem escape_head {value : Text} (returns : cr ∉ value) : (escape value).head? ≠ some cr := by
  intro first
  have member : cr ∈ escape value := List.mem_of_mem_head? first
  rcases mem_escape member with ⟨among, _⟩ | other
  · exact returns among
  · revert other
    decide

/-- `GetStr` puts back what was escaped; a carriage return would become a line feed. -/
theorem getStrFrom_escape (start : Text) {value : Text} (returns : cr ∉ value) (fuel : Nat)
    (written : Text) (enough : (escape value).length ≤ fuel) :
    getStrFrom start fuel written (escape value) = written ++ value := by
  induction value generalizing fuel written with
  | nil =>
      rw [List.append_nil]
      cases fuel with
      | zero => rfl
      | succ fuel => rfl
  | cons c value ih =>
      have later : cr ∉ value := fun member => returns (List.mem_cons_of_mem _ member)
      have split : escape (c :: value) = escapeChar c ++ escape value := List.flatMap_cons ..
      have joined : written ++ c :: value = written ++ [c] ++ value := by
        rw [List.append_assoc, List.singleton_append]
      rw [split, List.length_append] at enough
      rw [split, joined]
      by_cases amp : c = '&'
      · subst amp
        have size : (escapeChar '&').length = 5 := rfl
        obtain ⟨less, rfl⟩ : ∃ less, fuel = less + 1 := ⟨fuel - 1, by omega⟩
        exact ih later less (written ++ ['&']) (by omega)
      · by_cases quote : c = doubleQuote
        · subst quote
          have size : (escapeChar doubleQuote).length = 6 := rfl
          obtain ⟨less, rfl⟩ : ∃ less, fuel = less + 1 := ⟨fuel - 1, by omega⟩
          exact ih later less (written ++ [doubleQuote]) (by omega)
        · rw [escapeChar_plain amp quote] at enough ⊢
          rw [List.length_singleton] at enough
          obtain ⟨less, rfl⟩ : ∃ less, fuel = less + 1 := ⟨fuel - 1, by omega⟩
          have return_other : c ≠ cr := by
            rintro rfl
            exact returns List.mem_cons_self
          rw [List.singleton_append, getStrFrom, if_neg return_other]
          by_cases feed : c = lf
          · subst feed
            rw [if_pos rfl, if_neg (escape_head later)]
            exact ih later less _ (by omega)
          · rw [if_neg feed, if_neg amp]
            exact ih later less _ (by omega)

theorem getStr_escape {value : Text} (returns : cr ∉ value) (visible : nul ∉ value) :
    getStr (escape value) = value := by
  unfold getStr
  rw [getStrFrom_escape _ returns _ _ (Nat.le_refl _), List.nil_append, cString_visible visible]

end Values

section Ports

theorem digit_of_mem_toDigits {number : Nat} {c : Char} (member : c ∈ Nat.toDigits 10 number) :
    '0' ≤ c ∧ c ≤ '9' := by
  have digit := Nat.isDigit_of_mem_toDigits (by decide) (by decide) member
  simp only [Char.isDigit, Bool.and_eq_true, decide_eq_true_eq] at digit
  exact ⟨digit.1, digit.2⟩

theorem foldl_digits (digits : Text) (number : Nat) :
    digits.foldl (fun (number : Int) c => number * 10 + (c.toNat - '0'.toNat : Nat)) number =
      Nat.ofDigitChars 10 digits number := by
  induction digits generalizing number with
  | nil => rfl
  | cons c digits ih =>
      rw [List.foldl_cons, Nat.ofDigitChars_cons, ← ih]
      congr 1
      push_cast
      ring

theorem takeWhile_toDigits (number : Nat) :
    (Nat.toDigits 10 number).takeWhile (fun c => '0' ≤ c ∧ c ≤ '9') = Nat.toDigits 10 number := by
  rw [List.takeWhile_eq_self_iff]
  intro c member
  exact decide_eq_true (digit_of_mem_toDigits member)

theorem toDigits_head (number : Nat) :
    ∃ c more, Nat.toDigits 10 number = c :: more ∧ isWhiteSpace c = false ∧ c ≠ '-' ∧ c ≠ '+' := by
  cases digits : Nat.toDigits 10 number with
  | nil =>
      have size : 0 < (Nat.toDigits 10 number).length := Nat.length_toDigits_pos
      rw [digits] at size
      cases size
  | cons c more =>
      have member : c ∈ Nat.toDigits 10 number := by
        rw [digits]
        exact List.mem_cons_self
      have digit := Nat.isDigit_of_mem_toDigits (by decide) (by decide) member
      refine ⟨c, more, rfl, visible_of (by decide) digit, ?_, ?_⟩
      · rintro rfl
        cases digit
      · rintro rfl
        cases digit

theorem toInt_decimal {port : Int} (low : -2147483648 ≤ port) (high : port < 2147483648) :
    TinyXml2.toInt (decimal port) = some port := by
  have value := foldl_digits (Nat.toDigits 10 port.natAbs) 0
  rw [Nat.cast_zero, Nat.ofDigitChars_ten_toDigits] at value
  have some_digits : Nat.toDigits 10 port.natAbs ≠ [] := by
    intro empty
    obtain ⟨c, more, first, _⟩ := toDigits_head port.natAbs
    rw [empty] at first
    cases first
  unfold TinyXml2.toInt decimal
  by_cases negative : port < 0
  · have blanks : ('-' :: Nat.toDigits 10 port.natAbs).dropWhile isWhiteSpace =
        '-' :: Nat.toDigits 10 port.natAbs := List.dropWhile_cons_of_neg (by decide)
    rw [if_pos negative]
    dsimp only
    simp only [blanks, List.head?_cons, true_or, if_true, List.tail_cons, takeWhile_toDigits]
    rw [if_neg some_digits, value]
    unfold wrapInt
    congr 1
    omega
  · obtain ⟨c, more, first, visible, minus, plus⟩ := toDigits_head port.natAbs
    have blanks : (Nat.toDigits 10 port.natAbs).dropWhile isWhiteSpace =
        Nat.toDigits 10 port.natAbs := by
      rw [first]
      exact List.dropWhile_cons_of_neg (Bool.eq_false_iff.mp visible)
    have unsigned : (Nat.toDigits 10 port.natAbs).head? ≠ some '-' ∧
        (Nat.toDigits 10 port.natAbs).head? ≠ some '+' := by
      rw [first]
      exact ⟨fun same => minus (Option.some.inj same), fun same => plus (Option.some.inj same)⟩
    rw [if_neg negative]
    dsimp only
    simp only [blanks, unsigned.1, unsigned.2, or_self, if_false, takeWhile_toDigits]
    rw [if_neg some_digits, value]
    unfold wrapInt
    congr 1
    omega

end Ports

section Config

def hostAttributes (info : NodeInfo) : Attributes :=
  [("NodeIp".toList, escape info.nodeIp), ("NodePort".toList, decimal info.nodePort),
    ("ClusterIp".toList, escape info.clusterIp), ("ClusterPort".toList, decimal info.clusterPort)]

def mqAttributes (info : NodeInfo) : Attributes :=
  [("ip".toList, escape info.mqIP), ("port".toList, decimal info.mqPort),
    ("queue".toList, escape info.mqQueue)]

def declarationText : Text := "xml version=\"1.0\" encoding=\"utf-8\" ".toList

def contentText (info : NodeInfo) : Text :=
  lf :: '<' :: (tagText "host".toList (hostAttributes info) true ++
    lf :: '<' :: (tagText "mq".toList (mqAttributes info) true ++ [lf]))

/-- A configuration in the layout of the shipped `dcnode.xml`. -/
def configText (info : NodeInfo) : Text :=
  '<' :: '?' :: (declarationText ++ declarationEnd ++
    lf :: '<' :: (tagText "config".toList [] false ++
      (contentText info ++ (closingText "config".toList ++ [lf]))))

/-- What a configuration can hold. -/
structure Writable (info : NodeInfo) : Prop where
  texts : ∀ text ∈ [info.nodeIp, info.clusterIp, info.mqIP, info.mqQueue], nul ∉ text ∧ cr ∉ text
  ports : ∀ port ∈ [info.nodePort, info.clusterPort, info.mqPort],
    -2147483648 ≤ port ∧ port < 2147483648

theorem quote_not_mem_escape (value : Text) : doubleQuote ∉ escape value := by
  intro member
  rcases mem_escape member with ⟨_, other⟩ | listed
  · exact other rfl
  · revert listed
    decide

theorem nul_not_mem_escape {value : Text} (visible : nul ∉ value) : nul ∉ escape value := by
  intro member
  rcases mem_escape member with ⟨among, _⟩ | listed
  · exact visible among
  · revert listed
    decide

theorem not_mem_decimal {c : Char} (minus : c ≠ '-') (other : c.isDigit = false) (port : Int) :
    c ∉ decimal port := by
  have digits : c ∉ Nat.toDigits 10 port.natAbs := by
    intro member
    rw [Nat.isDigit_of_mem_toDigits (by decide) (by decide) member] at other
    cases other
  unfold decimal
  split
  · intro member
    rcases List.mem_cons.mp member with same | later
    · exact minus same
    · exact digits later
  · exact digits

theorem escaped_plain {name : Text} (named : isName name = true) (value : Text) :
    PlainAttribute (name, escape value) :=
  ⟨named, quote_not_mem_escape value⟩

theorem decimal_plain {name : Text} (named : isName name = true) (port : Int) :
    PlainAttribute (name, decimal port) :=
  ⟨named, not_mem_decimal (by decide) (by decide) port⟩

theorem hostTag_plain (info : NodeInfo) : PlainTag "host".toList (hostAttributes info) where
  named := by decide
  plain := by
    intro attrib member
    simp only [hostAttributes, List.mem_cons, List.not_mem_nil, or_false] at member
    rcases member with rfl | rfl | rfl | rfl
    · exact escaped_plain (by decide) _
    · exact decimal_plain (by decide) _
    · exact escaped_plain (by decide) _
    · exact decimal_plain (by decide) _
  fresh := by
    have names : (hostAttributes info).map Prod.fst =
        ["NodeIp".toList, "NodePort".toList, "ClusterIp".toList, "ClusterPort".toList] := rfl
    rw [names]
    decide

theorem mqTag_plain (info : NodeInfo) : PlainTag "mq".toList (mqAttributes info) where
  named := by decide
  plain := by
    intro attrib member
    simp only [mqAttributes, List.mem_cons, List.not_mem_nil, or_false] at member
    rcases member with rfl | rfl | rfl
    · exact escaped_plain (by decide) _
    · exact decimal_plain (by decide) _
    · exact escaped_plain (by decide) _
  fresh := by
    have names : (mqAttributes info).map Prod.fst =
        ["ip".toList, "port".toList, "queue".toList] := rfl
    rw [names]
    decide

def configChildren (info : NodeInfo) : List XMLNode :=
  [.element "host".toList (hostAttributes info) .closed [],
    .element "mq".toList (mqAttributes info) .closed []]

def configNodes (info : NodeInfo) : List XMLNode :=
  [.declaration declarationText, .element "config".toList [] .opened (configChildren info)]

theorem configText_document (info : NodeInfo) :
    Document (configText info) (configNodes info) := by
  have blank : isWhiteSpace lf = true := by decide
  have plain : PlainTag "config".toList [] := ⟨by decide, by simp, by simp⟩
  refine .declaration (by decide) (.content (.blank blank (.element plain ?_ (.blank blank .nil))))
  exact .blank blank (.empty (hostTag_plain info)
    (.blank blank (.empty (mqTag_plain info) (.blank blank .nil))))

theorem nul_not_mem_name {name : Text} (named : isName name = true) : nul ∉ name := by
  cases name with
  | nil => cases named
  | cons c more =>
      obtain ⟨start, chars⟩ := (Bool.and_eq_true _ _).mp named
      intro member
      rcases List.mem_cons.mp member with same | later
      · rw [← same] at start
        exact absurd start (by decide)
      · exact absurd (List.all_eq_true.mp chars nul later) (by decide)

theorem nul_not_mem_tagText {name : Text} {attributes : Attributes} (closed : Bool)
    (plain : PlainTag name attributes) (visible : ∀ attrib ∈ attributes, nul ∉ attrib.2) :
    nul ∉ tagText name attributes closed := by
  have named := nul_not_mem_name plain.named
  have ends : nul ∉ tagEnd closed := by
    cases closed with
    | true => decide
    | false => decide
  have equals : nul ≠ '=' := by decide
  have quote : nul ≠ doubleQuote := by decide
  have blank : nul ≠ ' ' := by decide
  intro member
  simp only [tagText, attributesText, attributeText, List.mem_append, List.mem_flatMap,
    List.mem_cons, List.not_mem_nil, or_false, named, ends, equals, quote, blank,
    false_or] at member
  obtain ⟨attrib, among, inside⟩ := member
  rcases inside with first | second
  · exact nul_not_mem_name (plain.plain attrib among).named first
  · exact visible attrib among second

theorem nul_not_mem_configText {info : NodeInfo} (writable : Writable info) :
    nul ∉ configText info := by
  have escaped : ∀ text ∈ [info.nodeIp, info.clusterIp, info.mqIP, info.mqQueue],
      nul ∉ escape text := fun text member => nul_not_mem_escape (writable.texts text member).1
  have decimals : ∀ port, nul ∉ decimal port := not_mem_decimal (by decide) (by decide)
  have host : nul ∉ tagText "host".toList (hostAttributes info) true := by
    refine nul_not_mem_tagText true (hostTag_plain info) ?_
    intro attrib member
    simp only [hostAttributes, List.mem_cons, List.not_mem_nil, or_false] at member
    rcases member with rfl | rfl | rfl | rfl
    · exact escaped _ (by simp)
    · exact decimals _
    · exact escaped _ (by simp)
    · exact decimals _
  have mq : nul ∉ tagText "mq".toList (mqAttributes info) true := by
    refine nul_not_mem_tagText true (mqTag_plain info) ?_
    intro attrib member
    simp only [mqAttributes, List.mem_cons, List.not_mem_nil, or_false] at member
    rcases member with rfl | rfl | rfl
    · exact escaped _ (by simp)
    · exact decimals _
    · exact escaped _ (by simp)
  have begins : nul ∉ '<' :: '?' :: (declarationText ++ declarationEnd ++
      lf :: '<' :: tagText "config".toList [] false) := by decide +kernel
  have ends : nul ∉ closingText "config".toList ++ [lf] := by decide +kernel
  have inner : nul ∉ contentText info := by
    have feed : nul ≠ lf := by decide
    have bracket : nul ≠ '<' := by decide
    simp only [contentText, List.mem_cons, List.mem_append, List.not_mem_nil, or_false, host, mq,
      feed, bracket, not_false_iff]
  have split : configText info = ('<' :: '?' :: (declarationText ++ declarationEnd ++
      lf :: '<' :: tagText "config".toList [] false)) ++
        (contentText info ++ (closingText "config".toList ++ [lf])) := by
    simp only [configText, List.cons_append, List.append_assoc]
  rw [split]
  intro member
  rcases List.mem_append.mp member with first | later
  · exact begins first
  · rcases List.mem_append.mp later with middle | last
    · exact inner middle
    · exact ends last

theorem escape_eq_self {value : Text} (amp : '&' ∉ value) (quote : doubleQuote ∉ value) :
    escape value = value := by
  induction value with
  | nil => rfl
  | cons c value ih =>
      rw [List.mem_cons, not_or] at amp quote
      have later : escape value = value := ih amp.2 quote.2
      unfold escape at later ⊢
      rw [List.flatMap_cons, later, escapeChar_plain (Ne.symm amp.1) (Ne.symm quote.1),
        List.singleton_append]

theorem getStr_decimal (port : Int) : getStr (decimal port) = decimal port := by
  have absent : ∀ c, c ≠ '-' → c.isDigit = false → c ∉ decimal port :=
    fun c minus other => not_mem_decimal minus other port
  have written := getStr_escape (absent cr (by decide) (by decide))
    (absent nul (by decide) (by decide))
  rwa [escape_eq_self (absent _ (by decide) (by decide)) (absent _ (by decide) (by decide))]
    at written

theorem loadFile_configText {info : NodeInfo} (writable : Writable info) :
    loadFile (some (configText info)) = .ok (configNodes info) := by
  have visible := nul_not_mem_configText writable
  have document := configText_document info
  have starts : (configText info).head? = some '<' := by
    unfold configText
    rfl
  unfold loadFile
  exact parse_document document starts visible

end Config

section Loading

theorem attributeValue_of_mem {element : XMLElement} {name value : Text}
    (plain : PlainTag element.name element.attributes)
    (member : (name, value) ∈ element.attributes) :
    element.attributeValue name = some (getStr value) := by
  unfold XMLElement.attributeValue
  rw [find?_of_lookup (lookup_of_mem plain.fresh member)]
  rfl

theorem intAttribute_of_mem {element : XMLElement} {name : Text} {port : Int}
    (plain : PlainTag element.name element.attributes)
    (fits : -2147483648 ≤ port ∧ port < 2147483648)
    (member : (name, decimal port) ∈ element.attributes) : element.intAttribute name = port := by
  unfold XMLElement.intAttribute
  rw [attributeValue_of_mem plain member, getStr_decimal, Option.bind_some,
    toInt_decimal fits.1 fits.2]
  rfl

def hostElement (info : NodeInfo) : XMLElement := ⟨"host".toList, hostAttributes info, []⟩

def mqElement (info : NodeInfo) : XMLElement := ⟨"mq".toList, mqAttributes info, []⟩

theorem Writable.getStr {info : NodeInfo} (writable : Writable info) {text : Text}
    (member : text ∈ [info.nodeIp, info.clusterIp, info.mqIP, info.mqQueue]) :
    TinyXml2.getStr (escape text) = text :=
  getStr_escape (writable.texts text member).2 (writable.texts text member).1

theorem readHost_written {info : NodeInfo} (writable : Writable info) (old : NodeInfo) :
    readHost (hostElement info) old = .ok { old with
      nodeIp := info.nodeIp
      nodePort := info.nodePort
      clusterIp := info.clusterIp
      clusterPort := info.clusterPort } := by
  have plain : PlainTag (hostElement info).name (hostElement info).attributes := hostTag_plain info
  have nodeIp := attributeValue_of_mem plain (.head _)
  have nodePort := intAttribute_of_mem plain (writable.ports info.nodePort (.head _))
    (.tail _ (.head _))
  have clusterIp := attributeValue_of_mem plain (.tail _ (.tail _ (.head _)))
  have clusterPort := intAttribute_of_mem plain (writable.ports info.clusterPort (.tail _ (.head _)))
    (.tail _ (.tail _ (.tail _ (.head _))))
  rw [writable.getStr (.head _)] at nodeIp
  rw [writable.getStr (.tail _ (.head _))] at clusterIp
  unfold readHost
  rw [nodeIp, nodePort, clusterIp, clusterPort]
  rfl

theorem readMq_written {info : NodeInfo} (writable : Writable info) (old : NodeInfo) :
    readMq (mqElement info) old = .ok { old with
      mqIP := info.mqIP
      mqPort := info.mqPort
      mqQueue := info.mqQueue } := by
  have plain : PlainTag (mqElement info).name (mqElement info).attributes := mqTag_plain info
  have ip := attributeValue_of_mem plain (.head _)
  have port := intAttribute_of_mem plain (writable.ports info.mqPort (.tail _ (.tail _ (.head _))))
    (.tail _ (.head _))
  have queue := attributeValue_of_mem plain (.tail _ (.tail _ (.head _)))
  rw [writable.getStr (.tail _ (.tail _ (.head _)))] at ip
  rw [writable.getStr (.tail _ (.tail _ (.tail _ (.head _))))] at queue
  unfold readMq
  rw [ip, port, queue]
  rfl

/-- What is written as a configuration is loaded as it was, whatever was there before. -/
theorem loadXml_configText (old : NodeInfo) {info : NodeInfo} (writable : Writable info) :
    loadXml old (some (configText info)) = (.swartzOk, info) := by
  have root : firstChildElement none (configNodes info) =
      some ⟨"config".toList, [], configChildren info⟩ := rfl
  have host : firstChildElement (some "host".toList) (configChildren info) =
      some (hostElement info) := rfl
  have mq : firstChildElement (some "mq".toList) (configChildren info) =
      some (mqElement info) := rfl
  unfold loadXml
  rw [loadFile_configText writable]
  dsimp only
  rw [root]
  dsimp only
  unfold readRoot
  dsimp only
  rw [host]
  dsimp only
  rw [readHost_written writable]
  dsimp only
  rw [mq]
  dsimp only
  rw [readMq_written writable]

theorem loadXml_configText_escaped :
    loadXml NodeInfo.initial
        (some (configText { NodeInfo.initial with mqQueue := "a\"&b".toList })) =
      (.swartzOk, { NodeInfo.initial with mqQueue := "a\"&b".toList }) :=
  loadXml_configText _ ⟨by decide +kernel, by decide +kernel⟩

end Loading

end DcCluster.Node.LocalConfig

import DcCluster.Mq.MqUriGrammar
import DcCluster.Node.Dp

/-!
The URI that `dp::init` builds is one that `MqMgr::ParseMqUri` accepts, and parsing
gives back the parts it was built from.
-/

namespace DcCluster.Node

open DcCluster.Lib DcCluster.Mq

theorem slash_not_mem_decimal (port : Int) : '/' ∉ decimal port := by
  have digits : '/' ∉ Nat.toDigits 10 port.natAbs := fun member =>
    absurd (Nat.isDigit_of_mem_toDigits (by decide) (by decide) member) (by decide)
  unfold decimal
  split
  · simp [digits]
  · exact digits

theorem Dp.init_uri (env : Env) (ip : Text) (port : Int) (quename : Text) :
    (Dp.init env ip port quename).1.uri =
      [] ++ mqSlash ++ (ip ++ [':'] ++ decimal port) ++
        '/' :: ['q', 'u', 'e', 'u', 'e'] ++ '/' :: quename := by
  simp [Dp.init, Dp.afterCall, Dp.constructed, mqSlash]

theorem Dp.init_mqUri (env : Env) {ip quename : Text} (port : Int) (noSlash : '/' ∉ ip)
    (named : quename ≠ []) :
    MqUri (Dp.init env ip port quename).1.uri (ip ++ [':'] ++ decimal port) quename .queue []
      ['q', 'u', 'e', 'u', 'e'] := by
  refine ⟨Dp.init_uri env ip port quename, ⟨?_, ?_⟩, ?_, .inl ⟨rfl, rfl⟩, named⟩
  · rw [Dp.init_uri]
    simp [mqSlash]
  · intro earlier lower
    simp at lower
  · simp [noSlash, slash_not_mem_decimal]

/-- `ParseMqUri` accepts exactly the strings of its grammar, and it takes apart what
`dp::init` has put together. -/
theorem parseMqUri_accepts_grammar_and_inverts_init :
    (∀ strMqUri : Text, strMqUri.length < 2147483648 → ∀ svr dst mode,
      parseMqUri strMqUri = .ok svr dst mode ↔
        ∃ before word,
          strMqUri = before ++ mqSlash ++ svr ++ '/' :: word ++ '/' :: dst ∧
          FirstAt mqSlash strMqUri before.length ∧ '/' ∉ svr ∧
          (word = ['q', 'u', 'e', 'u', 'e'] ∧ mode = .queue ∨
            word = ['t', 'o', 'p', 'i', 'c'] ∧ mode = .topic) ∧ dst ≠ []) ∧
      ∀ (env : Env) (ip : Text) (port : Int) (quename : Text), '/' ∉ ip → quename ≠ [] →
        (Dp.init env ip port quename).1.uri.length < 2147483648 →
          parseMqUri (Dp.init env ip port quename).1.uri =
            .ok (ip ++ [':'] ++ decimal port) quename .queue := by
  refine ⟨fun strMqUri short svr dst mode => ?_, fun env ip port quename noSlash named short => ?_⟩
  · rw [parseMqUri_eq_ok_iff (Nat.le_of_lt_succ short)]
    constructor
    · rintro ⟨before, word, uri⟩
      exact ⟨before, word, uri.parts, uri.first, uri.server, uri.known, uri.named⟩
    · rintro ⟨before, word, parts, first, server, known, named⟩
      exact ⟨before, word, parts, first, server, known, named⟩
  · exact parseMqUri_of_mqUri (Nat.le_of_lt_succ short) (Dp.init_mqUri env port noSlash named)

def testHost : Text := ['1', '0', '.', '2', '0', '.', '1', '3', '9', '.', '1', '9']

theorem parseMqUri_accepts_grammar_and_inverts_init_test :
    parseMqUri (Dp.init MqMgr.allSucceeds testHost 61616 ['t', 'e', 's', 't']).1.uri =
        .ok (testHost ++ [':'] ++ decimal 61616) ['t', 'e', 's', 't'] .queue ∧
      ∃ before word, MqMgr.slashedUri =
        before ++ mqSlash ++ ['h', ':', '1'] ++ '/' :: word ++ '/' :: ['q'] := by
  obtain ⟨grammar, inverse⟩ := parseMqUri_accepts_grammar_and_inverts_init
  refine ⟨inverse _ _ _ _ (by decide) (by decide) (by decide), ?_⟩
  obtain ⟨before, word, parts, _⟩ :=
    (grammar MqMgr.slashedUri (by decide) ['h', ':', '1'] ['q'] .queue).mp (by decide +kernel)
  exact ⟨before, word, parts⟩

end DcCluster.Node

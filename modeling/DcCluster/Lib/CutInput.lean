import DcCluster.Lib.Decoder

/-!
Readers on an input that goes on. A steady reader gives the same result while it leaves
something, because then it has seen where it stops; a closed one does so in any case.
-/

namespace DcCluster.Lib

open Decoder

variable {τ ε α β σ : Type}

/-- What is left is an end of the input, and more input does not matter unless nothing is left. -/
structure Steady (decoder : Decoder τ ε α) : Prop where
  suffix : ∀ bytes value rest, decoder bytes = .ok (value, rest) → rest <:+ bytes
  goes : ∀ bytes value rest more, decoder bytes = .ok (value, rest) → rest ≠ [] →
    decoder (bytes ++ more) = .ok (value, rest ++ more)

structure Closed (decoder : Decoder τ ε α) : Prop where
  suffix : ∀ bytes value rest, decoder bytes = .ok (value, rest) → rest <:+ bytes
  goes : ∀ bytes value rest more, decoder bytes = .ok (value, rest) →
    decoder (bytes ++ more) = .ok (value, rest ++ more)

/-- Needs input. -/
def Hungry (decoder : Decoder τ ε α) : Prop := ∀ result, decoder [] ≠ .ok result

theorem Hungry.of_error {decoder : Decoder τ ε α} {error : ε} (failed : decoder [] = .error error) :
    Hungry decoder := by
  intro result read
  rw [failed] at read
  cases read

section Steady

variable {decoder : Decoder τ ε α} {next : α → Decoder τ ε β}

theorem Closed.pure (value : α) : Closed (Pure.pure value : Decoder τ ε α) := by
  constructor
  · intro bytes result rest read
    cases read
    exact List.suffix_refl _
  · intro bytes result rest more read
    cases read
    rfl

theorem Closed.fail (error : ε) : Closed (Decoder.fail error : Decoder τ ε α) := by
  constructor
  · intro bytes result rest read
    cases read
  · intro bytes result rest more read
    cases read

theorem Steady.bind (first : Steady decoder) (follows : ∀ value, Steady (next value)) :
    Steady (decoder >>= next) := by
  constructor
  · intro bytes value rest read
    obtain ⟨middle, left, start, later⟩ := of_bind_ok read
    exact ((follows middle).suffix _ _ _ later).trans (first.suffix _ _ _ start)
  · intro bytes value rest more read some_left
    obtain ⟨middle, left, start, later⟩ := of_bind_ok read
    have left_some : left ≠ [] := by
      rintro rfl
      exact some_left (List.suffix_nil.mp ((follows middle).suffix _ _ _ later))
    rw [bind_ok (first.goes _ _ _ more start left_some)]
    exact (follows middle).goes _ _ _ more later some_left

theorem Closed.bind (first : Closed decoder) (follows : ∀ value, Closed (next value)) :
    Closed (decoder >>= next) := by
  constructor
  · intro bytes value rest read
    obtain ⟨middle, left, start, later⟩ := of_bind_ok read
    exact ((follows middle).suffix _ _ _ later).trans (first.suffix _ _ _ start)
  · intro bytes value rest more read
    obtain ⟨middle, left, start, later⟩ := of_bind_ok read
    rw [bind_ok (first.goes _ _ _ more start)]
    exact (follows middle).goes _ _ _ more later

/-- A steady reader is closed by one that needs input. -/
theorem Steady.closed (first : Steady decoder) (follows : ∀ value, Closed (next value))
    (hungry : ∀ value, Hungry (next value)) : Closed (decoder >>= next) := by
  constructor
  · intro bytes value rest read
    obtain ⟨middle, left, start, later⟩ := of_bind_ok read
    exact ((follows middle).suffix _ _ _ later).trans (first.suffix _ _ _ start)
  · intro bytes value rest more read
    obtain ⟨middle, left, start, later⟩ := of_bind_ok read
    have left_some : left ≠ [] := by
      rintro rfl
      exact hungry middle _ later
    rw [bind_ok (first.goes _ _ _ more start left_some)]
    exact (follows middle).goes _ _ _ more later

theorem Steady.ite {condition : Prop} [Decidable condition] {other : Decoder τ ε α}
    (yes : Steady decoder) (no : Steady other) : Steady (if condition then decoder else other) := by
  split
  · exact yes
  · exact no

theorem Closed.ite {condition : Prop} [Decidable condition] {other : Decoder τ ε α}
    (yes : Closed decoder) (no : Closed other) : Closed (if condition then decoder else other) := by
  split
  · exact yes
  · exact no

end Steady

section Loop

variable {short : ε} {turn : σ → Decoder τ ε (Turn σ)}

theorem Closed.loop (advances : Advances turn) (closed : ∀ state, Closed (turn state)) (state : σ) :
    Closed (Decoder.loop short turn state) := by
  constructor
  · intro bytes value rest read
    refine Decoder.loop_induction (motive := fun _ bytes _ rest => rest <:+ bytes) ?_ ?_ read
    · intro state bytes last rest ended
      exact (closed state).suffix _ _ _ ended
    · intro state bytes next left last rest again later
      exact later.trans ((closed state).suffix _ _ _ again)
  · intro bytes value rest more read
    refine Decoder.loop_induction (motive := fun state bytes last rest =>
      Decoder.loop short turn state (bytes ++ more) = .ok (last, rest ++ more)) ?_ ?_ read
    · intro state bytes last rest ended
      rw [Decoder.loop_eq advances, bind_ok ((closed state).goes _ _ _ more ended)]
      rfl
    · intro state bytes next left last rest again later
      rw [Decoder.loop_eq advances, bind_ok ((closed state).goes _ _ _ more again)]
      exact later

end Loop

end DcCluster.Lib

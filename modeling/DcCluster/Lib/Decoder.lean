import Mathlib.Data.List.Basic
import Mathlib.Tactic.Ring

/-!
Readers of symbols: what they accept, that they take no more than what they read,
and that a cut input is told apart from a wrong one. Loops run until a turn ends
them. Over bytes, fixed-width numbers are big-endian.
-/

namespace DcCluster.Lib

/-- The value that was read with the symbols that are left, or an error. -/
def Decoder (τ ε α : Type) := List τ → Except ε (α × List τ)

/-- How one turn of a loop ends. -/
inductive Turn (σ : Type)
  | again (state : σ)
  | done (state : σ)
  deriving DecidableEq, Repr

variable {τ ε α β σ : Type}

namespace Decoder

instance : Monad (Decoder τ ε) where
  pure value := fun bytes => .ok (value, bytes)
  bind decoder next := fun bytes =>
    match decoder bytes with
    | .ok (value, rest) => next value rest
    | .error error => .error error

def fail (error : ε) : Decoder τ ε α := fun _ => .error error

def take (short : ε) (count : Nat) : Decoder τ ε (List τ) := fun bytes =>
  if count ≤ bytes.length then .ok (bytes.take count, bytes.drop count) else .error short

def times (decoder : Decoder τ ε Unit) : Nat → Decoder τ ε Unit
  | 0 => pure ()
  | count + 1 => do
      decoder
      times decoder count

def loopWith (short : ε) (turn : σ → Decoder τ ε (Turn σ)) : Nat → σ → Decoder τ ε σ
  | 0, _ => fail short
  | fuel + 1, state => do
      match ← turn state with
      | .again next => loopWith short turn fuel next
      | .done last => pure last

/-- Runs turns until one breaks out. A turn that goes on takes a symbol at least, so
the length of the input bounds the number of turns. -/
def loop (short : ε) (turn : σ → Decoder τ ε (Turn σ)) (state : σ) : Decoder τ ε σ :=
  fun bytes => loopWith short turn (bytes.length + 1) state bytes

@[simp] theorem pure_run (value : α) (bytes : List τ) :
    (pure value : Decoder τ ε α) bytes = .ok (value, bytes) := rfl

theorem bind_run (decoder : Decoder τ ε α) (next : α → Decoder τ ε β) (bytes : List τ) :
    (decoder >>= next) bytes =
      match decoder bytes with
      | .ok (value, rest) => next value rest
      | .error error => .error error := rfl

theorem bind_ok {decoder : Decoder τ ε α} {next : α → Decoder τ ε β} {bytes rest : List τ}
    {value : α} (read : decoder bytes = .ok (value, rest)) :
    (decoder >>= next) bytes = next value rest := by
  rw [bind_run, read]

theorem bind_error {decoder : Decoder τ ε α} {next : α → Decoder τ ε β} {bytes : List τ}
    {error : ε} (read : decoder bytes = .error error) :
    (decoder >>= next) bytes = .error error := by
  rw [bind_run, read]

theorem bind_assoc {γ : Type} (decoder : Decoder τ ε α) (next : α → Decoder τ ε β)
    (last : β → Decoder τ ε γ) :
    decoder >>= next >>= last = decoder >>= fun value => next value >>= last := by
  funext bytes
  simp only [bind_run]
  cases decoder bytes with
  | error error => rfl
  | ok result => rfl

theorem of_bind_ok {decoder : Decoder τ ε α} {next : α → Decoder τ ε β} {bytes rest : List τ}
    {value : β} (read : (decoder >>= next) bytes = .ok (value, rest)) :
    ∃ middle left, decoder bytes = .ok (middle, left) ∧ next middle left = .ok (value, rest) := by
  rw [bind_run] at read
  cases first : decoder bytes with
  | error error =>
      rw [first] at read
      cases read
  | ok result =>
      rw [first] at read
      exact ⟨result.1, result.2, rfl, read⟩

end Decoder

open Decoder

/-- Reads exactly these symbols, whatever follows them. -/
def Decodes (decoder : Decoder τ ε α) (bytes : List τ) (value : α) : Prop :=
  ∀ rest, decoder (bytes ++ rest) = .ok (value, rest)

/-- Fails on every input that starts so. -/
def Refuses (decoder : Decoder τ ε α) (bytes : List τ) (error : ε) : Prop :=
  ∀ rest, decoder (bytes ++ rest) = .error error

section Decodes

variable {decoder : Decoder τ ε α} {next : α → Decoder τ ε β} {first second : List τ}
variable {value : α} {result : β} {error : ε}

theorem Decodes.pure (value : α) : Decodes (Pure.pure value : Decoder τ ε α) [] value :=
  fun _ => rfl

theorem Decodes.bind (reads : Decodes decoder first value)
    (follows : Decodes (next value) second result) :
    Decodes (decoder >>= next) (first ++ second) result := by
  intro rest
  rw [List.append_assoc, bind_ok (reads _), follows]

theorem Decodes.bind_refuses (reads : Decodes decoder first value)
    (refused : Refuses (next value) second error) :
    Refuses (decoder >>= next) (first ++ second) error := by
  intro rest
  rw [List.append_assoc, bind_ok (reads _), refused]

theorem Refuses.bind (refused : Refuses decoder first error) :
    Refuses (decoder >>= next) first error :=
  fun rest => bind_error (refused rest)

theorem Refuses.append (refused : Refuses decoder first error) (more : List τ) :
    Refuses decoder (first ++ more) error := by
  intro rest
  rw [List.append_assoc]
  exact refused _

theorem Refuses.fail (error : ε) : Refuses (Decoder.fail error : Decoder τ ε α) [] error :=
  fun _ => rfl

theorem Decodes.bind_pure (reads : Decodes decoder first value) (convert : α → β) :
    Decodes (decoder >>= fun value => Pure.pure (convert value)) first (convert value) := by
  intro rest
  rw [bind_ok (reads rest)]
  rfl

theorem Decodes.discard (reads : Decodes decoder first value) :
    Decodes (Functor.discard decoder) first () :=
  reads.bind_pure fun _ => ()

theorem Decodes.exact (reads : Decodes decoder first value) : decoder first = .ok (value, []) := by
  simpa only [List.append_nil] using reads []

theorem Decodes.take (short : ε) (bytes : List τ) :
    Decodes (Decoder.take short bytes.length) bytes bytes := by
  intro rest
  unfold Decoder.take
  rw [if_pos (by simp only [List.length_append]; omega), List.take_left, List.drop_left]

end Decodes

/-- A turn that goes on leaves less than it was given. -/
def Advances (turn : σ → Decoder τ ε (Turn σ)) : Prop :=
  ∀ state bytes next rest, turn state bytes = .ok (.again next, rest) → rest.length < bytes.length

theorem Decoder.loopWith_enough {short : ε} {turn : σ → Decoder τ ε (Turn σ)}
    (advances : Advances turn) (fuel extra : Nat) (state : σ) (bytes : List τ)
    (enough : bytes.length < fuel) :
    loopWith short turn (fuel + extra) state bytes = loopWith short turn fuel state bytes := by
  induction fuel generalizing state bytes with
  | zero => omega
  | succ fuel ih =>
      rw [Nat.add_right_comm]
      simp only [loopWith, bind_run]
      cases read : turn state bytes with
      | error error => rfl
      | ok result =>
          obtain ⟨ended, rest⟩ := result
          cases ended with
          | done last => rfl
          | again next =>
              have shorter := advances state bytes next rest read
              exact ih next rest (by omega)

theorem Decoder.loop_eq {short : ε} {turn : σ → Decoder τ ε (Turn σ)} (advances : Advances turn)
    (state : σ) :
    loop short turn state = turn state >>= fun ended =>
      match ended with
      | .again next => loop short turn next
      | .done last => pure last := by
  funext bytes
  unfold loop
  simp only [loopWith, bind_run]
  cases read : turn state bytes with
  | error error => rfl
  | ok result =>
      obtain ⟨ended, rest⟩ := result
      cases ended with
      | done last => rfl
      | again next =>
          have shorter := advances state bytes next rest read
          obtain ⟨extra, lengths⟩ := Nat.exists_eq_add_of_lt shorter
          have fits : bytes.length = rest.length + 1 + extra := by omega
          rw [fits]
          exact loopWith_enough advances _ extra next rest (by omega)

theorem Decodes.loop {short : ε} {turn : σ → Decoder τ ε (Turn σ)} (advances : Advances turn)
    {state next last : σ} {first second : List τ}
    (reads : Decodes (turn state) first (.again next))
    (follows : Decodes (Decoder.loop short turn next) second last) :
    Decodes (Decoder.loop short turn state) (first ++ second) last := by
  rw [Decoder.loop_eq advances]
  exact reads.bind follows

theorem Decodes.loop_break {short : ε} {turn : σ → Decoder τ ε (Turn σ)}
    (advances : Advances turn) {state last : σ} {bytes : List τ}
    (reads : Decodes (turn state) bytes (.done last)) :
    Decodes (Decoder.loop short turn state) bytes last := by
  intro rest
  rw [Decoder.loop_eq advances, bind_ok (reads rest)]
  rfl

theorem Decodes.loop_refuses {short : ε} {turn : σ → Decoder τ ε (Turn σ)}
    (advances : Advances turn) {state next : σ} {first second : List τ} {error : ε}
    (reads : Decodes (turn state) first (.again next))
    (refused : Refuses (Decoder.loop short turn next) second error) :
    Refuses (Decoder.loop short turn state) (first ++ second) error := by
  rw [Decoder.loop_eq advances]
  exact reads.bind_refuses refused

theorem Refuses.loop {short : ε} {turn : σ → Decoder τ ε (Turn σ)} (advances : Advances turn)
    {state : σ} {bytes : List τ} {error : ε} (refused : Refuses (turn state) bytes error) :
    Refuses (Decoder.loop short turn state) bytes error := by
  rw [Decoder.loop_eq advances]
  exact refused.bind

/-- Whatever holds of a turn that ends a loop, and goes back over a turn that goes on, holds
of every run of the loop that ends. -/
theorem Decoder.loop_induction {short : ε} {turn : σ → Decoder τ ε (Turn σ)}
    {motive : σ → List τ → σ → List τ → Prop}
    (ends : ∀ state bytes last rest, turn state bytes = .ok (.done last, rest) →
      motive state bytes last rest)
    (goes : ∀ state bytes next left last rest, turn state bytes = .ok (.again next, left) →
      motive next left last rest → motive state bytes last rest)
    {state last : σ} {bytes rest : List τ}
    (read : loop short turn state bytes = .ok (last, rest)) : motive state bytes last rest := by
  unfold loop at read
  generalize bytes.length + 1 = fuel at read
  induction fuel generalizing state bytes with
  | zero => cases read
  | succ fuel ih =>
      obtain ⟨ended, left, first, follows⟩ := of_bind_ok read
      cases ended with
      | done last =>
          cases follows
          exact ends _ _ _ _ first
      | again next => exact goes _ _ _ _ _ _ first (ih follows)

/-- Reads exactly these symbols if what follows them is as it should be. -/
def DecodesBefore (follow : List τ → Prop) (decoder : Decoder τ ε α) (bytes : List τ)
    (value : α) : Prop :=
  ∀ rest, follow rest → decoder (bytes ++ rest) = .ok (value, rest)

section DecodesBefore

variable {decoder : Decoder τ ε α} {next : α → Decoder τ ε β} {first second : List τ}
variable {value : α} {result : β} {near : List τ → Prop}

theorem Decodes.before (reads : Decodes decoder first value) (follow : List τ → Prop) :
    DecodesBefore follow decoder first value :=
  fun rest _ => reads rest

theorem DecodesBefore.closed (reads : DecodesBefore near decoder first value)
    (follows : Decodes (next value) second result) (meets : ∀ rest, near (second ++ rest)) :
    Decodes (decoder >>= next) (first ++ second) result := by
  intro rest
  rw [List.append_assoc, bind_ok (reads _ (meets rest)), follows]

end DecodesBefore

/-- On every input such a reader either reads a prefix without looking further, refuses
for good, or fails for want of input. -/
def Streaming (short : ε) (decoder : Decoder τ ε α) : Prop :=
  ∀ bytes, (∃ used rest value, bytes = used ++ rest ∧ Decodes decoder used value) ∨
    (∃ error, Refuses decoder bytes error) ∨ decoder bytes = .error short

section Streaming

variable {short : ε} {decoder : Decoder τ ε α}

theorem Streaming.reads_prefix (streaming : Streaming short decoder) {bytes rest : List τ}
    {value : α} (read : decoder bytes = .ok (value, rest)) :
    ∃ used, bytes = used ++ rest ∧ Decodes decoder used value := by
  rcases streaming bytes with ⟨used, left, result, split, decodes⟩ | ⟨error, refused⟩ | failed
  · subst split
    rw [decodes left] at read
    cases read
    exact ⟨used, rfl, decodes⟩
  · have none_read := refused []
    rw [List.append_nil, read] at none_read
    cases none_read
  · rw [read] at failed
    cases failed

theorem Streaming.length_le (streaming : Streaming short decoder) {bytes rest : List τ}
    {value : α} (read : decoder bytes = .ok (value, rest)) : rest.length ≤ bytes.length := by
  obtain ⟨used, split, _⟩ := streaming.reads_prefix read
  rw [split, List.length_append]
  omega

theorem Streaming.cut (streaming : Streaming short decoder) {kept lost : List τ} {value : α}
    (reads : Decodes decoder (kept ++ lost) value) (cut : lost ≠ []) :
    decoder kept = .error short := by
  rcases streaming kept with ⟨used, rest, result, split, decodes⟩ | ⟨error, refused⟩ | failed
  · subst split
    have whole := reads.exact
    rw [List.append_assoc, decodes] at whole
    cases whole_eq : rest ++ lost with
    | nil =>
        rw [List.append_eq_nil_iff] at whole_eq
        exact absurd whole_eq.2 cut
    | cons byte more =>
        rw [whole_eq] at whole
        cases whole
  · have whole := reads.exact
    rw [refused lost] at whole
    cases whole
  · exact failed

theorem Streaming.pure (short : ε) (value : α) :
    Streaming short (Pure.pure value : Decoder τ ε α) :=
  fun bytes => Or.inl ⟨[], bytes, value, rfl, Decodes.pure value⟩

theorem Streaming.fail (short error : ε) : Streaming short (Decoder.fail error : Decoder τ ε α) :=
  fun _ => Or.inr (Or.inl ⟨error, fun _ => rfl⟩)

theorem Streaming.take (short : ε) (count : Nat) :
    Streaming short (Decoder.take short count : Decoder τ ε (List τ)) := by
  intro bytes
  by_cases enough : count ≤ bytes.length
  · left
    refine ⟨bytes.take count, bytes.drop count, bytes.take count, ?_, ?_⟩
    · exact (List.take_append_drop count bytes).symm
    · have reads := Decodes.take short (bytes.take count)
      rwa [List.length_take, Nat.min_eq_left enough] at reads
  · right
    right
    unfold Decoder.take
    rw [if_neg enough]

theorem Streaming.bind {next : α → Decoder τ ε β} (streaming : Streaming short decoder)
    (follows : ∀ value, Streaming short (next value)) : Streaming short (decoder >>= next) := by
  intro bytes
  rcases streaming bytes with ⟨used, rest, value, split, decodes⟩ | ⟨error, refused⟩ | failed
  · subst split
    rcases follows value rest with ⟨more, left, result, split, reads⟩ | ⟨error, refused⟩ | failed
    · subst split
      exact Or.inl ⟨used ++ more, left, result, (List.append_assoc ..).symm, decodes.bind reads⟩
    · exact Or.inr (Or.inl ⟨error, decodes.bind_refuses refused⟩)
    · right
      right
      rw [bind_ok (decodes rest), failed]
  · exact Or.inr (Or.inl ⟨error, refused.bind⟩)
  · exact Or.inr (Or.inr (bind_error failed))

theorem Streaming.discard (streaming : Streaming short decoder) :
    Streaming short (Functor.discard decoder) :=
  streaming.bind fun _ => Streaming.pure short ()

theorem Streaming.times {decoder : Decoder τ ε Unit} (streaming : Streaming short decoder)
    (count : Nat) : Streaming short (Decoder.times decoder count) := by
  induction count with
  | zero => exact Streaming.pure short ()
  | succ count ih => exact streaming.bind fun _ => ih

theorem Decodes.times {decoder : Decoder τ ε Unit} {count : Nat} {first second : List τ}
    (reads : Decodes decoder first ()) (follows : Decodes (Decoder.times decoder count) second ()) :
    Decodes (Decoder.times decoder (count + 1)) (first ++ second) () :=
  reads.bind follows

theorem Decodes.times_refuses {decoder : Decoder τ ε Unit} {count : Nat}
    {first second : List τ} {error : ε} (reads : Decodes decoder first ())
    (refused : Refuses (Decoder.times decoder count) second error) :
    Refuses (Decoder.times decoder (count + 1)) (first ++ second) error :=
  reads.bind_refuses refused

theorem Refuses.times {decoder : Decoder τ ε Unit} {count : Nat} {bytes : List τ} {error : ε}
    (refused : Refuses decoder bytes error) :
    Refuses (Decoder.times decoder (count + 1)) bytes error :=
  refused.bind

theorem Streaming.loop {turn : σ → Decoder τ ε (Turn σ)} (advances : Advances turn)
    (streaming : ∀ state, Streaming short (turn state)) (state : σ) :
    Streaming short (Decoder.loop short turn state) := by
  intro bytes
  induction length : bytes.length using Nat.strongRecOn generalizing state bytes with
  | ind size ih =>
      subst length
      rcases streaming state bytes with
        ⟨used, rest, ended, split, decodes⟩ | ⟨error, refused⟩ | failed
      · subst split
        cases ended with
        | done last => exact Or.inl ⟨used, rest, last, rfl, Decodes.loop_break advances decodes⟩
        | again next =>
            have shorter := advances state _ next rest (decodes rest)
            rcases ih rest.length shorter next rest rfl with
              ⟨more, left, last, split, reads⟩ | ⟨error, refused⟩ | failed
            · subst split
              exact Or.inl ⟨used ++ more, left, last, (List.append_assoc ..).symm,
                Decodes.loop advances decodes reads⟩
            · refine Or.inr (Or.inl ⟨error, ?_⟩)
              rw [Decoder.loop_eq advances]
              exact decodes.bind_refuses refused
            · right
              right
              rw [Decoder.loop_eq advances, bind_ok (decodes rest)]
              exact failed
      · exact Or.inr (Or.inl ⟨error, Refuses.loop advances refused⟩)
      · right
        right
        rw [Decoder.loop_eq advances]
        exact bind_error failed

end Streaming

/-- The number that big-endian digits stand for. -/
def ofBytes (bytes : List UInt8) : Nat :=
  bytes.foldl (fun number byte => number * 256 + byte.toNat) 0

def toBytes : Nat → Nat → List UInt8
  | 0, _ => []
  | width + 1, number => toBytes width (number / 256) ++ [UInt8.ofNat number]

@[simp] theorem length_toBytes (width number : Nat) : (toBytes width number).length = width := by
  induction width generalizing number with
  | zero => rfl
  | succ width ih => rw [toBytes, List.length_append, ih, List.length_singleton]

theorem ofBytes_concat (bytes : List UInt8) (byte : UInt8) :
    ofBytes (bytes ++ [byte]) = ofBytes bytes * 256 + byte.toNat := by
  unfold ofBytes
  rw [List.foldl_append]
  rfl

theorem ofBytes_toBytes (width number : Nat) :
    ofBytes (toBytes width number) = number % 256 ^ width := by
  induction width generalizing number with
  | zero => rw [Nat.pow_zero, Nat.mod_one]; rfl
  | succ width ih =>
      have low : (UInt8.ofNat number).toNat = number % 256 := UInt8.toNat_ofNat'
      rw [toBytes, ofBytes_concat, ih, low, Nat.pow_succ', Nat.mod_mul]
      ring

def writeBits (width : Nat) (bits : BitVec (8 * width)) : List UInt8 := toBytes width bits.toNat

def readBits {ε : Type} (short : ε) (width : Nat) :
    Decoder UInt8 ε (BitVec (8 * width)) := do
  let bytes ← Decoder.take short width
  pure (BitVec.ofNat _ (ofBytes bytes))

@[simp] theorem length_writeBits (width : Nat) (bits : BitVec (8 * width)) :
    (writeBits width bits).length = width :=
  length_toBytes width bits.toNat

theorem readBits_writeBits (short : ε) (width : Nat) (bits : BitVec (8 * width)) :
    Decodes (readBits short width) (writeBits width bits) bits := by
  have taken := Decodes.take short (writeBits width bits)
  rw [length_writeBits] at taken
  have reads := taken.bind_pure fun bytes => BitVec.ofNat (8 * width) (ofBytes bytes)
  have bound : bits.toNat < 256 ^ width := by
    have small := bits.isLt
    rwa [Nat.pow_mul] at small
  rw [writeBits, ofBytes_toBytes, Nat.mod_eq_of_lt bound, BitVec.ofNat_toNat,
    BitVec.setWidth_eq] at reads
  exact reads

theorem readBits_length {short : ε} {width : Nat} {bytes rest : List UInt8}
    {bits : BitVec (8 * width)} (read : readBits short width bytes = .ok (bits, rest)) :
    rest.length + width = bytes.length := by
  obtain ⟨used, left, taken, ends⟩ := Decoder.of_bind_ok read
  cases ends
  unfold Decoder.take at taken
  split at taken
  next enough =>
    cases taken
    rw [List.length_drop]
    omega
  next => cases taken

theorem Streaming.readBits (short : ε) (width : Nat) :
    Streaming short (Lib.readBits short width) :=
  (Streaming.take short width).bind fun _ => Streaming.pure short _

end DcCluster.Lib

import DcCluster.Lib.CInt
import Mathlib.Data.List.Infix

/-!
Formatted printing into a buffer. A format is a list of directives; each takes its
arguments from the front of a `va_list`, which stays advanced when the call has
returned. Reading past the last argument, or one of the wrong type, is undefined.
-/

namespace DcCluster.Lib

abbrev Bytes := List UInt8

variable {Arg : Type*}

/-- A conversion with the number of arguments that it consumes. Text to copy is a
directive without arguments. -/
structure Directive (Arg : Type*) where
  arity : Nat
  render : List Arg → Option Bytes

def Directive.literal (text : Bytes) : Directive Arg := { arity := 0, render := fun _ => some text }

def formatText : List (Directive Arg) → List Arg → Option (Bytes × List Arg)
  | [], args => some ([], args)
  | directive :: rest, args =>
      if args.length < directive.arity then none
      else (directive.render (args.take directive.arity)).bind fun text =>
        (formatText rest (args.drop directive.arity)).map fun (later, left) => (text ++ later, left)

def arityOf : List (Directive Arg) → Nat
  | [] => 0
  | directive :: rest => directive.arity + arityOf rest

/-- The text and its NUL, cut to the size of the buffer. -/
def fill (buffer : Bytes) (size : Nat) (text : Bytes) : Bytes :=
  if size = 0 then buffer
  else text.take (size - 1) ++ 0 :: buffer.drop (min text.length (size - 1) + 1)

/-- What is in the buffer afterwards, the result and the advanced arguments. The
result is the length of the whole text, or -1 if an `int` cannot hold it. -/
def vsnprintf (buffer : Bytes) (size : Nat) (format : List (Directive Arg)) (args : List Arg) :
    Option (Bytes × Int × List Arg) :=
  (formatText format args).map fun (text, left) =>
    if text.length ≤ intMax then (fill buffer size text, (text.length : Int), left)
    else (buffer, -1, left)

/-- The bytes before the first NUL. -/
def cBytes (buffer : Bytes) : Bytes := buffer.takeWhile fun byte => byte ≠ 0

theorem formatText_suffix {format : List (Directive Arg)} {args left : List Arg} {text : Bytes}
    (formatted : formatText format args = some (text, left)) : left <:+ args := by
  induction format generalizing args text with
  | nil =>
      simp only [formatText, Option.some.injEq, Prod.mk.injEq] at formatted
      rw [← formatted.2]
  | cons directive rest ih =>
      simp only [formatText, Option.ite_none_left_eq_some, Option.bind_eq_some_iff,
        Option.map_eq_some_iff, Prod.mk.injEq] at formatted
      obtain ⟨_, _, _, ⟨later, _⟩, tail, _, rfl⟩ := formatted
      exact (ih tail).trans (List.drop_suffix _ _)

theorem formatText_length {format : List (Directive Arg)} {args left : List Arg} {text : Bytes}
    (formatted : formatText format args = some (text, left)) :
    args.length = arityOf format + left.length := by
  induction format generalizing args text with
  | nil =>
      simp only [formatText, Option.some.injEq, Prod.mk.injEq] at formatted
      simp [arityOf, formatted.2]
  | cons directive rest ih =>
      simp only [formatText, Option.ite_none_left_eq_some, Option.bind_eq_some_iff,
        Option.map_eq_some_iff, Prod.mk.injEq] at formatted
      obtain ⟨enough, _, _, ⟨later, _⟩, tail, _, rfl⟩ := formatted
      have counted := ih tail
      simp only [List.length_drop] at counted
      simp only [arityOf] at counted ⊢
      omega

theorem cBytes_append_nul (text rest : Bytes) : cBytes (text ++ 0 :: rest) = cBytes text := by
  induction text with
  | nil => simp [cBytes]
  | cons byte tail ih =>
      unfold cBytes at ih ⊢
      by_cases nul : byte = 0
      · simp [nul]
      · simpa [nul] using ih

theorem cBytes_fill {buffer text : Bytes} {size : Nat} (fits : text.length < size) :
    cBytes (fill buffer size text) = cBytes text := by
  have whole : text.take (size - 1) = text := List.take_of_length_le (by omega)
  rw [fill, if_neg (by omega), whole, cBytes_append_nul]

theorem vsnprintf_eq_some {buffer after : Bytes} {size : Nat} {format : List (Directive Arg)}
    {args left : List Arg} {length : Int}
    (printed : vsnprintf buffer size format args = some (after, length, left)) (counts : -1 < length) :
    ∃ text, formatText format args = some (text, left) ∧ length = text.length ∧
      text.length ≤ intMax ∧ after = fill buffer size text := by
  simp only [vsnprintf, Option.map_eq_some_iff] at printed
  obtain ⟨⟨text, rest⟩, formatted, result⟩ := printed
  by_cases short : text.length ≤ intMax
  · simp only [short, ↓reduceIte, Prod.mk.injEq] at result
    obtain ⟨rfl, rfl, rfl⟩ := result
    exact ⟨text, formatted, rfl, short, rfl⟩
  · simp only [short, ↓reduceIte, Prod.mk.injEq] at result
    omega

theorem vsnprintf_of_formatText (buffer : Bytes) (size : Nat) {text : Bytes}
    {format : List (Directive Arg)} {args left : List Arg} (formatted : formatText format args = some (text, left))
    (short : text.length ≤ intMax) :
    vsnprintf buffer size format args = some (fill buffer size text, (text.length : Int), left) := by
  simp [vsnprintf, formatted, short]

end DcCluster.Lib

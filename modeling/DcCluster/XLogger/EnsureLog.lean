import DcCluster.Lib.Printf

/-!
`ensure_log_complete` of `xlogger.cpp` and the log line that `log4cxx_package` makes
with it. Every round of the retry loop passes the same `va_list` to `vsnprintf`, so
a round after the first formats the arguments that the first one left.
-/

namespace DcCluster.XLogger

open DcCluster.Lib

variable {Arg : Type*}

/-- The loop of `ensure_log_complete` with as many rounds as there is fuel. No result
means that it goes on, or that the behaviour is undefined. -/
def ensureLogRounds (allocated : Nat → Bool) (format : List (Directive Arg)) :
    Nat → Nat → List Arg → Option Bytes
  | 0, _, _ => none
  | fuel + 1, uiSize, args =>
      if allocated uiSize = false then some []
      else
        match vsnprintf (List.replicate uiSize 0) uiSize format args with
        | none => none
        | some (pcBuff, iNum, left) =>
            if -1 < iNum ∧ iNum < toInt uiSize then some (cBytes pcBuff)
            else if -1 < iNum then
              -- the addition overflows the int
              if iNum = intMax then none
              else ensureLogRounds allocated format fuel (iNum + 1).toNat left
            else ensureLogRounds allocated format fuel (uiSize * 2 % 4294967296) left

def ensureLogComplete (allocated : Nat → Bool) (fuel : Nat)
    (format : Option (List (Directive Arg))) (args : List Arg) : Option Bytes :=
  match format with
  | none => some []
  | some format => ensureLogRounds allocated format fuel 1024 args

/-- Formatting again and again, each time the arguments that are left, gives longer and
longer texts and then, with the first one that is not longer, the given text. -/
inductive Repeats (format : List (Directive Arg)) (text : Bytes) : Nat → List Arg → Prop
  | again {length : Nat} {args left : List Arg} {printed : Bytes} :
      formatText format args = some (printed, left) → printed.length ≤ length →
        cBytes printed = text → Repeats format text length args
  | longer {length : Nat} {args left : List Arg} {printed : Bytes} :
      formatText format args = some (printed, left) → length < printed.length →
        printed.length < intMax → Repeats format text printed.length left →
          Repeats format text length args

/-- What `vsnprintf` is taken to do: the whole length of every text that the format
can give with these arguments is returned, so an `int` holds it. -/
def LengthsReturned (format : List (Directive Arg)) (args : List Arg) : Prop :=
  ∀ later text left, later <:+ args → formatText format later = some (text, left) →
    text.length ≤ intMax

theorem LengthsReturned.left {format : List (Directive Arg)} {args left : List Arg} {text : Bytes}
    (returned : LengthsReturned format args) (formatted : formatText format args = some (text, left)) :
    LengthsReturned format left := fun later text rest suffix printed =>
  returned later text rest (suffix.trans (formatText_suffix formatted)) printed

section Rounds

variable {allocated : Nat → Bool} {format : List (Directive Arg)}

theorem ensureLogRounds_short {fuel uiSize : Nat} {args left : List Arg} {text : Bytes}
    (allocates : ∀ size, allocated size = true) (fits : uiSize ≤ intMax)
    (formatted : formatText format args = some (text, left)) (short : text.length < uiSize) :
    ensureLogRounds allocated format (fuel + 1) uiSize args = some (cBytes text) := by
  have whole : text.length ≤ intMax := by omega
  have positive : (-1 : Int) < text.length := by omega
  have below : (text.length : Int) < uiSize := by omega
  simp only [ensureLogRounds, allocates, Bool.true_eq_false, ↓reduceIte,
    vsnprintf_of_formatText _ _ formatted whole, toInt_of_fits fits, positive, below, true_and,
    cBytes_fill short]

theorem ensureLogRounds_long {fuel uiSize : Nat} {args left : List Arg} {text : Bytes}
    (allocates : ∀ size, allocated size = true) (fits : uiSize ≤ intMax)
    (formatted : formatText format args = some (text, left)) (long : uiSize ≤ text.length)
    (whole : text.length ≤ intMax) :
    ensureLogRounds allocated format (fuel + 1) uiSize args =
      if text.length = intMax then none
      else ensureLogRounds allocated format fuel (text.length + 1) left := by
  have positive : (-1 : Int) < text.length := by omega
  have above : ¬(text.length : Int) < uiSize := by omega
  have next : ((text.length : Int) + 1).toNat = text.length + 1 := by omega
  simp only [ensureLogRounds, allocates, Bool.true_eq_false, ↓reduceIte,
    vsnprintf_of_formatText _ _ formatted whole, toInt_of_fits fits, positive, above, and_false,
    Int.natCast_inj, next]

theorem ensureLogRounds_wide {fuel uiSize : Nat} {args left : List Arg} {text : Bytes}
    (allocates : ∀ size, allocated size = true)
    (formatted : formatText format args = some (text, left)) (wide : ¬text.length ≤ intMax) :
    ensureLogRounds allocated format (fuel + 1) uiSize args =
      ensureLogRounds allocated format fuel (uiSize * 2 % 4294967296) left := by
  simp [ensureLogRounds, allocates, vsnprintf, formatted, wide]

theorem ensureLogRounds_undefined {fuel uiSize : Nat} {args : List Arg}
    (allocates : ∀ size, allocated size = true) (undefined : formatText format args = none) :
    ensureLogRounds allocated format fuel uiSize args = none := by
  cases fuel with
  | zero => rfl
  | succ fuel => simp [ensureLogRounds, allocates, vsnprintf, undefined]

/-- The rounds after one that found a text of this length. -/
theorem ensureLogRounds_iff_repeats {args : List Arg} {length : Nat} {text : Bytes}
    (allocates : ∀ size, allocated size = true) (returned : LengthsReturned format args)
    (fits : length < intMax) :
    (∃ fuel, ensureLogRounds allocated format fuel (length + 1) args = some text) ↔
      Repeats format text length args := by
  constructor
  · rintro ⟨fuel, result⟩
    induction fuel generalizing args length with
    | zero => simp [ensureLogRounds] at result
    | succ fuel ih =>
        cases formatted : formatText format args with
        | none => simp [ensureLogRounds_undefined allocates formatted] at result
        | some pass =>
            obtain ⟨printed, left⟩ := pass
            have whole := returned args printed left List.suffix_rfl formatted
            by_cases short : printed.length ≤ length
            · rw [ensureLogRounds_short allocates (by omega) formatted (by omega)] at result
              exact .again formatted short (Option.some.inj result)
            · rw [ensureLogRounds_long allocates (by omega) formatted (by omega) whole] at result
              by_cases last : printed.length = intMax
              · simp [last] at result
              · rw [if_neg last] at result
                exact .longer formatted (by omega) (by omega)
                  (ih (returned.left formatted) (by omega) result)
  · intro repeats
    induction repeats with
    | again formatted short same =>
        refine ⟨1, ?_⟩
        rw [ensureLogRounds_short allocates (by omega) formatted (by omega), same]
    | longer formatted long below _ ih =>
        obtain ⟨fuel, result⟩ := ih (returned.left formatted) below
        refine ⟨fuel + 1, ?_⟩
        rw [ensureLogRounds_long allocates (by omega) formatted (by omega) (by omega),
          if_neg (by omega), result]

end Rounds

theorem LengthsReturned.of_exact {format : List (Directive Arg)} {args : List Arg} {text : Bytes}
    (formatted : formatText format args = some (text, [])) (whole : text.length ≤ intMax) :
    LengthsReturned format args := by
  intro later other left suffix printed
  have counted := formatText_length formatted
  have countedLater := formatText_length printed
  have shorter := suffix.length_le
  simp only [List.length_nil] at counted
  have same : later = args := suffix.eq_of_length (by omega)
  rw [same, formatted, Option.some.injEq, Prod.mk.injEq] at printed
  exact printed.1 ▸ whole

theorem ensureLogComplete_iff {allocated : Nat → Bool} {format : List (Directive Arg)}
    {args left : List Arg} {text : Bytes} (allocates : ∀ size, allocated size = true)
    (returned : LengthsReturned format args)
    (formatted : formatText format args = some (text, left)) :
    (∃ fuel, ensureLogComplete allocated fuel (some format) args = some (cBytes text)) ↔
      text.length < 1024 ∨ text.length < intMax ∧ Repeats format (cBytes text) text.length left := by
  have initial : 1024 ≤ intMax := by decide
  have whole := returned args text left List.suffix_rfl formatted
  simp only [ensureLogComplete]
  by_cases short : text.length < 1024
  · exact iff_of_true ⟨1, ensureLogRounds_short allocates initial formatted short⟩ (.inl short)
  · have retried : ∀ fuel, ensureLogRounds allocated format (fuel + 1) 1024 args =
        if text.length = intMax then none
        else ensureLogRounds allocated format fuel (text.length + 1) left := fun fuel =>
      ensureLogRounds_long allocates initial formatted (by omega) whole
    constructor
    · rintro ⟨fuel, result⟩
      cases fuel with
      | zero => simp [ensureLogRounds] at result
      | succ fuel =>
          rw [retried] at result
          by_cases last : text.length = intMax
          · simp [last] at result
          · rw [if_neg last] at result
            refine .inr ⟨by omega, ?_⟩
            exact (ensureLogRounds_iff_repeats allocates (returned.left formatted) (by omega)).mp
              ⟨fuel, result⟩
    · rintro (small | ⟨below, repeats⟩)
      · omega
      · obtain ⟨fuel, result⟩ := (ensureLogRounds_iff_repeats allocates
          (returned.left formatted) below).mpr repeats
        refine ⟨fuel + 1, ?_⟩
        rw [retried, if_neg (by omega), result]

theorem not_repeats_of_consumed {format : List (Directive Arg)} {text : Bytes} {length : Nat}
    (consumes : 0 < arityOf format) : ¬Repeats format text length [] := by
  have undefined : ∀ printed left, formatText format [] ≠ some (printed, left) := by
    intro printed left formatted
    have counted := formatText_length formatted
    simp only [List.length_nil] at counted
    omega
  intro repeats
  cases repeats with
  | again formatted _ _ => exact undefined _ _ formatted
  | longer formatted _ _ _ => exact undefined _ _ formatted

/-- With exactly the arguments that the format consumes, only short texts are returned. -/
theorem ensureLogComplete_iff_short {allocated : Nat → Bool} {format : List (Directive Arg)}
    {args : List Arg} {text : Bytes} (allocates : ∀ size, allocated size = true)
    (consumes : 0 < arityOf format) (whole : text.length ≤ intMax)
    (formatted : formatText format args = some (text, [])) :
    (∃ fuel, ensureLogComplete allocated fuel (some format) args = some (cBytes text)) ↔
      text.length < 1024 := by
  rw [ensureLogComplete_iff allocates (.of_exact formatted whole) formatted]
  exact or_iff_left fun retried => not_repeats_of_consumed consumes retried.2

/-- With exactly the arguments that the format consumes, the call comes back exactly if the
text is short: the second round finds no argument left. -/
theorem ensureLogComplete_returns_iff {allocated : Nat → Bool} {format : List (Directive Arg)}
    {args : List Arg} {text : Bytes} (allocates : ∀ size, allocated size = true)
    (consumes : 0 < arityOf format) (formatted : formatText format args = some (text, []))
    (fuel : Nat) :
    (ensureLogComplete allocated (fuel + 1) (some format) args).isSome = true ↔
      text.length < 1024 := by
  have initial : 1024 ≤ intMax := by decide
  have exhausted : formatText format [] = none := by
    cases again : formatText format [] with
    | none => rfl
    | some pass =>
        have counted := formatText_length again
        simp only [List.length_nil] at counted
        omega
  have stuck : ∀ uiSize, ensureLogRounds allocated format fuel uiSize [] = none := fun _ =>
    ensureLogRounds_undefined allocates exhausted
  simp only [ensureLogComplete]
  by_cases short : text.length < 1024
  · simp [ensureLogRounds_short allocates initial formatted short, short]
  · refine iff_of_false ?_ short
    by_cases whole : text.length ≤ intMax
    · rw [ensureLogRounds_long allocates initial formatted (by omega) whole, stuck]
      simp
    · rw [ensureLogRounds_wide allocates formatted whole, stuck]
      simp

/-- `ensure_log_complete` returns what one call with a large enough buffer prints exactly
if the text is short, or if the retries come back to the same text with the arguments
that the passes before them have left. -/
theorem ensureLogComplete_complete_iff {allocated : Nat → Bool} {format : List (Directive Arg)}
    {args left : List Arg} {large : Nat} {buffer : Bytes} {length : Int}
    (allocates : ∀ size, allocated size = true) (returned : LengthsReturned format args)
    (printed : vsnprintf (List.replicate large 0) large format args = some (buffer, length, left))
    (enough : -1 < length ∧ length < large) :
    (∃ fuel, ensureLogComplete allocated fuel (some format) args = some (cBytes buffer)) ↔
      length < 1024 ∨ length < intMax ∧ Repeats format (cBytes buffer) length.toNat left := by
  obtain ⟨text, formatted, rfl, _, rfl⟩ := vsnprintf_eq_some printed enough.1
  have expected : cBytes (fill (List.replicate large 0) large text) = cBytes text :=
    cBytes_fill (by omega)
  have result := ensureLogComplete_iff allocates returned formatted
  have short : (text.length : Int) < 1024 ↔ text.length < 1024 := by omega
  rw [expected, Int.toNat_natCast, result, short, Int.ofNat_lt]

def stringDirective : Directive Bytes :=
  { arity := 1, render := fun args => args.head?.map cBytes }

def bodyFormat : List (Directive Bytes) := [.literal [98, 61], stringDirective]

theorem ensureLogComplete_complete_iff_hi :
    ∃ fuel, ensureLogComplete (fun _ => true) fuel (some bodyFormat) [[104, 105]] =
      some [98, 61, 104, 105] := by
  have formatted : formatText bodyFormat [[104, 105]] = some ([98, 61, 104, 105], []) := by decide
  have printed : vsnprintf (List.replicate 6 0) 6 bodyFormat [[104, 105]] =
      some ([98, 61, 104, 105, 0, 0], 4, []) := by decide
  exact (ensureLogComplete_complete_iff (fun _ => rfl) (.of_exact formatted (by decide)) printed
    (by decide)).mpr (.inl (by decide))

theorem formatText_bodyFormat (count : Nat) :
    formatText bodyFormat [List.replicate count 97] =
      some (98 :: 61 :: List.replicate count 97, []) := by
  simp [formatText, bodyFormat, stringDirective, Directive.literal, cBytes]

/-- The retry for a body of 1024 bytes looks for an argument behind the last one. -/
theorem longBody_not_returned :
    ¬ ∀ (format : List (Directive Bytes)) (args left : List Bytes) (large : Nat) (buffer : Bytes)
      (length : Int), LengthsReturned format args →
      vsnprintf (List.replicate large 0) large format args = some (buffer, length, left) →
      -1 < length ∧ length < large →
      ∃ fuel, ensureLogComplete (fun _ => true) fuel (some format) args = some (cBytes buffer) := by
  intro always
  have formatted := formatText_bodyFormat 1024
  have size : (98 :: 61 :: List.replicate 1024 (97 : UInt8)).length = 1026 := by
    rw [List.length_cons, List.length_cons, List.length_replicate]
  have whole : (98 :: 61 :: List.replicate 1024 (97 : UInt8)).length ≤ intMax := by
    rw [size]
    decide
  have printed := vsnprintf_of_formatText (List.replicate 1027 0) 1027 formatted whole
  have result := always _ _ _ _ _ _ (.of_exact formatted whole) printed (by rw [size]; decide)
  rw [cBytes_fill (by rw [size]; decide),
    ensureLogComplete_iff_short (fun _ => rfl) (by decide) whole formatted, size] at result
  exact absurd result (by decide)

/-! `log4cxx_package`: the records that it hands to log4cxx. -/

def logTrace : Int := 0

def logFatal : Int := 5

structure LogRecord where
  level : Int
  user : Bytes
  strLog : Bytes
  deriving DecidableEq, Repr

def decimalBytes (line : Int) : Bytes := (toString line).toUTF8.toList

/-- `"[" + file + ":" + acTmp + " " + function + "] "`, where `snprintf` keeps at most 28
digits of the line. -/
def linePrefix (file function : Bytes) (line : Int) : Bytes :=
  91 :: file ++ 58 :: (decimalBytes line).take 28 ++ 32 :: function ++ [93, 32]

def log4cxxPackage (allocated : Nat → Bool) (fuel : Nat) (level : Int) (user : Bytes)
    (file function : Option Bytes) (line : Int) (format : Option (List (Directive Arg)))
    (args : List Arg) : Option (List LogRecord) :=
  if logFatal < level ∨ level < logTrace then some []
  else
    match file, function, format with
    | some file, some function, some format =>
        (ensureLogComplete allocated fuel (some format) args).map fun text =>
          [{ level := level, user := user, strLog := linePrefix file function line ++ text }]
    | _, _, _ => some []

/-- The line of a message that consumes all its arguments is logged whole exactly if the
message is short. -/
theorem log4cxxPackage_iff_short {allocated : Nat → Bool} {format : List (Directive Arg)}
    {args : List Arg} {text : Bytes} {level : Int} (allocates : ∀ size, allocated size = true)
    (consumes : 0 < arityOf format) (whole : text.length ≤ intMax)
    (formatted : formatText format args = some (text, []))
    (inRange : logTrace ≤ level ∧ level ≤ logFatal) (user file function : Bytes) (line : Int) :
    (∃ fuel, log4cxxPackage allocated fuel level user (some file) (some function) line
        (some format) args =
      some [{ level := level, user := user,
              strLog := linePrefix file function line ++ cBytes text }]) ↔
      text.length < 1024 := by
  have passes : ¬(logFatal < level ∨ level < logTrace) := by omega
  rw [← ensureLogComplete_iff_short allocates consumes whole formatted]
  simp only [log4cxxPackage, passes, ↓reduceIte, Option.map_eq_some_iff, List.cons.injEq,
    LogRecord.mk.injEq, List.append_cancel_left_eq, true_and, and_true, exists_eq_right]

end DcCluster.XLogger

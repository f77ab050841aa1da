import DcCluster.Lib.CInt

/-!
`swartz_sem_wait` of `swartz_sem.cpp`, as it is built for Linux. How each call of
`sem_wait`, `sem_trywait` or `sem_timedwait` ends is an input; the calls and the
outcomes that nobody has asked for are kept, so that a wait that is cut short shows.
-/

namespace DcCluster.Sem

def swartzOk : Int := 0

def swartzErr : Int := -1

/-- How one call into the semaphore ends: 0, or -1 with `EINTR` or another `errno`. -/
inductive SemOutcome
  | success
  | interrupted
  | failed
  deriving DecidableEq, Repr

def SemOutcome.ret : SemOutcome → Int
  | .success => 0
  | .interrupted | .failed => -1

inductive SemCall
  | wait
  | trywait
  | timedwait (tvSec tvNsec : Int)
  deriving DecidableEq, Repr

structure Waited where
  returned : Int
  calls : List SemCall
  left : List SemOutcome
  deriving DecidableEq, Repr

def Waited.afterInterrupt (call : SemCall) (waited : Waited) : Waited :=
  { waited with calls := call :: waited.calls }

/-- The loop around a call that is repeated while it is interrupted. No result means
that the last call has not ended. -/
def repeatCall (call : SemCall) : List SemOutcome → Option Waited
  | [] => none
  | .interrupted :: rest => (repeatCall call rest).map (.afterInterrupt call)
  | .success :: rest => some { returned := SemOutcome.success.ret, calls := [call], left := rest }
  | .failed :: rest => some { returned := SemOutcome.failed.ret, calls := [call], left := rest }

def okOrErr (waited : Waited) : Waited :=
  { waited with returned := if waited.returned = 0 then swartzOk else swartzErr }

structure Timeval where
  tvSec : Int
  tvUsec : Int

def deadline (tv : Timeval) (timeout : Int) : SemCall :=
  let now := tv.tvUsec * 1000 + timeout.tmod 1000 * 1000000
  .timedwait
    (tv.tvSec + timeout.tdiv 1000 + if 999999999 < now then 1 else 0)
    (now.tmod 1000000000)

/-- The deadline operation by operation, each with the type C gives it. No result means
that one of them overflows. -/
def checkedDeadline (tv : Timeval) (timeout : Int) : Option SemCall := do
  let tvSec ← Lib.longLongResult (tv.tvSec + (← Lib.intResult (timeout.tdiv 1000)))
  let now ← Lib.longLongResult (tv.tvUsec * 1000)
  let now ← Lib.longLongResult (now + (← Lib.intResult (timeout.tmod 1000 * 1000000)))
  let tvSec ← (if 999999999 < now then Lib.longLongResult (tvSec + 1) else some tvSec)
  some (.timedwait tvSec (now.tmod 1000000000))

def swartzSemWait (handleGiven : Bool) (timeout : Int) (tv : Timeval) (outcomes : List SemOutcome) :
    Option Waited :=
  if handleGiven = false then some { returned := swartzErr, calls := [], left := outcomes }
  else if timeout = -1 then
    match outcomes with
    | [] => none
    | outcome :: rest =>
        some (okOrErr { returned := outcome.ret, calls := [.wait], left := rest })
  else if timeout = 0 then (repeatCall .trywait outcomes).map okOrErr
  else repeatCall (deadline tv timeout) outcomes

/-- After these interruptions and a last outcome the wait has returned what that
outcome says, and it has returned because of it. -/
def ReportsTruthfully (timeout : Int) (tv : Timeval) (interruptions : Nat) (final : SemOutcome)
    (later : List SemOutcome) : Prop :=
  ∃ waited, swartzSemWait true timeout tv
      (List.replicate interruptions .interrupted ++ final :: later) = some waited ∧
    waited.returned = (if final = .success then swartzOk else swartzErr) ∧ waited.left = later

theorem repeatCall_interrupted (call : SemCall) (interruptions : Nat) {final : SemOutcome}
    (ends : final ≠ .interrupted) (later : List SemOutcome) :
    repeatCall call (List.replicate interruptions .interrupted ++ final :: later) =
      some { returned := final.ret, calls := List.replicate (interruptions + 1) call,
             left := later } := by
  induction interruptions with
  | zero =>
      cases final with
      | interrupted => exact absurd rfl ends
      | success => rfl
      | failed => rfl
  | succ interruptions ih =>
      rw [List.replicate_succ, List.cons_append, repeatCall, ih]
      rfl

theorem ret_eq (final : SemOutcome) :
    final.ret = if final = .success then swartzOk else swartzErr := by
  cases final <;> rfl

theorem okOrErr_ret (final : SemOutcome) (calls : List SemCall) (left : List SemOutcome) :
    okOrErr { returned := final.ret, calls := calls, left := left } =
      { returned := final.ret, calls := calls, left := left } := by
  cases final <;> rfl

theorem swartzSemWait_repeats {timeout : Int} (bounded : timeout ≠ -1) (tv : Timeval)
    (interruptions : Nat) {final : SemOutcome} (ends : final ≠ .interrupted)
    (later : List SemOutcome) :
    swartzSemWait true timeout tv (List.replicate interruptions .interrupted ++ final :: later) =
      some { returned := final.ret
             calls := List.replicate (interruptions + 1)
               (if timeout = 0 then .trywait else deadline tv timeout)
             left := later } := by
  simp only [swartzSemWait, Bool.true_eq_false, bounded, ↓reduceIte]
  by_cases polls : timeout = 0
  · simp only [polls, ↓reduceIte, repeatCall_interrupted _ _ ends, Option.map_some, okOrErr_ret]
  · simp only [polls, ↓reduceIte, repeatCall_interrupted _ _ ends]

theorem swartzSemWait_infinite (tv : Timeval) (first : SemOutcome) (later : List SemOutcome) :
    swartzSemWait true (-1) tv (first :: later) =
      some { returned := first.ret, calls := [.wait], left := later } := by
  simp [swartzSemWait, okOrErr_ret]

theorem deadline_exact {tv : Timeval} {timeout : Int} (clock : 0 ≤ tv.tvUsec ∧ tv.tvUsec < 1000000)
    (positive : 0 < timeout) :
    ∃ tvSec tvNsec, deadline tv timeout = .timedwait tvSec tvNsec ∧ 0 ≤ tvNsec ∧
      tvNsec < 1000000000 ∧
      tvSec * 1000000000 + tvNsec =
        tv.tvSec * 1000000000 + tv.tvUsec * 1000 + timeout * 1000000 := by
  have seconds : timeout.tdiv 1000 = timeout / 1000 := Int.tdiv_eq_ediv_of_nonneg (by omega)
  have rest : timeout.tmod 1000 = timeout % 1000 := Int.tmod_eq_emod_of_nonneg (by omega)
  have nanoseconds : (tv.tvUsec * 1000 + timeout % 1000 * 1000000).tmod 1000000000 =
      (tv.tvUsec * 1000 + timeout % 1000 * 1000000) % 1000000000 :=
    Int.tmod_eq_emod_of_nonneg (by omega)
  refine ⟨_, _, rfl, ?_, ?_, ?_⟩
  · rw [rest, nanoseconds]
    omega
  · rw [rest, nanoseconds]
    omega
  · rw [rest, nanoseconds, seconds]
    split <;> omega

theorem checkedDeadline_eq {tv : Timeval} {timeout : Int} {call : SemCall}
    (computed : checkedDeadline tv timeout = some call) : call = deadline tv timeout := by
  simp only [checkedDeadline, Option.bind_eq_bind, Option.bind_eq_some_iff] at computed
  obtain ⟨quotient, quotientFits, tvSec, tvSecFits, usec, usecFits, rest, restFits, now, nowFits,
    carried, carriedFits, same⟩ := computed
  obtain rfl := Lib.eq_of_signedResult quotientFits
  obtain rfl := Lib.eq_of_signedResult tvSecFits
  obtain rfl := Lib.eq_of_signedResult usecFits
  obtain rfl := Lib.eq_of_signedResult restFits
  obtain rfl := Lib.eq_of_signedResult nowFits
  obtain rfl := Option.some.inj same
  unfold deadline
  dsimp only
  split at carriedFits
  next carry =>
    obtain rfl := Lib.eq_of_signedResult carriedFits
    rw [if_pos carry]
  next noCarry =>
    obtain rfl := Option.some.inj carriedFits
    rw [if_neg noCarry, Int.add_zero]

theorem checkedDeadline_of_fits {tv : Timeval} {timeout : Int} (positive : 1 ≤ timeout)
    (int : timeout ≤ 2147483647) (clock : 0 ≤ tv.tvUsec ∧ tv.tvUsec ≤ 999999)
    (past : -9223372036854775808 ≤ tv.tvSec)
    (future : tv.tvSec + 2147483648 ≤ 9223372036854775807) :
    checkedDeadline tv timeout = some (deadline tv timeout) := by
  have seconds : timeout.tdiv 1000 = timeout / 1000 := Int.tdiv_eq_ediv_of_nonneg (by omega)
  have rest : timeout.tmod 1000 = timeout % 1000 := Int.tmod_eq_emod_of_nonneg (by omega)
  have quotientFits : Lib.intResult (timeout / 1000) = some (timeout / 1000) :=
    Lib.signedResult_of_fits (by omega) (by omega)
  have tvSecFits : Lib.longLongResult (tv.tvSec + timeout / 1000) =
      some (tv.tvSec + timeout / 1000) :=
    Lib.signedResult_of_fits (by omega) (by omega)
  have usecFits : Lib.longLongResult (tv.tvUsec * 1000) = some (tv.tvUsec * 1000) :=
    Lib.signedResult_of_fits (by omega) (by omega)
  have restFits : Lib.intResult (timeout % 1000 * 1000000) = some (timeout % 1000 * 1000000) :=
    Lib.signedResult_of_fits (by omega) (by omega)
  have nowFits : Lib.longLongResult (tv.tvUsec * 1000 + timeout % 1000 * 1000000) =
      some (tv.tvUsec * 1000 + timeout % 1000 * 1000000) :=
    Lib.signedResult_of_fits (by omega) (by omega)
  have carryFits : Lib.longLongResult (tv.tvSec + timeout / 1000 + 1) =
      some (tv.tvSec + timeout / 1000 + 1) :=
    Lib.signedResult_of_fits (by omega) (by omega)
  have computed : ∃ call, checkedDeadline tv timeout = some call := by
    simp only [checkedDeadline, seconds, rest, quotientFits, tvSecFits, usecFits, restFits,
      nowFits, carryFits, Option.bind_eq_bind, Option.bind_some]
    split <;> exact ⟨_, rfl⟩
  obtain ⟨call, computed⟩ := computed
  rw [computed, checkedDeadline_eq computed]

/-- The deadline is exact, in normal form and without overflow, and every call of the
wait is given it, however often a signal interrupts. -/
theorem swartzSemWait_deadline {timeout : Int} (positive : 1 ≤ timeout)
    (int : timeout ≤ 2147483647) {tv : Timeval} (clock : 0 ≤ tv.tvUsec ∧ tv.tvUsec ≤ 999999)
    (past : -9223372036854775808 ≤ tv.tvSec)
    (future : tv.tvSec + 2147483648 ≤ 9223372036854775807) :
    ∃ tvSec tvNsec, checkedDeadline tv timeout = some (.timedwait tvSec tvNsec) ∧
      0 ≤ tvNsec ∧ tvNsec < 1000000000 ∧
      tvSec * 1000000000 + tvNsec =
        tv.tvSec * 1000000000 + tv.tvUsec * 1000 + timeout * 1000000 ∧
      ∀ (interruptions : Nat) (final : SemOutcome) (later : List SemOutcome),
        final ≠ .interrupted →
        swartzSemWait true timeout tv
            (List.replicate interruptions .interrupted ++ final :: later) =
          some { returned := final.ret
                 calls := List.replicate (interruptions + 1) (.timedwait tvSec tvNsec)
                 left := later } := by
  obtain ⟨tvSec, tvNsec, same, nonneg, small, exact⟩ :=
    @deadline_exact tv timeout (by omega) (by omega)
  refine ⟨tvSec, tvNsec, ?_, nonneg, small, exact, ?_⟩
  · rw [checkedDeadline_of_fits positive int clock past future, same]
  · intro interruptions final later ends
    rw [swartzSemWait_repeats (by omega) tv interruptions ends later, if_neg (by omega), same]

/-- A wait of 30 s that begins in the last microsecond of a second, and that two signals
interrupt. -/
theorem swartzSemWait_deadline_carries :
    ∃ tvSec tvNsec,
      checkedDeadline ⟨1700000000, 999999⟩ 30000 = some (.timedwait tvSec tvNsec) ∧
      tvNsec < 1000000000 ∧
      tvSec * 1000000000 + tvNsec =
        1700000000 * 1000000000 + 999999 * 1000 + 30000 * 1000000 ∧
      swartzSemWait true 30000 ⟨1700000000, 999999⟩ [.interrupted, .interrupted, .success] =
        some { returned := 0
               calls := List.replicate 3 (.timedwait tvSec tvNsec)
               left := [] } :=
  have ⟨tvSec, tvNsec, computed, _, small, exact, repeated⟩ :=
    @swartzSemWait_deadline 30000 (by decide) (by decide) ⟨1700000000, 999999⟩ (by decide)
      (by decide) (by decide)
  ⟨tvSec, tvNsec, computed, small, exact, repeated 2 .success [] (by decide)⟩

/-- Each of the three waits reports its token truthfully exactly if it is not the
infinite one, or no signal interrupts it. -/
theorem swartzSemWait_truthful_iff {timeout : Int}
    (mode : timeout = -1 ∨ timeout = 0 ∨ 0 < timeout) (tv : Timeval) (interruptions : Nat)
    {final : SemOutcome} (ends : final ≠ .interrupted) (later : List SemOutcome) :
    ReportsTruthfully timeout tv interruptions final later ↔
      timeout ≠ -1 ∨ interruptions = 0 := by
  by_cases infinite : timeout = -1
  · subst infinite
    cases interruptions with
    | zero =>
        refine iff_of_true ⟨_, swartzSemWait_infinite tv final later, ret_eq final, rfl⟩ ?_
        exact .inr rfl
    | succ interruptions =>
        refine iff_of_false ?_ (by simp)
        rintro ⟨waited, result, _, consumed⟩
        rw [List.replicate_succ, List.cons_append, swartzSemWait_infinite,
          Option.some.injEq] at result
        subst result
        -- the final outcome is still among the outcomes that nobody asked for
        have lengths := congrArg List.length consumed
        simp only [List.length_append, List.length_replicate, List.length_cons] at lengths
        omega
  · refine iff_of_true ⟨_, swartzSemWait_repeats infinite tv interruptions ends later, ret_eq final,
      rfl⟩ (.inl infinite)

theorem swartzSemWait_truthful_iff_timed :
    ReportsTruthfully 30000 ⟨1700000000, 999999⟩ 2 .success [] :=
  (swartzSemWait_truthful_iff (.inr (.inr (by decide))) _ 2 (by decide) []).mpr (.inl (by decide))

/-- A signal during the wait of `thrmgr_destroy` for the last worker. -/
theorem interruptedDestroy_reports_error :
    ¬ ∀ (timeout : Int) (tv : Timeval) (interruptions : Nat) (final : SemOutcome)
      (later : List SemOutcome), timeout = -1 ∨ timeout = 0 ∨ 0 < timeout →
      final ≠ .interrupted → ReportsTruthfully timeout tv interruptions final later := by
  intro always
  obtain ⟨waited, result, reported, _⟩ :=
    always (-1) ⟨0, 0⟩ 1 .success [] (.inl rfl) (by decide)
  have returned : swartzSemWait true (-1) ⟨0, 0⟩ [.interrupted, .success] =
      some { returned := -1, calls := [.wait], left := [.success] } :=
    swartzSemWait_infinite _ _ _
  obtain rfl := Option.some.inj (result.symm.trans returned)
  exact absurd reported (by decide)

end DcCluster.Sem

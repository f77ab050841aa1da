import DcCluster.Lib.PosixMutex
import DcCluster.Utils.SwartzSem

/-!
`swartz_mutex.cpp` as it is built for Linux, and the classes `CMutex` and `CGuard` of
`swartz_mutexEx.h` over it. Whether `malloc` and `pthread_mutex_init` succeed is an input.
-/

namespace DcCluster.Mutex

open Lib
open Sem (swartzOk swartzErr)

abbrev ThreadId := Nat

def swartzMutexAttrRecursive : Int := 0

def swartzMutexAttrFast : Int := 1

/-- The values that glibc gives to `PTHREAD_MUTEX_NORMAL`, `PTHREAD_MUTEX_RECURSIVE` and
`PTHREAD_MUTEX_ERRORCHECK`. -/
def kindOfType : Int → Option MutexKind
  | 0 => some .normal
  | 1 => some .recursive
  | 2 => some .errorcheck
  | _ => none

def pthreadMutexattrInit : MutexKind := .normal

/-- A type that is not known leaves the attributes as they are. -/
def pthreadMutexattrSettype (attr : MutexKind) (type : Int) : MutexKind :=
  (kindOfType type).getD attr

/-- The result, and what `*handle` is after the call. -/
def swartzMutexCreate (handleGiven allocated : Bool) (initResult : Int) (flag : Int) :
    Int × Option (PosixMutex ThreadId) :=
  if handleGiven = false then (swartzErr, none)
  else if allocated = false then (swartzErr, none)
  else
    let attr := pthreadMutexattrSettype pthreadMutexattrInit flag
    if initResult ≠ 0 then (swartzErr, none)
    else (swartzOk, some { kind := attr, holder := none })

def swartzResult (ended : Int × PosixMutex ThreadId) : Int × Option (PosixMutex ThreadId) :=
  (if ended.1 = 0 then swartzOk else swartzErr, some ended.2)

def swartzMutexLock (handle : Option (PosixMutex ThreadId)) (thread : ThreadId) :
    CallEnd (Int × Option (PosixMutex ThreadId)) :=
  match handle with
  | none => .returns (swartzErr, none)
  | some mutex => (mutex.lock thread).map swartzResult

def swartzMutexUnlock (handle : Option (PosixMutex ThreadId)) (thread : ThreadId) :
    CallEnd (Int × Option (PosixMutex ThreadId)) :=
  match handle with
  | none => .returns (swartzErr, none)
  | some mutex => (mutex.unlock thread).map swartzResult

structure CMutex where
  mMutex : Option (PosixMutex ThreadId)

def CMutex.new (allocated : Bool) (initResult : Int) : CMutex :=
  { mMutex := (swartzMutexCreate true allocated initResult swartzMutexAttrRecursive).2 }

def CMutex.lock (thread : ThreadId) (mutex : CMutex) : CallEnd CMutex :=
  if mutex.mMutex.isSome then
    (swartzMutexLock mutex.mMutex thread).map fun ended => { mMutex := ended.2 }
  else .returns mutex

def CMutex.unLock (thread : ThreadId) (mutex : CMutex) : CallEnd CMutex :=
  if mutex.mMutex.isSome then
    (swartzMutexUnlock mutex.mMutex thread).map fun ended => { mMutex := ended.2 }
  else .returns mutex

def CMutex.perform (thread : ThreadId) : MutexCall → CMutex → CallEnd CMutex
  | .lock => CMutex.lock thread
  | .unlock => CMutex.unLock thread

/-- A `CGuard` locks in its constructor and unlocks in its destructor. -/
def runGuards (thread : ThreadId) : Scopes → CMutex → CallEnd CMutex
  | .done, mutex => .returns mutex
  | .scope body rest, mutex =>
      (mutex.lock thread).bind fun locked =>
        (runGuards thread body locked).bind fun after =>
          (after.unLock thread).bind (runGuards thread rest)

theorem runGuards_eq (thread : ThreadId) (scopes : Scopes) (mutex : CMutex) :
    runGuards thread scopes mutex = runCalls CMutex.perform thread mutex scopes.calls := by
  induction scopes generalizing mutex with
  | done => rfl
  | scope body rest bodyRun restRun =>
      rw [Scopes.calls, List.cons_append, runCalls, runGuards]
      simp only [runCalls_append, runCalls, bodyRun, funext restRun, CMutex.perform]

theorem perform_embeds (thread : ThreadId) (call : MutexCall) (mutex : PosixMutex ThreadId) :
    CMutex.perform thread call { mMutex := some mutex } =
      (PosixMutex.perform thread call mutex).map fun after => { mMutex := some after } := by
  cases call with
  | lock =>
      simp only [CMutex.perform, CMutex.lock, Option.isSome_some, ↓reduceIte, swartzMutexLock,
        PosixMutex.perform, CallEnd.map_map]
      rfl
  | unlock =>
      simp only [CMutex.perform, CMutex.unLock, Option.isSome_some, ↓reduceIte, swartzMutexUnlock,
        PosixMutex.perform, CallEnd.map_map]
      rfl

theorem swartzMutexCreate_eq {allocated : Bool} {initResult flag : Int}
    (created : (swartzMutexCreate true allocated initResult flag).1 = swartzOk) :
    (swartzMutexCreate true allocated initResult flag).2 =
      some (PosixMutex.lockedAt ((kindOfType flag).getD .normal) 0 0) := by
  unfold swartzMutexCreate at *
  cases allocated with
  | false => cases created
  | true =>
      by_cases failed : initResult = 0
      · simp [failed, pthreadMutexattrSettype, pthreadMutexattrInit, PosixMutex.lockedAt]
      · simp [failed, swartzErr, swartzOk] at created

/-- The type number reaches POSIX unchanged, so a mutex nests exactly with the number of
the recursive type. -/
theorem createdMutex_nests_iff {allocated : Bool} {initResult flag : Int}
    (created : (swartzMutexCreate true allocated initResult flag).1 = swartzOk)
    {calls : List MutexCall} (well : WellBracketed calls) (thread : ThreadId) :
    NestsFrom CMutex.perform thread 0
        { mMutex := (swartzMutexCreate true allocated initResult flag).2 } calls ↔
      kindOfType flag = some .recursive ∨ Shallow 0 calls := by
  rw [swartzMutexCreate_eq created]
  have free : PosixMutex.lockedAt ((kindOfType flag).getD .normal) 0 0 =
      PosixMutex.lockedAt ((kindOfType flag).getD .normal) thread 0 := rfl
  rw [free, nestsFrom_map perform_embeds, nestsFrom_iff well]
  cases kindOfType flag <;> simp

theorem fastMutex_nests {allocated : Bool} {initResult : Int}
    (created : (swartzMutexCreate true allocated initResult swartzMutexAttrFast).1 = swartzOk)
    {calls : List MutexCall} (well : WellBracketed calls) (thread : ThreadId) :
    NestsFrom CMutex.perform thread 0
      { mMutex := (swartzMutexCreate true allocated initResult swartzMutexAttrFast).2 } calls :=
  (createdMutex_nests_iff created well thread).mpr (.inl rfl)

/-- Guards are all left again exactly if none of them begins inside another. -/
theorem runGuards_returns_iff {allocated : Bool} {initResult : Int}
    (created : (swartzMutexCreate true allocated initResult swartzMutexAttrRecursive).1 = swartzOk)
    (thread : ThreadId) (scopes : Scopes) :
    (∃ after, runGuards thread scopes (CMutex.new allocated initResult) = .returns after) ↔
      Shallow 0 scopes.calls := by
  have well : WellBracketed scopes.calls := depthAfter_calls scopes 0
  have start : CMutex.new allocated initResult =
      { mMutex := some (PosixMutex.lockedAt .normal thread 0) } := by
    rw [CMutex.new, swartzMutexCreate_eq created]
    rfl
  rw [runGuards_eq, start, runCalls_map perform_embeds]
  constructor
  · rintro ⟨after, ends⟩
    obtain ⟨reached, ends, _⟩ := CallEnd.map_eq_returns.mp ends
    have nests := nestsFrom_of_returns (by decide) well ends
    exact ((nestsFrom_iff well thread).mp nests).resolve_left (by decide)
  · intro shallow
    obtain ⟨reached, ends, _⟩ :=
      (nestsFrom_iff well thread).mpr (.inr shallow) scopes.calls (List.prefix_refl _)
    exact ⟨_, CallEnd.map_eq_returns.mpr ⟨reached, ends, rfl⟩⟩

/-- `SWARTZ_MUTEX_ATTR_RECURSIVE` is the number of the normal type. -/
theorem cMutex_nests_iff {allocated : Bool} {initResult : Int}
    (created : (swartzMutexCreate true allocated initResult swartzMutexAttrRecursive).1 = swartzOk)
    {calls : List MutexCall} (well : WellBracketed calls) (thread : ThreadId) :
    NestsFrom CMutex.perform thread 0 (CMutex.new allocated initResult) calls ↔
      Shallow 0 calls := by
  rw [CMutex.new, createdMutex_nests_iff created well, swartzMutexAttrRecursive, kindOfType]
  simp

theorem cMutex_nests_iff_twoSections :
    NestsFrom CMutex.perform 1 0 (CMutex.new true 0) [.lock, .unlock, .lock, .unlock] ↔
      Shallow 0 [.lock, .unlock, .lock, .unlock] :=
  @cMutex_nests_iff true 0 (by decide) [.lock, .unlock, .lock, .unlock] rfl 1

/-- The second of two nested guards never gets past its constructor. -/
theorem nestedGuards_deadlock :
    ¬ ∀ (thread : ThreadId) (calls : List MutexCall), WellBracketed calls →
      NestsFrom CMutex.perform thread 0 (CMutex.new true 0) calls := by
  intro nests
  obtain ⟨reached, ends, _⟩ :=
    nests 1 (Scopes.scope (.scope .done .done) .done).calls rfl [.lock, .lock] ⟨_, rfl⟩
  have blocks : runCalls CMutex.perform 1 (CMutex.new true 0) [.lock, .lock] = .blocks := rfl
  rw [blocks] at ends
  cases ends

end DcCluster.Mutex

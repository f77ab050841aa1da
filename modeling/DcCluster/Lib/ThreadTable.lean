import Mathlib.Data.List.Perm.Basic

/-!
Counting the threads of a table that stand at a given program point. A thread
moves by overwriting its own slot; a thread is created by appending a slot.
-/

namespace DcCluster.Lib

open List

variable {Thread : Type*}

/-- Moving one thread shifts a count by what its old and its new point contribute. -/
theorem countP_set_balance (point : Thread → Bool) {threads : List Thread} {index : Nat}
    {old : Thread} (found : threads[index]? = some old) (new : Thread) :
    (threads.set index new).countP point + (point old).toNat =
      threads.countP point + (point new).toNat := by
  induction threads generalizing index with
  | nil => simp at found
  | cons first rest ih =>
      cases index with
      | zero =>
          simp only [List.getElem?_cons_zero, Option.some.injEq] at found
          subst first
          cases hold : point old <;> cases hnew : point new <;> simp [hold, hnew]
      | succ index =>
          simp only [List.getElem?_cons_succ] at found
          have tail := ih found
          simp only [List.set_cons_succ, List.countP_cons]
          omega

theorem filterMap_set_perm {Held : Type*} (holding : Thread → Option Held)
    {threads : List Thread} {index : Nat} {old : Thread} (found : threads[index]? = some old)
    (new : Thread) :
    ((holding old).toList ++ (threads.set index new).filterMap holding).Perm
      ((holding new).toList ++ threads.filterMap holding) := by
  induction threads generalizing index with
  | nil => simp at found
  | cons first rest ih =>
      have split (thread : Thread) (others : List Thread) :
          (thread :: others).filterMap holding =
            (holding thread).toList ++ others.filterMap holding := by
        cases here : holding thread <;> simp [here]
      cases index with
      | zero =>
          simp only [List.getElem?_cons_zero, Option.some.injEq] at found
          subst first
          rw [List.set_cons_zero, split, split, ← List.append_assoc, ← List.append_assoc]
          exact List.perm_append_comm.append_right _
      | succ index =>
          simp only [List.getElem?_cons_succ] at found
          rw [List.set_cons_succ, split, split]
          calc
            _ ~ (holding first).toList ++ ((holding old).toList ++
                  (rest.set index new).filterMap holding) := List.perm_append_comm_assoc _ _ _
            _ ~ (holding first).toList ++ ((holding new).toList ++ rest.filterMap holding) :=
                (ih found).append_left _
            _ ~ _ := List.perm_append_comm_assoc _ _ _

/-- The other threads of the table, counted without the one at an index. -/
theorem countP_eraseIdx_balance (point : Thread → Bool) {threads : List Thread} {index : Nat}
    {thread : Thread} (found : threads[index]? = some thread) :
    (threads.eraseIdx index).countP point + (point thread).toNat = threads.countP point := by
  induction threads generalizing index with
  | nil => simp at found
  | cons first rest ih =>
      cases index with
      | zero =>
          simp only [List.getElem?_cons_zero, Option.some.injEq] at found
          subst first
          cases here : point thread <;> simp [here]
      | succ index =>
          have tail := ih (by simpa using found)
          simp only [List.eraseIdx_cons_succ, List.countP_cons]
          omega

theorem toNat_pos_iff {here : Bool} : 0 < here.toNat ↔ here = true := by
  cases here <;> decide

theorem countP_pos_of_found (point : Thread → Bool) {threads : List Thread} {index : Nat}
    {thread : Thread} (found : threads[index]? = some thread) (here : point thread = true) :
    0 < threads.countP point :=
  List.countP_pos_iff.mpr ⟨thread, List.mem_of_getElem? found, here⟩

theorem toNat_le_countP (point : Thread → Bool) {threads : List Thread} {index : Nat}
    {thread : Thread} (found : threads[index]? = some thread) :
    (point thread).toNat ≤ threads.countP point := by
  cases here : point thread with
  | false => simp
  | true => exact countP_pos_of_found point found here

theorem countP_le_add {point left right : Thread → Bool}
    (covered : ∀ thread, point thread = true → left thread = true ∨ right thread = true)
    (threads : List Thread) : threads.countP point ≤ threads.countP left + threads.countP right := by
  induction threads with
  | nil => simp
  | cons thread rest ih =>
      simp only [List.countP_cons]
      by_cases here : point thread = true
      · rcases covered thread here with onLeft | onRight
        · simp only [here, onLeft, ↓reduceIte]
          omega
        · simp only [here, onRight, ↓reduceIte]
          omega
      · simp only [here, Bool.false_eq_true, ↓reduceIte]
        omega

theorem countP_add_le {left right point : Thread → Bool}
    (apart : ∀ thread, (left thread).toNat + (right thread).toNat ≤ (point thread).toNat)
    (threads : List Thread) : threads.countP left + threads.countP right ≤ threads.countP point := by
  induction threads with
  | nil => simp
  | cons thread rest ih =>
      have here := apart thread
      have counted (wider : Thread → Bool) :
          (thread :: rest).countP wider = rest.countP wider + (wider thread).toNat := by
        cases at' : wider thread <;> simp [at']
      rw [counted left, counted right, counted point]
      omega

theorem countP_add_le_of_found {point wider : Thread → Bool}
    (implied : ∀ thread, point thread = true → wider thread = true) {threads : List Thread}
    {index : Nat} {thread : Thread} (found : threads[index]? = some thread) :
    threads.countP point + (wider thread).toNat ≤ threads.countP wider + (point thread).toNat := by
  induction threads generalizing index with
  | nil => simp at found
  | cons first rest ih =>
      have counted (at' : Thread → Bool) :
          (first :: rest).countP at' = rest.countP at' + (at' first).toNat := by
        cases here : at' first <;> simp [here]
      rw [counted point, counted wider]
      cases index with
      | zero =>
          simp only [List.getElem?_cons_zero, Option.some.injEq] at found
          subst first
          have tail : rest.countP point ≤ rest.countP wider :=
            List.countP_mono_left fun thread _ => implied thread
          omega
      | succ index =>
          simp only [List.getElem?_cons_succ] at found
          have tail := ih found
          have head : (point first).toNat ≤ (wider first).toNat := by
            cases here : point first with
            | false => simp
            | true => simp [implied first here]
          omega

theorem countP_eq_zero_iff_none {point : Thread → Bool} {threads : List Thread} :
    threads.countP point = 0 ↔ ∀ thread ∈ threads, point thread = false := by
  simp [List.countP_eq_zero]

section Found

variable {Point : Type*} {point : Thread → Option Point} {threads : List Thread} {index : Nat}
  {thread : Thread} (found : threads[index]? = some thread)
include found

theorem findSome?_set_of_none {new : Thread} (before : point thread = none)
    (after : point new = none) : (threads.set index new).findSome? point = threads.findSome? point := by
  induction threads generalizing index with
  | nil => rfl
  | cons first rest ih =>
      cases index with
      | zero =>
          simp only [List.getElem?_cons_zero, Option.some.injEq] at found
          subst first
          simp [before, after]
      | succ index =>
          simp only [List.getElem?_cons_succ] at found
          simp [List.findSome?_cons, ih found]

theorem findSome?_eq_of_alone
    (alone : ∀ other at', threads[other]? = some at' → other ≠ index → point at' = none) :
    threads.findSome? point = point thread := by
  induction threads generalizing index with
  | nil => simp at found
  | cons first rest ih =>
      cases index with
      | zero =>
          simp only [List.getElem?_cons_zero, Option.some.injEq] at found
          subst first
          have others : rest.findSome? point = none := by
            rw [List.findSome?_eq_none_iff]
            intro at' member
            obtain ⟨other, there⟩ := List.mem_iff_getElem?.mp member
            exact alone (other + 1) at' (by simpa using there) (by omega)
          cases here : point thread <;> simp [here, others]
      | succ index =>
          simp only [List.getElem?_cons_succ] at found
          have head : point first = none := alone 0 first rfl (by omega)
          have tail := ih found fun other at' there differs =>
            alone (other + 1) at' (by simpa using there) (by omega)
          simp [head, tail]

/-- A thread at a point that at most one thread stands at is the only one there. -/
theorem eq_of_countP_le_one {at' : Thread → Bool} (single : threads.countP at' ≤ 1)
    (here : at' thread = true) {other : Nat} {second : Thread}
    (there : threads[other]? = some second) (alsoHere : at' second = true) : other = index := by
  induction threads generalizing index other with
  | nil => simp at found
  | cons first rest ih =>
      simp only [List.countP_cons] at single
      cases index with
      | zero =>
          simp only [List.getElem?_cons_zero, Option.some.injEq] at found
          subst first
          cases other with
          | zero => rfl
          | succ other =>
              have second := countP_pos_of_found at' (by simpa using there) alsoHere
              simp only [here, ↓reduceIte] at single
              omega
      | succ index =>
          simp only [List.getElem?_cons_succ] at found
          cases other with
          | zero =>
              simp only [List.getElem?_cons_zero, Option.some.injEq] at there
              subst first
              have second := countP_pos_of_found at' found here
              simp only [alsoHere, ↓reduceIte] at single
              omega
          | succ other =>
              have same := ih found (by omega) (by simpa using there)
              omega

/-- Where the table holds nothing twice, a held thing tells its holder. -/
theorem eq_of_holding_nodup {Held : Type*} [DecidableEq Held] {holding : Thread → Option Held}
    (nodup : (threads.filterMap holding).Nodup) {held : Held} (holds : holding thread = some held)
    {other : Nat} {second : Thread} (there : threads[other]? = some second)
    (holdsToo : holding second = some held) : other = index := by
  have single := List.nodup_iff_count.mp nodup held
  rw [List.count_filterMap] at single
  exact eq_of_countP_le_one found single (by simp [holds]) there (by simp [holdsToo])

theorem mem_set_of_mem {new kept : Thread} (member : kept ∈ threads) (differs : kept ≠ thread) :
    kept ∈ threads.set index new := by
  obtain ⟨other, there⟩ := List.mem_iff_getElem?.mp member
  have apart : index ≠ other := by
    rintro rfl
    exact differs (by simpa using there.symm.trans found)
  exact List.mem_of_getElem? ((List.getElem?_set_ne apart).trans there)

theorem mem_filterMap_set_of_mem {Held : Type*} {holding : Thread → Option Held} {new : Thread}
    {held : Held} (member : held ∈ threads.filterMap holding) (elsewhere : holding thread ≠ some held) :
    held ∈ (threads.set index new).filterMap holding := by
  obtain ⟨holder, inThreads, holds⟩ := List.mem_filterMap.mp member
  have differs : holder ≠ thread := by
    rintro rfl
    exact elsewhere holds
  exact List.mem_filterMap.mpr ⟨holder, mem_set_of_mem found inThreads differs, holds⟩

end Found

theorem mem_filterMap_set {Held : Type*} {holding : Thread → Option Held} {threads : List Thread}
    {index : Nat} {new : Thread} {held : Held}
    (member : held ∈ (threads.set index new).filterMap holding) :
    holding new = some held ∨
      ∃ other thread, other ≠ index ∧ threads[other]? = some thread ∧ holding thread = some held := by
  obtain ⟨thread, inSet, holds⟩ := List.mem_filterMap.mp member
  obtain ⟨other, there⟩ := List.mem_iff_getElem?.mp inSet
  by_cases same : other = index
  · subst other
    have bound : index < threads.length := by
      simpa using (List.getElem?_eq_some_iff.mp there).1
    rw [List.getElem?_set_self bound, Option.some.injEq] at there
    exact .inl (there ▸ holds)
  · rw [List.getElem?_set_ne (Ne.symm same)] at there
    exact .inr ⟨other, thread, same, there, holds⟩

theorem mem_filterMap_of_mem_set {Held : Type*} {holding : Thread → Option Held}
    {threads : List Thread} {index : Nat} {new : Thread} {held : Held}
    (member : held ∈ (threads.set index new).filterMap holding) (empty : holding new = none) :
    held ∈ threads.filterMap holding := by
  rcases mem_filterMap_set member with holds | ⟨_, thread, _, there, holds⟩
  · rw [empty] at holds
    cases holds
  · exact List.mem_filterMap.mpr ⟨thread, List.mem_of_getElem? there, holds⟩

end DcCluster.Lib

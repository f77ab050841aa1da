import Mathlib.Data.List.Nodup
import Mathlib.Logic.Function.Basic

/-!
Singly linked chains of cells in a heap. A cell is of any type; `next` reads its
link and `value` what it carries.
-/

namespace DcCluster.Lib

variable {Addr Cell Value : Type} {next : Cell → Option Addr} {value : Cell → Value}

/-- From `start` the links lead through these nodes, in this order, to `stop`. -/
def Chain (next : Cell → Option Addr) (value : Cell → Value) (heap : Addr → Option Cell) :
    Option Addr → List (Addr × Value) → Option Addr → Prop
  | start, [], stop => start = stop
  | start, node :: rest, stop =>
      start = some node.1 ∧ ∃ cell, heap node.1 = some cell ∧ value cell = node.2 ∧
        Chain next value heap (next cell) rest stop

def addresses (nodes : List (Addr × Value)) : List Addr := nodes.map Prod.fst

theorem chain_append {heap : Addr → Option Cell} {start stop : Option Addr}
    {front back : List (Addr × Value)} :
    Chain next value heap start (front ++ back) stop ↔
      ∃ middle, Chain next value heap start front middle ∧
        Chain next value heap middle back stop := by
  induction front generalizing start with
  | nil => simp [Chain]
  | cons node rest ih =>
      simp only [List.cons_append, Chain, ih]
      constructor
      · rintro ⟨starts, cell, here, carries, middle, before, after⟩
        exact ⟨middle, ⟨starts, cell, here, carries, before⟩, after⟩
      · rintro ⟨middle, ⟨starts, cell, here, carries, before⟩, after⟩
        exact ⟨starts, cell, here, carries, middle, before, after⟩

theorem chain_frame {heap after : Addr → Option Cell} {start stop : Option Addr}
    {nodes : List (Addr × Value)} (same : ∀ address ∈ addresses nodes, after address = heap address)
    (chain : Chain next value heap start nodes stop) : Chain next value after start nodes stop := by
  induction nodes generalizing start with
  | nil => exact chain
  | cons node rest ih =>
      obtain ⟨starts, cell, here, carries, chain⟩ := chain
      refine ⟨starts, cell, ?_, carries, ?_⟩
      · rw [same node.1 (by simp [addresses]), here]
      · refine ih ?_ chain
        intro address member
        exact same address (List.mem_cons_of_mem _ member)

theorem chain_unique {heap : Addr → Option Cell} {start : Option Addr}
    {first second : List (Addr × Value)} (left : Chain next value heap start first none)
    (right : Chain next value heap start second none) : first = second := by
  induction first generalizing start second with
  | nil =>
      cases second with
      | nil => rfl
      | cons node rest => cases left.symm.trans right.1
  | cons node rest ih =>
      obtain ⟨starts, cell, here, carries, left⟩ := left
      cases second with
      | nil => cases starts.symm.trans right
      | cons other more =>
          obtain ⟨otherStarts, otherCell, otherHere, otherCarries, right⟩ := right
          have address : node.1 = other.1 := Option.some.inj (starts.symm.trans otherStarts)
          rw [address, otherHere] at here
          obtain rfl := Option.some.inj here
          rw [ih left right, Prod.ext address (carries.symm.trans otherCarries)]

theorem chain_nodup {heap : Addr → Option Cell} {start : Option Addr}
    {nodes : List (Addr × Value)} (chain : Chain next value heap start nodes none) :
    (addresses nodes).Nodup := by
  induction nodes generalizing start with
  | nil => exact List.nodup_nil
  | cons node rest ih =>
      have whole := chain
      obtain ⟨rfl, cell, here, carries, chain⟩ := chain
      refine List.nodup_cons.mpr ⟨?_, ih chain⟩
      intro again
      obtain ⟨repeated, member, address⟩ := List.mem_map.mp again
      obtain ⟨front, back, rfl⟩ := List.append_of_mem member
      obtain ⟨middle, _, suffix⟩ := chain_append.mp chain
      have starts : middle = some node.1 := by rw [suffix.1, address]
      rw [starts] at suffix
      -- the chain from here would be as long as its own proper suffix
      have lengths := congrArg List.length (chain_unique whole suffix)
      simp only [List.length_cons, List.length_append] at lengths
      omega

theorem chain_start_eq_none {heap : Addr → Option Cell} {start : Option Addr}
    {nodes : List (Addr × Value)} (chain : Chain next value heap start nodes none) :
    start = none ↔ nodes = [] := by
  cases nodes with
  | nil => exact iff_of_true chain rfl
  | cons node rest =>
      obtain ⟨rfl, _⟩ := chain
      simp

theorem chain_allocated {heap : Addr → Option Cell} {start stop : Option Addr}
    {nodes : List (Addr × Value)} (chain : Chain next value heap start nodes stop) :
    ∀ address ∈ addresses nodes, heap address ≠ none := by
  induction nodes generalizing start with
  | nil => simp [addresses]
  | cons node rest ih =>
      obtain ⟨_, cell, here, _, chain⟩ := chain
      intro address member
      obtain rfl | later := List.mem_cons.mp member
      · simp [here]
      · exact ih chain address later

section Update

variable [DecidableEq Addr]

/-- Freeing the first cell leaves the chain of the others. -/
theorem chain_tail {heap : Addr → Option Cell} {start : Option Addr} {node : Addr × Value}
    {rest : List (Addr × Value)} (chain : Chain next value heap start (node :: rest) none) :
    ∃ cell, heap node.1 = some cell ∧ value cell = node.2 ∧
      Chain next value (Function.update heap node.1 none) (next cell) rest none := by
  have distinct : node.1 ∉ addresses rest := (List.nodup_cons.mp (chain_nodup chain)).1
  obtain ⟨_, cell, here, carries, chain⟩ := chain
  refine ⟨cell, here, carries, chain_frame ?_ chain⟩
  intro address member
  refine Function.update_of_ne ?_ _ _
  rintro rfl
  exact distinct member

theorem chain_link {heap : Addr → Option Cell} {start : Option Addr}
    {front : List (Addr × Value)} {last : Addr × Value} {fresh : Addr} {added linked : Cell}
    (chain : Chain next value heap start (front ++ [last]) none) (unused : heap fresh = none)
    (ends : next added = none) (links : next linked = some fresh)
    (carries : value linked = last.2) :
    Chain next value
      (Function.update (Function.update heap fresh (some added)) last.1 (some linked)) start
      (front ++ [last] ++ [(fresh, value added)]) none := by
  have distinct := chain_nodup chain
  have elsewhere : ∀ address ∈ addresses (front ++ [last]), address ≠ fresh := by
    rintro address member rfl
    exact chain_allocated chain address member unused
  obtain ⟨middle, before, rfl, _⟩ := chain_append.mp chain
  rw [List.append_assoc]
  refine chain_append.mpr ⟨some last.1, chain_frame ?_ before, rfl, linked, ?_, carries, links,
    added, ?_, rfl, ends⟩
  · intro address member
    rw [addresses, List.map_append] at elsewhere distinct
    rw [Function.update_of_ne, Function.update_of_ne]
    · exact elsewhere address (List.mem_append_left _ member)
    · rintro rfl
      exact (List.nodup_append.mp distinct).2.2 _ member _ (by simp) rfl
  · exact Function.update_self _ _ _
  · rw [Function.update_of_ne, Function.update_self]
    exact (elsewhere last.1 (by simp [addresses])).symm

end Update

end DcCluster.Lib

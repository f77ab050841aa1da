import DcCluster.Lib.CInt
import DcCluster.Lib.LinkedChain
import DcCluster.Lib.Transition
import DcCluster.Utils.ThreadPoolCore

/-!
The work queue of `swartz_thrmgr.cpp`, with its items in a heap. What `malloc` returns is
an input. A call without a result is one that follows a pointer to no item, or that
overflows `item_count`.
-/

namespace DcCluster.ThrMgr

open Lib

structure WorkItem (Addr Data : Type) where
  next : Option Addr
  data : Data
  deriving DecidableEq, Repr

structure WorkQueue (Addr : Type) where
  head : Option Addr
  tail : Option Addr
  itemCount : Int
  deriving DecidableEq, Repr

/-- The items by their addresses, the history of the addresses that have been freed, and
`work_q`. -/
structure Memory (Addr Data : Type) where
  items : Addr → Option (WorkItem Addr Data)
  freed : List Addr
  workQ : Option (WorkQueue Addr)

section Code

variable {Addr Data : Type} [DecidableEq Addr]

def Memory.store (memory : Memory Addr Data) (address : Addr) (item : WorkItem Addr Data) :
    Memory Addr Data :=
  { memory with items := Function.update memory.items address (some item) }

def Memory.free (memory : Memory Addr Data) (address : Addr) : Memory Addr Data :=
  { memory with
    items := Function.update memory.items address none
    freed := memory.freed ++ [address] }

def workQueueNew (items : Addr → Option (WorkItem Addr Data)) (allocated : Bool) :
    Memory Addr Data :=
  { items := items
    freed := []
    workQ := if allocated then some { head := none, tail := none, itemCount := 0 } else none }

def workQueueAdd (memory : Memory Addr Data) (data : Data) (allocated : Option Addr) :
    Option (Bool × Memory Addr Data) :=
  match memory.workQ, allocated with
  | none, _ => some (false, memory)
  | some _, none => some (false, memory)
  | some queue, some workItem =>
      let memory := memory.store workItem { next := none, data := data }
      match queue.head with
      | none =>
          let queue := { head := some workItem, tail := some workItem, itemCount := 1 }
          some (true, { memory with workQ := some queue })
      | some _ => do
          let tail ← queue.tail
          let last ← memory.items tail
          let memory := memory.store tail { last with next := some workItem }
          let itemCount ← intResult (queue.itemCount + 1)
          let queue := { queue with tail := some workItem, itemCount := itemCount }
          some (true, { memory with workQ := some queue })

/-- The result is what `*pparam` gets, or none for `SWARTZ_FALSE`. -/
def workQueuePop (memory : Memory Addr Data) : Option (Option Data × Memory Addr Data) :=
  match memory.workQ with
  | none => some (none, memory)
  | some queue =>
      match queue.head with
      | none => some (none, memory)
      | some workItem => do
          let item ← memory.items workItem
          let itemCount ← intResult (queue.itemCount - 1)
          let tail := if item.next.isNone then none else queue.tail
          let queue := { head := item.next, tail := tail, itemCount := itemCount }
          some (some item.data, { memory.free workItem with workQ := some queue })

/-- At most so many rounds of the loop in `work_queue_free`. -/
def popAll (rounds : Nat) (memory : Memory Addr Data) : Option (Memory Addr Data) :=
  match memory.workQ with
  | none => none
  | some queue =>
      if queue.itemCount = 0 then some memory
      else
        match rounds with
        | 0 => none
        | rounds + 1 => (workQueuePop memory).bind fun ended => popAll rounds ended.2

def workQueueFree (rounds : Nat) (memory : Memory Addr Data) : Option (Memory Addr Data) :=
  match memory.workQ with
  | none => some memory
  | some _ => (popAll rounds memory).map fun emptied => { emptied with workQ := none }

end Code

inductive Call (Addr Data : Type)
  | add (data : Data) (allocated : Option Addr)
  | pop
  deriving DecidableEq, Repr

inductive Answer (Data : Type)
  | added (ok : Bool)
  | popped (data : Option Data)
  deriving DecidableEq, Repr

variable {Addr Data : Type}

def perform [DecidableEq Addr] (memory : Memory Addr Data) :
    Call Addr Data → Option (Answer Data × Memory Addr Data)
  | .add data allocated =>
      (workQueueAdd memory data allocated).map fun ended => (.added ended.1, ended.2)
  | .pop => (workQueuePop memory).map fun ended => (.popped ended.1, ended.2)

/-- What the queue is for: a list of data, or no queue where it could not be allocated. -/
def fifo : Option (List Data) → Call Addr Data → Answer Data × Option (List Data)
  | none, .add _ _ => (.added false, none)
  | none, .pop => (.popped none, none)
  | some held, .add _ none => (.added false, some held)
  | some held, .add data (some _) => (.added true, some (held ++ [data]))
  | some [], .pop => (.popped none, some [])
  | some (first :: rest), .pop => (.popped (some first), some rest)

/-- The list that the threads of the pool share is the one this queue stands for. -/
theorem fifo_add_pool (pool : ThreadPool.Pool Data) (data : Data) (address : Addr) :
    fifo (some pool.queue) (.add data (some address)) =
      (.added true, some (ThreadPool.workQueueAdd pool data).queue) :=
  rfl

theorem fifo_pop_pool (pool : ThreadPool.Pool Data) :
    fifo (some pool.queue) (.pop : Call Addr Data) =
      (.popped (ThreadPool.workQueuePop pool).2,
        some (ThreadPool.workQueuePop pool).1.queue) := by
  cases held : pool.queue with
  | nil => simp only [ThreadPool.workQueuePop, held, fifo]
  | cons first rest => simp only [ThreadPool.workQueuePop, held, fifo]

def fifoNew (Data : Type) (allocated : Bool) : Option (List Data) :=
  if allocated then some [] else none

/-- `malloc` returns memory that is not in use, and the queue stays below 2^31 items. -/
def Feasible : Memory Addr Data × Option (List Data) → Call Addr Data → Prop
  | (memory, some held), .add _ (some address) =>
      memory.items address = none ∧ held.length < intMax
  | _, _ => True

instance Feasible.decidable [DecidableEq Addr] [DecidableEq Data] :
    ∀ (both : Memory Addr Data × Option (List Data)) (call : Call Addr Data),
      Decidable (Feasible both call)
  | (memory, some held), .add _ (some address) =>
      inferInstanceAs (Decidable (memory.items address = none ∧ held.length < intMax))
  | (_, some _), .add _ none => isTrue trivial
  | (_, some _), .pop => isTrue trivial
  | (_, none), _ => isTrue trivial

structure Queued (others : Addr → Option (WorkItem Addr Data)) (memory : Memory Addr Data)
    (queue : WorkQueue Addr) (nodes : List (Addr × Data)) : Prop where
  chain : Chain WorkItem.next WorkItem.data memory.items queue.head nodes none
  tail : queue.tail = (addresses nodes).getLast?
  count : queue.itemCount = nodes.length
  bounded : nodes.length ≤ intMax
  elsewhere : ∀ address, address ∉ addresses nodes → memory.items address = others address
  unused : ∀ address, address ∈ addresses nodes → others address = none

def Represents (others : Addr → Option (WorkItem Addr Data)) (memory : Memory Addr Data) :
    Option (List Data) → Prop
  | none => memory.workQ = none
  | some held => ∃ queue nodes, memory.workQ = some queue ∧ nodes.map Prod.snd = held ∧
      Queued others memory queue nodes

variable {others : Addr → Option (WorkItem Addr Data)} {memory : Memory Addr Data}
  {queue : WorkQueue Addr} {nodes : List (Addr × Data)}

theorem Queued.head_eq_none (queued : Queued others memory queue nodes) :
    queue.head = none ↔ nodes = [] :=
  chain_start_eq_none queued.chain

theorem Queued.tail_eq_none (queued : Queued others memory queue nodes) :
    queue.tail = none ↔ nodes = [] := by
  rw [queued.tail, List.getLast?_eq_none_iff, addresses, List.map_eq_nil_iff]

theorem Queued.count_eq_zero (queued : Queued others memory queue nodes) :
    queue.itemCount = 0 ↔ nodes = [] := by
  rw [queued.count, Int.natCast_eq_zero, List.length_eq_zero_iff]

theorem Queued.not_mem_of_unallocated (queued : Queued others memory queue nodes)
    {address : Addr} (fresh : memory.items address = none) : address ∉ addresses nodes :=
  fun member => chain_allocated queued.chain address member fresh

theorem workQueueNew_represents (others : Addr → Option (WorkItem Addr Data)) (allocated : Bool) :
    Represents others (workQueueNew others allocated) (fifoNew Data allocated) := by
  cases allocated with
  | false => rfl
  | true =>
      refine ⟨_, [], rfl, rfl, ?_⟩
      constructor
      · rfl
      · rfl
      · rfl
      · exact Nat.zero_le _
      · intro address _
        rfl
      · simp [addresses]

section Steps

variable [DecidableEq Addr]

theorem add_first {data : Data} {address : Addr} (here : memory.workQ = some queue)
    (queued : Queued others memory queue []) (fresh : memory.items address = none) :
    ∃ added next, workQueueAdd memory data (some address) = some (true, next) ∧
      next.workQ = some added ∧ Queued others next added [(address, data)] := by
  have head := queued.head_eq_none.mpr rfl
  refine ⟨{ head := some address, tail := some address, itemCount := 1 }, _,
    by simp only [workQueueAdd, here, head]; rfl, rfl, ?_⟩
  constructor
  · exact ⟨rfl, _, Function.update_self _ _ _, rfl, rfl⟩
  · rfl
  · rfl
  · show 1 ≤ intMax
    decide
  · intro other absent
    rw [addresses, List.map_singleton, List.mem_singleton] at absent
    exact (Function.update_of_ne absent _ _).trans (queued.elsewhere other (by simp [addresses]))
  · intro other member
    obtain rfl : other = address := by simpa [addresses] using member
    rw [← queued.elsewhere other (by simp [addresses]), fresh]

theorem add_behind {data : Data} {address : Addr} {front : List (Addr × Data)}
    {last : Addr × Data} (here : memory.workQ = some queue)
    (queued : Queued others memory queue (front ++ [last])) (fresh : memory.items address = none)
    (bounded : (front ++ [last]).length < intMax) :
    ∃ added next, workQueueAdd memory data (some address) = some (true, next) ∧
      next.workQ = some added ∧
        Queued others next added (front ++ [last] ++ [(address, data)]) := by
  have absent := queued.not_mem_of_unallocated fresh
  obtain ⟨middle, _, rfl, cell, cellHere, carries, _⟩ := chain_append.mp queued.chain
  obtain ⟨first, head⟩ : ∃ first, queue.head = some first :=
    Option.ne_none_iff_exists'.mp fun empty => by simpa using queued.head_eq_none.mp empty
  have tail : queue.tail = some last.1 := by rw [queued.tail]; simp [addresses]
  have differ : last.1 ≠ address := by
    rintro rfl
    exact absent (by simp [addresses])
  have found : (memory.store address { next := none, data := data }).items last.1 = some cell :=
    (Function.update_of_ne differ _ _).trans cellHere
  have counted : intResult (queue.itemCount + 1) = some (queue.itemCount + 1) := by
    have count := queued.count
    unfold intMax at bounded
    exact signedResult_of_fits (by omega) (by omega)
  have stored : workQueueAdd memory data (some address) = some (true,
      { (memory.store address { next := none, data := data }).store last.1
          { cell with next := some address } with
        workQ := some
          { queue with tail := some address, itemCount := queue.itemCount + 1 } }) := by
    simp only [workQueueAdd, here, head, tail, found, counted, Option.bind_eq_bind,
      Option.bind_some]
  refine ⟨_, _, stored, rfl, ?_⟩
  constructor
  · exact chain_link queued.chain fresh rfl rfl carries
  · simp [addresses]
  · show queue.itemCount + 1 = _
    have count := queued.count
    simp only [List.length_append, List.length_singleton] at count ⊢
    omega
  · rw [List.length_append]
    exact bounded
  · intro other notThere
    rw [addresses, List.map_append, List.mem_append, not_or] at notThere
    have notNew : other ≠ address := by simpa using notThere.2
    have notLast : other ≠ last.1 := by
      rintro rfl
      exact notThere.1 (by simp)
    refine (Function.update_of_ne notLast _ _).trans ?_
    exact (Function.update_of_ne notNew _ _).trans (queued.elsewhere other notThere.1)
  · intro other member
    rw [addresses, List.map_append, List.mem_append] at member
    obtain before | new := member
    · exact queued.unused other before
    · obtain rfl : other = address := by simpa using new
      rw [← queued.elsewhere other absent, fresh]

theorem pop_empty (here : memory.workQ = some queue) (queued : Queued others memory queue []) :
    workQueuePop memory = some (none, memory) := by
  simp only [workQueuePop, here, queued.head_eq_none.mpr rfl]

theorem pop_first {node : Addr × Data} {rest : List (Addr × Data)}
    (here : memory.workQ = some queue) (queued : Queued others memory queue (node :: rest)) :
    ∃ left next, workQueuePop memory = some (some node.2, next) ∧ next.workQ = some left ∧
      next.freed = memory.freed ++ [node.1] ∧ Queued others next left rest := by
  obtain ⟨cell, cellHere, carries, chain⟩ := chain_tail queued.chain
  have head : queue.head = some node.1 := queued.chain.1
  have distinct := chain_nodup queued.chain
  have counted : intResult (queue.itemCount - 1) = some (queue.itemCount - 1) := by
    have count := queued.count
    have bounded := queued.bounded
    unfold intMax at bounded
    exact signedResult_of_fits (by omega) (by omega)
  have popped : workQueuePop memory = some (some cell.data,
      { memory.free node.1 with
        workQ := some { head := cell.next
                        tail := if cell.next.isNone then none else queue.tail
                        itemCount := queue.itemCount - 1 } }) := by
    simp only [workQueuePop, here, head, cellHere, counted, Option.bind_eq_bind, Option.bind_some]
  rw [show cell.data = node.2 from carries] at popped
  refine ⟨_, _, popped, rfl, rfl, ?_⟩
  constructor
  · exact chain
  · show (if cell.next.isNone then none else queue.tail) = _
    by_cases ends : cell.next = none
    · rw [(chain_start_eq_none chain).mp ends, ends]
      rfl
    · have more : rest ≠ [] := fun empty => ends ((chain_start_eq_none chain).mpr empty)
      obtain ⟨second, later, rfl⟩ := List.exists_cons_of_ne_nil more
      rw [if_neg (by simpa using ends), queued.tail]
      rfl
  · show queue.itemCount - 1 = _
    rw [queued.count, List.length_cons]
    omega
  · exact Nat.le_of_succ_le queued.bounded
  · intro other absent
    by_cases freed : other = node.1
    · subst freed
      rw [queued.unused node.1 (List.mem_cons_self ..)]
      exact Function.update_self _ _ _
    · refine (Function.update_of_ne freed _ _).trans (queued.elsewhere other ?_)
      exact fun member => (List.mem_cons.mp member).elim freed absent
  · intro other member
    exact queued.unused other (List.mem_cons_of_mem _ member)

theorem perform_refines (memory : Memory Addr Data) (abstract : Option (List Data))
    (call : Call Addr Data) (represents : Represents others memory abstract)
    (feasible : Feasible (memory, abstract) call) :
    ∃ next, perform memory call = some ((fifo abstract call).1, next) ∧
      Represents others next (fifo abstract call).2 := by
  cases abstract with
  | none =>
      have missing : memory.workQ = none := represents
      cases call with
      | add data allocated =>
          exact ⟨memory, by simp only [perform, workQueueAdd, missing]; rfl, missing⟩
      | pop => exact ⟨memory, by simp only [perform, workQueuePop, missing]; rfl, missing⟩
  | some held =>
      have unchanged := represents
      obtain ⟨queue, nodes, here, rfl, queued⟩ := represents
      cases call with
      | add data allocated =>
          cases allocated with
          | none =>
              exact ⟨memory, by simp only [perform, workQueueAdd, here]; rfl, unchanged⟩
          | some address =>
              obtain ⟨fresh, bounded⟩ := feasible
              rw [List.length_map] at bounded
              obtain rfl | ⟨front, last, rfl⟩ := List.eq_nil_or_concat' nodes
              · obtain ⟨added, next, ended, there, kept⟩ := add_first here queued fresh
                exact ⟨next, by rw [perform, ended]; rfl, added, _, there, rfl, kept⟩
              · obtain ⟨added, next, ended, there, kept⟩ := add_behind here queued fresh bounded
                exact ⟨next, by rw [perform, ended]; rfl, added, _, there, by simp, kept⟩
      | pop =>
          cases nodes with
          | nil => exact ⟨memory, by rw [perform, pop_empty here queued]; rfl, unchanged⟩
          | cons node rest =>
              obtain ⟨left, next, ended, there, _, kept⟩ := pop_first here queued
              exact ⟨next, by rw [perform, ended]; rfl, left, rest, there, rfl, kept⟩

/-- The loop in `work_queue_free` frees each item once, in the order of the chain. -/
theorem popAll_frees {rounds : Nat} (here : memory.workQ = some queue)
    (queued : Queued others memory queue nodes) (enough : nodes.length ≤ rounds) :
    ∃ emptied, popAll rounds memory = some emptied ∧ emptied.items = others ∧
      emptied.freed = memory.freed ++ addresses nodes := by
  induction nodes generalizing rounds memory queue with
  | nil =>
      refine ⟨memory, ?_, ?_, (List.append_nil _).symm⟩
      · unfold popAll
        rw [here]
        exact if_pos (queued.count_eq_zero.mpr rfl)
      · funext address
        exact queued.elsewhere address (by simp [addresses])
  | cons node rest ih =>
      obtain ⟨left, next, ended, there, freed, kept⟩ := pop_first here queued
      have remain : queue.itemCount ≠ 0 := fun zero => by simpa using queued.count_eq_zero.mp zero
      cases rounds with
      | zero => simp at enough
      | succ rounds =>
          obtain ⟨emptied, looped, restored, all⟩ := ih there kept (Nat.le_of_succ_le_succ enough)
          refine ⟨emptied, ?_, restored, ?_⟩
          · unfold popAll
            rw [here]
            simp only [remain, ↓reduceIte, ended, Option.bind_some, looped]
          · rw [all, freed, List.append_assoc]
            rfl

theorem workQueueFree_frees {rounds : Nat} (here : memory.workQ = some queue)
    (queued : Queued others memory queue nodes) (enough : nodes.length ≤ rounds) :
    workQueueFree rounds memory =
      some { items := others, freed := memory.freed ++ addresses nodes, workQ := none } := by
  obtain ⟨emptied, looped, restored, all⟩ := popAll_frees here queued enough
  rw [workQueueFree, here, ← restored, ← all]
  simp only [looped, Option.map_some]

end Steps

structure Consistent (memory : Memory Addr Data) (queue : WorkQueue Addr)
    (nodes : List (Addr × Data)) : Prop where
  headTail : queue.head = none ↔ queue.tail = none
  headCount : queue.head = none ↔ queue.itemCount = 0
  chain : Chain WorkItem.next WorkItem.data memory.items queue.head nodes none
  acyclic : (addresses nodes).Nodup
  count : queue.itemCount = nodes.length
  endsAtTail : queue.tail = (addresses nodes).getLast?

theorem Queued.consistent (queued : Queued others memory queue nodes) :
    Consistent memory queue nodes where
  headTail := queued.head_eq_none.trans queued.tail_eq_none.symm
  headCount := queued.head_eq_none.trans queued.count_eq_zero.symm
  chain := queued.chain
  acyclic := chain_nodup queued.chain
  count := queued.count
  endsAtTail := queued.tail

theorem runSpec_fifo_eq_none (abstract : Option (List Data)) (calls : List (Call Addr Data)) :
    (runSpec fifo abstract calls).2 = none ↔ abstract = none := by
  induction calls generalizing abstract with
  | nil => rfl
  | cons call rest ih =>
      rw [runSpec, ih]
      match abstract, call with
      | none, .add _ _ => rfl
      | none, .pop => rfl
      | some _, .add _ none => rfl
      | some _, .add _ (some _) => simp [fifo]
      | some [], .pop => rfl
      | some (_ :: _), .pop => simp [fifo]

theorem Represents.workQ_eq_none {abstract : Option (List Data)}
    (represents : Represents others memory abstract) : memory.workQ = none ↔ abstract = none := by
  cases abstract with
  | none => exact iff_of_true represents rfl
  | some held =>
      obtain ⟨queue, nodes, here, _⟩ := represents
      simp [here]

/-- The calls answer as those of a list do, the three fields agree with each other and
with the chain, and the teardown frees what is left. -/
theorem workQueue_fifo [DecidableEq Addr] (others : Addr → Option (WorkItem Addr Data))
    (allocated : Bool) {calls : List (Call Addr Data)}
    (feasible : Permitted (paired perform fifo) Feasible
      (workQueueNew others allocated, fifoNew Data allocated) calls) :
    ∃ memory, runOutputs perform (workQueueNew others allocated) calls =
        some ((runSpec fifo (fifoNew Data allocated) calls).1, memory) ∧
      (memory.workQ = none ↔ allocated = false) ∧
      (memory.workQ = none → workQueueFree 0 memory = some memory) ∧
      (∀ data, perform memory (.add data none) = some (.added false, memory)) ∧
      ∀ queue, memory.workQ = some queue → ∃ nodes,
        (runSpec fifo (fifoNew Data allocated) calls).2 = some (nodes.map Prod.snd) ∧
        Consistent memory queue nodes ∧
        (nodes = [] → perform memory .pop = some (.popped none, memory)) ∧
        ∀ rounds, nodes.length ≤ rounds → workQueueFree rounds memory =
          some { items := others, freed := memory.freed ++ addresses nodes, workQ := none } := by
  obtain ⟨memory, ran, represents⟩ :=
    runOutputs_refines perform_refines (workQueueNew_represents others allocated) feasible
  refine ⟨memory, ran, ?_, ?_, ?_, ?_⟩
  · rw [represents.workQ_eq_none, runSpec_fifo_eq_none]
    cases allocated <;> simp [fifoNew]
  · intro missing
    rw [workQueueFree, missing]
  · intro data
    cases here : memory.workQ <;> simp [perform, workQueueAdd, here]
  · intro queue here
    cases final : (runSpec fifo (fifoNew Data allocated) calls).2 with
    | none =>
        rw [final] at represents
        cases here.symm.trans represents
    | some held =>
        rw [final] at represents
        obtain ⟨found, nodes, there, rfl, queued⟩ := represents
        obtain rfl := Option.some.inj (here.symm.trans there)
        refine ⟨nodes, rfl, queued.consistent, ?_, ?_⟩
        · rintro rfl
          rw [perform, pop_empty here queued]
          rfl
        · intro rounds enough
          exact workQueueFree_frees here queued enough

/-- A failed addition in between, and an address that `malloc` returns once more. -/
theorem workQueue_fifo_reusing :
    ∃ memory, runOutputs perform (workQueueNew (fun _ => none) true)
        [.add 7 (some 100), .add 8 none, .add 9 (some 104), .pop, .add 5 (some 100)] =
          some ([.added true, .added false, .added true, .popped (some 7), .added true], memory) ∧
      ∀ queue, memory.workQ = some queue → ∃ nodes : List (Nat × Nat),
        some [9, 5] = some (nodes.map Prod.snd) ∧ Consistent memory queue nodes := by
  have feasible : Permitted (paired perform fifo) Feasible
      (workQueueNew (fun _ => none) true, fifoNew Nat true)
      [.add 7 (some 100), .add 8 none, .add 9 (some 104), .pop, .add 5 (some 100)] := by
    decide
  obtain ⟨memory, ran, _, _, _, holds⟩ := workQueue_fifo (fun _ => none) true feasible
  refine ⟨memory, ran, ?_⟩
  intro queue here
  obtain ⟨nodes, same, consistent, _⟩ := holds queue here
  exact ⟨nodes, same, consistent⟩

end DcCluster.ThrMgr

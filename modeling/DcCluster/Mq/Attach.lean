import DcCluster.Mq.AttachConsistent

/-!
Every listed object is attached to the current session exactly once, provided that no
Add call attaches an object that a reconnect attaches or detaches as well.
-/

namespace DcCluster.Attach

open DcCluster.Lib
open DcCluster.Mq
open DcCluster.Reconnect

theorem Rests.mono {stage : Stage} {session : Option Nat} {before after : Prop} {endpoint : Endpoint}
    (stillAwaited : before → after) (rests : Rests stage session before endpoint) :
    Rests stage session after endpoint := by
  cases stage with
  | destroying | online | rebuilding => exact rests
  | offline => exact ⟨rests.1, rests.2.imp_right stillAwaited⟩
  | idle | rebuilt => exact rests.imp_right fun blank => ⟨blank.1, blank.2.imp_right stillAwaited⟩

theorem Rests.without_session {stage : Stage} {session : Option Nat} {before : Prop}
    {endpoint : Endpoint} (noSession : session = none) (rests : Rests stage session before endpoint)
    (after : Prop) : Rests stage session after endpoint := by
  cases stage with
  | destroying | online | rebuilding => exact rests
  | offline => exact ⟨rests.1, .inl noSession⟩
  | idle | rebuilt => exact rests.imp_right fun blank => ⟨blank.1, .inl noSession⟩

theorem AddPc.ptr_of_attaching {add : AddPc} {entry : Nat × EndpointPc}
    (attaching : add.attaching = some entry) : add.ptr = some entry.1 := by
  cases add with
  | push => cases attaching
  | create ptr pc =>
      simp only [AddPc.attaching, Option.ite_none_right_eq_some, Option.some.injEq] at attaching
      obtain ⟨_, rfl⟩ := attaching
      rfl

section Adds

variable {state : State} (consistent : Consistent state)
include consistent

theorem Consistent.busy_listed {entry : Nat × EndpointPc} (busy : entry ∈ state.busy) :
    entry.1 ∈ state.listed := by
  rcases List.mem_append.mp busy with working | adding
  · exact consistent.sections.subset (List.mem_map_of_mem working)
  · obtain ⟨add, member, attaching⟩ := List.mem_filterMap.mp adding
    exact consistent.owners.subset
      (List.mem_filterMap.mpr ⟨add, member, AddPc.ptr_of_attaching attaching⟩)

theorem Consistent.owner_eq {index other ptr : Nat} {add second : AddPc}
    (found : state.adds[index]? = some add) (owns : add.ptr = some ptr)
    (there : state.adds[other]? = some second) (ownsToo : second.ptr = some ptr) : other = index :=
  eq_of_holding_nodup found (consistent.owners.nodup_iff.mpr consistent.nodup) owns there ownsToo

theorem Consistent.creating_set {index ptr : Nat} {next : EndpointPc}
    (creates : next.creates = true ∨ next = .done)
    (other : Nat) (at' : EndpointPc)
    (member : .create other at' ∈ state.adds.set index (.create ptr next)) :
    at'.creates = true ∨ at' = .done := by
  rcases List.mem_or_eq_of_mem_set member with old | new
  · exact consistent.creating other at' old
  · obtain ⟨_, rfl⟩ := AddPc.create.inj new
    exact creates

variable {index ptr : Nat} {pc : EndpointPc}
  (found : state.adds[index]? = some (.create ptr pc))
include found

theorem Consistent.owners_set (next : EndpointPc) :
    ((state.adds.set index (.create ptr next)).filterMap AddPc.ptr).Perm state.listed := by
  have moved := filterMap_set_perm AddPc.ptr found (.create ptr next)
  exact ((List.perm_append_left_iff [ptr]).mp moved).trans consistent.owners

theorem Consistent.calls_set (next : AddPc) (_ : state.adds.set index next ≠ []) :
    state.system.threads ≠ [] ∧ ∀ thread ∈ state.system.threads, thread.callDone = true :=
  consistent.calls (List.ne_nil_of_mem (List.mem_of_getElem? found))

/-- The call of `Create` returns because there is no session. -/
theorem Consistent.read_none (reads : pc = .readSession)
    (noSession : state.system.members.session = none) :
    Consistent { state with adds := state.adds.set index (.create ptr .done) } := by
  subst pc
  refine ⟨consistent.reached, consistent.calls_set found _,
    consistent.creating_set (.inr rfl), consistent.owners_set found _, consistent.nodup,
    consistent.allocated, consistent.sections, consistent.working, fun entry member => ?_,
    fun entry member => ?_, fun other listed free endpoint there => ?_, consistent.online⟩
  · exact consistent.adding entry (mem_filterMap_of_mem_set member rfl)
  · exact consistent.fits entry (List.mem_append.mpr ((List.mem_append.mp member).imp_right
      fun adding => mem_filterMap_of_mem_set adding rfl))
  · refine (consistent.rests other listed (fun entry busy => free entry ?_) endpoint
      there).without_session noSession _
    exact List.mem_append.mpr ((List.mem_append.mp busy).imp_right fun adding =>
      mem_filterMap_set_of_mem found adding (fun attaching => by cases attaching))

/-- A statement of `Create` in an Add call, outside of any reconnect. -/
theorem Consistent.create {endpoint later : Endpoint} {next : EndpointPc}
    (there : state.heap[ptr]? = some endpoint) (idle : stage state.system = .idle)
    (outcome : next.attaching = true ∧ Fits state.system.members.session later next ∨
      next = .done ∧ ∃ current, state.system.members.session = some current ∧
        AttachedOnce current later) :
    Consistent { state with
      heap := state.heap.set ptr later, adds := state.adds.set index (.create ptr next) } := by
  have bound := (List.getElem?_eq_some_iff.mp there).1
  have inside := (List.getElem?_eq_some_iff.mp found).1
  have noWork := consistent.no_work (by simp [idle]) (by simp [idle])
  have creates : next.creates = true ∨ next = .done := by
    rcases outcome with ⟨attaching, _⟩ | ⟨done, _⟩
    · cases next <;> simp_all [EndpointPc.creates, EndpointPc.attaching]
    · exact .inr done
  refine ⟨consistent.reached, consistent.calls_set found _,
    consistent.creating_set creates, consistent.owners_set found _, consistent.nodup,
    fun other listed => by rw [List.length_set]; exact consistent.allocated other listed,
    consistent.sections, consistent.working, fun _ _ => idle,
    fun entry member other here => ?_, fun other listed free at' here => ?_,
    consistent.online⟩
  · simp only [State.busy, noWork, List.nil_append] at member
    rcases mem_filterMap_set member with new | ⟨position, add, differs, second, attaching⟩
    · simp only [AddPc.attaching, Option.ite_none_right_eq_some, Option.some.injEq] at new
      obtain ⟨attaching, rfl⟩ := new
      rw [List.getElem?_set_self bound, Option.some.injEq] at here
      subst other
      rcases outcome with ⟨_, fits⟩ | ⟨rfl, _⟩
      · exact fits
      · cases attaching
    · have apart : ptr ≠ entry.1 := by
        rintro rfl
        exact differs (consistent.owner_eq found rfl second (AddPc.ptr_of_attaching attaching))
      rw [List.getElem?_set_ne apart] at here
      refine consistent.fits entry (List.mem_append_right _ ?_) other here
      exact List.mem_filterMap.mpr ⟨add, List.mem_of_getElem? second, attaching⟩
  · by_cases same : ptr = other
    · subst other
      rw [List.getElem?_set_self bound, Option.some.injEq] at here
      subst at'
      rcases outcome with ⟨attaching, _⟩ | ⟨_, attached⟩
      · have busy : (ptr, next) ∈ (state.adds.set index (.create ptr next)).filterMap
            AddPc.attaching :=
          List.mem_filterMap.mpr ⟨.create ptr next, List.mem_set inside _,
            by simp [AddPc.attaching, attaching]⟩
        exact absurd rfl (free _ (List.mem_append_right _ busy))
      · rw [idle]
        exact .inl attached
    · rw [List.getElem?_set_ne same] at here
      refine (consistent.rests other listed (fun entry busy => ?_) at' here).mono
        fun awaited => mem_set_of_mem found awaited ?_
      · rintro rfl
        refine free entry (List.mem_append.mpr ((List.mem_append.mp busy).imp_right fun adding =>
          mem_filterMap_set_of_mem found adding fun attaching => ?_)) rfl
        exact same (Option.some.inj (AddPc.ptr_of_attaching attaching))
      · intro isThis
        exact same (AddPc.create.inj isThis).1.symm

end Adds

theorem stage_locked {system : System} (exclusive : Exclusive system)
    (inside : stage system = .destroying ∨ stage system = .rebuilding ∨ stage system = .rebuilt) :
    system.members.lockReConn = true := by
  cases located : system.threads.findSome? threadStage with
  | none => simp [stage, located] at inside
  | some current =>
      obtain ⟨thread, member, staged⟩ := List.exists_of_findSome?_eq_some located
      obtain ⟨index, found⟩ := List.mem_iff_getElem?.mp member
      simp only [stage, located, Option.getD_some] at inside
      refine exclusive.locked found ?_
      cases thread with
      | reconnect pc =>
          simp only [threadStage, Option.ite_none_left_eq_some, Option.some.injEq] at staged
          obtain ⟨_, rfl⟩ := staged
          cases pc <;> simp_all [stageOf, Thread.holdsLock, Thread.working, WorkPc.locked]
      | _ => cases staged

theorem push_listed (state : State) (index : Nat) (kind : Kind) (strName : Text)
    (nMode : MqMsgMode) :
    (push state index kind strName nMode).listed.Perm (state.heap.length :: state.listed) := by
  cases kind with
  | producer =>
      simp only [push, State.listed, ↓reduceIte, reduceCtorEq, List.append_nil]
      rw [List.append_assoc]
      exact List.perm_middle
  | consumer =>
      simp only [push, State.listed, ↓reduceIte, reduceCtorEq, List.append_nil]
      rw [← List.append_assoc]
      exact List.perm_append_singleton _ _

theorem Consistent.push {state : State} {index : Nat} {kind : Kind} {strName : Text}
    {nMode : MqMsgMode} (consistent : Consistent state)
    (found : state.adds[index]? = some (.push kind strName nMode))
    (unlocked : state.system.members.lockReConn = false) :
    Consistent (push state index kind strName nMode) := by
  have locked := stage_locked (exclusive_reachable consistent.reached)
  have outside : stage state.system ≠ .destroying ∧ stage state.system ≠ .rebuilding ∧
      stage state.system ≠ .rebuilt := by
    refine ⟨fun inside => ?_, fun inside => ?_, fun inside => ?_⟩ <;>
      simp [locked, inside] at unlocked
  have noWork := consistent.no_work outside.1 outside.2.1
  have position := (List.getElem?_eq_some_iff.mp found).1
  have pushed := push_listed state index kind strName nMode
  have fresh : state.heap.length ∉ state.listed := fun listed =>
    Nat.lt_irrefl _ (consistent.allocated _ listed)
  refine ⟨consistent.reached, fun _ => ?_, fun other pc member => ?_, ?_, ?_, fun other listed => ?_,
    ?_, fun entry member => ?_, fun entry member => ?_, fun entry member endpoint there => ?_,
    fun other listed free endpoint there => ?_, consistent.online⟩
  · exact consistent.calls (List.ne_nil_of_mem (List.mem_of_getElem? found))
  · rcases List.mem_or_eq_of_mem_set member with old | new
    · exact consistent.creating other pc old
    · obtain ⟨_, rfl⟩ := AddPc.create.inj new
      exact .inl rfl
  · have moved := filterMap_set_perm AddPc.ptr found (.create state.heap.length .readSession)
    exact (moved.trans (consistent.owners.cons _)).trans pushed.symm
  · exact pushed.nodup_iff.mpr (List.nodup_cons.mpr ⟨fresh, consistent.nodup⟩)
  · have length : (Attach.push state index kind strName nMode).heap.length =
        state.heap.length + 1 := List.length_append
    rcases List.mem_cons.mp (pushed.mem_iff.mp listed) with rfl | old
    · omega
    · have bound := consistent.allocated other old
      omega
  · have empty : (Attach.push state index kind strName nMode).work = [] := noWork
    rw [empty]
    exact List.nil_sublist _
  · exact consistent.working entry member
  · exact consistent.adding entry (mem_filterMap_of_mem_set member rfl)
  · have busy : entry ∈ state.busy := List.mem_append.mpr ((List.mem_append.mp member).imp_right
      fun adding => mem_filterMap_of_mem_set adding rfl)
    have bound := consistent.allocated _ (consistent.busy_listed busy)
    exact consistent.fits entry busy endpoint ((List.getElem?_append_left bound).symm.trans there)
  · rcases List.mem_cons.mp (pushed.mem_iff.mp listed) with rfl | old
    · -- the new object is blank, and its Add call has not read the session yet
      have isNew : (state.heap ++ [_])[state.heap.length]? = some endpoint := there
      rw [List.getElem?_concat_length, Option.some.injEq] at isNew
      have blank : Blank endpoint := by
        subst endpoint
        exact ⟨rfl, rfl, rfl, rfl, rfl⟩
      have awaited : AddPc.create state.heap.length .readSession ∈
          state.adds.set index (.create state.heap.length .readSession) := List.mem_set position _
      change Rests (stage state.system) _ _ _
      cases here : stage state.system with
      | destroying => exact absurd here outside.1
      | rebuilding => exact absurd here outside.2.1
      | rebuilt => exact absurd here outside.2.2
      | online => exact blank
      | offline => exact ⟨blank, .inr awaited⟩
      | idle => exact .inr ⟨blank, .inr awaited⟩
    · have bound := consistent.allocated other old
      refine (consistent.rests other old (fun entry busy => ?_) endpoint
        ((List.getElem?_append_left bound).symm.trans there)).mono fun awaited =>
          mem_set_of_mem found awaited (fun isPush => by cases isPush)
      exact free entry (List.mem_append.mpr ((List.mem_append.mp busy).imp_right fun adding =>
        mem_filterMap_set_of_mem found adding (fun attaching => by cases attaching)))

theorem Consistent.addStep {state next : State} {index : Nat} (consistent : Consistent state)
    (allowed : attachesAlone state (.addStep index) = true)
    (taken : step state (.addStep index) = some next) : Consistent next := by
  simp only [step, stepAdd] at taken
  split at taken
  · cases taken
  · rename_i kind strName nMode found
    simp only [Option.ite_none_left_eq_some, Bool.not_eq_true, Option.some.injEq] at taken
    obtain ⟨unlocked, rfl⟩ := taken
    exact consistent.push found unlocked
  · rename_i ptr pc found
    split at taken
    · cases taken
    · rename_i endpoint there
      obtain ⟨done, moved, rfl⟩ := Option.map_eq_some_iff.mp taken
      by_cases attaching : pc.attaching = true
      · have adding : (ptr, pc) ∈ state.adds.filterMap AddPc.attaching :=
          List.mem_filterMap.mpr ⟨_, List.mem_of_getElem? found, by
            simp [AddPc.attaching, attaching]⟩
        have fits := consistent.fits _ (List.mem_append_right _ adding) endpoint there
        obtain ⟨current, isSession⟩ : ∃ current, state.system.members.session = some current := by
          cases pc <;> grind -ring -linarith
        refine consistent.create found there (consistent.adding _ adding) ?_
        have creates : pc.creates = true := by
          cases pc <;> first | rfl | cases attaching
        rcases fits_creating moved fits isSession creates with later | ⟨isDone, attached⟩
        · exact .inl later
        · exact .inr ⟨isDone, current, isSession, attached⟩
      · have reads : pc = .readSession := by
          rcases consistent.creating ptr pc (List.mem_of_getElem? found) with creates | rfl
          · cases pc <;> first | rfl | contradiction
          · cases moved
        subst pc
        cases isSession : state.system.members.session with
        | none =>
            simp only [Endpoint.step, isSession, Option.some.injEq] at moved
            subst done
            have same : state.heap.set ptr endpoint = state.heap := by
              obtain ⟨bound, isEndpoint⟩ := List.getElem?_eq_some_iff.mp there
              rw [← isEndpoint, List.set_getElem_self]
            rw [same]
            exact consistent.read_none found rfl isSession
        | some current =>
            simp only [Endpoint.step, isSession, Option.some.injEq] at moved
            subst done
            obtain ⟨idle, unattached⟩ : stage state.system = .idle ∧ endpoint.pSession = none := by
              simpa [attachesAlone, found, there, isSession] using allowed
            refine consistent.create found there idle (.inl ⟨rfl, ?_, isSession⟩)
            have listed : ptr ∈ state.listed :=
              consistent.owners.subset (List.mem_filterMap.mpr ⟨_, List.mem_of_getElem? found, rfl⟩)
            have free (entry : Nat × EndpointPc) (busy : entry ∈ state.busy) : entry.1 ≠ ptr := by
              rintro rfl
              rw [State.busy, consistent.no_work (by simp [idle]) (by simp [idle])] at busy
              obtain ⟨add, member, adding⟩ := List.mem_filterMap.mp busy
              obtain ⟨other, second⟩ := List.mem_iff_getElem?.mp member
              obtain rfl := consistent.owner_eq found rfl second (AddPc.ptr_of_attaching adding)
              obtain rfl : add = .create entry.1 .readSession := by
                simpa using second.symm.trans found
              cases adding
            have rests := consistent.rests ptr listed free endpoint there
            rw [idle] at rests
            rcases rests with ⟨current, _, attached⟩ | ⟨blank, _⟩
            · rw [attached.1] at unattached
              cases unattached
            · exact blank

/-- One statement of a critical section: `remaining` is its work afterwards. -/
theorem Consistent.work_on {state : State} {ptr : Nat} {pc : EndpointPc}
    {rest remaining : List (Nat × EndpointPc)} {endpoint later : Endpoint}
    (consistent : Consistent state) (isWork : state.work = (ptr, pc) :: rest)
    (there : state.heap[ptr]? = some endpoint)
    (sections : (remaining.map Prod.fst).Sublist state.listed)
    (keeps : ∀ entry ∈ rest, entry ∈ remaining)
    (adds : ∀ entry ∈ remaining, entry ∈ rest ∨ entry.1 = ptr ∧
      (stage state.system = .destroying ∧ entry.2.releases = true ∨
        stage state.system = .rebuilding ∧ entry.2.creates = true) ∧
      Fits state.system.members.session later entry.2)
    (finished : (∀ entry ∈ remaining, entry.1 ≠ ptr) → ∀ awaited,
      Rests (stage state.system) state.system.members.session awaited later) :
    Consistent { state with heap := state.heap.set ptr later, work := remaining } := by
  have bound := (List.getElem?_eq_some_iff.mp there).1
  have notIdle : stage state.system ≠ .idle := by
    rcases consistent.working (ptr, pc) (by simp [isWork]) with ⟨inside, _⟩ | ⟨inside, _⟩ <;>
      simp [inside]
  have noAdd := consistent.no_attaching notIdle
  have apart {entry : Nat × EndpointPc} (member : entry ∈ rest) : ptr ≠ entry.1 := by
    have nodup := consistent.sections.nodup consistent.nodup
    rw [isWork, List.map_cons, List.nodup_cons] at nodup
    intro same
    have again : entry.1 ∈ rest.map Prod.fst := List.mem_map_of_mem member
    rw [← same] at again
    exact nodup.1 again
  have inWork {entry : Nat × EndpointPc} (member : entry ∈ rest) : entry ∈ state.work := by
    rw [isWork]
    exact List.mem_cons_of_mem _ member
  refine ⟨consistent.reached, consistent.calls, consistent.creating, consistent.owners,
    consistent.nodup, fun other listed => ?_, sections, fun entry member => ?_, consistent.adding,
    fun entry member other here => ?_, fun other listed free at' here => ?_, consistent.online⟩
  · rw [List.length_set]
    exact consistent.allocated other listed
  · rcases adds entry member with old | ⟨_, isSection, _⟩
    · exact consistent.working entry (inWork old)
    · exact isSection
  · simp only [State.busy, noAdd, List.append_nil] at member
    rcases adds entry member with old | ⟨rfl, _, fits⟩
    · rw [List.getElem?_set_ne (apart old)] at here
      exact consistent.fits entry (List.mem_append_left _ (inWork old)) other here
    · rw [List.getElem?_set_self bound, Option.some.injEq] at here
      subst other
      exact fits
  · simp only [State.busy, noAdd, List.append_nil] at free
    by_cases same : ptr = other
    · subst other
      rw [List.getElem?_set_self bound, Option.some.injEq] at here
      subst at'
      exact finished free _
    · rw [List.getElem?_set_ne same] at here
      refine consistent.rests other listed (fun entry busy => ?_) at' here
      simp only [State.busy, noAdd, List.append_nil, isWork] at busy
      rcases List.mem_cons.mp busy with rfl | old
      · exact same
      · exact free entry (keeps entry old)

theorem Consistent.work {state next : State} {closes : Bool} (consistent : Consistent state)
    (allowed : attachesAlone state (.work closes) = true)
    (taken : step state (.work closes) = some next) : Consistent next := by
  simp only [step, stepWork] at taken
  split at taken
  · cases taken
  · rename_i ptr pc rest isWork
    split at taken
    · cases taken
    · rename_i endpoint there
      obtain ⟨done, moved, rfl⟩ := Option.map_eq_some_iff.mp taken
      have sections := consistent.sections
      rw [isWork, List.map_cons] at sections
      have inWork : (ptr, pc) ∈ state.work := by simp [isWork]
      have fits := consistent.fits _ (List.mem_append_left _ inWork) endpoint there
      have outcome : (done.2 ≠ .done ∧
          (stage state.system = .destroying ∧ done.2.releases = true ∨
            stage state.system = .rebuilding ∧ done.2.creates = true) ∧
          Fits state.system.members.session done.1 done.2) ∨
          done.2 = .done ∧ ∀ awaited,
            Rests (stage state.system) state.system.members.session awaited done.1 := by
        rcases consistent.working _ inWork with ⟨destroying, releases⟩ | ⟨rebuilding, creates⟩
        · rcases fits_releasing moved fits allowed releases with ⟨later, fitsLater⟩ | ⟨isDone, blank⟩
          · refine .inl ⟨fun isDone => ?_, .inl ⟨destroying, later⟩, fitsLater⟩
            rw [isDone] at later
            cases later
          · refine .inr ⟨isDone, fun awaited => ?_⟩
            rw [destroying]
            exact blank
        · obtain ⟨current, isSession⟩ :=
            Option.isSome_iff_exists.mp (consistent.online (.inr rebuilding))
          rcases fits_creating moved fits isSession creates with
            ⟨later, fitsLater⟩ | ⟨isDone, attached⟩
          · refine .inl ⟨fun isDone => ?_, .inr ⟨rebuilding, ?_⟩, fitsLater⟩
            · rw [isDone] at later
              cases later
            · cases isNext : done.2 <;> simp_all [EndpointPc.creates, EndpointPc.attaching]
          · refine .inr ⟨isDone, fun awaited => ?_⟩
            rw [rebuilding]
            exact ⟨current, isSession, attached⟩
      rcases outcome with ⟨notDone, isSection, fitsLater⟩ | ⟨isDone, rests⟩
      · rw [if_neg notDone]
        refine consistent.work_on isWork there sections (fun _ => List.mem_cons_of_mem _)
          (fun entry member => ?_) (fun free => absurd rfl (free _ List.mem_cons_self))
        rcases List.mem_cons.mp member with rfl | old
        · exact .inr ⟨rfl, isSection, fitsLater⟩
        · exact .inl old
      · rw [if_pos isDone]
        exact consistent.work_on isWork there ((List.sublist_cons_self _ _).trans sections)
          (fun _ => id) (fun _ => .inl) (fun _ => rests)

theorem Consistent.add {state next : State} {kind : Kind} {strName : Text} {nMode : MqMsgMode}
    (consistent : Consistent state) (taken : step state (.add kind strName nMode) = some next) :
    Consistent next := by
  simp only [step, Option.ite_none_right_eq_some, Option.some.injEq] at taken
  obtain ⟨⟨threads, callsDone⟩, rfl⟩ := taken
  have sameOwners : (state.adds ++ [AddPc.push kind strName nMode]).filterMap AddPc.ptr =
      state.adds.filterMap AddPc.ptr := by
    simp [List.filterMap_append, AddPc.ptr]
  have sameAttaching : (state.adds ++ [AddPc.push kind strName nMode]).filterMap AddPc.attaching =
      state.adds.filterMap AddPc.attaching := by
    simp [List.filterMap_append, AddPc.attaching]
  refine ⟨consistent.reached, fun _ => ⟨threads, List.all_eq_true.mp callsDone⟩,
    fun ptr pc member => ?_, ?_, consistent.nodup, consistent.allocated, consistent.sections,
    consistent.working, fun entry member => ?_, fun entry member => ?_,
    fun ptr listed free endpoint there => ?_, consistent.online⟩
  · rcases List.mem_append.mp member with old | new
    · exact consistent.creating ptr pc old
    · simp at new
  · exact sameOwners ▸ consistent.owners
  · exact consistent.adding entry (sameAttaching ▸ member)
  · simp only [State.busy, sameAttaching] at member
    exact consistent.fits entry member
  · simp only [State.busy, sameAttaching] at free
    exact (consistent.rests ptr listed free endpoint there).mono (List.mem_append_left _)

theorem consistent_reachable {state : State}
    (reached : Reachable step (· = start) (attachesAlone · · = true) state) : Consistent state := by
  refine reached.invariant Consistent (by rintro _ rfl; exact consistent_start) ?_
  intro state action next _ consistent allowed taken
  cases action with
  | mq action => exact consistent.mq allowed taken
  | add kind strName nMode => exact consistent.add taken
  | addStep index => exact consistent.addStep allowed taken
  | work closes => exact consistent.work allowed taken

theorem stage_idle_of_not_looping {system : System}
    (settled : ∀ thread ∈ system.threads, thread.looping = false) : stage system = .idle := by
  have unstaged : system.threads.findSome? threadStage = none := by
    rw [List.findSome?_eq_none_iff]
    intro thread member
    have left := settled thread member
    cases thread with
    | reconnect pc =>
        cases pc <;> first | rfl | cases left
    | _ => rfl
  rw [stage, unstaged]
  rfl

/-- For every interleaving of Add calls with reconnects in which the Add calls attach their
objects alone. -/
theorem attachedExactlyOnce_of_attachesAlone {state : State}
    (reached : Reachable step (· = start) (attachesAlone · · = true) state) :
    AttachedExactlyOnce state := by
  intro ⟨returned, left⟩ session isSession ptr listed
  have consistent := consistent_reachable reached
  have idle := stage_idle_of_not_looping left
  have noWork := consistent.no_work (by simp [idle]) (by simp [idle])
  have noAdd : state.adds.filterMap AddPc.attaching = [] := by
    rw [List.filterMap_eq_nil_iff]
    intro add member
    obtain ⟨ptr, rfl⟩ := returned add member
    rfl
  have bound := consistent.allocated ptr listed
  have rests := consistent.rests ptr listed (by simp [State.busy_nil noWork noAdd])
    state.heap[ptr] (List.getElem?_eq_getElem bound)
  refine ⟨state.heap[ptr], List.getElem?_eq_getElem bound, ?_⟩
  rw [idle, isSession] at rests
  rcases rests with ⟨current, isCurrent, attached⟩ | ⟨_, noSession | awaited⟩
  · obtain rfl := Option.some.inj isCurrent
    exact attached
  · cases noSession
  · obtain ⟨other, isDone⟩ := returned _ awaited
    cases isDone

/-- A consumer is added and attached, the connection fails, and a producer is added after
`DestroyConn`, when there is no session; `ReBuildConn` attaches both. -/
def addWhileOffline : List Action :=
  .mq .callConn :: List.replicate 4 (.mq (.thread 0 true)) ++
    .add .consumer [] .queue :: List.replicate 5 (.addStep 0) ++
    .mq .onException :: List.replicate 8 (.mq (.thread 1 true)) ++
    List.replicate 2 (.mq (.thread 2 true)) ++ List.replicate 3 (.work true) ++
    List.replicate 2 (.mq (.thread 2 true)) ++
    .add .producer [] .topic :: List.replicate 2 (.addStep 1) ++
    List.replicate 5 (.mq (.thread 2 true)) ++ List.replicate 8 (.work true) ++
    List.replicate 6 (.mq (.thread 2 true))

theorem addWhileOffline_finishes : (run step start addWhileOffline).isSome = true := by
  decide +kernel

def attachedBoth : State := (run step start addWhileOffline).get addWhileOffline_finishes

theorem attachedExactlyOnce_of_attachesAlone_attachedBoth :
    Settled attachedBoth ∧ attachedBoth.system.members.session = some 1 ∧
      attachedBoth.listed = [1, 0] ∧ AttachedExactlyOnce attachedBoth := by
  have reached : Reachable step (· = start) (attachesAlone · · = true) attachedBoth :=
    .append_run (.start rfl) (by decide +kernel) (Option.some_get addWhileOffline_finishes).symm
  have adds : attachedBoth.adds = [.create 0 .done, .create 1 .done] := by decide +kernel
  refine ⟨⟨fun add member => ?_, by decide +kernel⟩, by decide +kernel, by decide +kernel,
    attachedExactlyOnce_of_attachesAlone reached⟩
  rw [adds, List.mem_cons, List.mem_singleton] at member
  rcases member with rfl | rfl
  · exact ⟨0, rfl⟩
  · exact ⟨1, rfl⟩

/-- A consumer is added after `Conn` has made the new session and before `ReBuildConn` locks. -/
def addBeforeRebuild : List Action :=
  .mq .callConn :: List.replicate 4 (.mq (.thread 0 true)) ++
    .mq .onException :: List.replicate 8 (.mq (.thread 1 true)) ++
    List.replicate 8 (.mq (.thread 2 true)) ++
    .add .consumer [] .topic :: List.replicate 5 (.addStep 0) ++ .mq (.thread 2 true) ::
    List.replicate 4 (.work true) ++ List.replicate 6 (.mq (.thread 2 true))

theorem addBeforeRebuild_finishes : (run step start addBeforeRebuild).isSome = true := by
  decide +kernel

def attachedTwice : State := (run step start addBeforeRebuild).get addBeforeRebuild_finishes

/-- Both the Add call and `ReBuildConn` have created a consumer, so each message of the topic
is delivered twice. -/
theorem addBeforeRebuild_attaches_twice :
    Reachable step (· = start) anyAction attachedTwice ∧ Settled attachedTwice ∧
      attachedTwice.system.members.session = some 1 ∧ attachedTwice.listConsumer = [0] ∧
      attachedTwice.heap[0]?.map Endpoint.handles = some [1, 1] ∧
      ¬AttachedExactlyOnce attachedTwice := by
  have reached : Reachable step (· = start) anyAction attachedTwice :=
    .append_run (.start rfl) (permitted_anyAction _ _ addBeforeRebuild) (Option.some_get _).symm
  have adds : attachedTwice.adds = [.create 0 .done] := by decide +kernel
  have settled : Settled attachedTwice := by
    refine ⟨fun add member => ⟨0, by simpa [adds] using member⟩, ?_⟩
    decide +kernel
  have session : attachedTwice.system.members.session = some 1 := by decide +kernel
  have consumers : attachedTwice.listConsumer = [0] := by decide +kernel
  have handles : attachedTwice.heap[0]?.map Endpoint.handles = some [1, 1] := by decide +kernel
  refine ⟨reached, settled, session, consumers, handles, fun attached => ?_⟩
  obtain ⟨endpoint, there, once⟩ := attached settled 1 session 0
    (List.mem_append_right _ (by simp [consumers]))
  rw [there, Option.map_some, Option.some.injEq, once.2.2.2.2] at handles
  cases handles

end DcCluster.Attach

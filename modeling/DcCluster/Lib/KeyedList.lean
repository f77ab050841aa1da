import Mathlib.Data.List.Nodup
import Mathlib.Data.List.Perm.Basic
import Mathlib.Logic.Function.Basic

/-!
Lists of entries searched by key, as linear scans of a vector do it: update the
first match, erase the first match, drop by a test. While the keys are distinct
each of them is the operation of the same name on the partial map from keys to
values that the list represents.
-/

namespace DcCluster.Lib

def modifyFirst {Entry : Type*} (test : Entry → Bool) (change : Entry → Entry) :
    List Entry → List Entry × Bool
  | [] => ([], false)
  | entry :: rest =>
      if test entry then (change entry :: rest, true)
      else
        let (changed, found) := modifyFirst test change rest
        (entry :: changed, found)

variable {Entry Key Value : Type*}

theorem find?_append_eraseP_perm (test : Entry → Bool) (entries : List Entry) :
    ((entries.find? test).toList ++ entries.eraseP test).Perm entries := by
  induction entries with
  | nil => simp
  | cons first rest ih =>
      by_cases here : test first = true
      · simp [here]
      · simp only [List.find?_cons_of_neg here, List.eraseP_cons_of_neg here]
        exact List.perm_middle.trans (ih.cons first)

theorem modifyFirst_perm (test : Entry → Bool) (change : Entry → Entry) (entries : List Entry) :
    (modifyFirst test change entries).1.Perm
      (((entries.find? test).map change).toList ++ entries.eraseP test) := by
  induction entries with
  | nil => simp [modifyFirst]
  | cons first rest ih =>
      by_cases here : test first = true
      · simp [modifyFirst, here]
      · simp only [modifyFirst, here, Bool.false_eq_true, ↓reduceIte,
          List.find?_cons_of_neg here, List.eraseP_cons_of_neg here]
        exact (ih.cons first).trans List.perm_middle.symm

theorem modifyFirst_modifyFirst {test : Entry → Bool} {change undo : Entry → Entry}
    {entries : List Entry} {old : Entry} (found : entries.find? test = some old)
    (stays : test (change old) = true) (undone : undo (change old) = old) :
    (modifyFirst test undo (modifyFirst test change entries).1).1 = entries := by
  induction entries with
  | nil => cases found
  | cons first rest ih =>
      by_cases here : test first = true
      · obtain rfl : first = old := by simpa [here] using found
        simp [modifyFirst, here, stays, undone]
      · have later := ih (by simpa [here] using found)
        simpa [modifyFirst, here] using later

theorem modifyFirst_append_last {test : Entry → Bool} {entries : List Entry} {entry : Entry}
    (absent : ∀ other ∈ entries, ¬ test other = true) (here : test entry = true)
    (change : Entry → Entry) :
    (modifyFirst test change (entries ++ [entry])).1 = entries ++ [change entry] := by
  induction entries with
  | nil => simp [modifyFirst, here]
  | cons first rest ih =>
      have later := ih fun other member => absent other (List.mem_cons_of_mem _ member)
      have skipped := absent first List.mem_cons_self
      simpa [modifyFirst, skipped] using later

theorem eraseP_append_last {test : Entry → Bool} {entries : List Entry} {entry : Entry}
    (absent : ∀ other ∈ entries, ¬ test other = true) (here : test entry = true) :
    (entries ++ [entry]).eraseP test = entries := by
  rw [List.eraseP_append_right _ absent, List.eraseP_cons_of_pos here, List.append_nil]

theorem nodup_append_fresh {keyOf : Entry → Key} {entries : List Entry} {entry : Entry}
    (distinct : (entries.map keyOf).Nodup) (absent : keyOf entry ∉ entries.map keyOf) :
    ((entries ++ [entry]).map keyOf).Nodup := by
  rw [List.map_append, List.map_singleton]
  exact List.nodup_append_comm.mp (List.nodup_cons.mpr ⟨absent, distinct⟩)

theorem eq_filter_mem_of_sublist [BEq Key] [LawfulBEq Key] {part whole : List Key}
    (distinct : whole.Nodup) (sublist : List.Sublist part whole) :
    part = whole.filter fun key => key ∈ part := by
  induction sublist with
  | slnil => rfl
  | cons skipped sublist ih =>
      obtain ⟨absent, distinct⟩ := List.nodup_cons.mp distinct
      have skips : skipped ∉ _ := fun member => absent (sublist.subset member)
      simpa [skips] using ih distinct
  | cons_cons taken sublist ih =>
      obtain ⟨absent, distinct⟩ := List.nodup_cons.mp distinct
      rw [List.filter_cons_of_pos (by simp)]
      congr 1
      refine (ih distinct).trans (List.filter_congr fun key member => ?_)
      have other : key ≠ taken := by
        rintro rfl
        exact absent member
      simp [other]

variable [DecidableEq Key]

def lookup (keyOf : Entry → Key) (valueOf : Entry → Value) (entries : List Entry) (key : Key) :
    Option Value :=
  (entries.find? fun entry => keyOf entry = key).map valueOf

variable {keyOf : Entry → Key} {valueOf : Entry → Value}

@[simp] theorem lookup_nil (key : Key) : lookup keyOf valueOf [] key = none := rfl

theorem lookup_cons (entry : Entry) (rest : List Entry) (key : Key) :
    lookup keyOf valueOf (entry :: rest) key =
      if keyOf entry = key then some (valueOf entry) else lookup keyOf valueOf rest key := by
  unfold lookup
  by_cases here : keyOf entry = key <;> simp [here]

theorem lookup_eq_none_iff {entries : List Entry} {key : Key} :
    lookup keyOf valueOf entries key = none ↔ key ∉ entries.map keyOf := by
  simp [lookup]

theorem lookup_of_mem {entries : List Entry} (distinct : (entries.map keyOf).Nodup) {entry : Entry}
    (member : entry ∈ entries) :
    lookup keyOf valueOf entries (keyOf entry) = some (valueOf entry) := by
  induction entries with
  | nil => simp at member
  | cons first rest ih =>
      rw [lookup_cons]
      simp only [List.map_cons, List.nodup_cons] at distinct
      rcases List.mem_cons.mp member with rfl | later
      · simp
      · have other : keyOf first ≠ keyOf entry := fun same =>
          distinct.1 (same ▸ List.mem_map_of_mem later)
        rw [if_neg other]
        exact ih distinct.2 later

theorem find?_of_lookup {entries : List (Key × Value)} {key : Key} {value : Value}
    (found : lookup Prod.fst Prod.snd entries key = some value) :
    entries.find? (fun entry => entry.1 = key) = some (key, value) := by
  obtain ⟨⟨foundKey, _⟩, here, rfl⟩ := Option.map_eq_some_iff.mp found
  have sameKey : foundKey = key := by simpa using List.find?_some here
  rw [here, sameKey]

/-- With distinct keys at most one entry has a key, and a lookup finds it. -/
theorem filter_key_eq_lookup {entries : List Entry} (distinct : (entries.map keyOf).Nodup)
    (key : Key) : (entries.filter fun entry => keyOf entry = key).map valueOf =
      (lookup keyOf valueOf entries key).toList := by
  induction entries with
  | nil => rfl
  | cons first rest ih =>
      obtain ⟨fresh, distinct⟩ := List.nodup_cons.mp distinct
      rw [lookup_cons]
      by_cases here : keyOf first = key
      · have others : rest.filter (fun entry => keyOf entry = key) = [] := by
          rw [List.filter_eq_nil_iff]
          intro entry member same
          have sameKey : keyOf entry = keyOf first := by simpa [here] using same
          exact fresh (sameKey ▸ List.mem_map_of_mem member)
        simp [here, others]
      · simpa [here] using ih distinct

section ModifyFirst

variable {change : Entry → Entry} {key : Key}

theorem map_key_modifyFirst (sameKey : ∀ entry, keyOf (change entry) = keyOf entry)
    (entries : List Entry) :
    (modifyFirst (fun entry => keyOf entry = key) change entries).1.map keyOf =
      entries.map keyOf := by
  induction entries with
  | nil => rfl
  | cons first rest ih =>
      by_cases here : keyOf first = key
      · simp [modifyFirst, here, sameKey]
      · simpa [modifyFirst, here] using ih

theorem modifyFirst_found (entries : List Entry) :
    (modifyFirst (fun entry => keyOf entry = key) change entries).2 =
      (lookup keyOf valueOf entries key).isSome := by
  induction entries with
  | nil => rfl
  | cons first rest ih =>
      rw [lookup_cons]
      by_cases here : keyOf first = key
      · simp [modifyFirst, here]
      · simpa [modifyFirst, here] using ih

theorem modifyFirst_of_absent {entries : List Entry}
    (absent : lookup keyOf valueOf entries key = none) :
    (modifyFirst (fun entry => keyOf entry = key) change entries).1 = entries := by
  induction entries with
  | nil => rfl
  | cons first rest ih =>
      rw [lookup_cons] at absent
      split at absent
      next => cases absent
      next here => simp [modifyFirst, here, ih absent]

theorem lookup_modifyFirst {entries : List Entry} {value : Value}
    (sameKey : ∀ entry, keyOf (change entry) = keyOf entry)
    (newValue : ∀ entry, valueOf (change entry) = value)
    (present : (lookup keyOf valueOf entries key).isSome = true) :
    lookup keyOf valueOf (modifyFirst (fun entry => keyOf entry = key) change entries).1 =
      Function.update (lookup keyOf valueOf entries) key (some value) := by
  funext other
  induction entries with
  | nil => simp at present
  | cons first rest ih =>
      rw [lookup_cons] at present
      by_cases here : keyOf first = key
      · by_cases same : other = key
        · simp [modifyFirst, lookup_cons, here, sameKey, newValue, same]
        · simp [modifyFirst, lookup_cons, here, sameKey, same, Ne.symm same]
      · rw [if_neg here] at present
        have tail := ih present
        by_cases same : other = key
        · subst other
          simpa [modifyFirst, lookup_cons, here] using tail
        · rw [Function.update_of_ne same] at tail ⊢
          simpa [modifyFirst, lookup_cons, here] using
            congrArg (fun found => if keyOf first = other then some (valueOf first) else found) tail

end ModifyFirst

theorem lookup_append_fresh {entries : List Entry} {entry : Entry}
    (absent : lookup keyOf valueOf entries (keyOf entry) = none) :
    lookup keyOf valueOf (entries ++ [entry]) =
      Function.update (lookup keyOf valueOf entries) (keyOf entry) (some (valueOf entry)) := by
  funext other
  have appended : lookup keyOf valueOf (entries ++ [entry]) other =
      (lookup keyOf valueOf entries other).or
        (if keyOf entry = other then some (valueOf entry) else none) := by
    induction entries with
    | nil => simp [lookup_cons]
    | cons first rest ih =>
        rw [lookup_cons] at absent
        split at absent
        next => cases absent
        next =>
          rw [List.cons_append, lookup_cons, lookup_cons, ih absent]
          split <;> simp
  rw [appended]
  by_cases same : other = keyOf entry
  · subst other
    simp [absent]
  · simp [same, Ne.symm same]

theorem eraseP_eq_filter {entries : List Entry} (distinct : (entries.map keyOf).Nodup) (key : Key) :
    (entries.eraseP fun entry => keyOf entry = key) =
      entries.filter fun entry => keyOf entry ≠ key := by
  induction entries with
  | nil => rfl
  | cons first rest ih =>
      obtain ⟨fresh, distinct⟩ := List.nodup_cons.mp distinct
      by_cases here : keyOf first = key
      · have others : rest.filter (fun entry => keyOf entry ≠ key) = rest := by
          refine List.filter_eq_self.mpr fun entry member => ?_
          have other : keyOf entry ≠ key := by
            intro same
            exact fresh (here ▸ same ▸ List.mem_map_of_mem member)
          simpa using other
        rw [List.eraseP_cons_of_pos (by simp [here]), List.filter_cons_of_neg (by simp [here]), others]
      · rw [List.eraseP_cons_of_neg (by simp [here]), List.filter_cons_of_pos (by simp [here]),
          ih distinct]

theorem lookup_eraseP {entries : List Entry} (distinct : (entries.map keyOf).Nodup) (key : Key) :
    lookup keyOf valueOf (entries.eraseP fun entry => keyOf entry = key) =
      Function.update (lookup keyOf valueOf entries) key none := by
  funext other
  induction entries with
  | nil => by_cases same : other = key <;> simp [same]
  | cons first rest ih =>
      simp only [List.map_cons, List.nodup_cons] at distinct
      by_cases here : keyOf first = key
      · rw [List.eraseP_cons_of_pos (by simpa using here)]
        by_cases same : other = key
        · subst other
          rw [Function.update_self]
          exact lookup_eq_none_iff.mpr (here ▸ distinct.1)
        · rw [Function.update_of_ne same, lookup_cons, if_neg (here ▸ Ne.symm same)]
      · rw [List.eraseP_cons_of_neg (by simpa using here), lookup_cons, ih distinct.2]
        by_cases same : other = key
        · subst other
          simp [here]
        · simp [same, lookup_cons]

theorem lookup_filter {entries : List Entry} (distinct : (entries.map keyOf).Nodup)
    (good : Value → Bool) (key : Key) :
    lookup keyOf valueOf (entries.filter fun entry => good (valueOf entry)) key =
      (lookup keyOf valueOf entries key).filter good := by
  induction entries with
  | nil => rfl
  | cons first rest ih =>
      simp only [List.map_cons, List.nodup_cons] at distinct
      have tail := ih distinct.2
      by_cases kept : good (valueOf first) = true
      · rw [List.filter_cons, if_pos kept, lookup_cons, lookup_cons, tail]
        split <;> simp [Option.filter, kept]
      · rw [List.filter_cons, if_neg kept, tail, lookup_cons]
        split
        next here =>
          have absent : lookup keyOf valueOf rest key = none :=
            lookup_eq_none_iff.mpr (here ▸ distinct.1)
          simp [Option.filter, absent, kept]
        next => rfl

end DcCluster.Lib

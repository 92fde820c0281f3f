import IgraRpc.Types.Json
import Mathlib.Data.List.Forall2

/-!
# What an in-place update leaves alone

An update of a JSON value through `get_mut` and `as_array_mut` is stated as a relation
between the value before and the value after:

* `EntryChanged key R` — an object keeps its keys, in their order, and every value but the
  one under `key`, whose old and new are related by `R`;
* `ItemsChanged R` — an array keeps its length, and its items are related one by one.

The relations nest as the paths do: `EntryChanged "a" (ItemsChanged R)` is the frame of an
update of `a[i]`.
-/

namespace IgraRpc

namespace Value

/-- `w` is `v`, but for the entry under `key`. -/
inductive EntryChanged (key : String) (R : Value → Value → Prop) : Value → Value → Prop where
  | same (v : Value) : EntryChanged key R v v
  | entry (before after : List (String × Value)) {old new : Value}
      (hfirst : key ∉ before.map Prod.fst) (h : R old new) :
      EntryChanged key R (.object (before ++ (key, old) :: after))
        (.object (before ++ (key, new) :: after))

/-- `w` is `v`, but for the items of the array. -/
inductive ItemsChanged (R : Value → Value → Prop) : Value → Value → Prop where
  | same (v : Value) : ItemsChanged R v v
  | items {xs ys : List Value} (h : List.Forall₂ R xs ys) : ItemsChanged R (.array xs) (.array ys)

-- ---------------------------------------------------------------------------
-- Updates as lists of entries
-- ---------------------------------------------------------------------------

theorem modifyEntries_of_notMem {key : String} (f : Value → Value)
    {entries : List (String × Value)} (h : key ∉ entries.map Prod.fst) :
    modifyEntries key f entries = entries := by
  induction entries with
  | nil => rfl
  | cons e rest ih =>
    obtain ⟨k, v⟩ := e
    simp only [List.map_cons, List.mem_cons, not_or] at h
    rw [modifyEntries, if_neg (by simpa using h.1), ih h.2]

theorem modifyEntries_append {key : String} (f : Value → Value)
    {before : List (String × Value)} (h : key ∉ before.map Prod.fst)
    (after : List (String × Value)) :
    modifyEntries key f (before ++ after) = before ++ modifyEntries key f after := by
  induction before with
  | nil => rfl
  | cons e rest ih =>
    obtain ⟨k, v⟩ := e
    simp only [List.map_cons, List.mem_cons, not_or] at h
    rw [List.cons_append, modifyEntries, if_neg (by simpa using h.1), ih h.2, List.cons_append]

/-- The first entry under a key, with what stands before and after it. -/
theorem exists_first_entry {key : String} {entries : List (String × Value)}
    (h : key ∈ entries.map Prod.fst) :
    ∃ before old after, entries = before ++ (key, old) :: after ∧
      key ∉ before.map Prod.fst := by
  induction entries with
  | nil => exact absurd h (by simp)
  | cons e rest ih =>
    obtain ⟨k, v⟩ := e
    by_cases hk : key = k
    · exact ⟨[], v, rest, by rw [hk]; rfl, by simp⟩
    · have hrest : key ∈ rest.map Prod.fst := by simpa [hk] using h
      obtain ⟨before, old, after, rfl, hfirst⟩ := ih hrest
      exact ⟨(k, v) :: before, old, after, rfl, by simpa [hk] using hfirst⟩

theorem lookup_first_entry {key : String} {before : List (String × Value)}
    (h : key ∉ before.map Prod.fst) (old : Value) (after : List (String × Value)) :
    (before ++ (key, old) :: after).lookup key = some old := by
  induction before with
  | nil => simp
  | cons e rest ih =>
    obtain ⟨k, v⟩ := e
    simp only [List.map_cons, List.mem_cons, not_or] at h
    rw [List.cons_append, List.lookup_cons, beq_eq_false_iff_ne.mpr h.1]
    exact ih h.2

-- ---------------------------------------------------------------------------
-- The entry under a key
-- ---------------------------------------------------------------------------

/-- An update through `get_mut` keeps to its entry. -/
theorem entryChanged_modify {key : String} {R : Value → Value → Prop} {f : Value → Value}
    {v : Value} (h : ∀ old, v.get key = some old → R old (f old)) :
    EntryChanged key R v (v.modify key f) := by
  cases v with
  | object entries =>
    by_cases hmem : key ∈ entries.map Prod.fst
    · obtain ⟨before, old, after, rfl, hfirst⟩ := exists_first_entry hmem
      have hnew : modifyEntries key f (before ++ (key, old) :: after) =
          before ++ (key, f old) :: after := by
        rw [modifyEntries_append f hfirst, modifyEntries, if_pos (beq_self_eq_true key)]
      rw [modify, hnew]
      exact .entry before after hfirst (h old (lookup_first_entry hfirst old after))
    · rw [modify, modifyEntries_of_notMem f hmem]
      exact .same _
  | _ => exact .same _

/-- An update of every item keeps to the items. -/
theorem itemsChanged_map {R : Value → Value → Prop} {f : Value → Value} {xs : List Value}
    (h : ∀ old ∈ xs, R old (f old)) : ItemsChanged R (.array xs) (.array (xs.map f)) := by
  refine .items ?_
  rw [List.forall₂_map_right_iff, List.forall₂_same]
  exact h

theorem EntryChanged.get_of_ne {key key' : String} {R : Value → Value → Prop} {v w : Value}
    (h : EntryChanged key R v w) (hne : key' ≠ key) : w.get key' = v.get key' := by
  cases h with
  | same => rfl
  | entry before after hfirst hR =>
    show List.lookup key' (before ++ _ :: after) = List.lookup key' (before ++ _ :: after)
    induction before with
    | nil => simp only [List.nil_append, List.lookup_cons, beq_eq_false_iff_ne.mpr hne]
    | cons e rest ih =>
      obtain ⟨k, v⟩ := e
      simp only [List.map_cons, List.mem_cons, not_or] at hfirst
      rw [List.cons_append, List.cons_append, List.lookup_cons, List.lookup_cons, ih hfirst.2]

theorem EntryChanged.get_self {key : String} {R : Value → Value → Prop} {v w old : Value}
    (h : EntryChanged key R v w) (hold : v.get key = some old) :
    ∃ new, w.get key = some new ∧ (new = old ∨ R old new) := by
  cases h with
  | same => exact ⟨old, hold, Or.inl rfl⟩
  | @entry before after old' new hfirst hR =>
    have hsame : some old' = some old := (lookup_first_entry hfirst old' after).symm.trans hold
    obtain rfl : old' = old := Option.some.inj hsame
    exact ⟨new, lookup_first_entry hfirst new after, Or.inr hR⟩

theorem ItemsChanged.getIdx {R : Value → Value → Prop} {v w old : Value} {i : Nat}
    (h : ItemsChanged R v w) (hold : v.getIdx i = some old) :
    ∃ new, w.getIdx i = some new ∧ (new = old ∨ R old new) := by
  cases h with
  | same => exact ⟨old, hold, Or.inl rfl⟩
  | @items xs ys hall =>
    obtain ⟨hi, rfl⟩ := List.getElem?_eq_some_iff.mp hold
    have hi' : i < ys.length := hall.length_eq ▸ hi
    exact ⟨ys[i], List.getElem?_eq_getElem hi', Or.inr (hall.get hi hi')⟩

-- ---------------------------------------------------------------------------
-- Updating twice
-- ---------------------------------------------------------------------------

theorem modifyEntries_modifyEntries (key : String) (f g : Value → Value)
    (entries : List (String × Value)) :
    modifyEntries key g (modifyEntries key f entries) =
      modifyEntries key (fun v => g (f v)) entries := by
  induction entries with
  | nil => rfl
  | cons e rest ih =>
    obtain ⟨k, v⟩ := e
    by_cases hk : (key == k) = true
    · simp only [modifyEntries, hk, if_true]
    · rw [modifyEntries, if_neg hk, modifyEntries, if_neg hk, ih, modifyEntries, if_neg hk]

/-- Two updates of one entry are one. -/
theorem modify_modify (v : Value) (key : String) (f g : Value → Value) :
    (v.modify key f).modify key g = v.modify key fun old => g (f old) := by
  cases v with
  | object entries => exact congrArg object (modifyEntries_modifyEntries key f g entries)
  | _ => rfl

end Value

end IgraRpc

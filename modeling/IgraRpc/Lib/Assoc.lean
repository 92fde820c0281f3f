import Mathlib.Data.List.Forall2
import Mathlib.Tactic.Common

/-!
# Maps from entries

A parser meets the entries of a map one by one, keys repeated or not.

* `ofEntries` — the map they make: in the order of its keys, the last entry under a key
  replacing the earlier ones (`lookup_ofEntries`). Its keys ascend, and entries whose keys
  do are the map they make (`ofEntries_of_ascending`);
* `field` — what a strict reader makes of one key: no entry, one that converts, or an
  error; without a repeated key it reads what the map holds (`field_of_not_repeats`);
* `mapM_eq_some` — a list whose elements all convert.
-/

namespace Lib

universe u v w

variable {κ : Type u} {α : Type v} {β : Type w} [DecidableEq κ]

-- ---------------------------------------------------------------------------
-- The map
-- ---------------------------------------------------------------------------

/-- Insert under a key, or replace what is there. -/
def insertEntry (lt : κ → κ → Bool) (key : κ) (value : α) : List (κ × α) → List (κ × α)
  | [] => [(key, value)]
  | (k, v) :: rest =>
    if key = k then (key, value) :: rest
    else if lt key k then (key, value) :: (k, v) :: rest
    else (k, v) :: insertEntry lt key value rest

/-- The map of a list of entries. -/
def ofEntries (lt : κ → κ → Bool) (entries : List (κ × α)) : List (κ × α) :=
  entries.foldl (fun map entry => insertEntry lt entry.1 entry.2 map) []

/-- The entries under a key. -/
def entriesUnder (key : κ) (entries : List (κ × α)) : List (κ × α) :=
  entries.filter fun entry => entry.1 == key

theorem lookup_insertEntry (lt : κ → κ → Bool) (key key' : κ) (value : α) :
    ∀ map : List (κ × α), (insertEntry lt key value map).lookup key' =
      if key' = key then some value else map.lookup key'
  | [] => by
    by_cases h : key' = key
    · simp [insertEntry, h]
    · simp [insertEntry, h, List.lookup_cons, beq_eq_false_iff_ne.mpr h]
  | (k, v) :: rest => by
    have ih := lookup_insertEntry lt key key' value rest
    rw [insertEntry]
    by_cases hkey : key' = key
    · subst hkey
      split
      · simp
      · next hne =>
        split
        · simp
        · rw [List.lookup_cons, beq_eq_false_iff_ne.mpr hne, if_pos rfl]
          rw [if_pos rfl] at ih
          exact ih
    · have hfalse : (key' == key) = false := beq_eq_false_iff_ne.mpr hkey
      rw [if_neg hkey] at ih ⊢
      split
      · next heq => rw [List.lookup_cons, hfalse, ← heq, List.lookup_cons, hfalse]
      · split
        · rw [List.lookup_cons, hfalse]
        · rw [List.lookup_cons, List.lookup_cons, ih]

theorem entriesUnder_cons (key : κ) (entry : κ × α) (rest : List (κ × α)) :
    entriesUnder key (entry :: rest) =
      if key = entry.1 then entry :: entriesUnder key rest else entriesUnder key rest := by
  rw [entriesUnder, List.filter_cons]
  by_cases hkey : key = entry.1
  · simp [hkey, entriesUnder]
  · have hfalse : (entry.1 == key) = false := beq_eq_false_iff_ne.mpr (Ne.symm hkey)
    simp [hfalse, hkey, entriesUnder]

theorem entriesUnder_append (key : κ) (entries entries' : List (κ × α)) :
    entriesUnder key (entries ++ entries') =
      entriesUnder key entries ++ entriesUnder key entries' :=
  List.filter_append ..

theorem lookup_foldl_insertEntry (lt : κ → κ → Bool) (key : κ) :
    ∀ (entries map : List (κ × α)),
      (entries.foldl (fun map entry => insertEntry lt entry.1 entry.2 map) map).lookup key =
        (((entriesUnder key entries).getLast?).map Prod.snd).or (map.lookup key)
  | [], map => by simp [entriesUnder]
  | entry :: rest, map => by
    rw [List.foldl_cons, lookup_foldl_insertEntry lt key rest, lookup_insertEntry,
      entriesUnder_cons]
    by_cases hkey : key = entry.1
    · rw [if_pos hkey, if_pos hkey, List.getLast?_cons]
      cases (entriesUnder key rest).getLast? <;> rfl
    · rw [if_neg hkey, if_neg hkey]

/-- **The last entry under a key wins.** -/
theorem lookup_ofEntries (lt : κ → κ → Bool) (key : κ) (entries : List (κ × α)) :
    (ofEntries lt entries).lookup key = ((entriesUnder key entries).getLast?).map Prod.snd := by
  rw [ofEntries, lookup_foldl_insertEntry]
  simp

-- ---------------------------------------------------------------------------
-- Ascending keys
-- ---------------------------------------------------------------------------

/-- A strict total order of the keys. -/
structure StrictOrder (lt : κ → κ → Bool) : Prop where
  irrefl : ∀ a, lt a a = false
  trans : ∀ a b c, lt a b = true → lt b c = true → lt a c = true
  total : ∀ a b, a ≠ b → lt a b = false → lt b a = true

/-- The keys ascend, so none is repeated. -/
def Ascending (lt : κ → κ → Bool) (entries : List (κ × α)) : Prop :=
  entries.Pairwise fun entry entry' => lt entry.1 entry'.1 = true

section
variable {lt : κ → κ → Bool}

theorem mem_insertEntry {key : κ} {value : α} {entry : κ × α} : ∀ {map : List (κ × α)},
    entry ∈ insertEntry lt key value map → entry = (key, value) ∨ entry ∈ map
  | [], h => Or.inl (List.mem_singleton.mp h)
  | (k, v) :: rest, h => by
    rw [insertEntry] at h
    split at h
    · rcases List.mem_cons.mp h with h | h
      · exact Or.inl h
      · exact Or.inr (List.mem_cons_of_mem _ h)
    · split at h
      · exact List.mem_cons.mp h
      · rcases List.mem_cons.mp h with rfl | h
        · exact Or.inr List.mem_cons_self
        · rcases mem_insertEntry h with h | h
          · exact Or.inl h
          · exact Or.inr (List.mem_cons_of_mem _ h)

theorem ascending_insertEntry (hlt : StrictOrder lt) (key : κ) (value : α) :
    ∀ {map : List (κ × α)}, Ascending lt map → Ascending lt (insertEntry lt key value map)
  | [], _ => List.pairwise_singleton _ _
  | (k, v) :: rest, h => by
    obtain ⟨hhead, hrest⟩ := List.pairwise_cons.mp h
    rw [insertEntry]
    by_cases heq : key = k
    · subst heq
      rw [if_pos rfl]
      exact List.pairwise_cons.mpr ⟨hhead, hrest⟩
    · rw [if_neg heq]
      by_cases hless : lt key k = true
      · rw [if_pos hless]
        refine List.pairwise_cons.mpr ⟨?_, h⟩
        intro entry hentry
        rcases List.mem_cons.mp hentry with rfl | hentry
        · exact hless
        · exact hlt.trans _ _ _ hless (hhead entry hentry)
      · rw [if_neg hless]
        refine List.pairwise_cons.mpr ⟨?_, ascending_insertEntry hlt key value hrest⟩
        intro entry hentry
        rcases mem_insertEntry hentry with rfl | hentry
        · exact hlt.total key k heq (by simpa using hless)
        · exact hhead entry hentry

theorem ascending_ofEntries (hlt : StrictOrder lt) (entries : List (κ × α)) :
    Ascending lt (ofEntries lt entries) := by
  have hfold : ∀ (entries map : List (κ × α)), Ascending lt map →
      Ascending lt (entries.foldl (fun map entry => insertEntry lt entry.1 entry.2 map) map) := by
    intro entries
    induction entries with
    | nil => exact fun map h => h
    | cons entry rest ih => exact fun map h => ih _ (ascending_insertEntry hlt _ _ h)
  exact hfold entries [] List.Pairwise.nil

theorem mem_ofEntries {entries : List (κ × α)} {entry : κ × α}
    (h : entry ∈ ofEntries lt entries) : entry ∈ entries := by
  have hfold : ∀ (entries map : List (κ × α)),
      entry ∈ entries.foldl (fun map entry => insertEntry lt entry.1 entry.2 map) map →
        entry ∈ map ∨ entry ∈ entries := by
    intro entries
    induction entries with
    | nil => exact fun map h => Or.inl h
    | cons head rest ih =>
      intro map h
      rcases ih _ h with h | h
      · rcases mem_insertEntry h with rfl | h
        · exact Or.inr List.mem_cons_self
        · exact Or.inl h
      · exact Or.inr (List.mem_cons_of_mem _ h)
  rcases hfold entries [] h with h | h
  · exact absurd h List.not_mem_nil
  · exact h

/-- A key above all others is inserted at the end. -/
theorem insertEntry_above (hlt : StrictOrder lt) {key : κ} (value : α) :
    ∀ {map : List (κ × α)}, (∀ entry ∈ map, lt entry.1 key = true) →
      insertEntry lt key value map = map ++ [(key, value)]
  | [], _ => rfl
  | (k, v) :: rest, h => by
    have hhead : lt k key = true := h (k, v) List.mem_cons_self
    have hne : key ≠ k := by
      rintro rfl
      rw [hlt.irrefl] at hhead
      exact absurd hhead (by simp)
    have hless : ¬lt key k = true := by
      intro hback
      have hself := hlt.trans _ _ _ hhead hback
      rw [hlt.irrefl] at hself
      exact absurd hself (by simp)
    rw [insertEntry, if_neg hne, if_neg hless,
      insertEntry_above hlt value fun entry hentry => h entry (List.mem_cons_of_mem _ hentry)]
    rfl

/-- **Entries whose keys ascend are the map they make.** -/
theorem ofEntries_of_ascending (hlt : StrictOrder lt) {entries : List (κ × α)}
    (h : Ascending lt entries) : ofEntries lt entries = entries := by
  have hfold : ∀ (entries map : List (κ × α)), Ascending lt (map ++ entries) →
      entries.foldl (fun map entry => insertEntry lt entry.1 entry.2 map) map =
        map ++ entries := by
    intro entries
    induction entries with
    | nil => exact fun map _ => (List.append_nil map).symm
    | cons entry rest ih =>
      intro map hmap
      have hsplit : map ++ entry :: rest = (map ++ [(entry.1, entry.2)]) ++ rest := by simp
      have habove : ∀ e ∈ map, lt e.1 entry.1 = true := fun e he =>
        (List.pairwise_append.mp hmap).2.2 e he entry List.mem_cons_self
      rw [List.foldl_cons, insertEntry_above hlt _ habove, ih _ (hsplit ▸ hmap), hsplit]
  exact hfold entries [] h

end

-- ---------------------------------------------------------------------------
-- Strict readers
-- ---------------------------------------------------------------------------

/-- One field of a record read from the entries: absent, or the one entry under its key,
converted. A second entry is an error, and so is one that does not convert. -/
def field (key : κ) (convert : α → Option β) (entries : List (κ × α)) : Option (Option β) :=
  match entriesUnder key entries with
  | [] => some none
  | [entry] => (convert entry.2).map some
  | _ => none

/-- The key stands in more than one entry. -/
def Repeats (key : κ) (entries : List (κ × α)) : Prop := 2 ≤ (entriesUnder key entries).length

theorem field_of_repeats {key : κ} {entries : List (κ × α)} (h : Repeats key entries)
    (convert : α → Option β) : field key convert entries = none := by
  unfold field
  split
  · next hnil => simp [Repeats, hnil] at h
  · next hone => simp [Repeats, hone] at h
  · rfl

/-- Without a repetition a field is what the map holds, converted. -/
theorem field_of_not_repeats {key : κ} {entries : List (κ × α)} (h : ¬Repeats key entries)
    (lt : κ → κ → Bool) (convert : α → Option β) :
    field key convert entries = ((ofEntries lt entries).lookup key).mapM convert := by
  rw [lookup_ofEntries]
  unfold field
  split
  · next hnil => rw [hnil]; rfl
  · next hone => rw [hone]; rfl
  · next hnil hone =>
    have hshort : ¬2 ≤ (entriesUnder key entries).length := h
    match hlist : entriesUnder key entries with
    | [] => exact absurd hlist hnil
    | [entry] => exact absurd hlist (hone entry)
    | _ :: _ :: _ =>
      rw [hlist] at hshort
      exact absurd (by simp) hshort

/-- A list converts exactly when its elements do, one by one. -/
theorem mapM_eq_some {f : α → Option β} {xs : List α} {ys : List β} :
    xs.mapM f = some ys ↔ List.Forall₂ (fun x y => f x = some y) xs ys := by
  induction xs generalizing ys with
  | nil => cases ys <;> simp
  | cons x xs ih =>
    rw [List.mapM_cons]
    refine ⟨?_, ?_⟩
    · intro h
      cases hx : f x with
      | none => simp [hx] at h
      | some y =>
        cases hrest : xs.mapM f with
        | none => simp [hx, hrest] at h
        | some rest =>
          obtain rfl : y :: rest = ys := by simpa [hx, hrest] using h
          exact List.Forall₂.cons hx (ih.mp hrest)
    · intro h
      cases h with
      | cons hx hrest => simp [hx, ih.mpr hrest]

theorem exists_mapM_eq_some {f : α → Option β} {xs : List α} :
    (∃ ys, xs.mapM f = some ys) ↔ ∀ x ∈ xs, ∃ y, f x = some y := by
  induction xs with
  | nil => simp
  | cons x xs ih =>
    simp only [mapM_eq_some, List.forall_mem_cons] at ih ⊢
    rw [← ih]
    refine ⟨?_, ?_⟩
    · intro ⟨ys, h⟩
      cases h with
      | cons hx hrest => exact ⟨⟨_, hx⟩, _, hrest⟩
    · intro ⟨⟨y, hx⟩, ys, hrest⟩
      exact ⟨y :: ys, List.Forall₂.cons hx hrest⟩

theorem mapM_congr {f g : α → Option β} {xs : List α} (h : ∀ x ∈ xs, f x = g x) :
    xs.mapM f = xs.mapM g := by
  induction xs with
  | nil => rfl
  | cons x xs ih =>
    rw [List.mapM_cons, List.mapM_cons, h x (List.mem_cons_self ..),
      ih fun y hy => h y (List.mem_cons_of_mem _ hy)]

end Lib

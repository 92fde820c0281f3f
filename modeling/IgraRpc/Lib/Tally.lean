import IgraRpc.Lib.TopN

/-!
# Tallies

How often each key of a list occurs: a table with one entry a key, which counts it up, and
lists its entries in an order of its own. And counters beside each other, each of which counts
the entries of a list that are of its kind.

* `Tallies` — the table has the keys of the list, each once and with its number;
* `tally_tallies` — **counting up key by key makes such a table**;
* `Tallies.perm` — so is the same table in another order;
* `foldl_component` — **a part of a state that only entries of one kind change** is told by
  these alone;
* `foldl_counter` — a counter among them, which stops at its largest value.
-/

namespace Lib

universe u v w

section
variable {α : Type u} [DecidableEq α]

/-- The entry of the key counts up, from zero if there is none. -/
def bump (key : α) : List (α × Nat) → List (α × Nat)
  | [] => [(key, 1)]
  | entry :: rest =>
    if entry.1 = key then (entry.1, entry.2 + 1) :: rest else entry :: bump key rest

/-- The table of a list of keys. -/
def tally (keys : List α) : List (α × Nat) := keys.foldl (fun table key => bump key table) []

/-- Each key of the list has one entry, with its number, and no other key has one. -/
structure Tallies (keys : List α) (table : List (α × Nat)) : Prop where
  nodup : (table.map Prod.fst).Nodup
  mem_iff : ∀ key n, (key, n) ∈ table ↔ 0 < n ∧ n = keys.count key

theorem map_fst_bump (key : α) (table : List (α × Nat)) :
    (bump key table).map Prod.fst = table.map Prod.fst ∨
      key ∉ table.map Prod.fst ∧ (bump key table).map Prod.fst = table.map Prod.fst ++ [key] := by
  induction table with
  | nil => exact Or.inr ⟨List.not_mem_nil, rfl⟩
  | cons entry rest ih =>
    rw [bump]
    by_cases hkey : entry.1 = key
    · rw [if_pos hkey]
      exact Or.inl rfl
    · rw [if_neg hkey]
      rcases ih with hsame | ⟨hnew, hadded⟩
      · refine Or.inl ?_
        rw [List.map_cons, List.map_cons, hsame]
      · refine Or.inr ⟨?_, ?_⟩
        · rw [List.map_cons, List.mem_cons, not_or]
          exact ⟨fun heq => hkey heq.symm, hnew⟩
        · rw [List.map_cons, List.map_cons, hadded, List.cons_append]

/-- The entries after counting up: those of other keys, and one more for the key. -/
theorem mem_bump {key : α} {table : List (α × Nat)} (hnodup : (table.map Prod.fst).Nodup)
    {key' : α} {n : Nat} :
    (key', n) ∈ bump key table ↔
      key' ≠ key ∧ (key', n) ∈ table ∨
        key' = key ∧ ((∃ m, n = m + 1 ∧ (key, m) ∈ table) ∨
          n = 1 ∧ key ∉ table.map Prod.fst) := by
  induction table with
  | nil => simp [bump]
  | cons entry rest ih =>
    obtain ⟨first, count⟩ := entry
    rw [List.map_cons, List.nodup_cons] at hnodup
    obtain ⟨hfirst, hrest⟩ := hnodup
    have habsent : ∀ m, (first, m) ∉ rest := fun m hm => hfirst (List.mem_map.mpr ⟨_, hm, rfl⟩)
    rw [bump]
    by_cases hkey : first = key
    · subst hkey
      rw [if_pos rfl, List.mem_cons, List.map_cons]
      by_cases hsame : key' = first
      · subst hsame
        simp [habsent]
      · simp [hsame]
    · rw [if_neg hkey, List.mem_cons, ih hrest]
      by_cases hsame : key' = key
      · subst hsame
        simp [Ne.symm hkey]
      · simp [hsame]

theorem Tallies.bump {keys : List α} {table : List (α × Nat)} (h : Tallies keys table)
    (key : α) : Tallies (keys ++ [key]) (bump key table) := by
  refine ⟨?_, ?_⟩
  · rcases map_fst_bump key table with hsame | ⟨hnew, hadded⟩
    · rw [hsame]
      exact h.nodup
    · rw [hadded]
      refine List.nodup_append.mpr ⟨h.nodup, List.nodup_singleton key, ?_⟩
      intro a ha b hb heq
      rw [List.mem_singleton.mp hb] at heq
      exact hnew (heq ▸ ha)
  · intro key' n
    rw [mem_bump h.nodup, List.count_append]
    by_cases hsame : key' = key
    · subst hsame
      have hkeys : key' ∉ table.map Prod.fst ↔ keys.count key' = 0 := by
        refine ⟨?_, ?_⟩
        · intro hnot
          by_contra hpos
          have hmem := (h.mem_iff key' _).mpr ⟨Nat.pos_of_ne_zero hpos, rfl⟩
          exact hnot (List.mem_map.mpr ⟨_, hmem, rfl⟩)
        · intro hzero hmem
          obtain ⟨⟨first, m⟩, hentry, hfirst⟩ := List.mem_map.mp hmem
          obtain rfl : first = key' := hfirst
          obtain ⟨hpos, hcount⟩ := (h.mem_iff first m).mp hentry
          omega
      have hone : List.count key' [key'] = 1 := List.count_singleton_self
      simp only [ne_eq, not_true_eq_false, false_and, true_and, false_or, h.mem_iff, hkeys, hone]
      refine ⟨?_, ?_⟩
      · rintro (⟨m, rfl, -, hm⟩ | ⟨rfl, hzero⟩)
        · omega
        · omega
      · intro ⟨hpos, hcount⟩
        by_cases hzero : keys.count key' = 0
        · exact Or.inr ⟨by omega, hzero⟩
        · exact Or.inl ⟨keys.count key', hcount, by omega, rfl⟩
    · have hnone : List.count key' [key] = 0 := List.count_eq_zero.mpr (by simpa using hsame)
      simp [hsame, h.mem_iff, hnone]

/-- **Counting up key by key makes a table of the keys.** -/
theorem tally_tallies (keys : List α) : Tallies keys (tally keys) := by
  induction keys using List.reverseRecOn with
  | nil =>
    refine ⟨List.nodup_nil, fun key n => ?_⟩
    simp [tally]
    omega
  | append_singleton keys key ih =>
    rw [tally, List.foldl_append]
    exact ih.bump key

namespace Tallies

variable {keys : List α} {table listed : List (α × Nat)}

/-- The order of the entries is up to the table. -/
theorem perm (h : Tallies keys table) (hlisted : listed.Perm table) : Tallies keys listed := by
  refine ⟨(hlisted.map Prod.fst).nodup_iff.mpr h.nodup, fun key n => ?_⟩
  rw [hlisted.mem_iff]
  exact h.mem_iff key n

end Tallies

end

-- ---------------------------------------------------------------------------
-- Counters
-- ---------------------------------------------------------------------------

section
variable {σ : Type u} {ε α τ : Type v}

/-- **A part of a state that only entries of one kind change** is what these alone make of
it, in their order. -/
theorem foldl_component (apply : σ → ε → σ) (part : σ → τ) (kind : ε → Option α)
    (step : τ → α → τ)
    (h : ∀ s e, part (apply s e) = (match kind e with
      | some a => step (part s) a
      | none => part s)) (entries : List ε) : ∀ s : σ,
    part (entries.foldl apply s) = (entries.filterMap kind).foldl step (part s) := by
  induction entries with
  | nil =>
    intro s
    rfl
  | cons e rest ih =>
    intro s
    have hstep := h s e
    rw [List.foldl_cons, ih (apply s e), hstep]
    cases hkind : kind e with
    | none => rw [List.filterMap_cons_none hkind]
    | some a => rw [List.filterMap_cons_some hkind, List.foldl_cons]

/-- A counter that stops at its largest value has the number of entries of its kind. -/
theorem foldl_counter (apply : σ → ε → σ) (part : σ → Nat) (kind : ε → Option α) (most : Nat)
    (h : ∀ s e, part (apply s e) = (match kind e with
      | some _ => min (part s + 1) most
      | none => part s)) (entries : List ε) {s : σ} (hzero : part s = 0) :
    part (entries.foldl apply s) = min (entries.filterMap kind).length most := by
  induction entries using List.reverseRecOn with
  | nil => rw [List.foldl_nil, hzero, List.filterMap_nil, List.length_nil, Nat.zero_min]
  | append_singleton entries e ih =>
    rw [List.foldl_append, List.foldl_cons, List.foldl_nil, h, ih, List.filterMap_append,
      List.length_append]
    cases hkind : kind e with
    | none =>
      rw [List.filterMap_cons_none hkind, List.filterMap_nil, List.length_nil]
      rfl
    | some a =>
      rw [List.filterMap_cons_some hkind, List.filterMap_nil, List.length_singleton]
      show min (min _ most + 1) most = _
      omega

end

end Lib

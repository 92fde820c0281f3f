import Mathlib.Order.Basic
import Mathlib.Tactic.Common

/-!
# Search by rounds

A search that tries `0, 1, …, last` in order, and when a whole round fails
changes its state and starts over, for a bounded number of times. The state is
overwritten in place by every try, so a try must not depend on what earlier tries
of the same round left behind: that is the law `Rounds` carries.

* `Rounds.cand r n` — the candidate of try `n` in round `r`, from the initial
  state alone;
* `Rounds.IsFirst` — the first pair `(r, n)` in lexicographic order whose
  candidate is a hit;
* `Rounds.loop_spec` — the loop returns exactly that candidate, or fails with no
  hit among all the tries;
* `Rounds.tries_eq`, `Rounds.index_add_tries_length` — the tries it makes are
  consecutive ones, each made once, up to the hit or to the end of the last round.
-/

namespace Lib

universe u

/-- The first try that `P` accepts, `Q` holding of those before it, is try `0` or a later
one. -/
theorem exists_first_succ {P Q : Nat → Prop} {n : Nat} :
    (∃ k < n + 1, P k ∧ ∀ j < k, Q j) ↔
      P 0 ∨ Q 0 ∧ ∃ k < n, P (k + 1) ∧ ∀ j < k, Q (j + 1) := by
  rw [Nat.exists_lt_succ_left]
  simp only [Nat.forall_lt_succ_left, Nat.not_lt_zero, false_imp_iff, implies_true, and_true]
  refine or_congr_right ⟨?_, ?_⟩
  · intro ⟨k, hk, haccepted, hfirst, hbefore⟩
    exact ⟨hfirst, k, hk, haccepted, hbefore⟩
  · intro ⟨hfirst, k, hk, haccepted, hbefore⟩
    exact ⟨k, hk, haccepted, hfirst, hbefore⟩

/-- A search by rounds over states `σ`. -/
structure Rounds (σ : Type u) where
  /-- The state after writing try `n` into it. -/
  probe : σ → Nat → σ
  hit : σ → Bool
  /-- The change of state after round `r` failed. -/
  renew : Nat → σ → σ
  /-- The last try of a round. -/
  last : Nat
  /-- The number of times the state may be renewed. -/
  renewals : Nat
  /-- A try overwrites every trace of an earlier one. -/
  probe_probe : ∀ s m n, probe (probe s m) n = probe s n
  /-- So does a try after a renewal. -/
  probe_renew_probe : ∀ r s m n, probe (renew r (probe s m)) n = probe (renew r s) n

namespace Rounds

variable {σ : Type u} (R : Rounds σ)

/-- The search from try `n` of round `r`: the state of the first hit, with its
try and round. -/
def loop (s : σ) (n r : Nat) : Option (σ × Nat × Nat) :=
  let t := R.probe s n
  if R.hit t then some (t, n, r)
  else if n < R.last then loop t (n + 1) r
  else if r < R.renewals then loop (R.renew r t) 0 (r + 1)
  else none
termination_by (R.renewals - r, R.last - n)
decreasing_by
  · exact Prod.Lex.right _ (by omega)
  · exact Prod.Lex.left _ _ (by omega)

/-- The state round `r` starts from, with every failed round's change applied. -/
def base (s : σ) : Nat → σ
  | 0 => s
  | r + 1 => R.renew r (base s r)

/-- The candidate of try `n` in round `r`. -/
def cand (s : σ) (r n : Nat) : σ := R.probe (R.base s r) n

/-- `(r, n)` comes before `(r', n')`. -/
def Before (r n r' n' : Nat) : Prop := r < r' ∨ (r = r' ∧ n < n')

/-- `(r, n)` is the first hit at or after `(r₀, n₀)`. -/
structure IsFirst (s : σ) (r₀ n₀ r n : Nat) : Prop where
  round_le : r ≤ R.renewals
  try_le : n ≤ R.last
  hit : R.hit (R.cand s r n) = true
  not_before : ¬ Before r n r₀ n₀
  first : ∀ r' n', ¬ Before r' n' r₀ n₀ → n' ≤ R.last → Before r' n' r n →
    R.hit (R.cand s r' n') = false

/-- No try at or after `(r₀, n₀)` is a hit. -/
def NoHit (s : σ) (r₀ n₀ : Nat) : Prop :=
  ∀ r n, ¬ Before r n r₀ n₀ → r ≤ R.renewals → n ≤ R.last → R.hit (R.cand s r n) = false

variable {R}

/-- `(r₁, n₁)` is the try after `(r₀, n₀)`: nothing lies between them. -/
def Follows (R : Rounds σ) (r₀ n₀ r₁ n₁ : Nat) : Prop :=
  Before r₀ n₀ r₁ n₁ ∧ ∀ r n, n ≤ R.last → ¬ Before r n r₀ n₀ →
    (r = r₀ ∧ n = n₀) ∨ ¬ Before r n r₁ n₁

theorem follows_try (r n : Nat) : R.Follows r n r (n + 1) := by
  refine ⟨Or.inr ⟨rfl, by omega⟩, fun r' n' _ hge => ?_⟩
  unfold Before at hge ⊢
  omega

theorem follows_round {r n : Nat} (hn : R.last ≤ n) : R.Follows r n (r + 1) 0 := by
  refine ⟨Or.inl (by omega), fun r' n' hn' hge => ?_⟩
  unfold Before at hge ⊢
  omega

/-- After a miss, the first hit is the first hit from the next try on. -/
theorem IsFirst.of_miss {s : σ} {r₀ n₀ r₁ n₁ r n : Nat}
    (hmiss : R.hit (R.cand s r₀ n₀) = false) (hnext : R.Follows r₀ n₀ r₁ n₁)
    (h : R.IsFirst s r₁ n₁ r n) : R.IsFirst s r₀ n₀ r n := by
  refine ⟨h.round_le, h.try_le, h.hit, ?_, ?_⟩
  · have hbefore := hnext.1
    have hge := h.not_before
    unfold Before at hbefore hge ⊢
    omega
  · intro r' n' hge hn' hbefore
    rcases hnext.2 r' n' hn' hge with ⟨rfl, rfl⟩ | hge'
    · exact hmiss
    · exact h.first r' n' hge' hn' hbefore

/-- After a miss, there is no hit if there is none from the next try on. -/
theorem NoHit.of_miss {s : σ} {r₀ n₀ r₁ n₁ : Nat}
    (hmiss : R.hit (R.cand s r₀ n₀) = false) (hnext : R.Follows r₀ n₀ r₁ n₁)
    (h : R.NoHit s r₁ n₁) : R.NoHit s r₀ n₀ := by
  intro r n hge hr hn
  rcases hnext.2 r n hn hge with ⟨rfl, rfl⟩ | hge'
  · exact hmiss
  · exact h r n hge' hr hn

/-- **The search.** From any state that tries like round `r₀`'s, the loop returns
the first hit at or after `(r₀, n₀)`, or fails and there is none. -/
theorem loop_spec (s₀ s : σ) (n₀ r₀ : Nat) (hn : n₀ ≤ R.last) (hr : r₀ ≤ R.renewals)
    (hs : ∀ n, R.probe s n = R.cand s₀ r₀ n) :
    (∀ t n r, R.loop s n₀ r₀ = some (t, n, r) →
      t = R.cand s₀ r n ∧ R.IsFirst s₀ r₀ n₀ r n) ∧
    (R.loop s n₀ r₀ = none → R.NoHit s₀ r₀ n₀) := by
  rw [loop]
  simp only [hs]
  split
  · next hhit =>
    -- try `n₀` itself is a hit, so nothing comes before it
    refine ⟨?_, fun h => absurd h (by simp)⟩
    intro t n r h
    simp only [Option.some.injEq, Prod.mk.injEq] at h
    obtain ⟨rfl, rfl, rfl⟩ := h
    refine ⟨rfl, hr, hn, hhit, ?_, fun r' n' hge _ hlt => absurd hlt hge⟩
    unfold Before
    omega
  · next hhit =>
    have hmiss : R.hit (R.cand s₀ r₀ n₀) = false := by simpa using hhit
    split
    · next hlt =>
      -- the next try of the same round
      have hprobe : ∀ n, R.probe (R.cand s₀ r₀ n₀) n = R.cand s₀ r₀ n :=
        fun n => R.probe_probe _ _ _
      obtain ⟨hsome, hnone⟩ := loop_spec s₀ (R.cand s₀ r₀ n₀) (n₀ + 1) r₀ hlt hr hprobe
      refine ⟨fun t n r h => ?_, fun h => (hnone h).of_miss hmiss (follows_try ..)⟩
      obtain ⟨ht, hfirst⟩ := hsome t n r h
      exact ⟨ht, hfirst.of_miss hmiss (follows_try ..)⟩
    · next hlt =>
      split
      · next hmore =>
        -- the round is over: the next one starts from the renewed state
        have hrenew : ∀ n, R.probe (R.renew r₀ (R.cand s₀ r₀ n₀)) n =
            R.cand s₀ (r₀ + 1) n := fun n => R.probe_renew_probe _ _ _ _
        have hnext := follows_round (R := R) (r := r₀) (Nat.le_of_not_lt hlt)
        obtain ⟨hsome, hnone⟩ := loop_spec s₀ (R.renew r₀ (R.cand s₀ r₀ n₀)) 0 (r₀ + 1)
          (Nat.zero_le _) hmore hrenew
        refine ⟨fun t n r h => ?_, fun h => (hnone h).of_miss hmiss hnext⟩
        obtain ⟨ht, hfirst⟩ := hsome t n r h
        exact ⟨ht, hfirst.of_miss hmiss hnext⟩
      · next hmore =>
        -- the last try of the last round
        refine ⟨fun t n r h => absurd h (by simp), fun _ r n hge hr' hn' => ?_⟩
        obtain ⟨rfl, rfl⟩ : r = r₀ ∧ n = n₀ := by
          unfold Before at hge
          omega
        exact hmiss
termination_by (R.renewals - r₀, R.last - n₀)
decreasing_by
  · exact Prod.Lex.left _ _ (by omega)
  · exact Prod.Lex.right _ (by omega)

/-- Two first hits are the same. -/
theorem IsFirst.unique {s : σ} {r₀ n₀ r n r' n' : Nat} (h : R.IsFirst s r₀ n₀ r n)
    (h' : R.IsFirst s r₀ n₀ r' n') : r = r' ∧ n = n' := by
  by_contra hne
  -- whichever comes first is a hit that the other says is none
  have hcases : Before r n r' n' ∨ Before r' n' r n := by
    unfold Before
    omega
  rcases hcases with hb | hb
  · have := h'.first r n h.not_before h.try_le hb
    rw [h.hit] at this
    exact absurd this (by simp)
  · have := h.first r' n' h'.not_before h'.try_le hb
    rw [h'.hit] at this
    exact absurd this (by simp)

/-- A search from a state that tries like `s₀` succeeds exactly with the first hit. -/
theorem loop_eq_some_iff {s₀ s t : σ} {n r : Nat}
    (hs : ∀ n, R.probe s n = R.probe s₀ n) :
    R.loop s 0 0 = some (t, n, r) ↔ t = R.cand s₀ r n ∧ R.IsFirst s₀ 0 0 r n := by
  obtain ⟨hsome, hnone⟩ := loop_spec (R := R) s₀ s 0 0 (Nat.zero_le _) (Nat.zero_le _) hs
  refine ⟨?_, ?_⟩
  · exact hsome t n r
  · rintro ⟨rfl, hfirst⟩
    cases hloop : R.loop s 0 0 with
    | none =>
      have := hnone hloop r n hfirst.not_before hfirst.round_le hfirst.try_le
      rw [hfirst.hit] at this
      exact absurd this (by simp)
    | some found =>
      obtain ⟨t', n', r'⟩ := found
      obtain ⟨rfl, hfirst'⟩ := hsome t' n' r' hloop
      obtain ⟨rfl, rfl⟩ := hfirst.unique hfirst'
      rfl

/-- Such a search fails exactly when no try of any round is a hit. -/
theorem loop_eq_none_iff {s₀ s : σ} (hs : ∀ n, R.probe s n = R.probe s₀ n) :
    R.loop s 0 0 = none ↔
      ∀ r n, r ≤ R.renewals → n ≤ R.last → R.hit (R.cand s₀ r n) = false := by
  obtain ⟨hsome, hnone⟩ := loop_spec (R := R) s₀ s 0 0 (Nat.zero_le _) (Nat.zero_le _) hs
  have hge : ∀ r n, ¬ Before r n 0 0 := by
    unfold Before
    omega
  refine ⟨?_, ?_⟩
  · exact fun h r n => hnone h r n (hge r n)
  · intro hmiss
    cases hloop : R.loop s 0 0 with
    | none => rfl
    | some found =>
      obtain ⟨t, n, r⟩ := found
      have hfirst := (hsome t n r hloop).2
      have := hmiss r n hfirst.round_le hfirst.try_le
      rw [hfirst.hit] at this
      exact absurd this (by simp)

-- ---------------------------------------------------------------------------
-- The tries
-- ---------------------------------------------------------------------------

variable (R)

/-- The tries of the loop, as rounds and numbers, in order. -/
def tries (s : σ) (n r : Nat) : List (Nat × Nat) :=
  let t := R.probe s n
  (r, n) ::
    if R.hit t then []
    else if n < R.last then tries t (n + 1) r
    else if r < R.renewals then tries (R.renew r t) 0 (r + 1)
    else []
termination_by (R.renewals - r, R.last - n)
decreasing_by
  · exact Prod.Lex.right _ (by omega)
  · exact Prod.Lex.left _ _ (by omega)

/-- The place of a try among all of them. -/
def index (r n : Nat) : Nat := r * (R.last + 1) + n

/-- The try at a place. -/
def atIndex (k : Nat) : Nat × Nat := (k / (R.last + 1), k % (R.last + 1))

/-- The first place that is not tried: the one after the hit, or after all. -/
def stop : Option (σ × Nat × Nat) → Nat
  | some (_, n, r) => R.index r n + 1
  | none => R.index R.renewals R.last + 1

variable {R}

theorem atIndex_index {r n : Nat} (hn : n ≤ R.last) : R.atIndex (R.index r n) = (r, n) := by
  have hlt : n < R.last + 1 := Nat.lt_succ_of_le hn
  have hdiv : (r * (R.last + 1) + n) / (R.last + 1) = r := by
    rw [Nat.mul_comm, Nat.mul_add_div (Nat.succ_pos _), Nat.div_eq_of_lt hlt, Nat.add_zero]
  have hmod : (r * (R.last + 1) + n) % (R.last + 1) = n := by
    rw [Nat.mul_comm, Nat.mul_add_mod, Nat.mod_eq_of_lt hlt]
  rw [index, atIndex, hdiv, hmod]

/-- The last try of a round is followed by the first one of the next. -/
theorem index_last (r : Nat) : R.index r R.last + 1 = R.index (r + 1) 0 := by
  rw [index, index, Nat.succ_mul]
  rfl

/-- The tries go one place at a time: none is left out, and none made twice. -/
theorem tries_eq (s : σ) (n r : Nat) (hn : n ≤ R.last) :
    R.tries s n r =
      (List.range' (R.index r n) (R.tries s n r).length).map R.atIndex := by
  rw [tries]
  have hhead := atIndex_index (R := R) (r := r) hn
  split
  · simp [hhead]
  · split
    · next hlt =>
      have hrest := tries_eq (R.probe s n) (n + 1) r hlt
      rw [List.length_cons, List.range'_succ, List.map_cons, hhead]
      exact congrArg _ hrest
    · next hlt =>
      split
      · next hmore =>
        have hrest := tries_eq (R.renew r (R.probe s n)) 0 (r + 1) (Nat.zero_le _)
        have hnext : R.index r n + 1 = R.index (r + 1) 0 := by
          rw [Nat.le_antisymm hn (Nat.le_of_not_lt hlt)]
          exact index_last r
        rw [List.length_cons, List.range'_succ, List.map_cons, hhead, hnext]
        exact congrArg _ hrest
      · simp [hhead]
termination_by (R.renewals - r, R.last - n)
decreasing_by
  · exact Prod.Lex.left _ _ (by omega)
  · exact Prod.Lex.right _ (by omega)

/-- They stop behind the hit, or behind the last try of the last round. -/
theorem index_add_tries_length (s : σ) (n r : Nat) (hn : n ≤ R.last) (hr : r ≤ R.renewals) :
    R.index r n + (R.tries s n r).length = R.stop (R.loop s n r) := by
  rw [tries, loop]
  split
  · rfl
  · split
    · next hlt =>
      have hrest := index_add_tries_length (R.probe s n) (n + 1) r hlt hr
      rw [← hrest, List.length_cons, index, index]
      omega
    · next hlt =>
      have hround : R.index r n + 1 = R.index (r + 1) 0 := by
        rw [Nat.le_antisymm hn (Nat.le_of_not_lt hlt)]
        exact index_last r
      split
      · next hmore =>
        have hrest := index_add_tries_length (R.renew r (R.probe s n)) 0 (r + 1)
          (Nat.zero_le _) hmore
        rw [← hrest, ← hround, List.length_cons]
        omega
      · next hmore =>
        have hlast : r = R.renewals := Nat.le_antisymm hr (Nat.le_of_not_lt hmore)
        rw [Nat.le_antisymm hn (Nat.le_of_not_lt hlt), hlast]
        rfl
termination_by (R.renewals - r, R.last - n)
decreasing_by
  · exact Prod.Lex.left _ _ (by omega)
  · exact Prod.Lex.right _ (by omega)

end Rounds

end Lib

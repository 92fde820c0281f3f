import Mathlib.Data.List.Forall2

/-!
# Outcomes — computations that return, fail or panic

A Rust function that returns `Result<T, E>` has three ways to end: `Ok`, `Err`,
or an unwinding panic raised by a callee (an out-of-range slice, a failed
`assert!`). `Outcome ε α` keeps the three apart, so that a theorem about "the
function returns" cannot silently absorb a panic into `Err`.

* `Outcome` — the three-way result, with its monad and the inversion lemmas
  (`bind_eq_ok`, `bind_eq_panicked`) callers use instead of unfolding.
* `Outcome.collect` — `iter().map(f).collect::<Result<Vec<_>, _>>()`: the
  elements are produced in order and the first one that is not `ok` decides.
* `Traced` — an outcome together with the effects performed before it ended.
-/

namespace Lib

/-- How a fallible computation ends. -/
inductive Outcome (ε α : Type) where
  | ok (a : α)
  | err (e : ε)
  | panicked
  deriving DecidableEq, Repr

namespace Outcome

variable {ε ε' α β : Type}

/-- Sequencing: errors and panics end the computation. -/
def bind : Outcome ε α → (α → Outcome ε β) → Outcome ε β
  | ok a, f => f a
  | err e, _ => err e
  | panicked, _ => panicked

instance : Monad (Outcome ε) where
  pure := ok
  bind := bind

/-- `map_err`. -/
def mapErr (f : ε → ε') : Outcome ε α → Outcome ε' α
  | ok a => ok a
  | err e => err (f e)
  | panicked => panicked

/-- A plain `Result` never panics. -/
def ofExcept : Except ε α → Outcome ε α
  | .ok a => ok a
  | .error e => err e

@[simp] theorem pure_eq (a : α) : (pure a : Outcome ε α) = ok a := rfl
@[simp] theorem ok_bind (a : α) (f : α → Outcome ε β) : (ok a >>= f) = f a := rfl
@[simp] theorem err_bind (e : ε) (f : α → Outcome ε β) : (err e >>= f) = err e := rfl
@[simp] theorem panicked_bind (f : α → Outcome ε β) :
    ((panicked : Outcome ε α) >>= f) = panicked := rfl

@[simp] theorem mapErr_ok (f : ε → ε') (a : α) : (ok a : Outcome ε α).mapErr f = ok a := rfl
@[simp] theorem mapErr_err (f : ε → ε') (e : ε) :
    (err e : Outcome ε α).mapErr f = err (f e) := rfl
@[simp] theorem mapErr_panicked (f : ε → ε') :
    (panicked : Outcome ε α).mapErr f = panicked := rfl

theorem bind_eq_ok {x : Outcome ε α} {f : α → Outcome ε β} {b : β} :
    (x >>= f) = ok b ↔ ∃ a, x = ok a ∧ f a = ok b := by
  cases x <;> simp

theorem bind_eq_panicked {x : Outcome ε α} {f : α → Outcome ε β} :
    (x >>= f) = panicked ↔ x = panicked ∨ ∃ a, x = ok a ∧ f a = panicked := by
  cases x <;> simp

theorem mapErr_eq_ok {f : ε → ε'} {x : Outcome ε α} {a : α} :
    x.mapErr f = ok a ↔ x = ok a := by
  cases x <;> simp

theorem mapErr_eq_panicked {f : ε → ε'} {x : Outcome ε α} :
    x.mapErr f = panicked ↔ x = panicked := by
  cases x <;> simp

theorem ofExcept_eq_ok {x : Except ε α} {a : α} : ofExcept x = ok a ↔ x = .ok a := by
  cases x <;> simp [ofExcept]

@[simp] theorem ofExcept_ne_panicked (x : Except ε α) : ofExcept x ≠ panicked := by
  cases x <;> simp [ofExcept]

-- ---------------------------------------------------------------------------
-- Collecting a list of outcomes
-- ---------------------------------------------------------------------------

/-- `iter().map(f).collect::<Result<Vec<_>, _>>()`. -/
def collect (f : α → Outcome ε β) : List α → Outcome ε (List β)
  | [] => ok []
  | x :: xs => do
    let y ← f x
    let ys ← collect f xs
    return y :: ys

@[simp] theorem collect_nil (f : α → Outcome ε β) : collect f [] = ok [] := rfl

@[simp] theorem collect_cons (f : α → Outcome ε β) (x : α) (xs : List α) :
    collect f (x :: xs) = (do
      let y ← f x
      let ys ← collect f xs
      return y :: ys) := rfl

/-- `collect` succeeds exactly when every element does, position by position. -/
theorem collect_eq_ok {f : α → Outcome ε β} {xs : List α} {ys : List β} :
    collect f xs = ok ys ↔ List.Forall₂ (fun x y => f x = ok y) xs ys := by
  induction xs generalizing ys with
  | nil => cases ys <;> simp
  | cons x xs ih =>
    simp only [collect_cons, bind_eq_ok, pure_eq, ok.injEq]
    refine ⟨?_, ?_⟩
    · rintro ⟨y, hy, zs, hzs, rfl⟩
      exact List.Forall₂.cons hy (ih.mp hzs)
    · intro h
      cases h with
      | cons hy hrest => exact ⟨_, hy, _, ih.mpr hrest, rfl⟩

/-- `collect` panics exactly when some element does and every earlier one succeeds. -/
theorem collect_eq_panicked {f : α → Outcome ε β} {xs : List α} :
    collect f xs = panicked ↔
      ∃ pre x post, xs = pre ++ x :: post ∧
        (∀ p ∈ pre, ∃ y, f p = ok y) ∧ f x = panicked := by
  induction xs with
  | nil => simp
  | cons x xs ih =>
    simp only [collect_cons, bind_eq_panicked, ih, pure_eq, reduceCtorEq, and_false,
      exists_false, or_false]
    refine ⟨?_, ?_⟩
    · rintro (hx | ⟨y, hy, pre, z, post, rfl, hpre, hz⟩)
      · exact ⟨[], x, xs, rfl, by simp, hx⟩
      · refine ⟨x :: pre, z, post, rfl, ?_, hz⟩
        intro p hp
        rcases List.mem_cons.mp hp with rfl | hp
        · exact ⟨y, hy⟩
        · exact hpre p hp
    · intro ⟨pre, z, post, hsplit, hpre, hz⟩
      cases pre with
      | nil =>
        obtain ⟨rfl, rfl⟩ := List.cons.inj hsplit
        exact Or.inl hz
      | cons p pre =>
        obtain ⟨rfl, rfl⟩ := List.cons.inj hsplit
        obtain ⟨y, hy⟩ := hpre x (List.mem_cons_self ..)
        exact Or.inr ⟨y, hy, pre, z, post, rfl,
          fun q hq => hpre q (List.mem_cons_of_mem _ hq), hz⟩

/-- `collect` never panics when no element does. -/
theorem collect_returns {f : α → Outcome ε β} {xs : List α}
    (h : ∀ x ∈ xs, f x ≠ panicked) : collect f xs ≠ panicked := by
  rw [Ne, collect_eq_panicked]
  rintro ⟨pre, x, post, rfl, -, hx⟩
  exact h x (by simp) hx

/-- `collect` succeeds for some result exactly when every element does. -/
theorem exists_collect_eq_ok {f : α → Outcome ε β} {xs : List α} :
    (∃ ys, collect f xs = ok ys) ↔ ∀ x ∈ xs, ∃ y, f x = ok y := by
  induction xs with
  | nil => simp
  | cons x xs ih =>
    refine ⟨?_, ?_⟩
    · intro ⟨ys, h⟩ z hz
      obtain ⟨y, hy, rest, hrest, -⟩ := by simpa only [collect_cons, bind_eq_ok] using h
      rcases List.mem_cons.mp hz with rfl | hz
      · exact ⟨y, hy⟩
      · exact ih.mp ⟨rest, hrest⟩ z hz
    · intro h
      obtain ⟨y, hy⟩ := h x (List.mem_cons_self ..)
      obtain ⟨ys, hys⟩ := ih.mpr fun z hz => h z (List.mem_cons_of_mem _ hz)
      exact ⟨y :: ys, by rw [collect_cons, hy, ok_bind, hys, ok_bind, pure_eq]⟩

/-- If `g` undoes `f` on every element, it undoes `collect f`. -/
theorem map_of_collect_eq_ok {f : α → Outcome ε β} {g : β → α} {xs : List α} {ys : List β}
    (hinv : ∀ x ∈ xs, ∀ y, f x = ok y → g y = x) (h : collect f xs = ok ys) :
    ys.map g = xs := by
  have hall := collect_eq_ok.mp h
  clear h
  induction hall with
  | nil => rfl
  | cons hy _ ih =>
    rw [List.map_cons, hinv _ (List.mem_cons_self ..) _ hy,
      ih fun x hx => hinv x (List.mem_cons_of_mem _ hx)]

/-- If `f` undoes `g` on every element, collecting over `map g` gives the list back. -/
theorem collect_map_eq_ok {f : α → Outcome ε β} {g : β → α} {ys : List β}
    (hinv : ∀ y ∈ ys, f (g y) = ok y) : collect f (ys.map g) = ok ys := by
  induction ys with
  | nil => rfl
  | cons y ys ih =>
    rw [List.map_cons, collect_cons, hinv y (List.mem_cons_self ..), ok_bind,
      ih fun z hz => hinv z (List.mem_cons_of_mem _ hz), ok_bind, pure_eq]

/-- What every successful element satisfies, every collected value satisfies. -/
theorem forall_of_collect_eq_ok {f : α → Outcome ε β} {P : β → Prop} {xs : List α}
    {ys : List β} (hP : ∀ x ∈ xs, ∀ y, f x = ok y → P y) (h : collect f xs = ok ys) :
    ∀ y ∈ ys, P y := by
  have hall := collect_eq_ok.mp h
  clear h
  induction hall with
  | nil => simp
  | cons hy _ ih =>
    intro z hz
    rcases List.mem_cons.mp hz with rfl | hz
    · exact hP _ (List.mem_cons_self ..) _ hy
    · exact ih (fun x hx => hP x (List.mem_cons_of_mem _ hx)) z hz

theorem collect_length {f : α → Outcome ε β} {xs : List α} {ys : List β}
    (h : collect f xs = ok ys) : ys.length = xs.length :=
  (collect_eq_ok.mp h).length_eq.symm

/-- Collected values stand where their originals do. -/
theorem getElem?_of_collect_eq_ok {f : α → Outcome ε β} {xs : List α} {ys : List β}
    (h : collect f xs = ok ys) {i : Nat} {x : α} (hx : xs[i]? = some x) :
    ∃ y, ys[i]? = some y ∧ f x = ok y := by
  have hall := collect_eq_ok.mp h
  clear h
  induction hall generalizing i with
  | nil => exact absurd hx (by simp)
  | cons hhead hrest ih =>
    cases i with
    | zero =>
      rw [List.getElem?_cons_zero] at hx ⊢
      rw [← Option.some.inj hx]
      exact ⟨_, rfl, hhead⟩
    | succ j =>
      rw [List.getElem?_cons_succ] at hx ⊢
      exact ih hx

end Outcome

-- ---------------------------------------------------------------------------
-- Outcomes with effects
-- ---------------------------------------------------------------------------

/-- The effects performed, in order, and how the computation ended. -/
structure Traced (ω ε α : Type) where
  events : List ω
  outcome : Outcome ε α
  deriving DecidableEq, Repr

namespace Traced

variable {ω ε ε' α β : Type}

/-- A computation without effects. -/
def lift (x : Outcome ε α) : Traced ω ε α := ⟨[], x⟩

/-- Perform one effect. -/
def emit (e : ω) : Traced ω ε Unit := ⟨[e], .ok ()⟩

/-- Effects accumulate; errors and panics end the computation. -/
def bind (x : Traced ω ε α) (f : α → Traced ω ε β) : Traced ω ε β :=
  match x.outcome with
  | .ok a => ⟨x.events ++ (f a).events, (f a).outcome⟩
  | .err e => ⟨x.events, .err e⟩
  | .panicked => ⟨x.events, .panicked⟩

instance : Monad (Traced ω ε) where
  pure a := ⟨[], .ok a⟩
  bind := bind

@[simp] theorem pure_events (a : α) : (pure a : Traced ω ε α).events = [] := rfl
@[simp] theorem lift_events (x : Outcome ε α) : (lift x : Traced ω ε α).events = [] := rfl
@[simp] theorem lift_outcome (x : Outcome ε α) : (lift x : Traced ω ε α).outcome = x := rfl

/-- A step that succeeds hands its value on and keeps its effects in front. -/
theorem bind_of_ok {x : Traced ω ε α} {a : α} (h : x.outcome = .ok a)
    (f : α → Traced ω ε β) :
    (x >>= f) = ⟨x.events ++ (f a).events, (f a).outcome⟩ := by
  change bind x f = _
  rw [bind, h]

/-- A step that fails ends the computation with its own effects. -/
theorem bind_of_err {x : Traced ω ε α} {e : ε} (h : x.outcome = .err e)
    (f : α → Traced ω ε β) : (x >>= f) = ⟨x.events, .err e⟩ := by
  change bind x f = _
  rw [bind, h]

/-- A step that panics ends the computation with its own effects. -/
theorem bind_of_panicked {x : Traced ω ε α} (h : x.outcome = .panicked)
    (f : α → Traced ω ε β) : (x >>= f) = ⟨x.events, .panicked⟩ := by
  change bind x f = _
  rw [bind, h]

/-- Effects that were made before stay in front. -/
theorem bind_front {front : List ω} {x y : Traced ω ε α} {f : α → Traced ω ε β}
    (hevents : x.events = front ++ y.events) (houtcome : x.outcome = y.outcome) :
    (x >>= f) = ⟨front ++ (y >>= f).events, (y >>= f).outcome⟩ := by
  cases hy : y.outcome with
  | ok a => rw [bind_of_ok (houtcome.trans hy), bind_of_ok hy, hevents, List.append_assoc]
  | err e => rw [bind_of_err (houtcome.trans hy), bind_of_err hy, hevents]
  | panicked => rw [bind_of_panicked (houtcome.trans hy), bind_of_panicked hy, hevents]

/-- A sequence ends as its outcomes do. -/
theorem bind_outcome (x : Traced ω ε α) (f : α → Traced ω ε β) :
    (x >>= f).outcome = x.outcome >>= fun a => (f a).outcome := by
  cases h : x.outcome with
  | ok a => simp [bind_of_ok h]
  | err e => simp [bind_of_err h]
  | panicked => simp [bind_of_panicked h]

/-- An effect of a sequence is one of its parts' that are reached. -/
theorem mem_bind_events {x : Traced ω ε α} {f : α → Traced ω ε β} {e : ω} :
    e ∈ (x >>= f).events ↔
      e ∈ x.events ∨ ∃ a, x.outcome = .ok a ∧ e ∈ (f a).events := by
  cases h : x.outcome with
  | ok a => simp [bind_of_ok h]
  | err e' => simp [bind_of_err h]
  | panicked => simp [bind_of_panicked h]

end Traced

end Lib

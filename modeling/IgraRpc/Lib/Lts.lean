import Mathlib.Logic.Relation

/-!
# Labelled transition systems

The rules every run-level result of the development goes through:

* `Lts.Reachable` — states at the end of some finite run;
* `Lts.invariant` — a predicate that holds initially and is preserved by every
  step holds of every reachable state;
* `Lts.restrict` — the runs all of whose steps meet a condition. A result about
  `restrict` is a result about exactly those runs of the original system;
* `Lts.Steps` — finite runs between two given states, for "can still reach".
-/

namespace Lib

universe u v

/-- A labelled transition system: initial states and labelled steps. -/
structure Lts (σ : Type u) (ℓ : Type v) where
  init : σ → Prop
  step : σ → ℓ → σ → Prop

namespace Lts

variable {σ : Type u} {ℓ : Type v} (M : Lts σ ℓ)

/-- One step under some label. -/
def Moves (s t : σ) : Prop := ∃ l, M.step s l t

/-- A finite run from `s` to `t`. -/
def Steps : σ → σ → Prop := Relation.ReflTransGen M.Moves

/-- The states at the end of some finite run from an initial state. -/
def Reachable (t : σ) : Prop := ∃ s, M.init s ∧ M.Steps s t

/-- The system whose steps are those of `M` that meet the condition `G`. -/
def restrict (G : σ → ℓ → Prop) : Lts σ ℓ where
  init := M.init
  step s l t := M.step s l t ∧ G s l

variable {M}

theorem reachable_init {s : σ} (h : M.init s) : M.Reachable s :=
  ⟨s, h, Relation.ReflTransGen.refl⟩

theorem Reachable.next {s t : σ} {l : ℓ} (hs : M.Reachable s) (h : M.step s l t) :
    M.Reachable t := by
  obtain ⟨s₀, hinit, hrun⟩ := hs
  exact ⟨s₀, hinit, hrun.tail ⟨l, h⟩⟩

theorem Reachable.steps {s t : σ} (hs : M.Reachable s) (h : M.Steps s t) :
    M.Reachable t := by
  obtain ⟨s₀, hinit, hrun⟩ := hs
  exact ⟨s₀, hinit, hrun.trans h⟩

/-- **Invariant rule.** What holds initially and is preserved by every step from
a reachable state holds of every reachable state. -/
theorem invariant {P : σ → Prop} (h0 : ∀ s, M.init s → P s)
    (hstep : ∀ s l t, M.Reachable s → P s → M.step s l t → P t) :
    ∀ t, M.Reachable t → P t := by
  intro t ⟨s, hinit, hrun⟩
  induction hrun with
  | refl => exact h0 s hinit
  | tail hprev hmove ih =>
    obtain ⟨l, hl⟩ := hmove
    exact hstep _ l _ ⟨s, hinit, hprev⟩ ih hl

/-- A run of the restricted system is a run of the original one. -/
theorem Reachable.of_restrict {G : σ → ℓ → Prop} {t : σ}
    (h : (M.restrict G).Reachable t) : M.Reachable t := by
  obtain ⟨s, hinit, hrun⟩ := h
  refine ⟨s, hinit, ?_⟩
  exact Relation.ReflTransGen.mono (fun _ _ ⟨l, hl⟩ => ⟨l, hl.1⟩) _ _ hrun

/-- Every run is a run under no condition. -/
theorem Reachable.to_restrict {t : σ} (h : M.Reachable t) :
    (M.restrict fun _ _ => True).Reachable t := by
  obtain ⟨s, hinit, hrun⟩ := h
  refine ⟨s, hinit, ?_⟩
  exact Relation.ReflTransGen.mono (fun _ _ ⟨l, hl⟩ => ⟨l, hl, trivial⟩) _ _ hrun

/-- A run under a condition is a run under any weaker one. -/
theorem Reachable.restrict_mono {G H : σ → ℓ → Prop} (hGH : ∀ s l, G s l → H s l) {t : σ}
    (h : (M.restrict G).Reachable t) : (M.restrict H).Reachable t := by
  obtain ⟨s, hinit, hrun⟩ := h
  refine ⟨s, hinit, ?_⟩
  exact Relation.ReflTransGen.mono (fun s _ ⟨l, hl⟩ => ⟨l, hl.1, hGH s l hl.2⟩) _ _ hrun

/-- A step that meets the condition extends a restricted run. -/
theorem Reachable.next_restrict {G : σ → ℓ → Prop} {s t : σ} {l : ℓ}
    (hs : (M.restrict G).Reachable s) (h : M.step s l t) (hG : G s l) :
    (M.restrict G).Reachable t :=
  hs.next ⟨h, hG⟩

theorem Steps.refl (s : σ) : M.Steps s s := Relation.ReflTransGen.refl

theorem Steps.head {s t u : σ} {l : ℓ} (h : M.step s l t) (hrun : M.Steps t u) :
    M.Steps s u :=
  Relation.ReflTransGen.head ⟨l, h⟩ hrun

end Lts

end Lib

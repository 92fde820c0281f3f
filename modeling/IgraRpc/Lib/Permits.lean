import Mathlib.Algebra.BigOperators.Group.List.Basic
import Mathlib.Algebra.GroupWithZero.Nat
import Mathlib.Tactic.Common

/-!
# Permits

What the holders of a list hold together: `held weight holders`.

* `held_append`, `held_set` — a new holder, and one that is replaced;
* `held_mono`, `held_eq_zero` — comparing and emptying all of them.
-/

namespace Lib

universe u

variable {α : Type u} {weight : α → Nat}

/-- The total of what each holder holds. -/
def held (weight : α → Nat) (holders : List α) : Nat := (holders.map weight).sum

@[simp] theorem held_nil : held weight ([] : List α) = 0 := rfl

theorem held_cons (a : α) (rest : List α) :
    held weight (a :: rest) = weight a + held weight rest := by
  rw [held, List.map_cons, List.sum_cons, held]

theorem held_append (holders : List α) (a : α) :
    held weight (holders ++ [a]) = held weight holders + weight a := by
  rw [held, List.map_append, List.sum_append, held]
  simp

/-- Replacing one holder. -/
theorem held_set {a : α} (b : α) : ∀ {holders : List α} {i : Nat}, holders[i]? = some a →
    held weight (holders.set i b) + weight a = held weight holders + weight b
  | [], _, h => absurd h (by simp)
  | _ :: rest, 0, h => by
    obtain rfl := Option.some.inj h
    rw [List.set_cons_zero, held_cons, held_cons]
    omega
  | c :: rest, i + 1, h => by
    have ih : held weight (rest.set i b) + weight a = held weight rest + weight b :=
      held_set b h
    rw [List.set_cons_succ, held_cons, held_cons]
    omega

theorem held_mono {weight' : α → Nat} {holders : List α}
    (h : ∀ a ∈ holders, weight a ≤ weight' a) : held weight holders ≤ held weight' holders := by
  induction holders with
  | nil => exact Nat.le_refl 0
  | cons a rest ih =>
    have hrest := ih fun b hb => h b (List.mem_cons_of_mem a hb)
    have hhead := h a List.mem_cons_self
    rw [held_cons, held_cons]
    omega

theorem held_eq_zero {holders : List α} (h : ∀ a ∈ holders, weight a = 0) :
    held weight holders = 0 := by
  induction holders with
  | nil => rfl
  | cons a rest ih =>
    rw [held_cons, h a List.mem_cons_self, ih fun b hb => h b (List.mem_cons_of_mem a hb)]

end Lib

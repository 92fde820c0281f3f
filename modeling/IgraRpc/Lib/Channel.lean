import Mathlib.Data.List.Basic

/-!
# Bounded channels

A multi-producer, single-consumer queue of fixed capacity: senders that do not
wait (`trySend`), a consumer that takes the oldest item (`recv`), and a receiver
that can go away with everything it still holds (`dropReceiver`).

That a channel never holds more than its capacity is part of the type.
-/

namespace Lib

/-- A channel holding at most `capacity` items, the oldest first. -/
structure Channel (α : Type) (capacity : Nat) where
  items : List α
  closed : Bool
  bounded : items.length ≤ capacity

/-- `TrySendError`. -/
inductive TrySendError where
  | full
  | closed
  deriving DecidableEq, Repr

namespace Channel

variable {α : Type} {capacity : Nat}

@[ext] theorem ext {c d : Channel α capacity} (hitems : c.items = d.items)
    (hclosed : c.closed = d.closed) : c = d := by
  cases c
  cases d
  simp_all

/-- A new channel. -/
def empty : Channel α capacity := ⟨[], false, Nat.zero_le _⟩

/-- `try_send`: a closed channel refuses before its free places are looked at. -/
def trySend (c : Channel α capacity) (a : α) : Except TrySendError (Channel α capacity) :=
  if c.closed then .error .closed
  else if h : c.items.length < capacity then
    .ok ⟨c.items ++ [a], false, by rw [List.length_append]; exact h⟩
  else .error .full

/-- `recv`, when there is something to take. -/
def recv (c : Channel α capacity) : Option (α × Channel α capacity) :=
  match h : c.items with
  | [] => none
  | a :: rest =>
    some (a, ⟨rest, c.closed, by
      have hlen := c.bounded
      rw [h, List.length_cons] at hlen
      exact Nat.le_of_succ_le hlen⟩)

/-- The receiver is dropped, with the items still in it. -/
def dropReceiver (_ : Channel α capacity) : Channel α capacity :=
  ⟨[], true, Nat.zero_le _⟩

theorem trySend_eq_ok {c d : Channel α capacity} {a : α} :
    c.trySend a = .ok d ↔
      c.closed = false ∧ c.items.length < capacity ∧ d.items = c.items ++ [a] ∧
        d.closed = false := by
  unfold trySend
  split
  case isTrue hclosed => simp [hclosed]
  case isFalse hopen =>
    have hopen : c.closed = false := by simpa using hopen
    split
    case isTrue hroom =>
      simp only [Except.ok.injEq, hopen, hroom, true_and]
      refine ⟨?_, ?_⟩
      · rintro rfl
        exact ⟨rfl, rfl⟩
      · intro ⟨hitems, hclosed⟩
        exact ext hitems.symm hclosed.symm
    case isFalse hfull => simp [hfull]

theorem trySend_eq_closed {c : Channel α capacity} {a : α} :
    c.trySend a = .error .closed ↔ c.closed = true := by
  unfold trySend
  split
  case isTrue hclosed => simp [hclosed]
  case isFalse hopen => split <;> simp [hopen]

theorem trySend_eq_full {c : Channel α capacity} {a : α} :
    c.trySend a = .error .full ↔ c.closed = false ∧ c.items.length = capacity := by
  have hbound := c.bounded
  unfold trySend
  split
  case isTrue hclosed => simp [hclosed]
  case isFalse hopen =>
    split
    case isTrue hroom =>
      simp only [reduceCtorEq, false_iff, not_and]
      intro _
      omega
    case isFalse hfull =>
      simp only [true_iff]
      exact ⟨by simpa using hopen, by omega⟩

/-- What is taken is the oldest item. -/
theorem recv_eq_some {c d : Channel α capacity} {a : α} :
    c.recv = some (a, d) ↔ c.items = a :: d.items ∧ d.closed = c.closed := by
  unfold recv
  split
  case h_1 hnil => simp [hnil]
  case h_2 b rest hcons =>
    simp only [Option.some.injEq, Prod.mk.injEq, hcons, List.cons.injEq]
    refine ⟨?_, ?_⟩
    · rintro ⟨rfl, rfl⟩
      exact ⟨⟨rfl, rfl⟩, rfl⟩
    · intro ⟨⟨hb, hrest⟩, hclosed⟩
      exact ⟨hb, ext hrest hclosed.symm⟩

theorem recv_eq_none {c : Channel α capacity} : c.recv = none ↔ c.items = [] := by
  unfold recv
  split
  case h_1 hnil => simp [hnil]
  case h_2 hcons => simp [hcons]

end Channel

end Lib

import Mathlib.Data.List.Basic

/-!
# Samples that expire

A queue of samples with their times, the oldest first. Old samples are taken off its front
until the first that is young enough, so that only the front is looked at.

* `InOrder` — the samples stand in the order of their times, and none is from the future;
* `expire_eq_filter` — **taking off the front takes exactly what is too old**;
* `recent` — what a history has left in a queue that was last purged at some time;
* `recent_concat`, `expire_recent` — entering and purging keep a queue so.
-/

namespace Lib

universe u v

variable {α : Type u} {β : Type v}

/-- The samples are in the order of their times, and none is later than `now`. -/
structure InOrder (time : α → Nat) (now : Nat) (samples : List α) : Prop where
  sorted : samples.Pairwise fun a b => time a ≤ time b
  past : ∀ a ∈ samples, time a ≤ now

/-- The age of the sample is within the span. A time from the future has no age. -/
def fresh (time : α → Nat) (span now : Nat) (a : α) : Bool := now - time a ≤ span

/-- Samples are taken off the front as long as they are too old. -/
def expire (time : α → Nat) (span now : Nat) (samples : List α) : List α :=
  samples.dropWhile fun a => span < now - time a

namespace InOrder

variable {time : α → Nat} {now : Nat} {samples : List α}

theorem nil (time : α → Nat) (now : Nat) : InOrder time now [] :=
  ⟨List.Pairwise.nil, fun _ ha => absurd ha List.not_mem_nil⟩

theorem mono (h : InOrder time now samples) {later : Nat} (hle : now ≤ later) :
    InOrder time later samples :=
  ⟨h.sorted, fun a ha => Nat.le_trans (h.past a ha) hle⟩

/-- A sample of this moment enters at the end. -/
theorem concat (h : InOrder time now samples) {a : α} (ha : time a = now) :
    InOrder time now (samples ++ [a]) := by
  refine ⟨List.pairwise_append.mpr ⟨h.sorted, List.pairwise_singleton _ _, ?_⟩, ?_⟩
  · intro b hb c hc
    rw [List.mem_singleton.mp hc, ha]
    exact h.past b hb
  · intro b hb
    rcases List.mem_append.mp hb with hb | hb
    · exact h.past b hb
    · rw [List.mem_singleton.mp hb]
      exact Nat.le_of_eq ha

theorem filter (h : InOrder time now samples) (p : α → Bool) :
    InOrder time now (samples.filter p) :=
  ⟨h.sorted.filter p, fun a ha => h.past a (List.mem_of_mem_filter ha)⟩

/-- What is made of the samples, at their times, is in order too. -/
theorem filterMap (h : InOrder time now samples) {f : α → Option β} {time' : β → Nat}
    (htime : ∀ a b, f a = some b → time' b = time a) :
    InOrder time' now (samples.filterMap f) := by
  refine ⟨?_, ?_⟩
  · rw [List.pairwise_filterMap]
    refine h.sorted.imp ?_
    intro a b hle a' ha' b' hb'
    rw [htime a a' ha', htime b b' hb']
    exact hle
  · intro b hb
    obtain ⟨a, ha, hab⟩ := List.mem_filterMap.mp hb
    rw [htime a b hab]
    exact h.past a ha

end InOrder

/-- **Taking off the front takes exactly what is too old**, since everything behind the
first sample that stays is at least as young. -/
theorem expire_eq_filter {time : α → Nat} {samples : List α}
    (h : samples.Pairwise fun a b => time a ≤ time b) (span now : Nat) :
    expire time span now samples = samples.filter (fresh time span now) := by
  induction samples with
  | nil => rfl
  | cons a rest ih =>
    obtain ⟨hfirst, hrest⟩ := List.pairwise_cons.mp h
    rw [expire, List.dropWhile_cons]
    by_cases hold : span < now - time a
    · have hstale : ¬ fresh time span now a = true := by
        simp only [fresh, decide_eq_true_eq]
        omega
      rw [if_pos (decide_eq_true hold), List.filter_cons_of_neg hstale]
      exact ih hrest
    · have hyoung : ∀ b ∈ a :: rest, fresh time span now b = true := by
        intro b hb
        have hle : time a ≤ time b := by
          rcases List.mem_cons.mp hb with rfl | hb
          · exact Nat.le_refl _
          · exact hfirst b hb
        simp only [fresh, decide_eq_true_eq]
        omega
      rw [if_neg (by simpa using hold), List.filter_eq_self.mpr hyoung]

/-- What is fresh later was fresh before. -/
theorem fresh_of_le {time : α → Nat} {span now later : Nat} {a : α} (hle : now ≤ later)
    (h : fresh time span later a = true) : fresh time span now a = true := by
  simp only [fresh, decide_eq_true_eq] at h ⊢
  omega

-- ---------------------------------------------------------------------------
-- Queues and their history
-- ---------------------------------------------------------------------------

section
variable {time : β → Nat} {time' : α → Nat} {f : β → Option α} {span purged : Nat}

/-- What a history of entries leaves in the queue of one kind of sample, which was purged at
a time: `f` makes samples of the entries of that kind. -/
def recent (time : β → Nat) (f : β → Option α) (span purged : Nat) (history : List β) :
    List α :=
  (history.filter (fresh time span purged)).filterMap f

/-- An entry of its kind is added to the queue. -/
theorem recent_concat {history : List β} {entry : β} (hnow : purged ≤ time entry) :
    recent time f span purged (history ++ [entry]) =
      recent time f span purged history ++ (f entry).toList := by
  have hfresh : fresh time span purged entry = true := by
    simp only [fresh, decide_eq_true_eq]
    omega
  rw [recent, List.filter_append, List.filter_cons_of_pos hfresh, List.filter_nil,
    List.filterMap_append, ← recent]
  cases hentry : f entry with
  | none => simp [hentry]
  | some a => simp [hentry]

/-- **A purge leaves what is fresh of the whole history**, not only of the queue. -/
theorem expire_recent {history : List β} {now : Nat} (horder : InOrder time now history)
    (hle : purged ≤ now) (htime : ∀ entry a, f entry = some a → time' a = time entry) :
    expire time' span now (recent time f span purged history) =
      recent time f span now history := by
  have hqueue := (horder.filter (fresh time span purged)).filterMap htime
  have hsame : ∀ entry a, f entry = some a →
      fresh time' span now a = fresh time span now entry := by
    intro entry a hentry
    rw [fresh, fresh, htime entry a hentry]
  have hexpired : expire time' span now (recent time f span purged history) =
      (recent time f span purged history).filter (fresh time' span now) :=
    expire_eq_filter hqueue.sorted span now
  rw [hexpired, recent, recent, List.filterMap_filter, List.filterMap_filter,
    List.filter_filterMap]
  refine List.filterMap_congr fun entry _ => ?_
  cases hentry : f entry with
  | none => simp
  | some a =>
    cases hnow : fresh time span now entry with
    | false => simp [hsame entry a hentry, hnow]
    | true => simp [fresh_of_le hle hnow, hsame entry a hentry, hnow]

end

end Lib

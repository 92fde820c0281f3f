import Mathlib.Data.List.Sort
import Mathlib.Data.List.MinMax

/-!
# The largest elements

What a bounded collection keeps of everything that is put into it, if it evicts a smallest
element whenever it is full. Elements are compared by a key, so that different ones can tie.

* `IsTop` — some elements are the `n` largest of a list;
* `IsTop.add`, `IsTop.replace`, `IsTop.skip` — they stay so through the three things such a
  collection does with a new element;
* `IsTop.take_mergeSort` — the first of a descending list are such elements;
* `IsTop.keys_eq` — **their keys are the first `n` in descending order**, whichever of the
  elements that tie were kept;
* `MinHeap` — the operations and laws of a heap with a least element on top.
-/

namespace Lib

universe u v w

variable {α : Type u} {κ : Type v} [LinearOrder κ] {key : α → κ} {n : Nat}

-- ---------------------------------------------------------------------------
-- Descending lists
-- ---------------------------------------------------------------------------

/-- The list in descending order. -/
def descending (keys : List κ) : List κ := keys.mergeSort (· ≥ ·)

theorem descending_perm (keys : List κ) : (descending keys).Perm keys :=
  List.mergeSort_perm keys _

theorem pairwise_descending (keys : List κ) : (descending keys).Pairwise (· ≥ ·) :=
  List.pairwise_mergeSort' _ keys

/-- A descending list is told by its elements. -/
theorem eq_descending {sorted keys : List κ} (hsorted : sorted.Pairwise (· ≥ ·))
    (hperm : sorted.Perm keys) : sorted = descending keys :=
  List.Perm.eq_of_pairwise' hsorted (pairwise_descending keys)
    (hperm.trans (descending_perm keys).symm)

theorem descending_congr {keys keys' : List κ} (h : keys.Perm keys') :
    descending keys = descending keys' :=
  eq_descending (pairwise_descending keys) ((descending_perm keys).trans h)

/-- Sorted by their keys, elements have ascending keys. -/
theorem pairwise_map_mergeSort (key : α → κ) (elements : List α) :
    ((elements.mergeSort fun a b => key a ≤ key b).map key).Pairwise (· ≤ ·) := by
  have hmap : (elements.mergeSort fun a b => key a ≤ key b).map key =
      (elements.map key).mergeSort (· ≤ ·) :=
    List.map_mergeSort fun _ _ _ _ => rfl
  rw [hmap]
  exact List.pairwise_mergeSort' _ _

/-- Sorted by their keys in descending order, the larger ones come first. -/
theorem pairwise_mergeSort_descending (key : α → κ) (elements : List α) :
    (elements.mergeSort fun a b => key b ≤ key a).Pairwise fun a b => key b ≤ key a := by
  have hsorted : (elements.mergeSort fun a b => key b ≤ key a).Pairwise
      fun a b => decide (key b ≤ key a) = true := by
    refine List.pairwise_mergeSort ?_ ?_ elements
    · intro a b c hab hbc
      exact decide_eq_true ((of_decide_eq_true hbc).trans (of_decide_eq_true hab))
    · intro a b
      rw [Bool.or_eq_true, decide_eq_true_eq, decide_eq_true_eq]
      exact le_total _ _
  exact hsorted.imp of_decide_eq_true

-- ---------------------------------------------------------------------------
-- The largest elements
-- ---------------------------------------------------------------------------

/-- `kept` are `n` elements of `all` with the largest keys, or all of them if there are
fewer. -/
structure IsTop (key : α → κ) (n : Nat) (all kept : List α) : Prop where
  split : ∃ dropped, (kept ++ dropped).Perm all ∧ ∀ d ∈ dropped, ∀ k ∈ kept, key d ≤ key k
  length : kept.length = min n all.length

namespace IsTop

variable {all all' kept kept' : List α}

theorem nil (key : α → κ) (n : Nat) : IsTop key n [] [] :=
  ⟨⟨[], .refl _, fun _ hd => absurd hd List.not_mem_nil⟩, (Nat.min_zero n).symm⟩

theorem perm (h : IsTop key n all kept) (hall : all.Perm all') (hkept : kept.Perm kept') :
    IsTop key n all' kept' := by
  obtain ⟨dropped, hperm, hle⟩ := h.split
  refine ⟨⟨dropped, ((hkept.symm.append_right dropped).trans hperm).trans hall, ?_⟩, ?_⟩
  · intro d hd k hk
    exact hle d hd k (hkept.mem_iff.mpr hk)
  · rw [← hkept.length_eq, ← hall.length_eq]
    exact h.length

/-- With room left, nothing was dropped. -/
theorem perm_of_room (h : IsTop key n all kept) (hroom : kept.length < n) : kept.Perm all := by
  obtain ⟨dropped, hperm, -⟩ := h.split
  have hlength := hperm.length_eq
  have hkept := h.length
  rw [List.length_append] at hlength
  have hnil : dropped = [] := List.length_eq_zero_iff.mp (by omega)
  rwa [hnil, List.append_nil] at hperm

/-- With room left, a new element is added. -/
theorem add (h : IsTop key n all kept) (hroom : kept.length < n) (x : α) :
    IsTop key n (x :: all) (x :: kept) := by
  have hperm := h.perm_of_room hroom
  refine ⟨⟨[], ?_, fun _ hd => absurd hd List.not_mem_nil⟩, ?_⟩
  · rw [List.append_nil]
    exact hperm.cons x
  · rw [List.length_cons, List.length_cons, hperm.length_eq]
    have hlength := hperm.length_eq
    omega

/-- An element that is no larger than those kept is dropped. -/
theorem skip (h : IsTop key n all kept) (hfull : n ≤ kept.length) {x : α}
    (hx : ∀ k ∈ kept, key x ≤ key k) : IsTop key n (x :: all) kept := by
  obtain ⟨dropped, hperm, hle⟩ := h.split
  refine ⟨⟨x :: dropped, List.perm_middle.trans (hperm.cons x), ?_⟩, ?_⟩
  · intro d hd k hk
    rcases List.mem_cons.mp hd with rfl | hd
    · exact hx k hk
    · exact hle d hd k hk
  · have hlength := h.length
    rw [List.length_cons]
    omega

/-- An element takes the place of a smallest one that is no larger. -/
theorem replace (h : IsTop key n all kept) (hfull : n ≤ kept.length) {x smallest : α}
    {rest : List α} (hkept : kept.Perm (smallest :: rest))
    (hsmallest : ∀ k ∈ kept, key smallest ≤ key k) (hx : key smallest ≤ key x) :
    IsTop key n (x :: all) (x :: rest) := by
  obtain ⟨dropped, hperm, hle⟩ := h.split
  have hmem : smallest ∈ kept := hkept.mem_iff.mpr List.mem_cons_self
  have hrest : ∀ k ∈ rest, k ∈ kept := fun k hk =>
    hkept.mem_iff.mpr (List.mem_cons_of_mem smallest hk)
  refine ⟨⟨smallest :: dropped, ?_, ?_⟩, ?_⟩
  · have hmiddle : (rest ++ smallest :: dropped).Perm (smallest :: rest ++ dropped) :=
      List.perm_middle
    exact (hmiddle.trans ((hkept.symm.append_right dropped).trans hperm)).cons x
  · intro d hd k hk
    -- what is dropped stays below the smallest, and so below its replacement
    have hd' : key d ≤ key smallest := by
      rcases List.mem_cons.mp hd with rfl | hd
      · exact le_refl _
      · exact hle d hd smallest hmem
    rcases List.mem_cons.mp hk with rfl | hk
    · exact hd'.trans hx
    · exact hd'.trans (hsmallest k (hrest k hk))
  · have hlength := h.length
    have hsize := hkept.length_eq
    rw [List.length_cons] at hsize
    rw [List.length_cons, List.length_cons]
    omega

/-- No element exceeds all that are kept. -/
theorem exists_le (h : IsTop key n all kept) (hn : 0 < n) {x : α} (hx : x ∈ all) :
    ∃ k ∈ kept, key x ≤ key k := by
  obtain ⟨dropped, hperm, hle⟩ := h.split
  rcases List.mem_append.mp (hperm.mem_iff.mpr hx) with hkept | hdropped
  · exact ⟨x, hkept, le_refl _⟩
  · have hall : 0 < all.length := List.length_pos_of_mem hx
    have hlength := h.length
    obtain ⟨k, hk⟩ := List.exists_mem_of_length_pos (show 0 < kept.length by omega)
    exact ⟨k, hk, hle x hdropped k hk⟩

/-- **In descending order, the keys of the largest elements are the first `n` of all.** -/
theorem keys_eq (h : IsTop key n all kept) {sorted : List κ}
    (hsorted : sorted.Pairwise (· ≥ ·)) (hperm : sorted.Perm (kept.map key)) :
    sorted = (descending (all.map key)).take n := by
  obtain ⟨dropped, hall, hle⟩ := h.split
  have hwhole : sorted ++ descending (dropped.map key) = descending (all.map key) := by
    refine eq_descending ?_ ?_
    · refine List.pairwise_append.mpr ⟨hsorted, pairwise_descending _, ?_⟩
      intro a ha b hb
      obtain ⟨k, hk, rfl⟩ := List.mem_map.mp (hperm.mem_iff.mp ha)
      obtain ⟨d, hd, rfl⟩ := List.mem_map.mp ((descending_perm _).mem_iff.mp hb)
      exact hle d hd k hk
    · have hkeys := hall.map key
      rw [List.map_append] at hkeys
      exact (hperm.append (descending_perm _)).trans hkeys
  have hlength : sorted.length = min n all.length := by
    rw [hperm.length_eq, List.length_map]
    exact h.length
  rw [← hwhole]
  by_cases hn : n ≤ all.length
  · rw [Nat.min_eq_left hn] at hlength
    exact (List.take_left' hlength).symm
  · -- everything is kept
    have htotal := congrArg List.length hwhole
    rw [List.length_append, (descending_perm (all.map key)).length_eq, List.length_map] at htotal
    have hnil : descending (dropped.map key) = [] := List.length_eq_zero_iff.mp (by omega)
    rw [hnil, List.append_nil, List.take_of_length_le (by omega)]

/-- The first of a list that is sorted in descending order. -/
theorem take_mergeSort (key : α → κ) (n : Nat) (all : List α) :
    IsTop key n all ((all.mergeSort fun a b => key b ≤ key a).take n) := by
  have hperm : (all.mergeSort fun a b => key b ≤ key a).Perm all := List.mergeSort_perm all _
  have hsorted := pairwise_mergeSort_descending key all
  refine ⟨⟨(all.mergeSort fun a b => key b ≤ key a).drop n, ?_, ?_⟩, ?_⟩
  · rw [List.take_append_drop]
    exact hperm
  · intro d hd k hk
    rw [← List.take_append_drop n (all.mergeSort fun a b => key b ≤ key a),
      List.pairwise_append] at hsorted
    exact hsorted.2.2 k hk d hd
  · rw [List.length_take, hperm.length_eq]

end IsTop

-- ---------------------------------------------------------------------------
-- Heaps
-- ---------------------------------------------------------------------------

/-- A heap over states `σ` with an element of the least key on top. Which of several such
elements is on top, and in which order the elements are listed, is up to the heap. -/
structure MinHeap (key : α → κ) (σ : Type w) where
  empty : σ
  elements : σ → List α
  push : σ → α → σ
  top : σ → Option α
  /-- The heap after its top is overwritten. -/
  replaceTop : σ → α → σ
  elements_empty : elements empty = []
  elements_push : ∀ heap x, (elements (push heap x)).Perm (x :: elements heap)
  top_eq_none : ∀ heap, top heap = none → elements heap = []
  top_least : ∀ heap x, top heap = some x → ∀ y ∈ elements heap, key x ≤ key y
  elements_replaceTop : ∀ heap x y, top heap = some x →
    ∃ rest, (elements heap).Perm (x :: rest) ∧ (elements (replaceTop heap y)).Perm (y :: rest)

/-- The heap that is a list, with its least element found by a search. -/
def listHeap [DecidableEq α] (key : α → κ) : MinHeap key (List α) where
  empty := []
  elements heap := heap
  push heap x := x :: heap
  top heap := heap.argmin key
  replaceTop heap x :=
    match heap.argmin key with
    | none => heap
    | some least => x :: heap.erase least
  elements_empty := rfl
  elements_push _ _ := .refl _
  top_eq_none _ h := List.argmin_eq_none.mp h
  top_least _ _ h _ hy := List.le_of_mem_argmin hy h
  elements_replaceTop heap x y h := by
    refine ⟨heap.erase x, List.perm_cons_erase (List.argmin_mem h), ?_⟩
    rw [h]

theorem listHeap_replaceTop [DecidableEq α] {heap : List α} {least : α}
    (h : (listHeap key).top heap = some least) (x : α) :
    (listHeap key).replaceTop heap x = x :: heap.erase least := by
  have hleast : heap.argmin key = some least := h
  simp only [listHeap, hleast]

end Lib

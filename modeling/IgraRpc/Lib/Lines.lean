import Mathlib.Data.List.Basic

/-!
# Lines of a text

A text is read line by line: a line goes up to the terminator and has it, and the last one
may have none. Over any alphabet with a terminator.

* `lines` — the lines of a text, none of them empty;
* `flatten_lines`, `lines_flatMap` — **nothing is lost**, and lines that are written with a
  terminator are read back;
* `length_lines` — how many there are;
* `lines_pieces_iff` — **a text that is read in pieces has the same lines exactly if no line
  is cut** by the end of a piece.
-/

namespace Lib

universe u

variable {α : Type u} (stop : α)

/-- The text is empty, or it ends with its last line's terminator. -/
def Ends (text : List α) : Prop := ∀ a, text.getLast? = some a → a = stop

variable {stop}

theorem Ends.nil : Ends stop ([] : List α) := fun _ h => absurd h (by simp)

/-- The end of a text is that of its last part. -/
theorem ends_append {xs ys : List α} (hne : ys ≠ []) : Ends stop (xs ++ ys) ↔ Ends stop ys := by
  have hlast : (xs ++ ys).getLast? = ys.getLast? := by
    rw [List.getLast?_append_of_ne_nil xs hne]
  rw [Ends, Ends, hlast]

theorem ends_concat {xs : List α} {a : α} : Ends stop (xs ++ [a]) ↔ a = stop := by
  rw [ends_append (List.cons_ne_nil a [])]
  refine ⟨fun h => h a rfl, ?_⟩
  rintro rfl b hb
  exact (Option.some.inj hb).symm

/-- No line is cut: every piece that is not the last ends its last line, but for empty ones
at the end. -/
def WholePieces (stop : α) : List (List α) → Prop
  | [] => True
  | piece :: rest => (rest.flatten = [] ∨ Ends stop piece) ∧ WholePieces stop rest

/-- A line has no terminator but at its end, and it is not empty. -/
def IsLine (stop : α) (line : List α) : Prop :=
  ∃ body, stop ∉ body ∧ (line = body ++ [stop] ∨ line = body ∧ body ≠ [])

/-- Two texts with a terminator behind are the same up to the first one. -/
theorem append_stop_inj {xs ys xs' ys' : List α} (hx : stop ∉ xs) (hy : stop ∉ ys)
    (h : xs ++ stop :: xs' = ys ++ stop :: ys') : xs = ys ∧ xs' = ys' := by
  induction xs generalizing ys with
  | nil =>
    cases ys with
    | nil => exact ⟨rfl, (List.cons.inj h).2⟩
    | cons b ys => exact absurd (by rw [(List.cons.inj h).1]; simp) hy
  | cons a xs ih =>
    cases ys with
    | nil => exact absurd (by rw [← (List.cons.inj h).1]; simp) hx
    | cons b ys =>
      obtain ⟨rfl, hrest⟩ := List.cons.inj h
      obtain ⟨rfl, hsame⟩ := ih (fun hm => hx (List.mem_cons_of_mem _ hm))
        (fun hm => hy (List.mem_cons_of_mem _ hm)) hrest
      exact ⟨rfl, hsame⟩

/-- The first of lines that make up a text: the text's first line, or a part of it. -/
theorem firstLine {read : List (List α)} (hlines : ∀ line ∈ read, IsLine stop line)
    {text rest : List α} (htext : stop ∉ text) (hflat : read.flatten = text ++ stop :: rest) :
    ∃ line others, read = line :: others ∧
      (line = text ++ [stop] ∧ others.flatten = rest ∨
        stop ∉ line ∧ ∃ more, text = line ++ more ∧ line ≠ [] ∧
          others.flatten = more ++ stop :: rest) := by
  cases read with
  | nil => exact absurd hflat.symm (by simp)
  | cons line others =>
    refine ⟨line, others, rfl, ?_⟩
    rw [List.flatten_cons] at hflat
    obtain ⟨body, hbody, rfl | ⟨rfl, hne⟩⟩ := hlines line List.mem_cons_self
    · rw [List.append_assoc, List.singleton_append] at hflat
      obtain ⟨rfl, hrest⟩ := append_stop_inj hbody htext hflat
      exact Or.inl ⟨rfl, hrest⟩
    · refine Or.inr ⟨hbody, ?_⟩
      rcases List.append_eq_append_iff.mp hflat with ⟨more, hmore, hothers⟩ | ⟨more, hmore, hstop⟩
      · exact ⟨more, hmore, hne, hothers⟩
      · cases more with
        | nil =>
          rw [List.append_nil] at hmore
          exact ⟨[], by rw [hmore, List.append_nil], hne, hstop.symm⟩
        | cons b more =>
          obtain ⟨rfl, -⟩ := List.cons.inj hstop
          exact absurd (by rw [hmore]; simp) hbody

variable [DecidableEq α] (stop)

/-- The lines of a text behind the beginning of a line. -/
def linesFrom (start : List α) : List α → List (List α)
  | [] => if start = [] then [] else [start]
  | a :: rest =>
    if a = stop then (start ++ [a]) :: linesFrom [] rest else linesFrom (start ++ [a]) rest

def lines (text : List α) : List (List α) := linesFrom stop [] text

instance (text : List α) : Decidable (Ends stop text) :=
  match h : text.getLast? with
  | none => isTrue fun a ha => absurd (h.symm.trans ha) (by simp)
  | some b =>
    if hb : b = stop then isTrue fun a ha => (Option.some.inj (h.symm.trans ha)) ▸ hb
    else isFalse fun hends => hb (hends b h)

variable {stop}

/-- Nothing is lost, and nothing is added. -/
theorem flatten_linesFrom (text : List α) : ∀ start : List α,
    (linesFrom stop start text).flatten = start ++ text := by
  induction text with
  | nil =>
    intro start
    rw [linesFrom]
    split
    · next hstart => rw [hstart]; rfl
    · rw [List.flatten_singleton, List.append_nil]
  | cons a rest ih =>
    intro start
    rw [linesFrom]
    split
    · rw [List.flatten_cons, ih [], List.append_assoc]
      rfl
    · rw [ih (start ++ [a]), List.append_assoc]
      rfl

theorem flatten_lines (text : List α) : (lines stop text).flatten = text :=
  flatten_linesFrom text []

/-- A part that ends a line is read by itself. -/
theorem linesFrom_append_of_ends {xs : List α} (ys : List α) : ∀ {start : List α},
    stop ∉ start → Ends stop (start ++ xs) →
      linesFrom stop start (xs ++ ys) = linesFrom stop start xs ++ lines stop ys := by
  induction xs with
  | nil =>
    intro start hstart hends
    -- a line that has begun has no terminator yet
    obtain rfl : start = [] := by
      rcases List.eq_nil_or_concat start with hnil | ⟨before, a, rfl⟩
      · exact hnil
      · rw [List.append_nil, List.concat_eq_append, ends_concat] at hends
        exact absurd (by rw [hends]; simp) hstart
    rfl
  | cons a rest ih =>
    intro start hstart hends
    rw [List.cons_append, linesFrom, linesFrom]
    by_cases ha : a = stop
    · rw [if_pos ha, if_pos ha, List.cons_append]
      have hrest : Ends stop ([] ++ rest) := by
        rcases eq_or_ne rest [] with rfl | hne
        · exact Ends.nil
        · have hsplit : start ++ a :: rest = (start ++ [a]) ++ rest := by simp
          rw [hsplit, ends_append hne] at hends
          exact hends
      rw [ih List.not_mem_nil hrest]
    · rw [if_neg ha, if_neg ha]
      refine ih ?_ ?_
      · rw [List.mem_append, List.mem_singleton, not_or]
        exact ⟨hstart, fun h => ha h.symm⟩
      · rw [List.append_assoc]
        exact hends

theorem lines_append_of_ends {xs : List α} (h : Ends stop xs) (ys : List α) :
    lines stop (xs ++ ys) = lines stop xs ++ lines stop ys :=
  linesFrom_append_of_ends ys List.not_mem_nil h

/-- A line with its terminator. -/
theorem lines_terminated {line : List α} (h : stop ∉ line) :
    lines stop (line ++ [stop]) = [line ++ [stop]] := by
  have hrun : ∀ (rest start : List α), stop ∉ rest →
      linesFrom stop start (rest ++ [stop]) = [start ++ rest ++ [stop]] := by
    intro rest
    induction rest with
    | nil =>
      intro start _
      rw [List.nil_append, linesFrom, if_pos rfl, List.append_nil]
      rfl
    | cons a rest ih =>
      intro start hrest
      rw [List.mem_cons, not_or] at hrest
      rw [List.cons_append, linesFrom, if_neg fun ha => hrest.1 ha.symm, ih _ hrest.2]
      simp
  exact hrun line [] h

/-- **Lines that are written are read back.** -/
theorem lines_flatMap {written : List (List α)} (h : ∀ line ∈ written, stop ∉ line) :
    lines stop (written.flatMap (· ++ [stop])) = written.map (· ++ [stop]) := by
  induction written with
  | nil => rfl
  | cons line rest ih =>
    have hline := lines_terminated (h line List.mem_cons_self)
    rw [List.flatMap_cons, lines_append_of_ends (ends_concat.mpr rfl), hline,
      ih fun l hl => h l (List.mem_cons_of_mem _ hl)]
    rfl

theorem isLine_of_mem_linesFrom (text : List α) : ∀ {start : List α}, stop ∉ start →
    ∀ line ∈ linesFrom stop start text, IsLine stop line := by
  induction text with
  | nil =>
    intro start hstart line hline
    rw [linesFrom] at hline
    split at hline
    · exact absurd hline List.not_mem_nil
    · next hne =>
      rw [List.mem_singleton.mp hline]
      exact ⟨start, hstart, Or.inr ⟨rfl, hne⟩⟩
  | cons a rest ih =>
    intro start hstart line hline
    rw [linesFrom] at hline
    split at hline
    · next ha =>
      rcases List.mem_cons.mp hline with rfl | hline
      · exact ⟨start, hstart, Or.inl (by rw [ha])⟩
      · exact ih List.not_mem_nil line hline
    · next ha =>
      refine ih ?_ line hline
      rw [List.mem_append, List.mem_singleton, not_or]
      exact ⟨hstart, fun h => ha h.symm⟩

theorem isLine_of_mem_lines {text line : List α} (h : line ∈ lines stop text) :
    IsLine stop line :=
  isLine_of_mem_linesFrom text List.not_mem_nil line h

-- ---------------------------------------------------------------------------
-- Counting
-- ---------------------------------------------------------------------------

/-- There is a line for each terminator, and one more if the text does not end with one. -/
theorem length_linesFrom (text : List α) : ∀ {start : List α}, stop ∉ start →
    (linesFrom stop start text).length =
      text.count stop + if Ends stop (start ++ text) then 0 else 1 := by
  induction text with
  | nil =>
    intro start hstart
    rw [linesFrom, List.append_nil, List.count_nil, Nat.zero_add]
    rcases List.eq_nil_or_concat start with rfl | ⟨before, a, rfl⟩
    · rw [if_pos rfl, if_pos Ends.nil]
      rfl
    · have hne : ¬ Ends stop (before.concat a) := by
        rw [List.concat_eq_append, ends_concat]
        rintro rfl
        exact hstart (by simp)
      rw [if_neg (by simp), if_neg hne]
      rfl
  | cons a rest ih =>
    intro start hstart
    rw [linesFrom]
    by_cases ha : a = stop
    · have hcount : (a :: rest).count stop = rest.count stop + 1 := by
        rw [ha, List.count_cons_self]
      have hends : Ends stop (start ++ a :: rest) ↔ Ends stop ([] ++ rest) := by
        rcases eq_or_ne rest [] with rfl | hne
        · rw [ends_concat]
          exact iff_of_true ha Ends.nil
        · have hsplit : start ++ a :: rest = (start ++ [a]) ++ rest := by simp
          rw [hsplit, ends_append hne, List.nil_append]
      rw [if_pos ha, List.length_cons, ih List.not_mem_nil, hcount]
      simp only [hends]
      omega
    · have hstart' : stop ∉ start ++ [a] := by
        rw [List.mem_append, List.mem_singleton, not_or]
        exact ⟨hstart, fun h => ha h.symm⟩
      rw [if_neg ha, ih hstart', List.count_cons_of_ne ha, List.append_assoc]
      rfl

theorem length_lines (text : List α) :
    (lines stop text).length = text.count stop + if Ends stop text then 0 else 1 :=
  length_linesFrom text List.not_mem_nil

/-- The lines of two parts are one too many if the first does not end its last line. -/
theorem length_lines_append {xs ys : List α} (hne : ys ≠ []) :
    (lines stop (xs ++ ys)).length + (if Ends stop xs then 0 else 1) =
      (lines stop xs).length + (lines stop ys).length := by
  rw [length_lines, length_lines, length_lines, List.count_append]
  simp only [ends_append hne]
  omega

-- ---------------------------------------------------------------------------
-- Pieces
-- ---------------------------------------------------------------------------

/-- A line that is cut is one line more. -/
theorem lines_pieces (pieces : List (List α)) :
    (lines stop pieces.flatten).length ≤ (pieces.flatMap (lines stop)).length ∧
      (WholePieces stop pieces → pieces.flatMap (lines stop) = lines stop pieces.flatten) ∧
      (¬ WholePieces stop pieces →
        (lines stop pieces.flatten).length < (pieces.flatMap (lines stop)).length) := by
  induction pieces with
  | nil => exact ⟨Nat.le_refl _, fun _ => rfl, fun h => absurd trivial h⟩
  | cons piece rest ih =>
    obtain ⟨hle, hwhole, hcut⟩ := ih
    rw [List.flatMap_cons, List.flatten_cons, List.length_append, WholePieces]
    by_cases hempty : rest.flatten = []
    · -- nothing follows
      have hnone : rest.flatMap (lines stop) = [] := by
        rw [List.flatMap_eq_nil_iff]
        intro piece' hmem
        rw [List.flatten_eq_nil_iff.mp hempty piece' hmem]
        rfl
      rw [hempty, List.append_nil, hnone, List.append_nil, List.length_nil]
      refine ⟨Nat.le_refl _, fun _ => rfl, fun hnot => ?_⟩
      have hlt := hcut fun h => hnot ⟨Or.inl rfl, h⟩
      rw [hnone] at hlt
      exact absurd hlt (Nat.not_lt_zero _)
    · have hlength : (lines stop (piece ++ rest.flatten)).length +
          (if Ends stop piece then 0 else 1) = _ := length_lines_append hempty
      refine ⟨by omega, ?_, ?_⟩
      · rintro ⟨hfirst, hrest⟩
        rw [lines_append_of_ends (hfirst.resolve_left hempty), hwhole hrest]
      · intro hnot
        by_cases hends : Ends stop piece
        · have hlt := hcut fun h => hnot ⟨Or.inr hends, h⟩
          rw [if_pos hends] at hlength
          omega
        · rw [if_neg hends] at hlength
          omega

/-- **A text that is read in pieces has the same lines exactly if no line is cut.** -/
theorem lines_pieces_iff (pieces : List (List α)) :
    pieces.flatMap (lines stop) = lines stop pieces.flatten ↔ WholePieces stop pieces := by
  refine ⟨fun heq => ?_, (lines_pieces pieces).2.1⟩
  by_contra hnot
  have hlt := (lines_pieces pieces).2.2 hnot
  rw [heq] at hlt
  exact absurd hlt (Nat.lt_irrefl _)

end Lib

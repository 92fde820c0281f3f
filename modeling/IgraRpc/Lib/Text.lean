import Mathlib.Data.Bool.AllAny
import Mathlib.Data.List.DropRight
import Mathlib.Tactic.Common

/-!
# Texts as lists

Searching and cutting lists of symbols, as string libraries do it.

* `stripPrefix`, `stripSuffix` — what is left without a literal at one end;
* `trim` — what is left without white space at both ends.
-/

namespace Lib.Text

universe u

variable {α : Type u}

-- ---------------------------------------------------------------------------
-- Literals at the ends
-- ---------------------------------------------------------------------------

/-- A literal at the end lies behind a symbol that does not occur in it. -/
theorem suffix_append_cons {literal before after : List α} {c : α} (h : c ∉ literal) :
    literal <:+ before ++ c :: after ↔ literal <:+ after := by
  refine ⟨fun hsuffix => ?_, fun hsuffix => ?_⟩
  · rcases List.suffix_or_suffix_of_suffix hsuffix (List.suffix_append before (c :: after)) with
      hin | hout
    · rcases List.suffix_cons_iff.mp hin with rfl | hin
      · exact absurd List.mem_cons_self h
      · exact hin
    · exact absurd (hout.subset List.mem_cons_self) h
  · exact hsuffix.trans ((List.suffix_cons c after).trans (List.suffix_append before _))

/-- What follows the last occurrence of a symbol is determined. -/
theorem eq_of_append_cons {before before' after after' : List α} {c : α}
    (h : before ++ c :: after = before' ++ c :: after') (hc : c ∉ after) (hc' : c ∉ after') :
    after = after' := by
  have hsuffix : c :: after <:+ before' ++ c :: after' := ⟨before, h⟩
  rcases List.suffix_or_suffix_of_suffix hsuffix (List.suffix_append before' (c :: after')) with
    hin | hin
  · rcases List.suffix_cons_iff.mp hin with heq | hin
    · exact (List.cons.inj heq).2
    · exact absurd (hin.subset List.mem_cons_self) hc'
  · rcases List.suffix_cons_iff.mp hin with heq | hin
    · exact (List.cons.inj heq).2.symm
    · exact absurd (hin.subset List.mem_cons_self) hc

variable [DecidableEq α]

/-- The text behind a literal it begins with. -/
def stripPrefix : List α → List α → Option (List α)
  | [], text => some text
  | p :: literal, c :: text => if p = c then stripPrefix literal text else none
  | _ :: _, [] => none

/-- The text before a literal it ends with. -/
def stripSuffix (literal text : List α) : Option (List α) :=
  (stripPrefix literal.reverse text.reverse).map List.reverse

theorem stripPrefix_eq_some {literal text rest : List α} :
    stripPrefix literal text = some rest ↔ text = literal ++ rest := by
  fun_induction stripPrefix literal text with
  | case1 text => simp
  | case2 p literal text ih => simp [ih]
  | case3 p literal c text hne => simp [Ne.symm hne]
  | case4 => simp

@[simp] theorem stripPrefix_append (literal rest : List α) :
    stripPrefix literal (literal ++ rest) = some rest :=
  stripPrefix_eq_some.mpr rfl

theorem stripPrefix_eq_none {literal text : List α} :
    stripPrefix literal text = none ↔ ¬ literal <+: text := by
  refine ⟨?_, fun h => ?_⟩
  · rintro hnone ⟨rest, rfl⟩
    exact absurd hnone (by simp)
  · rw [Option.eq_none_iff_forall_ne_some]
    rintro rest hsome
    exact h ⟨rest, (stripPrefix_eq_some.mp hsome).symm⟩

theorem stripSuffix_eq_some {literal text rest : List α} :
    stripSuffix literal text = some rest ↔ text = rest ++ literal := by
  rw [stripSuffix, Option.map_eq_some_iff]
  refine ⟨?_, fun h => ⟨rest.reverse, ?_, List.reverse_reverse rest⟩⟩
  · rintro ⟨rest', hstrip, rfl⟩
    rw [← List.reverse_reverse text, stripPrefix_eq_some.mp hstrip, List.reverse_append,
      List.reverse_reverse]
  · rw [stripPrefix_eq_some, h, List.reverse_append]

@[simp] theorem stripSuffix_append (rest literal : List α) :
    stripSuffix literal (rest ++ literal) = some rest :=
  stripSuffix_eq_some.mpr rfl

theorem stripSuffix_eq_none {literal text : List α} :
    stripSuffix literal text = none ↔ ¬ literal <:+ text := by
  refine ⟨?_, fun h => ?_⟩
  · rintro hnone ⟨rest, rfl⟩
    exact absurd hnone (by simp)
  · rw [Option.eq_none_iff_forall_ne_some]
    rintro rest hsome
    exact h ⟨rest, (stripSuffix_eq_some.mp hsome).symm⟩

-- ---------------------------------------------------------------------------
-- Up to a symbol
-- ---------------------------------------------------------------------------

theorem takeWhile_append_of_notMem {before : List α} {c : α} (h : c ∉ before)
    (after : List α) :
    (before ++ after).takeWhile (· ≠ c) = before ++ after.takeWhile (· ≠ c) :=
  List.takeWhile_append_of_pos fun b hb => by simpa using fun heq : b = c => h (heq ▸ hb)

theorem dropWhile_append_of_notMem {before : List α} {c : α} (h : c ∉ before)
    (after : List α) : (before ++ after).dropWhile (· ≠ c) = after.dropWhile (· ≠ c) :=
  List.dropWhile_append_of_pos fun b hb => by simpa using fun heq : b = c => h (heq ▸ hb)

theorem takeWhile_append_cons {before : List α} {c : α} (h : c ∉ before) (after : List α) :
    (before ++ c :: after).takeWhile (· ≠ c) = before := by
  rw [takeWhile_append_of_notMem h, List.takeWhile_cons_of_neg (by simp), List.append_nil]

theorem dropWhile_append_cons {before : List α} {c : α} (h : c ∉ before) (after : List α) :
    (before ++ c :: after).dropWhile (· ≠ c) = c :: after := by
  rw [dropWhile_append_of_notMem h, List.dropWhile_cons_of_neg (by simp)]

-- ---------------------------------------------------------------------------
-- White space
-- ---------------------------------------------------------------------------

/-- Unicode's `White_Space`. -/
def isWhitespace (c : Char) : Bool :=
  (9 ≤ c.toNat && c.toNat ≤ 13) || c.toNat == 0x20 || c.toNat == 0x85 || c.toNat == 0xA0 ||
    c.toNat == 0x1680 || (0x2000 ≤ c.toNat && c.toNat ≤ 0x200A) || c.toNat == 0x2028 ||
    c.toNat == 0x2029 || c.toNat == 0x202F || c.toNat == 0x205F || c.toNat == 0x3000

/-- The text without white space at its ends. -/
def trim (text : List Char) : List Char :=
  (text.dropWhile isWhitespace).rdropWhile isWhitespace

theorem trim_of_forall {text : List Char} (h : ∀ c ∈ text, isWhitespace c = false) :
    trim text = text := by
  have hstart : text.dropWhile isWhitespace = text := by
    cases text with
    | nil => rfl
    | cons c rest => simp [h c List.mem_cons_self]
  rw [trim, hstart, List.rdropWhile_eq_self_iff]
  intro hne
  simp [h _ (List.getLast_mem hne)]

theorem trim_infix_self (text : List Char) : trim text <:+: text :=
  (List.rdropWhile_prefix isWhitespace _).isInfix.trans (List.dropWhile_suffix isWhitespace).isInfix

end Lib.Text

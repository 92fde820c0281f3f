import IgraRpc.Lib.Text

/-!
# Searching texts

The leftmost match of a pattern, and the first occurrence of a literal.

* `firstMatch`, `cut` — the text before a match, and what the match leaves;
* `NoStart` — **no occurrence of a literal begins in a part of a text**, whatever follows it:
  such a part can be put in front of a text without any effect on a search;
* `cut_append_cons` — a symbol that is not in the literal separates two searches.
-/

namespace Lib.Text

universe u v

variable {α : Type u} {β : Type v}

-- ---------------------------------------------------------------------------
-- The leftmost match
-- ---------------------------------------------------------------------------

/-- The leftmost place where the pattern matches: the text before it, and the match. -/
def firstMatch (pattern : List α → Option β) : List α → Option (List α × β)
  | [] => (pattern []).map fun found => ([], found)
  | c :: text =>
    match pattern (c :: text) with
    | some found => some ([], found)
    | none => (firstMatch pattern text).map (Prod.map (c :: ·) id)

theorem firstMatch_of_some {pattern : List α → Option β} {text : List α} {found : β}
    (h : pattern text = some found) : firstMatch pattern text = some ([], found) := by
  cases text with
  | nil => rw [firstMatch, h, Option.map_some]
  | cons c text => rw [firstMatch, h]

theorem firstMatch_cons_of_none {pattern : List α → Option β} {c : α} {text : List α}
    (h : pattern (c :: text) = none) :
    firstMatch pattern (c :: text) = (firstMatch pattern text).map (Prod.map (c :: ·) id) := by
  rw [firstMatch, h]

/-- A match is a match of some rest of the text. -/
theorem firstMatch_some {pattern : List α → Option β} {text before : List α} {found : β}
    (h : firstMatch pattern text = some (before, found)) :
    ∃ rest, text = before ++ rest ∧ pattern rest = some found := by
  induction text generalizing before with
  | nil =>
    obtain ⟨_, hmatch, heq⟩ := Option.map_eq_some_iff.mp h
    obtain ⟨rfl, rfl⟩ := Prod.mk.inj heq
    exact ⟨[], rfl, hmatch⟩
  | cons c text ih =>
    cases hmatch : pattern (c :: text) with
    | some found' =>
      rw [firstMatch_of_some hmatch] at h
      obtain ⟨rfl, rfl⟩ := Prod.mk.inj (Option.some.inj h)
      exact ⟨c :: text, rfl, hmatch⟩
    | none =>
      rw [firstMatch_cons_of_none hmatch] at h
      obtain ⟨⟨before', found'⟩, hrest, heq⟩ := Option.map_eq_some_iff.mp h
      obtain ⟨rfl, rfl⟩ := Prod.mk.inj heq
      obtain ⟨rest, rfl, hfound⟩ := ih hrest
      exact ⟨rest, rfl, hfound⟩

/-- Where nothing matches, nothing is found. -/
theorem firstMatch_eq_none {pattern : List α → Option β} {text : List α} :
    firstMatch pattern text = none ↔ ∀ rest, rest <:+ text → pattern rest = none := by
  induction text with
  | nil => simp [firstMatch]
  | cons c text ih =>
    cases hmatch : pattern (c :: text) with
    | some found =>
      rw [firstMatch_of_some hmatch]
      refine iff_of_false (by simp) fun hnone => ?_
      rw [hnone (c :: text) List.suffix_rfl] at hmatch
      exact absurd hmatch (by simp)
    | none =>
      rw [firstMatch_cons_of_none hmatch, Option.map_eq_none_iff, ih]
      refine ⟨fun h rest hrest => ?_, fun h rest hrest => h rest (hrest.trans ?_)⟩
      · rcases List.suffix_cons_iff.mp hrest with rfl | hrest
        · exact hmatch
        · exact h rest hrest
      · exact List.suffix_cons c text

/-- A part in which no match begins is passed over. -/
theorem firstMatch_append {pattern : List α → Option β} {before rest : List α}
    (h : ∀ s, s ≠ [] → s <:+ before → pattern (s ++ rest) = none) :
    firstMatch pattern (before ++ rest) =
      (firstMatch pattern rest).map (Prod.map (before ++ ·) id) := by
  induction before with
  | nil => exact (@Option.map_id' _ (firstMatch pattern rest)).symm
  | cons c before ih =>
    have hfirst : pattern (c :: (before ++ rest)) = none :=
      h (c :: before) (by simp) List.suffix_rfl
    rw [List.cons_append, firstMatch_cons_of_none hfirst,
      ih fun s hs hsuffix => h s hs (hsuffix.trans (List.suffix_cons c before)), Option.map_map]
    rfl

/-- What follows a part matters only through the matches that begin in the part. -/
theorem map_snd_firstMatch_append {pattern : List α → Option β} {before x y : List α}
    (h : ∀ s, s <:+ before → pattern (s ++ x) = pattern (s ++ y))
    (hrest : (firstMatch pattern x).map Prod.snd = (firstMatch pattern y).map Prod.snd) :
    (firstMatch pattern (before ++ x)).map Prod.snd =
      (firstMatch pattern (before ++ y)).map Prod.snd := by
  induction before with
  | nil => exact hrest
  | cons c before ih =>
    have hfirst : pattern (c :: (before ++ x)) = pattern (c :: (before ++ y)) :=
      h (c :: before) List.suffix_rfl
    have htail := ih fun s hs => h s (hs.trans (List.suffix_cons c before))
    cases hmatch : pattern (c :: (before ++ y)) with
    | some found =>
      rw [List.cons_append, List.cons_append, firstMatch_of_some (hfirst.trans hmatch),
        firstMatch_of_some hmatch]
    | none =>
      rw [List.cons_append, List.cons_append, firstMatch_cons_of_none (hfirst.trans hmatch),
        firstMatch_cons_of_none hmatch, Option.map_map, Option.map_map]
      exact htail

-- ---------------------------------------------------------------------------
-- Parts in which no occurrence begins
-- ---------------------------------------------------------------------------

/-- No occurrence of the literal begins in the text, whatever follows it. -/
def NoStart (literal text : List α) : Prop :=
  ∀ s, s ≠ [] → s <:+ text → ∀ rest, ¬ literal <+: s ++ rest

theorem noStart_nil (literal : List α) : NoStart literal [] :=
  fun _ hne hsuffix => absurd (List.suffix_nil.mp hsuffix) hne

theorem NoStart.append {literal x y : List α} (hx : NoStart literal x) (hy : NoStart literal y) :
    NoStart literal (x ++ y) := by
  intro s hne hsuffix rest
  rcases List.suffix_or_suffix_of_suffix hsuffix (List.suffix_append x y) with hin | hout
  · exact hy s hne hin rest
  · obtain ⟨s', rfl⟩ := hout
    have hsuffix' : s' <:+ x := by
      obtain ⟨before, hbefore⟩ := hsuffix
      rw [← List.append_assoc] at hbefore
      exact ⟨before, List.append_cancel_right hbefore⟩
    rcases List.eq_nil_or_concat s' with rfl | ⟨_, _, rfl⟩
    · exact hy _ hne List.suffix_rfl rest
    · rw [List.append_assoc]
      exact hx _ (by simp) hsuffix' (y ++ rest)

/-- A text without the first symbol of the literal. -/
theorem noStart_of_head {literal text : List α} {c : α} (hhead : literal.head? = some c)
    (h : c ∉ text) : NoStart literal text := by
  intro s hne hsuffix rest hprefix
  obtain ⟨d, s', rfl⟩ := List.exists_cons_of_ne_nil hne
  obtain ⟨more, hmore⟩ := hprefix
  cases literal with
  | nil => exact absurd hhead (by simp)
  | cons c' literal =>
    obtain rfl := Option.some.inj hhead
    obtain rfl := (List.cons.inj hmore).1
    exact h (hsuffix.subset List.mem_cons_self)

/-- A text without some symbol of the literal, closed by a symbol that is not in the literal. -/
theorem noStart_concat {literal text : List α} {c d : α} (hc : c ∈ literal) (htext : c ∉ text)
    (hd : d ∉ literal) : NoStart literal (text ++ [d]) := by
  intro s hne hsuffix rest hprefix
  rcases List.suffix_concat_iff.mp hsuffix with rfl | ⟨s', rfl, hsuffix'⟩
  · exact hne rfl
  · rw [List.append_assoc] at hprefix
    rcases List.prefix_or_prefix_of_prefix hprefix (List.prefix_append s' _) with hin | hout
    · exact htext (hsuffix'.subset (hin.subset hc))
    · obtain ⟨literal', rfl⟩ := hout
      cases literal' with
      | nil =>
        rw [List.append_nil] at hc
        exact htext (hsuffix'.subset hc)
      | cons d' literal' =>
        obtain ⟨rfl, -⟩ := List.cons_prefix_cons.mp (List.prefix_append_right_inj s' |>.mp hprefix)
        exact hd (by simp)

/-- A pattern that begins with a literal does not match where the literal cannot begin. -/
theorem NoStart.firstMatch_append {literal before : List α} (h : NoStart literal before)
    {pattern : List α → Option β}
    (hpattern : ∀ text found, pattern text = some found → literal <+: text) (rest : List α) :
    firstMatch pattern (before ++ rest) =
      (firstMatch pattern rest).map (Prod.map (before ++ ·) id) := by
  refine Text.firstMatch_append fun s hne hsuffix => ?_
  rw [Option.eq_none_iff_forall_ne_some]
  intro found hfound
  exact h s hne hsuffix rest (hpattern _ found hfound)

-- ---------------------------------------------------------------------------
-- The first occurrence of a literal
-- ---------------------------------------------------------------------------

variable [DecidableEq α]

/-- The text before and behind the first occurrence of a literal. -/
def cut (literal : List α) : List α → Option (List α × List α) :=
  firstMatch (stripPrefix literal)

/-- The literal occurs in the text. -/
def contains (literal text : List α) : Bool := (cut literal text).isSome

theorem cut_eq_none {literal text : List α} : cut literal text = none ↔ ¬ literal <:+: text := by
  rw [cut, firstMatch_eq_none, List.infix_iff_prefix_suffix]
  simp only [stripPrefix_eq_none, not_exists, not_and]
  exact ⟨fun h s hprefix hsuffix => h s hsuffix hprefix,
    fun h s hsuffix hprefix => h s hprefix hsuffix⟩

theorem cut_nil {literal : List α} (hne : literal ≠ []) : cut literal [] = none :=
  cut_eq_none.mpr fun hin => hne (List.infix_nil.mp hin)

theorem contains_eq_true {literal text : List α} :
    contains literal text = true ↔ literal <:+: text := by
  rw [contains, ← not_iff_not, Bool.not_eq_true, Option.isSome_eq_false_iff,
    Option.isNone_iff_eq_none, cut_eq_none]

theorem contains_eq_false {literal text : List α} :
    contains literal text = false ↔ ¬ literal <:+: text := by
  rw [← contains_eq_true, Bool.not_eq_true]

theorem cut_eq_none_of_notMem {literal text : List α} (c : α) (hc : c ∈ literal)
    (htext : c ∉ text) : cut literal text = none :=
  cut_eq_none.mpr fun h => htext (h.subset hc)

theorem contains_of_notMem {literal text : List α} (c : α) (hc : c ∈ literal)
    (htext : c ∉ text) : contains literal text = false :=
  contains_eq_false.mpr fun h => htext (h.subset hc)

theorem cut_some {literal text before after : List α}
    (h : cut literal text = some (before, after)) : text = before ++ (literal ++ after) := by
  obtain ⟨rest, rfl, hstrip⟩ := firstMatch_some h
  rw [stripPrefix_eq_some.mp hstrip]

/-- The literal itself, at the beginning. -/
@[simp] theorem cut_literal (literal rest : List α) :
    cut literal (literal ++ rest) = some ([], rest) :=
  firstMatch_of_some (stripPrefix_append literal rest)

/-- Before the first occurrence there is none. -/
theorem not_infix_of_cut {literal text before after : List α} (hne : literal ≠ [])
    (h : cut literal text = some (before, after)) : ¬ literal <:+: before := by
  induction text generalizing before with
  | nil =>
    obtain ⟨rfl, -⟩ := List.append_eq_nil_iff.mp (cut_some h).symm
    exact fun hin => hne (List.infix_nil.mp hin)
  | cons c text ih =>
    cases hstrip : stripPrefix literal (c :: text) with
    | some rest =>
      rw [cut, firstMatch_of_some hstrip] at h
      obtain ⟨rfl, rfl⟩ := Prod.mk.inj (Option.some.inj h)
      exact fun hin => hne (List.infix_nil.mp hin)
    | none =>
      rw [cut, firstMatch_cons_of_none hstrip] at h
      obtain ⟨⟨before', after'⟩, hrest, heq⟩ := Option.map_eq_some_iff.mp h
      obtain ⟨rfl, rfl⟩ := Prod.mk.inj heq
      intro hin
      rcases List.infix_cons_iff.mp hin with hprefix | hin
      · refine stripPrefix_eq_none.mp hstrip (List.IsPrefix.trans hprefix ?_)
        rw [cut_some hrest]
        exact List.prefix_append (c :: before') _
      · exact ih hrest hin

-- ---------------------------------------------------------------------------
-- Testing for such parts
-- ---------------------------------------------------------------------------

/-- The texts agree as far as both go. -/
def agree : List α → List α → Bool
  | [], _ => true
  | _, [] => true
  | a :: x, b :: y => decide (a = b) && agree x y

/-- An occurrence of the literal may begin in the text. -/
def mayStart (literal : List α) : List α → Bool
  | [] => false
  | c :: text => agree literal (c :: text) || mayStart literal text

theorem agree_of_prefix_append {literal text rest : List α} (h : literal <+: text ++ rest) :
    agree literal text = true := by
  fun_induction agree literal text with
  | case1 => rfl
  | case2 => rfl
  | case3 a x b y ih =>
    obtain ⟨rfl, hprefix⟩ := List.cons_prefix_cons.mp h
    simp [ih hprefix]

theorem noStart_of_mayStart {literal text : List α} (h : mayStart literal text = false) :
    NoStart literal text := by
  induction text with
  | nil => exact noStart_nil literal
  | cons c text ih =>
    obtain ⟨hagree, hmay⟩ := Bool.or_eq_false_iff.mp h
    intro s hne hsuffix rest hprefix
    rcases List.suffix_cons_iff.mp hsuffix with rfl | hsuffix
    · rw [agree_of_prefix_append hprefix] at hagree
      exact absurd hagree (by simp)
    · exact ih hmay s hne hsuffix rest hprefix

/-- **Such a part has no effect on a search behind it.** -/
theorem NoStart.cut_append {literal before : List α} (h : NoStart literal before)
    (rest : List α) :
    cut literal (before ++ rest) = (cut literal rest).map (Prod.map (before ++ ·) id) :=
  h.firstMatch_append (fun _ found hfound => ⟨found, (stripPrefix_eq_some.mp hfound).symm⟩) rest

theorem NoStart.contains_append {literal before : List α} (h : NoStart literal before)
    (rest : List α) : contains literal (before ++ rest) = contains literal rest := by
  rw [contains, h.cut_append, Option.isSome_map]
  rfl

theorem NoStart.cut_eq_none {literal text : List α} (h : NoStart literal text)
    (hne : literal ≠ []) : cut literal text = none := by
  have hcut := h.cut_append []
  rwa [List.append_nil, cut_nil hne, Option.map_none] at hcut

-- ---------------------------------------------------------------------------
-- Separators
-- ---------------------------------------------------------------------------

theorem stripPrefix_append_cons {literal : List α} {c : α} (hc : c ∉ literal)
    (text rest : List α) :
    stripPrefix literal (text ++ c :: rest) =
      (stripPrefix literal text).map (· ++ c :: rest) := by
  fun_induction stripPrefix literal text with
  | case1 text => rfl
  | case2 literal d text ih =>
    simp only [List.cons_append, stripPrefix, if_true]
    exact ih fun hmem => hc (List.mem_cons_of_mem d hmem)
  | case3 p literal d text hne => simp [stripPrefix, hne]
  | case4 p literal =>
    have hne : p ≠ c := fun heq => hc (heq ▸ List.mem_cons_self)
    simp [stripPrefix, hne]

/-- **A separator.** A symbol that is not in the literal makes two searches of one. -/
theorem cut_append_cons {literal : List α} {c : α} (hc : c ∉ literal) (hne : literal ≠ [])
    (text rest : List α) :
    cut literal (text ++ c :: rest) =
      ((cut literal text).map (Prod.map id (· ++ c :: rest))).or
        ((cut literal rest).map (Prod.map (text ++ c :: ·) id)) := by
  induction text with
  | nil =>
    have hnil : cut literal ([] : List α) = none :=
      cut_eq_none.mpr fun hin => hne (List.infix_nil.mp hin)
    have hfirst : stripPrefix literal (c :: rest) = none :=
      stripPrefix_eq_none.mpr fun hprefix => by
        obtain ⟨d, literal', rfl⟩ := List.exists_cons_of_ne_nil hne
        obtain ⟨rfl, -⟩ := List.cons_prefix_cons.mp hprefix
        exact hc List.mem_cons_self
    rw [hnil, Option.map_none, Option.none_or]
    exact firstMatch_cons_of_none hfirst
  | cons d text ih =>
    have hstrip := stripPrefix_append_cons hc (d :: text) rest
    cases hfirst : stripPrefix literal (d :: text) with
    | some after =>
      rw [hfirst, Option.map_some] at hstrip
      have hcut : cut literal (d :: text ++ c :: rest) = some ([], after ++ c :: rest) :=
        firstMatch_of_some hstrip
      have hcut' : cut literal (d :: text) = some ([], after) := firstMatch_of_some hfirst
      rw [hcut, hcut']
      rfl
    | none =>
      rw [hfirst, Option.map_none] at hstrip
      have hcut : cut literal (d :: text ++ c :: rest) =
          (cut literal (text ++ c :: rest)).map (Prod.map (d :: ·) id) :=
        firstMatch_cons_of_none hstrip
      have hcut' : cut literal (d :: text) = (cut literal text).map (Prod.map (d :: ·) id) :=
        firstMatch_cons_of_none hfirst
      rw [hcut, hcut', ih]
      cases cut literal text with
      | none =>
        simp only [Option.map_none, Option.none_or, Option.map_map]
        rfl
      | some found => rfl

theorem contains_append_cons {literal : List α} {c : α} (hc : c ∉ literal) (hne : literal ≠ [])
    (text rest : List α) :
    contains literal (text ++ c :: rest) = (contains literal text || contains literal rest) := by
  rw [contains, cut_append_cons hc hne, Option.isSome_or, Option.isSome_map, Option.isSome_map]
  rfl

/-- What follows an occurrence does not matter. -/
theorem cut_append_of_some {literal text before after : List α}
    (h : cut literal text = some (before, after)) (rest : List α) :
    cut literal (text ++ rest) = some (before, after ++ rest) := by
  induction text generalizing before with
  | nil =>
    have hnil : stripPrefix literal ([] : List α) = some after := by
      obtain ⟨after', hstrip, heq⟩ := Option.map_eq_some_iff.mp h
      rw [hstrip, (Prod.mk.inj heq).2]
    obtain ⟨rfl, -⟩ := Prod.mk.inj (Option.some.inj ((firstMatch_of_some hnil).symm.trans h))
    refine firstMatch_of_some (stripPrefix_eq_some.mpr ?_)
    rw [← List.append_assoc, ← stripPrefix_eq_some.mp hnil]
  | cons c text ih =>
    cases hstrip : stripPrefix literal (c :: text) with
    | some after' =>
      obtain ⟨rfl, rfl⟩ := Prod.mk.inj (Option.some.inj ((firstMatch_of_some hstrip).symm.trans h))
      refine firstMatch_of_some (stripPrefix_eq_some.mpr ?_)
      rw [← List.append_assoc, ← stripPrefix_eq_some.mp hstrip]
    | none =>
      have hcut : cut literal (c :: text) = (cut literal text).map (Prod.map (c :: ·) id) :=
        firstMatch_cons_of_none hstrip
      obtain ⟨⟨before', after'⟩, hrest, heq⟩ := Option.map_eq_some_iff.mp (hcut.symm.trans h)
      obtain ⟨rfl, rfl⟩ := Prod.mk.inj heq
      have hnone : stripPrefix literal (c :: (text ++ rest)) = none := by
        refine stripPrefix_eq_none.mpr fun hprefix => ?_
        -- the literal fits into the text, where it does not begin
        have hlen : literal.length ≤ (c :: text).length := by
          rw [cut_some hrest]
          simp only [List.length_cons, List.length_append]
          omega
        exact stripPrefix_eq_none.mp hstrip
          (List.prefix_of_prefix_length_le hprefix (List.prefix_append (c :: text) rest) hlen)
      have hcut' : cut literal (c :: (text ++ rest)) =
          (cut literal (text ++ rest)).map (Prod.map (c :: ·) id) :=
        firstMatch_cons_of_none hnone
      rw [List.cons_append, hcut', ih hrest]
      rfl

/-- A literal whose first symbol does not come again is found where it is put. -/
theorem cut_append_self {c : α} {literal text : List α} (hc : c ∉ literal)
    (h : ¬ c :: literal <:+: text) (rest : List α) :
    cut (c :: literal) (text ++ (c :: literal ++ rest)) = some (text, rest) := by
  have hpass := @firstMatch_append _ _ (stripPrefix (c :: literal)) text
    (c :: literal ++ rest) fun s hne hsuffix => by
      refine stripPrefix_eq_none.mpr fun hprefix => ?_
      rcases List.prefix_or_prefix_of_prefix hprefix (List.prefix_append s _) with hin | hout
      · exact h (hin.isInfix.trans hsuffix.isInfix)
      · obtain ⟨literal', heq⟩ := hout
        rw [← heq] at hprefix
        obtain ⟨d, s', rfl⟩ := List.exists_cons_of_ne_nil hne
        cases literal' with
        | nil =>
          rw [List.append_nil] at heq
          exact h (heq ▸ hsuffix.isInfix)
        | cons d' literal' =>
          obtain ⟨rfl, -⟩ :=
            List.cons_prefix_cons.mp ((List.prefix_append_right_inj _).mp hprefix)
          obtain ⟨rfl, rfl⟩ := List.cons.inj heq
          exact hc (by simp)
  have hcut := cut_literal (c :: literal) rest
  rw [cut] at hcut ⊢
  rw [hpass, hcut]
  simp

/-- A pattern that begins with a literal does not match where there is none. -/
theorem firstMatch_eq_none_of_cut {literal text : List α} {pattern : List α → Option β}
    (hpattern : ∀ text found, pattern text = some found → literal <+: text)
    (h : cut literal text = none) : firstMatch pattern text = none := by
  rw [firstMatch_eq_none]
  intro rest hsuffix
  rw [Option.eq_none_iff_forall_ne_some]
  intro found hfound
  exact cut_eq_none.mp h
    (List.infix_iff_prefix_suffix.mpr ⟨rest, hpattern rest found hfound, hsuffix⟩)

-- ---------------------------------------------------------------------------
-- Runs
-- ---------------------------------------------------------------------------

section
omit [DecidableEq α]

theorem takeWhile_append_stop {p : α → Bool} {c : α} (hc : p c = false) (text rest : List α) :
    (text ++ c :: rest).takeWhile p = text.takeWhile p := by
  induction text with
  | nil => simp [hc]
  | cons d text ih => cases hd : p d <;> simp [hd, ih]

theorem dropWhile_append_stop {p : α → Bool} {c : α} (hc : p c = false) (text rest : List α) :
    (text ++ c :: rest).dropWhile p = text.dropWhile p ++ c :: rest := by
  induction text with
  | nil => simp [hc]
  | cons d text ih => cases hd : p d <;> simp [hd, ih]

end

end Lib.Text

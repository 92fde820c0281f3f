import IgraRpc.Lib.Lts
import IgraRpc.Lib.Permits

/-!
# Slots

Copies of one system that are started on request and go on beside each other, each with one
of a fixed number of slots until it is over. A request that finds no slot is refused.

* `slots` — the copies as one system, any interleaving of their steps;
* `reachable_member` — every copy is in a state of a run of its own, so what holds of all
  runs of one holds of each;
* `slots_conserved` — slots held and free are always all of them, if what is over stays over;
* `slots_admission` — a request is granted exactly if not all slots are held;
* `slots_recover` — if each copy can come to its end, all slots can become free again.
-/

namespace Lib

universe u v

variable {σ : Type u} {ℓ : Type v}

/-- The copies, the slots that are free, and the requests so far: how many slots were held
then, and whether one was granted. -/
structure Slots (σ : Type u) where
  members : List σ
  available : Nat
  requests : List (Nat × Bool)

/-- What a copy holds. -/
def slotOf (live : σ → Bool) (a : σ) : Nat := if live a then 1 else 0

/-- The slots that are held. -/
def Slots.taken (live : σ → Bool) (s : Slots σ) : Nat := held (slotOf live) s.members

inductive SlotsLabel (ℓ : Type v) where
  | enter
  | refuse
  | member (i : Nat) (l : ℓ)

/-- One step. A copy that is over gives its slot back. -/
inductive SlotsStep (M : Lts σ ℓ) (live : σ → Bool) : Slots σ → SlotsLabel ℓ → Slots σ → Prop where
  | enter (s : Slots σ) (a : σ) (hinit : M.init a) (hfree : 0 < s.available) :
      SlotsStep M live s .enter
        ⟨s.members ++ [a], s.available - 1, s.requests ++ [(s.taken live, true)]⟩
  | refuse (s : Slots σ) (hnone : s.available = 0) :
      SlotsStep M live s .refuse { s with requests := s.requests ++ [(s.taken live, false)] }
  | member (s : Slots σ) (i : Nat) (l : ℓ) (a b : σ) (hmember : s.members[i]? = some a)
      (h : M.step a l b) :
      SlotsStep M live s (.member i l)
        { s with
          members := s.members.set i b
          available := s.available + (slotOf live a - slotOf live b) }

/-- Copies of a system with so many slots, from no copy at all. -/
def slots (M : Lts σ ℓ) (live : σ → Bool) (capacity : Nat) : Lts (Slots σ) (SlotsLabel ℓ) where
  init s := s = ⟨[], capacity, []⟩
  step := SlotsStep M live

section
variable {M : Lts σ ℓ} {live : σ → Bool} {capacity : Nat} {s : Slots σ}

/-- **Every copy runs as if it were alone.** -/
theorem reachable_member (h : (slots M live capacity).Reachable s) :
    ∀ a ∈ s.members, M.Reachable a := by
  refine Lts.invariant (P := fun s => ∀ a ∈ s.members, M.Reachable a) ?_ ?_ s h
  · rintro s rfl a ha
    exact absurd ha List.not_mem_nil
  · intro s l t _ hs hstep b hb
    cases hstep with
    | enter a hinit hfree =>
      rcases List.mem_append.mp hb with hb | hb
      · exact hs b hb
      · rw [List.mem_singleton.mp hb]
        exact Lts.reachable_init hinit
    | refuse hnone => exact hs b hb
    | member i l a c hmember hmove =>
      rcases List.mem_or_eq_of_mem_set hb with hb | rfl
      · exact hs b hb
      · exact (hs a (List.mem_of_getElem? hmember)).next hmove

/-- **No slot is lost, and none is given twice**: a copy begins with a slot, and what is over
stays over. -/
theorem slots_conserved (hbegin : ∀ a, M.init a → live a = true)
    (hover : ∀ a l b, M.step a l b → live a = false → live b = false)
    (h : (slots M live capacity).Reachable s) : s.taken live + s.available = capacity := by
  refine Lts.invariant (P := fun s => s.taken live + s.available = capacity) ?_ ?_ s h
  · rintro s rfl
    exact Nat.zero_add _
  · intro s l t _ hs hstep
    cases hstep with
    | enter a hinit hfree =>
      show held (slotOf live) (s.members ++ [a]) + (s.available - 1) = capacity
      have hone : slotOf live a = 1 := if_pos (hbegin a hinit)
      rw [Slots.taken] at hs
      rw [held_append, hone]
      omega
    | refuse hnone => exact hs
    | member i l a b hmember hmove =>
      show held (slotOf live) (s.members.set i b) +
        (s.available + (slotOf live a - slotOf live b)) = capacity
      have hset : held (slotOf live) (s.members.set i b) + slotOf live a =
          held (slotOf live) s.members + slotOf live b := held_set b hmember
      have hle : slotOf live b ≤ slotOf live a := by
        rw [slotOf, slotOf]
        cases hlive : live a with
        | true => split <;> simp
        | false =>
          have hlive' := hover a l b hmove hlive
          simp [hlive']
      rw [Slots.taken] at hs
      omega

/-- **A request is granted exactly if not all slots are held.** -/
theorem slots_admission (hbegin : ∀ a, M.init a → live a = true)
    (hover : ∀ a l b, M.step a l b → live a = false → live b = false)
    (h : (slots M live capacity).Reachable s) :
    ∀ request ∈ s.requests, request.2 = true ↔ request.1 < capacity := by
  refine Lts.invariant (P := fun s => ∀ request ∈ s.requests, request.2 = true ↔
    request.1 < capacity) ?_ ?_ s h
  · rintro s rfl request hrequest
    exact absurd hrequest List.not_mem_nil
  · intro s l t hreach hs hstep request hrequest
    have hconserved := slots_conserved hbegin hover hreach
    cases hstep with
    | enter a hinit hfree =>
      rcases List.mem_append.mp hrequest with hrequest | hrequest
      · exact hs request hrequest
      · rw [List.mem_singleton.mp hrequest]
        refine iff_of_true rfl ?_
        show s.taken live < capacity
        omega
    | refuse hnone =>
      rcases List.mem_append.mp hrequest with hrequest | hrequest
      · exact hs request hrequest
      · rw [List.mem_singleton.mp hrequest]
        refine iff_of_false (by simp) ?_
        show ¬s.taken live < capacity
        omega
    | member i l a b hmember hmove => exact hs request hrequest

/-- There is a copy for each request that was granted. -/
theorem slots_granted (h : (slots M live capacity).Reachable s) :
    s.members.length = s.requests.countP Prod.snd := by
  refine Lts.invariant (P := fun s => s.members.length = s.requests.countP Prod.snd) ?_ ?_ s h
  · rintro s rfl
    rfl
  · intro s l t _ hs hstep
    cases hstep with
    | enter a hinit hfree =>
      show (s.members ++ [a]).length = (s.requests ++ [(s.taken live, true)]).countP Prod.snd
      rw [List.length_append, List.countP_append, hs]
      rfl
    | refuse hnone =>
      show s.members.length = (s.requests ++ [(s.taken live, false)]).countP Prod.snd
      rw [List.countP_append, hs]
      rfl
    | member i l a b hmember hmove =>
      show (s.members.set i b).length = _
      rw [List.length_set, hs]

/-- What live copies hold of anything, each at most so much, is at most so much for each
slot. -/
theorem held_live_le {weight : σ → Nat} {bound : Nat} {members : List σ}
    (h : ∀ a ∈ members, live a = true → weight a ≤ bound) :
    held (fun a => if live a then weight a else 0) members ≤
      bound * held (slotOf live) members := by
  induction members with
  | nil => exact Nat.zero_le _
  | cons a rest ih =>
    have hrest := ih fun b hb => h b (List.mem_cons_of_mem a hb)
    have hhead : (if live a then weight a else 0) ≤ bound * slotOf live a := by
      rw [slotOf]
      cases hlive : live a with
      | true => simpa using h a List.mem_cons_self hlive
      | false => simp
    rw [held_cons, held_cons, Nat.mul_add]
    exact Nat.add_le_add hhead hrest

-- ---------------------------------------------------------------------------
-- Coming to an end
-- ---------------------------------------------------------------------------

/-- What a copy can do alone, it can do among the others. -/
theorem steps_member {i : Nat} {a b : σ} (hmember : s.members[i]? = some a) (h : M.Steps a b) :
    ∃ t, (slots M live capacity).Steps s t ∧ t.members = s.members.set i b := by
  obtain ⟨hlt, hget⟩ := List.getElem?_eq_some_iff.mp hmember
  induction h with
  | refl => exact ⟨s, Lts.Steps.refl s, by rw [← hget, List.set_getElem_self]⟩
  | @tail b c hprev hmove ih =>
    obtain ⟨t, hsteps, hmembers⟩ := ih
    obtain ⟨l, hl⟩ := hmove
    have hat : t.members[i]? = some b := by
      rw [hmembers, List.getElem?_set_self hlt]
    refine ⟨_, hsteps.tail ⟨.member i l, .member t i l b c hat hl⟩, ?_⟩
    show t.members.set i c = _
    rw [hmembers, List.set_set]

/-- The first copies come to their end one after the other. -/
theorem steps_firstEnded (hend : ∀ a, M.Reachable a → ∃ b, M.Steps a b ∧ live b = false)
    (h : (slots M live capacity).Reachable s) (n : Nat) (hn : n ≤ s.members.length) :
    ∃ t, (slots M live capacity).Steps s t ∧ t.members.length = s.members.length ∧
      ∀ i < n, ∀ a, t.members[i]? = some a → live a = false := by
  induction n with
  | zero => exact ⟨s, Lts.Steps.refl s, rfl, fun i hi => absurd hi (Nat.not_lt_zero i)⟩
  | succ n ih =>
    obtain ⟨t, hsteps, hlength, hended⟩ := ih (by omega)
    have hlt : n < t.members.length := by omega
    have hat : t.members[n]? = some t.members[n] := List.getElem?_eq_getElem hlt
    obtain ⟨b, hrun, hover⟩ :=
      hend _ (reachable_member (h.steps hsteps) _ (List.mem_of_getElem? hat))
    obtain ⟨u, hmore, hmembers⟩ : ∃ u, (slots M live capacity).Steps t u ∧
        u.members = t.members.set n b := steps_member hat hrun
    refine ⟨u, hsteps.trans hmore, by rw [hmembers, List.length_set, hlength], ?_⟩
    intro i hi a ha
    rw [hmembers] at ha
    by_cases heq : i = n
    · subst heq
      rw [List.getElem?_set_self hlt] at ha
      rw [← Option.some.inj ha]
      exact hover
    · rw [List.getElem?_set_ne (Ne.symm heq)] at ha
      exact hended i (by omega) a ha

/-- **If each copy can come to its end, all slots can become free again**, from every state. -/
theorem slots_recover (hbegin : ∀ a, M.init a → live a = true)
    (hover : ∀ a l b, M.step a l b → live a = false → live b = false)
    (hend : ∀ a, M.Reachable a → ∃ b, M.Steps a b ∧ live b = false)
    (h : (slots M live capacity).Reachable s) :
    ∃ t, (slots M live capacity).Steps s t ∧ (∀ a ∈ t.members, live a = false) ∧
      t.available = capacity := by
  obtain ⟨t, hsteps, hlength, hended⟩ := steps_firstEnded hend h _ (Nat.le_refl _)
  have hall : ∀ a ∈ t.members, live a = false := by
    intro a ha
    obtain ⟨i, hi⟩ := List.mem_iff_getElem?.mp ha
    have hlt := (List.getElem?_eq_some_iff.mp hi).1
    exact hended i (by omega) a hi
  have hnone : t.taken live = 0 := held_eq_zero fun a ha => if_neg (by rw [hall a ha]; simp)
  have hconserved := slots_conserved hbegin hover (h.steps hsteps)
  exact ⟨t, hsteps, hall, by omega⟩

end

end Lib

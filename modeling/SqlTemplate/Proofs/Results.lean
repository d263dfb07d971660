import Mathlib.Data.List.Forall2

/-!
What a successful result is made of.

A computation that can fail and succeeds is a chain of successes. These are the lemmas by which such
a chain is taken apart, whatever the failures are. A chain along a list that does not succeed fails
as the first element that has no result (`mapM_eq_error_iff`).
-/

set_option autoImplicit false

namespace SqlTemplate

variable {ε α β γ : Type}

/-- A chain that succeeds has a first result, and goes on from it. -/
theorem exists_of_bind_eq_ok {f : α → Except ε β} {result : Except ε α} {b : β}
    (h : result >>= f = .ok b) : ∃ a, result = .ok a ∧ f a = .ok b := by
  cases result with
  | error e => exact absurd h (by simp [bind, Except.bind])
  | ok a => exact ⟨a, rfl, h⟩

theorem exists_of_map_eq_ok {f : α → β} {result : Except ε α} {b : β}
    (h : f <$> result = .ok b) : ∃ a, result = .ok a ∧ f a = b := by
  cases result with
  | error e => exact absurd h (by simp [Functor.map, Except.map])
  | ok a => exact ⟨a, rfl, Except.ok.inj h⟩

/-- A function of each result is a function of the list of results. -/
theorem mapM_map (f : α → Except ε β) (g : β → γ) (as : List α) :
    as.mapM (fun a => g <$> f a) = List.map g <$> as.mapM f := by
  induction as with
  | nil => rfl
  | cons a as ih =>
    rw [List.mapM_cons, List.mapM_cons, ih]
    cases f a with
    | error e => rfl
    | ok b => cases as.mapM f <;> rfl

/-- Each result of a list of actions comes from one of its elements. -/
theorem exists_of_mem_mapM {f : α → Except ε β} {as : List α} {bs : List β} {b : β}
    (h : as.mapM f = .ok bs) (hb : b ∈ bs) : ∃ a ∈ as, f a = .ok b := by
  induction as generalizing bs with
  | nil =>
    rw [List.mapM_nil] at h
    rw [← Except.ok.inj h] at hb
    exact absurd hb List.not_mem_nil
  | cons a as ih =>
    rw [List.mapM_cons] at h
    obtain ⟨first, hfirst, h⟩ := exists_of_bind_eq_ok h
    obtain ⟨rest, hrest, h⟩ := exists_of_bind_eq_ok h
    rw [← Except.ok.inj h, List.mem_cons] at hb
    rcases hb with rfl | hb
    · exact ⟨a, List.mem_cons_self, hfirst⟩
    · obtain ⟨a', ha', hfa'⟩ := ih hrest hb
      exact ⟨a', List.mem_cons_of_mem a ha', hfa'⟩

/-- The results stand place by place beside what they are results of. -/
theorem forall₂_of_mapM {f : α → Except ε β} {as : List α} {bs : List β}
    (h : as.mapM f = .ok bs) : List.Forall₂ (fun a b => f a = .ok b) as bs := by
  induction as generalizing bs with
  | nil =>
    rw [List.mapM_nil] at h
    rw [← Except.ok.inj h]
    exact .nil
  | cons a as ih =>
    rw [List.mapM_cons] at h
    obtain ⟨first, hfirst, h⟩ := exists_of_bind_eq_ok h
    obtain ⟨rest, hrest, h⟩ := exists_of_bind_eq_ok h
    rw [← Except.ok.inj h]
    exact .cons hfirst (ih hrest)

/-- Along a chain that succeeds every element has its result. -/
theorem exists_of_mapM_ok {f : α → Except ε β} {as : List α} {bs : List β} {a : α}
    (h : as.mapM f = .ok bs) (ha : a ∈ as) : ∃ b, f a = .ok b := by
  have hall := forall₂_of_mapM h
  obtain ⟨i, hi, rfl⟩ := List.getElem_of_mem ha
  exact ⟨_, hall.get hi (hall.length_eq ▸ hi)⟩

/-- Only what is done with the elements of the list matters. -/
theorem mapM_congr {f g : α → Except ε β} {as : List α} (h : ∀ a ∈ as, f a = g a) :
    as.mapM f = as.mapM g := by
  induction as with
  | nil => rfl
  | cons a as ih =>
    rw [List.forall_mem_cons] at h
    rw [List.mapM_cons, List.mapM_cons, h.1, ih h.2]

/-- An element has a property that no element before it has. -/
def IsFirst (p : α → Prop) (as : List α) (a : α) : Prop :=
  ∃ before after, as = before ++ a :: after ∧ p a ∧ ∀ b ∈ before, ¬ p b

/-- What comes first in a list with a property has the property. -/
theorem IsFirst.holds {p : α → Prop} {as : List α} {a : α} (h : IsFirst p as a) : p a := by
  obtain ⟨-, -, -, ha, -⟩ := h
  exact ha

theorem IsFirst.mem {p : α → Prop} {as : List α} {a : α} (h : IsFirst p as a) : a ∈ as := by
  obtain ⟨before, after, rfl, -⟩ := h
  exact List.mem_append_right before List.mem_cons_self

theorem not_isFirst_nil {p : α → Prop} {a : α} : ¬ IsFirst p [] a := by
  rintro ⟨before, after, h, -⟩
  exact absurd h.symm (List.append_ne_nil_of_right_ne_nil _ (List.cons_ne_nil _ _))

/-- The first one with a property is the head, or the first one in the tail if the head lacks it. -/
theorem isFirst_cons {p : α → Prop} {as : List α} {a b : α} :
    IsFirst p (b :: as) a ↔ b = a ∧ p a ∨ ¬ p b ∧ IsFirst p as a := by
  constructor
  · rintro ⟨before, after, h, ha, hbefore⟩
    cases before with
    | nil => exact Or.inl ⟨(List.cons.inj h).1, ha⟩
    | cons c before =>
      obtain ⟨rfl, rfl⟩ := List.cons.inj h
      rw [List.forall_mem_cons] at hbefore
      exact Or.inr ⟨hbefore.1, before, after, rfl, ha, hbefore.2⟩
  · rintro (⟨rfl, ha⟩ | ⟨hb, before, after, rfl, ha, hbefore⟩)
    · exact ⟨[], as, rfl, ha, nofun⟩
    · exact ⟨b :: before, after, rfl, ha, List.forall_mem_cons.mpr ⟨hb, hbefore⟩⟩

/-- A chain fails as its first failure. -/
theorem mapM_eq_error_iff {f : α → Except ε β} {as : List α} {e : ε} :
    as.mapM f = .error e ↔ ∃ a, f a = .error e ∧ IsFirst (fun b => ∃ e, f b = .error e) as a := by
  induction as with
  | nil => exact iff_of_false nofun fun ⟨a, _, h⟩ => not_isFirst_nil h
  | cons b as ih =>
    rw [List.mapM_cons]
    simp only [isFirst_cons]
    cases hb : f b with
    | error e' =>
      constructor
      · intro h
        obtain rfl := Except.error.inj h
        exact ⟨b, hb, Or.inl ⟨rfl, e', hb⟩⟩
      · rintro ⟨a, ha, ⟨rfl, -⟩ | ⟨hnone, -⟩⟩
        · obtain rfl := Except.error.inj (hb.symm.trans ha)
          rfl
        · exact absurd ⟨e', rfl⟩ hnone
    | ok w =>
      have hrest : (do let w ← Except.ok w; let ws ← as.mapM f; pure (w :: ws)) = .error e
          ↔ as.mapM f = .error e := by
        cases as.mapM f <;> simp [bind, Except.bind, pure, Except.pure]
      rw [hrest, ih]
      refine exists_congr fun a => and_congr_right fun ha => ?_
      -- What failed is not what has just succeeded.
      have hne : b ≠ a := by
        rintro rfl
        exact absurd (hb.symm.trans ha) (by simp)
      simp [hne]

end SqlTemplate

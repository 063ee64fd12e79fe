import Mathlib.Data.List.Induction

/-!
# Runs of a labelled step relation

A run is the list of its labels with the state it ends in. Labels are added at the end,
because a property of a run is usually a property of its state together with everything
that has happened before.

A property that every step keeps holds after every run, and in particular at each label
inside a run: there the run up to the label has led to some state, and the label is a
step from that state. `Each` is the form in which such a property is stated about the
labels alone.
-/

namespace Control

variable {σ ε : Type} {step : σ → ε → σ → Prop} {s t u : σ} {e : ε} {l m : List ε}

inductive Run (step : σ → ε → σ → Prop) (s : σ) : List ε → σ → Prop where
  | nil : Run step s [] s
  | snoc {l : List ε} {t u : σ} {e : ε} : Run step s l t → step t e u → Run step s (l ++ [e]) u

namespace Run

theorem append (h : Run step s l t) (h' : Run step t m u) : Run step s (l ++ m) u := by
  induction h' with
  | nil => simpa using h
  | snoc _ hstep ih =>
      rw [← List.append_assoc]
      exact .snoc ih hstep

theorem snoc_inv (h : Run step s (l ++ [e]) u) : ∃ t, Run step s l t ∧ step t e u := by
  generalize hm : l ++ [e] = m at h
  cases h with
  | nil => simp at hm
  | snoc hrun hstep =>
      obtain ⟨rfl, he⟩ := List.append_inj' hm rfl
      cases he
      exact ⟨_, hrun, hstep⟩

theorem nil_inv (h : Run step s [] t) : t = s := by
  generalize hm : ([] : List ε) = m at h
  cases h with
  | nil => rfl
  | snoc _ _ => simp at hm

/-- A run can be cut anywhere. -/
theorem split (h : Run step s (l ++ m) u) : ∃ t, Run step s l t ∧ Run step t m u := by
  induction m using List.reverseRecOn generalizing u with
  | nil => exact ⟨u, by simpa using h, .nil⟩
  | append_singleton m e ih =>
      rw [← List.append_assoc] at h
      obtain ⟨v, hrun, hstep⟩ := h.snoc_inv
      obtain ⟨t, hl, hm⟩ := ih hrun
      exact ⟨t, hl, .snoc hm hstep⟩

/-- A label inside a run is a step from the state that the run had reached. -/
theorem split_at (h : Run step s (l ++ e :: m) u) :
    ∃ t v, Run step s l t ∧ step t e v ∧ Run step v m u := by
  rw [← List.singleton_append] at h
  obtain ⟨t, hl, hrest⟩ := h.split
  obtain ⟨v, he, hm⟩ := hrest.split
  obtain ⟨t', ht', hstep⟩ := snoc_inv (l := []) he
  rw [ht'.nil_inv] at hstep
  exact ⟨t, v, hl, hstep, hm⟩

theorem cons_inv (h : Run step s (e :: l) u) : ∃ t, step s e t ∧ Run step t l u := by
  obtain ⟨s', t, hnil, hstep, hrun⟩ := split_at (l := []) h
  rw [hnil.nil_inv] at hstep
  exact ⟨t, hstep, hrun⟩

/-- A run is over, or it goes on with a first step. -/
theorem head_cases (h : Run step s l u) :
    (l = [] ∧ u = s) ∨ ∃ e m t, l = e :: m ∧ step s e t ∧ Run step t m u := by
  cases l with
  | nil => exact .inl ⟨rfl, h.nil_inv⟩
  | cons e m =>
      obtain ⟨t, hstep, hrun⟩ := h.cons_inv
      exact .inr ⟨e, m, t, rfl, hstep, hrun⟩

/-- The invariant rule: what holds at the start and is kept by every step holds at the end. -/
theorem invariant (inv : List ε → σ → Prop) (start : inv [] s)
    (next : ∀ l t e u, inv l t → step t e u → inv (l ++ [e]) u) (h : Run step s l t) :
    inv l t := by
  induction h with
  | nil => exact start
  | snoc _ hstep ih => exact next _ _ _ _ ih hstep

end Run

/-! ### A property of every label -/

/-- Every label has the property, which looks at everything before it. -/
def Each (P : List ε → ε → Prop) (l : List ε) : Prop :=
  ∀ before e after, l = before ++ e :: after → P before e

variable {P : List ε → ε → Prop}

theorem each_nil : Each P ([] : List ε) := by
  intro before e after h
  simp at h

theorem Each.snoc (h : Each P l) (last : P l e) : Each P (l ++ [e]) := by
  intro before f after heq
  rcases List.eq_nil_or_concat after with rfl | ⟨more, g, rfl⟩
  · obtain ⟨rfl, he⟩ := List.append_inj' heq rfl
    cases he
    exact last
  · rw [List.concat_eq_append, ← List.cons_append, ← List.append_assoc] at heq
    obtain ⟨rfl, -⟩ := List.append_inj' heq rfl
    exact h before f more rfl

/-- Labels of which the property holds whatever comes before them. -/
theorem Each.append (h : Each P l) (free : ∀ e ∈ m, ∀ before, P before e) : Each P (l ++ m) := by
  induction m using List.reverseRecOn with
  | nil =>
      rw [List.append_nil]
      exact h
  | append_singleton m e ih =>
      rw [← List.append_assoc]
      refine (ih fun f hf => free f (List.mem_append_left _ hf)).snoc ?_
      exact free e (by simp) _

theorem Each.of_mem (h : Each P l) (mem : e ∈ l) : ∃ before, P before e := by
  obtain ⟨before, after, rfl⟩ := List.append_of_mem mem
  exact ⟨before, h before e after rfl⟩

theorem Run.each (next : ∀ l t e u, Run step s l t → step t e u → P l e) (h : Run step s l t) :
    Each P l := by
  induction h with
  | nil => exact each_nil
  | snoc hrun hstep ih => exact ih.snoc (next _ _ _ _ hrun hstep)

end Control

import SshClient.Control.WP

/-!
# Programs that do the same on related states

Two programs that may work on different kinds of state. When they start in related states
they return the same value or stop with the same error, in related states again.

With a relation that only compares a part of the state, a program that simulates itself
depends on that part alone.
-/

namespace Control

variable {ε σ τ α β : Type} {R : σ → τ → Prop}

/-- The same outcome, in related states. -/
def MatchingResult (R : σ → τ → Prop) : EStateM.Result ε σ α → EStateM.Result ε τ α → Prop
  | .ok a s, .ok b t => a = b ∧ R s t
  | .error e s, .error e' t => e = e' ∧ R s t
  | _, _ => False

def Simulates (R : σ → τ → Prop) (x : EStateM ε σ α) (y : EStateM ε τ α) : Prop :=
  ∀ s t, R s t → MatchingResult R (x.run s) (y.run t)

namespace Simulates

theorem of_ok {x : EStateM ε σ α} {y : EStateM ε τ α} {s u : σ} {t : τ} {a : α}
    (h : Simulates R x y) (related : R s t) (run : x.run s = .ok a u) :
    ∃ v, y.run t = .ok a v ∧ R u v := by
  have hsame := h s t related
  rw [run] at hsame
  cases hy : y.run t with
  | ok b v =>
      rw [hy] at hsame
      obtain ⟨rfl, hv⟩ := hsame
      exact ⟨v, rfl, hv⟩
  | error e v =>
      rw [hy] at hsame
      exact hsame.elim

theorem pure (a : α) : Simulates R (pure a : EStateM ε σ α) (pure a) := fun _ _ h => ⟨rfl, h⟩

theorem throw (e : ε) : Simulates R (throw e : EStateM ε σ α) (throw e) := fun _ _ h => ⟨rfl, h⟩

theorem lift (x : Except ε α) : Simulates R (lift x : EStateM ε σ α) (lift x) := by
  cases x with
  | ok a => exact pure a
  | error e => exact throw e

theorem failIf {c : Prop} [Decidable c] (e : ε) :
    Simulates R (failIf c e : EStateM ε σ Unit) (failIf c e) := by
  unfold Control.failIf
  split
  · exact throw e
  · exact pure ()

theorem bind {x : EStateM ε σ α} {y : EStateM ε τ α} {f : α → EStateM ε σ β}
    {g : α → EStateM ε τ β} (h : Simulates R x y) (next : ∀ a, Simulates R (f a) (g a)) :
    Simulates R (x >>= f) (y >>= g) := by
  intro s t related
  have hsame := h s t related
  rw [EStateM.run_bind, EStateM.run_bind]
  cases hx : x.run s <;> cases hy : y.run t <;> rw [hx, hy] at hsame
  · obtain ⟨rfl, hrelated⟩ := hsame
    exact next _ _ _ hrelated
  · exact hsame.elim
  · exact hsame.elim
  · exact hsame

/-- What is read may differ where the relation does not look. -/
theorem bind_get {f : σ → EStateM ε σ β} {g : τ → EStateM ε τ β}
    (h : ∀ s t, R s t → Simulates R (f s) (g t)) : Simulates R (get >>= f) (get >>= g) :=
  fun s t related => h s t related s t related

theorem modify {f : σ → σ} {g : τ → τ} (h : ∀ s t, R s t → R (f s) (g t)) :
    Simulates R (modify f : EStateM ε σ PUnit) (modify g) := fun s t related =>
  ⟨rfl, h s t related⟩

theorem set {s : σ} {t : τ} (related : R s t) :
    Simulates R (set s : EStateM ε σ PUnit) (set t) := fun _ _ _ => ⟨rfl, related⟩

theorem ite {c : Prop} [Decidable c] {x x' : EStateM ε σ α} {y y' : EStateM ε τ α}
    (h : Simulates R x y) (h' : Simulates R x' y') :
    Simulates R (if c then x else x') (if c then y else y') := by
  split
  · exact h
  · exact h'

theorem of_eq (x : EStateM ε σ α) : Simulates Eq x x := by
  rintro s _ rfl
  cases x.run s with
  | ok a t => exact ⟨rfl, rfl⟩
  | error e t => exact ⟨rfl, rfl⟩

theorem iterate {ρ : Type} {exhausted : ε} {body : ρ → EStateM ε σ (ρ ⊕ α)}
    {body' : ρ → EStateM ε τ (ρ ⊕ α)} (h : ∀ u, Simulates R (body u) (body' u)) (rounds : Nat)
    (u : ρ) : Simulates R (iterate exhausted body rounds u) (iterate exhausted body' rounds u) := by
  induction rounds generalizing u with
  | zero => exact throw exhausted
  | succ rounds ih =>
      refine bind (h u) ?_
      intro r
      cases r with
      | inl next => exact ih next
      | inr a => exact pure a

/-- A program on a component, between states whose components are related. -/
theorem focus {ρ κ : Type} {S : ρ → κ → Prop} {get : σ → ρ} {put : σ → ρ → σ} {get' : τ → κ}
    {put' : τ → κ → τ} {x : EStateM ε ρ α} {y : EStateM ε κ α} (h : Simulates S x y)
    (hget : ∀ s t, R s t → S (get s) (get' t))
    (hput : ∀ s t u v, R s t → S u v → R (put s u) (put' t v)) :
    Simulates R (focus get put x) (focus get' put' y) := by
  intro s t related
  have hsame := h _ _ (hget s t related)
  simp only [Control.focus, EStateM.run] at hsame ⊢
  cases hx : x (get s) <;> cases hy : y (get' t) <;> rw [hx, hy] at hsame
  · exact ⟨hsame.1, hput _ _ _ _ related hsame.2⟩
  · exact hsame.elim
  · exact hsame.elim
  · exact ⟨hsame.1, hput _ _ _ _ related hsame.2⟩

end Simulates

/-! One step of both programs from given states, where what is known of the states
decides what the step does. -/

section Step

variable {f : α → EStateM ε σ β} {g : α → EStateM ε τ β} {s : σ} {t : τ}

theorem matching_of_ok {x : EStateM ε σ α} {y : EStateM ε τ α} {a : α} {s' : σ} {t' : τ}
    (hx : x.run s = .ok a s') (hy : y.run t = .ok a t')
    (next : MatchingResult R ((f a).run s') ((g a).run t')) :
    MatchingResult R ((x >>= f).run s) ((y >>= g).run t) := by
  rw [EStateM.run_bind, EStateM.run_bind, hx, hy]
  exact next

theorem matching_of_error {x : EStateM ε σ α} {y : EStateM ε τ α} {e : ε} {s' : σ} {t' : τ}
    (hx : x.run s = .error e s') (hy : y.run t = .error e t') (related : R s' t') :
    MatchingResult R ((x >>= f).run s) ((y >>= g).run t) := by
  rw [EStateM.run_bind, EStateM.run_bind, hx, hy]
  exact ⟨rfl, related⟩

theorem matching_failIf {c : Prop} [Decidable c] {e : ε} {f : Unit → EStateM ε σ β}
    {g : Unit → EStateM ε τ β} (stop : R s t)
    (next : ¬ c → MatchingResult R ((f ()).run s) ((g ()).run t)) :
    MatchingResult R ((failIf c e >>= f).run s) ((failIf c e >>= g).run t) := by
  by_cases hc : c
  · simp only [failIf, hc, if_true]
    exact ⟨rfl, stop⟩
  · simp only [failIf, hc, if_false]
    exact next hc

end Step

theorem MatchingResult.mono {S : σ → τ → Prop} {r : EStateM.Result ε σ α}
    {r' : EStateM.Result ε τ α} (h : MatchingResult R r r') (weaken : ∀ s t, R s t → S s t) :
    MatchingResult S r r' := by
  cases r <;> cases r'
  · exact ⟨h.1, weaken _ _ h.2⟩
  · exact h.elim
  · exact h.elim
  · exact ⟨h.1, weaken _ _ h.2⟩

/-- The second program has a local variable for something in the state of the first. -/
theorem matching_withLocal {ρ : Type} {p : ρ} {s : σ} {t : τ} {x : EStateM ε σ α}
    {y : EStateM ε (ρ × τ) α}
    (h : MatchingResult (fun s u => R s u.2) (x.run s) (y.run (p, t))) :
    MatchingResult R (x.run s) ((withLocal p y).run t) := by
  simp only [withLocal, EStateM.run] at h ⊢
  cases hx : x s <;> cases hy : y (p, t) <;> rw [hx, hy] at h
  · exact h
  · exact h.elim
  · exact h.elim
  · exact h

/-- Programs that match have the same value when their states are dropped. -/
theorem evalOn_eq_of_matching {x : EStateM ε σ α} {y : EStateM ε τ α} {s : σ} {t : τ}
    (h : MatchingResult R (x.run s) (y.run t)) : evalOn x s = evalOn y t := by
  unfold evalOn
  cases hx : x.run s <;> cases hy : y.run t <;> rw [hx, hy] at h
  · exact congrArg Except.ok h.1
  · exact h.elim
  · exact h.elim
  · exact congrArg Except.error h.1

end Control

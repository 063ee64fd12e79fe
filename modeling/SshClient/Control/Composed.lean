import SshClient.Control.Simulation

/-!
# Programs composed of operations

Much of what is proved about a large program is true because of the operations it is
composed of, and not because of their order. `Composed` says of a program that it is put
together from given operations, that it reads no more of the state between them than it may
see, and that it throws only allowed errors of its own. The program is taken apart once.
Every property that the operations keep is then a property of the program, and so is every
relation between two states that the operations do not notice.
-/

namespace Control

variable {ε σ τ : Type}

/-- A choice of programs as operations. -/
abbrev Operations (ε σ : Type) := (α : Type) → EStateM ε σ α → Prop

/-- Programs composed of operations. `see` forgets what a program may not read. -/
inductive Composed (see : σ → σ) (allowed : ε → Prop) (op : Operations ε σ) :
    {α : Type} → EStateM ε σ α → Prop where
  | op {α : Type} {x : EStateM ε σ α} (h : op α x) : Composed see allowed op x
  | pure {α : Type} (a : α) : Composed see allowed op (pure a)
  | throw {α : Type} {e : ε} (h : allowed e) : Composed see allowed op (throw e : EStateM ε σ α)
  | bind {α β : Type} {x : EStateM ε σ α} {f : α → EStateM ε σ β} (hx : Composed see allowed op x)
      (hf : ∀ a, Composed see allowed op (f a)) : Composed see allowed op (x >>= f)
  | read {α : Type} {f : σ → EStateM ε σ α} (seen : ∀ s, f s = f (see s))
      (hf : ∀ s, Composed see allowed op (f s)) : Composed see allowed op (get >>= f)

/-- A program that starts with `inv` returns with it, or stops with `fail`. -/
def Upholds {α : Type} (inv : σ → Prop) (fail : ε → σ → Prop) (x : EStateM ε σ α) : Prop :=
  ∀ s, inv s → WP x s (fun _ t => inv t) fail

namespace Composed

variable {see : σ → σ} {allowed allowed' : ε → Prop} {op op' : Operations ε σ} {α β : Type}

theorem mono {x : EStateM ε σ α} (h : Composed see allowed op x)
    (herror : ∀ e, allowed e → allowed' e) (hop : ∀ α x, op α x → op' α x) :
    Composed see allowed' op' x := by
  induction h with
  | op h => exact .op (hop _ _ h)
  | pure a => exact .pure a
  | throw h => exact .throw (herror _ h)
  | bind _ _ ihx ihf => exact .bind ihx ihf
  | read seen _ ih => exact .read seen ih

theorem failIf {c : Prop} [Decidable c] {e : ε} (h : allowed e) :
    Composed see allowed op (failIf c e : EStateM ε σ Unit) := by
  unfold Control.failIf
  split
  · exact .throw h
  · exact .pure ()

theorem lift {x : Except ε α} (h : ∀ e, x = .error e → allowed e) :
    Composed see allowed op (lift x : EStateM ε σ α) := by
  cases x with
  | ok a => exact .pure a
  | error e => exact .throw (h e rfl)

/-- What follows a check knows that the check has passed. -/
theorem bind_lift {x : Except ε α} {f : α → EStateM ε σ β} (h : ∀ e, x = .error e → allowed e)
    (hf : ∀ a, x = .ok a → Composed see allowed op (f a)) :
    Composed see allowed op (Control.lift x >>= f) := by
  cases x with
  | ok a => exact hf a rfl
  | error e => exact .throw (h e rfl)

theorem bind_failIf {c : Prop} [Decidable c] {e : ε} {f : Unit → EStateM ε σ α} (h : allowed e)
    (hf : ¬ c → Composed see allowed op (f ())) :
    Composed see allowed op (Control.failIf c e >>= f) := by
  unfold Control.failIf
  split
  · exact .throw h
  · next hc => exact hf hc

theorem ite {c : Prop} [Decidable c] {x y : EStateM ε σ α} (hx : Composed see allowed op x)
    (hy : Composed see allowed op y) : Composed see allowed op (if c then x else y) := by
  split
  · exact hx
  · exact hy

/-- The same, with the condition at hand. -/
theorem ite_of {c : Prop} [Decidable c] {x y : EStateM ε σ α} (hx : c → Composed see allowed op x)
    (hy : ¬ c → Composed see allowed op y) : Composed see allowed op (if c then x else y) := by
  split
  · next hc => exact hx hc
  · next hc => exact hy hc

theorem iterate {exhausted : ε} {body : τ → EStateM ε σ (τ ⊕ α)} (h : allowed exhausted)
    (hbody : ∀ u, Composed see allowed op (body u)) (rounds : Nat) (u : τ) :
    Composed see allowed op (iterate exhausted body rounds u) := by
  induction rounds generalizing u with
  | zero => exact .throw h
  | succ rounds ih =>
      refine .bind (hbody u) ?_
      intro r
      cases r with
      | inl next => exact ih next
      | inr a => exact .pure a

/-- What every operation upholds the program upholds. -/
theorem upholds {inv : σ → Prop} {fail : ε → σ → Prop} {x : EStateM ε σ α}
    (h : Composed see allowed op x) (hop : ∀ α x, op α x → Upholds inv fail x)
    (stop : ∀ e s, allowed e → inv s → fail e s) : Upholds inv fail x := by
  induction h with
  | op h => exact hop _ _ h
  | pure a =>
      intro s hs
      exact hs
  | throw h =>
      intro s hs
      exact stop _ s h hs
  | bind _ _ ihx ihf =>
      intro s hs
      refine WP.bind_iff.mpr ((ihx s hs).mono ?_ ?_)
      · intro a t ht
        exact ihf a t ht
      · intro e t ht
        exact ht
  | read _ _ ih =>
      intro s hs
      exact ih s s hs

/-- States that look alike and that no operation tells apart. -/
theorem simulates {R : σ → σ → Prop} {x : EStateM ε σ α} (h : Composed see allowed op x)
    (hop : ∀ α x, op α x → Simulates R x x) (alike : ∀ s t, R s t → see s = see t) :
    Simulates R x x := by
  induction h with
  | op h => exact hop _ _ h
  | pure a => exact .pure a
  | throw h => exact .throw _
  | bind _ _ ihx ihf => exact .bind ihx ihf
  | read seen _ ih =>
      refine .bind_get ?_
      intro s t related
      rw [seen s, seen t, alike s t related]
      exact ih _

end Composed

end Control

import Mathlib.Logic.Basic
import Mathlib.Data.Sum.Basic

/-!
# Preconditions for stateful code that can stop

Programs are core's `EStateM ε σ`: a run from a state either returns a value or
stops with an `ε`, and both outcomes keep the state that was reached. `WP` is the
weakest precondition for a postcondition on returned values and a second one on
stops, so a property of everything that happened before an exception is stated in
the same place as the property of a normal return.

The equivalences below are simp lemmas: unfolding a program and simplifying turns
its precondition into the conditions met along each path.
-/

namespace Control

variable {ε σ τ α β : Type}

/-- The run from `s` returns with `post` or stops with `fail`. The state comes before
the postconditions, so that nested preconditions are never partial applications. -/
def WP (x : EStateM ε σ α) (s : σ) (post : α → σ → Prop) (fail : ε → σ → Prop) : Prop :=
  match x.run s with
  | .ok a t => post a t
  | .error e t => fail e t

/-- The state that a run has reached, by return or by a stop. -/
def outcome : EStateM.Result ε σ α → σ
  | .ok _ t => t
  | .error _ t => t

/-- The run has returned. -/
def returned : EStateM.Result ε σ α → Bool
  | .ok _ _ => true
  | .error _ _ => false

theorem eq_ok_of_returned {r : EStateM.Result ε σ Unit} (h : returned r = true) :
    r = .ok () (outcome r) := by
  cases r with
  | ok _ _ => rfl
  | error _ _ => cases h

theorem ne_ok_of_not_returned {r : EStateM.Result ε σ α} {a : α} {t : σ}
    (h : returned r = false) : r ≠ .ok a t := by
  intro hr
  rw [hr] at h
  cases h

/-- Stop with `e` when the condition holds, as `if (c) throw e;` does. -/
def failIf {m : Type → Type} [Monad m] [MonadExceptOf ε m] (c : Prop) [Decidable c] (e : ε) :
    m Unit :=
  if c then throwThe ε e else pure ()

theorem run_failIf_pos {c : Prop} [Decidable c] {e : ε} {s : σ} (h : c) :
    (failIf c e : EStateM ε σ Unit).run s = .error e s := by
  simp only [failIf, h, if_true]
  rfl

theorem run_failIf_neg {c : Prop} [Decidable c] {e : ε} {s : σ} (h : ¬ c) :
    (failIf c e : EStateM ε σ Unit).run s = .ok () s := by
  simp only [failIf, h, if_false]
  rfl

/-- Continue with the value of a pure computation that can fail. -/
def lift (x : Except ε α) : EStateM ε σ α :=
  match x with
  | .ok a => pure a
  | .error e => throw e

/-- Run a program on one component of the state. The component is written back
also when the program stops. -/
def focus (get : σ → τ) (set : σ → τ → σ) (x : EStateM ε τ α) : EStateM ε σ α := fun s =>
  match x.run (get s) with
  | .ok a t => .ok a (set s t)
  | .error e t => .error e (set s t)

/-- Run a block with a local variable that starts at `t`. Leaving the block, also by
a stop, discards the variable and keeps the rest of the state. -/
def withLocal (t : τ) (x : EStateM ε (τ × σ) α) : EStateM ε σ α := fun s =>
  match x.run (t, s) with
  | .ok a u => .ok a u.2
  | .error e u => .error e u.2

/-- A program on the local variable of the block. -/
def onLocal (x : EStateM ε τ α) : EStateM ε (τ × σ) α := focus Prod.fst (fun u t => (t, u.2)) x

/-- A program on the state around the block. -/
def onOuter (x : EStateM ε σ α) : EStateM ε (τ × σ) α := focus Prod.snd (fun u s => (u.1, s)) x

/-! A block on the local variable alone can be taken apart. -/

theorem onLocal_pure (a : α) : (onLocal (pure a) : EStateM ε (τ × σ) α) = pure a := rfl

theorem onLocal_bind {x : EStateM ε τ α} {f : α → EStateM ε τ β} :
    (onLocal (x >>= f) : EStateM ε (τ × σ) β) = onLocal x >>= fun a => onLocal (f a) := by
  funext s
  simp only [onLocal, focus, bind, EStateM.bind, EStateM.run]
  cases x s.1 <;> rfl

theorem onLocal_failIf {c : Prop} [Decidable c] {e : ε} :
    (onLocal (failIf c e) : EStateM ε (τ × σ) Unit) = failIf c e := by
  unfold failIf
  split <;> rfl

theorem run_onLocal_ok {x : EStateM ε τ α} {a : α} {t u : τ} {s : σ} (h : x.run t = .ok a u) :
    (onLocal x).run (t, s) = .ok a (u, s) := by
  simp only [onLocal, focus, EStateM.run] at h ⊢
  rw [h]

theorem run_onLocal_error {x : EStateM ε τ α} {e : ε} {t u : τ} {s : σ}
    (h : x.run t = .error e u) : (onLocal x).run (t, s) = .error e (u, s) := by
  simp only [onLocal, focus, EStateM.run] at h ⊢
  rw [h]

/-- The value of a program on a local variable, with the variable dropped. -/
def evalOn (x : EStateM ε τ α) (t : τ) : Except ε α :=
  match x.run t with
  | .ok a _ => .ok a
  | .error e _ => .error e

/-- Repeat a body that carries a loop variable until it produces a result. Running
out of rounds stops with `exhausted`. -/
def iterate (exhausted : ε) (body : τ → EStateM ε σ (τ ⊕ α)) : Nat → τ → EStateM ε σ α
  | 0, _ => throw exhausted
  | rounds + 1, t => do
      match ← body t with
      | .inl next => iterate exhausted body rounds next
      | .inr a => pure a

namespace WP

variable {post post' : α → σ → Prop} {fail fail' : ε → σ → Prop} {s t : σ}
variable {x : EStateM ε σ α} {a : α} {e : ε}

theorem of_ok (h : WP x s post fail) (run : x.run s = .ok a t) : post a t := by
  simpa only [WP, run] using h

theorem of_error (h : WP x s post fail) (run : x.run s = .error e t) : fail e t := by
  simpa only [WP, run] using h

theorem intro (ok : ∀ a t, x.run s = .ok a t → post a t)
    (error : ∀ e t, x.run s = .error e t → fail e t) : WP x s post fail := by
  unfold WP
  split
  · exact ok _ _ ‹_›
  · exact error _ _ ‹_›

/-- A known normal return decides the precondition. -/
theorem ok_iff (run : x.run s = .ok a t) : WP x s post fail ↔ post a t := by
  simp only [WP, run]

theorem exists_ok (h : WP x s post (fun _ _ => False)) :
    ∃ a t, x.run s = .ok a t ∧ post a t := by
  cases run : x.run s with
  | ok a t => exact ⟨a, t, rfl, h.of_ok run⟩
  | error e t => exact (h.of_error run).elim

theorem exists_error (h : WP x s (fun _ _ => False) fail) :
    ∃ e t, x.run s = .error e t ∧ fail e t := by
  cases run : x.run s with
  | ok a t => exact (h.of_ok run).elim
  | error e t => exact ⟨e, t, rfl, h.of_error run⟩

/-- A specification with one possible outcome determines the run. -/
theorem run_eq (h : WP x s (fun b u => b = a ∧ u = t) (fun _ _ => False)) :
    x.run s = .ok a t := by
  obtain ⟨b, u, run, rfl, rfl⟩ := h.exists_ok
  exact run

theorem mono (h : WP x s post fail) (hpost : ∀ a t, post a t → post' a t)
    (hfail : ∀ e t, fail e t → fail' e t) : WP x s post' fail' :=
  intro (fun _ _ run => hpost _ _ (h.of_ok run)) (fun _ _ run => hfail _ _ (h.of_error run))

/-- A property of the state reached in both outcomes. -/
theorem of_outcome {P : σ → Prop} (h : WP x s (fun _ t => P t) (fun _ t => P t)) :
    P (outcome (x.run s)) := by
  cases run : x.run s with
  | ok a t => exact h.of_ok run
  | error e t => exact h.of_error run

/-- Two specifications of the same run hold of the same outcome. -/
theorem and (h : WP x s post fail) (h' : WP x s post' fail') :
    WP x s (fun a t => post a t ∧ post' a t) (fun e t => fail e t ∧ fail' e t) :=
  intro (fun _ _ run => ⟨h.of_ok run, h'.of_ok run⟩)
    (fun _ _ run => ⟨h.of_error run, h'.of_error run⟩)

@[simp] theorem pure_iff : WP (pure a) s post fail ↔ post a s := Iff.rfl

@[simp] theorem throw_iff : WP (throw e : EStateM ε σ α) s post fail ↔ fail e s := Iff.rfl

@[simp] theorem bind_iff {y : EStateM ε σ β} {f : β → EStateM ε σ α} :
    WP (y >>= f) s post fail ↔ WP y s (fun b t => WP (f b) t post fail) fail := by
  simp only [WP, EStateM.run_bind]
  cases y.run s <;> rfl

@[simp] theorem map_iff {y : EStateM ε σ β} {f : β → α} :
    WP (f <$> y) s post fail ↔ WP y s (fun b t => post (f b) t) fail := by
  rw [map_eq_pure_bind, bind_iff]
  rfl

@[simp] theorem get_iff {post : σ → σ → Prop} :
    WP (get : EStateM ε σ σ) s post fail ↔ post s s := Iff.rfl

@[simp] theorem set_iff {post : PUnit → σ → Prop} :
    WP (set t : EStateM ε σ PUnit) s post fail ↔ post ⟨⟩ t := Iff.rfl

@[simp] theorem modify_iff {post : PUnit → σ → Prop} {f : σ → σ} :
    WP (modify f : EStateM ε σ PUnit) s post fail ↔ post ⟨⟩ (f s) := Iff.rfl

@[simp] theorem ite_iff {c : Prop} [Decidable c] {y : EStateM ε σ α} :
    WP (if c then x else y) s post fail ↔
      (c → WP x s post fail) ∧ (¬ c → WP y s post fail) := by
  by_cases hc : c <;> simp [hc]

@[simp] theorem failIf_iff {c : Prop} [Decidable c] {post : Unit → σ → Prop} :
    WP (failIf c e : EStateM ε σ Unit) s post fail ↔
      (c → fail e s) ∧ (¬ c → post () s) := by
  unfold failIf
  rw [ite_iff]
  rfl

@[simp] theorem lift_iff {y : Except ε α} :
    WP (lift y) s post fail ↔
      (∀ a, y = .ok a → post a s) ∧ (∀ e, y = .error e → fail e s) := by
  cases y <;> simp [lift]

@[simp] theorem focus_iff {get : σ → τ} {set : σ → τ → σ} {y : EStateM ε τ α} :
    WP (focus get set y) s post fail ↔
      WP y (get s) (fun a t => post a (set s t)) (fun e t => fail e (set s t)) := by
  unfold WP focus
  simp only [EStateM.run]
  cases y (get s) <;> rfl

@[simp] theorem withLocal_iff {u : τ} {y : EStateM ε (τ × σ) α} :
    WP (withLocal u y) s post fail ↔
      WP y (u, s) (fun a v => post a v.2) (fun e v => fail e v.2) := by
  unfold WP withLocal
  simp only [EStateM.run]
  cases y (u, s) <;> rfl

@[simp] theorem onLocal_iff {y : EStateM ε τ α} {u : τ} {post : α → τ × σ → Prop}
    {fail : ε → τ × σ → Prop} :
    WP (onLocal y) (u, s) post fail ↔
      WP y u (fun a v => post a (v, s)) (fun e v => fail e (v, s)) := focus_iff

@[simp] theorem onOuter_iff {u : τ} {post : α → τ × σ → Prop} {fail : ε → τ × σ → Prop} :
    WP (onOuter x) (u, s) post fail ↔
      WP x s (fun a t => post a (u, t)) (fun e t => fail e (u, t)) := focus_iff

/-- The rule for `iterate`: every round keeps the invariant of the loop variable and the
state and lowers a measure, or produces a result with the postcondition. With more rounds
than the measure they never run out. -/
theorem iterate {exhausted : ε} {body : τ → EStateM ε σ (τ ⊕ α)}
    (inv : τ → σ → Prop) (measure : τ → σ → Nat)
    (step : ∀ u s, inv u s → WP (body u) s
      (fun r t => match r with
        | .inl u' => inv u' t ∧ measure u' t < measure u s
        | .inr a => post a t) fail)
    (rounds : Nat) (u : τ) (start : inv u s) (enough : measure u s < rounds) :
    WP (Control.iterate exhausted body rounds u) s post fail := by
  induction rounds generalizing u s with
  | zero => omega
  | succ rounds ih =>
      simp only [Control.iterate, bind_iff]
      refine (step u s start).mono ?_ (fun _ _ h => h)
      intro r t h
      cases r with
      | inl u' => exact ih u' h.1 (by omega)
      | inr a => exact h

end WP

/-! ### Pure computations that can fail -/

theorem evalOn_eq_ok {x : EStateM ε τ α} {t : τ} {a : α} :
    evalOn x t = .ok a ↔ ∃ u, x.run t = .ok a u := by
  unfold evalOn
  split
  · rename_i b u run
    simp [run]
  · rename_i e u run
    simp [run]

/-- A specification of the program bounds the values of `evalOn`. -/
theorem evalOn_of_wp {x : EStateM ε τ α} {t : τ} {a : α} (post : α → Prop)
    (h : WP x t (fun a _ => post a) (fun _ _ => True)) (run : evalOn x t = .ok a) : post a := by
  obtain ⟨u, hu⟩ := evalOn_eq_ok.mp run
  exact h.of_ok hu

theorem bind_eq_ok {x : Except ε α} {f : α → Except ε β} {b : β} :
    (x >>= f) = .ok b ↔ ∃ a, x = .ok a ∧ f a = .ok b := by
  cases x with
  | ok a =>
      change f a = .ok b ↔ _
      simp
  | error e =>
      change Except.error e = .ok b ↔ _
      simp

theorem pure_eq_ok {a b : α} : (pure a : Except ε α) = .ok b ↔ b = a := by
  change Except.ok a = .ok b ↔ b = a
  rw [Except.ok.injEq, eq_comm]

theorem failIf_eq_ok {c : Prop} [Decidable c] {e : ε} {u : Unit} :
    (failIf c e : Except ε Unit) = .ok u ↔ ¬ c := by
  unfold failIf
  split
  · constructor
    · intro h
      cases h
    · intro h
      contradiction
  · exact ⟨fun _ => ‹¬ c›, fun _ => rfl⟩

theorem bind_eq_error {x : Except ε α} {f : α → Except ε β} {e : ε} :
    (x >>= f) = .error e ↔ x = .error e ∨ ∃ a, x = .ok a ∧ f a = .error e := by
  cases x with
  | ok a =>
      change f a = .error e ↔ _
      simp
  | error e' =>
      change Except.error e' = .error e ↔ _
      simp

theorem pure_ne_error {a : α} {e : ε} : (pure a : Except ε α) ≠ .error e := by
  intro h
  cases h

theorem failIf_eq_error {c : Prop} [Decidable c] {e e' : ε} :
    (failIf c e : Except ε Unit) = .error e' ↔ c ∧ e' = e := by
  unfold failIf
  split
  · change Except.error e = .error e' ↔ _
    rw [Except.error.injEq]
    exact ⟨fun h => ⟨‹c›, h.symm⟩, fun h => h.2.symm⟩
  · constructor
    · intro h
      cases h
    · intro h
      exact absurd h.1 ‹¬ c›

/-- `x` keeps the property in both outcomes. -/
def Preserves (inv : σ → Prop) (x : EStateM ε σ α) : Prop :=
  ∀ s, inv s → WP x s (fun _ t => inv t) (fun _ t => inv t)

/-! A program keeps what its parts keep. -/

namespace Preserves

variable {inv : σ → Prop}

theorem pure (a : α) : Preserves inv (pure a : EStateM ε σ α) := fun _ h => h

theorem get : Preserves inv (get : EStateM ε σ σ) := fun _ h => h

theorem throw (e : ε) : Preserves inv (throw e : EStateM ε σ α) := fun _ h => h

theorem lift (x : Except ε α) : Preserves inv (lift x : EStateM ε σ α) := fun _ h =>
  WP.lift_iff.mpr ⟨fun _ _ => h, fun _ _ => h⟩

theorem failIf (c : Prop) [Decidable c] (e : ε) :
    Preserves inv (failIf c e : EStateM ε σ Unit) := fun _ h =>
  WP.failIf_iff.mpr ⟨fun _ => h, fun _ => h⟩

theorem bind {x : EStateM ε σ α} {f : α → EStateM ε σ β} (hx : Preserves inv x)
    (hf : ∀ a, Preserves inv (f a)) : Preserves inv (x >>= f) := fun s h =>
  WP.bind_iff.mpr ((hx s h).mono (fun a t ht => hf a t ht) (fun _ _ ht => ht))

theorem ite {c : Prop} [Decidable c] {x y : EStateM ε σ α} (hx : Preserves inv x)
    (hy : Preserves inv y) : Preserves inv (if c then x else y) := fun s h =>
  WP.ite_iff.mpr ⟨fun _ => hx s h, fun _ => hy s h⟩

theorem iterate {exhausted : ε} {body : τ → EStateM ε σ (τ ⊕ α)}
    (h : ∀ u, Preserves inv (body u)) (rounds : Nat) (u : τ) :
    Preserves inv (iterate exhausted body rounds u) := by
  induction rounds generalizing u with
  | zero => exact throw exhausted
  | succ rounds ih =>
      refine bind (h u) (fun r => ?_)
      cases r with
      | inl next => exact ih next
      | inr a => exact pure a

end Preserves

/-! ### Total correctness -/

/-- A run that returns, and where. -/
abbrev Succeeds (x : EStateM ε σ α) (s : σ) (post : α → σ → Prop) : Prop :=
  WP x s post fun _ _ => False

namespace Succeeds

variable {x : EStateM ε σ α} {s : σ} {post : α → σ → Prop} {result : β → σ → Prop}

theorem of_run {a : α} {t : σ} (run : x.run s = .ok a t) (h : post a t) : Succeeds x s post :=
  (WP.ok_iff run).mpr h

theorem consequence {post' : α → σ → Prop} (h : Succeeds x s post)
    (weaken : ∀ a t, post a t → post' a t) : Succeeds x s post' :=
  h.mono weaken (fun _ _ hf => hf)

/-- What is known of every outcome is known of the one there is. -/
theorem and_always {always : α → σ → Prop} {fail : ε → σ → Prop} (h : Succeeds x s post)
    (h' : WP x s always fail) : Succeeds x s fun a t => post a t ∧ always a t :=
  (h.and h').mono (fun _ _ ht => ht) (fun _ _ ht => ht.1)

theorem bind {f : α → EStateM ε σ β} (first : Succeeds x s post)
    (second : ∀ a t, post a t → Succeeds (f a) t result) : Succeeds (x >>= f) s result :=
  WP.bind_iff.mpr (first.consequence second)

theorem bind_get {f : σ → EStateM ε σ β} (second : Succeeds (f s) s result) :
    Succeeds (get >>= f) s result :=
  WP.bind_iff.mpr (WP.get_iff.mpr second)

/-- A step whose run is known. -/
theorem bind_run {a : α} {t : σ} {f : α → EStateM ε σ β} (run : x.run s = .ok a t)
    (second : Succeeds (f a) t result) : Succeeds (x >>= f) s result :=
  WP.bind_iff.mpr (of_run run second)

/-- A computation whose result is known. -/
theorem bind_lift {y : Except ε α} {a : α} {f : α → EStateM ε σ β} (h : y = .ok a)
    (second : Succeeds (f a) s result) : Succeeds (lift y >>= f) s result := by
  subst h
  exact second

/-- The rule for a loop that passes over some items, meets what it waits for, and leaves in
the round behind. -/
theorem iterate_until {γ : Type} {exhausted : ε} {body : τ → EStateM ε σ (τ ⊕ α)} {waiting : τ}
    (inv : List γ → σ → Prop) (met : τ → σ → Prop)
    (pass : ∀ item items t, inv (item :: items) t →
      Succeeds (body waiting) t fun r u => r = .inl waiting ∧ inv items u)
    (meet : ∀ t, inv [] t → Succeeds (body waiting) t fun r u => ∃ v, r = .inl v ∧ met v u)
    (leave : ∀ v t, met v t → Succeeds (body v) t fun r u => ∃ a, r = .inr a ∧ post a u)
    {items : List γ} {rounds : Nat} (start : inv items s) (enough : items.length + 1 < rounds) :
    Succeeds (Control.iterate exhausted body rounds waiting) s post := by
  induction items generalizing s rounds with
  | nil =>
      obtain ⟨rounds, rfl⟩ : ∃ more, rounds = more + 2 := Nat.exists_eq_add_of_le' enough
      refine bind (meet s start) ?_
      rintro _ t ⟨v, rfl, ht⟩
      refine bind (leave v t ht) ?_
      rintro _ u ⟨a, rfl, hu⟩
      exact hu
  | cons item items ih =>
      obtain ⟨rounds, rfl⟩ : ∃ more, rounds = more + 1 :=
        Nat.exists_eq_add_of_le' (Nat.one_le_of_lt enough)
      refine bind (pass item items s start) ?_
      rintro _ t ⟨rfl, ht⟩
      exact ih ht (Nat.lt_of_succ_lt_succ enough)

/-! A branch that is known to be taken. -/

theorem ite_pos {c : Prop} [Decidable c] {y : EStateM ε σ α} (h : c) (first : Succeeds x s post) :
    Succeeds (if c then x else y) s post := by
  rw [if_pos h]
  exact first

theorem ite_neg {c : Prop} [Decidable c] {y : EStateM ε σ α} (h : ¬ c)
    (second : Succeeds y s post) : Succeeds (if c then x else y) s post := by
  rw [if_neg h]
  exact second

/-- A part that is not always run. -/
theorem bind_ite {c : Prop} [Decidable c] {x : EStateM ε σ Unit} {post : Unit → σ → Prop}
    {f : Unit → EStateM ε σ β} (first : Succeeds (if c then x else pure ()) s post)
    (second : ∀ t, post () t → Succeeds (f ()) t result) :
    Succeeds (if c then x >>= f else f ()) s result := by
  obtain ⟨hyes, hno⟩ := WP.ite_iff.mp first
  exact WP.ite_iff.mpr ⟨fun h => bind (hyes h) fun _ t ht => second t ht,
    fun h => second s (hno h)⟩

/-- A check that passes. -/
theorem bind_failIf {c : Prop} [Decidable c] {e : ε} {f : Unit → EStateM ε σ β} (h : ¬ c)
    (second : Succeeds (f ()) s result) : Succeeds (failIf c e >>= f) s result := by
  rw [failIf, if_neg h]
  exact second

end Succeeds

end Control

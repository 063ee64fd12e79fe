import SshClient.Control.WP

/-!
# Bytes, exceptions, and unsigned arithmetic

Byte vectors, text and fixed arrays of the client are all sequences of bytes here.
A call that does not return stops: with the text of a C++ exception, because a
system call has not completed yet, or because the code has reached an access or a
subtraction that the language gives no meaning (`fault`). The last outcome is not a
run-time check of the client. It makes a wrapped size or an index out of range
visible in the model, so that their absence is a theorem and not a convention.
-/

namespace SshClient

open Control

abbrev Bytes := List UInt8

/-- The bytes of an ASCII literal. -/
def ascii (text : String) : Bytes := text.toList.map fun c => UInt8.ofNat c.toNat

/-- Why a call did not return normally. -/
inductive Stop where
  | thrown (what : Bytes)
  | blocked
  | fault
  deriving DecidableEq, Repr

/-- `std::runtime_error` with a literal message. -/
def error (text : String) : Stop := .thrown (ascii text)

abbrev Exec (σ α : Type) := EStateM Stop σ α

section Machine

variable {σ : Type}

/-- An unsigned difference. Wrapping is reported instead of continuing with a
value near the top of the range. -/
def sizeSub (a b : Nat) : Exec σ Nat :=
  if b ≤ a then pure (a - b) else throw .fault

/-- An unchecked `bytes[i]`. -/
def byteAt (bytes : Bytes) (i : Nat) : Exec σ UInt8 :=
  match bytes[i]? with
  | some b => pure b
  | none => throw .fault

/-- Copy the range of `count` bytes that begins at `start`. -/
def copyRange (bytes : Bytes) (start count : Nat) : Exec σ Bytes :=
  if start + count ≤ bytes.length then pure ((bytes.drop start).take count) else throw .fault

variable {s : σ} {fail : Stop → σ → Prop}

@[simp] theorem wp_sizeSub {a b : Nat} {post : Nat → σ → Prop} :
    WP (sizeSub a b) s post fail ↔
      (b ≤ a → post (a - b) s) ∧ (¬ b ≤ a → fail .fault s) := by
  simp [sizeSub]

@[simp] theorem wp_byteAt {bytes : Bytes} {i : Nat} {post : UInt8 → σ → Prop} :
    WP (byteAt bytes i) s post fail ↔
      (∀ b, bytes[i]? = some b → post b s) ∧ (bytes[i]? = none → fail .fault s) := by
  unfold byteAt
  cases bytes[i]? <;> simp

@[simp] theorem wp_copyRange {bytes : Bytes} {start count : Nat} {post : Bytes → σ → Prop} :
    WP (copyRange bytes start count) s post fail ↔
      (start + count ≤ bytes.length → post ((bytes.drop start).take count) s) ∧
        (¬ start + count ≤ bytes.length → fail .fault s) := by
  simp [copyRange]

end Machine

section ThrowsOnly

variable {α β : Type}

/-- A pure computation that can fail only with an exception of the client. -/
def ThrowsOnly (x : Except Stop α) : Prop := ∀ e, x = .error e → ∃ what, e = .thrown what

@[simp] theorem throwsOnly_ok {a : α} : ThrowsOnly (.ok a) := by
  intro e h
  cases h

@[simp] theorem throwsOnly_pure {a : α} : ThrowsOnly (pure a) := throwsOnly_ok

@[simp] theorem throwsOnly_error {text : String} :
    ThrowsOnly (.error (error text) : Except Stop α) := by
  intro e h
  cases h
  exact ⟨_, rfl⟩

@[simp] theorem throwsOnly_failIf {c : Prop} [Decidable c] {text : String} :
    ThrowsOnly (failIf c (error text) : Except Stop Unit) := by
  intro e h
  unfold failIf at h
  split at h
  · cases h
    exact ⟨_, rfl⟩
  · cases h

theorem ThrowsOnly.bind {x : Except Stop α} {f : α → Except Stop β} (hx : ThrowsOnly x)
    (hf : ∀ a, ThrowsOnly (f a)) : ThrowsOnly (x >>= f) := by
  intro e h
  cases x with
  | ok a => exact hf a e h
  | error e' =>
      cases h
      exact hx e rfl

end ThrowsOnly

section Waits

variable {σ τ α : Type} {starved : σ → Prop} {x : Exec σ α}

/-- An exception of the client. -/
def Stop.Thrown (e : Stop) : Prop := ∃ what, e = .thrown what

@[simp] theorem Stop.thrown_thrown {what : Bytes} : (Stop.thrown what).Thrown := ⟨what, rfl⟩

/-- An exception, or a call of which the script has no result, as `starved` says. -/
def Halting (starved : σ → Prop) (e : Stop) (t : σ) : Prop := e.Thrown ∨ e = .blocked ∧ starved t

@[simp] theorem halting_thrown {what : Bytes} {t : σ} : Halting starved (.thrown what) t :=
  .inl Stop.thrown_thrown

theorem Halting.imp {starved' : τ → Prop} {e : Stop} {s : σ} {t : τ} (h : Halting starved e s)
    (weaken : starved s → starved' t) : Halting starved' e t :=
  h.imp_right fun ⟨blocked, hs⟩ => ⟨blocked, weaken hs⟩

/-- A program that stops only in these two ways. It never faults. -/
def Waits (starved : σ → Prop) (x : Exec σ α) : Prop :=
  ∀ s, WP x s (fun _ _ => True) (Halting starved)

/-- What is known of the waiting, when faults are excluded by other means. -/
theorem halting_of_wp {s : σ} {post : α → σ → Prop} (h : WP x s post (fun e _ => e ≠ .fault))
    (h' : WP x s (fun _ _ => True) (fun e t => e = .blocked → starved t)) :
    WP x s post (Halting starved) := by
  refine (h.and h').mono (fun _ _ ht => ht.1) ?_
  rintro e t ⟨hfault, hblocked⟩
  cases e with
  | thrown what => exact .inl Stop.thrown_thrown
  | blocked => exact .inr ⟨rfl, hblocked rfl⟩
  | fault => exact absurd rfl hfault

end Waits

end SshClient

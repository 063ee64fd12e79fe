import Mathlib.Data.List.Basic
import Mathlib.Tactic.NormNum

/-!
# Base64 text

The standard alphabet, with and without padding. The padded encoding is injective,
because the padding tells how many bytes the last group has.
-/

namespace Text.Base64

/-- The character of a value below 64. -/
def digit (n : Nat) : UInt8 :=
  if n < 26 then UInt8.ofNat (65 + n)
  else if n < 52 then UInt8.ofNat (97 + (n - 26))
  else if n < 62 then UInt8.ofNat (48 + (n - 52))
  else if n = 62 then 43
  else 47

def padding : UInt8 := 61

def encode : List UInt8 → List UInt8
  | [] => []
  | [a] => [digit (a.toNat / 4), digit (a.toNat % 4 * 16), padding, padding]
  | [a, b] => [digit (a.toNat / 4), digit (a.toNat % 4 * 16 + b.toNat / 16),
      digit (b.toNat % 16 * 4), padding]
  | a :: b :: c :: rest =>
      digit (a.toNat / 4) :: digit (a.toNat % 4 * 16 + b.toNat / 16) ::
        digit (b.toNat % 16 * 4 + c.toNat / 64) :: digit (c.toNat % 64) :: encode rest

def encodeNoPadding (bytes : List UInt8) : List UInt8 :=
  (encode bytes).filter (· ≠ padding)

theorem digit_injective {m n : Nat} (hm : m < 64) (hn : n < 64) (h : digit m = digit n) :
    m = n := by
  have table : ∀ i : Fin 64, ∀ j : Fin 64, digit i = digit j → i = j := by decide +kernel
  simpa using table ⟨m, hm⟩ ⟨n, hn⟩ h

theorem digit_ne_padding {n : Nat} (hn : n < 64) : digit n ≠ padding := by
  have table : ∀ i : Fin 64, digit i ≠ padding := by decide +kernel
  exact table ⟨n, hn⟩

/-- A property of all characters that occur holds of all characters of the text. -/
theorem forall_mem_encode {p : UInt8 → Prop} (hdigit : ∀ n < 64, p (digit n))
    (hpadding : p padding) (bytes : List UInt8) : ∀ c ∈ encode bytes, p c := by
  fun_induction encode bytes with
  | case1 => simp
  | case2 a =>
      have ha := a.toNat_lt
      simp only [List.forall_mem_cons]
      exact ⟨hdigit _ (by omega), hdigit _ (by omega), hpadding, hpadding, by simp⟩
  | case3 a b =>
      have ha := a.toNat_lt
      have hb := b.toNat_lt
      simp only [List.forall_mem_cons]
      exact ⟨hdigit _ (by omega), hdigit _ (by omega), hdigit _ (by omega), hpadding, by simp⟩
  | case4 a b c rest ih =>
      have ha := a.toNat_lt
      have hb := b.toNat_lt
      have hc := c.toNat_lt
      simp only [List.forall_mem_cons]
      exact ⟨hdigit _ (by omega), hdigit _ (by omega), hdigit _ (by omega),
        hdigit _ (by omega), ih⟩

theorem encode_ne_nil {bytes : List UInt8} (h : bytes ≠ []) : encode bytes ≠ [] := by
  match bytes, h with
  | [_], _ => simp [encode]
  | [_, _], _ => simp [encode]
  | _ :: _ :: _ :: _, _ => simp [encode]

theorem encode_injective : Function.Injective encode := by
  intro x y h
  fun_induction encode x generalizing y with
  | case1 =>
      by_contra hne
      exact encode_ne_nil (Ne.symm hne) h.symm
  | case2 a =>
      have ha := a.toNat_lt
      match y, h with
      | [a'], h =>
          have ha' := a'.toNat_lt
          simp only [encode, List.cons.injEq, and_true] at h
          have h1 := digit_injective (by omega) (by omega) h.1
          have h2 := digit_injective (by omega) (by omega) h.2
          rw [show a = a' from UInt8.toNat_inj.mp (by omega)]
      | [a', b'], h =>
          simp only [encode, List.cons.injEq] at h
          exact absurd h.2.2.1.symm (digit_ne_padding (by omega))
      | a' :: b' :: c' :: rest, h =>
          have hc' := c'.toNat_lt
          simp only [encode, List.cons.injEq] at h
          exact absurd h.2.2.2.1.symm (digit_ne_padding (by omega))
  | case3 a b =>
      have ha := a.toNat_lt
      have hb := b.toNat_lt
      match y, h with
      | [a'], h =>
          simp only [encode, List.cons.injEq] at h
          exact absurd h.2.2.1 (digit_ne_padding (by omega))
      | [a', b'], h =>
          have ha' := a'.toNat_lt
          have hb' := b'.toNat_lt
          simp only [encode, List.cons.injEq, and_true] at h
          have h1 := digit_injective (by omega) (by omega) h.1
          have h2 := digit_injective (by omega) (by omega) h.2.1
          have h3 := digit_injective (by omega) (by omega) h.2.2
          rw [show a = a' from UInt8.toNat_inj.mp (by omega),
            show b = b' from UInt8.toNat_inj.mp (by omega)]
      | a' :: b' :: c' :: rest, h =>
          have hc' := c'.toNat_lt
          simp only [encode, List.cons.injEq] at h
          exact absurd h.2.2.2.1.symm (digit_ne_padding (by omega))
  | case4 a b c rest ih =>
      have ha := a.toNat_lt
      have hb := b.toNat_lt
      have hc := c.toNat_lt
      match y, h with
      | [a'], h =>
          simp only [encode, List.cons.injEq] at h
          exact absurd h.2.2.2.1 (digit_ne_padding (by omega))
      | [a', b'], h =>
          simp only [encode, List.cons.injEq] at h
          exact absurd h.2.2.2.1 (digit_ne_padding (by omega))
      | a' :: b' :: c' :: rest', h =>
          have ha' := a'.toNat_lt
          have hb' := b'.toNat_lt
          have hc' := c'.toNat_lt
          simp only [encode, List.cons.injEq] at h
          have h1 := digit_injective (by omega) (by omega) h.1
          have h2 := digit_injective (by omega) (by omega) h.2.1
          have h3 := digit_injective (by omega) (by omega) h.2.2.1
          have h4 := digit_injective (by omega) (by omega) h.2.2.2.1
          rw [show a = a' from UInt8.toNat_inj.mp (by omega),
            show b = b' from UInt8.toNat_inj.mp (by omega),
            show c = c' from UInt8.toNat_inj.mp (by omega), ih h.2.2.2.2]

example : encode [77, 97, 110, 77] = [84, 87, 70, 117, 84, 81, 61, 61] := by decide

end Text.Base64

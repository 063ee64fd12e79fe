import Mathlib.Tactic.Ring
import Mathlib.Data.Int.Init

/-!
# Byte strings as integers

A byte string, most significant byte first, as an unsigned integer and as one in two's
complement. A nonnegative integer has one shortest string in two's complement, and a
string is that one when it does not have a byte too many for its value.
-/

namespace Number

variable {bytes other : List UInt8} {n : Nat}

def unsigned (bytes : List UInt8) : Nat :=
  bytes.foldl (fun value byte => value * 256 + byte.toNat) 0

/-- The top bit of the first byte is set. -/
def negative : List UInt8 → Bool
  | [] => false
  | byte :: _ => 128 ≤ byte.toNat

def signed (bytes : List UInt8) : Int :=
  if negative bytes then (unsigned bytes : Int) - 256 ^ bytes.length else unsigned bytes

@[simp] theorem unsigned_nil : unsigned [] = 0 := rfl

theorem unsigned_cons (byte : UInt8) (bytes : List UInt8) :
    unsigned (byte :: bytes) = byte.toNat * 256 ^ bytes.length + unsigned bytes := by
  have hfold : ∀ (bytes : List UInt8) (value : Nat),
      bytes.foldl (fun value byte => value * 256 + byte.toNat) value =
        value * 256 ^ bytes.length + unsigned bytes := by
    intro bytes
    induction bytes with
    | nil => simp
    | cons b bs ih =>
        intro value
        have hzero := ih b.toNat
        simp only [unsigned, List.foldl_cons, Nat.zero_mul, Nat.zero_add] at hzero ⊢
        rw [ih, hzero, List.length_cons, Nat.pow_succ, unsigned]
        ring
  have h := hfold bytes byte.toNat
  simp only [unsigned, List.foldl_cons, Nat.zero_mul, Nat.zero_add]
  exact h

theorem unsigned_lt (bytes : List UInt8) : unsigned bytes < 256 ^ bytes.length := by
  induction bytes with
  | nil => decide
  | cons byte bytes ih =>
      have hbyte : byte.toNat + 1 ≤ 256 := byte.toNat_lt
      rw [unsigned_cons, List.length_cons, Nat.pow_succ]
      calc byte.toNat * 256 ^ bytes.length + unsigned bytes
          < byte.toNat * 256 ^ bytes.length + 256 ^ bytes.length := by omega
        _ = (byte.toNat + 1) * 256 ^ bytes.length := by ring
        _ ≤ 256 * 256 ^ bytes.length := Nat.mul_le_mul_right _ hbyte
        _ = 256 ^ bytes.length * 256 := Nat.mul_comm _ _

/-- Strings of the same length have different values. -/
theorem unsigned_inj (hlen : bytes.length = other.length) (h : unsigned bytes = unsigned other) :
    bytes = other := by
  induction bytes generalizing other with
  | nil => exact (List.length_eq_zero_iff.mp hlen.symm).symm
  | cons byte bytes ih =>
      cases other with
      | nil => simp at hlen
      | cons byte' other =>
          have hlen : bytes.length = other.length := by simpa using hlen
          rw [unsigned_cons, unsigned_cons, hlen] at h
          have h1 := unsigned_lt bytes
          have h2 := unsigned_lt other
          rw [hlen] at h1
          have hpos : 0 < 256 ^ other.length := Nat.pow_pos (by decide)
          have hdiv := congrArg (· / 256 ^ other.length) h
          have hmod := congrArg (· % 256 ^ other.length) h
          simp only [Nat.mul_comm _ (256 ^ other.length), Nat.mul_add_div hpos, Nat.div_eq_of_lt h1,
            Nat.div_eq_of_lt h2, Nat.mul_add_mod, Nat.mod_eq_of_lt h1, Nat.mod_eq_of_lt h2,
            Nat.add_zero] at hdiv hmod
          rw [UInt8.toNat_inj.mp hdiv, ih hlen hmod]

/-- A string that is not negative uses less than half of its range. -/
theorem two_mul_unsigned_lt (h : negative bytes = false) :
    2 * unsigned bytes < 256 ^ bytes.length := by
  cases bytes with
  | nil => decide
  | cons byte bytes =>
      have hlt := unsigned_lt bytes
      have hbyte : byte.toNat + 1 ≤ 128 := by
        simp only [negative, decide_eq_false_iff_not] at h
        omega
      rw [unsigned_cons, List.length_cons, Nat.pow_succ]
      calc 2 * (byte.toNat * 256 ^ bytes.length + unsigned bytes)
          < 2 * (byte.toNat * 256 ^ bytes.length + 256 ^ bytes.length) := by omega
        _ = 2 * ((byte.toNat + 1) * 256 ^ bytes.length) := by ring
        _ ≤ 2 * (128 * 256 ^ bytes.length) :=
            Nat.mul_le_mul_left _ (Nat.mul_le_mul_right _ hbyte)
        _ = 256 ^ bytes.length * 256 := by ring

theorem signed_eq_natCast : signed bytes = n ↔ negative bytes = false ∧ unsigned bytes = n := by
  unfold signed
  cases hneg : negative bytes with
  | false => simp
  | true =>
      have hlt := unsigned_lt bytes
      have hlt : (unsigned bytes : Int) < 256 ^ bytes.length := by exact_mod_cast hlt
      simp only [if_true, reduceCtorEq, false_and, iff_false]
      omega

/-- A string that is empty, or one byte shorter than which the value does not fit, is the
only shortest one. -/
theorem shortest (h : signed bytes = n)
    (hfull : bytes = [] ∨ 256 ^ (bytes.length - 1) ≤ 2 * n) (hother : signed other = n) :
    bytes.length ≤ other.length ∧ (other.length = bytes.length → other = bytes) := by
  obtain ⟨hneg, hvalue⟩ := signed_eq_natCast.mp h
  obtain ⟨hneg', hvalue'⟩ := signed_eq_natCast.mp hother
  refine ⟨?_, fun hlen => unsigned_inj hlen (hvalue'.trans hvalue.symm)⟩
  obtain rfl | hfull := hfull
  · exact Nat.zero_le _
  · have hlt := two_mul_unsigned_lt hneg'
    rw [hvalue'] at hlt
    have := (Nat.pow_lt_pow_iff_right (by decide)).mp (Nat.lt_of_le_of_lt hfull hlt)
    omega

/-- Leading zeros do not change the value. -/
theorem unsigned_dropWhile_zero (bytes : List UInt8) :
    unsigned (bytes.dropWhile (· = 0)) = unsigned bytes := by
  induction bytes with
  | nil => rfl
  | cons byte bytes ih =>
      by_cases hbyte : byte = 0
      · rw [List.dropWhile_cons_of_pos (by simpa using hbyte), ih, unsigned_cons, hbyte]
        simp
      · rw [List.dropWhile_cons_of_neg (by simpa using hbyte)]

end Number

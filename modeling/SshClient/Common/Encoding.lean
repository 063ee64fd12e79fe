import SshClient.Basic
import Mathlib.Data.Nat.Bitwise
import Mathlib.Data.List.Basic

/-!
# Big-endian integers and length-prefixed strings

`encodeUint32` and `decodeUint32` are the network-order codec, `appendString` and
`readString` the length-prefixed one. The readers move a cursor, which is the state
of their program, and leave it where it stood at the point of a throw.

Each reader has one equivalence. Reading at `p` succeeds with the cursor at `q`
exactly when the bytes from `p` are the encoding of the result followed by the bytes
from `q`. Parsers of whole messages chain these equations of suffixes.
-/

namespace SshClient

open Control

/-- Number of bytes in an SSH uint32 value. -/
def uint32Bytes : Nat := 4

def encodeUint32 (value : UInt32) : Bytes :=
  (List.range uint32Bytes).map fun i =>
    (value >>> UInt32.ofNat ((uint32Bytes - 1 - i) * 8)).toUInt8

def decodeUint32 (bytes : Bytes) : UInt32 :=
  bytes.foldl (fun value byte => (value <<< 8) ||| byte.toUInt32) 0

/-- The bytes that `appendString` adds for a value that fits. -/
def encodeString (value : Bytes) : Bytes :=
  encodeUint32 (UInt32.ofNat value.length) ++ value

def appendString (destination value : Bytes) : Except Stop Bytes :=
  if value.length > 4294967295 then .error (error "SSH string is too long")
  else .ok (destination ++ encodeUint32 (UInt32.ofNat value.length) ++ value)

def readString (payload : Bytes) : Exec Nat Bytes := do
  let position ← get
  failIf (position > payload.length) (error "Expected SSH string length")
  let remaining ← sizeSub payload.length position
  failIf (remaining < uint32Bytes) (error "Expected SSH string length")
  let lengthBytes ← copyRange payload position uint32Bytes
  let length := (decodeUint32 lengthBytes).toNat
  set (position + uint32Bytes)
  let position ← get
  failIf (position > payload.length) (error "Expected SSH string bytes")
  let remaining ← sizeSub payload.length position
  failIf (remaining < length) (error "Expected SSH string bytes")
  let result ← copyRange payload position length
  set (position + length)
  return result

def readUint32 (payload : Bytes) : Exec Nat UInt32 := do
  let position ← get
  failIf (position > payload.length) (error "No bytes remain")
  let remaining ← sizeSub payload.length position
  failIf (remaining < uint32Bytes) (error "Expected 4 bytes")
  let bytes ← copyRange payload position uint32Bytes
  set (position + uint32Bytes)
  return decodeUint32 bytes

/-! ### The integer codec -/

theorem encodeUint32_eq (value : UInt32) :
    encodeUint32 value = [(value >>> 24).toUInt8, (value >>> 16).toUInt8,
      (value >>> 8).toUInt8, value.toUInt8] := by
  have h0 : value >>> 0 = value := by
    apply UInt32.toNat_inj.mp
    simp
  simp [encodeUint32, uint32Bytes, List.range_succ, h0]

@[simp] theorem encodeUint32_length (value : UInt32) : (encodeUint32 value).length = 4 := by
  simp [encodeUint32, uint32Bytes]

/-- One round of the decoder shifts the value by a byte and puts the new byte below. -/
private theorem shift_or_toNat (value : UInt32) (byte : UInt8) :
    ((value <<< 8) ||| byte.toUInt32).toNat = value.toNat * 256 % 4294967296 + byte.toNat := by
  have hb : byte.toNat < 2 ^ 8 := byte.toNat_lt
  have hv : value.toNat * 256 % 4294967296 = (value.toNat % 16777216) <<< 8 := by
    rw [Nat.shiftLeft_eq]
    omega
  have hs : (value <<< 8).toNat = value.toNat * 256 % 4294967296 := by
    rw [UInt32.toNat_shiftLeft]
    simp [Nat.shiftLeft_eq]
  rw [UInt32.toNat_or, hs, hv, UInt8.toNat_toUInt32, ← Nat.shiftLeft_add_eq_or_of_lt hb]

theorem decodeUint32_toNat (a b c d : UInt8) :
    (decodeUint32 [a, b, c, d]).toNat =
      a.toNat * 16777216 + b.toNat * 65536 + c.toNat * 256 + d.toNat := by
  have ha := a.toNat_lt
  have hb := b.toNat_lt
  have hc := c.toNat_lt
  simp only [decodeUint32, List.foldl_cons, List.foldl_nil, shift_or_toNat, UInt32.toNat_zero]
  omega

@[simp] theorem decodeUint32_encodeUint32 (value : UInt32) :
    decodeUint32 (encodeUint32 value) = value := by
  apply UInt32.toNat_inj.mp
  have hv := value.toNat_lt
  rw [encodeUint32_eq, decodeUint32_toNat]
  simp only [UInt32.toNat_toUInt8, UInt32.toNat_shiftRight, Nat.shiftRight_eq_div_pow,
    UInt32.reduceToNat, Nat.reduceMod, Nat.reducePow]
  omega

theorem encodeUint32_decodeUint32 {bytes : Bytes} (h : bytes.length = 4) :
    encodeUint32 (decodeUint32 bytes) = bytes := by
  match bytes, h with
  | [a, b, c, d], _ =>
      have ha := a.toNat_lt
      have hb := b.toNat_lt
      have hc := c.toNat_lt
      have hd := d.toNat_lt
      rw [encodeUint32_eq]
      simp only [List.cons.injEq, and_true, ← UInt8.toNat_inj, UInt32.toNat_toUInt8,
        UInt32.toNat_shiftRight, Nat.shiftRight_eq_div_pow, decodeUint32_toNat,
        UInt32.reduceToNat, Nat.reduceMod, Nat.reducePow]
      omega

theorem encodeUint32_injective : Function.Injective encodeUint32 :=
  Function.LeftInverse.injective decodeUint32_encodeUint32

@[simp] theorem encodeString_length (value : Bytes) :
    (encodeString value).length = 4 + value.length := by
  simp [encodeString]

theorem appendString_ok {destination value result : Bytes} :
    appendString destination value = .ok result ↔
      value.length < 4294967296 ∧ result = destination ++ encodeString value := by
  unfold appendString encodeString
  split
  · simp only [reduceCtorEq, false_iff, not_and]
    omega
  · simp only [Except.ok.injEq, List.append_assoc]
    constructor
    · rintro rfl
      exact ⟨by omega, rfl⟩
    · rintro ⟨_, rfl⟩
      rfl

/-! ### The readers -/

variable {payload : Bytes} {p : Nat} {fail : Stop → Nat → Prop}

/-- The number found by a parser is the first byte of the payload it goes on with. -/
theorem eq_cons_drop_one {number : UInt8} (h : ¬ payload.head? ≠ some number) :
    payload = number :: payload.drop 1 := by
  cases payload with
  | nil => simp at h
  | cons b bs =>
      simp only [List.head?_cons, ne_eq, Option.some.injEq, Decidable.not_not] at h
      simp [h]

theorem drop_eq_nil_of_end (h : ¬ p ≠ payload.length) : payload.drop p = [] := by
  rw [Decidable.not_not.mp h, List.drop_length]

theorem drop_eq_getElem_cons {b : UInt8} (h : payload[p]? = some b) :
    payload.drop p = b :: payload.drop (p + 1) := by
  obtain ⟨hlt, rfl⟩ := List.getElem?_eq_some_iff.mp h
  exact List.drop_eq_getElem_cons hlt

/-- Four bytes at the cursor are the encoding of the value they decode to. -/
theorem drop_eq_encodeUint32 (h : p + 4 ≤ payload.length) :
    payload.drop p =
      encodeUint32 (decodeUint32 ((payload.drop p).take 4)) ++ payload.drop (p + 4) := by
  have h4 : ((payload.drop p).take 4).length = 4 := by
    rw [List.length_take, List.length_drop]
    omega
  rw [encodeUint32_decodeUint32 h4, ← List.drop_drop, List.take_append_drop]

theorem wp_readUint32 {post : UInt32 → Nat → Prop}
    (ok : ∀ value, p + 4 ≤ payload.length →
      payload.drop p = encodeUint32 value ++ payload.drop (p + 4) → post value (p + 4))
    (short : ∀ what, payload.length < p + 4 → fail (.thrown what) p) :
    WP (readUint32 payload) p post fail := by
  simp only [readUint32, WP.bind_iff, WP.get_iff, WP.failIf_iff, wp_sizeSub, wp_copyRange,
    WP.set_iff, WP.pure_iff]
  simp only [uint32Bytes]
  refine ⟨fun _ => short _ (by omega), fun hp => ⟨fun _ => ⟨fun _ => short _ (by omega),
    fun hr => ⟨fun h4 => ?_, fun h4 => absurd ?_ h4⟩⟩, fun hn => absurd ?_ hn⟩⟩
  · exact ok _ h4 (drop_eq_encodeUint32 h4)
  · omega
  · omega

/-- No string of the length announced at the cursor is left in the payload. -/
def NoString (payload : Bytes) (p : Nat) : Prop :=
  ∀ value rest, value.length < 4294967296 → payload.drop p ≠ encodeString value ++ rest

private theorem noString_of_short (h : payload.length < p + 4) : NoString payload p := by
  intro value rest _ heq
  have hlen := congrArg List.length heq
  simp only [List.length_drop, List.length_append, encodeString_length] at hlen
  omega

private theorem noString_of_long
    (h : payload.length - (p + 4) < (decodeUint32 ((payload.drop p).take 4)).toNat) :
    NoString payload p := by
  intro value rest hlt heq
  have hlen := congrArg List.length heq
  simp only [List.length_drop, List.length_append, encodeString_length] at hlen
  have htake : (payload.drop p).take 4 = encodeUint32 (UInt32.ofNat value.length) := by
    rw [heq, encodeString, List.append_assoc,
      List.take_left' (encodeUint32_length (UInt32.ofNat value.length))]
  rw [htake, decodeUint32_encodeUint32, UInt32.toNat_ofNat_of_lt' hlt] at h
  omega

theorem wp_readString {post : Bytes → Nat → Prop}
    (ok : ∀ value, value.length < 4294967296 → p + 4 + value.length ≤ payload.length →
      payload.drop p = encodeString value ++ payload.drop (p + 4 + value.length) →
      post value (p + 4 + value.length))
    (short : ∀ what q, q = p ∨ q = p + 4 → NoString payload p → fail (.thrown what) q) :
    WP (readString payload) p post fail := by
  simp only [readString, WP.bind_iff, WP.get_iff, WP.failIf_iff, wp_sizeSub, wp_copyRange,
    WP.set_iff, WP.pure_iff]
  simp only [uint32Bytes]
  have early : ∀ what, payload.length < p + 4 → fail (.thrown what) p :=
    fun what h => short what p (.inl rfl) (noString_of_short h)
  refine ⟨fun _ => early _ (by omega), fun hp => ⟨fun _ => ⟨fun _ => early _ (by omega),
    fun hr => ⟨fun h4 => ?_, fun h4 => absurd ?_ h4⟩⟩, fun hn => absurd ?_ hn⟩⟩
  · refine ⟨fun h => absurd h (by omega), fun hq => ⟨fun _ =>
      ⟨fun hlong => short _ _ (.inr rfl) (noString_of_long hlong), fun hl =>
        ⟨fun hfit => ?_, fun hn => absurd ?_ hn⟩⟩, fun hn => absurd ?_ hn⟩⟩
    · have hlen := UInt32.toNat_lt (decodeUint32 ((payload.drop p).take 4))
      set value := (payload.drop (p + 4)).take
        (decodeUint32 ((payload.drop p).take 4)).toNat with hvalue
      have hvl : value.length = (decodeUint32 ((payload.drop p).take 4)).toNat := by
        rw [hvalue, List.length_take, List.length_drop]
        omega
      rw [← hvl]
      refine ok value (by omega) (by omega) ?_
      rw [encodeString, hvl, UInt32.ofNat_toNat, List.append_assoc, ← List.drop_drop, hvalue,
        List.take_append_drop]
      exact drop_eq_encodeUint32 h4
    · omega
    · omega
  · omega
  · omega

/-- A uint32 at the cursor is read back. -/
theorem readUint32_of_drop {value : UInt32} {rest : Bytes}
    (h : payload.drop p = encodeUint32 value ++ rest) :
    (readUint32 payload).run p = .ok value (p + 4) ∧ payload.drop (p + 4) = rest := by
  have hlen := congrArg List.length h
  simp only [List.length_drop, List.length_append, encodeUint32_length] at hlen
  have hrest : payload.drop (p + 4) = rest := by
    rw [← List.drop_drop, h]
    simp
  refine ⟨WP.run_eq (wp_readUint32 (fun v _ hv => ⟨?_, rfl⟩) (fun _ hs => by omega)), hrest⟩
  rw [h, hrest] at hv
  exact (encodeUint32_injective (List.append_cancel_right hv)).symm

/-- Two strings at the same place are equal, whatever follows them. -/
theorem encodeString_append_inj {v v' r r' : Bytes} (hv : v.length < 4294967296)
    (hv' : v'.length < 4294967296) (h : encodeString v ++ r = encodeString v' ++ r') :
    v = v' ∧ r = r' := by
  simp only [encodeString, List.append_assoc] at h
  obtain ⟨hl, hr⟩ := List.append_inj h (by simp)
  have hlen : v.length = v'.length := by
    have := congrArg UInt32.toNat (encodeUint32_injective hl)
    rwa [UInt32.toNat_ofNat_of_lt' hv, UInt32.toNat_ofNat_of_lt' hv'] at this
  exact List.append_inj hr hlen

/-- A sequence of strings determines each of them, and what follows, once their number is
known. -/
theorem flatMap_encodeString_inj {vs vs' : List Bytes} {r r' : Bytes}
    (count : vs.length = vs'.length) (hvs : ∀ v ∈ vs, v.length < 4294967296)
    (hvs' : ∀ v ∈ vs', v.length < 4294967296)
    (h : vs.flatMap encodeString ++ r = vs'.flatMap encodeString ++ r') :
    vs = vs' ∧ r = r' := by
  induction vs generalizing vs' with
  | nil =>
      obtain rfl := List.length_eq_zero_iff.mp count.symm
      exact ⟨rfl, h⟩
  | cons v vs ih =>
      cases vs' with
      | nil => simp at count
      | cons v' vs' =>
          simp only [List.flatMap_cons, List.append_assoc] at h
          obtain ⟨rfl, htail⟩ := encodeString_append_inj (hvs v List.mem_cons_self)
            (hvs' v' List.mem_cons_self) h
          obtain ⟨rfl, hr⟩ := ih (Nat.succ.inj count)
            (fun u hu => hvs u (List.mem_cons_of_mem _ hu))
            (fun u hu => hvs' u (List.mem_cons_of_mem _ hu)) htail
          exact ⟨rfl, hr⟩

/-- A string at the cursor is read back, whatever follows it. -/
theorem readString_of_drop {value rest : Bytes} (hlt : value.length < 4294967296)
    (h : payload.drop p = encodeString value ++ rest) :
    (readString payload).run p = .ok value (p + 4 + value.length) ∧
      payload.drop (p + 4 + value.length) = rest := by
  have hrest : payload.drop (p + 4 + value.length) = rest := by
    rw [Nat.add_assoc, ← List.drop_drop, h, List.drop_left' (encodeString_length value)]
  refine ⟨WP.run_eq (wp_readString (fun v hv _ hd => ?_) (fun _ _ _ hn => hn _ _ hlt h)), hrest⟩
  obtain ⟨rfl, -⟩ := encodeString_append_inj hv hlt (hd.symm.trans h)
  exact ⟨rfl, rfl⟩

end SshClient

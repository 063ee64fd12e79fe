import SshClient.Kex.Formats
import SshClient.Transport.Basic

/-!
# The copies of the field codec

Strings and integers are read and written at any position of a buffer, and the readers and
writers that the key exchange and the transport have of their own agree with the common
ones. The texts of the exceptions differ between the copies; when they are thrown does not.
-/

namespace SshClient

open Control

variable {payload : Bytes} {p : Nat}

/-- What the four bytes at the cursor announce. -/
def announced (payload : Bytes) (p : Nat) : Nat := (decodeUint32 ((payload.drop p).take 4)).toNat

/-- The bytes between two cursors. -/
def between (payload : Bytes) (p q : Nat) : Bytes := (payload.drop p).take (q - p)

theorem between_of_drop {bytes : Bytes} {q : Nat} (h : payload.drop p = bytes ++ payload.drop q)
    (hq : q = p + bytes.length) : between payload p q = bytes := by
  rw [between, h, hq, Nat.add_sub_cancel_left, List.take_left]

theorem announced_of_drop {value rest : Bytes} (hlt : value.length < 4294967296)
    (h : payload.drop p = encodeString value ++ rest) : announced payload p = value.length := by
  rw [announced, h, encodeString, List.append_assoc, List.take_left' (encodeUint32_length _),
    decodeUint32_encodeUint32, UInt32.toNat_ofNat_of_lt' hlt]

/-- A string of the announced length that is there. -/
theorem exists_string (h : p + 4 + announced payload p ≤ payload.length) :
    ¬ NoString payload p := by
  intro hno
  have hlt : announced payload p < 4294967296 := UInt32.toNat_lt _
  have hlen : ((payload.drop (p + 4)).take (announced payload p)).length = announced payload p := by
    rw [List.length_take, List.length_drop]
    omega
  refine hno ((payload.drop (p + 4)).take (announced payload p))
    ((payload.drop (p + 4)).drop (announced payload p)) (by omega) ?_
  rw [encodeString, hlen, List.append_assoc, List.take_append_drop, announced, UInt32.ofNat_toNat]
  exact drop_eq_encodeUint32 (by omega)

/-- `readString` reads the bytes of a string and stops behind them, or throws because they
are not all there. -/
theorem readString_exact (payload : Bytes) (p : Nat) :
    (∀ value q, (readString payload).run p = .ok value q →
      appendString [] value = .ok (between payload p q) ∧ q = p + 4 + value.length ∧
        q ≤ payload.length) ∧
    ((∃ what q, (readString payload).run p = .error (.thrown what) q) ↔
      payload.length < p + 4 ∨ payload.length < p + 4 + announced payload p) ∧
    ∀ e q, (readString payload).run p = .error e q → ∃ what, e = .thrown what := by
  have spec : WP (readString payload) p
      (fun value q => value.length < 4294967296 ∧ q = p + 4 + value.length ∧ q ≤ payload.length ∧
        payload.drop p = encodeString value ++ payload.drop q)
      (fun e _ => (∃ what, e = .thrown what) ∧ NoString payload p) :=
    wp_readString (fun value hlt hle hdrop => ⟨hlt, rfl, hle, hdrop⟩)
      (fun what _ _ hno => ⟨⟨what, rfl⟩, hno⟩)
  refine ⟨fun value q run => ?_, ⟨?_, ?_⟩, fun e q run => (spec.of_error run).1⟩
  · obtain ⟨hlt, hq, hle, hdrop⟩ := spec.of_ok run
    refine ⟨appendString_ok.mpr ⟨hlt, between_of_drop hdrop ?_⟩, hq, hle⟩
    rw [List.nil_append, encodeString_length]
    omega
  · rintro ⟨what, q, run⟩
    by_contra hroom
    exact exists_string (by omega) (spec.of_error run).2
  · intro hshort
    cases run : (readString payload).run p with
    | ok value q =>
        obtain ⟨hlt, hq, hle, hdrop⟩ := spec.of_ok run
        rw [announced_of_drop hlt hdrop] at hshort
        omega
    | error e q =>
        obtain ⟨⟨what, rfl⟩, -⟩ := spec.of_error run
        exact ⟨what, q, rfl⟩

theorem readUint32_exact (payload : Bytes) (p : Nat) :
    (∀ value q, (readUint32 payload).run p = .ok value q →
      encodeUint32 value = between payload p q ∧ q = p + 4 ∧ q ≤ payload.length) ∧
    ((∃ what q, (readUint32 payload).run p = .error (.thrown what) q) ↔
      payload.length < p + 4) ∧
    ∀ e q, (readUint32 payload).run p = .error e q → ∃ what, e = .thrown what := by
  have spec : WP (readUint32 payload) p
      (fun value q => q = p + 4 ∧ q ≤ payload.length ∧
        payload.drop p = encodeUint32 value ++ payload.drop q)
      (fun e _ => (∃ what, e = .thrown what) ∧ payload.length < p + 4) :=
    wp_readUint32 (fun value hle hdrop => ⟨rfl, hle, hdrop⟩)
      (fun what hshort => ⟨⟨what, rfl⟩, hshort⟩)
  refine ⟨fun value q run => ?_, ⟨?_, ?_⟩, fun e q run => (spec.of_error run).1⟩
  · obtain ⟨hq, hle, hdrop⟩ := spec.of_ok run
    exact ⟨(between_of_drop hdrop (by rw [encodeUint32_length]; exact hq)).symm, hq, hle⟩
  · rintro ⟨what, q, run⟩
    exact (spec.of_error run).2
  · intro hshort
    cases run : (readUint32 payload).run p with
    | ok value q =>
        obtain ⟨hq, hle, -⟩ := spec.of_ok run
        omega
    | error e q =>
        obtain ⟨⟨what, rfl⟩, -⟩ := spec.of_error run
        exact ⟨what, q, rfl⟩

/-- A string that is appended is read back at the position where it was appended. -/
theorem readString_appendString (front value back : Bytes) (hlt : value.length < 4294967296) :
    ∃ bytes, appendString front value = .ok bytes ∧
      (readString (bytes ++ back)).run front.length =
        .ok value (front.length + 4 + value.length) := by
  refine ⟨front ++ encodeString value, appendString_ok.mpr ⟨hlt, rfl⟩, ?_⟩
  have hdrop : (front ++ encodeString value ++ back).drop front.length =
      encodeString value ++ back := by
    rw [List.append_assoc, List.drop_left]
  exact (readString_of_drop hlt hdrop).1

/-- The reader of name-lists returns, throws and moves the cursor as `readString` does. -/
theorem readNameList_agrees (payload : Bytes) (p : Nat) :
    (∀ value q, (Kex.readNameList payload).run p = .ok value q ↔
      (readString payload).run p = .ok value q) ∧
    ∀ q, (∃ what, (Kex.readNameList payload).run p = .error (.thrown what) q) ↔
      ∃ what, (readString payload).run p = .error (.thrown what) q := by
  have same := Kex.readNameList_sameOutcome payload p
  unfold Kex.SameOutcome at same
  cases run : (Kex.readNameList payload).run p with
  | ok value q =>
      obtain ⟨_, _, run', rfl, rfl⟩ := (same.of_ok run).exists_ok
      rw [run']
      simp
  | error e q =>
      obtain ⟨⟨what, rfl⟩, hthrown⟩ := same.of_error run
      obtain ⟨_, _, run', ⟨what', rfl⟩, rfl⟩ := hthrown.exists_error
      rw [run']
      simp

theorem appendNameList_agrees (payload list : Bytes) :
    (∀ bytes, Kex.appendNameList payload list = .ok bytes ↔
      appendString payload list = .ok bytes) ∧
    ((∃ what, Kex.appendNameList payload list = .error (.thrown what)) ↔
      ∃ what, appendString payload list = .error (.thrown what)) := by
  unfold Kex.appendNameList appendString
  split <;> simp [error]

/-- The codecs of fields are inverse to each other at every position, and the readers and
writers of the key exchange and of the transport are the common ones. -/
theorem field_codecs_inverse_and_agree :
    (∀ front value back : Bytes, value.length < 4294967296 →
      ∃ bytes, appendString front value = .ok bytes ∧
        (readString (bytes ++ back)).run front.length =
          .ok value (front.length + 4 + value.length)) ∧
    (∀ (payload : Bytes) (p : Nat),
      ((∀ value q, (readString payload).run p = .ok value q →
          appendString [] value = .ok (between payload p q) ∧ q = p + 4 + value.length ∧
            q ≤ payload.length) ∧
        ((∃ what q, (readString payload).run p = .error (.thrown what) q) ↔
          payload.length < p + 4 ∨ payload.length < p + 4 + announced payload p) ∧
        ∀ e q, (readString payload).run p = .error e q → ∃ what, e = .thrown what) ∧
      ((∀ value q, (readUint32 payload).run p = .ok value q →
          encodeUint32 value = between payload p q ∧ q = p + 4 ∧ q ≤ payload.length) ∧
        ((∃ what q, (readUint32 payload).run p = .error (.thrown what) q) ↔
          payload.length < p + 4) ∧
        ∀ e q, (readUint32 payload).run p = .error e q → ∃ what, e = .thrown what) ∧
      (∀ value q, (Kex.readNameList payload).run p = .ok value q ↔
        (readString payload).run p = .ok value q) ∧
      ∀ q, (∃ what, (Kex.readNameList payload).run p = .error (.thrown what) q) ↔
        ∃ what, (readString payload).run p = .error (.thrown what) q) ∧
    (∀ payload list : Bytes,
      (∀ bytes, Kex.appendNameList payload list = .ok bytes ↔
        appendString payload list = .ok bytes) ∧
      ((∃ what, Kex.appendNameList payload list = .error (.thrown what)) ↔
        ∃ what, appendString payload list = .error (.thrown what))) ∧
    (∀ lengthBytes, Transport.decodePacketLength lengthBytes = decodeUint32 lengthBytes) ∧
    ∀ packetLength, Transport.encodePacketLength packetLength = encodeUint32 packetLength :=
  ⟨readString_appendString,
    fun payload p =>
      ⟨readString_exact payload p, readUint32_exact payload p, readNameList_agrees payload p⟩,
    appendNameList_agrees, Transport.decodePacketLength_eq, Transport.encodePacketLength_eq⟩

end SshClient

import SshClient.Transport.RoundTrip

/-!
# Nothing but what the peer has authenticated is received

The attacker writes the stream. All that stands against it is the tag of each packet,
which covers the sequence number and the plaintext. If a tag is only found right for a
pair for which the peer has computed it, and the peer has computed fewer than 2^32 of
them, then the payloads returned are those of the peer, from the first one on and in its
order.

The tag is computed before the packet is written, and the sequence number moves only
when the write has succeeded. The payload of a call that threw in between counts as one
that was authenticated, and the number is then used again by the next call.
-/

namespace SshClient.Transport

open Control

/-! ### Numbered messages -/

section Numbered

variable {α : Type}

/-- Messages with consecutive 32-bit numbers. -/
def numbered (start : UInt32) (messages : List α) : List (UInt32 × α) :=
  messages.mapIdx fun i m => (start + UInt32.ofNat i, m)

theorem numbered_cons (start : UInt32) (m : α) (messages : List α) :
    numbered start (m :: messages) = (start, m) :: numbered (start + 1) messages := by
  simp only [numbered, List.mapIdx_cons]
  congr 2
  · simp
  · funext i m
    rw [UInt32.ofNat_add, UInt32.add_assoc, UInt32.add_comm (UInt32.ofNat i)]
    rfl

theorem mem_numbered {start n : UInt32} {m : α} {messages : List α} :
    (n, m) ∈ numbered start messages ↔
      ∃ i, messages[i]? = some m ∧ n = start + UInt32.ofNat i := by
  simp only [numbered, List.mem_iff_getElem?, List.getElem?_mapIdx, Option.map_eq_some_iff,
    Prod.mk.injEq]
  constructor
  · rintro ⟨i, m', hm, rfl, rfl⟩
    exact ⟨i, hm, rfl⟩
  · rintro ⟨i, hm, rfl⟩
    exact ⟨i, m, hm, rfl, rfl⟩

/-- With fewer than 2^32 messages the number tells the position, so a list of numbered
messages that all occur in another one is a prefix of it. -/
theorem prefix_of_numbered (start : UInt32) {xs ys : List α} (few : ys.length < 4294967296)
    (occur : ∀ pair ∈ numbered start xs, pair ∈ numbered start ys) : xs <+: ys := by
  have same : ∀ i x, i < 4294967296 → xs[i]? = some x → ys[i]? = some x := by
    intro i x hi hx
    obtain ⟨j, hy, heq⟩ := mem_numbered.mp (occur _ (mem_numbered.mpr ⟨i, hx, rfl⟩))
    have hj : j < ys.length := (List.getElem?_eq_some_iff.mp hy).1
    have hnat := congrArg UInt32.toNat ((UInt32.add_right_inj start).mp heq)
    rw [UInt32.toNat_ofNat_of_lt' hi, UInt32.toNat_ofNat_of_lt' (Nat.lt_trans hj few)] at hnat
    rw [hnat, hy]
  have hlen : xs.length ≤ ys.length := by
    by_contra hlt
    have hx : xs[ys.length]? = some (xs[ys.length]) := List.getElem?_eq_getElem (by omega)
    have := (List.getElem?_eq_some_iff.mp (same _ _ few hx)).1
    omega
  rw [List.prefix_iff_eq_take]
  apply List.ext_getElem?
  intro i
  by_cases hi : i < xs.length
  · rw [List.getElem?_take_of_lt hi, List.getElem?_eq_getElem hi]
    exact (same i _ (by omega) (List.getElem?_eq_getElem hi)).symm
  · rw [List.getElem?_eq_none (by omega), List.getElem?_eq_none (by simp; omega)]

end Numbered

theorem map_payload_of_map_bytes {block : Nat} {fs gs : List (Frame block)}
    (h : fs.map Frame.bytes <+: gs.map Frame.bytes) :
    fs.map Frame.payload <+: gs.map Frame.payload := by
  induction fs generalizing gs with
  | nil => exact List.nil_prefix
  | cons f fs ih =>
      cases gs with
      | nil => simp at h
      | cons g gs =>
          simp only [List.map_cons, List.cons_prefix_cons] at h ⊢
          exact ⟨Frame.payload_eq_of_bytes_eq h.1, ih h.2⟩

/-! ### The receiver -/

/-- The payloads of successive calls of `receivePacket` up to the first throw. -/
def receiveWhile (crypto : Crypto) : Nat → Wire → List Bytes × Wire
  | 0, w => ([], w)
  | calls + 1, w =>
      match (receivePacket crypto).run w with
      | .ok payload t =>
          let result := receiveWhile crypto calls t
          (payload :: result.1, result.2)
      | .error _ t => ([], t)

variable {crypto : Crypto} {w : Wire}

/-- What is returned are the payloads of the frames whose tags were found right, under
consecutive sequence numbers. -/
theorem receiveWhile_spec (crypto : Crypto) (calls : Nat)
    (active : w.transport.incomingEncryptionActive = true) :
    ∃ frames : List (Frame aesBlockSize),
      (receiveWhile crypto calls w).1 = frames.map Frame.payload ∧
      w.verified ++ numbered w.transport.incomingSequence (frames.map Frame.bytes) <+:
        (receiveWhile crypto calls w).2.verified := by
  induction calls generalizing w with
  | zero => exact ⟨[], rfl, by simp [numbered, receiveWhile]⟩
  | succ calls ih =>
      have hwp : WP (receivePacket crypto) w (fun payload t => Received payload w t)
          (fun _ t => NotReceived w t) :=
        wp_receivePacket (fun _ _ h => h) (fun _ _ _ h => h)
      rw [receiveWhile]
      cases run : (receivePacket crypto).run w with
      | error e t =>
          exact ⟨[], rfl, by simpa [numbered] using (hwp.of_error run).verified⟩
      | ok payload t =>
          have received := hwp.of_ok run
          obtain ⟨f, hpayload, -, hverified⟩ := received.encrypted active
          have active' : t.transport.incomingEncryptionActive = true := by
            have := congrArg Keying.incomingActive received.keying
            exact this.trans active
          obtain ⟨frames, hpayloads, hlater⟩ := ih active'
          refine ⟨f :: frames, by simp [hpayload, hpayloads], ?_⟩
          rw [hverified, received.incomingSequence, List.append_assoc] at hlater
          rw [List.map_cons, numbered_cons]
          exact hlater

/-! ### The peer -/

/-- One call of `sendPacket`: whether it returned normally, and whether it got as far as
computing a tag. -/
structure SendCall where
  payload : Bytes
  returned : Bool
  tagged : Bool

/-- A call of `sendPacket` whose exception is caught. -/
def attempt (crypto : Crypto) (payload : Bytes) (w : Wire) : Bool × Wire :=
  match (sendPacket crypto payload).run w with
  | .ok _ t => (true, t)
  | .error _ t => (false, t)

def sendCalls (crypto : Crypto) : List Bytes → Wire → List SendCall × Wire
  | [], w => ([], w)
  | payload :: later, w =>
      let outcome := attempt crypto payload w
      let result := sendCalls crypto later outcome.2
      (⟨payload, outcome.1, decide (outcome.2.authenticated ≠ w.authenticated)⟩ :: result.1,
        result.2)

def payloadsOf (p : SendCall → Bool) (calls : List SendCall) : List Bytes :=
  (calls.filter p).map SendCall.payload

/-- No call computes a tag after one that threw with a tag computed. -/
def StopsAfterFailure : List SendCall → Prop
  | [] => True
  | call :: later =>
      (call.tagged = true → call.returned = false → ∀ c ∈ later, c.tagged = false) ∧
        StopsAfterFailure later

theorem attempt_sending (crypto : Crypto) (payload : Bytes) (w : Wire) :
    Sending payload w (attempt crypto payload w).2 (attempt crypto payload w).1 := by
  have hwp : WP (sendPacket crypto payload) w (fun _ t => Sending payload w t true)
      (fun _ t => Sending payload w t false) := wp_sendPacket (fun _ h => h) (fun _ _ h => h)
  unfold attempt
  cases run : (sendPacket crypto payload).run w with
  | ok a t => exact hwp.of_ok run
  | error e t => exact hwp.of_error run

theorem authenticated_of_not_tagged {payloads : List Bytes}
    (h : ∀ c ∈ (sendCalls crypto payloads w).1, c.tagged = false) :
    (sendCalls crypto payloads w).2.authenticated = w.authenticated := by
  induction payloads generalizing w with
  | nil => rfl
  | cons payload payloads ih =>
      simp only [sendCalls, List.forall_mem_cons, decide_eq_false_iff_not, ne_eq,
        Decidable.not_not] at h ⊢
      rw [ih h.2, h.1]

/-- The tags of the peer are those of frames with the payloads of its tagged calls, under
consecutive sequence numbers. -/
theorem sendCalls_spec (crypto : Crypto) (payloads : List Bytes)
    (active : w.transport.outgoingEncryptionActive = true)
    (stops : StopsAfterFailure (sendCalls crypto payloads w).1) :
    ∃ frames : List (Frame aesBlockSize),
      payloadsOf SendCall.tagged (sendCalls crypto payloads w).1 = frames.map Frame.payload ∧
      (sendCalls crypto payloads w).2.authenticated = w.authenticated ++
        numbered w.transport.outgoingSequence (frames.map Frame.bytes) := by
  induction payloads generalizing w with
  | nil => exact ⟨[], rfl, by simp [numbered, sendCalls]⟩
  | cons payload payloads ih =>
      have sending := attempt_sending crypto payload w
      have active' : (attempt crypto payload w).2.transport.outgoingEncryptionActive = true :=
        (congrArg Keying.outgoingActive sending.keying).trans active
      simp only [sendCalls, StopsAfterFailure] at stops ⊢
      generalize attempt crypto payload w = outcome at sending active' stops ⊢
      obtain ⟨returned, t⟩ := outcome
      dsimp only at sending active' stops ⊢
      rcases sending.encrypted active with ⟨hsame, rfl⟩ | ⟨f, hpayload, htag⟩
      · obtain ⟨frames, hpayloads, hauthenticated⟩ := ih active' stops.2
        refine ⟨frames, by simpa [payloadsOf, hsame] using hpayloads, ?_⟩
        have hsequence := sending.outgoingSequence
        simp only [Bool.false_eq_true, if_false, UInt32.add_zero] at hsequence
        rw [hauthenticated, hsequence]
        exact congrArg (· ++ _) hsame
      · have htagged : decide (t.authenticated ≠ w.authenticated) = true := by
          simp [htag]
        rw [htagged] at stops ⊢
        cases returned with
        | true =>
            obtain ⟨frames, hpayloads, hauthenticated⟩ := ih active' stops.2
            have hsequence : t.transport.outgoingSequence = w.transport.outgoingSequence + 1 :=
              sending.outgoingSequence
            refine ⟨f :: frames, ?_, ?_⟩
            · simpa [payloadsOf, hpayload] using hpayloads
            · rw [hauthenticated, htag, hsequence, List.map_cons, numbered_cons,
                List.append_assoc]
              rfl
        | false =>
            -- Nothing is tagged any more: the sequence number would be used again.
            have hlater := stops.1 rfl rfl
            refine ⟨[f], ?_, ?_⟩
            · have hnone : (sendCalls crypto payloads t).1.filter SendCall.tagged = [] := by
                simpa [List.filter_eq_nil_iff] using hlater
              simp [payloadsOf, hnone, hpayload]
            · rw [authenticated_of_not_tagged hlater, htag]
              simp [numbered]

/-! ### Prefix integrity -/

/-- For every stream: the payloads returned before the first throw are a prefix of the
payloads that the peer has authenticated, and so of those it has sent successfully when
every call that computed a tag has returned. -/
theorem received_in_order {r p : Wire}
    (activeReceiver : r.transport.incomingEncryptionActive = true)
    (activePeer : p.transport.outgoingEncryptionActive = true)
    (sequences : r.transport.incomingSequence = p.transport.outgoingSequence)
    (freshPeer : p.authenticated = []) (payloads : List Bytes) (calls : Nat)
    (ideal : ∀ pair ∈ (receiveWhile crypto calls r).2.verified,
      pair ∈ (sendCalls crypto payloads p).2.authenticated)
    (few : (sendCalls crypto payloads p).2.authenticated.length < 2 ^ 32)
    (stops : StopsAfterFailure (sendCalls crypto payloads p).1) :
    (receiveWhile crypto calls r).1 <+:
        payloadsOf SendCall.tagged (sendCalls crypto payloads p).1 ∧
      ((∀ c ∈ (sendCalls crypto payloads p).1, c.tagged = c.returned) →
        (receiveWhile crypto calls r).1 <+:
          payloadsOf SendCall.returned (sendCalls crypto payloads p).1) := by
  obtain ⟨received, hreceived, hverified⟩ := receiveWhile_spec crypto calls
    activeReceiver
  obtain ⟨sent, hsent, hauthenticated⟩ := sendCalls_spec crypto payloads activePeer stops
  rw [freshPeer, List.nil_append] at hauthenticated
  have hinitial : received.map Frame.bytes <+: sent.map Frame.bytes := by
    refine prefix_of_numbered p.transport.outgoingSequence ?_ ?_
    · rw [hauthenticated] at few
      simpa [numbered] using few
    · intro pair hpair
      rw [← hauthenticated]
      apply ideal
      apply hverified.subset
      rw [sequences]
      exact List.mem_append_right _ hpair
  have htagged : (receiveWhile crypto calls r).1 <+:
      payloadsOf SendCall.tagged (sendCalls crypto payloads p).1 := by
    rw [hreceived, hsent]
    exact map_payload_of_map_bytes hinitial
  refine ⟨htagged, fun hreturned => ?_⟩
  have hsame : payloadsOf SendCall.returned (sendCalls crypto payloads p).1 =
      payloadsOf SendCall.tagged (sendCalls crypto payloads p).1 := by
    unfold payloadsOf
    rw [List.filter_congr fun c hc => (hreturned c hc).symm]
  rwa [hsame]

/-- A receiver with the keys of `encryptingPeer` at the same packet boundary. -/
def decryptingReceiver (bytes : Bytes) : Wire where
  sock := { reads := [.returned bytes] }
  transport :=
    { incomingSequence := 1, incomingEncryptionActive := true
      incomingCipher := some { key := Fixed.zero 32, iv := Fixed.zero 16 } }

/-- The tag of an authentication request of one byte, sent as the third packet with zero
padding. -/
def authenticationRequestTag : Bytes × Fixed 32 :=
  ([0, 0, 0, 2, 0, 0, 0, 12, 10, 50, 0, 0, 0, 0, 0, 0, 0, 0, 0, 0],
    ⟨[158, 115, 66, 220, 46, 92, 83, 55, 200, 211, 131, 148, 185, 80, 143, 124, 248, 85, 224, 148,
      129, 143, 245, 148, 78, 17, 68, 105, 82, 45, 2, 150], rfl⟩)

/-- Two packets with an empty payload between them that is rejected. Then the same two
packets, where the write of the second one fails before its last byte, and the attacker
supplies that byte. -/
theorem received_in_order_two_packets :
    let crypto := zeroKeyCrypto [serviceRequestTag, authenticationRequestTag]
    let sent := sendCalls crypto [[5], [], [50]] (encryptingPeer [])
    let broken := sendCalls crypto [[5], [50], []] (encryptingPeer
      [.accepted 48, .accepted 47, .failed (ascii "Connection reset by peer")])
    let received := (receiveWhile crypto 3 (decryptingReceiver sent.2.sock.written)).1
    let supplied := (receiveWhile crypto 3 (decryptingReceiver (broken.2.sock.written ++ [150]))).1
    received = [[5], [50]] ∧ received <+: payloadsOf SendCall.returned sent.1 ∧
      supplied = [[5], [50]] ∧ supplied <+: payloadsOf SendCall.tagged broken.1 ∧
      payloadsOf SendCall.returned broken.1 = [[5]] := by
  intro crypto sent broken received supplied
  have never : ∀ {c : SendCall} {later : List SendCall}, c.tagged = c.returned →
      c.tagged = true → c.returned = false → ∀ d ∈ later, d.tagged = false := by
    intro c later same tagged returned
    rw [same, returned] at tagged
    cases tagged
  have hsent : StopsAfterFailure sent.1 :=
    ⟨never (by decide +kernel), never (by decide +kernel), never (by decide +kernel), trivial⟩
  have hbroken : StopsAfterFailure broken.1 :=
    ⟨never (by decide +kernel), fun _ _ => by decide +kernel, never (by decide +kernel), trivial⟩
  have horder := received_in_order (r := decryptingReceiver sent.2.sock.written)
    (p := encryptingPeer []) rfl rfl rfl rfl [[5], [], [50]] 3 (by decide +kernel)
    (by decide +kernel) hsent
  have hlast := received_in_order (r := decryptingReceiver (broken.2.sock.written ++ [150]))
    rfl rfl rfl rfl [[5], [50], []] 3 (by decide +kernel) (by decide +kernel) hbroken
  exact ⟨by decide +kernel, horder.2 (by decide +kernel), by decide +kernel, hlast.1,
    by decide +kernel⟩

/-- The write of a packet fails before its last byte. An attacker who supplies that byte
delivers a payload that no successful call has sent, although its tag was computed for
exactly this sequence number and packet. -/
theorem received_without_successful_send :
    let sent := sendCalls (zeroKeyCrypto [serviceRequestTag]) [[5]]
      (encryptingPeer [.accepted 47, .failed (ascii "Connection reset by peer")])
    let received := receiveWhile (zeroKeyCrypto [serviceRequestTag]) 1
      (decryptingReceiver (sent.2.sock.written ++ [19]))
    (∀ pair ∈ received.2.verified, pair ∈ sent.2.authenticated) ∧
      sent.2.authenticated.length < 2 ^ 32 ∧
      received.1 = [[5]] ∧ payloadsOf SendCall.returned sent.1 = [] ∧
      ¬ received.1 <+: payloadsOf SendCall.returned sent.1 := by
  decide +kernel

end SshClient.Transport

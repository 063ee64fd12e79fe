import SshClient.Transport.Emission

/-!
# A peer that does its part

The packets that a transport is going to receive are on their way, and what it sends is
taken. Then receiving returns the next payload, and sending returns whenever the payload
fits into a packet. No outcome but a normal return is left, so these rules are rules of
total correctness.
-/

namespace SshClient.Transport

open Control

variable {crypto : Crypto} {keystream : Fixed 32 → Fixed 16 → Nat → UInt8}

/-- A sequence of packets from its front. -/
theorem Carries.front {start last : Line} {payloads : List Bytes} {bytes : Bytes}
    (h : Carries crypto keystream start payloads bytes last) :
    (payloads = [] ∧ bytes = [] ∧ last = start) ∨
      ∃ (f : Frame start.block) (later : List Bytes) (behind : Bytes),
        payloads = f.payload :: later ∧
        bytes = image crypto keystream start f.bytes ++ behind ∧
        Carries crypto keystream (start.next f.bytes.length) later behind last := by
  induction h with
  | nil => exact .inl ⟨rfl, rfl, rfl⟩
  | snoc h g ih =>
      rcases ih with ⟨rfl, rfl, rfl⟩ | ⟨f, later, behind, rfl, rfl, hlater⟩
      · exact .inr ⟨g, [], [], rfl, (List.append_nil _).symm, .nil⟩
      · exact .inr ⟨f, later ++ [g.payload], behind ++ image crypto keystream _ g.bytes, rfl,
          List.append_assoc _ _ _, hlater.snoc g⟩

/-- A packet in front of others. -/
theorem Carries.cons {start last : Line} {later : List Bytes} {behind : Bytes}
    (f : Frame start.block)
    (h : Carries crypto keystream (start.next f.bytes.length) later behind last) :
    Carries crypto keystream start (f.payload :: later)
      (image crypto keystream start f.bytes ++ behind) last := by
  induction h with
  | nil =>
      rw [List.append_nil]
      exact Carries.nil.snoc f
  | snoc _ g ih =>
      rw [← List.append_assoc]
      exact ih.snoc g

/-- A packet has at least one byte. -/
theorem Carries.length_le {start last : Line} {payloads : List Bytes} {bytes : Bytes}
    (h : Carries crypto keystream start payloads bytes last) : payloads.length ≤ bytes.length := by
  induction h with
  | nil => exact Nat.le_refl 0
  | @snoc payloads bytes line h f ih =>
      have himage : f.bytes.length ≤ (image crypto keystream line f.bytes).length := by
        unfold image
        split
        · exact Nat.le_refl _
        · rw [List.length_append, xorStream_length]
          exact Nat.le_add_right _ _
      have hframe := f.bytes_length
      rw [List.length_append, List.length_append, List.length_singleton]
      omega

/-- The packets of these payloads come next, and then the rest. -/
structure Supplied (crypto : Crypto) (keystream : Fixed 32 → Fixed 16 → Nat → UInt8)
    (payloads : List Bytes) (last : Line) (rest : Bytes) (w : Wire) : Prop where
  ahead : ∃ line bytes, incoming w.transport = some line ∧
    Carries crypto keystream line payloads bytes last ∧
    Socket.stream w.sock.reads = bytes ++ rest
  flowing : Socket.Flowing w.sock.reads
  lossless : Socket.Lossless w.sock.writes
  sends : ∃ line, outgoing w.transport = some line

section Rules

variable {payloads : List Bytes} {last : Line} {rest : Bytes} {w : Wire}

theorem Supplied.of_same {t : Wire} (h : Supplied crypto keystream payloads last rest w)
    (sock : t.sock = w.sock) (transport : t.transport = w.transport) :
    Supplied crypto keystream payloads last rest t := by
  obtain ⟨ahead, flowing, lossless, sends⟩ := h
  rw [← sock] at ahead flowing lossless
  rw [← transport] at ahead sends
  exact ⟨ahead, flowing, lossless, sends⟩

theorem Supplied.length_le (h : Supplied crypto keystream payloads last rest w) :
    payloads.length ≤ (Socket.stream w.sock.reads).length := by
  obtain ⟨line, bytes, -, hcarries, hstream⟩ := h.ahead
  rw [hstream, List.length_append]
  exact Nat.le_trans hcarries.length_le (Nat.le_add_right _ _)

/-- Everything has been received. -/
theorem Supplied.spent (h : Supplied crypto keystream [] last rest w) :
    incoming w.transport = some last ∧ Socket.stream w.sock.reads = rest := by
  obtain ⟨line, bytes, hline, hcarries, hstream⟩ := h.ahead
  rcases hcarries.front with ⟨-, rfl, rfl⟩ | ⟨_, _, _, hnone, -⟩
  · exact ⟨hline, hstream⟩
  · cases hnone

theorem succeeds_receivePacket (working : Working crypto keystream) {payload : Bytes}
    (h : Supplied crypto keystream (payload :: payloads) last rest w) :
    Succeeds (receivePacket crypto) w fun received t => received = payload ∧
      Received payload w t ∧ Supplied crypto keystream payloads last rest t := by
  obtain ⟨line, bytes, hline, hcarries, hstream⟩ := h.ahead
  rcases hcarries.front with ⟨hnone, -⟩ | ⟨f, later, behind, hpayloads, rfl, hlater⟩
  · cases hnone
  obtain ⟨rfl, rfl⟩ := List.cons.inj hpayloads
  rw [List.append_assoc] at hstream
  obtain ⟨t, run, hrest, hflow, hnext⟩ :=
    receivePacket_of_image working Socket.serves_flowing h.flowing hline f hstream
  have hreceived : Received f.payload w t := by
    have hwp : WP (receivePacket crypto) w (fun payload t => Received payload w t)
        (fun _ _ => True) := wp_receivePacket (fun _ _ ht => ht) (fun _ _ _ _ => trivial)
    exact hwp.of_ok run
  refine Succeeds.of_run run ⟨rfl, hreceived, ⟨_, behind, hnext, hlater, hrest⟩, hflow, ?_, ?_⟩
  · rw [hreceived.writes]
    exact h.lossless
  · rw [outgoing_congr hreceived.keying hreceived.outgoingSequence hreceived.outgoingCipher]
    exact h.sends

/-- The size of a payload that fits into a packet before and after the change of the keys. -/
def sendable (payload : Bytes) : Prop := payload ≠ [] ∧ payload.length ≤ 34983

instance (payload : Bytes) : Decidable (sendable payload) := inferInstanceAs (Decidable (_ ∧ _))

theorem succeeds_sendPacket (working : Working crypto keystream) {payload : Bytes}
    (fits : sendable payload) (h : Supplied crypto keystream payloads last rest w) :
    Succeeds (sendPacket crypto payload) w fun _ t => Sending payload w t true ∧
      Supplied crypto keystream payloads last rest t := by
  obtain ⟨line, hline⟩ := h.sends
  have hfits : Fits line.block payload := by
    refine (fits_iff line.keys.isSome payload).mpr ⟨fits.1, ?_⟩
    have hlength := fits.2
    unfold maxPayloadSize
    split <;> omega
  obtain ⟨t, f, run, -, -, hlossless, hnext, -⟩ :=
    sendPacket_of_fits working h.lossless hline hfits
  have hsending : Sending payload w t true := by
    have hwp : WP (sendPacket crypto payload) w (fun _ t => Sending payload w t true)
        (fun _ _ => True) := wp_sendPacket (fun _ ht => ht) (fun _ _ _ => trivial)
    exact hwp.of_ok run
  refine Succeeds.of_run run ⟨hsending, ?_, ?_, hlossless, ⟨_, hnext⟩⟩
  · rw [incoming_congr hsending.keying hsending.incomingSequence hsending.incomingCipher,
      hsending.reads]
    exact h.ahead
  · rw [hsending.reads]
    exact h.flowing

/-- The random bytes that a packet takes for its padding. -/
theorem wp_sendPacket_drawn (payload : Bytes) :
    WP (sendPacket crypto payload) w
      (fun _ t => t.drawn = w.drawn + calculatePaddingLength w.transport payload.length)
      (fun _ _ => True) := by
  simp only [sendPacket, generatePadding, encryptOutgoingPacket, WP.bind_iff, WP.get_iff,
    wp_record, WP.lift_iff, WP.failIf_iff, wp_randombytesBuf, WP.ite_iff, WP.modify_iff,
    wp_onSocket]
  refine ⟨fun n hsizes => ?_, fun _ _ => trivial⟩
  obtain rfl : n = calculatePaddingLength w.transport payload.length :=
    (checkSizes_eq_ok_iff.mp hsizes).2
  refine ⟨fun _ => trivial, fun _ => ⟨fun _ => ⟨fun tag _ => ?_, fun _ _ => trivial⟩, fun _ => ?_⟩⟩
  · refine wp_cipherUpdate (fun _ _ _ _ _ _ => ?_) (fun _ => trivial) (fun _ _ _ => trivial)
    exact Socket.wp_writeExact (fun _ => rfl) (fun _ _ _ _ => trivial)
  · exact Socket.wp_writeExact (fun _ => rfl) (fun _ _ _ _ => trivial)

end Rules

end SshClient.Transport

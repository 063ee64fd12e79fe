import SshClient.Transport.Frames

/-!
# What a receive takes

However it ends, `receivePacket` takes at most one packet from the stream, and it waits only
when the script of the reads has nothing left. Both follow from the reads of which it is
composed and from the check of the packet length between them.
-/

namespace SshClient.Transport

open Control

variable {α β : Type} {n m : Nat}

/-- At most `n` bytes have gone from the stream. -/
def Taken (n : Nat) (w t : Wire) : Prop :=
  ∃ part, Socket.stream w.sock.reads = part ++ Socket.stream t.sock.reads ∧ part.length ≤ n

theorem taken_of_same {w t : Wire} (same : t.sock = w.sock) : Taken n w t := by
  refine ⟨[], ?_, Nat.zero_le _⟩
  rw [same]
  rfl

theorem Taken.mono {w t : Wire} (h : Taken n w t) (le : n ≤ m) : Taken m w t := by
  obtain ⟨part, hstream, hlength⟩ := h
  exact ⟨part, hstream, Nat.le_trans hlength le⟩

theorem Taken.trans {w t u : Wire} (h : Taken n w t) (h' : Taken m t u) : Taken (n + m) w u := by
  obtain ⟨part, hstream, hlength⟩ := h
  obtain ⟨part', hstream', hlength'⟩ := h'
  refine ⟨part ++ part', ?_, ?_⟩
  · rw [hstream, hstream', List.append_assoc]
  · rw [List.length_append]
    exact Nat.add_le_add hlength hlength'

/-- A program that takes at most `n` bytes, and waits only when there is nothing to read. -/
def Takes (n : Nat) (x : Exec Wire α) : Prop :=
  ∀ w, WP x w (fun _ t => Taken n w t)
    (fun e t => Taken n w t ∧ (e = .blocked → t.sock.reads = []))

namespace Takes

theorem mono {x : Exec Wire α} (h : Takes n x) (le : n ≤ m) : Takes m x := by
  intro w
  exact (h w).mono (fun _ _ ht => ht.mono le) (fun _ _ ht => ⟨ht.1.mono le, ht.2⟩)

theorem bind {x : Exec Wire α} {f : α → Exec Wire β} (hx : Takes n x) (hf : ∀ a, Takes m (f a)) :
    Takes (n + m) (x >>= f) := by
  intro w
  refine WP.bind_iff.mpr ((hx w).mono ?_ ?_)
  · intro a t ht
    exact (hf a t).mono (fun _ _ hu => ht.trans hu) (fun _ _ hu => ⟨ht.trans hu.1, hu.2⟩)
  · intro e t ht
    exact ⟨ht.1.mono (Nat.le_add_right n m), ht.2⟩

theorem get {f : Wire → Exec Wire β} (h : ∀ w, Takes n (f w)) : Takes n (get >>= f) :=
  fun w => h w w

/-- A part that does not read, and what follows it. -/
theorem still {x : Exec Wire α} {f : α → Exec Wire β}
    (hx : ∀ w, WP x w (fun _ t => t.sock = w.sock) (fun e t => t.sock = w.sock ∧ e ≠ .blocked))
    (hf : ∀ a, Takes n (f a)) : Takes n (x >>= f) := by
  have hquiet : Takes 0 x := by
    intro w
    refine (hx w).mono (fun _ _ ht => taken_of_same ht) ?_
    rintro e t ⟨same, other⟩
    exact ⟨taken_of_same same, fun he => absurd he other⟩
  exact (hquiet.bind hf).mono (Nat.le_of_eq (Nat.zero_add n))

/-- What follows a check knows that the check has passed. -/
theorem lift {x : Except Stop α} {f : α → Exec Wire β} (h : ThrowsOnly x)
    (hf : ∀ a, x = .ok a → Takes n (f a)) : Takes n (Control.lift x >>= f) := by
  cases x with
  | ok a => exact hf a rfl
  | error e =>
      intro w
      obtain ⟨what, rfl⟩ := h e rfl
      exact ⟨taken_of_same rfl, by simp⟩

theorem failIf {c : Prop} [Decidable c] {text : String} {f : Unit → Exec Wire β}
    (hf : Takes n (f ())) : Takes n (Control.failIf c (error text) >>= f) :=
  still (by simp [error]) fun _ => hf

theorem sub {a b : Nat} {f : Nat → Exec Wire β} (hf : b ≤ a → Takes n (f (a - b))) :
    Takes n (sizeSub a b >>= f) := by
  unfold sizeSub
  split
  · next hle => exact hf hle
  · intro w
    exact ⟨taken_of_same rfl, by simp⟩

theorem read (len : Nat) {f : Bytes → Exec Wire β} (hf : ∀ bytes, Takes n (f bytes)) :
    Takes (len + n) (onSocket (Socket.readExact len) >>= f) := by
  refine bind ?_ hf
  intro w
  rw [wp_onSocket]
  exact Socket.wp_readExact_taken w.sock len

end Takes

/-! ### The parts of `receivePacket` -/

theorem takes_extractPayload (packetLength : UInt32) (paddingLength : UInt8) (body : Bytes)
    (start : Nat) : Takes 0 (extractPayload packetLength paddingLength body start) := by
  refine .lift (throwsOnly_validatePacketPadding _ _) fun _ _ => ?_
  refine .still ?_ fun _ => .still ?_ fun _ => .still ?_ fun _ => .still ?_ fun _ => ?_
  · simp
  · simp
  · simp
  · simp
  · intro w
    exact taken_of_same rfl

theorem still_decryptIncomingBytes (crypto : Crypto) (bytes : Bytes) (w : Wire) :
    WP (decryptIncomingBytes crypto bytes) w (fun _ t => t.sock = w.sock)
      (fun e t => t.sock = w.sock ∧ e ≠ .blocked) :=
  wp_decryptIncomingBytes (fun _ _ _ _ _ => rfl) (fun _ _ _ => ⟨rfl, by simp⟩)

theorem takes_receivePlaintext : Takes maxPacketSize receivePlaintext := by
  refine .get fun w => ?_
  have hrest : ∀ lengthBytes, Takes (maxPacketSize - packetLengthBytes) (do
      let packetLength := decodePacketLength lengthBytes
      lift (validatePacketLength w.transport packetLength)
      let pbody ← onSocket (Socket.readExact packetLength.toNat)
      let paddingLength ← byteAt pbody 0
      extractPayload packetLength paddingLength pbody 1) := by
    intro lengthBytes
    refine .lift (throwsOnly_validatePacketLength _ _) fun _ hlength => ?_
    have hmax := (validatePacketLength_ok.mp hlength).2.1
    refine (Takes.read _ fun pbody => .still ?_ fun _ => takes_extractPayload _ _ _ _).mono ?_
    · simp
    · rw [packetLengthBytes]
      omega
  exact (Takes.read packetLengthBytes hrest).mono (by decide)

theorem takes_receiveEncrypted (crypto : Crypto) :
    Takes (maxPacketSize + macBytes) (receiveEncrypted crypto) := by
  refine .get fun w => (Takes.read (n := maxPacketSize - aesBlockSize + macBytes) aesBlockSize
    fun ciphertext => .still (still_decryptIncomingBytes crypto _) fun plaintextBytes => ?_).mono
    (by decide)
  refine .still (by simp) fun lengthBytes => .lift (throwsOnly_validatePacketLength _ _) ?_
  intro _ hlength
  have hmax := (validatePacketLength_ok.mp hlength).2.1
  refine .sub fun hblock => (Takes.read _ fun remainingCiphertext =>
    .still (still_decryptIncomingBytes crypto _) fun remainingPlaintextBytes =>
      .failIf (.read (n := 0) macBytes fun serverMac => ?_)).mono ?_
  · refine .lift (throwsOnly_calculateHmac _ _ _ _) fun calculatedMac _ => ?_
    refine .failIf (.still (by simp) fun _ => .still (by simp) fun paddingLength => ?_)
    exact takes_extractPayload _ _ _ _
  · rw [packetLengthBytes] at hblock ⊢
    omega

theorem takes_receivePacket (crypto : Crypto) :
    Takes (maxPacketSize + macBytes) (receivePacket crypto) := by
  have hrecord : ∀ (transport : Transport) (payload : Bytes), Takes 0 (do
      record (.received transport payload)
      return payload) :=
    fun transport payload => .still (fun _ => rfl) fun _ _ => taken_of_same rfl
  refine .get fun w => ?_
  by_cases hactive : w.transport.incomingEncryptionActive = true
  · rw [if_neg (by simp [hactive])]
    exact (takes_receiveEncrypted crypto).bind (hrecord _)
  · rw [if_pos (by simpa using hactive)]
    exact (takes_receivePlaintext.bind (hrecord _)).mono (Nat.le_add_right _ _)

end SshClient.Transport

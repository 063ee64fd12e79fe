import SshClient.Transport.RoundTrip

/-!
# Which packets are received and which payloads are sent

The two calls of a transport as predicates on their inputs. A stream is received exactly
when a frame stands at its beginning, and a payload is sent exactly when it is not empty
and its packet is not too large. Everything else is refused with an exception, and a
refused payload leaves no mark on the transport or the socket.
-/

namespace SshClient.Transport

open Control

variable {crypto : Crypto} {keystream : Fixed 32 → Fixed 16 → Nat → UInt8} {w : Wire}

/-! ### Receiving -/

/-- The stream begins with a frame for the payload, and `rest` stands behind it. With
encryption active the frame is the decryption of the first bytes at the current position,
and the tag of its bytes under the next sequence number follows them. -/
def StartsWith (crypto : Crypto) (keystream : Fixed 32 → Fixed 16 → Nat → UInt8) (t : Transport)
    (stream payload rest : Bytes) : Prop :=
  if t.incomingEncryptionActive then
    ∃ context, t.incomingCipher = some context ∧ ∃ f : Frame aesBlockSize, f.payload = payload ∧
      ∃ ciphertext mac, stream = ciphertext ++ mac.val ++ rest ∧
        f.bytes = xorStream (keystream context.key context.iv) context.position ciphertext ∧
        crypto.authHmacsha256 (encodeUint32 t.incomingSequence ++ f.bytes) t.incomingMacKey =
          some mac
  else ∃ f : Frame blockSize, f.payload = payload ∧ stream = f.bytes ++ rest

/-- The decryption of the two parts is the decryption of the whole. -/
theorem Authentic.xorStream_eq (working : Working crypto keystream) {t : Transport}
    {ciphertext tag packet : Bytes} (h : Authentic crypto t ciphertext tag packet) :
    ∃ context mac, t.incomingCipher = some context ∧ tag = mac.val ∧
      packet = xorStream (keystream context.key context.iv) context.position ciphertext ∧
      crypto.authHmacsha256 (encodeUint32 t.incomingSequence ++ packet) t.incomingMacKey =
        some mac := by
  obtain ⟨⟨context, first, second, plain1, plain2, hcontext, rfl, rfl, -, h1, h2⟩, mac, hmac,
    rfl⟩ := h
  rw [working.decrypt, Option.some.injEq] at h1 h2
  refine ⟨context, mac, hcontext, rfl, ?_, hmac⟩
  rw [xorStream_append, h1, ← h2]
  rfl

/-- What is returned is a frame at the head of the stream, up to the rest of the stream. -/
theorem wp_receivePacket_startsWith (working : Working crypto keystream) :
    WP (receivePacket crypto) w
      (fun payload t => StartsWith crypto keystream w.transport (Socket.stream w.sock.reads) payload
          (Socket.stream t.sock.reads) ∧
        t.transport.incomingSequence = w.transport.incomingSequence + 1)
      (fun e t => e ≠ .fault ∧
        t.transport.incomingSequence = w.transport.incomingSequence) := by
  simp only [receivePacket, WP.bind_iff, WP.get_iff, WP.ite_iff, wp_record, WP.pure_iff]
  constructor
  · intro hinactive
    rw [Bool.not_eq_true'] at hinactive
    refine wp_receivePlaintext (fun f reads hstream => ⟨?_, rfl⟩) (fun e reads he _ => ⟨he, rfl⟩)
    obtain ⟨g, hpayload, hbytes⟩ := f.exists_of_eq
      (show blockSizeFor w.transport.incomingEncryptionActive = blockSize by rw [hinactive]; rfl)
    rw [StartsWith, if_neg (by simp [hinactive])]
    exact ⟨g, hpayload, by rw [hbytes, hstream]⟩
  · intro hactive
    have hactive : w.transport.incomingEncryptionActive = true := by simpa using hactive
    refine wp_receiveEncrypted (fun f ciphertext tag reads cipher _ _ hstream _ hauthentic =>
      ⟨?_, rfl⟩) (fun e reads cipher verified he _ _ _ => ⟨he, rfl⟩)
    obtain ⟨g, hpayload, hbytes⟩ := f.exists_of_eq
      (show blockSizeFor w.transport.incomingEncryptionActive = aesBlockSize by rw [hactive]; rfl)
    rw [← hbytes] at hauthentic
    obtain ⟨context, mac, hcontext, rfl, hplain, hmac⟩ := hauthentic.xorStream_eq working
    rw [StartsWith, if_pos hactive]
    exact ⟨context, hcontext, g, hpayload, ciphertext, mac, hstream, hplain, hmac⟩

/-- A frame at the head of the stream is received. -/
theorem receivePacket_of_startsWith (working : Working crypto keystream)
    (ended : Socket.Ended w.sock.reads) {payload rest : Bytes}
    (h : StartsWith crypto keystream w.transport (Socket.stream w.sock.reads) payload rest) :
    ∃ t, (receivePacket crypto).run w = .ok payload t := by
  unfold StartsWith at h
  split at h
  · rename_i hactive
    obtain ⟨context, hcontext, f, rfl, ciphertext, mac, hstream, hplain, hmac⟩ := h
    have hline : incoming w.transport =
        some ⟨w.transport.incomingSequence, some (context, w.transport.incomingMacKey)⟩ := by
      simp [incoming, hactive, hcontext]
    have hcipher : ciphertext =
        xorStream (keystream context.key context.iv) context.position f.bytes := by
      rw [hplain, xorStream_xorStream]
    have himage : Socket.stream w.sock.reads = image crypto keystream
        ⟨w.transport.incomingSequence, some (context, w.transport.incomingMacKey)⟩ f.bytes ++
          rest := by
      rw [hstream, hcipher]
      simp only [image, hmac]
    obtain ⟨t, run, -⟩ := receivePacket_of_image working Socket.serves_ended ended hline f himage
    exact ⟨t, run⟩
  · rename_i hinactive
    obtain ⟨f, rfl, hstream⟩ := h
    have hline : incoming w.transport = some ⟨w.transport.incomingSequence, none⟩ := by
      simp [incoming, hinactive]
    obtain ⟨t, run, -⟩ := receivePacket_of_image working Socket.serves_ended ended hline f hstream
    exact ⟨t, run⟩

theorem wp_decryptIncomingBytes_ended {bytes : Bytes} (ended : .returned [] ∈ w.sock.reads) :
    WP (decryptIncomingBytes crypto bytes) w (fun _ t => .returned [] ∈ t.sock.reads)
      (fun e _ => e ≠ .blocked) :=
  wp_decryptIncomingBytes (fun _ _ _ _ _ => ended) (fun _ _ _ => by simp)

theorem extractPayload_not_blocked (packetLength : UInt32) (paddingLength : UInt8) (body : Bytes)
    (start : Nat) :
    WP (extractPayload packetLength paddingLength body start) w (fun _ _ => True)
      (fun e _ => e ≠ .blocked) := by
  simp only [extractPayload, WP.bind_iff, WP.lift_iff, wp_sizeSub, wp_copyRange, WP.modify_iff,
    WP.pure_iff]
  refine ⟨fun _ _ => by simp, fun e he => ?_⟩
  obtain ⟨what, rfl⟩ := throwsOnly_validatePacketPadding _ _ e he
  simp

/-- A stream that has ended is never waited for. -/
theorem receivePacket_not_blocked (ended : .returned [] ∈ w.sock.reads) :
    WP (receivePacket crypto) w (fun _ _ => True) (fun e _ => e ≠ .blocked) := by
  have thrown : ∀ {α : Type} {x : Except Stop α}, ThrowsOnly x → ∀ e, x = .error e →
      e ≠ .blocked := by
    intro α x h e he
    obtain ⟨what, rfl⟩ := h e he
    simp
  simp only [receivePacket, WP.bind_iff, WP.get_iff, WP.ite_iff, wp_record, WP.pure_iff]
  constructor
  · intro _
    simp only [receivePlaintext, WP.bind_iff, WP.get_iff, wp_onSocket, WP.lift_iff, wp_byteAt]
    refine (Socket.wp_readExact_ended ended).mono (fun lengthBytes s1 h1 => ?_) (fun _ _ he => he)
    refine ⟨fun _ _ => ?_, thrown (throwsOnly_validatePacketLength _ _)⟩
    refine (Socket.wp_readExact_ended h1).mono (fun pbody s2 h2 => ?_) (fun _ _ he => he)
    exact ⟨fun _ _ => extractPayload_not_blocked _ _ _ _, fun _ => by simp⟩
  · intro _
    simp only [receiveEncrypted, WP.bind_iff, WP.get_iff, wp_onSocket, WP.lift_iff, wp_byteAt,
      wp_copyRange, wp_sizeSub, WP.failIf_iff, WP.modify_iff]
    refine (Socket.wp_readExact_ended ended).mono (fun first s1 h1 => ?_) (fun _ _ he => he)
    refine (wp_decryptIncomingBytes_ended h1).mono (fun plain1 t1 h1 => ?_) (fun _ _ he => he)
    refine ⟨fun _ => ⟨fun _ _ => ⟨fun _ => ?_, fun _ => by simp⟩,
      thrown (throwsOnly_validatePacketLength _ _)⟩, fun _ => by simp⟩
    refine (Socket.wp_readExact_ended h1).mono (fun second s2 h2 => ?_) (fun _ _ he => he)
    refine (wp_decryptIncomingBytes_ended h2).mono (fun plain2 t2 h2 => ?_) (fun _ _ he => he)
    refine ⟨fun _ => by simp [error], fun _ => ?_⟩
    refine (Socket.wp_readExact_ended h2).mono (fun tag s3 h3 => ?_) (fun _ _ he => he)
    refine ⟨fun mac _ => ⟨fun _ => by simp [error], fun _ => ⟨fun _ _ =>
      extractPayload_not_blocked _ _ _ _, fun _ => by simp⟩⟩,
      thrown (throwsOnly_calculateHmac _ _ _ _)⟩

/-- `receivePacket` accepts exactly the streams that begin with a frame. It takes that frame
from the stream and counts it; in every other case it throws and does not count. The
library calls are assumed to work, and the stream arrives in any pieces and then ends. -/
theorem receivePacket_exact (working : Working crypto keystream)
    (ended : Socket.Ended w.sock.reads) :
    (∀ payload, (∃ t, (receivePacket crypto).run w = .ok payload t) ↔
      ∃ rest, StartsWith crypto keystream w.transport (Socket.stream w.sock.reads) payload rest) ∧
    (∀ payload t, (receivePacket crypto).run w = .ok payload t →
      StartsWith crypto keystream w.transport (Socket.stream w.sock.reads) payload
        (Socket.stream t.sock.reads) ∧
      t.transport.incomingSequence = w.transport.incomingSequence + 1) ∧
    ∀ e t, (receivePacket crypto).run w = .error e t →
      (∃ what, e = .thrown what) ∧
      t.transport.incomingSequence = w.transport.incomingSequence := by
  have sound := wp_receivePacket_startsWith (w := w) working
  refine ⟨fun payload => ⟨?_, ?_⟩, fun payload t run => sound.of_ok run, fun e t run => ?_⟩
  · rintro ⟨t, run⟩
    exact ⟨_, (sound.of_ok run).1⟩
  · rintro ⟨rest, h⟩
    exact receivePacket_of_startsWith working ended h
  · obtain ⟨hfault, hsequence⟩ := sound.of_error run
    have hend : .returned [] ∈ w.sock.reads := by
      obtain ⟨chunks, -, hreads⟩ := ended
      rw [hreads]
      exact List.mem_append_right _ List.mem_cons_self
    have hblocked := (receivePacket_not_blocked hend).of_error run
    refine ⟨?_, hsequence⟩
    cases e with
    | thrown what => exact ⟨what, rfl⟩
    | blocked => exact absurd rfl hblocked
    | fault => exact absurd rfl hfault

/-- The transport of a receiver that expects its second packet under zero keys. -/
def zeroKeyReceiver : Wire where
  transport := {
    incomingSequence := 1
    incomingEncryptionActive := true
    incomingCipher := some { key := Fixed.zero 32, iv := Fixed.zero 16 } }
  sock := { reads := [.returned ((twoPackets.drop 16).take 20), .interrupted,
    .returned ((twoPackets.drop 16).drop 20), .returned []] }

theorem receivePacket_exact_serviceRequest :
    ∃ t, (receivePacket (zeroKeyCrypto [serviceRequestTag])).run zeroKeyReceiver = .ok [5] t ∧
      t.transport.incomingSequence = 2 := by
  have ended : Socket.Ended zeroKeyReceiver.sock.reads :=
    ⟨[.returned ((twoPackets.drop 16).take 20), .interrupted,
      .returned ((twoPackets.drop 16).drop 20)],
      by simp [Socket.Flowing, twoPackets, serviceRequestTag], rfl⟩
  obtain ⟨hiff, hok, -⟩ :=
    receivePacket_exact (working_zeroKeyCrypto [serviceRequestTag]) ended
  obtain ⟨t, run⟩ := (hiff [5]).mpr ⟨[], _, rfl, ⟨[5], List.replicate 10 0, by decide, by decide,
    by decide, by decide, by decide, by decide⟩, rfl, (twoPackets.drop 16).take 16,
    serviceRequestTag.2, by decide +kernel, by decide +kernel, by decide +kernel⟩
  exact ⟨t, run, (hok _ _ run).2⟩

/-! ### Sending -/

/-- The longest payload that fits into a packet. -/
def maxPayloadSize (active : Bool) : Nat := if active then 34983 else 34991

/-- The longest padding that is ever needed. -/
def maxNeededPadding (active : Bool) : Nat := if active then 19 else 11

theorem fits_iff (active : Bool) (payload : Bytes) :
    Fits (blockSizeFor active) payload ↔
      payload ≠ [] ∧ payload.length ≤ maxPayloadSize active := by
  unfold Fits
  refine and_congr_right fun _ => ?_
  cases active <;>
    simp only [paddingFor, blockSizeFor, maxPayloadSize, minPaddingLength, packetLengthBytes,
      paddingLengthBytes, maxPacketSize, blockSize, aesBlockSize, Bool.false_eq_true, if_true,
      if_false] <;>
    omega

/-- The padding is the least one that fills whole blocks. -/
theorem paddingFor_least (active : Bool) (payloadSize : Nat) :
    paddingFor (blockSizeFor active) payloadSize ≤ maxNeededPadding active ∧
      ∀ total, total % blockSizeFor active = 0 → minPacketSize ≤ total →
        5 + payloadSize + minPaddingLength ≤ total →
        5 + payloadSize + paddingFor (blockSizeFor active) payloadSize ≤ total := by
  cases active <;>
    simp only [paddingFor, blockSizeFor, maxNeededPadding, minPaddingLength, minPacketSize,
      packetLengthBytes, paddingLengthBytes, blockSize, aesBlockSize, Bool.false_eq_true, if_true,
      if_false] <;>
    exact ⟨by omega, fun total h1 h2 h3 => by omega⟩

/-- A direction that is active has a cipher. The constructor and `enableEncryption` leave a
transport in this state, and packets do not change the keys. -/
def Keyed (t : Transport) : Prop :=
  (t.outgoingEncryptionActive = true → t.outgoingCipher ≠ none) ∧
    (t.incomingEncryptionActive = true → t.incomingCipher ≠ none)

theorem keyed_iff_keying (t : Transport) :
    Keyed t ↔ (t.keying.outgoingActive = true → t.keying.outgoingCipher ≠ none) ∧
      (t.keying.incomingActive = true → t.keying.incomingCipher ≠ none) := by
  simp [Keyed, keying]

theorem Keyed.of_keying {t u : Transport} (h : Keyed t) (same : u.keying = t.keying) :
    Keyed u := by
  rw [keyed_iff_keying, same, ← keyed_iff_keying]
  exact h

/-- Every call keeps an active direction keyed, whether it returns or throws. -/
theorem keyed_invariant (crypto : Crypto) (payload : Bytes) (iv : Fixed 16)
    (key macKey : Fixed 32) :
    Keyed {} ∧
      Preserves (fun w => Keyed w.transport) (sendPacket crypto payload) ∧
      Preserves (fun w => Keyed w.transport) (receivePacket crypto) ∧
      Preserves (fun w => Keyed w.transport) (enableOutgoingEncryption crypto iv key macKey) ∧
      Preserves (fun w => Keyed w.transport) (enableIncomingEncryption crypto iv key macKey) := by
  refine ⟨by simp [Keyed], fun w h => ?_, fun w h => ?_, fun w h => ?_, fun w h => ?_⟩
  · exact wp_sendPacket (fun t ht => h.of_keying ht.keying) (fun _ t ht => h.of_keying ht.keying)
  · exact wp_receivePacket (fun _ t ht => h.of_keying ht.keying)
      (fun _ t _ ht => h.of_keying ht.keying)
  · simp only [enableOutgoingEncryption, enableEncryption, WP.bind_iff, WP.failIf_iff,
      WP.modify_iff]
    exact ⟨fun _ => h, fun _ => ⟨fun _ => h, fun _ => ⟨by simp, h.2⟩⟩⟩
  · simp only [enableIncomingEncryption, enableEncryption, WP.bind_iff, WP.failIf_iff,
      WP.modify_iff]
    exact ⟨fun _ => h, fun _ => ⟨fun _ => h, fun _ => ⟨h.1, by simp⟩⟩⟩

/-- `sendPacket` refuses exactly the empty and the oversized payloads, before it has done
anything. Any other payload is sent as the image of the smallest frame for it. -/
theorem sendPacket_exact (working : Working crypto keystream)
    (lossless : Socket.Lossless w.sock.writes) (keyed : Keyed w.transport) (payload : Bytes) :
    ((payload = [] ∨ maxPayloadSize w.transport.outgoingEncryptionActive < payload.length) →
      ∃ e t, (sendPacket crypto payload).run w = .error e t ∧ t.sock = w.sock ∧
        t.transport = w.transport ∧
        (e = error "Payload cannot be empty" ∨ e = error "Packet size exceeds maximum")) ∧
    (¬ (payload = [] ∨ maxPayloadSize w.transport.outgoingEncryptionActive < payload.length) →
      ∃ t line, ∃ f : Frame (blockSizeFor w.transport.outgoingEncryptionActive),
        (sendPacket crypto payload).run w = .ok () t ∧ f.payload = payload ∧
        outgoing w.transport = some line ∧
        t.sock.written = w.sock.written ++ image crypto keystream line f.bytes ∧
        outgoing t.transport = some (line.next f.bytes.length) ∧
        minPaddingLength ≤ f.padding.length ∧
        f.padding.length ≤ maxNeededPadding w.transport.outgoingEncryptionActive ∧
        ∀ total, total % blockSizeFor w.transport.outgoingEncryptionActive = 0 →
          minPacketSize ≤ total → 5 + payload.length + minPaddingLength ≤ total →
          f.bytes.length ≤ total) := by
  obtain ⟨line, hline, hblock⟩ : ∃ line, outgoing w.transport = some line ∧
      line.block = blockSizeFor w.transport.outgoingEncryptionActive := by
    unfold outgoing
    cases hactive : w.transport.outgoingEncryptionActive with
    | false => exact ⟨_, rfl, rfl⟩
    | true =>
        obtain ⟨context, hcontext⟩ := Option.ne_none_iff_exists'.mp (keyed.1 hactive)
        rw [hcontext]
        exact ⟨_, rfl, rfl⟩
  have hfits := fits_iff w.transport.outgoingEncryptionActive payload
  rw [← hblock] at hfits
  constructor
  · intro h
    exact sendPacket_of_not_fits crypto hline (fun fits => by
      obtain ⟨hne, hlen⟩ := hfits.mp fits
      rcases h with h | h
      · exact hne h
      · omega)
  · intro h
    rw [not_or, Nat.not_lt] at h
    obtain ⟨t, f, run, hpayload, hwritten, -, hnext, hpadding⟩ :=
      sendPacket_of_fits working lossless hline (hfits.mpr h)
    obtain ⟨g, hg, hbytes⟩ := f.exists_of_eq hblock
    have hpad : g.padding.length = paddingFor line.block payload.length := by
      have := congrArg List.length hbytes
      rw [Frame.bytes_length, Frame.bytes_length, Frame.packetLength, Frame.packetLength,
        hg] at this
      omega
    obtain ⟨hmax, hleast⟩ := paddingFor_least w.transport.outgoingEncryptionActive payload.length
    rw [← hblock] at hmax hleast
    refine ⟨t, line, g, run, hg.trans hpayload, hline, by rw [hwritten, hbytes],
      by rw [hnext, hbytes], g.min_padding, by rwa [hpad], fun total h1 h2 h3 => ?_⟩
    rw [Frame.bytes_length, Frame.packetLength, hg, hpayload, hpad]
    have := hleast total (by rwa [hblock]) h2 h3
    omega

/-- In plaintext one byte is sent and no byte is not. Under zero keys one byte is sent as
one encrypted block and its tag, and one byte more than fits is not. -/
theorem sendPacket_exact_newkeys :
    (∃ t, (sendPacket (zeroKeyCrypto []) [21]).run {} = .ok () t) ∧
      (∃ e t, (sendPacket (zeroKeyCrypto []) []).run {} = .error e t ∧ t.sock.written = []) ∧
      (∃ t, (sendPacket (zeroKeyCrypto [serviceRequestTag]) [5]).run (encryptingPeer []) =
          .ok () t ∧
        t.sock.written = twoPackets.drop 16) ∧
      ∃ e t, (sendPacket (zeroKeyCrypto [serviceRequestTag]) (List.replicate 34984 5)).run
        (encryptingPeer []) = .error e t ∧ t.transport = (encryptingPeer []).transport := by
  have plain := sendPacket_exact (w := {}) (working_zeroKeyCrypto [])
    (by simp [Socket.Lossless]) (by simp [Keyed])
  have secret := sendPacket_exact (w := encryptingPeer [])
    (working_zeroKeyCrypto [serviceRequestTag]) (by simp [Socket.Lossless, encryptingPeer])
    (by simp [Keyed, encryptingPeer])
  obtain ⟨t, _, _, run, -⟩ := (plain [21]).2 (by decide)
  obtain ⟨e, u, run', hsock, -⟩ := (plain []).1 (by decide)
  obtain ⟨t', _, _, run'', -⟩ := (secret [5]).2 (by decide)
  obtain ⟨e', u', run''', -, htransport, -⟩ := (secret (List.replicate 34984 5)).1
    (.inr (by rw [List.length_replicate]; decide))
  have hwritten : t' = outcome ((sendPacket (zeroKeyCrypto [serviceRequestTag]) [5]).run
      (encryptingPeer [])) := by
    rw [run'']
    rfl
  exact ⟨⟨t, run⟩, ⟨e, u, run', by rw [hsock]⟩, ⟨t', run'', by rw [hwritten]; decide +kernel⟩,
    e', u', run''', htransport⟩

end SshClient.Transport

import SshClient.Transport.Exact

/-!
# What packets put on the wire

`sendPacket` described by the bytes that it writes, for libraries that may fail and for a
socket that may take only a part of the packet. A sequence of packets, each of them framed,
encrypted and authenticated where the ones before it have left off, is `Carries`. It says
the same of what is written and of what is read.
-/

namespace SshClient.Transport

open Control

variable {crypto : Crypto} {keystream : Fixed 32 → Fixed 16 → Nat → UInt8} {w : Wire}

/-- The bytes of a packet under the keys of a transport, and the cipher afterwards. -/
def Emitted (crypto : Crypto) (t : Transport) (packet bytes : Bytes) (cipher : Option Cipher) :
    Prop :=
  (t.outgoingEncryptionActive = false ∧ bytes = packet ∧ cipher = t.outgoingCipher) ∨
    (t.outgoingEncryptionActive = true ∧ ∃ context ciphertext tag,
      t.outgoingCipher = some context ∧ crypto.encryptUpdate context packet = some ciphertext ∧
      crypto.authHmacsha256 (encodeUint32 t.outgoingSequence ++ packet) t.outgoingMacKey =
        some tag ∧
      bytes = ciphertext ++ tag.val ∧ cipher = some (context.advance packet.length))

/-- The packet that a transport makes of a payload. -/
def Framed (t : Transport) (payload : Bytes) (f : Frame (blockSizeFor t.outgoingEncryptionActive)) :
    Prop :=
  f.payload = payload ∧
    f.padding.length = paddingFor (blockSizeFor t.outgoingEncryptionActive) payload.length

theorem wp_sendPacket_emitted (crypto : Crypto) (payload : Bytes) (w : Wire) :
    WP (sendPacket crypto payload) w
      (fun _ t => ∃ f bytes, Framed w.transport payload f ∧
        Emitted crypto w.transport f.bytes bytes t.transport.outgoingCipher ∧
        t.sock.written = w.sock.written ++ bytes)
      (fun _ t => ∃ taken, t.sock.written = w.sock.written ++ taken ∧
        (taken = [] ∨ ∃ f bytes cipher, Framed w.transport payload f ∧
          Emitted crypto w.transport f.bytes bytes cipher ∧ taken <+: bytes)) := by
  have hnothing : ∀ written : Bytes, ∃ taken, written = written ++ taken ∧
      (taken = [] ∨ ∃ f bytes cipher, Framed w.transport payload f ∧
        Emitted crypto w.transport f.bytes bytes cipher ∧ taken <+: bytes) := by
    intro written
    exact ⟨[], (List.append_nil _).symm, .inl rfl⟩
  simp only [sendPacket, generatePadding, encryptOutgoingPacket, WP.bind_iff, WP.get_iff,
    wp_record, WP.lift_iff, WP.failIf_iff, wp_randombytesBuf, WP.ite_iff, WP.modify_iff,
    wp_onSocket]
  refine ⟨fun n hsizes => ?_, fun e _ => hnothing _⟩
  obtain ⟨f, hpayload, hpacket, hlen⟩ := frame_of_checkSizes hsizes
    ((List.range n).map fun i => w.random (w.drawn + i)) (by simp)
  have hframed : Framed w.transport payload f := by
    refine ⟨hpayload, ?_⟩
    rw [← (checkSizes_eq_ok_iff.mp hsizes).2]
    rw [Frame.bytes_length, Frame.packetLength, hpayload] at hlen
    simp only [paddingLengthBytes, packetLengthBytes] at hlen
    omega
  rw [hpacket]
  refine ⟨fun hne => absurd hlen hne, fun _ => ⟨fun hactive => ⟨fun tag htag => ?_,
    fun e _ => hnothing _⟩, fun hinactive => ?_⟩⟩
  · refine wp_cipherUpdate (fun context output _ hcontext hupdate _ => ?_) (fun _ => hnothing _)
      (fun _ _ _ => hnothing _)
    have hemitted : Emitted crypto w.transport f.bytes (output ++ tag.val)
        (some (context.advance f.bytes.length)) :=
      .inr ⟨hactive, context, output, tag, hcontext, hupdate, calculateHmac_ok.mp htag, rfl, rfl⟩
    refine Socket.wp_writeExact ?_ ?_
    · intro writes
      exact ⟨f, _, hframed, hemitted, rfl⟩
    · intro what writes taken htaken
      exact ⟨taken, rfl, .inr ⟨f, _, _, hframed, hemitted, htaken⟩⟩
  · have hemitted : Emitted crypto w.transport f.bytes f.bytes w.transport.outgoingCipher :=
      .inl ⟨by simpa using hinactive, rfl, rfl⟩
    refine Socket.wp_writeExact ?_ ?_
    · intro writes
      exact ⟨f, _, hframed, hemitted, rfl⟩
    · intro what writes taken htaken
      exact ⟨taken, rfl, .inr ⟨f, _, _, hframed, hemitted, htaken⟩⟩

/-! ### One packet on a line -/

section Line

variable {line : Line}

theorem block_of_outgoing (h : outgoing w.transport = some line) :
    blockSizeFor w.transport.outgoingEncryptionActive = line.block := by
  rcases outgoing_cases h with ⟨rfl, hactive⟩ | ⟨context, rfl, hactive, -⟩
  · simp only [Line.block, hactive, Option.isSome_none]
  · simp only [Line.block, hactive, Option.isSome_some]

/-- The line on which a transport sends depends on its own direction alone. -/
theorem outgoing_congr {t u : Transport} (keying : u.keying = t.keying)
    (sequence : u.outgoingSequence = t.outgoingSequence)
    (cipher : u.outgoingCipher = t.outgoingCipher) : outgoing u = outgoing t := by
  have hactive : u.outgoingEncryptionActive = t.outgoingEncryptionActive :=
    congrArg Keying.outgoingActive keying
  have hmac : u.outgoingMacKey = t.outgoingMacKey := congrArg Keying.outgoingMacKey keying
  unfold outgoing
  rw [hactive, hmac, sequence, cipher]

theorem incoming_congr {t u : Transport} (keying : u.keying = t.keying)
    (sequence : u.incomingSequence = t.incomingSequence)
    (cipher : u.incomingCipher = t.incomingCipher) : incoming u = incoming t := by
  have hactive : u.incomingEncryptionActive = t.incomingEncryptionActive :=
    congrArg Keying.incomingActive keying
  have hmac : u.incomingMacKey = t.incomingMacKey := congrArg Keying.incomingMacKey keying
  unfold incoming
  rw [hactive, hmac, sequence, cipher]

/-- What is emitted on a line is the image of the packet, and the line moves on by its size. -/
theorem Emitted.on_line (working : Working crypto keystream) {u : Transport}
    (h : outgoing w.transport = some line) {packet bytes : Bytes}
    (emitted : Emitted crypto w.transport packet bytes u.outgoingCipher)
    (keying : u.keying = w.transport.keying)
    (sequence : u.outgoingSequence = w.transport.outgoingSequence + 1) :
    bytes = image crypto keystream line packet ∧ outgoing u = some (line.next packet.length) := by
  have hactive : u.outgoingEncryptionActive = w.transport.outgoingEncryptionActive :=
    congrArg Keying.outgoingActive keying
  have hmac : u.outgoingMacKey = w.transport.outgoingMacKey :=
    congrArg Keying.outgoingMacKey keying
  rcases outgoing_cases h with ⟨rfl, hplain⟩ | ⟨context, rfl, hkeyed, hcontext⟩
  · rcases emitted with ⟨-, rfl, -⟩ | ⟨hother, -⟩
    · refine ⟨rfl, ?_⟩
      simp only [outgoing, hactive, hplain, sequence, Line.next]
      rfl
    · rw [hplain] at hother
      cases hother
  · rcases emitted with ⟨hother, -⟩ |
      ⟨-, context', ciphertext, tag, hcontext', hencrypt, htag, rfl, hcipher⟩
    · rw [hkeyed] at hother
      cases hother
    · rw [hcontext, Option.some.injEq] at hcontext'
      subst hcontext'
      rw [working.encrypt, Option.some.injEq] at hencrypt
      constructor
      · simp only [image, htag, hencrypt]
      · simp only [outgoing, hactive, hkeyed, sequence, hcipher, hmac, Line.next]
        rfl

/-- One packet on a line: its whole image, or when the call throws a part of it. -/
theorem wp_sendPacket_line (working : Working crypto keystream) {payload : Bytes}
    (h : outgoing w.transport = some line) :
    WP (sendPacket crypto payload) w
      (fun _ t => Sending payload w t true ∧ ∃ f : Frame line.block, f.payload = payload ∧
        t.sock.written = w.sock.written ++ image crypto keystream line f.bytes ∧
        outgoing t.transport = some (line.next f.bytes.length))
      (fun _ t => Sending payload w t false ∧ ∃ taken, t.sock.written = w.sock.written ++ taken ∧
        (taken = [] ∨ ∃ f : Frame line.block, f.payload = payload ∧
          taken <+: image crypto keystream line f.bytes)) := by
  have hsending : WP (sendPacket crypto payload) w (fun _ t => Sending payload w t true)
      (fun _ t => Sending payload w t false) := wp_sendPacket (fun _ h => h) (fun _ _ h => h)
  refine (hsending.and (wp_sendPacket_emitted crypto payload w)).mono ?_ ?_
  · rintro _ t ⟨sending, f, bytes, hframed, emitted, hwritten⟩
    obtain ⟨g, hpayload, hbytes⟩ := f.exists_of_eq (block_of_outgoing h)
    obtain ⟨rfl, hline⟩ := emitted.on_line working h sending.keying sending.outgoingSequence
    rw [← hbytes] at hwritten hline
    exact ⟨sending, g, hpayload.trans hframed.1, hwritten, hline⟩
  · rintro _ t ⟨sending, taken, hwritten, hnone | ⟨f, bytes, cipher, hframed, emitted, hprefix⟩⟩
    · exact ⟨sending, taken, hwritten, .inl hnone⟩
    · obtain ⟨g, hpayload, hbytes⟩ := f.exists_of_eq (block_of_outgoing h)
      have hkeying : keying { w.transport with
          outgoingCipher := cipher
          outgoingSequence := w.transport.outgoingSequence + 1 } = keying w.transport := by
        rcases emitted with ⟨-, -, rfl⟩ | ⟨-, context, _, _, hcontext, -, -, -, rfl⟩
        · rfl
        · simp only [keying, hcontext]
          rfl
      obtain ⟨rfl, -⟩ := Emitted.on_line working h (u := { w.transport with
          outgoingCipher := cipher
          outgoingSequence := w.transport.outgoingSequence + 1 }) emitted hkeying rfl
      rw [← hbytes] at hprefix
      exact ⟨sending, taken, hwritten, .inr ⟨g, hpayload.trans hframed.1, hprefix⟩⟩

/-- The cipher moves on by the bytes that are taken from the stream in front of the tag. -/
theorem wp_receiveEncrypted_advance :
    WP (receiveEncrypted crypto) w
      (fun _ t => ∃ context count, w.transport.incomingCipher = some context ∧
        t.transport.incomingCipher = some (context.advance count) ∧
        (Socket.stream w.sock.reads).length =
          count + macBytes + (Socket.stream t.sock.reads).length)
      (fun _ _ => True) := by
  simp only [receiveEncrypted, extractPayload, WP.bind_iff, WP.get_iff, wp_onSocket, WP.lift_iff,
    wp_byteAt, wp_copyRange, wp_sizeSub, WP.failIf_iff, WP.modify_iff, WP.pure_iff, implies_true,
    and_true, true_and]
  refine Socket.wp_readExact (fun first reads hfirst hstream => ?_) (fun _ _ _ _ => trivial)
  refine wp_decryptIncomingBytes (fun context plain hcontext _ _ _ _ _ _ => ?_)
    (fun _ _ _ => trivial)
  refine Socket.wp_readExact (fun second reads2 _ hstream2 => ?_) (fun _ _ _ _ => trivial)
  refine wp_decryptIncomingBytes (fun context2 plain2 hcontext2 _ _ _ => ?_) (fun _ _ _ => trivial)
  refine Socket.wp_readExact (fun tag reads3 htag hstream3 => ?_) (fun _ _ _ _ => trivial)
  cases hcontext2
  intro _ _ _ _ _ _ _ _ _ _
  refine ⟨context, first.length + second.length, hcontext, ?_, ?_⟩
  · simp only [Cipher.advance, Nat.add_assoc]
  · rw [hstream, hstream2, hstream3]
    simp only [List.length_append, htag]
    omega

theorem wp_receivePacket_advance :
    WP (receivePacket crypto) w
      (fun _ t => w.transport.incomingEncryptionActive = true → ∃ context count,
        w.transport.incomingCipher = some context ∧
        t.transport.incomingCipher = some (context.advance count) ∧
        (Socket.stream w.sock.reads).length =
          count + macBytes + (Socket.stream t.sock.reads).length)
      (fun _ _ => True) := by
  simp only [receivePacket, WP.bind_iff, WP.get_iff, WP.ite_iff, wp_record, WP.pure_iff]
  constructor
  · intro hinactive
    rw [Bool.not_eq_true'] at hinactive
    refine WP.intro ?_ (fun _ _ _ => trivial)
    intro _ t _ hactive
    rw [hinactive] at hactive
    cases hactive
  · intro _
    exact wp_receiveEncrypted_advance.mono (fun _ _ h _ => h) (fun _ _ h => h)

/-- A frame at the head of the stream is the image of a packet on the line. -/
theorem StartsWith.on_line {payload rest : Bytes} (h : incoming w.transport = some line)
    (starts : StartsWith crypto keystream w.transport (Socket.stream w.sock.reads) payload rest) :
    ∃ f : Frame line.block, f.payload = payload ∧
      Socket.stream w.sock.reads = image crypto keystream line f.bytes ++ rest ∧
      (w.transport.incomingEncryptionActive = true →
        (Socket.stream w.sock.reads).length = f.bytes.length + macBytes + rest.length) := by
  unfold StartsWith at starts
  rcases incoming_cases h with ⟨rfl, hactive⟩ | ⟨context, rfl, hactive, hcontext⟩
  · rw [if_neg (by simp [hactive])] at starts
    obtain ⟨f, hpayload, hstream⟩ := starts
    refine ⟨f, hpayload, hstream, ?_⟩
    intro hother
    rw [hactive] at hother
    cases hother
  · rw [if_pos hactive] at starts
    obtain ⟨context', hcontext', f, hpayload, ciphertext, mac, hstream, hplain, hmac⟩ := starts
    rw [hcontext, Option.some.injEq] at hcontext'
    subst hcontext'
    have hcipher : ciphertext =
        xorStream (keystream context.key context.iv) context.position f.bytes := by
      rw [hplain, xorStream_xorStream]
    have himage : Socket.stream w.sock.reads = image crypto keystream
        ⟨w.transport.incomingSequence, some (context, w.transport.incomingMacKey)⟩ f.bytes ++
          rest := by
      rw [hstream, hcipher]
      simp only [image, hmac]
    refine ⟨f, hpayload, himage, fun _ => ?_⟩
    rw [hstream, hcipher]
    simp only [List.length_append, xorStream_length, mac.property]
    rfl

theorem wp_receivePacket_line (working : Working crypto keystream)
    (h : incoming w.transport = some line) :
    WP (receivePacket crypto) w
      (fun payload t => Received payload w t ∧ ∃ f : Frame line.block, f.payload = payload ∧
        Socket.stream w.sock.reads =
          image crypto keystream line f.bytes ++ Socket.stream t.sock.reads ∧
        incoming t.transport = some (line.next f.bytes.length))
      (fun _ t => NotReceived w t) := by
  have hreceived : WP (receivePacket crypto) w (fun payload t => Received payload w t)
      (fun _ t => NotReceived w t) := wp_receivePacket (fun _ _ h => h) (fun _ _ _ h => h)
  refine ((hreceived.and (wp_receivePacket_startsWith working)).and wp_receivePacket_advance).mono
    ?_ (fun _ _ h => h.1.1)
  rintro payload t ⟨⟨received, starts, -⟩, hadvance⟩
  obtain ⟨f, hpayload, hstream, hlength⟩ := starts.on_line h
  refine ⟨received, f, hpayload, hstream, ?_⟩
  have hactive : t.transport.incomingEncryptionActive = w.transport.incomingEncryptionActive :=
    congrArg Keying.incomingActive received.keying
  have hmac : t.transport.incomingMacKey = w.transport.incomingMacKey :=
    congrArg Keying.incomingMacKey received.keying
  rcases incoming_cases h with ⟨rfl, hplain⟩ | ⟨context, rfl, hkeyed, hcontext⟩
  · simp only [incoming, hactive, hplain, received.incomingSequence, Line.next]
    rfl
  · obtain ⟨context', count, hcontext', hcipher, hcount⟩ := hadvance hkeyed
    rw [hcontext, Option.some.injEq] at hcontext'
    subst hcontext'
    obtain rfl : count = f.bytes.length := by
      have hsame := hlength hkeyed
      omega
    simp only [incoming, hactive, hkeyed, received.incomingSequence, hcipher, hmac, Line.next]
    rfl

end Line

/-! ### Sequences of packets -/

/-- Packets one after the other, with the payloads and the bytes they have together and the
lines before and behind them. -/
inductive Carries (crypto : Crypto) (keystream : Fixed 32 → Fixed 16 → Nat → UInt8)
    (start : Line) : List Bytes → Bytes → Line → Prop where
  | nil : Carries crypto keystream start [] [] start
  | snoc {payloads : List Bytes} {bytes : Bytes} {line : Line}
      (h : Carries crypto keystream start payloads bytes line) (f : Frame line.block) :
      Carries crypto keystream start (payloads ++ [f.payload])
        (bytes ++ image crypto keystream line f.bytes) (line.next f.bytes.length)

end SshClient.Transport

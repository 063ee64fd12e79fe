import SshClient.Transport.Basic

/-!
# Frames, and the rules of sending and receiving

A frame is a payload with padding that the checks of the receiver let through. What
`sendPacket` builds is the bytes of a frame, and what `receivePacket` returns is the
payload of one.

The two rules say what a call does in each outcome, in the terms that other modules use:
the trace, the sequence numbers, the keys, and the tags that were computed or checked.
-/

namespace SshClient.Transport

open Control

/-! ### Frames -/

/-- A packet that `receivePacket` accepts when packets are aligned to `block`. -/
structure Frame (block : Nat) where
  payload : Bytes
  padding : Bytes
  payload_ne_nil : payload ≠ []
  min_padding : minPaddingLength ≤ padding.length
  max_padding : padding.length ≤ 255
  min_size : minPacketSize ≤ 5 + payload.length + padding.length
  max_size : 5 + payload.length + padding.length ≤ maxPacketSize
  aligned : (5 + payload.length + padding.length) % block = 0

namespace Frame

variable {block : Nat}

def packetLength (f : Frame block) : Nat := 1 + f.payload.length + f.padding.length

def bytes (f : Frame block) : Bytes :=
  encodeUint32 (UInt32.ofNat f.packetLength) ++
    (UInt8.ofNat f.padding.length :: (f.payload ++ f.padding))

@[simp] theorem bytes_length (f : Frame block) : f.bytes.length = 4 + f.packetLength := by
  simp only [bytes, packetLength, List.length_append, encodeUint32_length, List.length_cons]
  omega

theorem packetLength_lt (f : Frame block) : f.packetLength < 4294967296 := by
  have := f.max_size
  simp only [packetLength, maxPacketSize] at this ⊢
  omega

theorem packetLength_toNat (f : Frame block) :
    (UInt32.ofNat f.packetLength).toNat = f.packetLength :=
  UInt32.toNat_ofNat_of_lt' f.packetLength_lt

theorem paddingLength_toNat (f : Frame block) :
    (UInt8.ofNat f.padding.length).toNat = f.padding.length := by
  have := f.max_padding
  exact UInt8.toNat_ofNat_of_lt' (Nat.lt_of_le_of_lt this (by decide))

theorem bytes_take_four (f : Frame block) :
    f.bytes.take 4 = encodeUint32 (UInt32.ofNat f.packetLength) :=
  List.take_left' (encodeUint32_length _)

theorem bytes_drop_four (f : Frame block) :
    f.bytes.drop 4 = UInt8.ofNat f.padding.length :: (f.payload ++ f.padding) :=
  List.drop_left' (encodeUint32_length _)

/-- A frame for an alignment that is known only by an equation. -/
theorem exists_of_eq {block' : Nat} (h : block = block') (f : Frame block) :
    ∃ g : Frame block', g.payload = f.payload ∧ g.bytes = f.bytes := by
  subst h
  exact ⟨f, rfl, rfl⟩

/-- The payload is a function of the bytes of the packet. -/
theorem payload_eq_of_bytes_eq {f g : Frame block} (h : f.bytes = g.bytes) :
    f.payload = g.payload := by
  have hlen := congrArg List.length h
  rw [bytes_length, bytes_length] at hlen
  have htail := congrArg (List.drop 4) h
  rw [bytes_drop_four, bytes_drop_four, List.cons.injEq] at htail
  have hpad := congrArg UInt8.toNat htail.1
  rw [paddingLength_toNat, paddingLength_toNat] at hpad
  refine (List.append_inj htail.2 ?_).1
  simp only [packetLength] at hlen
  omega

end Frame

/-! ### Validation -/

theorem validatePacketLength_ok {transport : Transport} {packetLength : UInt32} {u : Unit} :
    validatePacketLength transport packetLength = .ok u ↔
      12 ≤ packetLength.toNat ∧ packetLength.toNat + 4 ≤ maxPacketSize ∧
        (packetLength.toNat + 4) % blockSizeFor transport.incomingEncryptionActive = 0 := by
  simp only [validatePacketLength, bind_eq_ok, failIf_eq_ok]
  simp [minPacketSize, packetLengthBytes]

theorem validatePacketPadding_ok {packetLength : UInt32} {paddingLength : UInt8} {u : Unit} :
    validatePacketPadding packetLength paddingLength = .ok u ↔
      minPaddingLength ≤ paddingLength.toNat ∧
        paddingLength.toNat + 2 ≤ packetLength.toNat := by
  simp only [validatePacketPadding, bind_eq_ok, failIf_eq_ok]
  simp only [paddingLengthBytes, minPayloadBytes]
  constructor
  · rintro ⟨_, hmin, hmax⟩
    omega
  · rintro ⟨hmin, hmax⟩
    exact ⟨(), by omega, by omega⟩

/-- The padding fills the last block, with at least four bytes. -/
theorem calculatePaddingLength_spec (transport : Transport) (payloadSize : Nat) :
    minPaddingLength ≤ calculatePaddingLength transport payloadSize ∧
      calculatePaddingLength transport payloadSize < 20 ∧
      (5 + payloadSize + calculatePaddingLength transport payloadSize) %
        blockSizeFor transport.outgoingEncryptionActive = 0 := by
  unfold calculatePaddingLength
  simp only [minPaddingLength, packetLengthBytes, paddingLengthBytes, blockSizeFor, blockSize,
    aesBlockSize]
  split <;> omega

/-- A payload is accepted when it is not empty and its packet is not too large. -/
theorem checkSizes_ok {transport : Transport} {payload : Bytes} {n : Nat} :
    checkSizes transport payload = .ok n ↔
      payload ≠ [] ∧ n = calculatePaddingLength transport payload.length ∧
        5 + payload.length + n ≤ maxPacketSize := by
  have hpad := (calculatePaddingLength_spec transport payload.length).2.1
  have hne : payload ≠ [] ↔ 1 ≤ payload.length := List.length_pos_iff.symm
  simp only [checkSizes, validatePayloadSize, bind_eq_ok, failIf_eq_ok, pure_eq_ok, hne]
  simp only [paddingLengthBytes, packetLengthBytes, maxPacketSize]
  constructor
  · rintro ⟨_, h1, _, h2, _, h3, _, h4, rfl⟩
    exact ⟨by omega, rfl, by omega⟩
  · rintro ⟨h1, rfl, h2⟩
    exact ⟨(), by omega, (), by omega, (), by omega, (), by omega, rfl⟩

/-- The last two checks never fail: the padding is short, and a packet that passed the check
before them is short as well. -/
theorem checkSizes_error {transport : Transport} {payload : Bytes} {e : Stop}
    (h : checkSizes transport payload = .error e) :
    e = error "Payload cannot be empty" ∨ e = error "Packet size exceeds maximum" := by
  have hpad := (calculatePaddingLength_spec transport payload.length).2.1
  simp only [checkSizes, validatePayloadSize, bind_eq_error, failIf_eq_error, failIf_eq_ok,
    pure_ne_error] at h
  simp only [paddingLengthBytes, packetLengthBytes, maxPacketSize] at h
  obtain ⟨-, rfl⟩ |
    ⟨_, -, ⟨-, rfl⟩ | ⟨_, hsize, ⟨hlong, -⟩ | ⟨_, -, ⟨hlong, -⟩ | ⟨_, -, hfalse⟩⟩⟩⟩ := h
  · exact .inl rfl
  · exact .inr rfl
  · omega
  · omega
  · exact hfalse.elim

theorem throwsOnly_checkSizes (transport : Transport) (payload : Bytes) :
    ThrowsOnly (checkSizes transport payload) :=
  throwsOnly_failIf.bind fun _ => throwsOnly_failIf.bind fun _ => throwsOnly_failIf.bind fun _ =>
    throwsOnly_failIf.bind fun _ => throwsOnly_pure

theorem throwsOnly_validatePacketLength (transport : Transport) (packetLength : UInt32) :
    ThrowsOnly (validatePacketLength transport packetLength) :=
  throwsOnly_failIf.bind fun _ => throwsOnly_failIf.bind fun _ => throwsOnly_failIf

theorem throwsOnly_validatePacketPadding (packetLength : UInt32) (paddingLength : UInt8) :
    ThrowsOnly (validatePacketPadding packetLength paddingLength) :=
  throwsOnly_failIf.bind fun _ => throwsOnly_failIf

theorem throwsOnly_calculateHmac (crypto : Crypto) (sequenceNumber : UInt32) (packet : Bytes)
    (macKey : Fixed 32) : ThrowsOnly (calculateHmac crypto sequenceNumber packet macKey) := by
  unfold calculateHmac
  split <;> simp

theorem calculateHmac_ok {crypto : Crypto} {sequenceNumber : UInt32} {packet : Bytes}
    {macKey mac : Fixed 32} :
    calculateHmac crypto sequenceNumber packet macKey = .ok mac ↔
      crypto.authHmacsha256 (encodeUint32 sequenceNumber ++ packet) macKey = some mac := by
  unfold calculateHmac
  split <;> simp_all

/-- The packet that `sendPacket` builds for a payload of an accepted size. -/
theorem frame_of_checkSizes {transport : Transport} {payload : Bytes} {n : Nat}
    (h : checkSizes transport payload = .ok n) (padding : Bytes) (hlen : padding.length = n) :
    ∃ f : Frame (blockSizeFor transport.outgoingEncryptionActive), f.payload = payload ∧
      encodePacketLength (UInt32.ofNat (paddingLengthBytes + payload.length + n)) ++
        (UInt8.ofNat n :: (payload ++ padding)) = f.bytes ∧
      f.bytes.length = paddingLengthBytes + payload.length + n + packetLengthBytes := by
  subst hlen
  obtain ⟨hne, hpad, hsize⟩ := checkSizes_ok.mp h
  obtain ⟨hmin, hmax, haligned⟩ := calculatePaddingLength_spec transport payload.length
  have hpos := List.length_pos_iff.mpr hne
  rw [← hpad] at hmin hmax haligned
  refine ⟨⟨payload, padding, hne, hmin, by omega, ?_, hsize, haligned⟩, rfl, rfl, ?_⟩
  rotate_left
  · rw [Frame.bytes_length, Nat.add_comm]
    rfl
  -- The smallest packet has one byte of payload and fills two blocks of eight.
  simp only [minPaddingLength, minPacketSize, blockSizeFor, blockSize, aesBlockSize]
    at hmin haligned ⊢
  split at haligned <;> omega

/-! ### The cipher -/

/-- What is left of a transport when its counters and stream positions are forgotten. -/
structure Keying where
  outgoingActive : Bool
  incomingActive : Bool
  outgoingCipher : Option (Fixed 32 × Fixed 16)
  incomingCipher : Option (Fixed 32 × Fixed 16)
  outgoingMacKey : Fixed 32
  incomingMacKey : Fixed 32

def keying (transport : Transport) : Keying where
  outgoingActive := transport.outgoingEncryptionActive
  incomingActive := transport.incomingEncryptionActive
  outgoingCipher := transport.outgoingCipher.map fun c => (c.key, c.iv)
  incomingCipher := transport.incomingCipher.map fun c => (c.key, c.iv)
  outgoingMacKey := transport.outgoingMacKey
  incomingMacKey := transport.incomingMacKey

theorem wp_cipherUpdate {texts : CipherTexts} {active : Transport → Bool}
    {cipher : Transport → Option Cipher} {install : Transport → Cipher → Transport}
    {update : Cipher → Bytes → Option Bytes} {bytes : Bytes} {w : Wire}
    {post : Bytes → Wire → Prop} {fail : Stop → Wire → Prop}
    (ok : ∀ context output, active w.transport = true → cipher w.transport = some context →
      update context bytes = some output → output.length = bytes.length →
      post output { w with transport := install w.transport (context.advance bytes.length) })
    (unmoved : ∀ what, fail (.thrown what) w)
    (moved : ∀ what context, cipher w.transport = some context →
      fail (.thrown what)
        { w with transport := install w.transport (context.advance bytes.length) }) :
    WP (cipherUpdate texts active cipher install update bytes) w post fail := by
  simp only [cipherUpdate, WP.bind_iff, WP.get_iff, WP.failIf_iff]
  refine ⟨fun _ => unmoved _, fun hactive => ?_⟩
  cases hcipher : cipher w.transport with
  | none => exact unmoved _
  | some context =>
      simp only [WP.bind_iff, WP.failIf_iff]
      refine ⟨fun _ => unmoved _, fun _ => ?_⟩
      cases hupdate : update context bytes with
      | none => exact unmoved _
      | some output =>
          simp only [WP.bind_iff, WP.set_iff, WP.failIf_iff, WP.pure_iff]
          exact ⟨fun _ => moved _ context hcipher, fun hlen =>
            ok context output (Decidable.not_not.mp hactive) hcipher hupdate
              (Decidable.not_not.mp hlen)⟩

/-! ### Sending -/

/-- What a call of `sendPacket` has changed when it returns (`done`) or throws. A tag is
computed at most once, for a frame with the payload, and always before a normal return
in encrypted mode. -/
structure Sending (payload : Bytes) (w t : Wire) (done : Bool) : Prop where
  trace : t.trace = w.trace ++ .sending w.transport payload :: if done then [.sent payload] else []
  reads : t.sock.reads = w.sock.reads
  random : t.random = w.random
  verified : t.verified = w.verified
  keying : t.transport.keying = w.transport.keying
  incomingSequence : t.transport.incomingSequence = w.transport.incomingSequence
  incomingCipher : t.transport.incomingCipher = w.transport.incomingCipher
  outgoingSequence : t.transport.outgoingSequence =
    w.transport.outgoingSequence + if done then 1 else 0
  sizes : done = true → ∃ n, checkSizes w.transport payload = .ok n
  tag : (t.authenticated = w.authenticated ∧
      (done = true → w.transport.outgoingEncryptionActive = false)) ∨
    ∃ f : Frame (blockSizeFor w.transport.outgoingEncryptionActive), f.payload = payload ∧
      t.authenticated = w.authenticated ++ [(w.transport.outgoingSequence, f.bytes)]

theorem wp_sendPacket {crypto : Crypto} {payload : Bytes} {w : Wire} {post : Unit → Wire → Prop}
    {fail : Stop → Wire → Prop} (ok : ∀ t, Sending payload w t true → post () t)
    (stop : ∀ what t, Sending payload w t false → fail (.thrown what) t) :
    WP (sendPacket crypto payload) w post fail := by
  simp only [sendPacket, generatePadding, encryptOutgoingPacket, WP.bind_iff, WP.get_iff,
    wp_record, WP.lift_iff, WP.failIf_iff, wp_randombytesBuf, WP.ite_iff, WP.modify_iff,
    wp_onSocket]
  refine ⟨fun n hsizes => ?_, fun e he => ?_⟩
  · obtain ⟨f, hpayload, hpacket, hlen⟩ := frame_of_checkSizes hsizes
      ((List.range n).map fun i => w.random (w.drawn + i)) (by simp)
    rw [hpacket]
    refine ⟨fun hne => absurd hlen hne, fun _ => ⟨fun hactive => ⟨fun tag _ => ?_, fun e he => ?_⟩,
      fun hinactive => ?_⟩⟩
    · have advanced : ∀ context count, w.transport.outgoingCipher = some context →
          keying { w.transport with outgoingCipher := some (context.advance count) } =
            w.transport.keying := by
        intro context count hcontext
        simp [keying, hcontext, Cipher.advance]
      refine wp_cipherUpdate (fun context output _ hcontext _ _ => ?_) (fun what => ?_)
        (fun what context hcontext => ?_)
      · refine Socket.wp_writeExact (fun writes => ok _ ?_)
          (fun what writes taken _ => stop what _ ?_)
        · exact ⟨by simp, rfl, rfl, rfl, advanced context _ hcontext, rfl, rfl, rfl,
            fun _ => ⟨n, hsizes⟩, .inr ⟨f, hpayload, rfl⟩⟩
        · exact ⟨by simp, rfl, rfl, rfl, advanced context _ hcontext, rfl, rfl, by simp, by simp,
            .inr ⟨f, hpayload, rfl⟩⟩
      · exact stop what _ ⟨by simp, rfl, rfl, rfl, rfl, rfl, rfl, by simp, by simp,
          .inr ⟨f, hpayload, rfl⟩⟩
      · exact stop what _ ⟨by simp, rfl, rfl, rfl, advanced context _ hcontext, rfl, rfl, by simp,
          by simp, .inr ⟨f, hpayload, rfl⟩⟩
    · obtain ⟨what, rfl⟩ := throwsOnly_calculateHmac _ _ _ _ e he
      exact stop what _ ⟨by simp, rfl, rfl, rfl, rfl, rfl, rfl, by simp, by simp,
        .inl ⟨rfl, by simp⟩⟩
    · refine Socket.wp_writeExact (fun writes => ok _ ?_)
        (fun what writes taken _ => stop what _ ?_)
      · exact ⟨by simp, rfl, rfl, rfl, rfl, rfl, rfl, rfl, fun _ => ⟨n, hsizes⟩,
          .inl ⟨rfl, fun _ => by simpa using hinactive⟩⟩
      · exact ⟨by simp, rfl, rfl, rfl, rfl, rfl, rfl, by simp, by simp, .inl ⟨rfl, by simp⟩⟩
  · obtain ⟨what, rfl⟩ := throwsOnly_checkSizes _ _ e he
    exact stop what _ ⟨by simp, rfl, rfl, rfl, rfl, rfl, rfl, by simp, by simp, .inl ⟨rfl, by simp⟩⟩

theorem Sending.encrypted {payload : Bytes} {w t : Wire} {done : Bool}
    (h : Sending payload w t done) (active : w.transport.outgoingEncryptionActive = true) :
    (t.authenticated = w.authenticated ∧ done = false) ∨
      ∃ f : Frame aesBlockSize, f.payload = payload ∧
        t.authenticated = w.authenticated ++ [(w.transport.outgoingSequence, f.bytes)] := by
  have htag := h.tag
  rw [active] at htag
  rcases htag with ⟨hsame, hdone⟩ | htag
  · exact .inl ⟨hsame, by simpa using hdone⟩
  · exact .inr htag

/-! ### Receiving -/

/-- What every outcome of `receivePacket` leaves alone. -/
structure Untouched (w t : Wire) : Prop where
  writes : t.sock.writes = w.sock.writes
  written : t.sock.written = w.sock.written
  random : t.random = w.random
  drawn : t.drawn = w.drawn
  authenticated : t.authenticated = w.authenticated
  keying : t.transport.keying = w.transport.keying
  outgoingSequence : t.transport.outgoingSequence = w.transport.outgoingSequence
  outgoingCipher : t.transport.outgoingCipher = w.transport.outgoingCipher

/-- The bytes that were taken from the stream for a frame, and the tag that was checked. -/
def Consumed (w t : Wire) (f : Frame (blockSizeFor w.transport.incomingEncryptionActive)) : Prop :=
  if w.transport.incomingEncryptionActive then
    (∃ ciphertext tag : Bytes, ciphertext.length = f.bytes.length ∧ tag.length = macBytes ∧
      Socket.stream w.sock.reads = ciphertext ++ tag ++ Socket.stream t.sock.reads) ∧
    t.verified = w.verified ++ [(w.transport.incomingSequence, f.bytes)]
  else
    Socket.stream w.sock.reads = f.bytes ++ Socket.stream t.sock.reads ∧ t.verified = w.verified

structure Received (payload : Bytes) (w t : Wire) : Prop extends Untouched w t where
  trace : t.trace = w.trace ++ [.received w.transport payload]
  incomingSequence : t.transport.incomingSequence = w.transport.incomingSequence + 1
  frame : ∃ f : Frame (blockSizeFor w.transport.incomingEncryptionActive),
    payload = f.payload ∧ Consumed w t f

structure NotReceived (w t : Wire) : Prop extends Untouched w t where
  trace : t.trace = w.trace
  incomingSequence : t.transport.incomingSequence = w.transport.incomingSequence
  stream : Socket.stream t.sock.reads <:+ Socket.stream w.sock.reads
  verified : w.verified <+: t.verified

theorem Received.encrypted {payload : Bytes} {w t : Wire} (h : Received payload w t)
    (active : w.transport.incomingEncryptionActive = true) :
    ∃ f : Frame aesBlockSize, payload = f.payload ∧
      (∃ ciphertext tag : Bytes, ciphertext.length = f.bytes.length ∧ tag.length = macBytes ∧
        Socket.stream w.sock.reads = ciphertext ++ tag ++ Socket.stream t.sock.reads) ∧
      t.verified = w.verified ++ [(w.transport.incomingSequence, f.bytes)] := by
  have hframe := h.frame
  simp only [Consumed] at hframe
  rw [active] at hframe
  exact hframe

theorem Received.plaintext {payload : Bytes} {w t : Wire} (h : Received payload w t)
    (inactive : w.transport.incomingEncryptionActive = false) :
    ∃ f : Frame blockSize, payload = f.payload ∧
      Socket.stream w.sock.reads = f.bytes ++ Socket.stream t.sock.reads ∧
      t.verified = w.verified := by
  have hframe := h.frame
  simp only [Consumed] at hframe
  rw [inactive] at hframe
  exact hframe

/-- A body that passes both checks is the rest of a frame, and the range that is copied
from it is the payload. -/
theorem frame_of_valid {transport : Transport} {packetLength : UInt32} {paddingLength : UInt8}
    {body : Bytes} (hlen : body.length = packetLength.toNat) (hhead : body[0]? = some paddingLength)
    (hlength : validatePacketLength transport packetLength = .ok ())
    (hpadding : validatePacketPadding packetLength paddingLength = .ok ()) :
    ∃ f : Frame (blockSizeFor transport.incomingEncryptionActive),
      f.bytes = encodeUint32 packetLength ++ body ∧
        f.payload = (body.drop 1).take (packetLength.toNat - 1 - paddingLength.toNat) := by
  obtain ⟨hmin, hmax, haligned⟩ := validatePacketLength_ok.mp hlength
  obtain ⟨hpadmin, hpadmax⟩ := validatePacketPadding_ok.mp hpadding
  have hp := paddingLength.toNat_lt
  obtain ⟨rest, rfl⟩ : ∃ rest, body = paddingLength :: rest := by
    cases body with
    | nil => simp at hhead
    | cons b rest =>
        simp only [List.getElem?_cons_zero, Option.some.injEq] at hhead
        exact ⟨rest, by rw [hhead]⟩
  rw [List.length_cons] at hlen
  set n := packetLength.toNat - 1 - paddingLength.toNat with hn
  have htake : (rest.take n).length = n := by
    rw [List.length_take]
    omega
  have hdrop : (rest.drop n).length = paddingLength.toNat := by
    rw [List.length_drop]
    omega
  have htotal : 5 + (rest.take n).length + (rest.drop n).length = packetLength.toNat + 4 := by
    rw [htake, hdrop]
    omega
  refine ⟨⟨rest.take n, rest.drop n, ?_, by rwa [hdrop], by rw [hdrop]; omega, ?_,
    by rwa [htotal], by rwa [htotal]⟩, ?_, rfl⟩
  · rw [← List.length_pos_iff, htake]
    omega
  · rw [htotal, minPacketSize]
    omega
  · have hpl : 1 + (rest.take n).length + (rest.drop n).length = packetLength.toNat := by omega
    simp only [Frame.bytes, Frame.packetLength]
    rw [hpl, UInt32.ofNat_toNat, hdrop, UInt8.ofNat_toNat, List.take_append_drop]

theorem wp_extractPayload {packetLength : UInt32} {paddingLength : UInt8} {body : Bytes}
    {start : Nat} {w : Wire} {post : Bytes → Wire → Prop} {fail : Stop → Wire → Prop}
    (hbody : start + packetLength.toNat ≤ body.length + 1)
    (ok : validatePacketPadding packetLength paddingLength = .ok () →
      post ((body.drop start).take (packetLength.toNat - 1 - paddingLength.toNat)) { w with
        transport := { w.transport with
          incomingSequence := w.transport.incomingSequence + 1 } })
    (reject : ∀ what, validatePacketPadding packetLength paddingLength = .error (.thrown what) →
      fail (.thrown what) w) :
    WP (extractPayload packetLength paddingLength body start) w post fail := by
  simp only [extractPayload, WP.bind_iff, WP.lift_iff, wp_sizeSub, wp_copyRange, WP.modify_iff,
    WP.pure_iff]
  refine ⟨fun _ hpadding => ?_, fun e he => ?_⟩
  · obtain ⟨hmin, hmax⟩ := validatePacketPadding_ok.mp hpadding
    simp only [paddingLengthBytes]
    refine ⟨fun _ => ⟨fun _ => ⟨fun _ => ok hpadding, fun h => absurd ?_ h⟩,
      fun h => absurd ?_ h⟩, fun h => absurd ?_ h⟩ <;> omega
  · obtain ⟨what, rfl⟩ := throwsOnly_validatePacketPadding _ _ e he
    exact reject what he

theorem wp_receivePlaintext {w : Wire} {post : Bytes → Wire → Prop} {fail : Stop → Wire → Prop}
    (ok : ∀ (f : Frame (blockSizeFor w.transport.incomingEncryptionActive)) reads,
      Socket.stream w.sock.reads = f.bytes ++ Socket.stream reads →
      post f.payload { w with
        sock := { w.sock with reads := reads }
        transport := { w.transport with
          incomingSequence := w.transport.incomingSequence + 1 } })
    (stop : ∀ e reads, e ≠ .fault → Socket.stream reads <:+ Socket.stream w.sock.reads →
      fail e { w with sock := { w.sock with reads := reads } }) :
    WP receivePlaintext w post fail := by
  simp only [receivePlaintext, WP.bind_iff, WP.get_iff, wp_onSocket, WP.lift_iff, wp_byteAt]
  refine Socket.wp_readExact (fun lengthBytes reads hlen hstream => ⟨fun _ hlength => ?_,
    fun e he => ?_⟩) stop
  · refine Socket.wp_readExact (fun pbody reads' hbody hstream' => ?_)
      (fun e reads' he hsuffix => stop e reads' he ?_)
    · have hwhole : Socket.stream w.sock.reads =
          encodeUint32 (decodePacketLength lengthBytes) ++ pbody ++ Socket.stream reads' := by
        rw [decodePacketLength_eq, encodeUint32_decodeUint32 hlen, hstream, hstream',
          List.append_assoc]
      have hpos := (validatePacketLength_ok.mp hlength).1
      refine ⟨fun paddingLength hhead => ?_, fun hnone => ?_⟩
      · refine wp_extractPayload (by omega) (fun hpadding => ?_) (fun what _ => ?_)
        · obtain ⟨f, hbytes, hpayload⟩ := frame_of_valid hbody hhead hlength hpadding
          rw [← hpayload]
          exact ok f reads' (by rw [hwhole, hbytes])
        · refine stop _ reads' (by simp) ?_
          rw [hwhole]
          exact List.suffix_append _ _
      · rw [List.getElem?_eq_none_iff] at hnone
        omega
    · rw [hstream]
      exact hsuffix.trans (List.suffix_append _ _)
  · obtain ⟨what, rfl⟩ := throwsOnly_validatePacketLength _ _ e he
    refine stop _ reads (by simp) ?_
    rw [hstream]
    exact List.suffix_append _ _

/-- A context for the same stream, at any position. -/
def SameStream (cipher cipher' : Option Cipher) : Prop :=
  cipher'.map (fun c => (c.key, c.iv)) = cipher.map fun c => (c.key, c.iv)

theorem SameStream.advance {cipher : Option Cipher} {context : Cipher} {count : Nat}
    (h : cipher = some context) : SameStream cipher (some (context.advance count)) := by
  simp [SameStream, h, Cipher.advance]

theorem SameStream.trans {a b c : Option Cipher} (hab : SameStream a b) (hbc : SameStream b c) :
    SameStream a c :=
  Eq.trans hbc hab

theorem wp_decryptIncomingBytes {crypto : Crypto} {bytes : Bytes} {w : Wire}
    {post : Bytes → Wire → Prop} {fail : Stop → Wire → Prop}
    (ok : ∀ context output, w.transport.incomingCipher = some context →
      crypto.decryptUpdate context bytes = some output → output.length = bytes.length →
      post output { w with transport :=
        { w.transport with incomingCipher := some (context.advance bytes.length) } })
    (stop : ∀ what cipher, SameStream w.transport.incomingCipher cipher →
      fail (.thrown what) { w with transport := { w.transport with incomingCipher := cipher } }) :
    WP (decryptIncomingBytes crypto bytes) w post fail :=
  wp_cipherUpdate
    (fun context output _ hcontext hupdate hlen => ok context output hcontext hupdate hlen)
    (fun what => stop what _ rfl) (fun what _ hcontext => stop what _ (.advance hcontext))

/-- A packet that decrypts from a ciphertext, the first block and the remainder one after the
other, and that the tag authenticates under the next sequence number. -/
def Authentic (crypto : Crypto) (t : Transport) (ciphertext tag packet : Bytes) : Prop :=
  (∃ context first second plain1 plain2, t.incomingCipher = some context ∧
    ciphertext = first ++ second ∧ packet = plain1 ++ plain2 ∧ first.length = aesBlockSize ∧
    crypto.decryptUpdate context first = some plain1 ∧
    crypto.decryptUpdate (context.advance first.length) second = some plain2) ∧
  ∃ mac, crypto.authHmacsha256 (encodeUint32 t.incomingSequence ++ packet) t.incomingMacKey =
    some mac ∧ tag = mac.val

/-- The length that was decoded from the first block is the beginning of the packet. -/
private theorem packet_eq_append {plain : Bytes} (h : 4 ≤ plain.length) (rest : Bytes) :
    plain ++ rest =
      encodeUint32 (decodePacketLength ((plain.drop 0).take packetLengthBytes)) ++
        (plain ++ rest).drop 4 := by
  have htake : (plain.drop 0).take packetLengthBytes = (plain ++ rest).take 4 := by
    rw [List.drop_zero, packetLengthBytes, List.take_append_of_le_length h]
  rw [htake, decodePacketLength_eq, encodeUint32_decodeUint32 (by simp; omega),
    List.take_append_drop]

theorem wp_receiveEncrypted {crypto : Crypto} {w : Wire} {post : Bytes → Wire → Prop}
    {fail : Stop → Wire → Prop}
    (ok : ∀ (f : Frame (blockSizeFor w.transport.incomingEncryptionActive)) ciphertext tag reads
      cipher, ciphertext.length = f.bytes.length → tag.length = macBytes →
      Socket.stream w.sock.reads = ciphertext ++ tag ++ Socket.stream reads →
      SameStream w.transport.incomingCipher cipher →
      Authentic crypto w.transport ciphertext tag f.bytes →
      post f.payload { w with
        sock := { w.sock with reads := reads }
        transport := { w.transport with
          incomingSequence := w.transport.incomingSequence + 1
          incomingCipher := cipher }
        verified := w.verified ++ [(w.transport.incomingSequence, f.bytes)] })
    (stop : ∀ e reads cipher verified, e ≠ .fault →
      Socket.stream reads <:+ Socket.stream w.sock.reads →
      SameStream w.transport.incomingCipher cipher → w.verified <+: verified →
      fail e { w with
        sock := { w.sock with reads := reads }
        transport := { w.transport with incomingCipher := cipher }
        verified := verified }) :
    WP (receiveEncrypted crypto) w post fail := by
  simp only [receiveEncrypted, WP.bind_iff, WP.get_iff, wp_onSocket, WP.lift_iff, wp_byteAt,
    wp_copyRange, wp_sizeSub, WP.failIf_iff, WP.modify_iff]
  refine Socket.wp_readExact (fun first reads hfirst hstream => ?_)
    (fun e reads he hsuffix => stop e reads _ _ he hsuffix rfl (List.prefix_refl _))
  have suffix1 : Socket.stream reads <:+ Socket.stream w.sock.reads := by
    rw [hstream]
    exact List.suffix_append _ _
  refine wp_decryptIncomingBytes (fun context plain1 hcontext hdecrypt1 hplain1 => ?_)
    (fun what cipher hsame => stop _ reads _ _ (by simp) suffix1 hsame (List.prefix_refl _))
  have hsame : SameStream w.transport.incomingCipher (some (context.advance first.length)) :=
    .advance hcontext
  rw [hfirst] at hplain1
  have hfour : packetLengthBytes = 4 := rfl
  have hblock : aesBlockSize = 16 := rfl
  have hsplit := packet_eq_append (by omega : 4 ≤ plain1.length)
  generalize decodePacketLength ((plain1.drop 0).take packetLengthBytes) = packetLength at hsplit ⊢
  refine ⟨fun _ => ⟨fun _ hlength => ?_, fun e he => ?_⟩, fun h => absurd (by omega) h⟩
  swap
  · obtain ⟨what, rfl⟩ := throwsOnly_validatePacketLength _ _ e he
    exact stop _ reads _ _ (by simp) suffix1 hsame (List.prefix_refl _)
  obtain ⟨hmin, hmax, -⟩ := validatePacketLength_ok.mp hlength
  refine ⟨fun _ => ?_, fun h => absurd (by omega) h⟩
  refine Socket.wp_readExact (fun second reads2 hsecond hstream2 => ?_)
    (fun e reads2 he hsuffix => stop e reads2 _ _ he (hsuffix.trans suffix1) hsame
      (List.prefix_refl _))
  have suffix2 : Socket.stream reads2 <:+ Socket.stream w.sock.reads := by
    refine List.IsSuffix.trans ?_ suffix1
    rw [hstream2]
    exact List.suffix_append _ _
  refine wp_decryptIncomingBytes (fun context2 plain2 hcontext2 hdecrypt2 hplain2 => ?_)
    (fun what cipher2 hsame2 => stop _ reads2 _ _ (by simp) suffix2 (hsame.trans hsame2)
      (List.prefix_refl _))
  cases hcontext2
  have hsame' : SameStream w.transport.incomingCipher
      (some ((context.advance first.length).advance second.length)) :=
    hsame.trans (.advance rfl)
  refine ⟨fun _ => stop _ reads2 _ _ (by simp [error]) suffix2 hsame' (List.prefix_refl _),
    fun hpacket => ?_⟩
  rw [Decidable.not_not] at hpacket
  refine Socket.wp_readExact (fun tag reads3 htag hstream3 => ?_)
    (fun e reads3 he hsuffix => stop e reads3 _ _ he (hsuffix.trans suffix2) hsame'
      (List.prefix_refl _))
  have hwhole : Socket.stream w.sock.reads =
      (first ++ second) ++ tag ++ Socket.stream reads3 := by
    rw [hstream, hstream2, hstream3]
    simp only [List.append_assoc]
  have suffix3 : Socket.stream reads3 <:+ Socket.stream w.sock.reads := by
    rw [hwhole]
    exact List.suffix_append _ _
  refine ⟨fun mac hmac => ⟨fun _ => stop _ reads3 _ _ (by simp [error]) suffix3 hsame'
    (List.prefix_refl _), fun heq => ⟨fun paddingLength hhead => ?_, fun hnone => ?_⟩⟩,
    fun e he => ?_⟩
  · refine wp_extractPayload (by rw [hpacket, hfour, paddingLengthBytes]; omega)
      (fun hpadding => ?_)
      (fun what _ => stop _ reads3 _ _ (by simp) suffix3 hsame' (List.prefix_append _ _))
    have hbody : ((plain1 ++ plain2).drop 4).length = packetLength.toNat := by
      rw [List.length_drop, hpacket]
      omega
    obtain ⟨f, hbytes, hpayload⟩ := frame_of_valid hbody
      (by rwa [List.getElem?_drop]) hlength hpadding
    rw [← hsplit] at hbytes
    rw [List.drop_drop] at hpayload
    have hcount : (first ++ second).length = f.bytes.length := by
      rw [hbytes, hpacket, List.length_append, hfirst, hsecond]
      omega
    have hauthentic : Authentic crypto w.transport (first ++ second) tag f.bytes := by
      rw [hbytes]
      exact ⟨⟨context, first, second, plain1, plain2, hcontext, rfl, rfl, hfirst, hdecrypt1,
        hdecrypt2⟩, mac, calculateHmac_ok.mp hmac, Decidable.not_not.mp heq⟩
    have done := ok f (first ++ second) tag reads3 _ hcount htag hwhole hsame' hauthentic
    rw [hbytes, hpayload] at done
    exact done
  · rw [List.getElem?_eq_none_iff, hpacket] at hnone
    omega
  · obtain ⟨what, rfl⟩ := throwsOnly_calculateHmac _ _ _ _ e he
    exact stop _ reads3 _ _ (by simp) suffix3 hsame' (List.prefix_refl _)

theorem wp_receivePacket {crypto : Crypto} {w : Wire} {post : Bytes → Wire → Prop}
    {fail : Stop → Wire → Prop} (ok : ∀ payload t, Received payload w t → post payload t)
    (stop : ∀ e t, e ≠ .fault → NotReceived w t → fail e t) :
    WP (receivePacket crypto) w post fail := by
  simp only [receivePacket, WP.bind_iff, WP.get_iff, WP.ite_iff, wp_record, WP.pure_iff]
  constructor
  · intro hinactive
    refine wp_receivePlaintext (fun f reads hstream => ok _ _ ?_)
      (fun e reads he hsuffix => stop e _ he ?_)
    · refine ⟨⟨rfl, rfl, rfl, rfl, rfl, rfl, rfl, rfl⟩, rfl, rfl, f, rfl, ?_⟩
      rw [Consumed, if_neg (by simpa using hinactive)]
      exact ⟨hstream, rfl⟩
    · exact ⟨⟨rfl, rfl, rfl, rfl, rfl, rfl, rfl, rfl⟩, rfl, rfl, hsuffix, List.prefix_refl _⟩
  · intro hactive
    have same : ∀ cipher sequence, SameStream w.transport.incomingCipher cipher →
        keying { w.transport with incomingSequence := sequence, incomingCipher := cipher } =
          w.transport.keying := by
      intro cipher sequence hsame
      simp [keying, hsame.symm]
    refine wp_receiveEncrypted (fun f ciphertext tag reads cipher hlen htag hstream hsame _ =>
      ok _ _ ?_) (fun e reads cipher verified he hsuffix hsame hverified => stop e _ he ?_)
    · refine ⟨⟨rfl, rfl, rfl, rfl, rfl, same cipher _ hsame, rfl, rfl⟩, rfl, rfl, f, rfl, ?_⟩
      rw [Consumed, if_pos (by simpa using hactive)]
      exact ⟨⟨ciphertext, tag, hlen, htag, hstream⟩, rfl⟩
    · exact ⟨⟨rfl, rfl, rfl, rfl, rfl, same cipher _ hsame, rfl, rfl⟩, rfl, rfl, hsuffix,
        hverified⟩

/-- Every packet takes bytes from the stream. -/
theorem Received.stream_lt {payload : Bytes} {w t : Wire} (h : Received payload w t) :
    (Socket.stream t.sock.reads).length < (Socket.stream w.sock.reads).length := by
  cases hactive : w.transport.incomingEncryptionActive with
  | false =>
      obtain ⟨f, -, hstream, -⟩ := h.plaintext hactive
      rw [hstream, List.length_append, Frame.bytes_length]
      omega
  | true =>
      obtain ⟨f, -, ⟨ciphertext, tag, hlen, -, hstream⟩, -⟩ := h.encrypted hactive
      rw [hstream, List.length_append, List.length_append, hlen, Frame.bytes_length]
      omega

theorem Received.ne_nil {payload : Bytes} {w t : Wire} (h : Received payload w t) :
    payload ≠ [] := by
  obtain ⟨f, rfl, -⟩ := h.frame
  exact f.payload_ne_nil

end SshClient.Transport

import SshClient.Transport.Frames

/-!
# What is sent is received

Abstractly a direction of a transport is a line: a sequence number and, once keys are
installed, a cipher context and a MAC key. A frame has one image on a line and moves it
to the next one. `sendPacket` writes the image of a frame on the outgoing line of the
sender, and `receivePacket` reads it back from the same line, so both ends stay on the
same line whatever the sizes of the packets are.
-/

namespace SshClient.Transport

open Control

/-! ### Counter mode -/

/-- Combine bytes with a key stream from a position on. -/
def xorStream (keystream : Nat → UInt8) (position : Nat) (bytes : Bytes) : Bytes :=
  bytes.mapIdx fun i b => b ^^^ keystream (position + i)

variable {ks : Nat → UInt8}

@[simp] theorem xorStream_length (position : Nat) (bytes : Bytes) :
    (xorStream ks position bytes).length = bytes.length := by
  simp [xorStream]

theorem xorStream_append (position : Nat) (a b : Bytes) :
    xorStream ks position (a ++ b) =
      xorStream ks position a ++ xorStream ks (position + a.length) b := by
  simp only [xorStream, List.mapIdx_append]
  congr 2
  funext i b
  rw [Nat.add_assoc, Nat.add_comm i]

@[simp] theorem xorStream_xorStream (position : Nat) (bytes : Bytes) :
    xorStream ks position (xorStream ks position bytes) = bytes := by
  apply List.ext_getElem
  · simp
  · intro i h1 h2
    simp only [xorStream, List.getElem_mapIdx]
    rw [UInt8.xor_assoc, UInt8.xor_self, UInt8.xor_zero]

/-- What is assumed of the libraries: AES-256-CTR combines bytes with a key stream that
depends on key and iv, the MAC is a total function, and contexts can be set up. -/
structure Working (crypto : Crypto) (keystream : Fixed 32 → Fixed 16 → Nat → UInt8) : Prop where
  encrypt : ∀ context bytes, crypto.encryptUpdate context bytes =
    some (xorStream (keystream context.key context.iv) context.position bytes)
  decrypt : ∀ context bytes, crypto.decryptUpdate context bytes =
    some (xorStream (keystream context.key context.iv) context.position bytes)
  hmac : ∀ input key, ∃ tag, crypto.authHmacsha256 input key = some tag
  contextNew : ∀ direction, crypto.contextNew direction = true
  cipherInit : ∀ direction key iv, crypto.cipherInit direction key iv = true

/-! ### Lines -/

/-- One direction of a transport. -/
structure Line where
  sequence : UInt32
  keys : Option (Cipher × Fixed 32)

namespace Line

def block (line : Line) : Nat := blockSizeFor line.keys.isSome

/-- The line after a packet of `size` bytes. -/
def next (line : Line) (size : Nat) : Line where
  sequence := line.sequence + 1
  keys := line.keys.map fun k => (k.1.advance size, k.2)

end Line

/-- The outgoing line, unless encryption is active without a cipher. -/
def outgoing (t : Transport) : Option Line :=
  if t.outgoingEncryptionActive then
    t.outgoingCipher.map fun c => ⟨t.outgoingSequence, some (c, t.outgoingMacKey)⟩
  else some ⟨t.outgoingSequence, none⟩

def incoming (t : Transport) : Option Line :=
  if t.incomingEncryptionActive then
    t.incomingCipher.map fun c => ⟨t.incomingSequence, some (c, t.incomingMacKey)⟩
  else some ⟨t.incomingSequence, none⟩

/-- The bytes of a packet on a line. -/
def image (crypto : Crypto) (keystream : Fixed 32 → Fixed 16 → Nat → UInt8) (line : Line)
    (packet : Bytes) : Bytes :=
  match line.keys with
  | none => packet
  | some (context, macKey) =>
      xorStream (keystream context.key context.iv) context.position packet ++
        match crypto.authHmacsha256 (encodeUint32 line.sequence ++ packet) macKey with
        | some tag => tag.val
        | none => []

variable {crypto : Crypto} {keystream : Fixed 32 → Fixed 16 → Nat → UInt8} {w : Wire} {line : Line}

theorem outgoing_cases (h : outgoing w.transport = some line) :
    (line = ⟨w.transport.outgoingSequence, none⟩ ∧
      w.transport.outgoingEncryptionActive = false) ∨
    ∃ context, line = ⟨w.transport.outgoingSequence, some (context, w.transport.outgoingMacKey)⟩ ∧
      w.transport.outgoingEncryptionActive = true ∧
      w.transport.outgoingCipher = some context := by
  unfold outgoing at h
  split at h
  · rename_i hactive
    obtain ⟨context, hcontext, rfl⟩ := Option.map_eq_some_iff.mp h
    exact .inr ⟨context, rfl, hactive, hcontext⟩
  · rename_i hactive
    cases h
    exact .inl ⟨rfl, by simpa using hactive⟩

theorem incoming_cases (h : incoming w.transport = some line) :
    (line = ⟨w.transport.incomingSequence, none⟩ ∧
      w.transport.incomingEncryptionActive = false) ∨
    ∃ context, line = ⟨w.transport.incomingSequence, some (context, w.transport.incomingMacKey)⟩ ∧
      w.transport.incomingEncryptionActive = true ∧
      w.transport.incomingCipher = some context := by
  unfold incoming at h
  split at h
  · rename_i hactive
    obtain ⟨context, hcontext, rfl⟩ := Option.map_eq_some_iff.mp h
    exact .inr ⟨context, rfl, hactive, hcontext⟩
  · rename_i hactive
    cases h
    exact .inl ⟨rfl, by simpa using hactive⟩

/-! ### The sender -/

/-- The padding of a payload, by the alignment of its line. -/
def paddingFor (block payloadSize : Nat) : Nat :=
  minPaddingLength + (block - (minPaddingLength + (payloadSize + packetLengthBytes +
    paddingLengthBytes)) % block) % block

/-- A payload that `sendPacket` does not reject for its size. -/
def Fits (block : Nat) (payload : Bytes) : Prop :=
  payload ≠ [] ∧ 5 + payload.length + paddingFor block payload.length ≤ maxPacketSize

instance (block : Nat) (payload : Bytes) : Decidable (Fits block payload) :=
  inferInstanceAs (Decidable (_ ∧ _))

theorem checkSizes_eq_ok_iff {t : Transport} {payload : Bytes} {n : Nat} :
    checkSizes t payload = .ok n ↔
      Fits (blockSizeFor t.outgoingEncryptionActive) payload ∧
        n = paddingFor (blockSizeFor t.outgoingEncryptionActive) payload.length := by
  have hpad : calculatePaddingLength t payload.length =
      paddingFor (blockSizeFor t.outgoingEncryptionActive) payload.length := rfl
  rw [checkSizes_ok, hpad, Fits]
  constructor
  · rintro ⟨h1, rfl, h2⟩
    exact ⟨⟨h1, h2⟩, rfl⟩
  · rintro ⟨⟨h1, h2⟩, rfl⟩
    exact ⟨h1, rfl, h2⟩

theorem encryptOutgoingPacket_run (working : Working crypto keystream) {context : Cipher}
    (active : w.transport.outgoingEncryptionActive = true)
    (hcontext : w.transport.outgoingCipher = some context) {packet : Bytes}
    (hlen : packet.length ≤ 2147483647) :
    (encryptOutgoingPacket crypto packet).run w =
      .ok (xorStream (keystream context.key context.iv) context.position packet) { w with
        transport := { w.transport with
          outgoingCipher := some (context.advance packet.length) } } := by
  apply WP.run_eq
  simp only [encryptOutgoingPacket, cipherUpdate, WP.bind_iff, WP.get_iff, WP.failIf_iff, active,
    hcontext, working.encrypt]
  simp [hlen]

/-- A payload of an accepted size is sent as the image of a frame. -/
theorem sendPacket_of_fits (working : Working crypto keystream)
    (lossless : Socket.Lossless w.sock.writes) (h : outgoing w.transport = some line)
    {payload : Bytes} (fits : Fits line.block payload) :
    ∃ t, ∃ f : Frame line.block, (sendPacket crypto payload).run w = .ok () t ∧
      f.payload = payload ∧
      t.sock.written = w.sock.written ++ image crypto keystream line f.bytes ∧
      Socket.Lossless t.sock.writes ∧
      outgoing t.transport = some (line.next f.bytes.length) ∧
      f.padding.length = paddingFor line.block payload.length := by
  have hblock : line.block = blockSizeFor w.transport.outgoingEncryptionActive := by
    rcases outgoing_cases h with ⟨rfl, hactive⟩ | ⟨context, rfl, hactive, -⟩ <;>
      simp [Line.block, hactive]
  obtain ⟨n, hsizes⟩ : ∃ n, checkSizes w.transport payload = .ok n :=
    ⟨_, checkSizes_eq_ok_iff.mpr ⟨hblock ▸ fits, rfl⟩⟩
  obtain ⟨f, hpayload, hpacket, hlen⟩ := frame_of_checkSizes hsizes
    ((List.range n).map fun i => w.random (w.drawn + i)) (by simp)
  rw [hblock]
  have hpadding : f.padding.length =
      paddingFor (blockSizeFor w.transport.outgoingEncryptionActive) payload.length := by
    rw [← (checkSizes_eq_ok_iff.mp hsizes).2]
    rw [Frame.bytes_length, Frame.packetLength, hpayload] at hlen
    simp only [paddingLengthBytes, packetLengthBytes] at hlen
    omega
  suffices hwp : WP (sendPacket crypto payload) w (fun _ t =>
      t.sock.written = w.sock.written ++ image crypto keystream line f.bytes ∧
      Socket.Lossless t.sock.writes ∧
      outgoing t.transport = some (line.next f.bytes.length)) (fun _ _ => False) by
    obtain ⟨_, t, run, hwritten, hwrites, hline⟩ := hwp.exists_ok
    exact ⟨t, f, run, hpayload, hwritten, hwrites, hline, hpadding⟩
  have hint : f.bytes.length ≤ 2147483647 := by
    have := f.max_size
    rw [Frame.bytes_length, Frame.packetLength]
    simp only [maxPacketSize] at this
    omega
  simp only [sendPacket, generatePadding, WP.bind_iff, WP.get_iff, wp_record, WP.lift_iff, hsizes,
    Except.ok.injEq, forall_eq', reduceCtorEq, false_implies, implies_true, and_true,
    WP.failIf_iff, wp_randombytesBuf, hpacket]
  refine ⟨fun hne => absurd hlen hne, fun _ => ?_⟩
  rcases outgoing_cases h with ⟨rfl, hactive⟩ | ⟨context, rfl, hactive, hcontext⟩
  · obtain ⟨writes, hwrite, hlossless⟩ := Socket.writeExact_of_lossless lossless f.bytes
    simp only [hactive, Bool.false_eq_true, if_false, WP.bind_iff, wp_onSocket, WP.ok_iff hwrite,
      WP.modify_iff]
    exact ⟨rfl, hlossless, by simp [outgoing, Line.next]⟩
  · obtain ⟨tag, htag⟩ := working.hmac
      (encodeUint32 w.transport.outgoingSequence ++ f.bytes) w.transport.outgoingMacKey
    have hmac : calculateHmac crypto w.transport.outgoingSequence f.bytes
        w.transport.outgoingMacKey = .ok tag := by
      simp only [calculateHmac, htag]
    obtain ⟨writes, hwrite, hlossless⟩ := Socket.writeExact_of_lossless lossless
      (xorStream (keystream context.key context.iv) context.position f.bytes ++ tag.val)
    simp only [hactive, if_true, WP.bind_iff, WP.lift_iff, hmac, Except.ok.injEq, forall_eq',
      reduceCtorEq, false_implies, implies_true, and_true, WP.modify_iff]
    refine (WP.ok_iff (encryptOutgoingPacket_run working (by exact hactive) (by exact hcontext)
      hint)).mpr ?_
    simp only [wp_onSocket, WP.ok_iff hwrite]
    exact ⟨by simp [image, htag], hlossless, by simp [outgoing, hactive, Line.next]⟩

/-- A payload of any other size is rejected before anything is written. -/
theorem sendPacket_of_not_fits (crypto : Crypto) (h : outgoing w.transport = some line)
    {payload : Bytes} (fits : ¬ Fits line.block payload) :
    ∃ e t, (sendPacket crypto payload).run w = .error e t ∧ t.sock = w.sock ∧
      t.transport = w.transport ∧
      (e = error "Payload cannot be empty" ∨ e = error "Packet size exceeds maximum") := by
  have hblock : line.block = blockSizeFor w.transport.outgoingEncryptionActive := by
    rcases outgoing_cases h with ⟨rfl, hactive⟩ | ⟨context, rfl, hactive, -⟩ <;>
      simp [Line.block, hactive]
  have hsizes : ∀ n, checkSizes w.transport payload ≠ .ok n :=
    fun n hn => fits (hblock ▸ (checkSizes_eq_ok_iff.mp hn).1)
  have hwp : WP (sendPacket crypto payload) w (fun _ _ => False)
      (fun e t => t.sock = w.sock ∧ t.transport = w.transport ∧
        (e = error "Payload cannot be empty" ∨ e = error "Packet size exceeds maximum")) := by
    simp only [sendPacket, WP.bind_iff, WP.get_iff, wp_record, WP.lift_iff]
    exact ⟨fun n hn => absurd hn (hsizes n), fun _ he =>
      ⟨trivial, trivial, checkSizes_error he⟩⟩
  exact hwp.exists_error

/-! ### The receiver -/

variable {p : List ReadResult → Prop}

theorem decryptIncomingBytes_run (working : Working crypto keystream) {context : Cipher}
    (active : w.transport.incomingEncryptionActive = true)
    (hcontext : w.transport.incomingCipher = some context) {bytes : Bytes}
    (hlen : bytes.length ≤ 2147483647) :
    (decryptIncomingBytes crypto bytes).run w =
      .ok (xorStream (keystream context.key context.iv) context.position bytes) { w with
        transport := { w.transport with
          incomingCipher := some (context.advance bytes.length) } } := by
  apply WP.run_eq
  simp only [decryptIncomingBytes, cipherUpdate, WP.bind_iff, WP.get_iff, WP.failIf_iff, active,
    hcontext, working.decrypt]
  simp [hlen]

/-- The checks that a frame passes. -/
theorem Frame.valid {t : Transport} (f : Frame (blockSizeFor t.incomingEncryptionActive)) :
    validatePacketLength t (UInt32.ofNat f.packetLength) = .ok () ∧
      validatePacketPadding (UInt32.ofNat f.packetLength) (UInt8.ofNat f.padding.length) =
        .ok () := by
  have hmin := f.min_size
  have hmax := f.max_size
  have haligned := f.aligned
  have hpos := List.length_pos_iff.mpr f.payload_ne_nil
  have hpl : f.packetLength = 1 + f.payload.length + f.padding.length := rfl
  have htotal : 5 + f.payload.length + f.padding.length = f.packetLength + 4 := by omega
  rw [htotal] at hmin hmax haligned
  simp only [minPacketSize] at hmin
  rw [validatePacketLength_ok, validatePacketPadding_ok, f.packetLength_toNat,
    f.paddingLength_toNat]
  exact ⟨⟨by omega, hmax, haligned⟩, f.min_padding, by omega⟩

/-- The range that the receiver copies out of a frame. -/
theorem extractPayload_run {t : Transport} (f : Frame (blockSizeFor t.incomingEncryptionActive))
    {body : Bytes} {start : Nat} (hbody : body.drop start = f.payload ++ f.padding) :
    (extractPayload (UInt32.ofNat f.packetLength) (UInt8.ofNat f.padding.length) body start).run w =
      .ok f.payload { w with transport := { w.transport with
        incomingSequence := w.transport.incomingSequence + 1 } } := by
  have hlen := congrArg List.length hbody
  rw [List.length_drop, List.length_append] at hlen
  have hpl : f.packetLength = 1 + f.payload.length + f.padding.length := rfl
  have hpos := List.length_pos_iff.mpr f.payload_ne_nil
  apply WP.run_eq
  refine wp_extractPayload ?_ (fun _ => ⟨?_, rfl⟩) (fun what hinvalid => ?_)
  · rw [f.packetLength_toNat]
    omega
  · rw [f.packetLength_toNat, f.paddingLength_toNat, hbody]
    exact List.take_left' (by omega)
  · rw [f.valid.2] at hinvalid
    cases hinvalid

theorem receivePlaintext_run (serves : Socket.Serves p) (hreads : p w.sock.reads)
    (f : Frame (blockSizeFor w.transport.incomingEncryptionActive)) {rest : Bytes}
    (hstream : Socket.stream w.sock.reads = f.bytes ++ rest) :
    ∃ reads, receivePlaintext.run w = .ok f.payload { w with
        sock := { w.sock with reads := reads }
        transport := { w.transport with
          incomingSequence := w.transport.incomingSequence + 1 } } ∧
      Socket.stream reads = rest ∧ p reads := by
  have hlength : (encodeUint32 (UInt32.ofNat f.packetLength)).length = packetLengthBytes := by
    simp [packetLengthBytes]
  have hbody : (UInt8.ofNat f.padding.length :: (f.payload ++ f.padding)).length =
      f.packetLength := by
    simp only [Frame.packetLength, List.length_cons, List.length_append]
    omega
  rw [Frame.bytes, List.append_assoc] at hstream
  obtain ⟨reads1, hread1, hstream1, hflow1⟩ :=
    Socket.readExact_of_serves serves hreads hstream hlength
  obtain ⟨reads2, hread2, hstream2, hflow2⟩ := Socket.readExact_of_serves serves
    (s := { w.sock with reads := reads1 }) hflow1 hstream1 hbody
  refine ⟨reads2, WP.run_eq ?_, hstream2, hflow2⟩
  have extract := extractPayload_run (t := w.transport) f
    (w := { w with sock := { w.sock with reads := reads2 } })
    (show (UInt8.ofNat f.padding.length :: (f.payload ++ f.padding)).drop 1 =
      f.payload ++ f.padding from rfl)
  simp only [receivePlaintext, decodePacketLength_eq, WP.bind_iff, WP.get_iff, wp_onSocket,
    WP.ok_iff hread1, decodeUint32_encodeUint32, WP.lift_iff, f.valid.1, f.packetLength_toNat]
  simp [WP.ok_iff hread2, WP.ok_iff extract]

/-- The receiver decrypts the first block and the remainder separately, which together
is the decryption of the whole packet. -/
theorem receiveEncrypted_run (working : Working crypto keystream)
    (serves : Socket.Serves p) (hreads : p w.sock.reads)
    (active : w.transport.incomingEncryptionActive = true) {context : Cipher}
    (hcontext : w.transport.incomingCipher = some context)
    (f : Frame (blockSizeFor w.transport.incomingEncryptionActive)) {tag : Fixed 32}
    (htag : crypto.authHmacsha256 (encodeUint32 w.transport.incomingSequence ++ f.bytes)
      w.transport.incomingMacKey = some tag) {rest : Bytes}
    (hstream : Socket.stream w.sock.reads =
      xorStream (keystream context.key context.iv) context.position f.bytes ++ tag.val ++ rest) :
    ∃ reads, (receiveEncrypted crypto).run w = .ok f.payload { w with
        sock := { w.sock with reads := reads }
        transport := { w.transport with
          incomingSequence := w.transport.incomingSequence + 1
          incomingCipher := some (context.advance f.bytes.length) }
        verified := w.verified ++ [(w.transport.incomingSequence, f.bytes)] } ∧
      Socket.stream reads = rest ∧ p reads := by
  have hsize : 16 ≤ 4 + f.packetLength ∧ 4 + f.packetLength ≤ 35000 := by
    have hmin := f.min_size
    have hmax := f.max_size
    simp only [minPacketSize, maxPacketSize, Frame.packetLength] at hmin hmax ⊢
    omega
  generalize hks : keystream context.key context.iv = ks at hstream
  obtain ⟨first, second, hsplit, hfirst⟩ : ∃ first second, f.bytes = first ++ second ∧
      first.length = 16 :=
    ⟨f.bytes.take 16, f.bytes.drop 16, (List.take_append_drop 16 _).symm, by simp; omega⟩
  have hsecond : second.length = packetLengthBytes + f.packetLength - aesBlockSize := by
    have := f.bytes_length
    rw [hsplit, List.length_append, hfirst] at this
    simp only [packetLengthBytes, aesBlockSize]
    omega
  have hlength : decodePacketLength ((first.drop 0).take packetLengthBytes) =
      UInt32.ofNat f.packetLength := by
    have := f.bytes_take_four
    rw [hsplit, List.take_append_of_le_length (by omega)] at this
    rw [List.drop_zero, packetLengthBytes, this, decodePacketLength_eq, decodeUint32_encodeUint32]
  have hhead : (first ++ second)[packetLengthBytes]? = some (UInt8.ofNat f.padding.length) := by
    have := congrArg List.head? f.bytes_drop_four
    rwa [hsplit, List.head?_drop] at this
  have hbody : (first ++ second).drop (packetLengthBytes + paddingLengthBytes) =
      f.payload ++ f.padding := by
    have := congrArg (List.drop 1) f.bytes_drop_four
    rwa [hsplit, List.drop_drop] at this
  rw [hsplit, xorStream_append, hfirst, List.append_assoc, List.append_assoc] at hstream
  obtain ⟨reads1, hread1, hstream1, hflow1⟩ := Socket.readExact_of_serves serves hreads hstream
    (show _ = aesBlockSize by simp [hfirst, aesBlockSize])
  obtain ⟨reads2, hread2, hstream2, hflow2⟩ := Socket.readExact_of_serves serves
    (s := { w.sock with reads := reads1 }) hflow1 hstream1
    (by rw [xorStream_length, hsecond])
  obtain ⟨reads3, hread3, hstream3, hflow3⟩ := Socket.readExact_of_serves serves
    (s := { w.sock with reads := reads2 }) hflow2 hstream2 (show _ = macBytes from tag.property)
  refine ⟨reads3, WP.run_eq ?_, hstream3, hflow3⟩
  have hmac : calculateHmac crypto w.transport.incomingSequence (first ++ second)
      w.transport.incomingMacKey = .ok tag := by
    rw [hsplit] at htag
    simp only [calculateHmac, htag]
  simp only [receiveEncrypted, WP.bind_iff, WP.get_iff, wp_onSocket, WP.ok_iff hread1]
  refine (WP.ok_iff (decryptIncomingBytes_run working (by exact active) (by exact hcontext)
    (by simp [hfirst]))).mpr ?_
  simp only [hks, xorStream_xorStream, wp_copyRange, hlength, WP.lift_iff, f.valid.1,
    wp_sizeSub, f.packetLength_toNat, WP.ok_iff hread2]
  have hfour : packetLengthBytes = 4 := rfl
  have hblock : aesBlockSize = 16 := rfl
  refine ⟨fun _ => ⟨fun _ _ => ⟨fun _ => ?_, fun h => ?_⟩, fun _ h => ?_⟩, fun h => ?_⟩
  · refine (WP.ok_iff (decryptIncomingBytes_run working (by exact active)
      (show _ = some (context.advance 16) by simp [hfirst])
      (by simp only [xorStream_length]; omega))).mpr ?_
    have hpacket : (first ++ second).length = packetLengthBytes + f.packetLength := by
      rw [← hsplit, f.bytes_length, hfour]
    simp only [Cipher.advance, hks, xorStream_xorStream, hpacket, WP.failIf_iff, WP.ok_iff hread3,
      hmac, WP.modify_iff, wp_byteAt, hhead]
    refine ⟨fun h => h rfl, fun _ => ⟨fun tag' htag' => ?_, fun _ h => by cases h⟩⟩
    cases htag'
    refine ⟨fun h => h rfl, fun _ => ⟨fun padding hpadding => ?_, fun h => by cases h⟩⟩
    cases hpadding
    refine (WP.ok_iff (extractPayload_run (t := w.transport) f hbody)).mpr ⟨rfl, ?_⟩
    have hposition : context.position + f.bytes.length =
        context.position + 16 + (xorStream ks (context.position + 16) second).length := by
      rw [hsplit, List.length_append, hfirst, xorStream_length, Nat.add_assoc]
    rw [hposition, hsplit]
  · exact absurd (by omega) h
  · cases h
  · exact absurd (by omega) h

/-- The image of a frame at the head of the stream is received, and nothing behind it is
taken from the stream. -/
theorem receivePacket_of_image (working : Working crypto keystream)
    (serves : Socket.Serves p) (hreads : p w.sock.reads) (h : incoming w.transport = some line)
    (f : Frame line.block) {rest : Bytes}
    (hstream : Socket.stream w.sock.reads = image crypto keystream line f.bytes ++ rest) :
    ∃ t, (receivePacket crypto).run w = .ok f.payload t ∧
      Socket.stream t.sock.reads = rest ∧ p t.sock.reads ∧
      incoming t.transport = some (line.next f.bytes.length) := by
  suffices hwp : WP (receivePacket crypto) w (fun payload t => payload = f.payload ∧
      Socket.stream t.sock.reads = rest ∧ p t.sock.reads ∧
      incoming t.transport = some (line.next f.bytes.length)) (fun _ _ => False) by
    obtain ⟨payload, t, run, rfl, ht⟩ := hwp.exists_ok
    exact ⟨t, run, ht⟩
  simp only [receivePacket, WP.bind_iff, WP.get_iff]
  rcases incoming_cases h with ⟨rfl, hactive⟩ | ⟨context, rfl, hactive, hcontext⟩
  · obtain ⟨reads, run, hrest, hflow⟩ := receivePlaintext_run (w := w) serves hreads
      ⟨f.payload, f.padding, f.payload_ne_nil, f.min_padding, f.max_padding, f.min_size,
        f.max_size, by rw [hactive]; exact f.aligned⟩ hstream
    simp only [hactive, Bool.not_false, if_true, WP.bind_iff, WP.ok_iff run, wp_record,
      WP.pure_iff]
    exact ⟨trivial, hrest, hflow, by simp [incoming, Line.next]⟩
  · obtain ⟨tag, htag⟩ := working.hmac
      (encodeUint32 w.transport.incomingSequence ++ f.bytes) w.transport.incomingMacKey
    obtain ⟨reads, run, hrest, hflow⟩ := receiveEncrypted_run (w := w) working serves hreads hactive
      hcontext ⟨f.payload, f.padding, f.payload_ne_nil, f.min_padding, f.max_padding, f.min_size,
        f.max_size, by rw [hactive]; exact f.aligned⟩ htag
      (by rw [hstream, image]; simp only [htag]; rfl)
    simp only [hactive, Bool.not_true, Bool.false_eq_true, if_false, WP.bind_iff, WP.ok_iff run,
      wp_record, WP.pure_iff]
    exact ⟨trivial, hrest, hflow, by simp [incoming, Line.next]; rfl⟩

/-! ### Whole runs -/

/-- Call `sendPacket` for each payload and go on after an exception. The result lists the
accepted payloads, each with the outgoing line after it. -/
def sendAll (crypto : Crypto) : List Bytes → Wire → List (Bytes × Option Line) × Wire
  | [], w => ([], w)
  | payload :: later, w =>
      match (sendPacket crypto payload).run w with
      | .ok _ t =>
          let result := sendAll crypto later t
          ((payload, outgoing t.transport) :: result.1, result.2)
      | .error _ t => sendAll crypto later t

/-- Call `receivePacket` a number of times. The result lists the payloads, each with the
incoming line after it. -/
def receiveMany (crypto : Crypto) : Nat → Exec Wire (List (Bytes × Option Line))
  | 0 => pure []
  | count + 1 => do
      let payload ← receivePacket crypto
      let w ← get
      let later ← receiveMany crypto count
      return (payload, incoming w.transport) :: later

@[simp] theorem Line.block_next (line : Line) (size : Nat) :
    (line.next size).block = line.block := by
  simp [Line.block, Line.next]

/-- While both ends are on the same line, what a run of sends has written is received,
payload by payload and line by line. -/
theorem sendAll_receiveMany (working : Working crypto keystream) (payloads : List Bytes)
    (lossless : Socket.Lossless w.sock.writes) (h : outgoing w.transport = some line) :
    ∃ bytes line',
      (sendAll crypto payloads w).2.sock.written = w.sock.written ++ bytes ∧
      Socket.Lossless (sendAll crypto payloads w).2.sock.writes ∧
      outgoing (sendAll crypto payloads w).2.transport = some line' ∧
      (sendAll crypto payloads w).1.map Prod.fst =
        payloads.filter (fun payload => Fits line.block payload) ∧
      ∀ r : Wire, ∀ rest, Socket.Flowing r.sock.reads → incoming r.transport = some line →
        Socket.stream r.sock.reads = bytes ++ rest →
        ∃ t, (receiveMany crypto (sendAll crypto payloads w).1.length).run r =
            .ok (sendAll crypto payloads w).1 t ∧
          Socket.stream t.sock.reads = rest ∧ Socket.Flowing t.sock.reads ∧
          incoming t.transport = some line' := by
  induction payloads generalizing w line with
  | nil =>
      refine ⟨[], line, by simp [sendAll], lossless, h, rfl, ?_⟩
      intro r rest flowing hline hstream
      exact ⟨r, rfl, hstream, flowing, hline⟩
  | cons payload payloads ih =>
      by_cases fits : Fits line.block payload
      · obtain ⟨t, f, run, rfl, hwritten, hlossless, hnext, -⟩ :=
          sendPacket_of_fits working lossless h fits
        obtain ⟨bytes, line', hbytes, hwrites, hline', hpayloads, hreceive⟩ := ih hlossless hnext
        have hsend : sendAll crypto (f.payload :: payloads) w =
            ((f.payload, outgoing t.transport) :: (sendAll crypto payloads t).1,
              (sendAll crypto payloads t).2) := by
          simp only [sendAll, run]
        rw [hsend]
        refine ⟨image crypto keystream line f.bytes ++ bytes, line', ?_, hwrites, hline', ?_, ?_⟩
        · simp only [hbytes, hwritten, List.append_assoc]
        · rw [Line.block_next] at hpayloads
          simp [hpayloads, fits]
        · intro r rest flowing hline hstream
          rw [List.append_assoc] at hstream
          obtain ⟨r1, hrun1, hstream1, hflow1, hline1⟩ :=
            receivePacket_of_image working Socket.serves_flowing flowing hline f hstream
          obtain ⟨r2, hrun2, hr2⟩ := hreceive r1 rest hflow1 hline1 hstream1
          refine ⟨r2, WP.run_eq ?_, hr2⟩
          simp [receiveMany, WP.ok_iff hrun1, WP.ok_iff hrun2, hline1, hnext]
      · obtain ⟨e, t, run, hsock, htransport, -⟩ := sendPacket_of_not_fits crypto h fits
        have hsend : sendAll crypto (payload :: payloads) w = sendAll crypto payloads t := by
          simp only [sendAll, run]
        rw [hsend, ← hsock]
        obtain ⟨bytes, line', hbytes, hwrites, hline', hpayloads, hreceive⟩ :=
          ih (hsock ▸ lossless) (htransport ▸ h)
        exact ⟨bytes, line', hbytes, hwrites, hline', by simp [hpayloads, fits], hreceive⟩

/-- With these libraries the keys are installed. -/
theorem wp_enableEncryption (working : Working crypto keystream) {direction : Direction}
    {install : Transport → Cipher → Fixed 32 → Transport} {iv : Fixed 16} {key macKey : Fixed 32}
    {post : Unit → Wire → Prop} {fail : Stop → Wire → Prop}
    (ok : post () { w with transport := install w.transport { key := key, iv := iv } macKey }) :
    WP (enableEncryption crypto direction install iv key macKey) w post fail := by
  simp only [enableEncryption, working.contextNew, working.cipherInit, WP.bind_iff, WP.failIf_iff,
    WP.modify_iff, Bool.not_true, Bool.false_eq_true, false_implies, not_false_eq_true,
    true_implies, true_and]
  exact ok

/-- The packets are counted in the line. -/
theorem sequence_of_outgoing (h : outgoing w.transport = some line) :
    line.sequence = w.transport.outgoingSequence := by
  rcases outgoing_cases h with ⟨rfl, -⟩ | ⟨context, rfl, -⟩ <;> rfl

theorem sequence_of_incoming (h : incoming w.transport = some line) :
    line.sequence = w.transport.incomingSequence := by
  rcases incoming_cases h with ⟨rfl, -⟩ | ⟨context, rfl, -⟩ <;> rfl

/-- Enabling encryption starts a line at position zero with the next sequence number. -/
theorem enableOutgoingEncryption_run (working : Working crypto keystream)
    (h : outgoing w.transport = some line) (iv : Fixed 16) (key macKey : Fixed 32) :
    ∃ t, (enableOutgoingEncryption crypto iv key macKey).run w = .ok () t ∧ t.sock = w.sock ∧
      outgoing t.transport = some ⟨line.sequence, some ({ key := key, iv := iv }, macKey)⟩ := by
  have hwp : WP (enableOutgoingEncryption crypto iv key macKey) w (fun _ t => t.sock = w.sock ∧
      outgoing t.transport = some ⟨line.sequence, some ({ key := key, iv := iv }, macKey)⟩)
      (fun _ _ => False) := by
    refine wp_enableEncryption working ⟨rfl, ?_⟩
    rw [sequence_of_outgoing h]
    rfl
  obtain ⟨_, t, run, ht⟩ := hwp.exists_ok
  exact ⟨t, run, ht⟩

theorem enableIncomingEncryption_run (working : Working crypto keystream)
    (h : incoming w.transport = some line) (iv : Fixed 16) (key macKey : Fixed 32) :
    ∃ t, (enableIncomingEncryption crypto iv key macKey).run w = .ok () t ∧ t.sock = w.sock ∧
      incoming t.transport = some ⟨line.sequence, some ({ key := key, iv := iv }, macKey)⟩ := by
  have hwp : WP (enableIncomingEncryption crypto iv key macKey) w (fun _ t => t.sock = w.sock ∧
      incoming t.transport = some ⟨line.sequence, some ({ key := key, iv := iv }, macKey)⟩)
      (fun _ _ => False) := by
    refine wp_enableEncryption working ⟨rfl, ?_⟩
    rw [sequence_of_incoming h]
    rfl
  obtain ⟨_, t, run, ht⟩ := hwp.exists_ok
  exact ⟨t, run, ht⟩

/-- The whole run: payloads in plaintext, then encryption at the same packet boundary on
both sides, then encrypted payloads. Only empty and oversized payloads are rejected, and
the receiver gets all others, never throws, takes exactly the bytes that were written,
and is after each packet on the line of the sender, with the same sequence number and the
same cipher position. -/
theorem round_trip (working : Working crypto keystream) {s r : Wire}
    (lossless : Socket.Lossless s.sock.writes)
    (plainSender : s.transport.outgoingEncryptionActive = false)
    (plainReceiver : r.transport.incomingEncryptionActive = false)
    (sequences : s.transport.outgoingSequence = r.transport.incomingSequence)
    (plain secret : List Bytes) (iv : Fixed 16) (key macKey : Fixed 32) :
    ∃ s', (enableOutgoingEncryption crypto iv key macKey).run (sendAll crypto plain s).2 =
        .ok () s' ∧
      (sendAll crypto plain s).1.map Prod.fst = plain.filter (fun p => Fits blockSize p) ∧
      (sendAll crypto secret s').1.map Prod.fst = secret.filter (fun p => Fits aesBlockSize p) ∧
      ∃ bytes, (sendAll crypto secret s').2.sock.written = s.sock.written ++ bytes ∧
        ∀ rest, Socket.Flowing r.sock.reads → Socket.stream r.sock.reads = bytes ++ rest →
          ∃ r1 r2 r3,
            (receiveMany crypto (sendAll crypto plain s).1.length).run r =
              .ok (sendAll crypto plain s).1 r1 ∧
            (enableIncomingEncryption crypto iv key macKey).run r1 = .ok () r2 ∧
            (receiveMany crypto (sendAll crypto secret s').1.length).run r2 =
              .ok (sendAll crypto secret s').1 r3 ∧
            Socket.stream r3.sock.reads = rest := by
  have hs : outgoing s.transport = some ⟨s.transport.outgoingSequence, none⟩ := by
    simp [outgoing, plainSender]
  have hr : incoming r.transport = some ⟨s.transport.outgoingSequence, none⟩ := by
    simp [incoming, plainReceiver, sequences]
  obtain ⟨bytes1, line1, hwritten1, hlossless1, hline1, hpayloads1, hreceive1⟩ :=
    sendAll_receiveMany working plain lossless hs
  obtain ⟨s', henable, hsock, hline'⟩ := enableOutgoingEncryption_run working hline1 iv key macKey
  obtain ⟨bytes2, line2, hwritten2, -, -, hpayloads2, hreceive2⟩ :=
    sendAll_receiveMany working secret (w := s') (by rw [hsock]; exact hlossless1) hline'
  refine ⟨s', henable, hpayloads1, hpayloads2, bytes1 ++ bytes2, ?_, ?_⟩
  · rw [hwritten2, hsock, hwritten1, List.append_assoc]
  · intro rest flowing hstream
    rw [List.append_assoc] at hstream
    obtain ⟨r1, hrun1, hstream1, hflow1, hr1⟩ := hreceive1 r _ flowing hr hstream
    obtain ⟨r2, hrun2, hsock2, hr2⟩ := enableIncomingEncryption_run working hr1 iv key macKey
    obtain ⟨r3, hrun3, hstream3, -, -⟩ := hreceive2 r2 rest (by rw [hsock2]; exact hflow1) hr2
      (by rw [hsock2]; exact hstream1)
    exact ⟨r1, r2, r3, hrun1, hrun2, hrun3, hstream3⟩

/-- The first bytes of the AES-256-CTR key stream for a zero key and a zero iv. -/
def zeroKeystream (i : Nat) : UInt8 :=
  [220, 149, 192, 120, 162, 64, 137, 137, 173, 72, 162, 20, 146, 132, 32, 135, 83, 15, 138, 251,
    199, 69, 54, 185, 169, 99, 180, 241, 196, 203, 115, 139].getD i 0

/-- A library with that key stream, and with the given HMAC-SHA-256 tags for a zero key. -/
def zeroKeyCrypto (tags : List (Bytes × Fixed 32)) : Crypto where
  hashSha256 _ := Fixed.zero 32
  authHmacsha256 input _ := some ((tags.lookup input).getD (Fixed.zero 32))
  scalarmultCurve25519Base _ := none
  scalarmultCurve25519 _ _ := none
  signVerifyDetached _ _ _ := false
  bin2base64 _ := none
  bin2base64NoPadding _ := []
  contextNew _ := true
  cipherInit _ _ _ := true
  encryptUpdate context bytes := some (xorStream zeroKeystream context.position bytes)
  decryptUpdate context bytes := some (xorStream zeroKeystream context.position bytes)

theorem working_zeroKeyCrypto (tags : List (Bytes × Fixed 32)) :
    Working (zeroKeyCrypto tags) (fun _ _ => zeroKeystream) where
  encrypt _ _ := rfl
  decrypt _ _ := rfl
  hmac _ _ := ⟨_, rfl⟩
  contextNew _ := rfl
  cipherInit _ _ _ := rfl

/-- The tag of a service request of one byte, sent as the second packet with zero padding. -/
def serviceRequestTag : Bytes × Fixed 32 :=
  ([0, 0, 0, 1, 0, 0, 0, 12, 10, 5, 0, 0, 0, 0, 0, 0, 0, 0, 0, 0],
    ⟨[249, 71, 124, 43, 94, 184, 246, 128, 236, 183, 99, 60, 239, 122, 98, 124, 169, 186, 71, 59,
      122, 17, 158, 140, 27, 71, 25, 206, 205, 113, 49, 19], rfl⟩)

/-- The bytes of a plaintext packet and of an encrypted one behind it. -/
def twoPackets : Bytes :=
  [0, 0, 0, 12, 10, 21, 0, 0, 0, 0, 0, 0, 0, 0, 0, 0,
    220, 149, 192, 116, 168, 69, 137, 137, 173, 72, 162, 20, 146, 132, 32, 135] ++
    serviceRequestTag.2.val

/-- A peer that has sent one packet before its keys were installed. -/
def encryptingPeer (writes : List WriteResult) : Wire where
  sock := { writes := writes }
  transport :=
    { outgoingSequence := 1, outgoingEncryptionActive := true
      outgoingCipher := some { key := Fixed.zero 32, iv := Fixed.zero 16 } }

/-- One packet in plaintext and one encrypted, with an empty payload between them that is
rejected, read in two pieces with an interrupted call between them. -/
theorem round_trip_two_packets :
    ∃ s', (enableOutgoingEncryption (zeroKeyCrypto [serviceRequestTag]) (Fixed.zero 16)
        (Fixed.zero 32) (Fixed.zero 32)).run
          (sendAll (zeroKeyCrypto [serviceRequestTag]) [[21]] {}).2 = .ok () s' ∧
      ∃ r1 r2 r3,
        (receiveMany (zeroKeyCrypto [serviceRequestTag]) 1).run { sock := { reads :=
          [.returned (twoPackets.take 20), .interrupted, .returned (twoPackets.drop 20)] } } =
          .ok (sendAll (zeroKeyCrypto [serviceRequestTag]) [[21]] {}).1 r1 ∧
        (enableIncomingEncryption (zeroKeyCrypto [serviceRequestTag]) (Fixed.zero 16)
          (Fixed.zero 32) (Fixed.zero 32)).run r1 = .ok () r2 ∧
        (receiveMany (zeroKeyCrypto [serviceRequestTag]) 1).run r2 =
          .ok (sendAll (zeroKeyCrypto [serviceRequestTag]) [[], [5]] s').1 r3 ∧
        Socket.stream r3.sock.reads = [] := by
  obtain ⟨s', henable, hplain, hsecret, bytes, hwritten, hreceive⟩ :=
    round_trip (working_zeroKeyCrypto [serviceRequestTag]) (s := {}) (r := { sock := { reads :=
      [.returned (twoPackets.take 20), .interrupted, .returned (twoPackets.drop 20)] } })
      (by simp [Socket.Lossless]) rfl rfl rfl [[21]] [[], [5]] (Fixed.zero 16) (Fixed.zero 32)
      (Fixed.zero 32)
  refine ⟨s', henable, ?_⟩
  cases (show EStateM.Result.ok () _ = EStateM.Result.ok () s' from henable)
  have hbytes : bytes = twoPackets := by
    rw [← List.nil_append bytes]
    exact hwritten.symm.trans (by decide +kernel)
  have hflowing : Socket.Flowing [.returned (twoPackets.take 20), .interrupted,
      .returned (twoPackets.drop 20)] := by
    simp [Socket.Flowing, twoPackets]
  obtain ⟨r1, r2, r3, hrun1, hrun2, hrun3, hstream⟩ := hreceive [] hflowing
    (by rw [hbytes]; decide +kernel)
  exact ⟨r1, r2, r3, hrun1, hrun2, hrun3, hstream⟩

end SshClient.Transport

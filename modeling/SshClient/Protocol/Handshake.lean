import SshClient.Protocol.Session
import SshClient.Client.Handshake
import SshClient.Kex.Formats
import SshClient.Kex.HostKey
import SshClient.Kex.Negotiation

/-!
# The handshake follows the machine

Key exchange and authentication are a straight line, and the machine has a script for
them. Beside the machine two more things are kept along the line: the milestones that have
been passed, which say what was agreed on and with whom, and a guard that every
authentication request has to meet at the moment it is passed to the transport.

A function that stops leaves a run of the machine and a trace in which every
authentication request has met the guard.
-/

namespace SshClient.Protocol

open Control Client Transport

/-- The machine before the first packet. -/
def State.initial : State where
  stage := .scripted script

theorem sound_initial : Sound State.initial :=
  ⟨rfl, rfl, rfl, by simp [State.initial, Duty.interactive], by simp [State.initial]⟩

/-- The machine behind a packet of the script. -/
def State.past (s : State) (number : UInt8) (rest : List Label) : State :=
  { s.counted with
    stage := .scripted rest
    outgoingActive := s.outgoingActive || number == Message.newkeys }

/-- Events that say what has been settled. Packets that are only on their way and messages
to the user are not among them. -/
def Event.milestone : Event → Bool
  | .identified .. | .sent .. | .accepted .. | .signatureVerified .. | .hostChecked ..
  | .answered .. | .hostAdded .. => true
  | _ => false

def milestones (l : List Event) : List Event := l.filter Event.milestone

@[simp] theorem milestones_append (l l' : List Event) :
    milestones (l ++ l') = milestones l ++ milestones l' := List.filter_append ..

/-! ### The guard -/

/-- Every authentication request of the trace meets the guard, which looks at everything
before it. -/
def Guarded (guard : List Event → Transport → Bytes → Prop) : List Event → Prop :=
  Each fun before e => ∀ t payload, e = .sending t payload →
    payload.head? = some Message.userauthRequest → guard before t payload

variable {guard : List Event → Transport → Bytes → Prop} {l : List Event} {e : Event}

/-- An event that is not a packet on its way. -/
theorem Guarded.snoc_other (h : Guarded guard l) (other : ∀ t payload, e ≠ .sending t payload) :
    Guarded guard (l ++ [e]) := by
  refine Each.snoc h ?_
  intro t payload he
  exact absurd he (other t payload)

/-! ### Along the script -/

/-- The run has reached a place of the script: what is left of it, the duty, the milestones
passed, and the keys in use. -/
structure Along (guard : List Event → Transport → Bytes → Prop) (rest : List Label) (duty : Duty)
    (passed : List Event) (keys : Keying) (w : Wire) : Prop where
  reached : ∃ s, Reached [] State.initial s w ∧ s.stage = .scripted rest ∧ s.duty = duty
  passing : milestones w.trace = passed
  keying : w.transport.keying = keys
  guarded : Guarded guard w.trace

/-- The run has come to an end along the script. -/
structure Halted (guard : List Event → Transport → Bytes → Prop) (w : Wire) : Prop where
  follows : ∃ s, Follows [] State.initial s w
  guarded : Guarded guard w.trace

variable {rest : List Label} {duty : Duty} {passed : List Event} {keys : Keying} {w : Wire}

theorem Along.halted (h : Along guard rest duty passed keys w) : Halted guard w := by
  obtain ⟨s, hreached, -⟩ := h.reached
  exact ⟨⟨s, hreached.follows⟩, h.guarded⟩

/-- What the machine does not see. -/
theorem Along.unseen {t : Wire} (h : Along guard rest duty passed keys w)
    (trace : t.trace = w.trace) (transport : t.transport = w.transport) :
    Along guard rest duty passed keys t := by
  obtain ⟨s, hreached, hstage, hduty⟩ := h.reached
  refine ⟨⟨s, ⟨hreached.follows.of_trace_eq trace, ?_, hreached.sound⟩, hstage, hduty⟩, ?_, ?_, ?_⟩
  · rw [transport]
    exact hreached.aligned
  · rw [trace]
    exact h.passing
  · rw [transport]
    exact h.keying
  · rw [trace]
    exact h.guarded

/-- Something that happens between two packets. -/
theorem Along.quiet (h : Along guard rest duty passed keys w) (quiet : Event.quiet e = true) :
    Along guard rest duty (passed ++ if Event.milestone e then [e] else []) keys
      { w with trace := w.trace ++ [e] } := by
  obtain ⟨s, hreached, hstage, hduty⟩ := h.reached
  refine ⟨⟨s, hreached.record (.quiet hstage quiet) ⟨rfl, rfl, rfl, rfl⟩, hstage, hduty⟩, ?_,
    h.keying, h.guarded.snoc_other ?_⟩
  · rw [milestones_append, h.passing]
    cases hmilestone : Event.milestone e <;> simp [Protocol.milestones, hmilestone]
  · intro t payload he
    rw [he] at quiet
    cases quiet

/-- A check or a decision. -/
theorem Along.settle (h : Along guard rest duty passed keys w) (quiet : Event.quiet e = true)
    (milestone : Event.milestone e = true) :
    Along guard rest duty (passed ++ [e]) keys { w with trace := w.trace ++ [e] } := by
  have := h.quiet quiet
  rwa [milestone, if_pos rfl] at this

/-- A message to the user. -/
theorem Along.say (h : Along guard rest duty passed keys w) (quiet : Event.quiet e = true)
    (other : Event.milestone e = false) :
    Along guard rest duty passed keys { w with trace := w.trace ++ [e] } := by
  have := h.quiet quiet
  rwa [other, if_neg Bool.false_ne_true, List.append_nil] at this

theorem Along.accept {number : UInt8} {payload : Bytes}
    (h : Along guard (.accept number :: rest) (.judge payload) passed keys w)
    (head : payload.head? = some number) (other : number ≠ Message.newkeys) :
    Along guard rest .idle (passed ++ [.accepted payload]) keys
      { w with trace := w.trace ++ [.accepted payload] } := by
  obtain ⟨s, hreached, hstage, hduty⟩ := h.reached
  have hsame : SameCounters s { s with
      stage := .scripted rest
      duty := .idle
      incomingActive := s.incomingActive || number == Message.newkeys } := by
    refine ⟨rfl, rfl, rfl, ?_⟩
    simp [other]
  refine ⟨⟨_, hreached.record (.accept hstage hduty head) hsame, rfl, rfl⟩, ?_, h.keying,
    h.guarded.snoc_other (by simp)⟩
  rw [milestones_append, h.passing]
  rfl

section Packets

variable (crypto : Crypto) {post : Unit → Wire → Prop} {fail : Stop → Wire → Prop}
variable {number : UInt8} {payload : Bytes}

/-- What a call of `sendPacket` adds to the trace. -/
theorem guarded_sending {t : Wire} {done : Bool} (h : Guarded guard w.trace)
    (meets : payload.head? = some Message.userauthRequest → guard w.trace w.transport payload)
    (sending : Sending payload w t done) : Guarded guard t.trace := by
  have hfirst : Guarded guard (w.trace ++ [.sending w.transport payload]) := by
    refine Each.snoc h ?_
    intro t' payload' he
    cases he
    exact meets
  rw [sending.trace]
  cases done with
  | false => exact hfirst
  | true =>
      rw [← List.singleton_append, ← List.append_assoc]
      exact hfirst.snoc_other (by simp)

theorem milestones_sending {t : Wire} (sending : Sending payload w t true) :
    milestones t.trace = milestones w.trace ++ [.sent payload] := by
  rw [sending.trace, milestones_append]
  rfl

/-- A packet that has been passed to the transport, which has returned. -/
theorem Follows.sending {base : List Event} {start s s1 s2 : State} {t : Wire}
    (h : Follows base start s w) (first : Step s (.sending w.transport payload) s1)
    (second : Step s1 (.sent payload) s2) (sending : Sending payload w t true) :
    Follows base start s2 t := by
  have hfirst : Follows base start s1
      { w with trace := w.trace ++ [.sending w.transport payload] } := h.snoc first rfl
  refine hfirst.snoc second ?_
  rw [sending.trace, List.append_assoc]
  rfl

theorem Along.wp_sendPacket (h : Along guard (.send number :: rest) .idle passed keys w)
    (head : payload.head? = some number) (other : number ≠ Message.newkeys)
    (meets : number = Message.userauthRequest → guard w.trace w.transport payload)
    (ok : ∀ t, Along guard rest .idle (passed ++ [.sent payload]) keys t →
      t.sock.reads = w.sock.reads → post () t)
    (stop : ∀ e t, Halted guard t → fail e t) :
    WP (sendPacket crypto payload) w post fail := by
  obtain ⟨s, hreached, hstage, hduty⟩ := h.reached
  have hmeets : payload.head? = some Message.userauthRequest →
      guard w.trace w.transport payload := by
    intro huser
    rw [head, Option.some.injEq] at huser
    exact meets huser
  have hsending : Step s (.sending w.transport payload) (s.past number rest) :=
    .send hstage hduty hreached.aligned head
  have hsent : Step (s.past number rest) (.sent payload) (s.past number rest) :=
    .sent hduty (by simp [State.past])
  refine Transport.wp_sendPacket (fun t ht => ?_) (fun what t ht => ?_)
  · refine ok t ⟨⟨s.past number rest, ?_, rfl, hduty⟩, ?_, ?_,
      guarded_sending h.guarded hmeets ht⟩ ht.reads
    · refine ⟨?_, ⟨?_, ?_, ?_, ?_⟩, hsent.sound (hsending.sound hreached.sound)⟩
      · exact hreached.follows.sending hsending hsent ht
      · rw [ht.outgoingSequence, hreached.aligned.outgoing]
        rfl
      · rw [ht.incomingSequence, hreached.aligned.incoming]
        rfl
      · have hactive : t.transport.outgoingEncryptionActive = s.outgoingActive :=
          (congrArg Keying.outgoingActive ht.keying).trans hreached.aligned.outgoingActive
        have hnumber : (number == Message.newkeys) = false := beq_false_of_ne other
        rw [hactive, State.past, hnumber, Bool.or_false]
      · exact (congrArg Keying.incomingActive ht.keying).trans hreached.aligned.incomingActive
    · rw [milestones_sending ht, h.passing]
    · rw [ht.keying, h.keying]
  · refine stop _ t ⟨⟨_, hreached.follows.snoc hsending ht.trace⟩,
      guarded_sending h.guarded hmeets ht⟩

theorem Along.wp_receivePacket {post : Bytes → Wire → Prop}
    (h : Along guard (.receive :: rest) .idle passed keys w)
    (ok : ∀ payload t, Along guard rest (.judge payload) passed keys t →
      Received payload w t → post payload t)
    (stop : ∀ e t, Halted guard t → fail e t) :
    WP (receivePacket crypto) w post fail := by
  obtain ⟨s, hreached, hstage, hduty⟩ := h.reached
  refine Transport.wp_receivePacket (fun payload t ht => ?_) (fun e t _ ht => ?_)
  · have hstep : Step s (.received w.transport payload)
        { s.judging payload with stage := .scripted rest } :=
      .receive hstage hduty hreached.aligned
    refine ok payload t ⟨⟨_, ⟨hreached.follows.snoc hstep ht.trace, ⟨?_, ?_, ?_, ?_⟩,
      hstep.sound hreached.sound⟩, rfl, rfl⟩, ?_, ?_, ?_⟩ ht
    · rw [ht.outgoingSequence, hreached.aligned.outgoing]
      rfl
    · rw [ht.incomingSequence, hreached.aligned.incoming]
      rfl
    · exact (congrArg Keying.outgoingActive ht.keying).trans hreached.aligned.outgoingActive
    · exact (congrArg Keying.incomingActive ht.keying).trans hreached.aligned.incomingActive
    · rw [ht.trace, milestones_append, h.passing]
      exact List.append_nil _
    · rw [ht.keying, h.keying]
    · rw [ht.trace]
      exact h.guarded.snoc_other (by simp)
  · refine stop e t ⟨⟨s, hreached.follows.of_trace_eq ht.trace⟩, ?_⟩
    rw [ht.trace]
    exact h.guarded

/-- NEWKEYS of the client, and the keys for everything behind it. -/
theorem Along.wp_sendNewkeys {iv : Fixed 16} {encryptionKey macKey : Fixed 32}
    (h : Along guard (.send Message.newkeys :: rest) .idle passed keys w)
    (ok : ∀ t, Along guard rest .idle (passed ++ [.sent [Message.newkeys]])
      { keys with
        outgoingActive := true
        outgoingCipher := some (encryptionKey, iv)
        outgoingMacKey := macKey } t →
      t.sock.reads = w.sock.reads → post () t)
    (stop : ∀ e t, Halted guard t → fail e t) :
    WP (sendPacket crypto [Message.newkeys]) w (fun _ t =>
      WP (enableOutgoingEncryption crypto iv encryptionKey macKey) t post fail) fail := by
  obtain ⟨s, hreached, hstage, hduty⟩ := h.reached
  have hmeets : [Message.newkeys].head? = some Message.userauthRequest →
      guard w.trace w.transport [Message.newkeys] := by
    intro huser
    exact absurd huser (by decide)
  have hsending : Step s (.sending w.transport [Message.newkeys]) (s.past Message.newkeys rest) :=
    .send hstage hduty hreached.aligned rfl
  have hsent : Step (s.past Message.newkeys rest) (.sent [Message.newkeys])
      (s.past Message.newkeys rest) := .sent hduty (by simp [State.past])
  simp only [enableOutgoingEncryption, enableEncryption, WP.bind_iff, WP.failIf_iff, WP.modify_iff]
  refine Transport.wp_sendPacket (fun t ht => ?_) (fun what t ht => ?_)
  · have hfollows := hreached.follows.sending hsending hsent ht
    have hguarded := guarded_sending h.guarded hmeets ht
    refine ⟨fun _ => stop _ t ⟨⟨_, hfollows⟩, hguarded⟩, fun _ =>
      ⟨fun _ => stop _ t ⟨⟨_, hfollows⟩, hguarded⟩, fun _ => ok _ ?_ ht.reads⟩⟩
    refine ⟨⟨s.past Message.newkeys rest, ⟨hfollows, ⟨?_, ?_, ?_, ?_⟩,
      hsent.sound (hsending.sound hreached.sound)⟩, rfl, hduty⟩, ?_, ?_, hguarded⟩
    · show t.transport.outgoingSequence = s.outgoing + 1
      rw [ht.outgoingSequence, hreached.aligned.outgoing]
      rfl
    · show t.transport.incomingSequence = s.incoming
      rw [ht.incomingSequence, hreached.aligned.incoming]
    · simp [State.past]
    · exact (congrArg Keying.incomingActive ht.keying).trans hreached.aligned.incomingActive
    · rw [← h.passing, ← milestones_sending ht]
    · rw [← h.keying, ← ht.keying]
      rfl
  · exact stop _ t ⟨⟨_, hreached.follows.snoc hsending ht.trace⟩,
      guarded_sending h.guarded hmeets ht⟩

/-- NEWKEYS of the server, and the keys for everything behind it. -/
theorem Along.wp_acceptNewkeys {iv : Fixed 16} {encryptionKey macKey : Fixed 32}
    (h : Along guard (.accept Message.newkeys :: rest) (.judge payload) passed keys w)
    (head : payload.head? = some Message.newkeys)
    (ok : ∀ t, Along guard rest .idle (passed ++ [.accepted payload])
      { keys with
        incomingActive := true
        incomingCipher := some (encryptionKey, iv)
        incomingMacKey := macKey } t →
      t.sock.reads = w.sock.reads → post () t)
    (stop : ∀ e t, Halted guard t → fail e t) :
    WP (record (.accepted payload)) w (fun _ t =>
      WP (enableIncomingEncryption crypto iv encryptionKey macKey) t post fail) fail := by
  obtain ⟨s, hreached, hstage, hduty⟩ := h.reached
  have hstep := Step.accept hstage hduty head
  have hguarded : Guarded guard (w.trace ++ [.accepted payload]) :=
    h.guarded.snoc_other (by simp)
  simp only [enableIncomingEncryption, enableEncryption, WP.bind_iff, WP.failIf_iff, WP.modify_iff,
    wp_record]
  have hfollows : Follows [] State.initial _
      { w with trace := w.trace ++ [.accepted payload] } := hreached.follows.snoc hstep rfl
  refine ⟨fun _ => stop _ _ ⟨⟨_, hfollows⟩, hguarded⟩, fun _ =>
    ⟨fun _ => stop _ _ ⟨⟨_, hfollows⟩, hguarded⟩, fun _ => ok _ ?_ rfl⟩⟩
  refine ⟨⟨_, ⟨hfollows, ⟨hreached.aligned.outgoing, hreached.aligned.incoming,
    hreached.aligned.outgoingActive, ?_⟩, hstep.sound hreached.sound⟩, rfl, rfl⟩, ?_, ?_, hguarded⟩
  · simp
  · rw [milestones_append, h.passing]
    rfl
  · rw [← h.keying]
    rfl

end Packets

/-! ### A completed key exchange -/

/-- The values of a key exchange that has been completed, and what was checked of them:
the proposals, the key agreement, the signature over the exchange hash, the decision about
the host key, and the derived keys. -/
structure KeyExchange (crypto : Crypto) (hosts : KnownHosts) (hostname : Bytes)
    (id : IdentificationExchange) where
  clientKexinit : KexInit
  serverKexinit : KexInit
  algorithms : NegotiatedAlgorithms
  keypair : Curve25519State
  replyPayload : Bytes
  ecdhReply : EcdhReply
  exchangeHash : Fixed 32
  verificationData : Ed25519VerificationData
  hostStatus : HostKeyStatus
  transportKeys : TransportKeyMaterial
  offered : ∃ cookie, Kex.kexinitPayload (Kex.clientOffer cookie) = .ok clientKexinit.rawPayload ∧
    clientKexinit = { Kex.clientOffer cookie with rawPayload := clientKexinit.rawPayload }
  parsed : Kex.parseKexinit serverKexinit.rawPayload = .ok serverKexinit
  negotiated : Kex.negotiate clientKexinit serverKexinit = .ok algorithms
  ephemeral : crypto.scalarmultCurve25519Base keypair.clientPrivateKey =
    some keypair.clientPublicKey
  replied : Kex.parseEcdhReply replyPayload = .ok ecdhReply
  agreed : crypto.scalarmultCurve25519 keypair.clientPrivateKey ecdhReply.serverPublicKey =
    some keypair.sharedSecret
  hashed : Kex.calculateExchangeHash crypto id.client id.server clientKexinit serverKexinit keypair
    ecdhReply = .ok exchangeHash
  extracted : Kex.parseEd25519VerificationData ecdhReply algorithms.hostKeyAlgorithm =
    .ok verificationData
  verified : crypto.signVerifyDetached verificationData.signature exchangeHash.val
    verificationData.publicKey = true
  checked : KnownHosts.check crypto hosts hostname algorithms.hostKeyAlgorithm
    ecdhReply.serverHostKey = .ok hostStatus
  trusted : hostStatus = .matched ∨ hostStatus = .unknown ∧ ∃ hosts',
    (KnownHosts.add crypto hostname algorithms.hostKeyAlgorithm ecdhReply.serverHostKey).run hosts =
      .ok () hosts'
  derived : Kex.deriveTransportKeys crypto keypair.sharedSecret exchangeHash exchangeHash =
    .ok transportKeys

namespace KeyExchange

variable {crypto : Crypto} {hosts : KnownHosts} {hostname : Bytes} {id : IdentificationExchange}

/-- What the user was asked when the host was not known. -/
def decision (x : KeyExchange crypto hosts hostname id) : List Event :=
  if x.hostStatus = .matched then []
  else [.answered (ascii "yes"),
    .hostAdded hostname x.algorithms.hostKeyAlgorithm x.ecdhReply.serverHostKey]

/-- The milestones of the key exchange, in their order. -/
def milestones (x : KeyExchange crypto hosts hostname id) : List Event :=
  [.sent x.clientKexinit.rawPayload, .accepted x.serverKexinit.rawPayload,
    .sent (Kex.createEcdhInitPayload x.keypair), .accepted x.replyPayload,
    .signatureVerified x.verificationData.signature x.exchangeHash x.verificationData.publicKey,
    .hostChecked hostname x.algorithms.hostKeyAlgorithm x.ecdhReply.serverHostKey x.hostStatus] ++
  x.decision ++ [.sent [Message.newkeys], .accepted [Message.newkeys]]

/-- The milestones up to the derivation of the keys, in their order. -/
def agreement (x : KeyExchange crypto hosts hostname id) : List Event :=
  [.sent x.clientKexinit.rawPayload, .accepted x.serverKexinit.rawPayload,
    .sent (Kex.createEcdhInitPayload x.keypair), .accepted x.replyPayload,
    .signatureVerified x.verificationData.signature x.exchangeHash x.verificationData.publicKey,
    .hostChecked hostname x.algorithms.hostKeyAlgorithm x.ecdhReply.serverHostKey x.hostStatus] ++
  x.decision

theorem milestones_eq (x : KeyExchange crypto hosts hostname id) :
    x.milestones = x.agreement ++ [.sent [Message.newkeys], .accepted [Message.newkeys]] := rfl

/-- Both directions are active with the derived keys. -/
def keying (x : KeyExchange crypto hosts hostname id) : Keying where
  outgoingActive := true
  incomingActive := true
  outgoingCipher := some (x.transportKeys.encryptionKeyCs, x.transportKeys.ivCs)
  incomingCipher := some (x.transportKeys.encryptionKeySc, x.transportKeys.ivSc)
  outgoingMacKey := x.transportKeys.macKeyCs
  incomingMacKey := x.transportKeys.macKeySc

end KeyExchange

/-- The keys of a transport before the first key exchange. -/
def unkeyed : Keying := Transport.keying {}

/-- The part of the script that `performKeyExchange` follows. -/
def keyExchangeScript (rest : List Label) : List Label :=
  .send Message.kexinit :: .receive :: .accept Message.kexinit ::
    .send Message.kexEcdhInit :: .receive :: .accept Message.kexEcdhReply ::
    .send Message.newkeys :: .receive :: .accept Message.newkeys :: rest

/-- One plaintext frame with the payload has been taken from the stream. -/
def TookFrame (payload : Bytes) (w t : Wire) : Prop :=
  ∃ f : Frame blockSize, f.payload = payload ∧
    Socket.stream w.sock.reads = f.bytes ++ Socket.stream t.sock.reads

theorem tookFrame_of_received {payload : Bytes} {t : Wire} (h : Received payload w t)
    (plain : w.transport.keying.incomingActive = false) : TookFrame payload w t := by
  obtain ⟨f, hpayload, hstream, -⟩ := h.plaintext plain
  exact ⟨f, hpayload.symm, hstream⟩

/-- The two frames of the server up to the derivation of the keys have been taken. -/
def TookAgreement {crypto : Crypto} {hosts : KnownHosts} {hostname : Bytes}
    {id : IdentificationExchange} (x : KeyExchange crypto hosts hostname id) (w t : Wire) : Prop :=
  ∃ kexinit reply : Frame blockSize, kexinit.payload = x.serverKexinit.rawPayload ∧
    reply.payload = x.replyPayload ∧
    Socket.stream w.sock.reads = kexinit.bytes ++ reply.bytes ++ Socket.stream t.sock.reads

/-- The three frames of the server are all that has been taken from the stream. -/
def TookExchange {crypto : Crypto} {hosts : KnownHosts} {hostname : Bytes}
    {id : IdentificationExchange} (x : KeyExchange crypto hosts hostname id) (w t : Wire) : Prop :=
  ∃ kexinit reply newkeys : Frame blockSize, kexinit.payload = x.serverKexinit.rawPayload ∧
    reply.payload = x.replyPayload ∧ newkeys.payload = [Message.newkeys] ∧
    Socket.stream w.sock.reads =
      kexinit.bytes ++ reply.bytes ++ newkeys.bytes ++ Socket.stream t.sock.reads

section Exchange

variable (crypto : Crypto) {fail : Stop → Wire → Prop}

theorem wp_sendKexinit {post : KexInit → Wire → Prop}
    (h : Along guard (.send Message.kexinit :: rest) .idle passed keys w)
    (ok : ∀ kexinit t, Along guard rest .idle (passed ++ [.sent kexinit.rawPayload]) keys t →
      t.sock.reads = w.sock.reads →
      (∃ cookie, Kex.kexinitPayload (Kex.clientOffer cookie) = .ok kexinit.rawPayload ∧
        kexinit = { Kex.clientOffer cookie with rawPayload := kexinit.rawPayload }) →
      post kexinit t)
    (stop : ∀ e t, Halted guard t → fail e t) :
    WP (sendKexinit crypto) w post fail := by
  simp only [sendKexinit, Kex.createClientKexinit, WP.bind_iff, wp_randombytesBuf, WP.lift_iff,
    WP.pure_iff]
  have hdrawn : Along guard (.send Message.kexinit :: rest) .idle passed keys
      { w with drawn := w.drawn + Kex.cookieBytes } := h.unseen rfl rfl
  refine ⟨fun rawPayload hpayload => ?_, fun e _ => stop e _ hdrawn.halted⟩
  have head : rawPayload.head? = some Message.kexinit := by
    rw [(Kex.kexinitPayload_ok.mp hpayload).2]
    rfl
  refine hdrawn.wp_sendPacket crypto head (by decide) (fun huser => absurd huser (by decide))
    (fun t ht hreads => ?_) stop
  exact ok _ t ht hreads ⟨_, hpayload, rfl⟩

theorem wp_receiveKexinit {post : KexInit → Wire → Prop}
    (h : Along guard (.receive :: .accept Message.kexinit :: rest) .idle passed keys w)
    (plain : keys.incomingActive = false)
    (ok : ∀ kexinit t, Along guard rest .idle (passed ++ [.accepted kexinit.rawPayload]) keys t →
      TookFrame kexinit.rawPayload w t → Kex.parseKexinit kexinit.rawPayload = .ok kexinit →
      post kexinit t)
    (stop : ∀ e t, Halted guard t → fail e t) :
    WP (receiveKexinit crypto) w post fail := by
  simp only [receiveKexinit, WP.bind_iff, WP.failIf_iff, WP.lift_iff, wp_record, WP.pure_iff]
  refine h.wp_receivePacket crypto (fun payload t ht hreceived => ?_) stop
  refine ⟨fun _ => stop _ t ht.halted, fun _ => ⟨fun _ => stop _ t ht.halted, fun hhead =>
    ⟨fun kexinit hparsed => ?_, fun e _ => stop e t ht.halted⟩⟩⟩
  have hraw : kexinit.rawPayload = payload := (Kex.laidOut_of_parseKexinit hparsed).1
  have hframe : TookFrame payload w t :=
    tookFrame_of_received hreceived (by rw [h.keying]; exact plain)
  refine ok kexinit _ ?_ ?_ ?_
  · rw [hraw]
    exact ht.accept (not_not.mp hhead) (by decide)
  · rw [hraw]
    exact hframe
  · rw [hraw]
    exact hparsed

theorem wp_receiveEcdhReply {post : EcdhReply → Wire → Prop}
    (h : Along guard (.receive :: .accept Message.kexEcdhReply :: rest) .idle passed keys w)
    (plain : keys.incomingActive = false)
    (ok : ∀ reply ecdhReply t, Along guard rest .idle (passed ++ [.accepted reply]) keys t →
      TookFrame reply w t → Kex.parseEcdhReply reply = .ok ecdhReply → post ecdhReply t)
    (stop : ∀ e t, Halted guard t → fail e t) :
    WP (receiveEcdhReply crypto) w post fail := by
  simp only [receiveEcdhReply, WP.bind_iff, WP.failIf_iff, WP.lift_iff, wp_record, WP.pure_iff]
  refine h.wp_receivePacket crypto (fun reply t ht hreceived => ?_) stop
  refine ⟨fun _ => stop _ t ht.halted, fun _ => ⟨fun _ => stop _ t ht.halted, fun hhead =>
    ⟨fun ecdhReply hparsed => ?_, fun e _ => stop e t ht.halted⟩⟩⟩
  have hframe : TookFrame reply w t :=
    tookFrame_of_received hreceived (by rw [h.keying]; exact plain)
  exact ok reply ecdhReply _ (ht.accept (not_not.mp hhead) (by decide)) hframe hparsed

theorem wp_createCurve25519Keypair {post : Curve25519State → Wire → Prop}
    (h : Along guard rest duty passed keys w)
    (ok : ∀ keypair t, Along guard rest duty passed keys t → t.sock.reads = w.sock.reads →
      crypto.scalarmultCurve25519Base keypair.clientPrivateKey = some keypair.clientPublicKey →
      post keypair t)
    (stop : ∀ e t, Halted guard t → fail e t) :
    WP (Kex.createCurve25519Keypair crypto) w post fail := by
  simp only [Kex.createCurve25519Keypair, WP.bind_iff, wp_randombytesBuf]
  have hdrawn : Along guard rest duty passed keys
      { w with drawn := w.drawn + Kex.lengthOfKey } := h.unseen rfl rfl
  split
  · exact stop _ _ hdrawn.halted
  · rename_i clientPublicKey hpublic
    exact ok _ _ hdrawn rfl hpublic

theorem wp_verifyServer {data : Ed25519VerificationData} {exchangeHash : Fixed 32}
    {post : Unit → Wire → Prop} (h : Along guard rest duty passed keys w)
    (ok : ∀ t, Along guard rest duty
      (passed ++ [.signatureVerified data.signature exchangeHash data.publicKey]) keys t →
      t.sock.reads = w.sock.reads →
      crypto.signVerifyDetached data.signature exchangeHash.val data.publicKey = true → post () t)
    (stop : ∀ e t, Halted guard t → fail e t) :
    WP (verifyServer crypto data exchangeHash) w post fail := by
  simp only [verifyServer, Kex.verifyEd25519Signature, WP.bind_iff, WP.lift_iff, wp_record]
  refine ⟨fun _ hverified => ?_, fun e _ => stop e w h.halted⟩
  have hverified := failIf_eq_ok.mp hverified
  exact ok _ (h.settle rfl rfl) rfl (by simpa using hverified)

theorem wp_exchangeNewkeys {material : TransportKeyMaterial} {post : Unit → Wire → Prop}
    (h : Along guard (.send Message.newkeys :: .receive :: .accept Message.newkeys :: rest) .idle
      passed keys w)
    (plain : keys.incomingActive = false)
    (ok : ∀ t, Along guard rest .idle
      (passed ++ [.sent [Message.newkeys], .accepted [Message.newkeys]])
      { outgoingActive := true
        incomingActive := true
        outgoingCipher := some (material.encryptionKeyCs, material.ivCs)
        incomingCipher := some (material.encryptionKeySc, material.ivSc)
        outgoingMacKey := material.macKeyCs
        incomingMacKey := material.macKeySc } t →
      TookFrame [Message.newkeys] w t → post () t)
    (stop : ∀ e t, Halted guard t → fail e t) :
    WP (exchangeNewkeys crypto material) w post fail := by
  simp only [exchangeNewkeys, WP.bind_iff, WP.failIf_iff]
  refine h.wp_sendNewkeys crypto (fun t ht hreads => ?_) stop
  refine ht.wp_receivePacket crypto (fun payload u hu hreceived => ?_) stop
  refine ⟨fun _ => stop _ u hu.halted, fun hlength => ⟨fun _ => stop _ u hu.halted,
    fun hhead => ?_⟩⟩
  have hpayload : payload = [Message.newkeys] := by
    obtain ⟨byte, rfl⟩ := List.length_eq_one_iff.mp (not_not.mp hlength)
    simpa using hhead
  subst hpayload
  obtain ⟨f, hpayload, hstream⟩ := tookFrame_of_received hreceived (by rw [ht.keying]; exact plain)
  refine hu.wp_acceptNewkeys crypto rfl (fun v hv hreads' => ?_) stop
  rw [List.append_assoc] at hv
  exact ok v hv ⟨f, hpayload, by rw [← hreads, hstream, hreads']⟩

end Exchange

theorem calculateSharedSecret_ok {crypto : Crypto} {state state' : Curve25519State}
    {serverPublicKey : Fixed 32}
    (h : Kex.calculateSharedSecret crypto state serverPublicKey = .ok state') :
    crypto.scalarmultCurve25519 state.clientPrivateKey serverPublicKey = some state'.sharedSecret ∧
      state' = { state with sharedSecret := state'.sharedSecret } := by
  unfold Kex.calculateSharedSecret at h
  split at h
  · cases h
  · rename_i sharedSecret hsecret
    cases h
    exact ⟨hsecret, rfl⟩

section Trust

variable (crypto : Crypto) {w : World} {post : Unit → World → Prop} {fail : Stop → World → Prop}

/-- The host key is found among the known ones, or the user answers and it is added. -/
theorem wp_confirmHost {hostname algorithm hostKey : Bytes}
    (h : Along guard rest duty passed keys w.wire)
    (ok : ∀ status t, KnownHosts.check crypto w.hosts hostname algorithm hostKey = .ok status →
      (status = .matched ∨ status = .unknown ∧ ∃ hosts',
        (KnownHosts.add crypto hostname algorithm hostKey).run w.hosts = .ok () hosts') →
      Along guard rest duty (passed ++ .hostChecked hostname algorithm hostKey status ::
        if status = .matched then [] else
          [.answered (ascii "yes"), .hostAdded hostname algorithm hostKey]) keys t.wire →
      t.wire.sock.reads = w.wire.sock.reads → post () t)
    (stop : ∀ e t, Halted guard t.wire → fail e t) :
    WP (confirmHost crypto hostname algorithm hostKey) w post fail := by
  simp only [confirmHost, print, printError, WP.bind_iff, WP.get_iff, WP.lift_iff, wp_onWire,
    wp_record]
  refine ⟨fun status hstatus => ?_, fun e _ => stop e w h.halted⟩
  have hchecked := h.settle (e := .hostChecked hostname algorithm hostKey status) rfl rfl
  cases status with
  | matched =>
      simp only [wp_onWire, wp_record]
      exact ok .matched _ hstatus (.inl rfl) (hchecked.say rfl rfl) rfl
  | changed =>
      simp only [WP.bind_iff, wp_onWire, wp_record, WP.throw_iff]
      exact stop _ _ ((hchecked.say rfl rfl).say rfl rfl).halted
  | unknown =>
      have hasked := ((hchecked.say (e := .printed (ascii "Unknown server host key\n")) rfl rfl).say
        (e := .printed (ascii "Fingerprint: " ++ formatSha256Fingerprint crypto
          (Kex.calculateHostKeyFingerprint crypto hostKey) ++ ascii "\n")) rfl rfl).say
        (e := .printed (ascii "Do you trust this host key? [yes/no]: ")) rfl rfl
      simp only [WP.bind_iff, wp_onWire, wp_record, wp_onConsole, WP.failIf_iff, wp_onHosts]
      refine WP.intro (fun answer console _ => ?_) (fun e console _ => stop e _ hasked.halted)
      have hanswered := hasked.settle (e := .answered answer) rfl rfl
      refine ⟨fun _ => stop _ _ hanswered.halted, fun hyes => ?_⟩
      obtain rfl : answer = ascii "yes" := not_not.mp hyes
      refine WP.intro (fun _ hosts' hadd => ?_) (fun e hosts' _ => stop e _ hanswered.halted)
      have hadded := (hanswered.settle (e := .hostAdded hostname algorithm hostKey) rfl rfl).say
        (e := .printed (ascii "Host key saved\n")) rfl rfl
      refine ok .unknown _ hstatus (.inr ⟨rfl, hosts', hadd⟩) ?_ rfl
      simpa using hadded

-- The proposal of the client is a closed term, and the unifier would evaluate it.
attribute [local irreducible] Client.sendKexinit

/-- Keys that are derived are those of an exchange in which everything has been checked. -/
theorem wp_agreeKeys {id : IdentificationExchange} {hostname : Bytes}
    {post : TransportKeyMaterial → World → Prop}
    (h : Along guard (keyExchangeScript rest) .idle passed unkeyed w.wire)
    (ok : ∀ (x : KeyExchange crypto w.hosts hostname id) t,
      Along guard (.send Message.newkeys :: .receive :: .accept Message.newkeys :: rest) .idle
        (passed ++ x.agreement) unkeyed t.wire →
      TookAgreement x w.wire t.wire → post x.transportKeys t)
    (stop : ∀ e t, Halted guard t.wire → fail e t) :
    WP (agreeKeys crypto id hostname) w post fail := by
  have hstop : ∀ e (t : World) wire, Halted guard wire → fail e { t with wire := wire } :=
    fun e t wire ht => stop e _ ht
  simp only [agreeKeys, WP.bind_iff, WP.lift_iff, WP.failIf_iff, wp_onWire]
  refine wp_sendKexinit crypto h (fun clientKexinit t1 h1 r1 offered => ?_) (hstop · w)
  refine wp_receiveKexinit crypto h1 rfl (fun serverKexinit t2 h2 took1 parsed => ?_) (hstop · w)
  refine ⟨fun algorithms negotiated => ?_, fun e _ => stop e _ h2.halted⟩
  refine ⟨fun _ => stop _ _ h2.halted, fun _ => ?_⟩
  refine wp_createCurve25519Keypair crypto h2 (fun keypair t3 h3 r3 ephemeral => ?_) (hstop · w)
  refine Along.wp_sendPacket crypto
    (show Along guard (.send Message.kexEcdhInit :: _) _ _ _ _ from h3) rfl (by decide)
    (fun huser => absurd huser (by decide)) (fun t4 h4 r4 => ?_) (hstop · w)
  refine wp_receiveEcdhReply crypto h4 rfl (fun reply ecdhReply t5 h5 took2 replied => ?_)
    (hstop · w)
  refine ⟨fun keypair' agreed => ?_, fun e _ => stop e _ h5.halted⟩
  refine ⟨fun exchangeHash hashed => ?_, fun e _ => stop e _ h5.halted⟩
  refine ⟨fun data extracted => ?_, fun e _ => stop e _ h5.halted⟩
  refine wp_verifyServer crypto h5 (fun t6 h6 r6 verified => ?_) (hstop · w)
  refine wp_confirmHost crypto h6 (fun status t7 checked trusted h7 r7 => ?_) stop
  refine ⟨fun material derived => ?_, fun e _ => stop e _ h7.halted⟩
  obtain ⟨agreed, hkeypair⟩ := calculateSharedSecret_ok agreed
  obtain ⟨f1, hf1, hs1⟩ := took1
  obtain ⟨f2, hf2, hs2⟩ := took2
  let x : KeyExchange crypto w.hosts hostname id := {
    clientKexinit, serverKexinit, algorithms, keypair := keypair', replyPayload := reply, ecdhReply
    exchangeHash, verificationData := data, hostStatus := status, transportKeys := material
    offered, parsed, negotiated
    ephemeral := by rw [hkeypair]; exact ephemeral
    replied
    agreed := by rw [hkeypair]; exact agreed
    hashed, extracted, verified, checked, trusted, derived }
  refine ok x _ ?_ ⟨f1, f2, hf1, hf2, ?_⟩
  · have hinit : Kex.createEcdhInitPayload keypair' = Kex.createEcdhInitPayload keypair := by
      rw [hkeypair]
      rfl
    have hpassed : passed ++ x.agreement = passed ++ [.sent clientKexinit.rawPayload] ++
        [.accepted serverKexinit.rawPayload] ++ [.sent (Kex.createEcdhInitPayload keypair)] ++
        [.accepted reply] ++
        [.signatureVerified data.signature exchangeHash data.publicKey] ++
        (.hostChecked hostname algorithms.hostKeyAlgorithm ecdhReply.serverHostKey status ::
          if status = .matched then [] else [.answered (ascii "yes"),
            .hostAdded hostname algorithms.hostKeyAlgorithm ecdhReply.serverHostKey]) := by
      simp [KeyExchange.agreement, KeyExchange.decision, x, hinit]
    rw [hpassed]
    exact h7
  · have hr7 : t7.wire.sock.reads = t6.sock.reads := r7
    rw [← r1, hs1, ← r3, ← r4, hs2, ← r6, ← hr7]
    simp

/-- A key exchange that returns has been completed, with the keys of both directions in
place. -/
theorem wp_performKeyExchange {id : IdentificationExchange} {hostname : Bytes}
    (h : Along guard (keyExchangeScript rest) .idle passed unkeyed w.wire)
    (ok : ∀ (x : KeyExchange crypto w.hosts hostname id) t,
      Along guard rest .idle (passed ++ x.milestones) x.keying t.wire →
      TookExchange x w.wire t.wire → post () t)
    (stop : ∀ e t, Halted guard t.wire → fail e t) :
    WP (performKeyExchange crypto id hostname) w post fail := by
  rw [performKeyExchange_eq, WP.bind_iff]
  refine wp_agreeKeys crypto h (fun x t ht took => ?_) stop
  rw [wp_onWire]
  refine wp_exchangeNewkeys crypto ht rfl (fun u hu took' => ?_) (fun e u hu => stop e _ hu)
  obtain ⟨kexinit, reply, hkexinit, hreply, hstream⟩ := took
  obtain ⟨newkeys, hnewkeys, hstream'⟩ := took'
  refine ok x _ ?_ ⟨kexinit, reply, newkeys, hkexinit, hreply, hnewkeys, ?_⟩
  · rw [x.milestones_eq, ← List.append_assoc]
    exact hu
  · rw [hstream, hstream', List.append_assoc, List.append_assoc, List.append_assoc]

end Trust

/-! ### Authentication -/

/-- The part of the script that `authenticateUser` follows. -/
def authenticationScript : List Label :=
  [.send Message.serviceRequest, .receive, .accept Message.serviceAccept,
    .send Message.userauthRequest, .receive, .accept Message.userauthFailure,
    .send Message.userauthRequest, .receive, .accept Message.userauthSuccess]

/-- The probe with the method "none": the service has been accepted, and nothing else has
been settled since `passed`. -/
def NoneProbe (username : Bytes) (passed : List Event) (keys : Keying) (before : List Event)
    (t : Transport) (payload : Bytes) : Prop :=
  ∃ request accept, Auth.createServiceRequest = .ok request ∧
    Auth.validateServiceAccept accept = .ok () ∧
    milestones before = passed ++ [.sent request, .accepted accept] ∧ t.keying = keys ∧
    Auth.createNoneAuthRequest username = .ok payload

/-- The request with a password: the probe has been refused as well. -/
def PasswordRequest (username : Bytes) (passed : List Event) (keys : Keying) (before : List Event)
    (t : Transport) (payload : Bytes) : Prop :=
  ∃ request accept probe refusal failure password, Auth.createServiceRequest = .ok request ∧
    Auth.validateServiceAccept accept = .ok () ∧
    Auth.createNoneAuthRequest username = .ok probe ∧
    Auth.parseAuthFailure refusal = .ok failure ∧
    milestones before =
      passed ++ [.sent request, .accepted accept, .sent probe, .accepted refusal] ∧
    t.keying = keys ∧ Auth.createPasswordAuthRequest username password = .ok payload

section Heads

variable {payload : Bytes}

theorem createServiceRequest_head (h : Auth.createServiceRequest = .ok payload) :
    payload.head? = some Message.serviceRequest := by
  obtain ⟨-, rfl⟩ := appendString_ok.mp h
  rfl

theorem createNoneAuthRequest_head {username : Bytes}
    (h : Auth.createNoneAuthRequest username = .ok payload) :
    payload.head? = some Message.userauthRequest := by
  simp only [Auth.createNoneAuthRequest, bind_eq_ok, appendString_ok] at h
  obtain ⟨-, ⟨-, rfl⟩, -, ⟨-, rfl⟩, -, rfl⟩ := h
  rfl

theorem createPasswordAuthRequest_head {username password : Bytes}
    (h : Auth.createPasswordAuthRequest username password = .ok payload) :
    payload.head? = some Message.userauthRequest := by
  simp only [Auth.createPasswordAuthRequest, bind_eq_ok, appendString_ok] at h
  obtain ⟨-, ⟨-, rfl⟩, -, ⟨-, rfl⟩, -, ⟨-, rfl⟩, -, rfl⟩ := h
  rfl

/-- A parser that begins with two checks of the message number. -/
theorem head_of_checked {α : Type} {number : UInt8} {empty expected : String}
    {f : Unit → Exec Nat α}
    {a : α} (h : evalOn (failIf (payload = []) (error empty) >>= fun _ =>
      failIf (payload.head? ≠ some number) (error expected) >>= f) 1 = .ok a) :
    payload.head? = some number := by
  refine evalOn_of_wp (fun _ => payload.head? = some number) ?_ h
  simp only [WP.bind_iff, WP.failIf_iff]
  refine ⟨fun _ => trivial, fun _ => ⟨fun _ => trivial, fun hhead => ?_⟩⟩
  exact WP.intro (fun _ _ _ => not_not.mp hhead) (fun _ _ _ => trivial)

theorem validateServiceAccept_head (h : Auth.validateServiceAccept payload = .ok ()) :
    payload.head? = some Message.serviceAccept := head_of_checked h

theorem parseAuthFailure_head {failure : AuthFailure}
    (h : Auth.parseAuthFailure payload = .ok failure) :
    payload.head? = some Message.userauthFailure := head_of_checked h

end Heads

section Authentication

variable (crypto : Crypto) {w : World} {post : Unit → World → Prop} {fail : Stop → World → Prop}

/-- A request of the client and the answer that it needs. -/
theorem wp_answered {α : Type} {request : Bytes} {number answer : UInt8} {rest : List Label}
    {check : Bytes → Except Stop α} {next : α → World → Prop}
    (h : Along guard (.send number :: .receive :: .accept answer :: rest) .idle passed keys w.wire)
    (head : request.head? = some number) (other : number ≠ Message.newkeys)
    (other' : answer ≠ Message.newkeys)
    (meets : number = Message.userauthRequest → guard w.wire.trace w.wire.transport request)
    (checked : ∀ payload a, check payload = .ok a → payload.head? = some answer)
    (ok : ∀ payload a t, check payload = .ok a →
      Along guard rest .idle (passed ++ [.sent request, .accepted payload]) keys t.wire → next a t)
    (stop : ∀ e t, Halted guard t.wire → fail e t) :
    WP (onWire (sendPacket crypto request)) w (fun _ w => WP (onWire (receivePacket crypto)) w
      (fun payload w => (∀ a, check payload = .ok a →
        WP (onWire (record (.accepted payload))) w (fun _ w => next a w) fail) ∧
        ∀ e, check payload = .error e → fail e w) fail) fail := by
  have hstop : ∀ e (t : World) wire, Halted guard wire → fail e { t with wire := wire } :=
    fun e t wire ht => stop e _ ht
  simp only [wp_onWire, wp_record]
  refine h.wp_sendPacket crypto head other meets (fun t1 h1 _ => ?_) (hstop · w)
  refine h1.wp_receivePacket crypto (fun payload t2 h2 _ => ?_) (hstop · w)
  refine ⟨fun a ha => ok payload a _ ha ?_, fun e _ => stop e _ h2.halted⟩
  have haccepted := h2.accept (checked payload a ha) other'
  rw [List.append_assoc] at haccepted
  exact haccepted

theorem wp_authenticateUser {username : Bytes}
    (h : Along guard authenticationScript .idle passed keys w.wire)
    (allows : ∀ before t payload, NoneProbe username passed keys before t payload ∨
      PasswordRequest username passed keys before t payload → guard before t payload)
    (ok : ∀ passed' t, Along guard [] .idle passed' keys t.wire → post () t)
    (stop : ∀ e t, Halted guard t.wire → fail e t) :
    WP (authenticateUser crypto username) w post fail := by
  have hstop : ∀ e (t : World) wire, Halted guard wire → fail e { t with wire := wire } :=
    fun e t wire ht => stop e _ ht
  simp only [authenticateUser, WP.bind_iff, WP.lift_iff]
  refine ⟨fun request hrequest => ?_, fun e _ => stop e w h.halted⟩
  refine wp_answered crypto h (createServiceRequest_head hrequest) (by decide) (by decide)
    (fun huser => absurd huser (by decide)) (fun _ _ => validateServiceAccept_head)
    (fun accept _ w1 haccept h1 => ?_) stop
  refine ⟨fun probe hprobe => ?_, fun e _ => stop e w1 h1.halted⟩
  refine wp_answered crypto h1 (createNoneAuthRequest_head hprobe) (by decide) (by decide)
    (fun _ => allows _ _ _ (.inl ⟨request, accept, hrequest, haccept, h1.passing, h1.keying,
      hprobe⟩)) (fun _ _ => parseAuthFailure_head) (fun refusal failure w2 hrefusal h2 => ?_) stop
  rw [wp_onConsole]
  refine WP.intro (fun password console _ => ?_) (fun e console _ => stop e _ h2.halted)
  refine ⟨fun payload hpayload => ?_, fun e _ => stop e _ h2.halted⟩
  have hpassed := h2.passing
  rw [List.append_assoc] at hpassed
  rw [wp_onWire]
  refine h2.wp_sendPacket crypto (createPasswordAuthRequest_head hpayload) (by decide)
    (fun _ => allows _ _ _ (.inr ⟨request, accept, probe, refusal, failure, password, hrequest,
      haccept, hprobe, hrefusal, hpassed, h2.keying, hpayload⟩)) (fun t3 h3 _ => ?_) (hstop · _)
  rw [wp_onWire]
  refine h3.wp_receivePacket crypto (fun response t4 h4 _ => ?_) (hstop · _)
  simp only [WP.failIf_iff, WP.ite_iff, WP.bind_iff, WP.lift_iff, WP.throw_iff, wp_onWire,
    wp_record, print]
  refine ⟨fun _ => stop _ _ h4.halted, fun _ => ⟨fun hsuccess => ⟨fun _ _ => ?_,
    fun e _ => stop e _ h4.halted⟩, fun _ => ⟨fun _ => ⟨fun _ _ => stop _ _ h4.halted,
      fun e _ => stop e _ h4.halted⟩, fun _ => stop _ _ h4.halted⟩⟩⟩
  exact ok _ _ ((h4.accept hsuccess (by decide)).say rfl rfl)

end Authentication

/-! ### The session behind the script -/

/-- The script has been followed to its end. -/
def Unscripted (s : State) : Prop := ∀ rest, s.stage = .scripted rest → rest = []

theorem Step.unscripted {s s' : State} (step : Step s e s') (h : Unscripted s) :
    Unscripted s' := by
  cases step with
  | sent | quiet | head | reply | sendTyped | refill => exact h
  | send stage | receive stage | accept stage => exact absurd (h _ stage) (by simp)
  | success =>
      intro rest hrest
      rename_i count _ _
      cases count <;> cases hrest
  | listen | global | adjust | typed | data | extendedData | eof | exitStatus | close => exact h
  | wroteStdout | wroteStderr => exact h
  | openChannel | confirmation | request | sendClose | sentClose | report =>
      intro rest hrest
      cases hrest

theorem head_cons_ne (number : UInt8) {other : UInt8} {bytes : Bytes} (h : number ≠ other) :
    (number :: bytes).head? ≠ some other := by
  simpa using h

/-- Behind the script no packet is an authentication request. -/
theorem Step.head_ne_userauth {s s' : State} {t : Transport} {payload : Bytes}
    (step : Step s (.sending t payload) s') (h : Unscripted s) :
    payload.head? ≠ some Message.userauthRequest := by
  cases step with
  | quiet _ he => cases he
  | send stage => exact absurd (h _ stage) (by simp)
  | openChannel _ _ _ head | request _ _ _ head =>
      rw [head]
      decide
  | reply => exact head_cons_ne Message.requestFailure (by decide)
  | sendTyped => exact head_cons_ne Message.channelData (by decide)
  | refill => exact head_cons_ne Message.channelWindowAdjust (by decide)
  | sendClose => exact head_cons_ne Message.channelClose (by decide)

theorem no_userauth_of_run {s s' : State} (unscripted : Unscripted s) (run : Run Step s l s') :
    ∀ t payload, .sending t payload ∈ l → payload.head? ≠ some Message.userauthRequest := by
  have hinv : Unscripted s' ∧
      ∀ t payload, .sending t payload ∈ l → payload.head? ≠ some Message.userauthRequest := by
    refine run.invariant (fun l s => Unscripted s ∧
      ∀ t payload, .sending t payload ∈ l → payload.head? ≠ some Message.userauthRequest)
      ⟨unscripted, by simp⟩ ?_
    intro l s e s' h step
    refine ⟨step.unscripted h.1, ?_⟩
    intro t payload hmem
    rcases List.mem_append.mp hmem with hmem | hmem
    · exact h.2 t payload hmem
    · rw [← List.mem_singleton.mp hmem] at step
      exact step.head_ne_userauth h.1
  exact hinv.2

section Session

variable (crypto : Crypto) {w : World} {post : Unit → World → Prop} {fail : Stop → World → Prop}

/-- The run has reached a stage of the machine, and every request has met the guard. -/
structure Ended (guard : List Event → Transport → Bytes → Prop) (stage : Stage → Prop)
    (w : Wire) : Prop where
  follows : ∃ s, Follows [] State.initial s w ∧ stage s.stage
  guarded : Guarded guard w.trace

theorem Ended.halted {stage : Stage → Prop} {w : Wire} (h : Ended guard stage w) :
    Halted guard w := by
  obtain ⟨s, hfollows, -⟩ := h.follows
  exact ⟨⟨s, hfollows⟩, h.guarded⟩

/-- What a session adds to a run that has reached the end of the script. -/
theorem ended_of_session {s s' : State} {t : Wire} {stage : Stage → Prop} {w : Wire}
    (h : Guarded guard w.trace) (reached : Follows [] State.initial s w)
    (scripted : s.stage = .scripted []) (more : Follows w.trace s s' t) (hstage : stage s'.stage) :
    Ended guard stage t := by
  obtain ⟨run, htrace, hrun⟩ := reached
  obtain ⟨run', htrace', hrun'⟩ := more
  refine ⟨⟨s', ⟨run ++ run', ?_, hrun.append hrun'⟩, hstage⟩, ?_⟩
  · rw [htrace', htrace, List.nil_append, List.nil_append]
  · rw [htrace']
    refine Each.append h ?_
    intro e hmem before t payload he head
    rw [he] at hmem
    refine absurd head (no_userauth_of_run ?_ hrun' t payload hmem)
    intro rest hrest
    rw [scripted] at hrest
    cases hrest
    rfl

theorem halted_of_session {s s' : State} {t w : Wire} (h : Guarded guard w.trace)
    (reached : Follows [] State.initial s w) (scripted : s.stage = .scripted [])
    (more : Follows w.trace s s' t) : Halted guard t := by
  have hended : Ended guard (fun _ => True) t :=
    ended_of_session h reached scripted more trivial
  exact hended.halted

/-- A session behind the authentication. When it returns the channel has been closed. -/
theorem Along.wp_runConnectionSession {display : Display}
    (h : Along guard [] .idle passed keys w.wire)
    (ok : ∀ t, Ended guard (fun stage => stage = .closed ∨ stage = .reported) t.wire → post () t)
    (stop : ∀ e t, Halted guard t.wire → fail e t) :
    WP (runConnectionSession crypto display) w post fail := by
  obtain ⟨s, hreached, hstage, hduty⟩ := h.reached
  have hfrom : Reached w.wire.trace s s w.wire :=
    ⟨⟨[], (List.append_nil _).symm, .nil⟩, hreached.aligned, hreached.sound⟩
  refine Protocol.wp_runConnectionSession crypto hfrom hstage hduty (fun s' t ht _ hs' => ok t ?_)
    (fun e t ht => stop e t ?_) (fun e t ht => stop e t ?_)
  · refine ended_of_session h.guarded hreached.follows hstage ht.reached.follows ?_
    rw [hs']
    split
    · exact .inr rfl
    · exact .inl rfl
  · obtain ⟨s', ht, -, -⟩ := ht
    exact halted_of_session h.guarded hreached.follows hstage ht.reached.follows
  · obtain ⟨s', ht, -, -⟩ := ht
    exact halted_of_session h.guarded hreached.follows hstage ht

end Session

end SshClient.Protocol

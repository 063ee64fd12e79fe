import SshClient.Kex.HostKey
import SshClient.Kex.Negotiation
import SshClient.Kex.Transcript
import SshClient.Program.Opening

/-!
# The whole way

A server that keeps to the protocol is served from its version line to the close of the
channel. It is described from its own side: it computes the exchange hash and the keys from
its own private key and from what the client has sent, and signs with its own host key. What
the two sides compute is the same because Diffie-Hellman agreement is symmetric.
-/

namespace SshClient.Program

open Control Client Connection Transport Protocol

/-! ### The client as the server sees it -/

/-- The proposal of the client, whose cookie is the first that is drawn. -/
def clientKexinit (random : Nat → UInt8) : KexInit :=
  let offer := Kex.clientOffer (Fixed.copy 16 ((List.range 16).map random))
  { offer with rawPayload := Kex.kexinitBytes offer.cookie.val (Kex.nameLists offer) 0 }

/-- The private key of the client is drawn behind the cookie and the padding of the first packet. -/
def clientPrivateKey (random : Nat → UInt8) : Fixed 32 :=
  Fixed.copy 32 ((List.range 32).map fun i => random (27 + i))

/-! ### The server -/

structure Server where
  version : Bytes
  kexinit : KexInit
  privateKey : Fixed 32
  publicKey : Fixed 32
  hostKey : Fixed 32
  sign : Bytes → Fixed 64
  methods : Bytes
  partialSuccess : UInt8
  script : Script

/-- What the server has of the client at the key agreement. -/
structure Partner where
  version : Bytes
  kexinit : Bytes
  publicKey : Fixed 32
  secret : Fixed 32

namespace Server

variable (crypto : Crypto) (server : Server) (partner : Partner)

def exchangeHash : Fixed 32 :=
  crypto.hashSha256 <| List.flatMap encodeString
    [partner.version, server.version, partner.kexinit, server.kexinit.rawPayload,
      Kex.ed25519Blob server.hostKey.val, partner.publicKey.val, server.publicKey.val,
      Kex.positiveMagnitude partner.secret.val]

/-- The key for a letter. -/
def key (letter : UInt8) : Fixed 32 :=
  crypto.hashSha256 <| encodeString (Kex.positiveMagnitude partner.secret.val) ++
    ((exchangeHash crypto server partner).val ++ letter :: (exchangeHash crypto server partner).val)

theorem iv_le_key : 16 ≤ 32 := by decide

def keys : TransportKeyMaterial where
  ivCs := Fixed.first 16 iv_le_key (key crypto server partner 65)
  ivSc := Fixed.first 16 iv_le_key (key crypto server partner 66)
  encryptionKeyCs := key crypto server partner 67
  encryptionKeySc := key crypto server partner 68
  macKeyCs := key crypto server partner 69
  macKeySc := key crypto server partner 70

def reply : EcdhReply where
  serverHostKey := Kex.ed25519Blob server.hostKey.val
  serverPublicKey := server.publicKey
  signature := Kex.ed25519Blob (server.sign (exchangeHash crypto server partner).val).val

/-- The payloads in the clear. -/
def clear : List Bytes :=
  [server.kexinit.rawPayload,
    Kex.ecdhReplyBytes (reply crypto server partner).serverHostKey server.publicKey.val
      (reply crypto server partner).signature,
    [Message.newkeys]]

def serviceAccept : Bytes := Message.serviceAccept :: encodeString (ascii "ssh-userauth")

def refusal : Bytes :=
  Message.userauthFailure :: (encodeString server.methods ++ [server.partialSuccess])

/-- The payloads under the new keys. -/
def secret : List Bytes :=
  [serviceAccept, refusal server, [Message.userauthSuccess]] ++ server.script.payloads

/-- Everything that the server sends. The sequence numbers go on where the keys change. -/
def Sends (keystream : Fixed 32 → Fixed 16 → Nat → UInt8) (last : Line) (bytes : Bytes) : Prop :=
  ∃ inClear middle inSecret,
    bytes = server.version ++ [carriageReturn, lineFeed] ++ (inClear ++ inSecret) ∧
    Carries crypto keystream ⟨0, none⟩ (clear crypto server partner) inClear middle ∧
    Carries crypto keystream
      ⟨middle.sequence, some ({ key := (keys crypto server partner).encryptionKeySc
                                iv := (keys crypto server partner).ivSc },
        (keys crypto server partner).macKeySc)⟩
      (secret server) inSecret last

/-- The server keeps to the protocol: its version line and its proposal are well formed and
offer what the client implements, its keys belong together, and its session conforms. -/
structure Conforms : Prop where
  version : server.version.take 7 = ascii "SSH-2.0"
  oneLine : carriageReturn ∉ server.version ∧ lineFeed ∉ server.version
  versionSize : server.version.length < 4294967296
  kexinit : Kex.LaidOut server.kexinit.rawPayload server.kexinit
  kexinitSize : server.kexinit.rawPayload.length < 4294967296
  offers : ∀ category ∈ Kex.categories,
    category.2 Kex.implementedSuite ∈ Kex.names (category.1 server.kexinit)
  ephemeral : crypto.scalarmultCurve25519Base server.privateKey = some server.publicKey
  methods : server.methods.length < 4294967296
  script : server.script.Conforms

/-- The partner is this client: its line and its proposal, its public key, and the secret as the
server computes it. The signature over the exchange hash is one of the host key. -/
structure Meets (random : Nat → UInt8) : Prop where
  version : partner.version = ascii "SSH-2.0-ConorSSH_0.1"
  kexinit : partner.kexinit = (clientKexinit random).rawPayload
  ephemeral : crypto.scalarmultCurve25519Base (clientPrivateKey random) = some partner.publicKey
  agreed : crypto.scalarmultCurve25519 server.privateKey partner.publicKey = some partner.secret
  signed : crypto.signVerifyDetached (server.sign (exchangeHash crypto server partner).val)
    (exchangeHash crypto server partner).val server.hostKey = true

end Server

/-- Diffie-Hellman agreement gives both sides the same secret. -/
def Symmetric (crypto : Crypto) : Prop :=
  ∀ a b a' b', crypto.scalarmultCurve25519Base a = some a' →
    crypto.scalarmultCurve25519Base b = some b' →
    crypto.scalarmultCurve25519 a b' = crypto.scalarmultCurve25519 b a'

/-! ### The two sides compute the same -/

section Agreement

variable {crypto : Crypto} {server : Server} {partner : Partner} {random : Nat → UInt8}

/-- The key pair of the client with the secret of the server. -/
def Partner.keypair (partner : Partner) (random : Nat → UInt8) : Curve25519State where
  clientPrivateKey := clientPrivateKey random
  clientPublicKey := partner.publicKey
  sharedSecret := partner.secret

theorem clientKexinit_length (random : Nat → UInt8) :
    (clientKexinit random).rawPayload.length = 144 := by
  have hcookie := (Fixed.copy 16 ((List.range 16).map random)).property
  simp only [clientKexinit, Kex.kexinitBytes, List.length_cons, List.length_append,
    encodeUint32_length, Kex.nameLists, Kex.clientOffer, List.flatMap_cons, List.flatMap_nil,
    encodeString_length, hcookie]
  decide

theorem negotiate_server (conforms : server.Conforms crypto) :
    Kex.negotiate (clientKexinit random) server.kexinit = .ok Kex.implementedSuite := by
  refine Kex.negotiate_ok.mpr ?_
  intro category hcategory
  have hoffer : category.1 (clientKexinit random) = category.2 Kex.implementedSuite ∧
      Kex.names (category.1 (clientKexinit random)) = [category.1 (clientKexinit random)] := by
    simp only [Kex.categories, List.mem_cons, List.not_mem_nil, or_false] at hcategory
    rcases hcategory with rfl | rfl | rfl | rfl | rfl | rfl | rfl | rfl <;> exact ⟨rfl, rfl⟩
  refine Kex.chooseAlgorithm_ok.mpr ⟨[], [], ?_, conforms.offers category hcategory, ?_⟩
  · rw [hoffer.2, hoffer.1]
    rfl
  · exact fun _ hnone => absurd hnone List.not_mem_nil

theorem calculateSharedSecret_partner (symmetric : Symmetric crypto)
    (conforms : server.Conforms crypto) (meets : server.Meets crypto partner random) :
    Kex.calculateSharedSecret crypto
        { clientPrivateKey := clientPrivateKey random, clientPublicKey := partner.publicKey }
        server.publicKey = .ok (partner.keypair random) := by
  unfold Kex.calculateSharedSecret
  rw [symmetric _ _ _ _ meets.ephemeral conforms.ephemeral, meets.agreed]
  rfl

theorem ed25519Blob_length {value : Bytes} :
    (Kex.ed25519Blob value).length = 19 + value.length := by
  rw [Kex.ed25519Blob, List.length_append, encodeString_length, encodeString_length]
  have hname : (ascii "ssh-ed25519").length = 11 := rfl
  omega

theorem calculateExchangeHash_partner (conforms : server.Conforms crypto)
    (meets : server.Meets crypto partner random) :
    Kex.calculateExchangeHash crypto (ascii "SSH-2.0-ConorSSH_0.1") server.version
        (clientKexinit random) server.kexinit (partner.keypair random)
        (server.reply crypto partner) =
      .ok (server.exchangeHash crypto partner) := by
  refine bind_eq_ok.mpr ⟨_, Kex.exchangeTranscript_ok.mpr ⟨?_, rfl⟩, ?_⟩
  · have hblob := @ed25519Blob_length server.hostKey.val
    simp only [Kex.exchangeFields, Server.reply, Partner.keypair, List.forall_mem_cons,
      clientKexinit_length, hblob, server.hostKey.property, partner.publicKey.property,
      server.publicKey.property]
    exact ⟨by decide, conforms.versionSize, by decide, conforms.kexinitSize, by decide, by decide,
      by decide, Kex.positiveMagnitude_fixed_lt _, fun _ hnone => absurd hnone List.not_mem_nil⟩
  · rw [Server.exchangeHash, meets.version, meets.kexinit]
    rfl

theorem parseEd25519VerificationData_reply :
    Kex.parseEd25519VerificationData (server.reply crypto partner)
        Kex.implementedSuite.hostKeyAlgorithm =
      .ok { publicKey := server.hostKey
            signature := server.sign (server.exchangeHash crypto partner).val } :=
  Kex.parseEd25519VerificationData_ok.mpr ⟨rfl, rfl, rfl⟩

theorem deriveTransportKeys_partner :
    Kex.deriveTransportKeys crypto partner.secret (server.exchangeHash crypto partner)
        (server.exchangeHash crypto partner) = .ok (server.keys crypto partner) := by
  have hkey : ∀ letter, Kex.deriveKeyMaterial crypto partner.secret
      (server.exchangeHash crypto partner) letter (server.exchangeHash crypto partner) =
      .ok (server.key crypto partner letter) := by
    intro letter
    exact bind_eq_ok.mpr ⟨_, Kex.derivationInput_ok.mpr rfl, rfl⟩
  simp only [Kex.deriveTransportKeys, hkey]
  rfl

end Agreement

/-! ### The key exchange -/

section Exchange

variable {crypto : Crypto} {keystream : Fixed 32 → Fixed 16 → Nat → UInt8}
variable {payloads : List Bytes} {last : Line} {rest : Bytes} {w : Wire}

/-- Packets have gone over the wire, nothing was shown, and so many random bytes are drawn. -/
structure Exchanged (crypto : Crypto) (keystream : Fixed 32 → Fixed 16 → Nat → UInt8)
    (payloads : List Bytes) (last : Line) (rest : Bytes) (drawn : Nat) (w t : Wire) : Prop where
  supplied : Supplied crypto keystream payloads last rest t
  shows : Shows w.trace t.trace [] []
  random : t.random = w.random
  drawn : t.drawn = drawn

theorem kexinitPayload_clientOffer (random : Nat → UInt8) :
    Kex.kexinitPayload (Kex.clientOffer (Fixed.copy 16 ((List.range 16).map random))) =
      .ok (clientKexinit random).rawPayload := by
  refine Kex.kexinitPayload_ok.mpr ⟨?_, rfl⟩
  simp only [Kex.nameLists, Kex.clientOffer, List.forall_mem_cons]
  decide

theorem succeeds_sendKexinit (working : Working crypto keystream) (hdrawn : w.drawn = 0)
    (hclear : w.transport.outgoingEncryptionActive = false)
    (h : Supplied crypto keystream payloads last rest w) :
    Succeeds (sendKexinit crypto) w fun kexinit t => kexinit = clientKexinit w.random ∧
      Exchanged crypto keystream payloads last rest 27 w t := by
  have hlength := clientKexinit_length w.random
  have hcookie : ((List.range Kex.cookieBytes).map fun i => w.random (w.drawn + i)) =
      (List.range 16).map w.random := by
    rw [hdrawn]
    simp only [Nat.zero_add]
    rfl
  have hcreated : Succeeds Kex.createClientKexinit w fun kexinit t =>
      kexinit = clientKexinit w.random ∧ t = { w with drawn := 16 } := by
    refine WP.bind_iff.mpr (wp_randombytesBuf.mpr ?_)
    rw [hcookie, hdrawn]
    exact Succeeds.bind_lift (kexinitPayload_clientOffer w.random) ⟨rfl, rfl⟩
  refine hcreated.bind ?_
  rintro _ _ ⟨rfl, rfl⟩
  have hsupplied : Supplied crypto keystream payloads last rest { w with drawn := 16 } :=
    h.of_same rfl rfl
  have hsendable : sendable (clientKexinit w.random).rawPayload :=
    sendable_of_length (by omega) (by omega)
  have hsent := succeeds_sendPacket working hsendable hsupplied
  refine (hsent.and_always (wp_sendPacket_drawn _)).bind ?_
  rintro _ t ⟨⟨sending, ht⟩, hpadding⟩
  have hshows := shows_sending sending
  refine WP.pure_iff.mpr ⟨rfl, ht, hshows, sending.random, ?_⟩
  rw [hpadding, hlength]
  simp only [calculatePaddingLength, hclear]
  rfl

/-- A packet that is checked, read, and noted. -/
theorem succeeds_received {α : Type} (working : Working crypto keystream) {payload : Bytes}
    {check : Bytes → Exec Wire α} {result : α → Prop}
    (h : Supplied crypto keystream (payload :: payloads) last rest w)
    (hcheck : ∀ t, Succeeds (check payload) t fun a u => result a ∧ ∃ event,
      u = { t with trace := t.trace ++ [event] } ∧ Hidden [event]) :
    Succeeds (receivePacket crypto >>= check) w fun a t => result a ∧
      Exchanged crypto keystream payloads last rest w.drawn w t := by
  refine (succeeds_receivePacket working h).bind ?_
  rintro _ t ⟨rfl, received, ht⟩
  refine (hcheck t).consequence ?_
  rintro a _ ⟨ha, event, rfl, hidden⟩
  exact ⟨ha, ht.of_same rfl rfl, (shows_received received).trans (shows_append hidden),
    received.random, received.drawn⟩

theorem hidden_accepted (payload : Bytes) : Hidden [.accepted payload] := by
  intro e he
  rw [List.mem_singleton.mp he]
  exact ⟨rfl, rfl⟩

theorem succeeds_receiveKexinit (working : Working crypto keystream) {kexinit : KexInit}
    (laidOut : Kex.LaidOut kexinit.rawPayload kexinit)
    (h : Supplied crypto keystream (kexinit.rawPayload :: payloads) last rest w) :
    Succeeds (receiveKexinit crypto) w fun received t => received = kexinit ∧
      Exchanged crypto keystream payloads last rest w.drawn w t := by
  obtain ⟨-, -, flag, hpayload, -⟩ := id laidOut
  refine succeeds_received working h ?_
  intro t
  refine Succeeds.bind_failIf ?_ (Succeeds.bind_failIf ?_ ?_)
  · rw [hpayload]
    exact List.cons_ne_nil _ _
  · rw [hpayload]
    exact fun hother => hother rfl
  · exact Succeeds.bind_lift (Kex.parseKexinit_of_laidOut laidOut)
      ⟨rfl, _, rfl, hidden_accepted _⟩

theorem succeeds_receiveEcdhReply (working : Working crypto keystream) (reply : EcdhReply)
    (hhostKey : reply.serverHostKey.length < 4294967296)
    (hsignature : reply.signature.length < 4294967296)
    (h : Supplied crypto keystream (Kex.ecdhReplyBytes reply.serverHostKey
      reply.serverPublicKey.val reply.signature :: payloads) last rest w) :
    Succeeds (receiveEcdhReply crypto) w fun received t => received = reply ∧
      Exchanged crypto keystream payloads last rest w.drawn w t := by
  refine succeeds_received working h ?_
  intro t
  refine Succeeds.bind_failIf (List.cons_ne_nil _ _)
    (Succeeds.bind_failIf (fun hother => hother rfl) ?_)
  exact Succeeds.bind_lift (Kex.parseEcdhReply_ok.mpr ⟨hhostKey, hsignature, rfl⟩)
    ⟨rfl, _, rfl, hidden_accepted _⟩

/-- The key pair is made of the next random bytes. -/
theorem succeeds_createCurve25519Keypair {publicKey : Fixed 32} (hdrawn : w.drawn = 27)
    (hkey : crypto.scalarmultCurve25519Base (clientPrivateKey w.random) = some publicKey) :
    Succeeds (Kex.createCurve25519Keypair crypto) w fun keypair t =>
      keypair = { clientPrivateKey := clientPrivateKey w.random, clientPublicKey := publicKey } ∧
        t = { w with drawn := w.drawn + 32 } := by
  refine WP.bind_iff.mpr (wp_randombytesBuf.mpr ?_)
  have hprivate : Fixed.copy 32 ((List.range Kex.lengthOfKey).map fun i => w.random (w.drawn + i)) =
      clientPrivateKey w.random := by
    rw [hdrawn]
    rfl
  dsimp only
  rw [hprivate, hkey]
  exact ⟨rfl, rfl⟩

theorem succeeds_verifyServer {data : Ed25519VerificationData} {exchangeHash : Fixed 32}
    (hsigned : crypto.signVerifyDetached data.signature exchangeHash.val data.publicKey = true) :
    Succeeds (verifyServer crypto data exchangeHash) w fun _ t =>
      t = { w with trace :=
        w.trace ++ [.signatureVerified data.signature exchangeHash data.publicKey] } := by
  have hverified : Kex.verifyEd25519Signature crypto data exchangeHash = .ok () := by
    unfold Kex.verifyEd25519Signature
    rw [hsigned]
    rfl
  exact Succeeds.bind_lift hverified rfl

/-- NEWKEYS of the server is the last packet in the clear, and what follows is keyed. -/
theorem succeeds_exchangeNewkeys (working : Working crypto keystream) (keys : TransportKeyMaterial)
    {middle : Line} {inSecret : Bytes}
    (carries : Carries crypto keystream
      ⟨middle.sequence, some ({ key := keys.encryptionKeySc, iv := keys.ivSc }, keys.macKeySc)⟩
      payloads inSecret last)
    (h : Supplied crypto keystream [[Message.newkeys]] middle (inSecret ++ rest) w) :
    Succeeds (exchangeNewkeys crypto keys) w fun _ t =>
      Supplied crypto keystream payloads last rest t ∧ Shows w.trace t.trace [] [] := by
  refine (succeeds_sendPacket working ⟨List.cons_ne_nil _ _, by decide⟩ h).bind ?_
  rintro _ t ⟨sending, ht⟩
  refine WP.bind_iff.mpr (wp_enableEncryption working ?_)
  have hkeyed : Supplied crypto keystream [[Message.newkeys]] middle (inSecret ++ rest)
      { t with transport := { t.transport with
          outgoingCipher := some { key := keys.encryptionKeyCs, iv := keys.ivCs }
          outgoingMacKey := keys.macKeyCs
          outgoingEncryptionActive := true } } :=
    ⟨ht.ahead, ht.flowing, ht.lossless, _, rfl⟩
  refine (succeeds_receivePacket working hkeyed).bind ?_
  rintro _ u ⟨rfl, received, hu⟩
  refine Succeeds.bind_failIf (by decide) (Succeeds.bind_failIf (by decide) ?_)
  refine WP.bind_iff.mpr (wp_record.mpr (wp_enableEncryption working ?_))
  obtain ⟨hline, hstream⟩ := hu.spent
  refine ⟨⟨⟨_, inSecret, ?_, carries, hstream⟩, hu.flowing, hu.lossless, hu.sends⟩, ?_⟩
  · rw [sequence_of_incoming hline]
    rfl
  · have hshows := shows_received received
    exact (shows_sending sending).trans (hshows.trans (shows_append (hidden_accepted _)))

end Exchange

/-- The host key is trusted: it is known, or the user says yes and it can be saved. The lines
are those that the user has typed, before and behind the question. -/
inductive Trusts (crypto : Crypto) (hosts : KnownHosts) (hostname algorithm hostKey : Bytes) :
    List LineResult → List LineResult → Prop where
  | known {later : List LineResult} :
      KnownHosts.check crypto hosts hostname algorithm hostKey = .ok .matched →
      Trusts crypto hosts hostname algorithm hostKey later later
  | confirmed {hosts' : KnownHosts} {later : List LineResult} :
      KnownHosts.check crypto hosts hostname algorithm hostKey = .ok .unknown →
      (KnownHosts.add crypto hostname algorithm hostKey).run hosts = .ok () hosts' →
      Trusts crypto hosts hostname algorithm hostKey (.line (ascii "yes") :: later) later

section Handshake

variable {crypto : Crypto} {keystream : Fixed 32 → Fixed 16 → Nat → UInt8}
variable {payloads : List Bytes} {last : Line} {rest : Bytes} {w : World}

theorem succeeds_print {α : Type} {text : Bytes} {f : Unit → Exec World α} {post : α → World → Prop}
    (h : Succeeds (f ()) { w with wire := { w.wire with
      trace := w.wire.trace ++ [.printed text] } } post) : Succeeds (print text >>= f) w post :=
  succeeds_note h

theorem succeeds_confirmHost {hostname algorithm hostKey : Bytes} {later : List LineResult}
    (trusts : Trusts crypto w.hosts hostname algorithm hostKey w.console.lines later) :
    Succeeds (confirmHost crypto hostname algorithm hostKey) w fun _ t => ∃ wire hosts,
      t = { w with wire := wire, hosts := hosts, console := { w.console with lines := later } } ∧
      wire.sock = w.wire.sock ∧ wire.transport = w.wire.transport ∧
      Shows w.wire.trace wire.trace [] [] := by
  generalize hlines : w.console.lines = lines at trusts
  refine Succeeds.bind_get ?_
  cases trusts with
  | known hcheck =>
      subst hlines
      refine Succeeds.bind_lift hcheck (succeeds_note (wp_onWire.mpr (wp_record.mpr ?_)))
      exact ⟨_, w.hosts, rfl, rfl, rfl, (shows_note _ rfl rfl).trans (shows_note _ rfl rfl)⟩
  | @confirmed hosts' _ hcheck hadd =>
      have hanswer : readAnswer.run w.console =
          .ok (ascii "yes") { w.console with lines := later } := by
        apply WP.run_eq
        simp only [readAnswer, Console.getline, WP.bind_iff, WP.get_iff, hlines, WP.set_iff]
        exact ⟨rfl, rfl⟩
      refine Succeeds.bind_lift hcheck (succeeds_note ?_)
      refine succeeds_print (succeeds_print (succeeds_print ?_))
      refine WP.bind_iff.mpr (wp_onConsole.mpr (Succeeds.of_run hanswer (succeeds_note ?_)))
      refine Succeeds.bind_failIf (fun hother => hother rfl) ?_
      refine WP.bind_iff.mpr (wp_onHosts.mpr (Succeeds.of_run hadd (succeeds_note ?_)))
      refine wp_onWire.mpr (wp_record.mpr ⟨_, hosts', rfl, rfl, rfl, ?_⟩)
      exact ((((((shows_note _ rfl rfl).trans (shows_note _ rfl rfl)).trans
        (shows_note _ rfl rfl)).trans (shows_note _ rfl rfl)).trans (shows_note _ rfl rfl)).trans
        (shows_note _ rfl rfl)).trans (shows_note _ rfl rfl)

variable {server : Server} {partner : Partner}

-- The proposal of the client is all but closed, and the unifier would evaluate it.
attribute [local irreducible] Client.sendKexinit clientKexinit Kex.negotiate

theorem succeeds_performKeyExchange (working : Working crypto keystream)
    (symmetric : Symmetric crypto) (conforms : server.Conforms crypto)
    (meets : server.Meets crypto partner w.wire.random) (hdrawn : w.wire.drawn = 0)
    (hclear : w.wire.transport.outgoingEncryptionActive = false) {hostname : Bytes}
    {later : List LineResult}
    (trusts : Trusts crypto w.hosts hostname (ascii "ssh-ed25519")
      (Kex.ed25519Blob server.hostKey.val) w.console.lines later)
    {middle : Line} {inSecret : Bytes}
    (carries : Carries crypto keystream
      ⟨middle.sequence, some ({ key := (server.keys crypto partner).encryptionKeySc
                                iv := (server.keys crypto partner).ivSc },
        (server.keys crypto partner).macKeySc)⟩ server.secret inSecret last)
    (h : Supplied crypto keystream (server.clear crypto partner) middle (inSecret ++ rest) w.wire) :
    Succeeds (performKeyExchange crypto
        { client := ascii "SSH-2.0-ConorSSH_0.1", server := server.version } hostname) w fun _ t =>
      ∃ wire hosts,
        t = { w with wire := wire, hosts := hosts, console := { w.console with lines := later } } ∧
        Supplied crypto keystream server.secret last rest wire ∧
        Shows w.wire.trace wire.trace [] [] := by
  have hblob := @ed25519Blob_length server.hostKey.val
  have hsignature := @ed25519Blob_length (server.sign (server.exchangeHash crypto partner).val).val
  rw [server.hostKey.property] at hblob
  rw [(server.sign (server.exchangeHash crypto partner).val).property] at hsignature
  rw [performKeyExchange]
  -- The two proposals.
  refine succeeds_onWire (succeeds_sendKexinit working hdrawn hclear h) ?_
  rintro _ w1 ⟨rfl, h1⟩
  refine succeeds_onWire (succeeds_receiveKexinit working conforms.kexinit h1.supplied) ?_
  rintro _ w2 ⟨rfl, h2⟩
  have hnegotiated := @negotiate_server crypto server w.wire.random conforms
  refine Succeeds.bind_lift hnegotiated ?_
  refine Succeeds.bind_failIf (fun hother => hother rfl) ?_
  -- The key agreement.
  have hrandom : w2.random = w.wire.random := h2.random.trans h1.random
  have hephemeral : crypto.scalarmultCurve25519Base (clientPrivateKey w2.random) =
      some partner.publicKey := by
    rw [hrandom]
    exact meets.ephemeral
  refine succeeds_onWire (succeeds_createCurve25519Keypair (h2.drawn.trans h1.drawn) hephemeral) ?_
  rintro _ _ ⟨rfl, rfl⟩
  have hsupplied := h2.supplied
  have hinit : sendable (Kex.createEcdhInitPayload
      { clientPrivateKey := clientPrivateKey w2.random
        clientPublicKey := partner.publicKey }) := by
    refine ⟨List.cons_ne_nil _ _, ?_⟩
    simp only [Kex.createEcdhInitPayload, List.length_append, encodeUint32_length,
      partner.publicKey.property]
    decide
  refine succeeds_onWire (succeeds_sendPacket working hinit (hsupplied.of_same rfl rfl)) ?_
  rintro _ w3 ⟨sending, h3⟩
  refine succeeds_onWire (succeeds_receiveEcdhReply working (server.reply crypto partner)
    (by rw [Server.reply, hblob]; decide) (by rw [Server.reply, hsignature]; decide) h3) ?_
  rintro _ w4 ⟨rfl, h4⟩
  rw [hrandom]
  refine Succeeds.bind_lift (calculateSharedSecret_partner symmetric conforms meets) ?_
  refine Succeeds.bind_lift (calculateExchangeHash_partner conforms meets) ?_
  -- The proof of the server.
  refine Succeeds.bind_lift parseEd25519VerificationData_reply ?_
  refine succeeds_onWire (succeeds_verifyServer meets.signed) ?_
  rintro _ _ rfl
  refine Succeeds.bind (succeeds_confirmHost trusts) ?_
  rintro _ _ ⟨w5, hosts, rfl, hsock, htransport, shows5⟩
  refine Succeeds.bind_lift deriveTransportKeys_partner ?_
  have h5 : Supplied crypto keystream [[Message.newkeys]] middle (inSecret ++ rest) w5 :=
    h4.supplied.of_same hsock htransport
  refine wp_onWire.mpr ((succeeds_exchangeNewkeys working _ carries h5).consequence ?_)
  rintro _ wire ⟨hwire, shows⟩
  have hbefore : Shows w.wire.trace w2.trace [] [] := h1.shows.trans h2.shows
  have hinitiated := shows_sending sending
  have hproved : Shows w4.trace wire.trace [] [] :=
    (shows_note _ rfl rfl).trans (shows5.trans shows)
  exact ⟨wire, hosts, rfl, hwire, ((hbefore.trans hinitiated).trans h4.shows).trans hproved⟩

/-! ### Authentication -/

/-- A request whose answer passes its check. -/
theorem succeeds_answered {α β : Type} (working : Working crypto keystream) {request answer : Bytes}
    (hsize : sendable request) {check : Bytes → Except Stop α} {a : α}
    (hcheck : check answer = .ok a)
    (h : Supplied crypto keystream (answer :: payloads) last rest w.wire)
    {f : α → Exec World β} {post : β → World → Prop}
    (next : ∀ wire, Supplied crypto keystream payloads last rest wire →
      Shows w.wire.trace wire.trace [] [] → Succeeds (f a) { w with wire := wire } post) :
    Succeeds (do
        onWire (sendPacket crypto request)
        let response ← onWire (receivePacket crypto)
        let a ← lift (check response)
        onWire (record (.accepted response))
        f a) w post := by
  refine succeeds_onWire (succeeds_sendPacket working hsize h) ?_
  rintro _ w1 ⟨sending, h1⟩
  refine succeeds_onWire (succeeds_receivePacket working h1) ?_
  rintro _ w2 ⟨rfl, received, h2⟩
  refine Succeeds.bind_lift hcheck (succeeds_note ?_)
  exact next _ (h2.of_same rfl rfl) (((shows_sending sending).trans (shows_received received)).trans
    (shows_append (hidden_accepted _)))

theorem validateServiceAccept_serviceAccept :
    Auth.validateServiceAccept Server.serviceAccept = .ok () := rfl

theorem parseAuthFailure_refusal (hmethods : server.methods.length < 4294967296) :
    Auth.parseAuthFailure server.refusal =
      .ok { availableMethods := server.methods, partialSuccess := server.partialSuccess != 0 } := by
  obtain ⟨hread, hlast⟩ := readString_of_drop hmethods
    (show server.refusal.drop 1 = encodeString server.methods ++ [server.partialSuccess] from rfl)
  have hbyte : server.refusal[1 + 4 + server.methods.length]? = some server.partialSuccess := by
    rw [← List.head?_drop, hlast]
    rfl
  have hlength : server.refusal.length = 1 + 4 + server.methods.length + 1 := by
    simp only [Server.refusal, List.length_cons, List.length_append, encodeString_length,
      List.length_nil]
    omega
  refine evalOn_eq_ok.mpr ⟨1 + 4 + server.methods.length + 1, WP.run_eq ?_⟩
  simp only [WP.bind_iff, WP.get_iff, WP.failIf_iff, WP.set_iff, WP.pure_iff, wp_sizeSub,
    wp_byteAt, WP.ok_iff hread, hbyte, hlength]
  simp [Server.refusal]

/-- The line that is typed without echo. -/
theorem succeeds_readHiddenInput {console : Console} {prompt password : Bytes}
    {later : List LineResult} (willing : Willing console)
    (hlines : console.lines = .line password :: later) :
    Succeeds (Terminal.readHiddenInput prompt) console fun input t => input = password ∧
      Willing t ∧ t.settings = console.settings ∧ t.terminal = console.terminal := by
  refine WP.bind_iff.mpr (WP.modify_iff.mpr ?_)
  have hprompted : Willing { console with output := console.output ++ [prompt] } :=
    ⟨willing.gets, willing.sets⟩
  refine Succeeds.bind (succeeds_tcgetattr hprompted) ?_
  rintro _ _ ⟨rfl, answers, rfl, hgot⟩
  refine Succeeds.bind (succeeds_tcsetattr hgot _) ?_
  rintro _ _ ⟨rfl, answers', rfl, hset⟩
  refine Succeeds.bind_failIf Bool.false_ne_true ?_
  have hline : Succeeds Console.getline { console with
      output := console.output ++ [prompt]
      getAnswers := answers
      settings := console.settings.withoutEcho
      setAnswers := answers' } fun result t => result = .line password ∧ t = { console with
        output := console.output ++ [prompt]
        getAnswers := answers
        settings := console.settings.withoutEcho
        setAnswers := answers'
        lines := later } := by
    simp only [Console.getline, WP.bind_iff, WP.get_iff, hlines, WP.set_iff]
    exact ⟨rfl, rfl⟩
  refine Succeeds.bind hline ?_
  rintro _ _ ⟨rfl, rfl⟩
  have htyped : Willing { console with
      output := console.output ++ [prompt]
      getAnswers := answers
      settings := console.settings.withoutEcho
      setAnswers := answers'
      lines := later } := ⟨hset.gets, hset.sets⟩
  refine Succeeds.bind (succeeds_tcsetattr htyped _) ?_
  rintro _ _ ⟨rfl, answers'', rfl, hrestored⟩
  refine Succeeds.bind_failIf Bool.false_ne_true ?_
  exact ⟨rfl, ⟨hrestored.gets, hrestored.sets⟩, rfl, rfl⟩

/-- A name and a password that fit into a packet. -/
def loginFits (username password : Bytes) : Prop := username.length + password.length ≤ 34943

section Requests

variable {username password : Bytes}

theorem createNoneAuthRequest_fits (fits : loginFits username password) :
    ∃ payload, Auth.createNoneAuthRequest username = .ok payload ∧ sendable payload := by
  have hbound : username.length + password.length ≤ 34943 := fits
  have hservice : (ascii "ssh-connection").length = 14 := rfl
  have hmethod : (ascii "none").length = 4 := rfl
  have husername : username.length < 4294967296 := by omega
  simp only [Auth.createNoneAuthRequest, bind_eq_ok, appendString_ok]
  refine ⟨_, ⟨_, ⟨husername, rfl⟩, _, ⟨by decide, rfl⟩, by decide, rfl⟩, List.cons_ne_nil _ _, ?_⟩
  simp only [List.length_append, encodeString_length, List.length_singleton, hservice, hmethod]
  omega

theorem createPasswordAuthRequest_fits (fits : loginFits username password) :
    ∃ payload, Auth.createPasswordAuthRequest username password = .ok payload ∧
      sendable payload := by
  have hbound : username.length + password.length ≤ 34943 := fits
  have hservice : (ascii "ssh-connection").length = 14 := rfl
  have hmethod : (ascii "password").length = 8 := rfl
  have husername : username.length < 4294967296 := by omega
  have hpassword : password.length < 4294967296 := by omega
  simp only [Auth.createPasswordAuthRequest, bind_eq_ok, appendString_ok]
  refine ⟨_, ⟨_, ⟨husername, rfl⟩, _, ⟨by decide, rfl⟩, _, ⟨by decide, rfl⟩, hpassword, rfl⟩,
    List.cons_ne_nil _ _, ?_⟩
  simp only [List.length_append, encodeString_length, List.length_singleton, hservice, hmethod]
  omega

end Requests

theorem succeeds_authenticateUser (working : Working crypto keystream)
    (hmethods : server.methods.length < 4294967296) {username password : Bytes}
    {later : List LineResult} (fits : loginFits username password) (willing : Willing w.console)
    (hlines : w.console.lines = .line password :: later)
    (h : Supplied crypto keystream server.secret last rest w.wire) :
    Succeeds (authenticateUser crypto username) w fun _ t => ∃ wire console,
      t = { w with wire := wire, console := console } ∧
      Supplied crypto keystream server.script.payloads last rest wire ∧
      Shows w.wire.trace wire.trace [] [] ∧ Willing console ∧
      console.settings = w.console.settings ∧ console.terminal = w.console.terminal := by
  obtain ⟨service, hservice, hserviceSize⟩ : ∃ payload, Auth.createServiceRequest = .ok payload ∧
      sendable payload := ⟨_, rfl, List.cons_ne_nil _ _, by decide⟩
  obtain ⟨probe, hprobe, hprobeSize⟩ := createNoneAuthRequest_fits fits
  obtain ⟨request, hrequest, hrequestSize⟩ := createPasswordAuthRequest_fits fits
  refine Succeeds.bind_lift hservice ?_
  refine succeeds_answered working hserviceSize validateServiceAccept_serviceAccept h ?_
  intro w1 h1 shows1
  refine Succeeds.bind_lift hprobe ?_
  refine succeeds_answered (w := { w with wire := w1 }) working hprobeSize
    (parseAuthFailure_refusal hmethods) h1 ?_
  intro w2 h2 shows2
  refine WP.bind_iff.mpr
    (wp_onConsole.mpr ((succeeds_readHiddenInput willing hlines).consequence ?_))
  rintro _ console ⟨rfl, hwilling, hsettings, hterminal⟩
  refine Succeeds.bind_lift hrequest ?_
  refine succeeds_onWire (succeeds_sendPacket working hrequestSize h2) ?_
  rintro _ w3 ⟨sending, h3⟩
  refine succeeds_onWire (succeeds_receivePacket working h3) ?_
  rintro _ w4 ⟨rfl, received, h4⟩
  refine Succeeds.bind_failIf (List.cons_ne_nil _ _) ?_
  have hvalid : Auth.validateAuthSuccess [Message.userauthSuccess] = .ok () := rfl
  have hhead : [Message.userauthSuccess].head? = some Message.userauthSuccess := rfl
  refine Succeeds.ite_pos hhead ?_
  refine Succeeds.bind_lift hvalid (succeeds_note (wp_onWire.mpr (wp_record.mpr ?_)))
  have hasked : Shows w.wire.trace w2.trace [] [] := shows1.trans shows2
  have hanswered := (shows_sending sending).trans (shows_received received)
  have hprinted := (hasked.trans hanswered).trans
    ((shows_append (hidden_accepted [Message.userauthSuccess])).trans
      (shows_note _ rfl rfl : Shows _ (_ ++ [.printed (ascii "Authentication Complete\n")]) [] []))
  exact ⟨_, console, rfl, h4.of_same rfl rfl, hprinted, hwilling, hsettings, hterminal⟩

end Handshake

/-! ### The connection -/

theorem lineVersion_version {version : Bytes} (h : carriageReturn ∉ version) :
    lineVersion (version ++ [carriageReturn]) = version := by
  have hkept : ∀ byte ∈ version, decide (byte ≠ carriageReturn) = true := by
    intro byte hbyte
    exact decide_eq_true fun hreturn => h (hreturn ▸ hbyte)
  rw [lineVersion, List.filter_append, List.filter_eq_self.mpr hkept]
  exact List.append_nil _

theorem succeeds_exchangeIdentification {s : Socket} {version rest : Bytes}
    (flowing : Socket.Flowing s.reads) (lossless : Socket.Lossless s.writes)
    (hversion : version.take 7 = ascii "SSH-2.0")
    (oneLine : carriageReturn ∉ version ∧ lineFeed ∉ version)
    (hstream : Socket.stream s.reads = version ++ [carriageReturn, lineFeed] ++ rest)
    (clientVersion : Bytes) :
    Succeeds (exchangeIdentification clientVersion) s fun id t =>
      id = { client := clientVersion, server := version } ∧ Socket.stream t.reads = rest ∧
        Socket.Flowing t.reads ∧ Socket.Lossless t.writes := by
  have hline : lineFeed ∉ version ++ [carriageReturn] := by
    rw [List.mem_append, List.mem_singleton, not_or]
    exact ⟨oneLine.2, by decide⟩
  have hsplit : Socket.stream s.reads = (version ++ [carriageReturn]) ++ lineFeed :: rest := by
    rw [hstream]
    simp only [List.append_assoc, List.cons_append, List.nil_append]
  have hends : lineFeed ∈ Socket.stream s.reads := by
    rw [hsplit]
    exact List.mem_append_right _ List.mem_cons_self
  obtain ⟨reads, hrun, hrest⟩ := readVersion_run flowing hsplit hline
  have hflowing : Socket.Flowing reads := (wp_readVersion_flowing flowing hends).of_ok hrun
  rw [lineVersion_version oneLine.1] at hrun
  refine Succeeds.bind_run hrun ?_
  refine Succeeds.bind_failIf (fun hother => hother hversion) ?_
  obtain ⟨writes, hwrite, hlossless⟩ := Socket.writeExact_of_lossless
    (s := { s with reads := reads }) lossless (clientVersion ++ [13, 10])
  refine Succeeds.bind_run hwrite ?_
  exact WP.pure_iff.mpr ⟨rfl, hrest, hflowing, hlossless⟩

/-- Everything around the client does its part: the command line is right, the connection is
made, bytes arrive and are taken, and the terminal can be changed and described. -/
structure Ready (env : Environment) (config : ClientConfig) : Prop where
  parsed : Config.parseClientConfig env.arguments = .ok config
  sodiumInitialises : env.sodiumInitialises = true
  home : env.home.isSome = true
  creates : env.network.createSucceeds = true
  resolves : env.network.resolves config.hostname config.port = true
  connects : env.network.connects config.hostname config.port = true
  flowing : Socket.Flowing env.network.reads
  lossless : Socket.Lossless env.network.writes
  willing : Willing env.console
  fitting : fitting env.display

theorem succeeds_openConnection {env : Environment} {config : ClientConfig}
    (ready : Ready env config)
    {version rest : Bytes} (hversion : version.take 7 = ascii "SSH-2.0")
    (oneLine : carriageReturn ∉ version ∧ lineFeed ∉ version)
    (hstream : Socket.stream env.network.reads = version ++ [carriageReturn, lineFeed] ++ rest) :
    Succeeds (openConnection env) env.start fun connection t =>
      connection = (config, { client := ascii "SSH-2.0-ConorSSH_0.1", server := version }) ∧
      ∃ sock, t = { env.start with
        hosts := Environment.hosts env config
        wire := { env.start.wire with
          sock := sock
          trace := [.identified (ascii "SSH-2.0-ConorSSH_0.1") version] } } ∧
        Socket.stream sock.reads = rest ∧ Socket.Flowing sock.reads ∧
        Socket.Lossless sock.writes := by
  obtain ⟨homeDirectory, hhome⟩ := Option.isSome_iff_exists.mp ready.home
  have hconnected : Socket.connected env.network config.hostname config.port =
      .ok { reads := env.network.reads, writes := env.network.writes } := by
    simp only [Socket.connected, Socket.create, Socket.connect, ready.creates, ready.resolves,
      ready.connects]
    rfl
  have hidentification : config.identification = ascii "SSH-2.0-ConorSSH_0.1" := by
    obtain ⟨_, _, _, _, _, _, -, -, -, rfl⟩ := Config.parseClientConfig_ok.mp ready.parsed
    rfl
  refine Succeeds.bind_lift ready.parsed (Succeeds.bind_failIf ?_ ?_)
  · rw [ready.sodiumInitialises]
    exact Bool.false_ne_true
  rw [hhome]
  refine WP.bind_iff.mpr (WP.modify_iff.mpr (Succeeds.bind_lift hconnected ?_))
  refine WP.bind_iff.mpr (WP.modify_iff.mpr ?_)
  rw [hidentification]
  refine WP.bind_iff.mpr (wp_onWire.mpr (wp_onSocket.mpr ((succeeds_exchangeIdentification
    ready.flowing ready.lossless hversion oneLine hstream _).consequence ?_)))
  rintro _ sock ⟨rfl, hrest, hflowing, hlossless⟩
  refine succeeds_note (WP.pure_iff.mpr ⟨rfl, sock, ?_, hrest, hflowing, hlossless⟩)
  rw [Environment.hosts, hhome]
  rfl

/-! ### The program -/

section Main

variable {crypto : Crypto} {keystream : Fixed 32 → Fixed 16 → Nat → UInt8}
variable {server : Server} {partner : Partner} {env : Environment} {config : ClientConfig}

/-- The destructor has nothing to do when the mode has been left. -/
theorem succeeds_withTerminal {x : Exec World Unit} {w : World} {post : World → Prop}
    (h : Succeeds x { w with console := { w.console with terminal := {} } } fun _ t => post t)
    (inactive : ∀ t, post t → t.console.terminal.rawModeActive = false) :
    Succeeds (withTerminal x) w fun _ t => post t := by
  obtain ⟨_, t, hrun, ht⟩ := h.exists_ok
  have hends : (withTerminal x).run w = (onConsole Terminal.destroy).run t := by
    simp only [withTerminal, EStateM.run] at hrun ⊢
    rw [hrun]
  unfold Succeeds WP
  rw [hends]
  refine wp_onConsole.mpr (WP.bind_iff.mpr (WP.get_iff.mpr (WP.ite_iff.mpr ⟨?_, fun _ => ht⟩)))
  intro hactive
  rw [inactive t ht] at hactive
  exact absurd hactive Bool.false_ne_true

attribute [local irreducible] Client.performKeyExchange

theorem succeeds_session (working : Working crypto keystream) (symmetric : Symmetric crypto)
    (ready : Ready env config) (conforms : server.Conforms crypto)
    (meets : server.Meets crypto partner env.random) {password : Bytes} {later : List LineResult}
    (trusts : Trusts crypto (Environment.hosts env config) (Config.knownHostIdentifier config)
      (ascii "ssh-ed25519") (Kex.ed25519Blob server.hostKey.val) env.console.lines
      (.line password :: later))
    (login : loginFits config.username password)
    (schedule : Schedule (server.script.messages.length + 1) env.polls env.keyboard)
    {last : Line} {bytes rest : Bytes} (sends : server.Sends crypto partner keystream last bytes)
    (hstream : Socket.stream env.network.reads = bytes ++ rest) :
    Succeeds (session crypto env) env.start fun _ t =>
      Served crypto keystream server.script last rest env.start t := by
  obtain ⟨inClear, middle, inSecret, rfl, clear, secret⟩ := sends
  rw [List.append_assoc] at hstream
  rw [session_eq]
  refine Succeeds.bind (succeeds_openConnection ready conforms.version conforms.oneLine hstream) ?_
  rintro _ _ ⟨rfl, sock, rfl, hrest, hflowing, hlossless⟩
  rw [List.append_assoc] at hrest
  have hsupplied : Supplied crypto keystream (server.clear crypto partner) middle (inSecret ++ rest)
      { env.start.wire with
        sock := sock
        trace := [.identified (ascii "SSH-2.0-ConorSSH_0.1") server.version] } :=
    ⟨⟨_, inClear, rfl, clear, hrest⟩, hflowing, hlossless, _, rfl⟩
  refine Succeeds.bind (succeeds_performKeyExchange working symmetric conforms meets rfl rfl trusts
    secret hsupplied) ?_
  rintro _ _ ⟨wire, hosts, rfl, hwire, shows⟩
  refine succeeds_withTerminal ?_ (fun t served => served.inactive)
  refine Succeeds.bind (succeeds_authenticateUser working conforms.methods login ?_ rfl hwire) ?_
  · exact ⟨ready.willing.gets, ready.willing.sets⟩
  rintro _ _ ⟨wire', console, rfl, hwire', shows', hwilling, hsettings, hterminal⟩
  refine (succeeds_runConnectionSession working conforms.script ready.fitting hwilling ?_ schedule
    hwire').consequence ?_
  · rw [hterminal]
  · intro _ t served
    have hidentified : Shows env.start.wire.trace
        [.identified (ascii "SSH-2.0-ConorSSH_0.1") server.version] [] [] := shows_note [] rfl rfl
    have hbefore : Shows env.start.wire.trace wire'.trace [] [] :=
      (hidentified.trans shows).trans shows'
    refine { served with stdout := ?_, stderr := ?_, settings := served.settings.trans hsettings }
    · rw [served.stdout, hbefore.stdout, List.append_nil]
    · rw [served.stderr, hbefore.stderr, List.append_nil]

theorem main_served (working : Working crypto keystream) (symmetric : Symmetric crypto)
    (ready : Ready env config) (conforms : server.Conforms crypto)
    (meets : server.Meets crypto partner env.random) {password : Bytes} {later : List LineResult}
    (trusts : Trusts crypto (Environment.hosts env config) (Config.knownHostIdentifier config)
      (ascii "ssh-ed25519") (Kex.ed25519Blob server.hostKey.val) env.console.lines
      (.line password :: later))
    (login : loginFits config.username password)
    (schedule : Schedule (server.script.messages.length + 1) env.polls env.keyboard)
    {last : Line} {bytes rest : Bytes} (sends : server.Sends crypto partner keystream last bytes)
    (hstream : Socket.stream env.network.reads = bytes ++ rest) :
    ∃ t, main crypto env = .ok 0 t ∧
      Served crypto keystream server.script last rest env.start t := by
  obtain ⟨_, t, hrun, served⟩ := (succeeds_session working symmetric ready conforms meets trusts
    login schedule sends hstream).exists_ok
  refine ⟨t, ?_, served⟩
  unfold main
  rw [hrun]

/-- Against every server that keeps to the protocol, and in whatever pieces and order its bytes
and the input of the keyboard come, the client goes all the way: the key exchange, the
authentication and the session. The output of the remote shell is on the two outputs, whole and
in its order, the exit status is reported, the terminal is as it was, no byte behind the close
of the channel has been read, and the exit code is 0. -/
theorem main_serves (working : Working crypto keystream) (symmetric : Symmetric crypto)
    (ready : Ready env config) (conforms : server.Conforms crypto)
    (meets : server.Meets crypto partner env.random) {password : Bytes} {later : List LineResult}
    (trusts : Trusts crypto (Environment.hosts env config) (Config.knownHostIdentifier config)
      (ascii "ssh-ed25519") (Kex.ed25519Blob server.hostKey.val) env.console.lines
      (.line password :: later))
    (login : loginFits config.username password)
    (schedule : Schedule (server.script.messages.length + 1) env.polls env.keyboard)
    {last : Line} {bytes rest : Bytes} (sends : server.Sends crypto partner keystream last bytes)
    (hstream : Socket.stream env.network.reads = bytes ++ rest) :
    ∃ t, main crypto env = .ok 0 t ∧
      sink .stdout t.wire.trace = outputs .stdout server.script.messages ∧
      sink .stderr t.wire.trace = outputs .stderr server.script.messages ∧
      (∀ status, server.script.final.exited = some status →
        t.wire.trace.getLast? = some (.printed (exitReport status))) ∧
      t.console.settings = env.console.settings ∧
      Socket.stream t.wire.sock.reads = rest := by
  obtain ⟨t, hrun, served⟩ := main_served working symmetric ready conforms meets trusts login
    schedule sends hstream
  exact ⟨t, hrun, served.stdout, served.stderr, served.reported, served.settings,
    served.supplied.spent.2⟩

end Main

/-! One visit, with the values that the libraries give for its inputs: a client that draws
zeros, a server whose private key is made of ones, and a host key whose seed is made of twos. -/

def hexDigit (c : Char) : UInt8 :=
  UInt8.ofNat (if c.isDigit then c.toNat - 48 else c.toNat - 87)

def hexPairs : List Char → Bytes
  | high :: low :: rest => (16 * hexDigit high + hexDigit low) :: hexPairs rest
  | _ => []

def hex (text : String) : Bytes := hexPairs text.toList

def visitServerKey : Fixed 32 := ⟨List.replicate 32 1, rfl⟩

def visitClientPublicKey : Fixed 32 :=
  Fixed.copy 32 (hex "2fe57da347cd62431528daac5fbb290730fff684afc4cfc2ed90995f58cb3b74")

def visitServerPublicKey : Fixed 32 :=
  Fixed.copy 32 (hex "a4e09292b651c278b9772c569f5fa9bb13d906b46ab68c9df9dc2b4409f8a209")

def visitSecret : Fixed 32 :=
  Fixed.copy 32 (hex "adad2af4c1bf1cd5110e6f3e4a7e176ed2e90c2c677044bdf65c533ee0714375")

def visitHostKey : Fixed 32 :=
  Fixed.copy 32 (hex "8139770ea87d175f56a35466c34c7ecccb8d8a91b4ee37a25df60f5b8fc9b394")

def visitExchangeHash : Fixed 32 :=
  Fixed.copy 32 (hex "ce396841a017ca87a9714908cbfb2a47e79bc8907b452ef4cc98c93912cdf9aa")

def visitSignature : Fixed 64 :=
  Fixed.copy 64 (hex "faf936db8e7a20bd330301f423a701cfe26258cd985c2a20068eaba4a093a946" ++
    hex "d0c2248e723f1ef157907210d38644201847412b4796ef90dd99652e7f1aef02")

def visitFingerprint : Fixed 32 :=
  Fixed.copy 32 (hex "e00f63c9904e867299bdc190e934456dfe46ca66f8d407d8bd86959961c3f86e")

/-- The digests for the six letters. -/
def visitKeys : List String :=
  ["785dbaff8f18d93ec4fc13fe7991b13742f71de1409c24d5ea21af7841d04db1",
    "13cfbdc28275cc3355921b1f9302e19b730b617481c5cc340e00612c839feac0",
    "6ff2f82ca8f7df14cc616d0fd9ae84cddbc365ffc94e1a08729f4b89ea58931f",
    "68404afc5f65921cfe3187c841c62fc2978b6e92e648ac57800f25ff0d6846cd",
    "2852b4f0020fc7d744d86e72c901b2a74ecc84436af530c72b34abf196c00724",
    "65a044f0857dab8976ed4bd870ec28204cff4becd7d760f6a0b018983e16203a"]

/-- The tags of the packets of the client and of the server, from the third on. -/
def visitClientTags : List String :=
  ["6f141a16304cd7efa50a87243b6ee7fc4172efc3a5f10cb472bdc16514c8d7c8",
    "a4663f45680d4d52aee442accb910761e0ea062fbd17c9d33489ca3a03aa510d",
    "b3f32a214211df97024d4dd48e08453cc9311751dfe1f1e11d3723eb055d172c",
    "377b74432216cbc029dd0106737bb95dcae7633fdcf79235074940f0ffcfadb2",
    "b241bd9711da7d43db06eb2e95b7bdf7e1abfef2a44acb9be9ca111d7b41aa01",
    "e4f26280a81fa532ffbb33bfcc08c356e23b33c3b58e24093aba73cd85cac128",
    "d48b366adf7c3b00ffbb39dbc0f58b6cad5a8af02acc89560843ee89b16c11a6"]

def visitServerTags : List String :=
  ["0894996824fefd4769686ca335003f01f191e08c13cbad610c58af370d401842",
    "5d7301cd9cd218ae85b285862d6e25f7d0db66eca19c0a26df79718d96951c78",
    "51a231a245e9b950350bee251073df302c02a280da0fda278a5f846acb606788",
    "032d9e29a8f9d95e04046900adbfdb28622557f903d273b89b98c575ad3b28ef",
    "9180495479a9d7ef2da183e041328ee3e2850fbf520904d21a7bbba0ee689f3e",
    "571c4560ffee916f524e1a7d9e02ba0a1af1f88e8ff67fd0dfa5343666ee1e3c",
    "c4ee5b67bf81e6b085fbc83d1815d55f6c0efe9b3578d78408aad1973a022c50",
    "b1f8de4b025f4129b10c643e738da6462bceaab1bf8c03e3134fdf383ee825e6",
    "939fcef47016bf1347a7be98da8f628ef4901522db091ef6c91190f9a32cbc54"]

def visitClientStream : Bytes :=
  hex "901fffedad5cc37aab6649f8c60d8897e33f9b607975d2f4774418558f7e72d2e22e408c52154263" ++
  hex "d5eef8e42c8eef4a865f7785cebfe4432291d581f57b3fab303efbea9c2f46c6f4d658db4b77c0e0" ++
  hex "756cb06d08dc387b2290a969825dc0983d1cd51aa6b435336dcaea0216c0e1bc2aef07695c007b98" ++
  hex "61c28219f9b6b3c494fd6d6a0cea10993259917e31722c6b786ccd78e904facdef370d6e9488df2b" ++
  hex "337906b0b3424dc3156d6f318f36e3992f93d48bed16195608f1bd5e203e090973ec03bf5712bef1" ++
  hex "59e781271a957666a2996767fa1bb58bf75ee125b6b5d99652ba67c6cfd269a2dacde2572340fe2b" ++
  hex "54593a5e053036118c193280990cd47cf0511575a6e97e63b2fa79b8cd77873be227cd2ecc8101f2" ++
  hex "ec900a6541632c7556d99d925fe4f1290f9ecacfaaefa54a5f5aaf9d1720ccf9baacd5eb0a5bccda"

def visitServerStream : Bytes :=
  hex "01519bbd23a1d2213a75a6f51fdc29a6bfe12167d1513bdf9f368a13ce7e0412c9f4609a5efebb17" ++
  hex "70f0895d594b2d665801fed59fbbc7ccd4a51ca536962914aa59e0881f9ad6371143b548eb66bc2d" ++
  hex "82a25749b1b10f418025fa3b05b7904e0273405e8732e86659ab044cc8fde0e6a41d167591a97968" ++
  hex "44a567ed5d57a7d499d22191b9c4d7baedeb14057be4b5a96061d26ef45ea0283114bfe28e92b11e" ++
  hex "ffe5a461814d0d5ea02997329377827bbc37e620ffb7a0cc689f11e4fca3123e3f9b59aadb3bc56e" ++
  hex "d91c92229f7093f7b512ec26ad07119309580397f10f9a476ed3820701e86786be30528a5838c5ee"

def visitKeystream (key : Fixed 32) (_ : Fixed 16) (i : Nat) : UInt8 :=
  (if key.val = hex (visitKeys.getD 3 "") then visitServerStream else visitClientStream).getD i 0

def visitCrypto : Crypto where
  hashSha256 bytes :=
    if bytes.length = 497 then visitExchangeHash
    else if bytes.length = 51 then visitFingerprint
    else Fixed.copy 32 (hex (visitKeys.getD ((bytes.getD (bytes.length - 33) 0).toNat - 65) ""))
  authHmacsha256 bytes key :=
    let tags := if key.val = hex (visitKeys.getD 5 "") then visitServerTags else visitClientTags
    some (Fixed.copy 32 (hex (tags.getD ((bytes.getD 3 0).toNat - 3) "")))
  scalarmultCurve25519Base key :=
    if key = Fixed.zero 32 then some visitClientPublicKey
    else if key = visitServerKey then some visitServerPublicKey
    else none
  scalarmultCurve25519 key point :=
    if key = Fixed.zero 32 ∧ point = visitServerPublicKey ∨
      key = visitServerKey ∧ point = visitClientPublicKey then some visitSecret
    else none
  signVerifyDetached signature message key :=
    signature == visitSignature && message == visitExchangeHash.val && key == visitHostKey
  bin2base64 key := some (Text.Base64.encode key)
  bin2base64NoPadding := Text.Base64.encodeNoPadding
  contextNew _ := true
  cipherInit _ _ _ := true
  encryptUpdate context bytes :=
    some (xorStream (visitKeystream context.key context.iv) context.position bytes)
  decryptUpdate context bytes :=
    some (xorStream (visitKeystream context.key context.iv) context.position bytes)

theorem working_visitCrypto : Working visitCrypto visitKeystream where
  encrypt _ _ := rfl
  decrypt _ _ := rfl
  hmac _ _ := ⟨_, rfl⟩
  contextNew _ := rfl
  cipherInit _ _ _ := rfl

theorem scalarmultBase_visitCrypto {key point : Fixed 32}
    (h : visitCrypto.scalarmultCurve25519Base key = some point) :
    key = Fixed.zero 32 ∧ point = visitClientPublicKey ∨
      key = visitServerKey ∧ point = visitServerPublicKey := by
  simp only [visitCrypto] at h
  split at h
  · exact .inl ⟨‹_›, (Option.some.inj h).symm⟩
  · split at h
    · exact .inr ⟨‹_›, (Option.some.inj h).symm⟩
    · cases h

theorem symmetric_visitCrypto : Symmetric visitCrypto := by
  intro a b a' b' ha hb
  rcases scalarmultBase_visitCrypto ha with ⟨rfl, rfl⟩ | ⟨rfl, rfl⟩ <;>
    rcases scalarmultBase_visitCrypto hb with ⟨rfl, rfl⟩ | ⟨rfl, rfl⟩ <;> decide +kernel

/-- The packets of a sender that pads with zeros, and the line behind them. -/
def packets (crypto : Crypto) (keystream : Fixed 32 → Fixed 16 → Nat → UInt8) (line : Line) :
    List Bytes → Bytes × Line
  | [] => ([], line)
  | payload :: later =>
      let packet := sampleFrame line.block payload
      let behind := packets crypto keystream (line.next packet.length) later
      (image crypto keystream line packet ++ behind.1, behind.2)

theorem frame_sampleFrame (line : Line) {payload : Bytes} (fits : sendable payload) :
    ∃ f : Frame line.block, f.payload = payload ∧ f.bytes = sampleFrame line.block payload := by
  let transport : Transport := { outgoingEncryptionActive := line.keys.isSome }
  have hfits : Fits line.block payload := by
    refine (fits_iff line.keys.isSome payload).mpr ⟨fits.1, ?_⟩
    have hlength := fits.2
    unfold maxPayloadSize
    split <;> omega
  have hsizes : checkSizes transport payload =
      .ok (calculatePaddingLength transport payload.length) :=
    checkSizes_eq_ok_iff.mpr ⟨hfits, rfl⟩
  obtain ⟨f, hpayload, hbytes, -⟩ := frame_of_checkSizes hsizes _ List.length_replicate
  have hpadding : calculatePaddingLength transport payload.length =
      minPaddingLength + (line.block - (payload.length + 9) % line.block) % line.block := by
    have htotal : minPaddingLength + (payload.length + packetLengthBytes + paddingLengthBytes) =
        payload.length + 9 := by
      simp only [minPaddingLength, packetLengthBytes, paddingLengthBytes]
      omega
    rw [calculatePaddingLength, htotal]
    rfl
  refine ⟨f, hpayload, hbytes.symm.trans ?_⟩
  rw [encodePacketLength_eq, hpadding]
  rfl

theorem carries_packets (crypto : Crypto) (keystream : Fixed 32 → Fixed 16 → Nat → UInt8)
    (line : Line) {payloads : List Bytes} (fits : ∀ payload ∈ payloads, sendable payload) :
    Carries crypto keystream line payloads (packets crypto keystream line payloads).1
      (packets crypto keystream line payloads).2 := by
  induction payloads generalizing line with
  | nil => exact .nil
  | cons payload later ih =>
      obtain ⟨f, rfl, hbytes⟩ := frame_sampleFrame line (fits payload List.mem_cons_self)
      rw [packets, ← hbytes]
      exact .cons f (ih _ fun other hother => fits other (List.mem_cons_of_mem _ hother))

def visitServer : Server where
  version := ascii "SSH-2.0-x"
  kexinit := clientKexinit fun _ => 0
  privateKey := visitServerKey
  publicKey := visitServerPublicKey
  hostKey := visitHostKey
  sign _ := visitSignature
  methods := ascii "password"
  partialSuccess := 0
  script := {
    beforeOpen := []
    sender := 7
    window := 1024
    maxPacket := 32768
    beforePty := []
    beforeShell := []
    messages := [.data (ascii "hi\r\n"), .exitStatus 0 3] }

def visitPartner : Partner where
  version := ascii "SSH-2.0-ConorSSH_0.1"
  kexinit := (clientKexinit fun _ => 0).rawPayload
  publicKey := visitClientPublicKey
  secret := visitSecret

def visitClear : Bytes × Line :=
  packets visitCrypto visitKeystream ⟨0, none⟩ (visitServer.clear visitCrypto visitPartner)

def visitSealed : Bytes × Line :=
  packets visitCrypto visitKeystream
    ⟨visitClear.2.sequence, some
      ({ key := (visitServer.keys visitCrypto visitPartner).encryptionKeySc
         iv := (visitServer.keys visitCrypto visitPartner).ivSc },
        (visitServer.keys visitCrypto visitPartner).macKeySc)⟩ visitServer.secret

/-- The bytes come in two pieces, and something is left behind them. -/
def visit : Environment where
  arguments := [ascii "ssh", ascii "user@host"]
  home := some (ascii "/home/user")
  network := { reads :=
    [.returned (visitServer.version ++ [carriageReturn, lineFeed] ++ visitClear.1), .interrupted,
      .returned (visitSealed.1 ++ ascii "rest")] }
  console := { lines := [.line (ascii "yes"), .line (ascii "secret")] }
  polls := [.ready false true false, .interrupted, .ready false true false,
    .ready false true false]

theorem ready_visit : Ready visit { username := ascii "user", hostname := ascii "host" } where
  parsed := by decide +kernel
  sodiumInitialises := rfl
  home := rfl
  creates := rfl
  resolves := rfl
  connects := rfl
  flowing := by
    intro result hresult
    simp only [visit, List.mem_cons, List.not_mem_nil, or_false] at hresult
    rcases hresult with rfl | rfl | rfl
    · exact .inr ⟨_, rfl, List.append_ne_nil_of_left_ne_nil (by decide) _⟩
    · exact .inl rfl
    · exact .inr ⟨_, rfl, List.append_ne_nil_of_right_ne_nil _ (by decide)⟩
  lossless := by simp [Socket.Lossless, visit]
  willing := by constructor <;> simp [visit]
  fitting := by
    unfold fitting
    decide

theorem conforms_visitServer : visitServer.Conforms visitCrypto where
  version := by decide
  oneLine := by decide
  versionSize := by decide
  kexinit := by
    refine ⟨rfl, ?_, 0, rfl, rfl⟩
    decide +kernel
  kexinitSize := by decide +kernel
  offers := by
    simp only [Kex.categories, List.forall_mem_cons]
    decide +kernel
  ephemeral := by decide +kernel
  methods := by decide
  script := {
    beforeOpen := fun _ hnone => absurd hnone List.not_mem_nil
    beforePty := fun _ hnone => absurd hnone List.not_mem_nil
    beforeShell := fun _ hnone => absurd hnone List.not_mem_nil
    maxPacket := by decide
    permitted := ⟨⟨by decide, by decide⟩, rfl, trivial⟩ }

theorem meets_visitPartner : visitServer.Meets visitCrypto visitPartner fun _ => 0 where
  version := rfl
  kexinit := rfl
  ephemeral := by decide +kernel
  agreed := by decide +kernel
  signed := by decide +kernel

theorem sends_visitServer : visitServer.Sends visitCrypto visitPartner visitKeystream visitSealed.2
    (visitServer.version ++ [carriageReturn, lineFeed] ++ (visitClear.1 ++ visitSealed.1)) := by
  refine ⟨visitClear.1, visitClear.2, visitSealed.1, rfl, ?_, ?_⟩
  · refine carries_packets _ _ _ ?_
    decide +kernel
  · refine carries_packets _ _ _ ?_
    decide +kernel

theorem trusts_visit :
    Trusts visitCrypto
      (Environment.hosts visit { username := ascii "user", hostname := ascii "host" })
      (Config.knownHostIdentifier { username := ascii "user", hostname := ascii "host" })
      (ascii "ssh-ed25519") (Kex.ed25519Blob visitHostKey.val) visit.console.lines
      [.line (ascii "secret")] := by
  have hcheck : KnownHosts.check visitCrypto
      (Environment.hosts visit { username := ascii "user", hostname := ascii "host" })
      (ascii "host") (ascii "ssh-ed25519") (Kex.ed25519Blob visitHostKey.val) = .ok .unknown := by
    decide +kernel
  exact .confirmed hcheck rfl

theorem schedule_visit : Schedule 3 visit.polls visit.keyboard :=
  ⟨by decide, by decide, by decide, by decide⟩

theorem stream_visit : Socket.stream visit.network.reads =
    visitServer.version ++ [carriageReturn, lineFeed] ++ (visitClear.1 ++ visitSealed.1) ++
      ascii "rest" := by
  simp only [visit, Socket.stream, List.append_assoc, List.append_nil]

theorem main_visit : ∃ t, main visitCrypto visit = .ok 0 t := by
  obtain ⟨t, hrun, -⟩ := main_served working_visitCrypto symmetric_visitCrypto ready_visit
    conforms_visitServer meets_visitPartner trusts_visit (by unfold loginFits; decide)
    schedule_visit sends_visitServer stream_visit
  exact ⟨t, hrun⟩

theorem main_serves_visit :
    ∃ t, main visitCrypto visit = .ok 0 t ∧
      sink .stdout t.wire.trace = ascii "hi\r\n" ∧ sink .stderr t.wire.trace = [] ∧
      t.wire.trace.getLast? = some (.printed (exitReport 3)) ∧
      Socket.stream t.wire.sock.reads = ascii "rest" := by
  obtain ⟨t, hrun, hout, herr, hreported, -, hrest⟩ := main_serves working_visitCrypto
    symmetric_visitCrypto ready_visit conforms_visitServer meets_visitPartner trusts_visit
    (by unfold loginFits; decide) schedule_visit sends_visitServer stream_visit
  exact ⟨t, hrun, hout, herr, hreported 3 rfl, hrest⟩

end SshClient.Program

import SshClient.Client.Main
import SshClient.Protocol.Handshake

/-!
# The program follows the machine

`main` is cut in front of the key exchange. From there on the handshake and the session
say what a run of the machine has passed, and the terminal around them leaves the wire
alone.

The first result about the whole program is the one that an impostor in the place of the
server has to get past: no authentication request is passed to the transport before the
server has proved itself and its host key has been accepted.
-/

namespace SshClient.Protocol

open Control Client Transport

variable {guard : List Event → Transport → Bytes → Prop} (crypto : Crypto)

/-- The known-hosts file of a run. -/
def Environment.hosts (env : Environment) (config : ClientConfig) : KnownHosts where
  filePath := env.home.getD [] ++ config.knownHostsRelativePath
  content := env.knownHosts
  system := env.fileSystem

/-- The block under `try` up to the key exchange. -/
def openConnection (env : Environment) : Exec World (ClientConfig × IdentificationExchange) := do
  let config ← lift (Config.parseClientConfig env.arguments)
  failIf (!env.sodiumInitialises) (error "Sodium could not be initialised")
  match env.home with
  | none => throw (error "HOME environment variable could not be accessed")
  | some homeDirectory =>
      modify fun w => { w with hosts := {
        filePath := homeDirectory ++ config.knownHostsRelativePath
        content := env.knownHosts
        system := env.fileSystem } }
      let sock ← lift (Socket.connected env.network config.hostname config.port)
      modify fun w => { w with wire := { w.wire with sock := sock } }
      let id ← onWire (onSocket (exchangeIdentification config.identification))
      onWire (record (.identified id.client id.server))
      return (config, id)

theorem session_eq (env : Environment) :
    session crypto env = (do
      let connection ← openConnection env
      performKeyExchange crypto connection.2 (Config.knownHostIdentifier connection.1)
      withTerminal do
        authenticateUser crypto connection.1.username
        runConnectionSession crypto env.display) := by
  unfold session openConnection
  cases env.home with
  | none =>
      simp only [bind_assoc]
      rfl
  | some homeDirectory => simp only [bind_assoc, pure_bind]

theorem wp_openConnection {env : Environment}
    {post : ClientConfig × IdentificationExchange → World → Prop} {fail : Stop → World → Prop}
    (ok : ∀ config id t, Config.parseClientConfig env.arguments = .ok config →
      t.hosts = Environment.hosts env config →
      Along guard script .idle [.identified id.client id.server] unkeyed t.wire →
      post (config, id) t)
    (stop : ∀ e t, Halted guard t.wire → fail e t) :
    WP (openConnection env) env.start post fail := by
  have hstart : Along guard script .idle [] unkeyed env.start.wire :=
    ⟨⟨State.initial, ⟨⟨[], rfl, .nil⟩, ⟨rfl, rfl, rfl, rfl⟩, sound_initial⟩, rfl, rfl⟩,
      rfl, rfl, each_nil⟩
  simp only [openConnection, WP.bind_iff, WP.lift_iff, WP.failIf_iff]
  refine ⟨fun config hconfig => ⟨fun _ => stop _ _ hstart.halted, fun _ => ?_⟩,
    fun e _ => stop e _ hstart.halted⟩
  cases hhome : env.home with
  | none => exact stop _ _ hstart.halted
  | some homeDirectory =>
      simp only [WP.bind_iff, WP.lift_iff, WP.modify_iff, wp_onWire, wp_onSocket, wp_record,
        WP.pure_iff]
      refine ⟨fun sock _ => ?_, fun e _ => stop e _ hstart.halted⟩
      have hquiet : ∀ sock', Along guard script .idle [] unkeyed
          { env.start.wire with sock := sock' } := fun sock' => hstart.unseen rfl rfl
      refine WP.intro (fun id sock' _ => ?_) (fun e sock' _ => stop e _ (hquiet sock').halted)
      refine ok config id _ hconfig ?_ ((hquiet sock').settle rfl rfl)
      simp [Environment.hosts, hhome]

/-- The destructor of the terminal has nothing to do with the wire. -/
theorem wp_destroy {w : World} {post : Unit → World → Prop} {fail : Stop → World → Prop}
    (ok : ∀ t, t.wire = w.wire → post () t) (stop : ∀ e t, t.wire = w.wire → fail e t) :
    WP (onConsole Terminal.destroy) w post fail := by
  rw [wp_onConsole]
  exact WP.intro (fun _ _ _ => ok _ rfl) (fun e _ _ => stop e _ rfl)

theorem wp_withTerminal {x : Exec World Unit} {w : World} {P Q : Wire → Prop}
    {post : Unit → World → Prop} {fail : Stop → World → Prop}
    (h : ∀ console, WP x { w with console := console } (fun _ t => P t.wire) (fun _ t => Q t.wire))
    (weaken : ∀ wire, P wire → Q wire)
    (ok : ∀ t, P t.wire → post () t) (stop : ∀ e t, Q t.wire → fail e t) :
    WP (withTerminal x) w post fail := by
  have hx := h { w.console with terminal := {} }
  cases hrun : x.run { w with console := { w.console with terminal := {} } } with
  | ok a t =>
      have ht : P t.wire := hx.of_ok hrun
      have hends : (withTerminal x).run w = (onConsole Terminal.destroy).run t := by
        simp only [withTerminal, EStateM.run] at hrun ⊢
        rw [hrun]
      unfold WP
      rw [hends]
      refine wp_destroy (fun u hu => ok u ?_) (fun e u hu => stop e u ?_)
      · rw [hu]
        exact ht
      · rw [hu]
        exact weaken _ ht
  | error e t =>
      have ht : Q t.wire := hx.of_error hrun
      cases e with
      | thrown what =>
          have hends : (withTerminal x).run w =
              (do onConsole Terminal.destroy; throw (.thrown what) : Exec World Unit).run t := by
            simp only [withTerminal, EStateM.run] at hrun ⊢
            rw [hrun]
          unfold WP
          rw [hends]
          refine WP.bind_iff.mpr (wp_destroy (fun u hu => stop _ u ?_) (fun e u hu => stop e u ?_))
          · rw [hu]
            exact ht
          · rw [hu]
            exact ht
      | _ =>
          unfold WP
          simp only [withTerminal, EStateM.run] at hrun ⊢
          rw [hrun]
          exact stop _ t ht

-- The proposal of the client is a closed term, and the unifier would evaluate it.
attribute [local irreducible] Client.performKeyExchange

/-- What has happened when the key exchange of the program returns. -/
theorem exchanged_of_performKeyExchange {env : Environment} {config : ClientConfig}
    {id : IdentificationExchange} {w t : World}
    (connected : (openConnection env).run env.start = .ok (config, id) w)
    (exchanged : (performKeyExchange crypto id (Config.knownHostIdentifier config)).run w =
      .ok () t) :
    ∃ x : KeyExchange crypto w.hosts (Config.knownHostIdentifier config) id,
      Along (fun _ _ _ => True) authenticationScript .idle
        ([.identified id.client id.server] ++ x.milestones) x.keying t.wire ∧
      TookExchange x w.wire t.wire := by
  have hconnected : WP (openConnection env) env.start (fun connection u =>
      Along (fun _ _ _ => True) script .idle
        [.identified connection.2.client connection.2.server] unkeyed u.wire)
      (fun _ _ => True) :=
    wp_openConnection (fun _ _ _ _ _ h => h) (fun _ _ _ => trivial)
  have hexchanged : WP (performKeyExchange crypto id (Config.knownHostIdentifier config)) w
      (fun _ u => ∃ x : KeyExchange crypto w.hosts (Config.knownHostIdentifier config) id,
        Along (fun _ _ _ => True) authenticationScript .idle
          ([.identified id.client id.server] ++ x.milestones) x.keying u.wire ∧
        TookExchange x w.wire u.wire)
      (fun _ _ => True) :=
    wp_performKeyExchange crypto (hconnected.of_ok connected) (fun x _ hu took => ⟨x, hu, took⟩)
      (fun _ _ _ => trivial)
  exact hexchanged.of_ok exchanged

/-- What has happened when the block under `try` ends: a run of the machine, which has gone
all the way when the block returns. -/
theorem wp_session {env : Environment} {post : Unit → World → Prop} {fail : Stop → World → Prop}
    (allows : ∀ config id (x : KeyExchange crypto (Environment.hosts env config)
        (Config.knownHostIdentifier config) id) before t payload,
      Config.parseClientConfig env.arguments = .ok config →
      NoneProbe config.username (.identified id.client id.server :: x.milestones) x.keying before t
          payload ∨
        PasswordRequest config.username (.identified id.client id.server :: x.milestones) x.keying
          before t payload → guard before t payload)
    (ok : ∀ t, Ended guard (fun stage => stage = .closed ∨ stage = .reported) t.wire → post () t)
    (stop : ∀ e t, Halted guard t.wire → fail e t) :
    WP (session crypto env) env.start post fail := by
  rw [session_eq]
  simp only [WP.bind_iff]
  refine wp_openConnection (fun config id w hconfig hhosts h => ?_) stop
  refine wp_performKeyExchange crypto h ?_ stop
  rw [hhosts]
  intro x t ht _
  rw [List.singleton_append] at ht
  refine wp_withTerminal (P := Ended guard (fun stage => stage = .closed ∨ stage = .reported))
    (Q := Halted guard) (fun console => ?_) (fun wire => Ended.halted) ok stop
  rw [WP.bind_iff]
  refine wp_authenticateUser crypto ht
    (fun before transport payload => allows config id x before transport payload hconfig)
    (fun passed' u hu => ?_) (fun _ _ hu => hu)
  exact hu.wp_runConnectionSession crypto (fun _ hv => hv) (fun _ _ hv => hv)

/-- The trace that the program leaves is a run of the machine, perhaps with the text of an
exception behind it. An exit code of 0 means that the machine has closed the channel. -/
theorem main_follows {env : Environment}
    (allows : ∀ config id (x : KeyExchange crypto (Environment.hosts env config)
        (Config.knownHostIdentifier config) id) before t payload,
      Config.parseClientConfig env.arguments = .ok config →
      NoneProbe config.username (.identified id.client id.server :: x.milestones) x.keying before t
          payload ∨
        PasswordRequest config.username (.identified id.client id.server :: x.milestones) x.keying
          before t payload → guard before t payload) :
    Guarded guard (outcome (main crypto env)).wire.trace ∧
      ∃ run s tail, (outcome (main crypto env)).wire.trace = run ++ tail ∧
        (tail = [] ∨ ∃ text, tail = [.printedError text]) ∧ Run Step State.initial run s ∧
        ∀ t, main crypto env = .ok 0 t → tail = [] ∧ (s.stage = .closed ∨ s.stage = .reported) := by
  have hsession : WP (session crypto env) env.start
      (fun _ t => Ended guard (fun stage => stage = .closed ∨ stage = .reported) t.wire)
      (fun _ t => Halted guard t.wire) :=
    wp_session crypto allows (fun _ ht => ht) (fun _ _ ht => ht)
  unfold main
  cases hrun : (session crypto env).run env.start with
  | ok _ t =>
      have ht := hsession.of_ok hrun
      obtain ⟨s, ⟨run, htrace, hfollowed⟩, hstage⟩ := ht.follows
      exact ⟨ht.guarded, run, s, [], by rw [List.append_nil]; exact htrace, .inl rfl, hfollowed,
        fun _ _ => ⟨rfl, hstage⟩⟩
  | error e t =>
      have ht := hsession.of_error hrun
      obtain ⟨s, run, htrace, hfollowed⟩ := ht.follows
      rw [List.nil_append] at htrace
      cases e with
      | thrown what =>
          refine ⟨ht.guarded.snoc_other (by simp), run, s,
            [.printedError (ascii "Error: " ++ what ++ ascii "\n")], ?_, .inr ⟨_, rfl⟩,
            hfollowed, ?_⟩
          · rw [← htrace]
            rfl
          · intro u hu
            cases hu
      | blocked | fault =>
          refine ⟨ht.guarded, run, s, [], ?_, .inl rfl, hfollowed, ?_⟩
          · rw [List.append_nil]
            exact htrace
          · intro u hu
            cases hu

/-! ### Nothing is told to a server that has not been trusted -/

/-- What has to have happened before an authentication request: a key exchange with the
server that was asked for, and nothing else but the messages that lead up to the request. -/
def Justified (env : Environment) (before : List Event) (t : Transport) (payload : Bytes) : Prop :=
  ∃ config id, Config.parseClientConfig env.arguments = .ok config ∧
    ∃ x : KeyExchange crypto (Environment.hosts env config) (Config.knownHostIdentifier config) id,
      x.ecdhReply.serverHostKey = Kex.ed25519Blob x.verificationData.publicKey.val ∧
      (NoneProbe config.username (.identified id.client id.server :: x.milestones) x.keying before t
          payload ∨
        PasswordRequest config.username (.identified id.client id.server :: x.milestones) x.keying
          before t payload)

/-- The signature over the exchange hash of this run has been verified under the key in the
host-key blob, the blob has been found among the known hosts or confirmed and added, and
both directions use the derived keys, whenever an authentication request is passed to the
transport. A password follows the refusal of the probe. -/
theorem userauth_request_trusted (env : Environment) {before after : List Event} {t : Transport}
    {payload : Bytes}
    (run : (outcome (main crypto env)).wire.trace = before ++ .sending t payload :: after)
    (request : payload.head? = some Message.userauthRequest) :
    Justified crypto env before t payload := by
  have hguarded : Guarded (Justified crypto env) (outcome (main crypto env)).wire.trace := by
    refine (main_follows crypto ?_).1
    intro config id x before t payload hconfig hrequest
    have hblob := (Kex.parseEd25519VerificationData_ok.mp x.extracted).2.1
    exact ⟨config, id, hconfig, x, hblob, hrequest⟩
  exact hguarded before _ after run t payload rfl request

/-! A session that goes all the way, with libraries that accept everything and hide
nothing, and a server that sends the least it can. -/

def sampleCrypto : Crypto where
  hashSha256 _ := Fixed.zero 32
  authHmacsha256 _ _ := some (Fixed.zero 32)
  scalarmultCurve25519Base := some
  scalarmultCurve25519 _ := some
  signVerifyDetached _ _ _ := true
  bin2base64 bytes := some (bytes.map fun byte => byte % 64 + 64)
  bin2base64NoPadding bytes := bytes.map fun byte => byte % 64 + 64
  contextNew _ := true
  cipherInit _ _ _ := true
  encryptUpdate _ bytes := some bytes
  decryptUpdate _ bytes := some bytes

def sampleFrame (size : Nat) (payload : Bytes) : Bytes :=
  let padding := minPaddingLength + (size - (payload.length + 9) % size) % size
  encodeUint32 (UInt32.ofNat (1 + payload.length + padding)) ++
    (UInt8.ofNat padding :: (payload ++ List.replicate padding 0))

/-- A packet under the keys of `sampleCrypto`. -/
def sampleSealed (payload : Bytes) : ReadResult :=
  .returned (sampleFrame aesBlockSize payload ++ List.replicate macBytes 0)

def sampleKexinit : Bytes :=
  match Kex.kexinitPayload (Kex.clientOffer (Fixed.zero 16)) with
  | .ok payload => payload
  | .error _ => []

def sampleReply : Bytes :=
  Kex.ecdhReplyBytes (Kex.ed25519Blob (List.replicate 32 1)) (List.replicate 32 2)
    (Kex.ed25519Blob (List.replicate 64 3))

def sampleReads : List ReadResult :=
  [.returned (ascii "SSH-2.0-sample\r\n"), .returned (sampleFrame blockSize sampleKexinit),
    .returned (sampleFrame blockSize sampleReply),
    .returned (sampleFrame blockSize [Message.newkeys]),
    sampleSealed (Message.serviceAccept :: encodeString (ascii "ssh-userauth")),
    sampleSealed (Message.userauthFailure :: (encodeString (ascii "password") ++ [0])),
    sampleSealed [Message.userauthSuccess],
    sampleSealed (Connection.openConfirmation 0 7 1024 32768),
    sampleSealed (Connection.recipientOnly Message.channelSuccess 0),
    sampleSealed (Connection.recipientOnly Message.channelSuccess 0),
    sampleSealed (Connection.recipientOnly Message.channelClose 0)]

def sampleEnvironment : Environment where
  arguments := [ascii "ssh", ascii "user@host"]
  home := some (ascii "/home/user")
  network := { reads := sampleReads }
  console := { lines := [.line (ascii "yes"), .line (ascii "secret")] }
  polls := [.ready false true false]

/-- The payload is passed to the transport. -/
def Event.passes (payload : Bytes) : Event → Bool
  | .sending _ payload' => payload' == payload
  | _ => false

theorem exists_sending_of_any {payload : Bytes} {l : List Event}
    (h : l.any (Event.passes payload) = true) :
    ∃ before t after, l = before ++ .sending t payload :: after := by
  obtain ⟨e, hmem, he⟩ := List.any_eq_true.mp h
  obtain ⟨before, after, rfl⟩ := List.append_of_mem hmem
  cases e with
  | sending t payload' =>
      obtain rfl : payload' = payload := beq_iff_eq.mp he
      exact ⟨before, t, after, rfl⟩
  | _ => cases he

theorem userauth_request_trusted_sample :
    ∃ before t payload after,
      Auth.createPasswordAuthRequest (ascii "user") (ascii "secret") = .ok payload ∧
      (outcome (main sampleCrypto sampleEnvironment)).wire.trace =
        before ++ .sending t payload :: after ∧
      Justified sampleCrypto sampleEnvironment before t payload := by
  let payload := (Message.userauthRequest :: (encodeString (ascii "user") ++
    encodeString (ascii "ssh-connection") ++ encodeString (ascii "password") ++
    0 :: encodeString (ascii "secret")))
  have hsent : (outcome (main sampleCrypto sampleEnvironment)).wire.trace.any
      (Event.passes payload) = true := by
    decide +kernel
  obtain ⟨before, t, after, hrun⟩ := exists_sending_of_any hsent
  exact ⟨before, t, payload, after, rfl, hrun,
    userauth_request_trusted sampleCrypto sampleEnvironment hrun rfl⟩

end SshClient.Protocol

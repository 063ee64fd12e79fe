import SshClient.Client.Composition
import SshClient.Client.Target
import SshClient.KnownHosts.Store
import SshClient.Protocol.Program

/-!
# Trust across runs

Runs of the program follow each other on one known-hosts file. Each of them accepts at most
one host key, which the file holds for its endpoint afterwards. Behind all the runs there is
then one assignment of keys to endpoints with which each of them agrees: whoever receives an
authentication request at an endpoint has the key of the first one who was trusted there.
-/

namespace SshClient.Program

open Control Client Transport Protocol

variable {crypto : Crypto} {α : Type}

/-- A host key that a run accepts for a name. -/
def Event.trusts : Event → Option (Bytes × Bytes × Bytes)
  | .hostChecked hostname algorithm hostKey .matched => some (hostname, algorithm, hostKey)
  | .hostAdded hostname algorithm hostKey => some (hostname, algorithm, hostKey)
  | _ => none

def trusted (l : List Event) : List (Bytes × Bytes × Bytes) := l.filterMap Event.trusts

theorem trusted_append (l m : List Event) : trusted (l ++ m) = trusted l ++ trusted m :=
  List.filterMap_append

theorem trusted_snoc {l : List Event} {event : Event} (h : Event.trusts event = none) :
    trusted (l ++ [event]) = trusted l := by
  rw [trusted_append, trusted, trusted, List.filterMap_cons_none h]
  exact List.append_nil _

/-! ### What leaves the hosts alone -/

section Untouched

variable {rights : Rights} {accepted : List (Bytes × Bytes × Bytes)}

theorem upholds_trusted (hosts : rights.hosts = false) {x : Exec Wire α}
    (h : WireCall crypto rights α x) :
    Upholds (fun w : Wire => trusted w.trace = accepted)
      (fun _ w => trusted w.trace = accepted) x := by
  intro w hw
  cases h with
  | send payload =>
      refine wp_sendPacket ?_ ?_
      · intro t sending
        dsimp only
        rw [sending.trace, trusted_append, hw]
        exact List.append_nil _
      · intro what t sending
        rw [sending.trace, trusted_append, hw]
        exact List.append_nil _
  | receive =>
      refine wp_receivePacket ?_ ?_
      · intro payload t received
        dsimp only
        rw [received.trace, trusted_snoc rfl]
        exact hw
      · intro e t _ missed
        rw [missed.trace]
        exact hw
  | draw count => exact hw
  | note permitted =>
      have hnothing : Event.trusts ‹Event› = none := by
        cases ‹Event› with
        | hostChecked | hostAdded =>
            rw [Rights.notes, hosts] at permitted
            cases permitted
        | _ => rfl
      exact (trusted_snoc hnothing).trans hw
  | enableOutgoing | enableIncoming =>
      refine WP.bind_iff.mpr (WP.failIf_iff.mpr ⟨fun _ => hw, fun _ => ?_⟩)
      exact WP.bind_iff.mpr (WP.failIf_iff.mpr ⟨fun _ => hw, fun _ => hw⟩)

theorem beside_hosts (hosts : rights.hosts = false) (file : KnownHosts) :
    Beside rights fun w => w.hosts = file where
  wire _ _ h := h
  channel _ _ h := h
  console _ _ h := h
  polls _ _ h := h
  hosts allowed := absurd allowed (by simp [hosts])
  keyboard _ _ _ h := h

end Untouched

/-! ### One run -/

/-- Every binding of the one map is a binding of the other. -/
def Extends (m m' : Bytes → Option (Bytes × Bytes)) : Prop :=
  ∀ hostname v, m hostname = some v → m' hostname = some v

theorem extends_bind {m : Bytes → Option (Bytes × Bytes)} {hostname : Bytes} {v : Bytes × Bytes}
    (unbound : m hostname = none) : Extends m (WriteOnce.bind m hostname v) := by
  intro other u hu
  have hother : other ≠ hostname := by
    rintro rfl
    rw [unbound] at hu
    cases hu
  rw [WriteOnce.bind, Function.update_of_ne hother]
  exact hu

theorem bind_self {m : Bytes → Option (Bytes × Bytes)} {hostname : Bytes} {v : Bytes × Bytes}
    (unbound : m hostname = none) : WriteOnce.bind m hostname v hostname = some v := by
  rw [WriteOnce.bind, Function.update_self, unbound]
  rfl

/-- The file has been opened. It holds at least the bindings of `m`, and all that has been
accepted. -/
structure Consulted (crypto : Crypto) (m : Bytes → Option (Bytes × Bytes)) (w : World) : Prop where
  opened : w.hosts.filePath ≠ []
  held : ∃ m', KnownHosts.Represents crypto w.hosts m' ∧ Extends m m' ∧
    ∀ p ∈ trusted w.wire.trace, m' p.1 = some p.2

section Run

variable {m : Bytes → Option (Bytes × Bytes)} {w : World}

theorem Consulted.of_same {t : World} (h : Consulted crypto m w) (hosts : t.hosts = w.hosts)
    (accepted : trusted t.wire.trace = trusted w.wire.trace) : Consulted crypto m t := by
  constructor
  · rw [hosts]
    exact h.opened
  · rw [hosts, accepted]
    exact h.held

theorem upholds_consulted (rights : Rights) (hosts : rights.hosts = false) {allowed : Stop → Prop}
    {x : Exec World α} (h : OnWorld crypto allowed rights x) :
    Upholds (Consulted crypto m) (fun _ => Consulted crypto m) x := by
  intro w hw
  have hwire := upholds_onWorld crypto (fun _ _ => upholds_trusted hosts) (fun _ ht => ht) h w rfl
  have hfile := (beside_hosts hosts w.hosts).upholds crypto h w rfl
  exact (hwire.and hfile).mono (fun _ _ ht => hw.of_same ht.2 ht.1)
    (fun _ _ ht => hw.of_same ht.2 ht.1)

theorem upholds_consulted_onWire (rights : Rights) (hosts : rights.hosts = false) {x : Exec Wire α}
    (h : OnWire crypto rights x) :
    Upholds (Consulted crypto m) (fun _ => Consulted crypto m) (onWire x) := by
  have honWorld : OnWorld crypto Stop.Thrown rights (onWire x) := .op (.wire h)
  exact upholds_consulted rights hosts honWorld

/-- A note that accepts no key. -/
theorem Consulted.note (h : Consulted crypto m w) (event : Event)
    (other : Event.trusts event = none) :
    Consulted crypto m { w with wire := { w.wire with trace := w.wire.trace ++ [event] } } :=
  h.of_same rfl (trusted_snoc other)

/-- A note that accepts the key to which its name is bound. -/
theorem consulted_snoc {m' : Bytes → Option (Bytes × Bytes)} (event : Event)
    {p : Bytes × Bytes × Bytes} {wire : Wire} (opened : w.hosts.filePath ≠ [])
    (represents : KnownHosts.Represents crypto w.hosts m')
    (extend : Extends m m') (before : ∀ p ∈ trusted wire.trace, m' p.1 = some p.2)
    (accepts : Event.trusts event = some p) (bound : m' p.1 = some p.2) :
    Consulted crypto m { w with wire := { wire with trace := wire.trace ++ [event] } } := by
  refine ⟨opened, m', represents, extend, ?_⟩
  intro q hq
  have htrusted : trusted (wire.trace ++ [event]) = trusted wire.trace ++ [p] := by
    rw [trusted_append, trusted, trusted, List.filterMap_cons_some accepts]
    rfl
  rw [htrusted] at hq
  rcases List.mem_append.mp hq with hq | hq
  · exact before q hq
  · rw [List.mem_singleton.mp hq]
    exact bound

theorem bound_of_matched {bound : Option (Bytes × Bytes)} {algorithm key : Bytes}
    (h : KnownHosts.answer bound algorithm key = .matched) : bound = some (algorithm, key) := by
  unfold KnownHosts.answer at h
  split at h
  · cases h
  · split at h
    · next hsame => rw [hsame]
    · cases h

theorem unbound_of_unknown {bound : Option (Bytes × Bytes)} {algorithm key : Bytes}
    (h : KnownHosts.answer bound algorithm key = .unknown) : bound = none := by
  unfold KnownHosts.answer at h
  split at h
  · rfl
  · split at h <;> cases h

theorem wp_confirmHost_consulted (base64 : KnownHosts.Base64 crypto) (h : Consulted crypto m w)
    (q : KnownHosts.Query) :
    WP (confirmHost crypto q.hostname q.algorithm q.key) w (fun _ t => Consulted crypto m t)
      (fun _ t => Consulted crypto m t) := by
  obtain ⟨m', represents, extend, accepted⟩ := h.held
  have hcheck := represents.answers q.hostname q.algorithm q.key q.isKey
  simp only [confirmHost, print, printError, WP.bind_iff, WP.get_iff, hcheck, WP.lift_iff,
    wp_onWire, wp_record]
  refine ⟨?_, fun _ he => by cases he⟩
  intro status hstatus
  obtain rfl : KnownHosts.answer (m' q.hostname) q.algorithm q.key = status :=
    Except.ok.inj hstatus
  cases hanswer : KnownHosts.answer (m' q.hostname) q.algorithm q.key with
  | matched =>
      have hmatched := consulted_snoc (.hostChecked q.hostname q.algorithm q.key .matched)
        h.opened represents extend accepted rfl (bound_of_matched hanswer)
      exact hmatched.note (.printed (ascii "Server host key matches known host\n")) rfl
  | changed =>
      simp only [WP.bind_iff, wp_onWire, wp_record, WP.throw_iff]
      exact ((h.note _ rfl).note _ rfl).note _ rfl
  | unknown =>
      have hunbound := unbound_of_unknown hanswer
      obtain ⟨text, hencode, -, htext⟩ := base64.encode q.isKey
      rw [hanswer] at hcheck
      have hadd := KnownHosts.add_unknown represents.reliable hencode hcheck
      simp only [WP.bind_iff, wp_onWire, wp_record, wp_onConsole, wp_onHosts, WP.failIf_iff,
        WP.ok_iff hadd]
      refine WP.intro ?_ ?_
      · intro answer console _
        refine ⟨?_, ?_⟩
        · intro _
          exact h.of_same rfl (by simp [trusted, Event.trusts])
        · intro _
          -- The name is bound now, and nothing that was bound before is lost.
          have hadded := consulted_snoc
            (w := { w with
              hosts := w.hosts.appended (KnownHosts.entry q.hostname q.algorithm text) })
            (.hostAdded q.hostname q.algorithm q.key) h.opened
            (represents.add base64 q hunbound htext)
            (fun name v hv => extends_bind hunbound name v (extend name v hv))
            (fun p hp => extends_bind hunbound _ _ (accepted p hp)) rfl (bind_self hunbound)
          refine (hadded.note (.printed (ascii "Host key saved\n")) rfl).of_same rfl ?_
          simp [trusted, List.filterMap_cons, Event.trusts]
      · intro _ console _
        exact h.of_same rfl (by simp [trusted, Event.trusts])

/-- What is read from a reply can be stored. -/
def queryOf {hostname negotiated : Bytes} {reply : EcdhReply} {data : Ed25519VerificationData}
    (name : KnownHosts.IsName hostname)
    (extracted : Kex.parseEd25519VerificationData reply negotiated = .ok data) :
    KnownHosts.Query where
  hostname := hostname
  algorithm := negotiated
  key := reply.serverHostKey
  isHostname := name
  isAlgorithm := by
    rw [(Kex.parseEd25519VerificationData_ok.mp extracted).1]
    exact KnownHosts.isName_of_forall (by decide) (by decide)
  isKey := by
    rw [(Kex.parseEd25519VerificationData_ok.mp extracted).2.1]
    exact List.append_ne_nil_of_left_ne_nil (by decide) _

-- The proposal of the client is a closed term, and the unifier would evaluate it.
attribute [local irreducible] Client.sendKexinit

theorem wp_agreeKeys_consulted (base64 : KnownHosts.Base64 crypto) (h : Consulted crypto m w)
    {hostname : Bytes} (name : KnownHosts.IsName hostname) (id : IdentificationExchange) :
    WP (agreeKeys crypto id hostname) w (fun _ t => Consulted crypto m t)
      (fun _ t => Consulted crypto m t) := by
  have honWire : ∀ {β : Type} {x : Exec Wire β}, OnWire crypto {} x →
      Upholds (Consulted crypto m) (fun _ => Consulted crypto m) (onWire x) :=
    fun hx => upholds_consulted_onWire {} rfl hx
  simp only [agreeKeys, WP.bind_iff, WP.lift_iff, WP.failIf_iff]
  refine (honWire (composed_sendKexinit crypto {}) w h).mono (fun clientKexinit w1 h1 => ?_)
    (fun _ _ ht => ht)
  refine (honWire (composed_receiveKexinit crypto {}) w1 h1).mono (fun serverKexinit w2 h2 => ?_)
    (fun _ _ ht => ht)
  refine ⟨fun algorithms _ => ⟨fun _ => h2, fun _ => ?_⟩, fun _ _ => h2⟩
  refine (honWire (composed_createCurve25519Keypair crypto {}) w2 h2).mono (fun keypair w3 h3 => ?_)
    (fun _ _ ht => ht)
  refine (honWire (.op (.send _ (sends_of_head Message.kexEcdhInit rfl (by decide)))) w3 h3).mono
    (fun _ w4 h4 => ?_) (fun _ _ ht => ht)
  refine (honWire (composed_receiveEcdhReply crypto {}) w4 h4).mono (fun reply w5 h5 => ?_)
    (fun _ _ ht => ht)
  refine ⟨fun agreed _ => ⟨fun exchangeHash _ => ⟨fun data extracted => ?_, fun _ _ => h5⟩,
    fun _ _ => h5⟩, fun _ _ => h5⟩
  refine (honWire (composed_verifyServer crypto {} data exchangeHash) w5 h5).mono
    (fun _ w6 h6 => ?_)
    (fun _ _ ht => ht)
  refine (wp_confirmHost_consulted base64 h6 (queryOf name extracted)).mono (fun _ w7 h7 => ?_)
    (fun _ _ ht => ht)
  exact ⟨fun _ _ => h7, fun _ _ => h7⟩

theorem resolves_of_connected {network : Network} {host : Bytes} {port : UInt16} {sock : Socket}
    (h : Socket.connected network host port = .ok sock) : network.resolves host port = true := by
  simp only [Socket.connected, bind_eq_ok, failIf_eq_ok] at h
  obtain ⟨-, -, -, hconnect, -⟩ := h
  cases hresolves : network.resolves host port with
  | true => rfl
  | false => simp [Socket.connect, hresolves] at hconnect

theorem knownHostsRelativePath_ne_nil {arguments : List Bytes} {config : ClientConfig}
    (h : Config.parseClientConfig arguments = .ok config) : config.knownHostsRelativePath ≠ [] := by
  obtain ⟨_, _, _, _, _, _, -, -, -, rfl⟩ := Config.parseClientConfig_ok.mp h
  exact (by decide : ascii "/.conorssh/known_hosts" ≠ [])

/-- A run that has not come to its file has accepted nothing. -/
def Consults (crypto : Crypto) (m : Bytes → Option (Bytes × Bytes)) (w : World) : Prop :=
  w.hosts.filePath = [] ∧ trusted w.wire.trace = [] ∨ Consulted crypto m w

variable {env : Environment}

theorem wp_openConnection_consulted
    (represents : ∀ config, KnownHosts.Represents crypto (Environment.hosts env config) m) :
    WP (openConnection env) env.start
      (fun connection t => Config.parseClientConfig env.arguments = .ok connection.1 ∧
        env.network.resolves connection.1.hostname connection.1.port = true ∧ Consulted crypto m t)
      (fun _ t => Consults crypto m t) := by
  simp only [openConnection, WP.bind_iff, WP.lift_iff, WP.failIf_iff]
  refine ⟨fun config hconfig => ⟨fun _ => .inl ⟨rfl, rfl⟩, fun _ => ?_⟩, fun _ _ => .inl ⟨rfl, rfl⟩⟩
  cases hhome : env.home with
  | none => exact .inl ⟨rfl, rfl⟩
  | some homeDirectory =>
      have hopened : ∀ w : World, w.hosts = Environment.hosts env config →
          trusted w.wire.trace = [] → Consulted crypto m w := by
        intro w hhosts hnothing
        constructor
        · rw [hhosts]
          exact List.append_ne_nil_of_right_ne_nil _ (knownHostsRelativePath_ne_nil hconfig)
        · refine ⟨m, ?_, fun _ _ hv => hv, ?_⟩
          · rw [hhosts]
            exact represents config
          · simp [hnothing]
      have hhosts : ({
          filePath := homeDirectory ++ config.knownHostsRelativePath
          content := env.knownHosts
          system := env.fileSystem } : KnownHosts) = Environment.hosts env config := by
        simp [Environment.hosts, hhome]
      simp only [WP.bind_iff, WP.lift_iff, WP.modify_iff, wp_onWire, wp_onSocket, wp_record,
        WP.pure_iff, hhosts]
      refine ⟨fun sock connected => ?_, fun _ _ => .inr (hopened _ rfl rfl)⟩
      refine WP.intro (fun id _ _ => ⟨hconfig, resolves_of_connected connected, ?_⟩)
        (fun _ _ _ => .inr (hopened _ rfl rfl))
      exact hopened _ rfl rfl

-- The same for the key exchange as a whole.
attribute [local irreducible] Client.agreeKeys Client.performKeyExchange

theorem wp_session_consults (base64 : KnownHosts.Base64 crypto)
    (plain : ∀ port, Config.PlainNames fun name => env.network.resolves name port)
    (represents : ∀ config, KnownHosts.Represents crypto (Environment.hosts env config) m) :
    WP (session crypto env) env.start (fun _ t => Consults crypto m t)
      (fun _ t => Consults crypto m t) := by
  rw [session_eq]
  simp only [WP.bind_iff]
  refine (wp_openConnection_consulted represents).mono (fun connection w opened => ?_)
    (fun _ _ ht => ht)
  obtain ⟨hconfig, hresolves, hw⟩ := opened
  have hname : KnownHosts.IsName (Config.knownHostIdentifier connection.1) :=
    Config.isName_knownHostIdentifier (Config.hostname_ne_nil hconfig)
      fun c hc => (plain _ _ hresolves c hc).2
  rw [performKeyExchange_eq, WP.bind_iff]
  refine (wp_agreeKeys_consulted base64 hw hname connection.2).mono (fun keys w1 h1 => ?_)
    (fun _ _ ht => .inr ht)
  have hnewkeys := upholds_consulted_onWire (m := m) { keys := true } rfl
    (composed_exchangeNewkeys crypto rfl keys) w1 h1
  refine hnewkeys.mono (fun _ w2 h2 => ?_) (fun _ _ ht => .inr ht)
  refine (wp_withTerminal_beside (P := Consulted crypto m) ?_ fun t _ ht => ht.of_same rfl rfl).mono
    (fun _ _ ht => .inr ht) (fun _ _ ht => .inr ht)
  rw [WP.bind_iff]
  have huser := upholds_consulted (m := m) Rights.session rfl
    (composed_authenticateUser crypto Rights.session connection.1.username) _
    (h2.of_same (t := { w2 with console := { w2.console with terminal := {} } }) rfl rfl)
  refine huser.mono (fun _ w3 h3 => ?_) (fun _ _ ht => ht)
  exact upholds_consulted Rights.session rfl
    (composed_runConnectionSession crypto rfl rfl env.display) w3 h3

theorem main_consults (base64 : KnownHosts.Base64 crypto)
    (plain : ∀ port, Config.PlainNames fun name => env.network.resolves name port)
    (represents : ∀ config, KnownHosts.Represents crypto (Environment.hosts env config) m) :
    Consults crypto m (outcome (main crypto env)) := by
  refine outcome_main crypto (wp_session_consults base64 plain represents) ?_
  intro w text hw
  rcases hw with ⟨hpath, hnothing⟩ | hw
  · exact .inl ⟨hpath, (trusted_snoc rfl).trans hnothing⟩
  · exact .inr (hw.note _ rfl)

end Run

/-! ### One run after the other -/

/-- The known-hosts file after a run. A run that has not come to its file leaves it alone. -/
def fileAfter (crypto : Crypto) (env : Environment) : Option Bytes :=
  if (outcome (main crypto env)).hosts.filePath = [] then env.knownHosts
  else (outcome (main crypto env)).hosts.content

/-- A run in a home directory, with the known-hosts file that is there. -/
def atHome (home : Bytes) (file : Option Bytes) (env : Environment) : Environment :=
  { env with
    home := some home
    knownHosts := file
    fileSystem := {} }

/-- Runs that follow each other in one home directory. -/
def inSequence (crypto : Crypto) (home : Bytes) : Option Bytes → List Environment → List Environment
  | _, [] => []
  | file, env :: envs =>
      let env := atHome home file env
      env :: inSequence crypto home (fileAfter crypto env) envs

/-- What a file holds does not depend on where it is. -/
def Holds (crypto : Crypto) (file : Option Bytes) (m : Bytes → Option (Bytes × Bytes)) : Prop :=
  ∀ filePath, KnownHosts.Represents crypto { filePath := filePath, content := file } m

theorem holds_of_represents (base64 : KnownHosts.Base64 crypto) {hosts : KnownHosts}
    {m : Bytes → Option (Bytes × Bytes)} (h : KnownHosts.Represents crypto hosts m) :
    Holds crypto hosts.content m := by
  intro filePath
  refine ⟨rfl, h.terminated, ?_⟩
  intro hostname algorithm key hk
  obtain ⟨text, hencode, -⟩ := base64.encode hk
  rw [KnownHosts.check_eq rfl hencode, ← KnownHosts.check_eq h.reliable hencode]
  exact h.answers hostname algorithm key hk

/-- A run keeps what the file holds, and the file agrees with it afterwards. -/
theorem holds_fileAfter (base64 : KnownHosts.Base64 crypto) (home : Bytes) {file : Option Bytes}
    {env : Environment} {m : Bytes → Option (Bytes × Bytes)}
    (plain : ∀ port, Config.PlainNames fun name => env.network.resolves name port)
    (holds : Holds crypto file m) :
    ∃ m', Holds crypto (fileAfter crypto (atHome home file env)) m' ∧ Extends m m' ∧
      ∀ p ∈ trusted (outcome (main crypto (atHome home file env))).wire.trace,
        m' p.1 = some p.2 := by
  have hrun : Consults crypto m (outcome (main crypto (atHome home file env))) :=
    main_consults base64 plain fun config => holds _
  rcases hrun with ⟨hpath, hnothing⟩ | hrun
  · refine ⟨m, ?_, fun _ _ hv => hv, by simp [hnothing]⟩
    rw [fileAfter, if_pos hpath]
    exact holds
  · obtain ⟨m', represents, extend, accepted⟩ := hrun.held
    refine ⟨m', ?_, extend, accepted⟩
    rw [fileAfter, if_neg hrun.opened]
    exact holds_of_represents base64 represents

/-- Behind all the runs there is one assignment of keys with which each of them agrees. -/
theorem inSequence_agree (base64 : KnownHosts.Base64 crypto) (home : Bytes)
    {envs : List Environment}
    (plain : ∀ env ∈ envs, ∀ port, Config.PlainNames fun name => env.network.resolves name port)
    {file : Option Bytes} {m : Bytes → Option (Bytes × Bytes)} (holds : Holds crypto file m) :
    ∃ M, Extends m M ∧ ∀ env ∈ inSequence crypto home file envs,
      ∀ p ∈ trusted (outcome (main crypto env)).wire.trace, M p.1 = some p.2 := by
  induction envs generalizing file m with
  | nil => exact ⟨m, fun _ _ hv => hv, by simp [inSequence]⟩
  | cons env envs ih =>
      obtain ⟨m', hafter, extend, accepted⟩ :=
        holds_fileAfter base64 home (plain env List.mem_cons_self) holds
      obtain ⟨M, extend', later⟩ := ih (fun e he => plain e (List.mem_cons_of_mem _ he)) hafter
      refine ⟨M, fun name v hv => extend' name v (extend name v hv), ?_⟩
      intro e he p hp
      rcases List.mem_cons.mp he with rfl | he
      · exact extend' _ _ (accepted p hp)
      · exact later e he p hp

/-! ### One key for each endpoint -/

/-- A run that sends an authentication request to an endpoint, after these events. -/
def Requests (crypto : Crypto) (env : Environment) (hostname : Bytes) (port : UInt16)
    (before : List Event) : Prop :=
  ∃ config t payload after, Config.parseClientConfig env.arguments = .ok config ∧
    config.hostname = hostname ∧ config.port = port ∧
    (outcome (main crypto env)).wire.trace = before ++ .sending t payload :: after ∧
    payload.head? = some Message.userauthRequest

/-- A signature has been verified under the key, and none under another one. -/
structure Proved (crypto : Crypto) (key : Fixed 32) (before : List Event) : Prop where
  verified : ∃ signature exchangeHash, .signatureVerified signature exchangeHash key ∈ before ∧
    crypto.signVerifyDetached signature exchangeHash.val key = true
  only : ∀ signature exchangeHash key', .signatureVerified signature exchangeHash key' ∈ before →
    key' = key

/-- An accepted key is a milestone. -/
theorem mem_trusted {l : List Event} {event : Event} {p : Bytes × Bytes × Bytes}
    (h : event ∈ milestones l) (accepts : Event.trusts event = some p) : p ∈ trusted l :=
  List.mem_filterMap.mpr ⟨event, List.mem_of_mem_filter h, accepts⟩

/-- The key that is accepted for the name of the endpoint is the one that was verified. -/
theorem accepted_of_exchange {hosts : KnownHosts} {hostname : Bytes} {id : IdentificationExchange}
    (x : KeyExchange crypto hosts hostname id) :
    ∃ event ∈ x.milestones, Event.trusts event = some
      (hostname, ascii "ssh-ed25519", Kex.ed25519Blob x.verificationData.publicKey.val) := by
  obtain ⟨halgorithm, hblob, -⟩ := Kex.parseEd25519VerificationData_ok.mp x.extracted
  rw [← halgorithm, ← hblob]
  by_cases hmatched : x.hostStatus = .matched
  · refine ⟨.hostChecked hostname x.algorithms.hostKeyAlgorithm x.ecdhReply.serverHostKey .matched,
      ?_, rfl⟩
    simp [KeyExchange.milestones, hmatched]
  · refine ⟨.hostAdded hostname x.algorithms.hostKeyAlgorithm x.ecdhReply.serverHostKey, ?_, rfl⟩
    simp [KeyExchange.milestones, KeyExchange.decision, hmatched]

/-- The key of the key exchange, and no other key, has been verified before a request. -/
theorem proved_of_justified {env : Environment} {before : List Event} {t : Transport}
    {payload : Bytes} (h : Justified crypto env before t payload) :
    ∃ config key, Config.parseClientConfig env.arguments = .ok config ∧
      Proved crypto key before ∧
      (Config.knownHostIdentifier config, ascii "ssh-ed25519", Kex.ed25519Blob key.val) ∈
        trusted before := by
  obtain ⟨config, id, hconfig, x, -, hrequest⟩ := h
  obtain ⟨more, hmore, hmilestones⟩ : ∃ more,
      (∀ signature exchangeHash key, .signatureVerified signature exchangeHash key ∉ more) ∧
      milestones before = .identified id.client id.server :: x.milestones ++ more := by
    rcases hrequest with ⟨_, _, -, -, hpassed, -⟩ | ⟨_, _, _, _, _, _, -, -, -, -, hpassed, -⟩
    · exact ⟨_, by simp, hpassed⟩
    · exact ⟨_, by simp, hpassed⟩
  refine ⟨config, x.verificationData.publicKey, hconfig, ⟨?_, ?_⟩, ?_⟩
  · refine ⟨x.verificationData.signature, x.exchangeHash, ?_, x.verified⟩
    refine List.mem_of_mem_filter (p := Event.milestone) ?_
    change _ ∈ milestones before
    rw [hmilestones]
    simp [KeyExchange.milestones]
  · intro signature exchangeHash key hmem
    have hmem' : .signatureVerified signature exchangeHash key ∈ milestones before :=
      List.mem_filter.mpr ⟨hmem, rfl⟩
    rw [hmilestones] at hmem'
    simp only [KeyExchange.milestones, KeyExchange.decision] at hmem'
    split at hmem' <;> simp_all
  · obtain ⟨event, hmem, accepts⟩ := accepted_of_exchange x
    refine mem_trusted ?_ accepts
    rw [hmilestones]
    simp [hmem]

/-- What has been proved to a run that authenticates, and what it has accepted. -/
theorem Requests.proved {env : Environment} {hostname : Bytes} {port : UInt16}
    {before : List Event} (h : Requests crypto env hostname port before) :
    ∃ (config : ClientConfig) (key : Fixed 32), config.hostname = hostname ∧ config.port = port ∧
      Proved crypto key before ∧
      (Config.knownHostIdentifier config, ascii "ssh-ed25519", Kex.ed25519Blob key.val) ∈
        trusted (outcome (main crypto env)).wire.trace := by
  obtain ⟨config, t, payload, after, hconfig, hhostname, hport, hrun, request⟩ := h
  have hguarded : Guarded (Justified crypto env) (outcome (main crypto env)).wire.trace := by
    refine (main_follows crypto ?_).1
    intro config id x before t payload hconfig hrequest
    exact ⟨config, id, hconfig, x, (Kex.parseEd25519VerificationData_ok.mp x.extracted).2.1,
      hrequest⟩
  obtain ⟨config', key, hconfig', proved, accepted⟩ :=
    proved_of_justified (hguarded before _ after hrun t payload rfl request)
  obtain rfl : config = config' := Except.ok.inj (hconfig.symm.trans hconfig')
  refine ⟨config, key, hhostname, hport, proved, ?_⟩
  rw [hrun, trusted_append]
  exact List.mem_append_left _ accepted

theorem knownHostIdentifier_congr {config config' : ClientConfig}
    (hostname : config.hostname = config'.hostname) (port : config.port = config'.port) :
    Config.knownHostIdentifier config = Config.knownHostIdentifier config' := by
  rw [Config.knownHostIdentifier_eq, Config.knownHostIdentifier_eq, hostname, port]

theorem ed25519Blob_injective {key key' : Fixed 32}
    (h : Kex.ed25519Blob key.val = Kex.ed25519Blob key'.val) : key = key' := by
  have hcounted := List.append_cancel_left h
  have hlength : key.val.length = key'.val.length := key.property.trans key'.property.symm
  refine Subtype.ext ?_
  simp only [encodeString, hlength] at hcounted
  exact List.append_cancel_left hcounted

/-- Runs follow each other in a home directory in which there was no known-hosts file at
first, and in which files can be read and written. Whatever the servers, the users and the
networks of these runs do: there is one key for an endpoint of which every server has proved
that it has it, and has proved this of no other key, before an authentication request for that
endpoint is sent to it. -/
theorem one_key_for_each_endpoint (base64 : KnownHosts.Base64 crypto) (home : Bytes)
    (envs : List Environment)
    (plain : ∀ env ∈ envs, ∀ port, Config.PlainNames fun name => env.network.resolves name port)
    (hostname : Bytes) (port : UInt16) :
    ∃ key, ∀ env ∈ inSequence crypto home none envs, ∀ before,
      Requests crypto env hostname port before → Proved crypto key before := by
  obtain ⟨M, -, agree⟩ := inSequence_agree base64 home plain
    (KnownHosts.represents_missing base64)
  by_cases hrequests : ∃ env ∈ inSequence crypto home none envs, ∃ before,
      Requests crypto env hostname port before
  · obtain ⟨env, hrun, before, h⟩ := hrequests
    obtain ⟨config, key, hhostname, hport, -, accepted⟩ := h.proved
    refine ⟨key, ?_⟩
    intro env' hrun' before' h'
    obtain ⟨config', key', hhostname', hport', proved', accepted'⟩ := h'.proved
    have hname : Config.knownHostIdentifier config = Config.knownHostIdentifier config' :=
      knownHostIdentifier_congr (hhostname.trans hhostname'.symm) (hport.trans hport'.symm)
    have hbound := agree env hrun _ accepted
    have hbound' := agree env' hrun' _ accepted'
    simp only [hname, hbound', Option.some.injEq, Prod.mk.injEq, true_and] at hbound
    rw [← ed25519Blob_injective hbound]
    exact proved'
  · refine ⟨Fixed.zero 32, ?_⟩
    intro env hrun before h
    exact absurd ⟨env, hrun, before, h⟩ hrequests

/-! Two runs to one host, of which the second finds the key that the first has stored. -/

def storingCrypto : Crypto :=
  { sampleCrypto with bin2base64 := KnownHosts.textOnly.bin2base64 }

theorem base64_storingCrypto : KnownHosts.Base64 storingCrypto :=
  ⟨KnownHosts.base64_textOnly.total, KnownHosts.base64_textOnly.injective,
    KnownHosts.base64_textOnly.isName⟩

def firstVisit : Environment :=
  { sampleEnvironment with
    network := { reads := sampleReads, resolves := fun name _ => Config.resolvesPlain name } }

/-- The user is not asked again. -/
def secondVisit : Environment :=
  { firstVisit with console := { lines := [.line (ascii "secret")] } }

theorem requests_of_any {env : Environment} {config : ClientConfig} (payload : Bytes)
    (parsed : Config.parseClientConfig env.arguments = .ok config)
    (head : payload.head? = some Message.userauthRequest)
    (passes : (outcome (main crypto env)).wire.trace.any (Event.passes payload) = true) :
    ∃ before, Requests crypto env config.hostname config.port before := by
  obtain ⟨before, t, after, htrace⟩ := exists_sending_of_any passes
  exact ⟨before, config, t, payload, after, parsed, rfl, rfl, htrace, head⟩

theorem one_key_for_each_endpoint_visits :
    ∃ first second,
      inSequence storingCrypto (ascii "/home/user") none [firstVisit, secondVisit] =
        [first, second] ∧
      first.knownHosts = none ∧ second.knownHosts.isSome = true ∧
      ∃ before before' key, Requests storingCrypto first (ascii "host") 22 before ∧
        Requests storingCrypto second (ascii "host") 22 before' ∧
        Proved storingCrypto key before ∧ Proved storingCrypto key before' := by
  let home := ascii "/home/user"
  let first := atHome home none firstVisit
  let second := atHome home (fileAfter storingCrypto first) secondVisit
  let payload := Message.userauthRequest :: (encodeString (ascii "user") ++
    encodeString (ascii "ssh-connection") ++ encodeString (ascii "password") ++
    0 :: encodeString (ascii "secret"))
  have hparsed : Config.parseClientConfig firstVisit.arguments =
      .ok { username := ascii "user", hostname := ascii "host" } := by
    decide +kernel
  have hvisit : ∀ env : Environment, env.arguments = firstVisit.arguments →
      (outcome (main storingCrypto env)).wire.trace.any (Event.passes payload) = true →
      ∃ before, Requests storingCrypto env (ascii "host") 22 before := by
    intro env harguments passes
    rw [← harguments] at hparsed
    exact requests_of_any payload hparsed rfl passes
  obtain ⟨before, hfirst⟩ := hvisit first rfl (by decide +kernel)
  obtain ⟨before', hsecond⟩ := hvisit second rfl (by decide +kernel)
  have hruns : inSequence storingCrypto home none [firstVisit, secondVisit] = [first, second] := rfl
  have hplain : ∀ env ∈ [firstVisit, secondVisit], ∀ port,
      Config.PlainNames fun name => env.network.resolves name port := by
    intro env henv port
    rcases List.mem_cons.mp henv with rfl | henv
    · exact Config.plainNames_resolvesPlain
    · obtain rfl := List.mem_singleton.mp henv
      exact Config.plainNames_resolvesPlain
  obtain ⟨key, hkey⟩ := one_key_for_each_endpoint base64_storingCrypto home
    [firstVisit, secondVisit] hplain (ascii "host") 22
  rw [hruns] at hkey
  exact ⟨first, second, hruns, rfl, by decide +kernel, before, before', key, hfirst, hsecond,
    hkey first List.mem_cons_self before hfirst,
    hkey second (List.mem_cons_of_mem _ List.mem_cons_self) before' hsecond⟩

end SshClient.Program

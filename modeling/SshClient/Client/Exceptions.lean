import SshClient.Client.Handshake
import SshClient.Client.Config
import SshClient.Control.Composed
import SshClient.Kex.Formats
import SshClient.Kex.Negotiation
import SshClient.Kex.HostKey
import SshClient.KnownHosts.Basic
import SshClient.Connection.Exact

/-!
# What can be thrown

The pure parts of the client and the programs on the channel, the known-hosts file and the
console fail with exceptions of the client. Sizes that have been checked do not wrap, and
no byte outside of a payload is looked at.
-/

namespace SshClient

open Control

section Rules

variable {σ α β : Type} {starved starved' : σ → Prop}

/-- A parser with a cursor of its own. -/
theorem throwsOnly_evalOn {x : Exec σ α} {s : σ}
    (h : WP x s (fun _ _ => True) (fun e _ => ∃ what, e = .thrown what)) :
    ThrowsOnly (evalOn x s) := by
  intro e he
  unfold evalOn at he
  cases hrun : x.run s with
  | ok a t =>
      rw [hrun] at he
      cases he
  | error e' t =>
      rw [hrun] at he
      cases he
      exact h.of_error hrun

/-- A program composed of programs that wait for the same thing. -/
theorem Waits.of_composed {x : Exec σ α}
    (h : Composed id Stop.Thrown (fun _ y => Waits starved y) x) : Waits starved x := by
  have hupholds : Upholds (fun _ => True) (Halting starved) x := by
    refine h.upholds ?_ ?_
    · intro _ y hy s _
      exact hy s
    · intro e s he _
      exact .inl he
  intro s
  exact hupholds s trivial

/-- An assignment does not stop. -/
theorem waits_set (s : σ) : Waits starved (set s : Exec σ PUnit) := by
  intro _
  trivial

theorem waits_modify (f : σ → σ) : Waits starved (modify f : Exec σ PUnit) := by
  intro _
  trivial

/-- An `std::runtime_error` is an exception, whatever its text. -/
theorem error_thrown {text : String} : (error text).Thrown := Stop.thrown_thrown

/-- Only a value of 2^32 bytes or more is refused. -/
theorem throwsOnly_appendString {destination value : Bytes} :
    ThrowsOnly (appendString destination value) := by
  unfold appendString
  split
  · exact throwsOnly_error
  · exact throwsOnly_ok

/-- A name and a value that fill a blob, with a check behind each of them. -/
theorem throwsOnly_readPair {bytes : Bytes} {wrong : Bytes → Prop} [DecidablePred wrong]
    {size : Nat}
    {wrongName wrongSize wrongEnd : String} {result : Bytes → Bytes → α} :
    ThrowsOnly (evalOn (Kex.readPair bytes wrong size (error wrongName) (error wrongSize)
      (error wrongEnd) result) 0) := by
  refine throwsOnly_evalOn ?_
  simp only [Kex.readPair, WP.bind_iff, WP.failIf_iff, WP.get_iff, WP.pure_iff]
  refine wp_readString (fun name _ _ _ => ⟨fun _ => ⟨_, rfl⟩, fun _ => ?_⟩)
    (fun what _ _ _ => ⟨what, rfl⟩)
  exact wp_readString (fun value _ _ _ => ⟨fun _ => ⟨_, rfl⟩, fun _ => ⟨fun _ => ⟨_, rfl⟩,
    fun _ => trivial⟩⟩) (fun what _ _ _ => ⟨what, rfl⟩)

end Rules

/-! ### Key exchange -/

namespace Kex

variable (crypto : Crypto) {payload destination : Bytes}

theorem throwsOnly_appendNameList {names : Bytes} :
    ThrowsOnly (appendNameList destination names) := by
  unfold appendNameList
  split
  · exact throwsOnly_error
  · exact throwsOnly_ok

/-- Ten name lists, each of which may be too long. -/
theorem throwsOnly_kexinitPayload {k : KexInit} : ThrowsOnly (kexinitPayload k) := by
  unfold kexinitPayload
  refine .bind throwsOnly_appendNameList fun _ => .bind throwsOnly_appendNameList fun _ => ?_
  refine .bind throwsOnly_appendNameList fun _ => .bind throwsOnly_appendNameList fun _ => ?_
  refine .bind throwsOnly_appendNameList fun _ => .bind throwsOnly_appendNameList fun _ => ?_
  refine .bind throwsOnly_appendNameList fun _ => .bind throwsOnly_appendNameList fun _ => ?_
  exact .bind throwsOnly_appendNameList fun _ => .bind throwsOnly_appendNameList fun _ =>
    throwsOnly_pure

/-- The place that a reader leaves is all that the next one needs. -/
theorem wp_readNameList_any {p : Nat} {post : Bytes → Nat → Prop}
    (ok : ∀ value q, post value q) :
    WP (readNameList payload) p post (fun e _ => ∃ what, e = .thrown what) :=
  wp_readNameList (fun value _ _ _ => ok value _) (fun what _ _ _ => ⟨what, rfl⟩)

/-- The cookie and the reserved bytes are there when they are copied. -/
theorem throwsOnly_parseKexinit : ThrowsOnly (parseKexinit payload) := by
  refine throwsOnly_evalOn ?_
  simp only [WP.bind_iff, WP.get_iff, WP.failIf_iff, WP.set_iff, WP.pure_iff, wp_sizeSub,
    wp_copyRange]
  refine ⟨fun _ => ⟨_, rfl⟩, fun hlength => ⟨fun _ => ⟨_, rfl⟩, fun _ => ⟨fun _ => ⟨fun _ =>
    ⟨_, rfl⟩, fun hcookie => ⟨fun _ => ?_, fun hfit => absurd ?_ hfit⟩⟩,
    fun hsub => absurd ?_ hsub⟩⟩⟩
  · refine wp_readNameList_any fun _ p1 => wp_readNameList_any fun _ p2 => ?_
    refine wp_readNameList_any fun _ p3 => wp_readNameList_any fun _ p4 => ?_
    refine wp_readNameList_any fun _ p5 => wp_readNameList_any fun _ p6 => ?_
    refine wp_readNameList_any fun _ p7 => wp_readNameList_any fun _ p8 => ?_
    refine wp_readNameList_any fun _ p9 => wp_readNameList_any fun _ p10 => ?_
    refine wp_parseBoolean (fun _ hflag _ => ?_) (fun what _ => ⟨what, rfl⟩)
    refine ⟨fun _ => ⟨fun _ => ⟨_, rfl⟩, fun hreserved => ⟨fun _ => ⟨fun _ => ⟨_, rfl⟩,
      fun _ => ⟨fun _ => ⟨_, rfl⟩, fun _ => trivial⟩⟩, fun hfour => absurd ?_ hfour⟩⟩,
      fun hsub => absurd ?_ hsub⟩
    · omega
    · omega
  · omega
  · omega

theorem throwsOnly_parseEcdhReply : ThrowsOnly (parseEcdhReply payload) := by
  refine throwsOnly_evalOn ?_
  simp only [WP.bind_iff, WP.failIf_iff, WP.get_iff, WP.pure_iff]
  refine ⟨fun _ => ⟨_, rfl⟩, fun _ => ⟨fun _ => ⟨_, rfl⟩, fun _ => ?_⟩⟩
  refine wp_readString (fun _ _ _ _ => ?_) (fun what _ _ _ => ⟨what, rfl⟩)
  refine wp_readString (fun _ _ _ _ => ⟨fun _ => ⟨_, rfl⟩, fun _ => ?_⟩)
    (fun what _ _ _ => ⟨what, rfl⟩)
  exact wp_readString (fun _ _ _ _ => ⟨fun _ => ⟨_, rfl⟩, fun _ => trivial⟩)
    (fun what _ _ _ => ⟨what, rfl⟩)

/-- The library refuses a public key of small order. -/
theorem throwsOnly_calculateSharedSecret {state : Curve25519State} {serverPublicKey : Fixed 32} :
    ThrowsOnly (calculateSharedSecret crypto state serverPublicKey) := by
  unfold calculateSharedSecret
  split
  · exact throwsOnly_error
  · exact throwsOnly_ok

/-- Eight fields, each of which may be too long. -/
theorem throwsOnly_calculateExchangeHash {client server : Bytes}
    {clientKexinit serverKexinit : KexInit}
    {state : Curve25519State} {reply : EcdhReply} :
    ThrowsOnly
      (calculateExchangeHash crypto client server clientKexinit serverKexinit state reply) := by
  refine .bind ?_ fun _ => throwsOnly_pure
  unfold exchangeTranscript
  refine .bind throwsOnly_appendString fun _ => .bind throwsOnly_appendString fun _ => ?_
  refine .bind throwsOnly_appendString fun _ => .bind throwsOnly_appendString fun _ => ?_
  refine .bind throwsOnly_appendString fun _ => .bind throwsOnly_appendString fun _ => ?_
  exact .bind throwsOnly_appendString fun _ => throwsOnly_appendString

theorem throwsOnly_parseEd25519VerificationData {reply : EcdhReply} {negotiated : Bytes} :
    ThrowsOnly (parseEd25519VerificationData reply negotiated) := by
  rw [parseEd25519VerificationData_eq]
  exact .bind throwsOnly_readPair fun _ => throwsOnly_readPair

/-- Six keys, derived one after the other. -/
theorem throwsOnly_deriveTransportKeys {sharedSecret exchangeHash sessionId : Fixed 32} :
    ThrowsOnly (deriveTransportKeys crypto sharedSecret exchangeHash sessionId) := by
  have hderive : ∀ letter, ThrowsOnly
      (deriveKeyMaterial crypto sharedSecret exchangeHash letter sessionId) :=
    fun letter => .bind (.bind throwsOnly_appendString fun _ => throwsOnly_pure)
      fun _ => throwsOnly_pure
  unfold deriveTransportKeys
  refine .bind (hderive _) fun _ => .bind (hderive _) fun _ => .bind (hderive _) fun _ => ?_
  exact .bind (hderive _) fun _ => .bind (hderive _) fun _ => .bind (hderive _) fun _ =>
    throwsOnly_pure

end Kex

/-! ### The known-hosts file -/

namespace KnownHosts

variable (crypto : Crypto) {hostname algorithm hostKey : Bytes}

theorem throwsOnly_encodeBase64 : ThrowsOnly (encodeBase64 crypto hostKey) := by
  unfold encodeBase64
  refine .bind throwsOnly_failIf fun _ => ?_
  split
  · exact throwsOnly_error
  · exact throwsOnly_pure

/-- A line is skipped, decides the search or is malformed. -/
theorem throwsOnly_checkLines {encodedKey : Bytes} {bad : Bool} (lines : List Bytes) :
    ThrowsOnly (checkLines hostname algorithm encodedKey bad lines) := by
  induction lines with
  | nil =>
      rw [checkLines]
      split
      · exact throwsOnly_error
      · exact throwsOnly_ok
  | cons line lines ih =>
      rw [checkLines]
      split
      · exact ih
      · split
        · split
          · exact ih
          · split <;> exact throwsOnly_ok
        · exact throwsOnly_error

theorem throwsOnly_check {hosts : KnownHosts} :
    ThrowsOnly (check crypto hosts hostname algorithm hostKey) := by
  unfold check
  refine .bind (throwsOnly_encodeBase64 crypto) fun _ => ?_
  split
  · intro e he
    cases he
    exact ⟨_, rfl⟩
  · split
    · exact throwsOnly_ok
    · exact .bind throwsOnly_failIf fun _ => throwsOnly_checkLines _

/-- Every failure of the file system is an exception of the client. -/
theorem waits_add {starved : KnownHosts → Prop} :
    Waits starved (add crypto hostname algorithm hostKey) := by
  have hcreate : Waits starved createDirectories := by
    intro hosts
    simp only [createDirectories, WP.bind_iff, WP.get_iff]
    split <;> simp
  have happend : ∀ bytes, Waits starved (append bytes) := by
    intro bytes hosts
    simp only [append, WP.bind_iff, WP.get_iff]
    split <;> simp [error]
  refine .of_composed (.read (fun _ => rfl) fun hosts => ?_)
  refine .bind (.lift (throwsOnly_check crypto)) fun status => ?_
  refine .ite (.pure _) (.bind (.failIf error_thrown) fun _ => ?_)
  have hwrite : Composed id Stop.Thrown (fun _ y => Waits starved y) (do
      failIf (!hosts.system.appendable) (error "Failed to open known-hosts file for writing")
      let encodedKey ← lift (encodeBase64 crypto hostKey)
      append (entry hostname algorithm encodedKey)) :=
    .bind (.failIf error_thrown) fun _ =>
      .bind (.lift (throwsOnly_encodeBase64 crypto)) fun _ => .op (happend _)
  exact .ite (.bind (.op hcreate) fun _ => hwrite) hwrite

end KnownHosts

/-! ### Authentication -/

namespace Auth

variable {username password payload : Bytes}

theorem throwsOnly_createServiceRequest : ThrowsOnly createServiceRequest := throwsOnly_appendString

theorem throwsOnly_createNoneAuthRequest : ThrowsOnly (createNoneAuthRequest username) :=
  .bind throwsOnly_appendString fun _ => .bind throwsOnly_appendString fun _ =>
    throwsOnly_appendString

/-- A name or a password of 2^32 bytes or more is refused. -/
theorem throwsOnly_createPasswordAuthRequest :
    ThrowsOnly (createPasswordAuthRequest username password) :=
  .bind throwsOnly_appendString fun _ => .bind throwsOnly_appendString fun _ =>
    .bind throwsOnly_appendString fun _ => throwsOnly_appendString

theorem throwsOnly_validateServiceAccept : ThrowsOnly (validateServiceAccept payload) := by
  refine throwsOnly_evalOn ?_
  simp only [WP.bind_iff, WP.failIf_iff, WP.get_iff]
  refine ⟨fun _ => ⟨_, rfl⟩, fun _ => ⟨fun _ => ⟨_, rfl⟩, fun _ => ?_⟩⟩
  exact wp_readString (fun _ _ _ _ => ⟨fun _ => ⟨_, rfl⟩, fun _ => ⟨fun _ => ⟨_, rfl⟩,
    fun _ => trivial⟩⟩) (fun what _ _ _ => ⟨what, rfl⟩)

/-- Behind the list of methods there is one byte, which is read when it is known to be
there. -/
theorem throwsOnly_parseAuthFailure : ThrowsOnly (parseAuthFailure payload) := by
  refine throwsOnly_evalOn ?_
  simp only [WP.bind_iff, WP.failIf_iff, WP.get_iff, WP.set_iff, WP.pure_iff, wp_sizeSub,
    wp_byteAt]
  refine ⟨fun _ => ⟨_, rfl⟩, fun _ => ⟨fun _ => ⟨_, rfl⟩, fun _ => ?_⟩⟩
  refine wp_readString (fun value _ hle _ => ?_) (fun what _ _ _ => ⟨what, rfl⟩)
  generalize 1 + 4 + value.length = p at hle ⊢
  refine ⟨fun _ => ⟨fun _ => ⟨_, rfl⟩, fun hone => ⟨fun _ _ => ⟨fun _ => ⟨_, rfl⟩,
    fun _ => trivial⟩, fun hnone => ?_⟩⟩, fun hsub => absurd hle hsub⟩
  rw [List.getElem?_eq_none_iff] at hnone
  omega

theorem throwsOnly_validateAuthSuccess : ThrowsOnly (validateAuthSuccess payload) :=
  throwsOnly_failIf

end Auth

/-! ### The channel -/

namespace Connection

variable {channel : Channel} {payload : Bytes}

/-- The reply flag is read when it is known to be there, and the data behind it is all the
rest. -/
theorem throwsOnly_parseGlobalRequest : ThrowsOnly (parseGlobalRequest payload) := by
  refine throwsOnly_evalOn ?_
  simp only [WP.bind_iff, WP.get_iff, WP.failIf_iff, WP.set_iff, WP.pure_iff, wp_sizeSub,
    wp_byteAt, wp_copyRange]
  refine ⟨fun _ => ⟨_, rfl⟩, fun _ => ?_⟩
  refine wp_readString (fun value _ hle _ => ?_) (fun what _ _ _ => ⟨what, rfl⟩)
  generalize 1 + 4 + value.length = p at hle ⊢
  refine ⟨fun _ => ⟨fun _ => ⟨_, rfl⟩, fun hone => ⟨fun _ _ => ⟨fun _ => trivial,
    fun hrange => absurd ?_ hrange⟩, fun hnone => ?_⟩⟩, fun hsub => absurd hle hsub⟩
  · omega
  · rw [List.getElem?_eq_none_iff] at hnone
    omega

/-- The requests for a channel check its state before they append anything. -/
theorem throwsOnly_createSessionOpen : ThrowsOnly (createSessionOpen channel) :=
  .bind throwsOnly_failIf fun _ => .bind throwsOnly_failIf fun _ => .bind throwsOnly_failIf fun _ =>
    .bind throwsOnly_appendString fun _ => throwsOnly_pure

theorem throwsOnly_createPtyRequest {terminalType : Bytes} {columns rows : UInt32} :
    ThrowsOnly (createPtyRequest channel terminalType columns rows) :=
  .bind throwsOnly_failIf fun _ => .bind throwsOnly_failIf fun _ => .bind throwsOnly_failIf fun _ =>
    .bind throwsOnly_appendString fun _ => .bind throwsOnly_appendString fun _ =>
      throwsOnly_appendString

theorem throwsOnly_createShellRequest : ThrowsOnly (createShellRequest channel) :=
  .bind throwsOnly_failIf fun _ => .bind throwsOnly_appendString fun _ => throwsOnly_pure

theorem throwsOnly_createChannelData {data : Bytes} : ThrowsOnly (createChannelData channel data) :=
  .bind throwsOnly_failIf fun _ => .bind throwsOnly_failIf fun _ => .bind throwsOnly_failIf fun _ =>
    .bind throwsOnly_failIf fun _ => .bind throwsOnly_failIf fun _ => throwsOnly_appendString

theorem throwsOnly_createChannelClose : ThrowsOnly (createChannelClose channel) :=
  .bind throwsOnly_failIf fun _ => .bind throwsOnly_failIf fun _ => throwsOnly_pure

theorem throwsOnly_createWindowAdjust {bytesToAdd : UInt32} :
    ThrowsOnly (createWindowAdjust channel bytesToAdd) :=
  .bind throwsOnly_failIf fun _ => .bind throwsOnly_failIf fun _ => .bind throwsOnly_failIf fun _ =>
    throwsOnly_pure

/-- A parser of channel messages throws or returns. -/
theorem Exactly.waits {α : Type} {parse : Exec Channel α} {starved : Channel → Prop}
    {accepts : Channel → α → Channel → Prop} (h : Exactly parse accepts) : Waits starved parse := by
  intro c
  refine WP.intro (fun _ _ _ => trivial) ?_
  intro e t hrun
  obtain ⟨-, what, rfl⟩ := (h c).2 e t hrun
  exact halting_thrown

end Connection

/-! ### The command line and the connection -/

/-- The destination and the port of the command line. -/
theorem Config.throwsOnly_parseClientConfig {argv : List Bytes} :
    ThrowsOnly (parseClientConfig argv) := by
  have hport : ∀ text, ThrowsOnly (parsePort text) := by
    intro text
    unfold parsePort
    split
    · exact throwsOnly_error
    · exact .bind throwsOnly_failIf fun _ => throwsOnly_pure
  unfold parseClientConfig
  refine .bind throwsOnly_failIf fun _ => ?_
  dsimp only
  cases (argv.getD 1 []).findIdx? (· == atSign) with
  | none => exact throwsOnly_error
  | some separator =>
      refine .bind throwsOnly_failIf fun _ => ?_
      split
      · exact throwsOnly_pure
      · exact .bind (hport _) fun _ => throwsOnly_pure

/-- No address of the host could be connected. -/
theorem Socket.throwsOnly_connected {network : Network} {host : Bytes} {port : UInt16} :
    ThrowsOnly (connected network host port) := by
  refine .bind throwsOnly_failIf fun _ => .bind ?_ fun _ => throwsOnly_pure
  intro e he
  obtain ⟨-, rfl⟩ := failIf_eq_error.mp he
  exact ⟨_, rfl⟩

/-! ### The console -/

namespace Terminal

open Console

variable {starved : Console → Prop}

theorem waits_print {text : Bytes} : Waits starved (Console.print text) := waits_modify _

theorem waits_tcgetattr : Waits starved tcgetattr := by
  intro console
  simp only [tcgetattr, WP.bind_iff, WP.get_iff]
  split <;> simp

theorem waits_tcsetattr {settings : Termios} : Waits starved (tcsetattr settings) := by
  intro console
  simp only [tcsetattr, WP.bind_iff, WP.get_iff]
  split <;> simp

/-- No line is left that the user will type. -/
def NothingTyped (console : Console) : Prop := console.lines = []

/-- A line is returned, the input has ended or failed, or nothing has been typed yet. -/
theorem waits_getline : Waits NothingTyped getline := by
  intro console
  simp only [getline, WP.bind_iff, WP.get_iff]
  split
  · next hlines => exact .inr ⟨rfl, hlines⟩
  · trivial

theorem waits_readAnswer : Waits NothingTyped Client.readAnswer := by
  refine .of_composed (.bind (.op waits_getline) fun result => ?_)
  cases result with
  | line text => exact .pure _
  | ended => exact .pure _
  | failed what => exact .throw Stop.thrown_thrown

/-- The echo is switched on again behind the line, also when reading it failed. -/
theorem waits_readHiddenInput {prompt : Bytes} :
    Waits NothingTyped (readHiddenInput prompt) := by
  refine .of_composed (.bind (.op waits_print) fun _ => ?_)
  refine .bind (.op waits_tcgetattr) fun settings => ?_
  cases settings with
  | none => exact .throw error_thrown
  | some original =>
      refine .bind (.op waits_tcsetattr) fun _ => .bind (.failIf error_thrown) fun _ => ?_
      refine .bind (.op waits_getline) fun result => ?_
      cases result with
      | failed what =>
          exact .bind (.op waits_tcsetattr) fun _ => .bind (.op waits_print) fun _ =>
            .throw Stop.thrown_thrown
      | line text =>
          exact .bind (.op waits_tcsetattr) fun _ => .bind (.failIf error_thrown) fun _ =>
            .bind (.op waits_print) fun _ => .pure _
      | ended =>
          exact .bind (.op waits_tcsetattr) fun _ => .bind (.failIf error_thrown) fun _ =>
            .throw error_thrown

theorem waits_enableRawMode : Waits starved enableRawMode := by
  refine .of_composed (.read (fun _ => rfl) fun console => .ite (.pure _) ?_)
  refine .bind (.op waits_tcgetattr) fun settings => ?_
  cases settings with
  | none => exact .throw error_thrown
  | some original =>
      exact .bind (.op (waits_modify _)) fun _ => .bind (.op waits_tcsetattr) fun _ =>
        .bind (.failIf error_thrown) fun _ => .op (waits_modify _)

theorem waits_restore : Waits starved restore :=
  .of_composed (.read (fun _ => rfl) fun _ => .ite (.pure _) <|
    .bind (.op waits_tcsetattr) fun _ => .bind (.failIf error_thrown) fun _ =>
      .op (waits_modify _))

/-- The destructor swallows the failure of `tcsetattr`. -/
theorem waits_destroy : Waits starved destroy :=
  .of_composed (.read (fun _ => rfl) fun _ =>
    .ite (.bind (.op waits_tcsetattr) fun _ => .pure _) (.pure _))

end Terminal

end SshClient

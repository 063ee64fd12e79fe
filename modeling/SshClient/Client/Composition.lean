import SshClient.Client.Exceptions
import SshClient.Client.Main
import SshClient.Protocol.Handshake
import SshClient.Transport.Frames
import SshClient.Transport.Schedule

/-!
# The client as a composition of calls

The client is taken apart once. Below it are the calls on the wire and the calls on the
other parts of the world. Some calls are a matter of rights: keys are announced, accepted
and installed by the key exchange alone, a host is added by it alone, and what is typed and
what is put out is handled by the session alone. Between the calls the client reads the
channel, the known-hosts file and the transport, and nothing of the socket.
-/

namespace SshClient

open Control Transport

/-- The events that `sendPacket` and `receivePacket` record. -/
def Event.ofPacket : Event → Bool
  | .sending .. | .sent .. | .received .. => true
  | _ => false

namespace Client

/-- What a part of the client may do that most parts may not. -/
structure Rights where
  keys : Bool := false
  hosts : Bool := false
  keyboard : Bool := false
  output : Bool := false

/-- A message with output of the shell. -/
def carriesOutput (payload : Bytes) : Bool :=
  payload.head? == some Message.channelData || payload.head? == some Message.channelExtendedData

/-- NEWKEYS is a matter of keys, and data is a matter of the keyboard. -/
def Rights.sends (rights : Rights) (payload : Bytes) : Bool :=
  (rights.keys || payload != [Message.newkeys]) &&
    (rights.keyboard || payload.head? != some Message.channelData)

/-- The events that may be recorded. -/
def Rights.notes (rights : Rights) : Event → Bool
  | .sending .. | .sent .. | .received .. => false
  | .hostChecked .. | .hostAdded .. => rights.hosts
  | .typed .. => rights.keyboard
  | .wroteStdout .. | .wroteStderr .. => rights.output
  | .accepted payload => rights.output ||
      !carriesOutput payload && (rights.keys || payload != [Message.newkeys])
  | _ => true

/-- The rights of the key exchange. -/
def Rights.exchange : Rights := { keys := true, hosts := true }

/-- The rights of the session. -/
def Rights.session : Rights := { keyboard := true, output := true }

theorem Rights.ofPacket_of_notes {rights : Rights} {event : Event}
    (h : rights.notes event = true) : event.ofPacket = false := by
  cases event with
  | sending | sent | received => cases h
  | _ => rfl

theorem Rights.ne_newkeys_of_sends {rights : Rights} {payload : Bytes}
    (kept : rights.keys = false) (h : rights.sends payload = true) :
    payload ≠ [Message.newkeys] := by
  rintro rfl
  simp [Rights.sends, kept] at h

theorem Rights.ne_newkeys_of_notes {rights : Rights} {payload : Bytes}
    (kept : rights.keys = false) (silent : rights.output = false)
    (h : rights.notes (.accepted payload) = true) : payload ≠ [Message.newkeys] := by
  rintro rfl
  simp [Rights.notes, kept, silent] at h

/-- The calls on the wire. -/
inductive WireCall (crypto : Crypto) (rights : Rights) : Operations Stop Wire where
  | send (payload : Bytes) (permitted : rights.sends payload = true) :
      WireCall crypto rights Unit (sendPacket crypto payload)
  | receive : WireCall crypto rights Bytes (receivePacket crypto)
  | draw (count : Nat) : WireCall crypto rights Bytes (randombytesBuf count)
  | note {event : Event} (permitted : rights.notes event = true) :
      WireCall crypto rights Unit (record event)
  | enableOutgoing (allowed : rights.keys = true) (iv : Fixed 16)
      (encryptionKey macKey : Fixed 32) :
      WireCall crypto rights Unit (enableOutgoingEncryption crypto iv encryptionKey macKey)
  | enableIncoming (allowed : rights.keys = true) (iv : Fixed 16)
      (encryptionKey macKey : Fixed 32) :
      WireCall crypto rights Unit (enableIncomingEncryption crypto iv encryptionKey macKey)

/-- Nothing of the wire is read between the calls. -/
abbrev OnWire (crypto : Crypto) (rights : Rights) {α : Type} (x : Exec Wire α) : Prop :=
  Composed (fun _ => {}) Stop.Thrown (WireCall crypto rights) x

/-- The calls on the console. -/
inductive ConsoleCall : Operations Stop Console where
  | readAnswer : ConsoleCall Bytes readAnswer
  | readHiddenInput (prompt : Bytes) : ConsoleCall Bytes (Terminal.readHiddenInput prompt)
  | enableRawMode : ConsoleCall Unit Terminal.enableRawMode
  | restore : ConsoleCall Unit Terminal.restore

/-- The calls on the world. -/
inductive Call (crypto : Crypto) (rights : Rights) : Operations Stop World where
  | wire {α : Type} {x : Exec Wire α} (h : OnWire crypto rights x) : Call crypto rights α (onWire x)
  | channel {α : Type} {x : Exec Channel α} (h : Waits (fun _ => False) x) :
      Call crypto rights α (onChannel x)
  | console {α : Type} {x : Exec Console α} (h : ConsoleCall α x) :
      Call crypto rights α (onConsole x)
  | hosts (allowed : rights.hosts = true) (hostname algorithm hostKey : Bytes) :
      Call crypto rights Unit (onHosts (KnownHosts.add crypto hostname algorithm hostKey))
  | poll (keyboardEvents : Bool) : Call crypto rights PollResult (poll keyboardEvents)
  | readKeyboard (allowed : rights.keyboard = true) (maxRead : Nat) :
      Call crypto rights Bytes (readKeyboard maxRead)
  | rounds : Call crypto rights Nat pendingRounds

/-- What the client may read between two calls. -/
def World.visible (w : World) : World := { w with wire := { transport := w.wire.transport } }

/-- A program of calls that stops with the allowed errors. -/
abbrev OnWorld (crypto : Crypto) (allowed : Stop → Prop) (rights : Rights) {α : Type}
    (x : Exec World α) : Prop :=
  Composed World.visible allowed (Call crypto rights) x

section Rules

theorem composed_lift {σ α : Type} {see : σ → σ} {op : Operations Stop σ} {x : Except Stop α}
    (h : ThrowsOnly x) : Composed see Stop.Thrown op (lift x) :=
  .lift h

theorem composed_require {σ : Type} {see : σ → σ} {op : Operations Stop σ} {c : Prop} [Decidable c]
    {text : String} : Composed see Stop.Thrown op (failIf c (error text)) :=
  .failIf error_thrown

variable {crypto : Crypto} {allowed : Stop → Prop} {rights : Rights} {α : Type}

theorem onWire_call {x : Exec Wire α} (h : WireCall crypto rights α x) :
    OnWorld crypto allowed rights (onWire x) := .op (.wire (.op h))

/-- Most messages may be sent by any part. -/
theorem sends_of_head {payload : Bytes} (number : UInt8) (head : payload.head? = some number)
    (other : number ≠ Message.newkeys ∧ number ≠ Message.channelData) :
    rights.sends payload = true := by
  have hnewkeys : payload ≠ [Message.newkeys] := by
    rintro rfl
    exact other.1 (Option.some.inj head).symm
  have hdata : payload.head? ≠ some Message.channelData := by
    rw [head]
    exact fun h => other.2 (Option.some.inj h)
  simp [Rights.sends, hnewkeys, hdata]

/-- Most messages may be accepted by any part. -/
theorem notes_of_head {payload : Bytes} (number : UInt8) (head : payload.head? = some number)
    (other : number ≠ Message.channelData ∧ number ≠ Message.channelExtendedData ∧
      number ≠ Message.newkeys) : rights.notes (.accepted payload) = true := by
  have hnewkeys : payload ≠ [Message.newkeys] := by
    rintro rfl
    exact other.2.2 (Option.some.inj head).symm
  simp [Rights.notes, carriesOutput, head, other.1, other.2.1, hnewkeys]

/-- The key exchange may accept NEWKEYS too. -/
theorem notes_of_keys (allowed : rights.keys = true) {payload : Bytes}
    (head : payload.head? = some Message.newkeys) : rights.notes (.accepted payload) = true := by
  have hdata : carriesOutput payload = false := by
    rw [carriesOutput, head]
    decide
  simp [Rights.notes, allowed, hdata]

theorem notes_of_output (allowed : rights.output = true) (payload : Bytes) :
    rights.notes (.accepted payload) = true := by
  simp [Rights.notes, allowed]

theorem onWire_send {payload : Bytes} (number : UInt8) (head : payload.head? = some number)
    (other : number ≠ Message.newkeys ∧ number ≠ Message.channelData) :
    OnWorld crypto allowed rights (onWire (sendPacket crypto payload)) :=
  onWire_call (.send payload (sends_of_head number head other))

theorem onWire_receive : OnWorld crypto allowed rights (onWire (receivePacket crypto)) :=
  onWire_call .receive

theorem onWire_note {event : Event} (permitted : rights.notes event = true) :
    OnWorld crypto allowed rights (onWire (record event)) := onWire_call (.note permitted)

theorem onWorld_print (text : Bytes) : OnWorld crypto allowed rights (print text) := onWire_note rfl

theorem onWorld_printError (text : Bytes) : OnWorld crypto allowed rights (printError text) :=
  onWire_note rfl

theorem onChannel_exactly {parse : Exec Channel α} {accepts : Channel → α → Channel → Prop}
    (h : Connection.Exactly parse accepts) : OnWorld crypto allowed rights (onChannel parse) :=
  .op (.channel h.waits)

theorem onChannel_modify (f : Channel → Channel) :
    OnWorld crypto allowed rights (onChannel (modify f)) := .op (.channel (waits_modify f))

end Rules

variable (crypto : Crypto)

/-! ### Key exchange -/

theorem composed_sendKexinit (rights : Rights) : OnWire crypto rights (sendKexinit crypto) := by
  have hflat : sendKexinit crypto = (do
      let cookie ← randombytesBuf Kex.cookieBytes
      let rawPayload ← lift (Kex.kexinitPayload (Kex.clientOffer (Fixed.copy 16 cookie)))
      sendPacket crypto rawPayload
      return { Kex.clientOffer (Fixed.copy 16 cookie) with rawPayload := rawPayload }) := by
    simp only [sendKexinit, Kex.createClientKexinit, bind_assoc, pure_bind]
  rw [hflat]
  refine .bind (.op (.draw _)) fun cookie => ?_
  refine .bind_lift Kex.throwsOnly_kexinitPayload fun payload hpayload => ?_
  have head : payload.head? = some Message.kexinit := by
    rw [(Kex.kexinitPayload_ok.mp hpayload).2]
    rfl
  exact .bind (.op (.send _ (sends_of_head _ head (by decide)))) fun _ => .pure _

theorem composed_receiveKexinit (rights : Rights) :
    OnWire crypto rights (receiveKexinit crypto) := by
  refine .bind (.op .receive) fun payload => ?_
  refine .bind composed_require fun _ => .bind_failIf error_thrown fun head => ?_
  refine .bind (composed_lift Kex.throwsOnly_parseKexinit) fun _ => ?_
  exact .bind (.op (.note (notes_of_head _ (not_not.mp head) (by decide)))) fun _ => .pure _

theorem composed_createCurve25519Keypair (rights : Rights) :
    OnWire crypto rights (Kex.createCurve25519Keypair crypto) := by
  refine .bind (.op (.draw _)) fun clientPrivateKey => ?_
  dsimp only
  split
  · exact .throw error_thrown
  · exact .pure _

theorem composed_receiveEcdhReply (rights : Rights) :
    OnWire crypto rights (receiveEcdhReply crypto) := by
  refine .bind (.op .receive) fun payload => ?_
  refine .bind composed_require fun _ => .bind_failIf error_thrown fun head => ?_
  refine .bind (composed_lift Kex.throwsOnly_parseEcdhReply) fun _ => ?_
  exact .bind (.op (.note (notes_of_head _ (not_not.mp head) (by decide)))) fun _ => .pure _

theorem composed_verifyServer (rights : Rights) (data : Ed25519VerificationData)
    (exchangeHash : Fixed 32) : OnWire crypto rights (verifyServer crypto data exchangeHash) :=
  .bind (composed_lift throwsOnly_failIf) fun _ => .op (.note rfl)

theorem composed_exchangeNewkeys {rights : Rights} (allowed : rights.keys = true)
    (keys : TransportKeyMaterial) : OnWire crypto rights (exchangeNewkeys crypto keys) := by
  have hannounce : rights.sends [Message.newkeys] = true := by
    simp only [Rights.sends, allowed, Bool.true_or, Bool.true_and]
    exact Bool.or_eq_true_iff.mpr (.inr (by decide))
  refine .bind (.op (.send _ hannounce)) fun _ => ?_
  refine .bind (.op (.enableOutgoing allowed _ _ _)) fun _ => ?_
  refine .bind (.op .receive) fun serverNewkeys => ?_
  refine .bind composed_require fun _ => .bind_failIf error_thrown fun head => ?_
  refine .bind (.op (.note (notes_of_keys allowed (not_not.mp head)))) fun _ => ?_
  exact .op (.enableIncoming allowed _ _ _)

theorem composed_confirmHost {rights : Rights} (allowed : rights.hosts = true)
    (hostname algorithm hostKey : Bytes) :
    OnWorld crypto Stop.Thrown rights (confirmHost crypto hostname algorithm hostKey) := by
  refine .read (fun _ => rfl) fun w => ?_
  refine .bind (composed_lift (KnownHosts.throwsOnly_check crypto)) fun status => ?_
  refine .bind (onWire_note allowed) fun _ => ?_
  cases status with
  | matched => exact onWorld_print _
  | changed =>
      exact .bind (onWorld_printError _) fun _ => .bind (onWorld_printError _) fun _ =>
        .throw error_thrown
  | unknown =>
      refine .bind (onWorld_print _) fun _ => .bind (onWorld_print _) fun _ => ?_
      refine .bind (onWorld_print _) fun _ => .bind (.op (.console .readAnswer)) fun answer => ?_
      refine .bind (onWire_note rfl) fun _ => .bind composed_require fun _ => ?_
      refine .bind (.op (.hosts allowed _ _ _)) fun _ => ?_
      exact .bind (onWire_note allowed) fun _ => onWorld_print _

theorem composed_agreeKeys {rights : Rights} (allowed : rights.hosts = true)
    (id : IdentificationExchange) (hostname : Bytes) :
    OnWorld crypto Stop.Thrown rights (agreeKeys crypto id hostname) := by
  refine .bind (.op (.wire (composed_sendKexinit crypto rights))) fun clientKexinit => ?_
  refine .bind (.op (.wire (composed_receiveKexinit crypto rights))) fun serverKexinit => ?_
  refine .bind (composed_lift Kex.throwsOnly_negotiate) fun algorithms => ?_
  refine .bind composed_require fun _ => ?_
  refine .bind (.op (.wire (composed_createCurve25519Keypair crypto rights))) fun keypair => ?_
  refine .bind (onWire_send Message.kexEcdhInit rfl (by decide)) fun _ => ?_
  refine .bind (.op (.wire (composed_receiveEcdhReply crypto rights))) fun ecdhReply => ?_
  refine .bind (composed_lift (Kex.throwsOnly_calculateSharedSecret crypto)) fun keypair => ?_
  refine .bind (composed_lift (Kex.throwsOnly_calculateExchangeHash crypto)) fun exchangeHash => ?_
  refine .bind (composed_lift Kex.throwsOnly_parseEd25519VerificationData) fun data => ?_
  refine .bind (.op (.wire (composed_verifyServer crypto rights data exchangeHash))) fun _ => ?_
  refine .bind (composed_confirmHost crypto allowed _ _ _) fun _ => ?_
  exact composed_lift (Kex.throwsOnly_deriveTransportKeys crypto)

theorem composed_performKeyExchange {rights : Rights} (keys : rights.keys = true)
    (hosts : rights.hosts = true) (id : IdentificationExchange) (hostname : Bytes) :
    OnWorld crypto Stop.Thrown rights (performKeyExchange crypto id hostname) := by
  rw [performKeyExchange_eq]
  exact .bind (composed_agreeKeys crypto hosts id hostname) fun material =>
    .op (.wire (composed_exchangeNewkeys crypto keys material))

/-! ### Authentication -/

theorem composed_authenticateUser (rights : Rights) (username : Bytes) :
    OnWorld crypto Stop.Thrown rights (authenticateUser crypto username) := by
  refine .bind_lift Auth.throwsOnly_createServiceRequest fun payload h => ?_
  refine .bind (onWire_send _ (Protocol.createServiceRequest_head h) (by decide)) fun _ => ?_
  refine .bind onWire_receive fun response => ?_
  refine .bind_lift Auth.throwsOnly_validateServiceAccept fun _ h => ?_
  have head := Protocol.validateServiceAccept_head h
  refine .bind (onWire_note (notes_of_head _ head (by decide))) fun _ => ?_
  refine .bind_lift Auth.throwsOnly_createNoneAuthRequest fun probe h => ?_
  refine .bind (onWire_send _ (Protocol.createNoneAuthRequest_head h) (by decide)) fun _ => ?_
  refine .bind onWire_receive fun refusal => ?_
  refine .bind_lift Auth.throwsOnly_parseAuthFailure fun _ h => ?_
  have head := Protocol.parseAuthFailure_head h
  refine .bind (onWire_note (notes_of_head _ head (by decide))) fun _ => ?_
  refine .bind (.op (.console (.readHiddenInput _))) fun password => ?_
  refine .bind_lift Auth.throwsOnly_createPasswordAuthRequest fun request h => ?_
  refine .bind (onWire_send _ (Protocol.createPasswordAuthRequest_head h) (by decide)) fun _ => ?_
  refine .bind onWire_receive fun response => ?_
  refine .bind composed_require fun _ => .ite_of ?_ fun _ => .ite ?_ (.throw error_thrown)
  · intro head
    refine .bind (composed_lift Auth.throwsOnly_validateAuthSuccess) fun _ => ?_
    exact .bind (onWire_note (notes_of_head _ head (by decide))) fun _ => onWorld_print _
  · exact .bind (composed_lift Auth.throwsOnly_parseAuthFailure) fun _ => .throw error_thrown

/-! ### The session -/

theorem createSessionOpen_head {c : Channel} {payload : Bytes}
    (h : Connection.createSessionOpen c = .ok payload) :
    payload.head? = some Message.channelOpen := by
  simp only [Connection.createSessionOpen, bind_eq_ok, failIf_eq_ok, appendString_ok,
    pure_eq_ok] at h
  obtain ⟨-, -, -, -, -, -, p1, ⟨-, rfl⟩, rfl⟩ := h
  rfl

theorem createChannelClose_head {c : Channel} {payload : Bytes}
    (h : Connection.createChannelClose c = .ok payload) :
    payload.head? = some Message.channelClose := by
  simp only [Connection.createChannelClose, bind_eq_ok, failIf_eq_ok, pure_eq_ok] at h
  obtain ⟨-, -, -, -, rfl⟩ := h
  rfl

theorem composed_handleGlobalRequest {rights : Rights} (output : rights.output = true)
    (payload : Bytes) :
    OnWire crypto rights (handleGlobalRequest crypto payload) := by
  refine .bind (composed_lift Connection.throwsOnly_parseGlobalRequest) fun request => ?_
  exact .bind (.op (.note (notes_of_output output _))) fun _ =>
    .ite (.op (.send _ (sends_of_head Message.requestFailure rfl (by decide)))) (.pure _)

/-- What a round of `openSessionChannel` does with the packet it has received. -/
def openResponse (response : Bytes) : Exec World (Unit ⊕ Unit) := do
  failIf (response = []) (error "Packet contained 0 bytes")
  if response.head? = some Message.channelOpenConfirmation then
    onChannel (Connection.parseOpenConfirmation response)
    onWire (record (.accepted response))
  else if response.head? = some Message.channelOpenFailure then
    let _ ← onChannel (Connection.parseOpenFailure response)
    throw (error "Connection failed to open")
  else if response.head? = some Message.globalRequest then
    onWire (handleGlobalRequest crypto response)
  else throw (error "Unexpected response received during session channel opening")
  return .inl ()

theorem openRound_eq :
    openRound crypto = (do
      let w ← get
      if w.channel.isOpen then return .inr ()
      let response ← onWire (receivePacket crypto)
      openResponse crypto response) := rfl

theorem composed_openResponse {rights : Rights} (output : rights.output = true) (response : Bytes) :
    OnWorld crypto Stop.Thrown rights (openResponse crypto response) := by
  refine .bind composed_require fun _ => .ite ?_ (.ite ?_ (.ite ?_ ?_))
  · refine .bind (onChannel_exactly (Connection.parseOpenConfirmation_exactly response)) fun _ => ?_
    exact .bind (onWire_note (notes_of_output output _)) fun _ => .pure _
  · refine .bind (onChannel_exactly (Connection.parseOpenFailure_exactly response)) fun _ => ?_
    exact .bind (.throw error_thrown) fun _ => .pure _
  · refine .bind (.op (.wire (composed_handleGlobalRequest crypto output response))) fun _ => ?_
    exact .pure _
  · exact .bind (.throw error_thrown) fun _ => .pure _

theorem composed_openRound {rights : Rights} (output : rights.output = true) :
    OnWorld crypto Stop.Thrown rights (openRound crypto) := by
  rw [openRound_eq]
  exact .read (fun _ => rfl) fun w => .ite (.pure _) <|
    .bind onWire_receive fun response => composed_openResponse crypto output response

/-- What a round of `waitForChannelRequestResult` does with the packet it has received. -/
def waitResponse (requestName response : Bytes) : Exec World (Bool ⊕ Unit) := do
  failIf (response = []) (error "Packet contained 0 bytes")
  if response.head? = some Message.channelSuccess then
    onChannel (Connection.validateChannelSuccess response)
    onWire (record (.accepted response))
    return .inl true
  else if response.head? = some Message.channelFailure then
    onChannel (Connection.validateChannelFailure response)
    throw (Stop.thrown (requestName ++ ascii " request rejected"))
  else if response.head? = some Message.globalRequest then
    onWire (handleGlobalRequest crypto response)
    return .inl false
  else if response.head? = some Message.channelWindowAdjust then
    onChannel (Connection.parseWindowAdjust response)
    onWire (record (.accepted response))
    return .inl false
  else throw (Stop.thrown (ascii "Unexpected response received while waiting for " ++ requestName))

theorem waitRound_eq (requestName : Bytes) (requestAccepted : Bool) :
    waitRound crypto requestName requestAccepted = (do
      if requestAccepted then return .inr ()
      let response ← onWire (receivePacket crypto)
      waitResponse crypto requestName response) := rfl

theorem composed_waitResponse {rights : Rights} (output : rights.output = true)
    (requestName response : Bytes) :
    OnWorld crypto Stop.Thrown rights (waitResponse crypto requestName response) := by
  refine .bind composed_require fun _ =>
    .ite ?_ (.ite ?_ (.ite ?_ (.ite ?_ (.throw Stop.thrown_thrown))))
  · refine .bind (onChannel_exactly
      (Connection.validateChannelReply_exactly response _ _)) fun _ => ?_
    exact .bind (onWire_note (notes_of_output output _)) fun _ => .pure _
  · refine .bind (onChannel_exactly
      (Connection.validateChannelReply_exactly response _ _)) fun _ => ?_
    exact .throw Stop.thrown_thrown
  · refine .bind (.op (.wire (composed_handleGlobalRequest crypto output response))) fun _ => ?_
    exact .pure _
  · refine .bind (onChannel_exactly (Connection.parseWindowAdjust_exactly response)) fun _ => ?_
    exact .bind (onWire_note (notes_of_output output _)) fun _ => .pure _

theorem composed_waitRound {rights : Rights} (output : rights.output = true) (requestName : Bytes)
    (requestAccepted : Bool) :
    OnWorld crypto Stop.Thrown rights (waitRound crypto requestName requestAccepted) := by
  rw [waitRound_eq]
  exact .ite (.pure _) <|
    .bind onWire_receive fun response => composed_waitResponse crypto output requestName response

theorem composed_handleKeyboard {rights : Rights} (allowed : rights.keyboard = true) :
    OnWorld crypto Stop.Thrown rights (handleKeyboard crypto) := by
  refine .read (fun _ => rfl) fun w => .bind (.op (.readKeyboard allowed _)) fun data => ?_
  refine .ite (.bind (onWire_note allowed) fun _ => ?_) (.pure _)
  refine .bind_lift Connection.throwsOnly_createChannelData fun payload h => ?_
  obtain ⟨-, -, -, -, -, rfl⟩ := Connection.createChannelData_ok.mp h
  have hdata : rights.sends (Connection.channelData w.channel.remoteId data) = true := by
    have hother : Message.channelData ≠ Message.newkeys := by decide
    simp [Rights.sends, allowed, Connection.channelData, hother]
  exact .bind (onWire_call (.send _ hdata)) fun _ => onChannel_modify _

theorem composed_handleMessage {rights : Rights} (output : rights.output = true)
    (response : Bytes) :
    OnWorld crypto Stop.Thrown rights (handleMessage crypto response) := by
  refine .ite ?_ (.ite ?_ (.ite ?_ (.ite ?_ (.ite ?_ (.ite ?_ (.ite ?_ (.throw error_thrown)))))))
  · refine .bind (onChannel_exactly (Connection.parseChannelData_exactly response)) fun _ => ?_
    exact .bind (onWire_note (notes_of_output output _)) fun _ =>
      .bind (onWire_note output) fun _ => .pure _
  · refine .bind (onChannel_exactly (Connection.parseWindowAdjust_exactly response)) fun _ => ?_
    exact .bind (onWire_note (notes_of_output output _)) fun _ => .pure _
  · refine .bind (.op (.wire (composed_handleGlobalRequest crypto output response))) fun _ => ?_
    exact .pure _
  · refine .bind (onChannel_exactly
      (Connection.parseChannelExtendedData_exactly response)) fun _ => ?_
    exact .bind (onWire_note (notes_of_output output _)) fun _ =>
      .bind (onWire_note output) fun _ => .pure _
  · refine .bind (onChannel_exactly (Connection.parseChannelEof_exactly response)) fun _ => ?_
    exact .bind (onWire_note (notes_of_output output _)) fun _ => .pure _
  · refine .bind (onChannel_exactly (Connection.parseExitStatus_exactly response)) fun _ => ?_
    exact .bind (onWire_note (notes_of_output output _)) fun _ => .pure _
  · refine .bind (onChannel_exactly (Connection.parseChannelClose_exactly response)) fun _ => ?_
    refine .bind (onWire_note (notes_of_output output _)) fun _ => ?_
    refine .read (fun _ => rfl) fun w => .ite ?_ (.pure _)
    refine .bind_lift Connection.throwsOnly_createChannelClose fun payload h => ?_
    refine .bind (onWire_send _ (createChannelClose_head h) (by decide)) fun _ => ?_
    exact .bind (onChannel_modify _) fun _ => .pure _

theorem composed_refillWindow (rights : Rights) (consumedLocalWindow : Bool) :
    OnWorld crypto Stop.Thrown rights (refillWindow crypto consumedLocalWindow) := by
  refine .read (fun _ => rfl) fun w => .ite ?_ (.pure _)
  refine .bind_lift Connection.throwsOnly_createWindowAdjust fun payload h => ?_
  obtain ⟨-, -, -, rfl⟩ := Connection.createWindowAdjust_ok.mp h
  exact .bind (onWire_send Message.channelWindowAdjust rfl (by decide)) fun _ => onChannel_modify _

theorem composed_handleSocket {rights : Rights} (output : rights.output = true) :
    OnWorld crypto Stop.Thrown rights (handleSocket crypto) := by
  refine .bind onWire_receive fun response => .bind composed_require fun _ => ?_
  refine .bind (composed_handleMessage crypto output response) fun consumed => ?_
  exact .bind (composed_refillWindow crypto rights consumed) fun _ => onChannel_modify _

/-- What a round of the shell loop does with what `poll` has reported. -/
def shellTurn (result : PollResult) : Exec World (Unit ⊕ Unit) := do
  match result with
  | .interrupted => return .inl ()
  | .failed => throw (error "poll failed")
  | .ready keyboard socket closed =>
      if keyboard then handleKeyboard crypto
      if socket then handleSocket crypto
      let w ← get
      failIf (w.channel.isOpen ∧ closed) (error "SSH socket closed unexpectedly")
      return .inl ()

theorem shellRound_eq :
    shellRound crypto = (do
      let w ← get
      onWire (record (.loopHead w.channel w.wire.transport))
      if !w.channel.isOpen then return .inr ()
      let result ← poll (0 < w.channel.remoteWindow)
      shellTurn crypto result) := rfl

theorem composed_shellTurn {rights : Rights} (typing : rights.keyboard = true)
    (output : rights.output = true) (result : PollResult) :
    OnWorld crypto Stop.Thrown rights (shellTurn crypto result) := by
  cases result with
  | interrupted => exact .pure _
  | failed => exact .throw error_thrown
  | ready keyboard socket closed =>
      have hend : OnWorld crypto Stop.Thrown rights (do
          let w ← get
          failIf (w.channel.isOpen ∧ closed) (error "SSH socket closed unexpectedly")
          return (.inl () : Unit ⊕ Unit)) :=
        .read (fun _ => rfl) fun w => .bind composed_require fun _ => .pure _
      refine .ite (.bind (composed_handleKeyboard crypto typing) fun _ => ?_) ?_
      · exact .ite (.bind (composed_handleSocket crypto output) fun _ => hend) hend
      · exact .ite (.bind (composed_handleSocket crypto output) fun _ => hend) hend

theorem composed_shellRound {rights : Rights} (keyboard : rights.keyboard = true)
    (output : rights.output = true) :
    OnWorld crypto Stop.Thrown rights (shellRound crypto) := by
  rw [shellRound_eq]
  refine .read (fun _ => rfl) fun w => .bind (onWire_note rfl) fun _ => .ite (.pure _) ?_
  exact .bind (.op (.poll _)) fun result => composed_shellTurn crypto keyboard output result

/-- A body, in a loop whose rounds may run out as far as this module is concerned. -/
theorem composed_loop {τ α : Type} {rights : Rights} {body : τ → Exec World (τ ⊕ α)}
    (h : ∀ u, OnWorld crypto Stop.Thrown rights (body u)) (rounds : Nat) (u : τ) :
    OnWorld crypto (fun _ => True) rights (iterate .fault body rounds u) :=
  .iterate trivial (fun u => (h u).mono (fun _ _ => trivial) fun _ _ hop => hop) rounds u

theorem composed_openSessionChannel {rights : Rights} (output : rights.output = true) :
    OnWorld crypto (fun _ => True) rights (openSessionChannel crypto) := by
  refine .read (fun _ => rfl) fun w => ?_
  refine .bind_lift (fun _ _ => trivial) fun payload h => ?_
  refine .bind (onWire_send _ (createSessionOpen_head h) (by decide)) fun _ => ?_
  refine .bind (.op .rounds) fun rounds => ?_
  exact composed_loop crypto (fun _ => composed_openRound crypto output) rounds ()

theorem composed_waitForChannelRequestResult {rights : Rights} (output : rights.output = true)
    (requestName : Bytes) :
    OnWorld crypto (fun _ => True) rights (waitForChannelRequestResult crypto requestName) :=
  .bind (.op .rounds) fun rounds =>
    composed_loop crypto (composed_waitRound crypto output requestName) rounds false

theorem composed_requestPty {rights : Rights} (output : rights.output = true)
    (terminalInfo : TerminalInfo) :
    OnWorld crypto (fun _ => True) rights (requestPty crypto terminalInfo) := by
  refine .read (fun _ => rfl) fun w => ?_
  refine .bind_lift (fun _ _ => trivial) fun payload h => ?_
  exact .bind (onWire_send _ (Protocol.createPtyRequest_head h) (by decide)) fun _ =>
    composed_waitForChannelRequestResult crypto output _

theorem composed_requestShell {rights : Rights} (output : rights.output = true) :
    OnWorld crypto (fun _ => True) rights (requestShell crypto) := by
  refine .read (fun _ => rfl) fun w => ?_
  refine .bind_lift (fun _ _ => trivial) fun payload h => ?_
  exact .bind (onWire_send _ (Protocol.createShellRequest_head h) (by decide)) fun _ =>
    composed_waitForChannelRequestResult crypto output _

theorem composed_runInteractiveShell {rights : Rights} (keyboard : rights.keyboard = true)
    (output : rights.output = true) :
    OnWorld crypto (fun _ => True) rights (runInteractiveShell crypto) := by
  refine .bind (.op (.console .enableRawMode)) fun _ => .bind ?_ fun _ => .op (.console .restore)
  exact .read (fun _ => rfl) fun w =>
    composed_loop crypto (fun _ => composed_shellRound crypto keyboard output) _ ()

theorem composed_runConnectionSession {rights : Rights} (keyboard : rights.keyboard = true)
    (output : rights.output = true) (display : Display) :
    OnWorld crypto (fun _ => True) rights (runConnectionSession crypto display) := by
  refine .bind ?_ fun _ => .bind (composed_runInteractiveShell crypto keyboard output) fun _ => ?_
  · refine .bind (.op (.channel (waits_set _))) fun _ => ?_
    refine .bind (composed_openSessionChannel crypto output) fun _ => ?_
    exact .bind (composed_requestPty crypto output _) fun _ => composed_requestShell crypto output
  · exact .read (fun _ => rfl) fun w => .ite (onWorld_print _) (.pure _)

/-! ### Properties of the wire -/

/-- What every call on the wire upholds every program of calls upholds. -/
theorem upholds_onWorld {α : Type} {rights : Rights} {allowed : Stop → Prop}
    {inv fail : Wire → Prop}
    {x : Exec World α}
    (hop : ∀ α (y : Exec Wire α), WireCall crypto rights α y → Upholds inv (fun _ => fail) y)
    (weaken : ∀ wire, inv wire → fail wire) (h : OnWorld crypto allowed rights x) :
    Upholds (fun w => inv w.wire) (fun _ w => fail w.wire) x := by
  refine h.upholds ?_ (fun _ _ _ hw => weaken _ hw)
  intro β y hy w hw
  have hbeside : ∀ {σ : Type} {get : World → σ} {put : World → σ → World} {z : Exec σ β},
      (∀ s, (put w s).wire = w.wire) →
      WP (focus get put z) w (fun _ t => inv t.wire) (fun _ t => fail t.wire) := by
    intro σ get put z hwire
    rw [WP.focus_iff]
    refine WP.intro ?_ ?_
    · intro _ s _
      rw [hwire]
      exact hw
    · intro _ s _
      rw [hwire]
      exact weaken _ hw
  cases hy with
  | wire hwire =>
      rw [wp_onWire]
      exact hwire.upholds hop (fun _ _ _ => weaken _) w.wire hw
  | channel => exact hbeside fun _ => rfl
  | console => exact hbeside fun _ => rfl
  | hosts => exact hbeside fun _ => rfl
  | poll keyboardEvents =>
      simp only [poll, WP.bind_iff, WP.get_iff]
      split
      · exact weaken _ hw
      · rw [WP.bind_iff, WP.set_iff]
        split <;> exact hw
  | readKeyboard maxRead =>
      simp only [readKeyboard, WP.bind_iff, WP.get_iff]
      split
      · exact weaken _ hw
      · exact weaken _ hw
      · split
        · exact hw
        · exact hw
  | rounds => exact hw

/-- A property of the world that no call has to do with. -/
structure Beside (rights : Rights) (P : World → Prop) : Prop where
  wire : ∀ w wire, P w → P { w with wire := wire }
  channel : ∀ w channel, P w → P { w with channel := channel }
  console : ∀ w console, P w → P { w with console := console }
  polls : ∀ w polls, P w → P { w with polls := polls }
  hosts : rights.hosts = true → ∀ w hosts, P w → P { w with hosts := hosts }
  keyboard : rights.keyboard = true → ∀ w keyboard, P w → P { w with keyboard := keyboard }

theorem Beside.upholds {α : Type} {rights : Rights} {P : World → Prop} (beside : Beside rights P)
    {allowed : Stop → Prop} {x : Exec World α} (h : OnWorld crypto allowed rights x) :
    Upholds P (fun _ => P) x := by
  refine Composed.upholds h ?_ (fun _ _ _ hw => hw)
  intro β y hy w hw
  have hpart : ∀ {σ : Type} {get : World → σ} {put : World → σ → World} {z : Exec σ β},
      (∀ s, P (put w s)) → WP (focus get put z) w (fun _ t => P t) (fun _ t => P t) := by
    intro σ get put z hput
    rw [WP.focus_iff]
    exact WP.intro (fun _ s _ => hput s) (fun _ s _ => hput s)
  cases hy with
  | wire => exact hpart fun wire => beside.wire w wire hw
  | channel => exact hpart fun channel => beside.channel w channel hw
  | console => exact hpart fun console => beside.console w console hw
  | hosts allowed => exact hpart fun hosts => beside.hosts allowed w hosts hw
  | poll keyboardEvents =>
      exact Protocol.wp_poll (fun _ polls _ => beside.polls w polls hw) (fun _ => hw)
  | readKeyboard allowed =>
      exact Protocol.wp_readKeyboard (fun _ keyboard _ => beside.keyboard allowed w keyboard hw)
        (fun _ keyboard => beside.keyboard allowed w keyboard hw)
  | rounds => exact hw

/-- The terminal around a block changes nothing but the console. -/
theorem wp_withTerminal_beside {x : Exec World Unit} {w : World} {P : World → Prop}
    (h : WP x { w with console := { w.console with terminal := {} } } (fun _ t => P t)
      (fun _ t => P t))
    (beside : ∀ t console, P t → P { t with console := console }) :
    WP (withTerminal x) w (fun _ t => P t) (fun _ t => P t) := by
  have hdestroy : ∀ t, P t →
      WP (onConsole Terminal.destroy) t (fun _ u => P u) (fun _ u => P u) := by
    intro t ht
    rw [wp_onConsole]
    exact WP.intro (fun _ console _ => beside t console ht) (fun _ console _ => beside t console ht)
  unfold WP withTerminal
  simp only [EStateM.run]
  cases hrun : x { w with console := { w.console with terminal := {} } } with
  | ok a t => exact hdestroy t (h.of_ok hrun)
  | error e t =>
      have ht : P t := h.of_error hrun
      cases e with
      | thrown what =>
          have hthrow : WP (do onConsole Terminal.destroy; throw (.thrown what) : Exec World Unit) t
              (fun _ u => P u) (fun _ u => P u) :=
            WP.bind_iff.mpr ((hdestroy t ht).mono (fun _ _ hu => hu) (fun _ _ hu => hu))
          exact hthrow
      | blocked => exact ht
      | fault => exact ht

/-- What the block under `try` leaves behind is left behind by the program, which at most
reports the exception. -/
theorem outcome_main {P : World → Prop} {env : Environment}
    (h : WP (session crypto env) env.start (fun _ t => P t) (fun _ t => P t))
    (report : ∀ w text, P w →
      P { w with wire := { w.wire with trace := w.wire.trace ++ [.printedError text] } }) :
    P (outcome (main crypto env)) := by
  unfold main
  cases hrun : (session crypto env).run env.start with
  | ok _ t => exact h.of_ok hrun
  | error e t =>
      have ht := h.of_error hrun
      cases e with
      | thrown what => exact report t _ ht
      | blocked => exact ht
      | fault => exact ht

end Client

end SshClient

import SshClient.Auth
import SshClient.Common.Fields
import SshClient.Connection.Basic
import SshClient.Kex.Basic

/-!
# The messages of the client cannot be confused

Ten functions build the messages that carry values of the user or of the session. Each is
the layout of its fields. Two messages with the same number begin with fields of the same
kinds, and these name the request, so the bytes of a message determine which of them it is
and every value in it.
-/

namespace SshClient

open Control

/-- The messages with the values that vary in them. -/
inductive ClientMessage where
  | noneAuth (username : Bytes)
  | passwordAuth (username password : Bytes)
  | sessionOpen (localId localWindow localMaxPacket : UInt32)
  | exec (remoteId : UInt32) (command : Bytes)
  | pty (remoteId : UInt32) (terminalType : Bytes) (columns rows : UInt32)
  | shell (remoteId : UInt32)
  | data (remoteId : UInt32) (bytes : Bytes)
  | windowAdjust (remoteId bytesToAdd : UInt32)
  | close (remoteId : UInt32)
  | ecdhInit (clientPublicKey : Fixed 32)
  deriving DecidableEq

namespace ClientMessage

@[simp] def number : ClientMessage → UInt8
  | .noneAuth .. => Message.userauthRequest
  | .passwordAuth .. => Message.userauthRequest
  | .sessionOpen .. => Message.channelOpen
  | .exec .. => Message.channelRequest
  | .pty .. => Message.channelRequest
  | .shell .. => Message.channelRequest
  | .data .. => Message.channelData
  | .windowAdjust .. => Message.channelWindowAdjust
  | .close .. => Message.channelClose
  | .ecdhInit .. => Message.kexEcdhInit

/-- The fields behind the number up to the one that names the request, where messages share
their number. -/
@[simp] def naming : ClientMessage → List Field
  | .noneAuth username => [.text username, .text (ascii "ssh-connection"), .text (ascii "none")]
  | .passwordAuth username _ =>
      [.text username, .text (ascii "ssh-connection"), .text (ascii "password")]
  | .exec remoteId _ => [.uint32 remoteId, .text (ascii "exec")]
  | .pty remoteId _ _ _ => [.uint32 remoteId, .text (ascii "pty-req")]
  | .shell remoteId => [.uint32 remoteId, .text (ascii "shell")]
  | _ => []

/-- The fields behind that. -/
@[simp] def body : ClientMessage → List Field
  | .noneAuth _ => []
  | .passwordAuth _ password => [.byte 0, .text password]
  | .sessionOpen localId localWindow localMaxPacket =>
      [.text (ascii "session"), .uint32 localId, .uint32 localWindow, .uint32 localMaxPacket]
  | .exec _ command => [.byte 1, .text command]
  | .pty _ terminalType columns rows =>
      [.byte 1, .text terminalType, .uint32 columns, .uint32 rows, .uint32 0, .uint32 0, .text [0]]
  | .shell _ => [.byte 1]
  | .data remoteId bytes => [.uint32 remoteId, .text bytes]
  | .windowAdjust remoteId bytesToAdd => [.uint32 remoteId, .uint32 bytesToAdd]
  | .close remoteId => [.uint32 remoteId]
  | .ecdhInit clientPublicKey => [.text clientPublicKey.val]

/-- All fields behind the number, in order. -/
def fields (m : ClientMessage) : List Field := m.naming ++ m.body

def payload (m : ClientMessage) : Bytes := m.number :: layout m.fields

/-- Every string of the message fits. -/
def Fits (m : ClientMessage) : Prop := ∀ field ∈ m.fields, field.Fits

/-! ### What the bytes of a message say -/

/-- The kinds of the naming fields of a number. -/
def namingKinds (number : UInt8) : List FieldKind :=
  if number = Message.userauthRequest then [.text, .text, .text]
  else if number = Message.channelRequest then [.uint32, .text]
  else []

/-- The kinds of the fields that follow a number and its naming fields. -/
def bodyKinds (number : UInt8) (naming : List Field) : List FieldKind :=
  if number = Message.userauthRequest then
    if naming.getLast? = some (.text (ascii "none")) then [] else [.byte, .text]
  else if number = Message.channelRequest then
    if naming.getLast? = some (.text (ascii "exec")) then [.byte, .text]
    else if naming.getLast? = some (.text (ascii "shell")) then [.byte]
    else [.byte, .text, .uint32, .uint32, .uint32, .uint32, .text]
  else if number = Message.channelOpen then [.text, .uint32, .uint32, .uint32]
  else if number = Message.channelData then [.uint32, .text]
  else if number = Message.channelWindowAdjust then [.uint32, .uint32]
  else if number = Message.channelClose then [.uint32]
  else [.text]

theorem naming_kinds (m : ClientMessage) :
    m.naming.map Field.kind = namingKinds m.number := by
  cases m <;> rfl

theorem body_kinds (m : ClientMessage) :
    m.body.map Field.kind = bodyKinds m.number m.naming := by
  cases m <;> rfl

/-- The message of given fields. -/
def ofFields : List Field → List Field → Option ClientMessage
  | [.text username, _, _], [] => some (.noneAuth username)
  | [.text username, _, _], [_, .text password] => some (.passwordAuth username password)
  | [.uint32 remoteId, _], [_] => some (.shell remoteId)
  | [.uint32 remoteId, _], [_, .text command] => some (.exec remoteId command)
  | [.uint32 remoteId, _], [_, .text terminalType, .uint32 columns, .uint32 rows, _, _, _] =>
      some (.pty remoteId terminalType columns rows)
  | [], [_, .uint32 localId, .uint32 localWindow, .uint32 localMaxPacket] =>
      some (.sessionOpen localId localWindow localMaxPacket)
  | [], [.uint32 remoteId, .text bytes] => some (.data remoteId bytes)
  | [], [.uint32 remoteId, .uint32 bytesToAdd] => some (.windowAdjust remoteId bytesToAdd)
  | [], [.uint32 remoteId] => some (.close remoteId)
  | [], [.text clientPublicKey] => some (.ecdhInit (Fixed.copy 32 clientPublicKey))
  | _, _ => none

theorem ofFields_eq (m : ClientMessage) : ofFields m.naming m.body = some m := by
  cases m with
  | ecdhInit clientPublicKey =>
      exact congrArg (fun key => some (ecdhInit key))
        (Subtype.ext (Fixed.copy_val clientPublicKey.property))
  | _ => rfl

variable {m m' : ClientMessage}

theorem fits_naming (fits : m.Fits) : ∀ field ∈ m.naming, field.Fits :=
  fun field hf => fits field (List.mem_append_left _ hf)

theorem fits_body (fits : m.Fits) : ∀ field ∈ m.body, field.Fits :=
  fun field hf => fits field (List.mem_append_right _ hf)

/-- A message is determined by its bytes. -/
theorem payload_inj (fits : m.Fits) (fits' : m'.Fits) (h : m.payload = m'.payload) : m = m' := by
  obtain ⟨hnumber, hlayout⟩ := List.cons.inj h
  rw [fields, fields, layout_append, layout_append] at hlayout
  obtain ⟨hnaming, hbody⟩ := layout_inj (fits_naming fits) (fits_naming fits')
    (by rw [naming_kinds, naming_kinds, hnumber]) hlayout
  rw [← List.append_nil (layout m.body), ← List.append_nil (layout m'.body)] at hbody
  obtain ⟨hbody, -⟩ := layout_inj (fits_body fits) (fits_body fits')
    (by rw [body_kinds, body_kinds, hnumber, hnaming]) hbody
  have hsame := ofFields_eq m
  rw [hnaming, hbody, ofFields_eq m'] at hsame
  exact (Option.some.inj hsame).symm

/-- Behind its number a message is read back field by field, to its end. -/
theorem readFields_payload (fits : m.Fits) :
    (readFields m.payload (m.fields.map Field.kind)).run 1 = .ok m.fields m.payload.length := by
  have hdrop : m.payload.drop 1 = layout m.fields ++ [] := by
    rw [List.append_nil]
    rfl
  rw [(readFields_of_drop fits hdrop).1, payload, List.length_cons, Nat.add_comm]

end ClientMessage

/-! ### The functions -/

/-- A call of one of the ten functions, with its arguments. -/
inductive Create where
  | noneAuthRequest (username : Bytes)
  | passwordAuthRequest (username password : Bytes)
  | sessionOpen (channel : Channel)
  | execRequest (channel : Channel) (command : Bytes)
  | ptyRequest (channel : Channel) (terminalType : Bytes) (columns rows : UInt32)
  | shellRequest (channel : Channel)
  | channelData (channel : Channel) (data : Bytes)
  | windowAdjust (channel : Channel) (bytesToAdd : UInt32)
  | channelClose (channel : Channel)
  | ecdhInitPayload (state : Curve25519State)

namespace Create

def run : Create → Except Stop Bytes
  | .noneAuthRequest username => Auth.createNoneAuthRequest username
  | .passwordAuthRequest username password => Auth.createPasswordAuthRequest username password
  | .sessionOpen channel => Connection.createSessionOpen channel
  | .execRequest channel command => Connection.createExecRequest channel command
  | .ptyRequest channel terminalType columns rows =>
      Connection.createPtyRequest channel terminalType columns rows
  | .shellRequest channel => Connection.createShellRequest channel
  | .channelData channel data => Connection.createChannelData channel data
  | .windowAdjust channel bytesToAdd => Connection.createWindowAdjust channel bytesToAdd
  | .channelClose channel => Connection.createChannelClose channel
  | .ecdhInitPayload state => .ok (Kex.createEcdhInitPayload state)

/-- The message that is meant: which one, and the arguments that go into it. -/
def message : Create → ClientMessage
  | .noneAuthRequest username => .noneAuth username
  | .passwordAuthRequest username password => .passwordAuth username password
  | .sessionOpen channel =>
      .sessionOpen channel.localId channel.localWindow channel.localMaxPacket
  | .execRequest channel command => .exec channel.remoteId command
  | .ptyRequest channel terminalType columns rows =>
      .pty channel.remoteId terminalType columns rows
  | .shellRequest channel => .shell channel.remoteId
  | .channelData channel data => .data channel.remoteId data
  | .windowAdjust channel bytesToAdd => .windowAdjust channel.remoteId bytesToAdd
  | .channelClose channel => .close channel.remoteId
  | .ecdhInitPayload state => .ecdhInit state.clientPublicKey

/-- Every function produces the layout of its message. -/
theorem run_ok {call : Create} {payload : Bytes} (h : call.run = .ok payload) :
    payload = call.message.payload ∧ call.message.Fits := by
  cases call with
  | noneAuthRequest username =>
      simp only [run, Auth.createNoneAuthRequest, bind_eq_ok, appendString_ok] at h
      obtain ⟨_, ⟨husername, rfl⟩, _, ⟨hservice, rfl⟩, hmethod, rfl⟩ := h
      simp [message, ClientMessage.payload, ClientMessage.Fits, ClientMessage.fields, *]
  | passwordAuthRequest username password =>
      simp only [run, Auth.createPasswordAuthRequest, bind_eq_ok, appendString_ok] at h
      obtain ⟨_, ⟨husername, rfl⟩, _, ⟨hservice, rfl⟩, _, ⟨hmethod, rfl⟩, hpassword, rfl⟩ := h
      simp [message, ClientMessage.payload, ClientMessage.Fits, ClientMessage.fields, *]
  | sessionOpen channel =>
      simp only [run, Connection.createSessionOpen, bind_eq_ok, appendString_ok, pure_eq_ok] at h
      obtain ⟨-, -, -, -, -, -, _, ⟨htype, rfl⟩, rfl⟩ := h
      simp [message, ClientMessage.payload, ClientMessage.Fits, ClientMessage.fields, *]
  | execRequest channel command =>
      simp only [run, Connection.createExecRequest, bind_eq_ok, appendString_ok] at h
      obtain ⟨-, -, -, -, _, ⟨hname, rfl⟩, hcommand, rfl⟩ := h
      simp [message, ClientMessage.payload, ClientMessage.Fits, ClientMessage.fields, *]
  | ptyRequest channel terminalType columns rows =>
      simp only [run, Connection.createPtyRequest, bind_eq_ok, appendString_ok] at h
      obtain ⟨-, -, -, -, -, -, _, ⟨hname, rfl⟩, _, ⟨htype, rfl⟩, hmodes, rfl⟩ := h
      simp [message, ClientMessage.payload, ClientMessage.Fits, ClientMessage.fields, *]
  | shellRequest channel =>
      simp only [run, Connection.createShellRequest, bind_eq_ok, appendString_ok, pure_eq_ok] at h
      obtain ⟨-, -, _, ⟨hname, rfl⟩, rfl⟩ := h
      simp [message, ClientMessage.payload, ClientMessage.Fits, ClientMessage.fields, *]
  | channelData channel data =>
      simp only [run, Connection.createChannelData, bind_eq_ok, appendString_ok] at h
      obtain ⟨-, -, -, -, -, -, -, -, -, -, hdata, rfl⟩ := h
      simp [message, ClientMessage.payload, ClientMessage.Fits, ClientMessage.fields, *]
  | windowAdjust channel bytesToAdd =>
      simp only [run, Connection.createWindowAdjust, bind_eq_ok, pure_eq_ok] at h
      obtain ⟨-, -, -, -, -, -, rfl⟩ := h
      simp [message, ClientMessage.payload, ClientMessage.Fits, ClientMessage.fields]
  | channelClose channel =>
      simp only [run, Connection.createChannelClose, bind_eq_ok, pure_eq_ok] at h
      obtain ⟨-, -, -, -, rfl⟩ := h
      simp [message, ClientMessage.payload, ClientMessage.Fits, ClientMessage.fields]
  | ecdhInitPayload state =>
      simp only [run, Except.ok.injEq] at h
      subst h
      have hlength := state.clientPublicKey.property
      simp [message, ClientMessage.payload, ClientMessage.Fits, ClientMessage.fields,
        Kex.createEcdhInitPayload, encodeString, hlength, Kex.lengthOfKey]

end Create

/-- The messages of the client are unambiguous. What a call produces is read back behind its
number, field by field and to its end, as the constants and arguments of that call, and
calls that produce the same bytes are the same request with the same values in it. -/
theorem client_messages_unambiguous :
    (∀ (call : Create) (payload : Bytes), call.run = .ok payload →
      payload.head? = some call.message.number ∧
        (readFields payload (call.message.fields.map Field.kind)).run 1 =
          .ok call.message.fields payload.length) ∧
    ∀ (call call' : Create) (payload : Bytes), call.run = .ok payload → call'.run = .ok payload →
      call.message = call'.message := by
  constructor
  · intro call payload h
    obtain ⟨rfl, fits⟩ := Create.run_ok h
    exact ⟨rfl, ClientMessage.readFields_payload fits⟩
  · intro call call' payload h h'
    obtain ⟨rfl, fits⟩ := Create.run_ok h
    obtain ⟨hpayload, fits'⟩ := Create.run_ok h'
    exact ClientMessage.payload_inj fits fits' hpayload

end SshClient

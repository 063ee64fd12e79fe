import SshClient.Memory.Machine
import SshClient.Kex.Basic
import SshClient.Auth
import SshClient.Connection.Basic

/-!
# The parsers on the machine

The sixteen parsers of messages from the server, statement by statement, with the
unchecked operations of the machine. Each of them has the value or the exception of its
checked counterpart and leaves a disciplined log, whatever bytes it is given. No parser of
the client depends on a size that wraps or on a byte outside its vector, so the checked
programs, which would stop there with a fault, are the same programs.
-/

namespace SshClient.Memory

open Control

/-- The test of the message number, and the cursor behind it. An empty payload is
rejected before its first byte is looked at. -/
def openMessage (payload : Vector .payload) (number : UInt8) (whenEmpty expected : String) :
    Exec Trail Unit := do
  failIf (payload.size < 1) (error whenEmpty)
  let first ← index payload 0
  failIf (first ≠ number) (error expected)
  place payload 1

/-! ### Key exchange -/

def readNameList (payload : Vector .payload) : Exec Trail Bytes := do
  let position ← cursor
  failIf (position > payload.size) (error "SSH Payload missing expected bytes")
  let left ← remaining payload
  failIf (left < uint32Bytes) (error "Expected list length")
  let length ← copyN payload position uint32Bytes
  let listLength := (decodeUint32 length).toNat
  advance payload uint32Bytes
  let position ← cursor
  let left ← remaining payload
  failIf (left < listLength) (error "Expected list")
  let listText ← copyBetween payload position ((position + listLength) % wordCount)
  advance payload listLength
  return listText

def parseBoolean (payload : Vector .payload) : Exec Trail Bool := do
  let position ← cursor
  failIf (position > payload.size) (error "SSH Payload missing expected bytes")
  let left ← remaining payload
  failIf (left < 1) (error "Expected 1 byte")
  let byte ← index payload position
  advance payload 1
  return byte != 0

def parseKexinit (payload : Vector .payload) : Exec Trail KexInit := do
  openMessage payload Message.kexinit "Payload should not be empty"
    "SSH KEXINIT packet was expected"
  let position ← cursor
  let left ← remaining payload
  failIf (left < Kex.cookieBytes) (error "Payload should contain a cookie")
  let cookie ← copyN payload position Kex.cookieBytes
  advance payload Kex.cookieBytes
  let kexAlgorithms ← readNameList payload
  let hostKeyAlgorithms ← readNameList payload
  let encryptionCsAlgorithms ← readNameList payload
  let encryptionScAlgorithms ← readNameList payload
  let macCsAlgorithms ← readNameList payload
  let macScAlgorithms ← readNameList payload
  let compressionCsAlgorithms ← readNameList payload
  let compressionScAlgorithms ← readNameList payload
  let languagesCs ← readNameList payload
  let languagesSc ← readNameList payload
  let firstKexPacketFollows ← parseBoolean payload
  let position ← cursor
  let left ← remaining payload
  failIf (left < uint32Bytes) (error "4 reserved bytes expected")
  let reserved ← copyN payload position uint32Bytes
  let reservedValue := decodeUint32 reserved
  advance payload uint32Bytes
  failIf (reservedValue ≠ 0) (error "Reserved bytes expected to be equal to 0")
  let position ← cursor
  failIf (payload.size ≠ position) (error "Additional bytes not expected")
  return {
    rawPayload := payload.bytes
    cookie := Fixed.copy 16 cookie
    kexAlgorithms := kexAlgorithms
    hostKeyAlgorithms := hostKeyAlgorithms
    encryptionCsAlgorithms := encryptionCsAlgorithms
    encryptionScAlgorithms := encryptionScAlgorithms
    macCsAlgorithms := macCsAlgorithms
    macScAlgorithms := macScAlgorithms
    compressionCsAlgorithms := compressionCsAlgorithms
    compressionScAlgorithms := compressionScAlgorithms
    languagesCs := languagesCs
    languagesSc := languagesSc
    firstKexPacketFollows := firstKexPacketFollows }

def parseEcdhReply (payload : Vector .payload) : Exec Trail EcdhReply := do
  openMessage payload Message.kexEcdhReply "Payload should not be empty"
    "SSH_MSG_KEX_ECDH_REPLY packet was expected"
  let serverHostKey ← readString payload
  let serverPublicKey ← readString payload
  failIf (serverPublicKey.length ≠ 32) (error "Curve25519 server public key must be 32 bytes")
  let signature ← readString payload
  let position ← cursor
  failIf (position ≠ payload.size) (error "No more bytes expected")
  return {
    serverHostKey := serverHostKey
    serverPublicKey := Fixed.copy 32 serverPublicKey
    signature := signature }

/-- The first half of `parse_ed25519_verification_data`: the name and the key in the blob. -/
def parseHostKeyBlob (serverHostKey : Vector .serverHostKey) (negotiatedHostKeyAlgorithm : Bytes) :
    Exec Trail (Bytes × Fixed 32) := do
  place serverHostKey 0
  let algorithmName ← readString serverHostKey
  failIf (algorithmName ≠ negotiatedHostKeyAlgorithm ∨ algorithmName ≠ ascii "ssh-ed25519")
    (error "Algorithm is not the negotiated ssh-ed25519.")
  let publicKey ← readString serverHostKey
  failIf (publicKey.length ≠ 32) (error "Ed25519 public key must be 32 bytes")
  let position ← cursor
  failIf (position ≠ serverHostKey.size) (error "Unexpected bytes in Ed25519 host key")
  return (algorithmName, Fixed.copy 32 publicKey)

/-- The second half, in which the cursor starts again for the other vector. -/
def parseSignatureBlob (signature : Vector .signature) (negotiatedHostKeyAlgorithm : Bytes)
    (algorithmName : Bytes) (publicKey : Fixed 32) : Exec Trail Ed25519VerificationData := do
  place signature 0
  let algorithmSigName ← readString signature
  failIf (algorithmName ≠ negotiatedHostKeyAlgorithm ∨ algorithmSigName ≠ ascii "ssh-ed25519")
    (error "Algorithm is not the negotiated ssh-ed25519.")
  let signatureBytes ← readString signature
  failIf (signatureBytes.length ≠ 64) (error "Ed25519 signature must be 64 bytes")
  let position ← cursor
  failIf (position ≠ signature.size) (error "Unexpected bytes in Ed25519 signature")
  return { publicKey := publicKey, signature := Fixed.copy 64 signatureBytes }

def parseEd25519VerificationData (serverHostKey : Vector .serverHostKey)
    (signature : Vector .signature) (negotiatedHostKeyAlgorithm : Bytes) :
    Exec Trail Ed25519VerificationData := do
  let (algorithmName, publicKey) ← parseHostKeyBlob serverHostKey negotiatedHostKeyAlgorithm
  parseSignatureBlob signature negotiatedHostKeyAlgorithm algorithmName publicKey

/-! ### Authentication -/

def validateServiceAccept (payload : Vector .payload) : Exec Trail Unit := do
  openMessage payload Message.serviceAccept "Payload cannot be empty"
    "SSH_MSG_SERVICE_ACCEPT was expected"
  let serviceName ← readString payload
  failIf (serviceName ≠ ascii "ssh-userauth") (error "String doesn't match ssh-userauth")
  let position ← cursor
  failIf (position ≠ payload.size) (error "Extra bytes received")

def parseAuthFailure (payload : Vector .payload) : Exec Trail AuthFailure := do
  openMessage payload Message.userauthFailure "SSH_MSG_USERAUTH_FAILURE expected"
    "SSH_MSG_USERAUTH_FAILURE expected"
  let authenticationMethods ← readString payload
  let position ← cursor
  let left ← remaining payload
  failIf (left ≠ 1) (error "One byte expected")
  let byte ← index payload position
  advance payload 1
  let position ← cursor
  failIf (position ≠ payload.size) (error "No more bytes expected")
  return { availableMethods := authenticationMethods, partialSuccess := byte != 0 }

/-! ### The channel -/

/-- The reply flag of a request. -/
def readWantReply (payload : Vector .payload) : Exec Trail UInt8 := do
  let position ← cursor
  let left ← remaining payload
  failIf (left < 1) (error "want_reply value expected")
  let wantReply ← index payload position
  advance payload 1
  return wantReply

def parseGlobalRequest (payload : Vector .payload) : Exec Trail GlobalRequest := do
  openMessage payload Message.globalRequest "Expected SSH_MSG_GLOBAL_REQUEST"
    "Expected SSH_MSG_GLOBAL_REQUEST"
  let requestName ← readString payload
  let wantReply ← readWantReply payload
  let position ← cursor
  let requestData ← copyBetween payload position payload.size
  return ⟨requestName, wantReply != 0, requestData⟩

/-- The number of a channel message, tested with one error for both ways to fail. -/
def openChannelMessage (payload : Vector .payload) (number : UInt8) (expected : String) :
    Exec (Trail × Channel) Unit :=
  onLocal (openMessage payload number expected expected)

def parseOpenConfirmation (payload : Vector .payload) : Exec (Trail × Channel) Unit := do
  let channel ← onOuter get
  failIf channel.isOpen (error "Channel already open")
  openChannelMessage payload Message.channelOpenConfirmation
    "Expected SSH_MSG_CHANNEL_OPEN_CONFIRMATION"
  let recipientChannel ← onLocal (readUint32 payload)
  let senderChannel ← onLocal (readUint32 payload)
  let remoteWindow ← onLocal (readUint32 payload)
  let remoteMaxPacket ← onLocal (readUint32 payload)
  failIf (channel.localId ≠ recipientChannel) (error "Not the correct recipient channel")
  failIf (remoteMaxPacket < Connection.minMaxPacketSize)
    (error "No channel-data packet can be sent")
  let position ← onLocal cursor
  failIf (position ≠ payload.size) (error "Payload contains more bytes than expected")
  onOuter <| modify fun channel => { channel with
    remoteId := senderChannel
    remoteWindow := remoteWindow
    remoteMaxPacket := remoteMaxPacket
    isOpen := true }

def parseOpenFailure (payload : Vector .payload) :
    Exec (Trail × Channel) ChannelOpenFailure := do
  let channel ← onOuter get
  failIf channel.isOpen (error "Open failure received for an already-open channel")
  openChannelMessage payload Message.channelOpenFailure "Expected SSH_MSG_CHANNEL_OPEN_FAILURE"
  let recipientChannel ← onLocal (readUint32 payload)
  let reasonCode ← onLocal (readUint32 payload)
  let description ← onLocal (readString payload)
  let language ← onLocal (readString payload)
  let position ← onLocal cursor
  failIf (position ≠ payload.size) (error "Payload contains more bytes than expected")
  failIf (recipientChannel ≠ channel.localId) (error "Not the correct recipient channel")
  return ⟨reasonCode, description, language⟩

def validateChannelReply (number : UInt8) (expected : String) (payload : Vector .payload) :
    Exec (Trail × Channel) Unit := do
  let channel ← onOuter get
  openChannelMessage payload number expected
  let recipientChannel ← onLocal (readUint32 payload)
  failIf (recipientChannel ≠ channel.localId) (error "Channel ids did not match")
  let position ← onLocal cursor
  failIf (position ≠ payload.size) (error "Payload contains more bytes than expected")

def validateChannelSuccess : Vector .payload → Exec (Trail × Channel) Unit :=
  validateChannelReply Message.channelSuccess "Expected SSH_MSG_CHANNEL_SUCCESS"

def validateChannelFailure : Vector .payload → Exec (Trail × Channel) Unit :=
  validateChannelReply Message.channelFailure "Expected SSH_MSG_CHANNEL_FAILURE"

def parseWindowAdjust (payload : Vector .payload) : Exec (Trail × Channel) Unit := do
  let channel ← onOuter get
  failIf (!channel.isOpen) (error "Window adjustment received for a closed channel")
  openChannelMessage payload Message.channelWindowAdjust
    "Expected SSH_MSG_CHANNEL_WINDOW_ADJUST"
  let recipientChannel ← onLocal (readUint32 payload)
  let bytesToAdd ← onLocal (readUint32 payload)
  failIf (recipientChannel ≠ channel.localId) (error "Channel ids did not match")
  let position ← onLocal cursor
  failIf (position ≠ payload.size) (error "Payload contains more bytes than expected")
  failIf (bytesToAdd = 0) (error "Channel window adjustment must be greater than zero")
  failIf (channel.remoteWindow > Connection.uint32Max - bytesToAdd)
    (error "Remote channel window overflow")
  onOuter <| modify fun channel =>
    { channel with remoteWindow := channel.remoteWindow + bytesToAdd }

def parseChannelData (payload : Vector .payload) : Exec (Trail × Channel) Bytes := do
  let channel ← onOuter get
  failIf (!channel.isOpen) (error "Channel data received for a closed channel")
  openChannelMessage payload Message.channelData "Expected SSH_MSG_CHANNEL_DATA"
  let recipientChannel ← onLocal (readUint32 payload)
  failIf (recipientChannel ≠ channel.localId) (error "Channel ids did not match")
  let data ← onLocal (readString payload)
  let position ← onLocal cursor
  failIf (position ≠ payload.size) (error "Payload contains more bytes than expected")
  failIf (data.length > channel.localMaxPacket.toNat)
    (error "Channel data exceeds local maximum packet size")
  failIf (data.length > channel.localWindow.toNat)
    (error "Data received exceeds maximum allowed size")
  onOuter (Connection.consumeLocalWindow data)
  return data

def parseChannelExtendedData (payload : Vector .payload) :
    Exec (Trail × Channel) ChannelExtendedData := do
  let channel ← onOuter get
  failIf (!channel.isOpen) (error "Extended data received for a closed channel")
  openChannelMessage payload Message.channelExtendedData "Expected SSH_MSG_EXTENDED_DATA"
  let recipientChannel ← onLocal (readUint32 payload)
  failIf (recipientChannel ≠ channel.localId) (error "Channel ids did not match")
  let dataTypeCode ← onLocal (readUint32 payload)
  failIf (dataTypeCode ≠ 1) (error "Unexpected data type code received")
  let data ← onLocal (readString payload)
  let position ← onLocal cursor
  failIf (position ≠ payload.size) (error "Payload contains more bytes than expected")
  failIf (data.length > channel.localMaxPacket.toNat)
    (error "Channel data exceeds local maximum packet size")
  failIf (data.length > channel.localWindow.toNat)
    (error "Data received exceeds maximum allowed size")
  onOuter (Connection.consumeLocalWindow data)
  return ⟨dataTypeCode, data⟩

def parseChannelEof (payload : Vector .payload) : Exec (Trail × Channel) Unit := do
  let channel ← onOuter get
  failIf (!channel.isOpen) (error "Channel data received for a closed channel")
  failIf channel.remoteEofReceived (error "EOF already received")
  openChannelMessage payload Message.channelEof "Expected SSH_MSG_CHANNEL_EOF"
  let recipientChannel ← onLocal (readUint32 payload)
  failIf (recipientChannel ≠ channel.localId) (error "Channel ids did not match")
  let position ← onLocal cursor
  failIf (position ≠ payload.size) (error "No more bytes were expected")
  onOuter <| modify fun channel => { channel with remoteEofReceived := true }

def parseExitStatus (payload : Vector .payload) : Exec (Trail × Channel) ChannelExitStatus := do
  let channel ← onOuter get
  failIf (!channel.isOpen) (error "Exit status received for a closed channel")
  failIf channel.exitStatusReceived (error "Exit status already received")
  openChannelMessage payload Message.channelRequest "Expected SSH_MSG_CHANNEL_REQUEST"
  let recipientChannel ← onLocal (readUint32 payload)
  failIf (recipientChannel ≠ channel.localId) (error "Channel ids did not match")
  let requestName ← onLocal (readString payload)
  failIf (requestName ≠ ascii "exit-status") (error "Expected exit-status request")
  let wantReply ← onLocal (readWantReply payload)
  let exitStatus ← onLocal (readUint32 payload)
  let position ← onLocal cursor
  failIf (position ≠ payload.size) (error "Payload contains more bytes than expected")
  onOuter <| modify fun channel => { channel with exitStatus := exitStatus }
  onOuter <| modify fun channel => { channel with exitStatusReceived := true }
  return ⟨exitStatus, wantReply != 0⟩

def parseChannelClose (payload : Vector .payload) : Exec (Trail × Channel) Unit := do
  let channel ← onOuter get
  failIf (!channel.isOpen) (error "Close request received for a closed channel")
  failIf channel.remoteCloseReceived (error "Channel close already received")
  openChannelMessage payload Message.channelClose "Expected SSH_MSG_CHANNEL_CLOSE"
  let recipientChannel ← onLocal (readUint32 payload)
  failIf (recipientChannel ≠ channel.localId) (error "Channel ids did not match")
  let position ← onLocal cursor
  failIf (position ≠ payload.size) (error "Payload contains more bytes than expected")
  onOuter <| modify fun channel => { channel with remoteCloseReceived := true }

/-! ### The message number -/

section Opening

variable (payload : Vector .payload) (number : UInt8) (whenEmpty expected : String) {t : Trail}

/-- What the test of the number comes to, with the cursor behind the number when it is
passed. -/
theorem openMessage_cases (h : Fresh .payload t) :
    (payload.bytes = [] ∧
      (openMessage payload number whenEmpty expected).run t = .error (error whenEmpty) t) ∨
    (payload.bytes ≠ [] ∧ payload.bytes.head? ≠ some number ∧
      ∃ t', (openMessage payload number whenEmpty expected).run t = .error (error expected) t' ∧
        Disciplined t'.log) ∨
    (payload.bytes ≠ [] ∧ payload.bytes.head? = some number ∧
      ∃ t', (openMessage payload number whenEmpty expected).run t = .ok () t' ∧
        At payload t' 1) := by
  cases hbytes : payload.bytes with
  | nil =>
      refine .inl ⟨rfl, ?_⟩
      have hsize : payload.size < 1 := by
        rw [Vector.size, hbytes]
        decide
      simp only [openMessage, EStateM.run_bind, run_failIf_pos hsize]
  | cons first rest =>
      have hsize : ¬ payload.size < 1 := by
        rw [Vector.size, hbytes]
        simp
      have hcell : payload.cell 0 = first := by
        simp [Vector.cell, hbytes]
      -- The first byte is there to be looked at, and the cursor does not exist yet.
      have hfresh : Fresh .payload
          { t with log := t.log ++ [⟨.payload, payload.size, .index 0⟩] } :=
        h.noted (Nat.pos_of_ne_zero fun hzero => hsize (Nat.lt_one_iff.mpr hzero)) (by simp)
      have hrun : (openMessage payload number whenEmpty expected).run t =
          (failIf (first ≠ number) (error expected) >>= fun _ => place payload 1).run
            { t with log := t.log ++ [⟨.payload, payload.size, .index 0⟩] } := by
        rw [← hcell, openMessage, EStateM.run_bind, run_failIf_neg hsize]
        rfl
      rw [hrun, EStateM.run_bind]
      by_cases hfirst : first = number
      · obtain ⟨t', hplace, hat⟩ := hfresh.place payload (q := 1) (by simp [hbytes])
        refine .inr (.inr ⟨by simp, by simp [hfirst], t', ?_, hat⟩)
        rw [run_failIf_neg (not_not.mpr hfirst)]
        exact hplace
      · refine .inr (.inl ⟨by simp, by simpa using hfirst, _, ?_, hfresh.disciplined⟩)
        rw [run_failIf_pos hfirst]

end Opening

/-! ### What is shown of a parser

It has the value or the exception of the checked one, and its log is disciplined. -/

def Parses {α : Type} (x : Exec Trail α) (y : Except Stop α) : Prop :=
  ∀ t, Fresh .payload t → evalOn x t = y ∧ Disciplined (outcome (x.run t)).log

/-- Both are at the same place, and nothing is known of the cursor any more. -/
def InOrder (t : Trail) (_ : Nat) : Prop := Disciplined t.log

theorem parses_of_matching {α : Type} {x : Exec Trail α} {y : Exec Nat α} {t : Trail} {p : Nat}
    (h : MatchingResult InOrder (x.run t) (y.run p)) :
    evalOn x t = evalOn y p ∧ Disciplined (outcome (x.run t)).log := by
  refine ⟨evalOn_eq_of_matching h, ?_⟩
  cases hx : x.run t <;> cases hy : y.run p <;> rw [hx, hy] at h
  · exact h.2
  · exact h.elim
  · exact h.elim
  · exact h.2

section Bodies

variable {payload : Vector .payload} {number : UInt8} {whenEmpty expected : String} {α : Type}

theorem matching_body {x : Exec Trail α} {y : Exec Nat α} {t : Trail} {p : Nat}
    (body : Simulates (At payload) x y) (h : At payload t p) :
    MatchingResult InOrder (x.run t) (y.run p) :=
  (body t p h).mono fun _ _ hat => hat.disciplined

/-- A parser that rejects an empty payload with an error of its own. -/
theorem Parses.of_two_checks {c : Prop} [Decidable c] {f : Unit → Exec Trail α}
    {g : Unit → Exec Nat α} (empty : c ↔ payload.bytes = [])
    (body : Simulates (At payload) (f ()) (g ())) :
    Parses (openMessage payload number whenEmpty expected >>= f)
      (evalOn (failIf c (error whenEmpty) >>= fun _ =>
        failIf (payload.bytes.head? ≠ some number) (error expected) >>= g) 1) := by
  intro t h
  apply parses_of_matching
  rcases openMessage_cases payload number whenEmpty expected h with
    ⟨hempty, hrun⟩ | ⟨hne, hhead, t', hrun, hd⟩ |
    ⟨hne, hhead, t', hrun, hat⟩
  · exact matching_of_error hrun (run_failIf_pos (empty.mpr hempty)) h.disciplined
  · have hc : ¬ c := fun hc => hne (empty.mp hc)
    rw [EStateM.run_bind (x := failIf c _), run_failIf_neg hc]
    exact matching_of_error hrun (run_failIf_pos hhead) hd
  · have hc : ¬ c := fun hc => hne (empty.mp hc)
    rw [EStateM.run_bind (x := failIf c _), run_failIf_neg hc]
    exact matching_of_ok hrun (run_failIf_neg (not_not.mpr hhead)) (matching_body body hat)

/-- A parser with one error for an empty payload and for another number. -/
theorem Parses.of_check {f : Unit → Exec Trail α} {g : Unit → Exec Nat α}
    (body : Simulates (At payload) (f ()) (g ())) :
    Parses (openMessage payload number expected expected >>= f)
      (evalOn (failIf (payload.bytes.head? ≠ some number) (error expected) >>= g) 1) := by
  intro t h
  apply parses_of_matching
  rcases openMessage_cases payload number expected expected h with
    ⟨hempty, hrun⟩ | ⟨hne, hhead, t', hrun, hd⟩ |
    ⟨hne, hhead, t', hrun, hat⟩
  · have hhead : payload.bytes.head? ≠ some number := by simp [hempty]
    exact matching_of_error hrun (run_failIf_pos hhead) h.disciplined
  · exact matching_of_error hrun (run_failIf_pos hhead) hd
  · exact matching_of_ok hrun (run_failIf_neg (not_not.mpr hhead)) (matching_body body hat)

end Bodies

/-! ### Key exchange and authentication -/

section Plain

variable (payload : Vector .payload)

theorem simulates_readNameList :
    Simulates (At payload) (readNameList payload) (Kex.readNameList payload.bytes) := by
  intro t p h
  refine step_cursor h ?_
  refine matching_failIf h fun _ => ?_
  refine step_remaining h fun t h => ?_
  refine matching_failIf h fun hleft => ?_
  have hinside : p + uint32Bytes ≤ payload.bytes.length := by
    have := h.inside
    omega
  refine step_copyN h hinside fun length t h => ?_
  refine step_advance h hinside fun t h => ?_
  -- The second check has no test of the cursor in front of it: the first read has left the
  -- cursor inside.
  refine step_cursor h ?_
  refine step_remaining h fun t h => ?_
  refine matching_failIf h fun hlength => ?_
  have hlist : p + uint32Bytes + (decodeUint32 length).toNat ≤ payload.bytes.length := by omega
  refine step_copyBetween h hlist fun listText t h => ?_
  refine step_advance h hlist fun t h => ?_
  exact ⟨rfl, h⟩

theorem simulates_parseBoolean :
    Simulates (At payload) (parseBoolean payload) (Kex.parseBoolean payload.bytes) := by
  intro t p h
  refine step_cursor h ?_
  refine matching_failIf h fun _ => ?_
  refine step_remaining h fun t h => ?_
  refine matching_failIf h fun hleft => ?_
  have hinside : p + 1 ≤ payload.bytes.length := by omega
  refine step_index h hinside fun byte t h => ?_
  refine step_advance h hinside fun t h => ?_
  exact ⟨rfl, h⟩

theorem length_lt_one_iff {bytes : Bytes} : bytes.length < 1 ↔ bytes = [] := by
  rw [Nat.lt_one_iff, List.length_eq_zero_iff]

/-- The reserved bytes and the end of a KEXINIT message. -/
theorem simulates_reserved {α : Type} (result : α) :
    Simulates (At payload)
      (do
        let position ← cursor
        let left ← remaining payload
        failIf (left < uint32Bytes) (error "4 reserved bytes expected")
        let reserved ← copyN payload position uint32Bytes
        advance payload uint32Bytes
        failIf (decodeUint32 reserved ≠ 0) (error "Reserved bytes expected to be equal to 0")
        let position ← cursor
        failIf (payload.size ≠ position) (error "Additional bytes not expected")
        return result)
      (do
        let position ← get
        let remaining ← sizeSub payload.bytes.length position
        failIf (remaining < uint32Bytes) (error "4 reserved bytes expected")
        let reserved ← copyRange payload.bytes position uint32Bytes
        set (position + uint32Bytes)
        failIf (decodeUint32 reserved ≠ 0) (error "Reserved bytes expected to be equal to 0")
        failIf (payload.bytes.length ≠ position + uint32Bytes)
          (error "Additional bytes not expected")
        return result) := by
  intro t p h
  refine step_cursor h ?_
  refine step_remaining h fun t h => ?_
  refine matching_failIf h fun hleft => ?_
  have hinside : p + uint32Bytes ≤ payload.bytes.length := by
    have := h.inside
    omega
  refine step_copyN h hinside fun reserved t h => ?_
  refine step_advance h hinside fun t h => ?_
  refine matching_failIf h fun _ => ?_
  refine step_cursor_alone h ?_
  refine matching_failIf h fun _ => ?_
  exact ⟨rfl, h⟩

theorem parseKexinit_parses :
    Parses (parseKexinit payload) (Kex.parseKexinit payload.bytes) := by
  refine .of_two_checks length_lt_one_iff ?_
  intro t p h
  refine step_cursor h ?_
  refine step_remaining h fun t h => ?_
  refine matching_failIf h fun hleft => ?_
  have hcookie : p + Kex.cookieBytes ≤ payload.bytes.length := by
    have := h.inside
    omega
  refine step_copyN h hcookie fun cookie t h => ?_
  refine step_advance h hcookie fun t h => ?_
  have names := simulates_readNameList payload
  refine Simulates.bind names (fun _ => ?_) t _ h
  refine .bind names fun _ => ?_
  refine .bind names fun _ => ?_
  refine .bind names fun _ => ?_
  refine .bind names fun _ => ?_
  refine .bind names fun _ => ?_
  refine .bind names fun _ => ?_
  refine .bind names fun _ => ?_
  refine .bind names fun _ => ?_
  refine .bind names fun _ => ?_
  refine .bind (simulates_parseBoolean payload) fun _ => ?_
  exact simulates_reserved payload _

theorem parseEcdhReply_parses :
    Parses (parseEcdhReply payload) (Kex.parseEcdhReply payload.bytes) := by
  refine .of_two_checks length_lt_one_iff ?_
  refine .bind (simulates_readString payload) fun serverHostKey => ?_
  refine .bind (simulates_readString payload) fun serverPublicKey => ?_
  refine .bind (.failIf _) fun _ => ?_
  refine .bind (simulates_readString payload) fun signature => ?_
  refine .bind (simulates_cursor payload) fun position => ?_
  refine .bind (.failIf _) fun _ => ?_
  exact .pure _

theorem validateServiceAccept_parses :
    Parses (validateServiceAccept payload) (Auth.validateServiceAccept payload.bytes) := by
  refine .of_two_checks Iff.rfl ?_
  refine .bind (simulates_readString payload) fun serviceName => ?_
  refine .bind (.failIf _) fun _ => ?_
  refine .bind (simulates_cursor payload) fun position => ?_
  exact .failIf _

theorem parseAuthFailure_parses :
    Parses (parseAuthFailure payload) (Auth.parseAuthFailure payload.bytes) := by
  refine .of_two_checks Iff.rfl ?_
  refine .bind (simulates_readString payload) fun authenticationMethods => ?_
  intro t p h
  refine step_cursor h ?_
  refine step_remaining h fun t h => ?_
  refine matching_failIf h fun hleft => ?_
  have hinside : p + 1 ≤ payload.bytes.length := by omega
  refine step_index h hinside fun byte t h => ?_
  refine step_advance h hinside fun t h => ?_
  refine step_cursor h ?_
  refine matching_failIf h fun _ => ?_
  exact ⟨rfl, h⟩

/-- The checked reply flag, as a program on the cursor alone. -/
def checkedWantReply (bytes : Bytes) : Exec Nat UInt8 := do
  let position ← get
  let remaining ← sizeSub bytes.length position
  failIf (remaining < 1) (error "want_reply value expected")
  let wantReply ← byteAt bytes position
  set (position + 1)
  return wantReply

theorem simulates_readWantReply :
    Simulates (At payload) (readWantReply payload) (checkedWantReply payload.bytes) := by
  intro t p h
  refine step_cursor h ?_
  refine step_remaining h fun t h => ?_
  refine matching_failIf h fun hleft => ?_
  have hinside : p + 1 ≤ payload.bytes.length := by omega
  refine step_index h hinside fun wantReply t h => ?_
  refine step_advance h hinside fun t h => ?_
  exact ⟨rfl, h⟩

/-- The flag and the data behind it, with the cursor read where the machine reads it. -/
theorem parseGlobalRequest_eq (bytes : Bytes) :
    Connection.parseGlobalRequest bytes =
      evalOn (do
        failIf (bytes.head? ≠ some Message.globalRequest) (error "Expected SSH_MSG_GLOBAL_REQUEST")
        let requestName ← SshClient.readString bytes
        let wantReply ← checkedWantReply bytes
        let position ← get
        let requestData ← copyRange bytes position (bytes.length - position)
        return ⟨requestName, wantReply != 0, requestData⟩) 1 := by
  unfold checkedWantReply
  simp only [bind_assoc, pure_bind]
  rfl

theorem parseGlobalRequest_parses :
    Parses (parseGlobalRequest payload) (Connection.parseGlobalRequest payload.bytes) := by
  rw [parseGlobalRequest_eq]
  refine .of_check ?_
  refine .bind (simulates_readString payload) fun requestName => ?_
  refine .bind (simulates_readWantReply payload) fun wantReply => ?_
  intro t p h
  refine step_cursor h ?_
  refine step_copyRest h fun requestData t h => ?_
  exact ⟨rfl, h⟩

end Plain

/-! ### The two vectors of the signature -/

section Verification

/-- The checked halves. -/
def checkedHostKeyBlob (serverHostKey negotiatedHostKeyAlgorithm : Bytes) :
    Exec Nat (Bytes × Fixed 32) := do
  let algorithmName ← SshClient.readString serverHostKey
  failIf (algorithmName ≠ negotiatedHostKeyAlgorithm ∨ algorithmName ≠ ascii "ssh-ed25519")
    (error "Algorithm is not the negotiated ssh-ed25519.")
  let publicKey ← SshClient.readString serverHostKey
  failIf (publicKey.length ≠ 32) (error "Ed25519 public key must be 32 bytes")
  let position ← get
  failIf (position ≠ serverHostKey.length) (error "Unexpected bytes in Ed25519 host key")
  return (algorithmName, Fixed.copy 32 publicKey)

def checkedSignatureBlob (signature negotiatedHostKeyAlgorithm algorithmName : Bytes)
    (publicKey : Fixed 32) : Exec Nat Ed25519VerificationData := do
  let algorithmSigName ← SshClient.readString signature
  failIf (algorithmName ≠ negotiatedHostKeyAlgorithm ∨ algorithmSigName ≠ ascii "ssh-ed25519")
    (error "Algorithm is not the negotiated ssh-ed25519.")
  let signatureBytes ← SshClient.readString signature
  failIf (signatureBytes.length ≠ 64) (error "Ed25519 signature must be 64 bytes")
  let position ← get
  failIf (position ≠ signature.length) (error "Unexpected bytes in Ed25519 signature")
  return { publicKey := publicKey, signature := Fixed.copy 64 signatureBytes }

theorem parseEd25519VerificationData_eq (reply : EcdhReply) (negotiatedHostKeyAlgorithm : Bytes) :
    Kex.parseEd25519VerificationData reply negotiatedHostKeyAlgorithm =
      evalOn (checkedHostKeyBlob reply.serverHostKey negotiatedHostKeyAlgorithm) 0 >>= fun names =>
        evalOn (checkedSignatureBlob reply.signature negotiatedHostKeyAlgorithm names.1 names.2)
          0 := rfl

/-- A vector that is read from its start. -/
theorem matching_from_start {name : Buffer} (bytes : Vector name) {α : Type} {t : Trail}
    {f : Unit → Exec Trail α} {y : Exec Nat α} (h : Fresh name t)
    (body : Simulates (At bytes) (f ()) y) :
    MatchingResult (At bytes) ((place bytes 0 >>= f).run t) (y.run 0) := by
  obtain ⟨t', hplace, hat⟩ := h.place bytes (q := 0) (Nat.zero_le _)
  rw [EStateM.run_bind, hplace]
  exact body t' 0 hat

theorem matching_hostKeyBlob (serverHostKey : Vector .serverHostKey)
    (negotiatedHostKeyAlgorithm : Bytes) {t : Trail} (h : Fresh .serverHostKey t) :
    MatchingResult (At serverHostKey)
      ((parseHostKeyBlob serverHostKey negotiatedHostKeyAlgorithm).run t)
      ((checkedHostKeyBlob serverHostKey.bytes negotiatedHostKeyAlgorithm).run 0) := by
  refine matching_from_start serverHostKey h ?_
  refine .bind (simulates_readString serverHostKey) fun algorithmName => ?_
  refine .bind (.failIf _) fun _ => ?_
  refine .bind (simulates_readString serverHostKey) fun publicKey => ?_
  refine .bind (.failIf _) fun _ => ?_
  refine .bind (simulates_cursor serverHostKey) fun position => ?_
  refine .bind (.failIf _) fun _ => ?_
  exact .pure _

theorem matching_signatureBlob (signature : Vector .signature)
    (negotiatedHostKeyAlgorithm algorithmName : Bytes) (publicKey : Fixed 32) {t : Trail}
    (h : Fresh .signature t) :
    MatchingResult (At signature)
      ((parseSignatureBlob signature negotiatedHostKeyAlgorithm algorithmName publicKey).run t)
      ((checkedSignatureBlob signature.bytes negotiatedHostKeyAlgorithm algorithmName
        publicKey).run 0) := by
  refine matching_from_start signature h ?_
  refine .bind (simulates_readString signature) fun algorithmSigName => ?_
  refine .bind (.failIf _) fun _ => ?_
  refine .bind (simulates_readString signature) fun signatureBytes => ?_
  refine .bind (.failIf _) fun _ => ?_
  refine .bind (simulates_cursor signature) fun position => ?_
  refine .bind (.failIf _) fun _ => ?_
  exact .pure _

/-- A value that both programs have, followed by a program with a known value. -/
theorem parses_bind {σ τ α β : Type} {R : σ → τ → Prop} {P : σ → Prop} {x : Exec σ α}
    {y : Exec τ α} {f : α → Exec σ β} {g : α → Except Stop β} {s : σ} {t : τ}
    (h : MatchingResult R (x.run s) (y.run t)) (stop : ∀ s t, R s t → P s)
    (next : ∀ a s t, R s t → evalOn (f a) s = g a ∧ P (outcome ((f a).run s))) :
    evalOn (x >>= f) s = (evalOn y t >>= g) ∧ P (outcome ((x >>= f).run s)) := by
  unfold evalOn
  rw [EStateM.run_bind]
  cases hx : x.run s <;> cases hy : y.run t <;> rw [hx, hy] at h
  · obtain ⟨rfl, hrelated⟩ := h
    exact next _ _ _ hrelated
  · exact h.elim
  · exact h.elim
  · obtain ⟨rfl, hrelated⟩ := h
    exact ⟨rfl, stop _ _ hrelated⟩

theorem parseEd25519VerificationData_parses (serverHostKey : Vector .serverHostKey)
    (signature : Vector .signature) (serverPublicKey : Fixed 32)
    (negotiatedHostKeyAlgorithm : Bytes) :
    Parses (parseEd25519VerificationData serverHostKey signature negotiatedHostKeyAlgorithm)
      (Kex.parseEd25519VerificationData
        ⟨serverHostKey.bytes, serverPublicKey, signature.bytes⟩ negotiatedHostKeyAlgorithm) := by
  intro t h
  have hhost : Fresh .serverHostKey t := fresh_next h.disciplined h.upTo (by decide)
  rw [parseEd25519VerificationData_eq]
  refine parses_bind (P := fun t => Disciplined t.log)
    (matching_hostKeyBlob serverHostKey negotiatedHostKeyAlgorithm hhost)
    (fun _ _ hat => hat.disciplined) ?_
  intro names t p hat
  have hsignature : Fresh .signature t := fresh_next hat.disciplined hat.upTo (by decide)
  have hmatching := matching_signatureBlob signature negotiatedHostKeyAlgorithm names.1 names.2
    hsignature
  exact parses_of_matching (hmatching.mono fun _ _ hat => hat.disciplined)

end Verification

/-! ### The parsers of the channel -/

/-- Everything so far is in order, and the channels are equal. -/
def InOrderChannel (s : Trail × Channel) (c : Channel) : Prop := Disciplined s.1.log ∧ s.2 = c

def ParsesOn {α : Type} (x : Exec (Trail × Channel) α) (y : Exec Channel α) : Prop :=
  ∀ t channel, Fresh .payload t →
    MatchingResult InOrderChannel (x.run (t, channel)) (y.run channel)

/-- The cursors are at the same place, and the channels are equal. -/
def AtChannel (payload : Vector .payload) (s : Trail × Channel) (u : Nat × Channel) : Prop :=
  At payload s.1 u.1 ∧ s.2 = u.2

section ChannelBodies

variable {payload : Vector .payload} {number : UInt8} {expected : String} {α : Type}

theorem simulates_onLocal {x : Exec Trail α} {y : Exec Nat α} (h : Simulates (At payload) x y) :
    Simulates (AtChannel payload) (onLocal x) (onLocal y) :=
  h.focus (fun _ _ related => related.1) (fun _ _ _ _ related hat => ⟨hat, related.2⟩)

theorem simulates_modify (f : Channel → Channel) :
    Simulates (AtChannel payload) (onOuter (modify f) : Exec (Trail × Channel) PUnit)
      (onOuter (modify f)) := by
  intro s u related
  exact ⟨rfl, related.1, congrArg f related.2⟩

/-- The number of a channel message, and the body with a cursor of its own. -/
theorem matching_channel {f : Unit → Exec (Trail × Channel) α} {y : Exec (Nat × Channel) α}
    {t : Trail} {channel : Channel} (h : Fresh .payload t)
    (body : Simulates (AtChannel payload) (f ()) y) :
    MatchingResult InOrderChannel
      ((openChannelMessage payload number expected >>= f).run (t, channel))
      ((failIf (payload.bytes.head? ≠ some number) (error expected) >>= fun _ =>
        withLocal 1 y).run channel) := by
  unfold openChannelMessage
  rcases openMessage_cases payload number expected expected h with ⟨hempty, hrun⟩ |
    ⟨hne, hhead, t', hrun, hd⟩ | ⟨hne, hhead, t', hrun, hat⟩
  · have hhead : payload.bytes.head? ≠ some number := by simp [hempty]
    exact matching_of_error (run_onLocal_error hrun) (run_failIf_pos hhead) ⟨h.disciplined, rfl⟩
  · exact matching_of_error (run_onLocal_error hrun) (run_failIf_pos hhead) ⟨hd, rfl⟩
  · refine matching_of_ok (run_onLocal_ok hrun) (run_failIf_neg (not_not.mpr hhead)) ?_
    apply matching_withLocal
    have hsame := body (t', channel) (1, channel) ⟨hat, rfl⟩
    exact hsame.mono fun _ _ related => ⟨related.1.disciplined, related.2⟩

end ChannelBodies

section Channels

variable (payload : Vector .payload)

theorem simulates_uint32 : Simulates (AtChannel payload) (onLocal (readUint32 payload))
    (onLocal (SshClient.readUint32 payload.bytes)) :=
  simulates_onLocal (simulates_readUint32 payload)

theorem simulates_string : Simulates (AtChannel payload) (onLocal (readString payload))
    (onLocal (SshClient.readString payload.bytes)) :=
  simulates_onLocal (simulates_readString payload)

theorem simulates_position :
    Simulates (AtChannel payload) (onLocal cursor) (onLocal get) :=
  simulates_onLocal (simulates_cursor payload)

theorem onLocal_sizeSub (a b : Nat) :
    (onLocal (sizeSub a b) : Exec (Nat × Channel) Nat) = sizeSub a b := by
  unfold sizeSub
  split <;> rfl

theorem onLocal_byteAt (bytes : Bytes) (i : Nat) :
    (onLocal (byteAt bytes i) : Exec (Nat × Channel) UInt8) = byteAt bytes i := by
  unfold byteAt
  cases bytes[i]? <;> rfl

/-- The reply flag of a channel request. The checked parser reads it on the whole state. -/
theorem simulates_wantReply {α : Type} {f : UInt8 → Exec (Trail × Channel) α}
    {g : UInt8 → Exec (Nat × Channel) α}
    (next : ∀ wantReply, Simulates (AtChannel payload) (f wantReply) (g wantReply)) :
    Simulates (AtChannel payload) (onLocal (readWantReply payload) >>= f)
      (do
        let position ← onLocal get
        let remaining ← sizeSub payload.bytes.length position
        failIf (remaining < 1) (error "want_reply value expected")
        let wantReply ← byteAt payload.bytes position
        onLocal (set (position + 1))
        g wantReply) := by
  have hflag : Simulates (AtChannel payload) (onLocal (readWantReply payload) >>= f)
      (onLocal (checkedWantReply payload.bytes) >>= g) :=
    .bind (simulates_onLocal (simulates_readWantReply payload)) next
  simpa only [checkedWantReply, onLocal_bind, onLocal_sizeSub, onLocal_failIf, onLocal_byteAt,
    onLocal_pure, bind_assoc, pure_bind] using hflag

theorem parseOpenConfirmation_parses :
    ParsesOn (parseOpenConfirmation payload) (Connection.parseOpenConfirmation payload.bytes) := by
  intro t channel h
  refine matching_of_ok rfl rfl ?_
  refine matching_failIf ⟨h.disciplined, rfl⟩ fun _ => ?_
  refine matching_channel h ?_
  refine .bind (simulates_uint32 payload) fun recipientChannel => ?_
  refine .bind (simulates_uint32 payload) fun senderChannel => ?_
  refine .bind (simulates_uint32 payload) fun remoteWindow => ?_
  refine .bind (simulates_uint32 payload) fun remoteMaxPacket => ?_
  refine .bind (.failIf _) fun _ => ?_
  refine .bind (.failIf _) fun _ => ?_
  refine .bind (simulates_position payload) fun position => ?_
  refine .bind (.failIf _) fun _ => ?_
  exact simulates_modify _

theorem parseOpenFailure_parses :
    ParsesOn (parseOpenFailure payload) (Connection.parseOpenFailure payload.bytes) := by
  intro t channel h
  refine matching_of_ok rfl rfl ?_
  refine matching_failIf ⟨h.disciplined, rfl⟩ fun _ => ?_
  refine matching_channel h ?_
  refine .bind (simulates_uint32 payload) fun recipientChannel => ?_
  refine .bind (simulates_uint32 payload) fun reasonCode => ?_
  refine .bind (simulates_string payload) fun description => ?_
  refine .bind (simulates_string payload) fun language => ?_
  refine .bind (simulates_position payload) fun position => ?_
  refine .bind (.failIf _) fun _ => ?_
  refine .bind (.failIf _) fun _ => ?_
  exact .pure _

theorem validateChannelReply_parses (number : UInt8) (expected : String) :
    ParsesOn (validateChannelReply number expected payload)
      (Connection.validateChannelReply number expected payload.bytes) := by
  intro t channel h
  refine matching_of_ok rfl rfl ?_
  refine matching_channel h ?_
  refine .bind (simulates_uint32 payload) fun recipientChannel => ?_
  refine .bind (.failIf _) fun _ => ?_
  refine .bind (simulates_position payload) fun position => ?_
  exact .failIf _

theorem parseWindowAdjust_parses :
    ParsesOn (parseWindowAdjust payload) (Connection.parseWindowAdjust payload.bytes) := by
  intro t channel h
  refine matching_of_ok rfl rfl ?_
  refine matching_failIf ⟨h.disciplined, rfl⟩ fun _ => ?_
  refine matching_channel h ?_
  refine .bind (simulates_uint32 payload) fun recipientChannel => ?_
  refine .bind (simulates_uint32 payload) fun bytesToAdd => ?_
  refine .bind (.failIf _) fun _ => ?_
  refine .bind (simulates_position payload) fun position => ?_
  refine .bind (.failIf _) fun _ => ?_
  refine .bind (.failIf _) fun _ => ?_
  refine .bind (.failIf _) fun _ => ?_
  exact simulates_modify _

theorem parseChannelData_parses :
    ParsesOn (parseChannelData payload) (Connection.parseChannelData payload.bytes) := by
  intro t channel h
  refine matching_of_ok rfl rfl ?_
  refine matching_failIf ⟨h.disciplined, rfl⟩ fun _ => ?_
  refine matching_channel h ?_
  refine .bind (simulates_uint32 payload) fun recipientChannel => ?_
  refine .bind (.failIf _) fun _ => ?_
  refine .bind (simulates_string payload) fun data => ?_
  refine .bind (simulates_position payload) fun position => ?_
  refine .bind (.failIf _) fun _ => ?_
  refine .bind (.failIf _) fun _ => ?_
  refine .bind (.failIf _) fun _ => ?_
  refine .bind (simulates_modify _) fun _ => ?_
  exact .pure _

theorem parseChannelExtendedData_parses :
    ParsesOn (parseChannelExtendedData payload)
      (Connection.parseChannelExtendedData payload.bytes) := by
  intro t channel h
  refine matching_of_ok rfl rfl ?_
  refine matching_failIf ⟨h.disciplined, rfl⟩ fun _ => ?_
  refine matching_channel h ?_
  refine .bind (simulates_uint32 payload) fun recipientChannel => ?_
  refine .bind (.failIf _) fun _ => ?_
  refine .bind (simulates_uint32 payload) fun dataTypeCode => ?_
  refine .bind (.failIf _) fun _ => ?_
  refine .bind (simulates_string payload) fun data => ?_
  refine .bind (simulates_position payload) fun position => ?_
  refine .bind (.failIf _) fun _ => ?_
  refine .bind (.failIf _) fun _ => ?_
  refine .bind (.failIf _) fun _ => ?_
  refine .bind (simulates_modify _) fun _ => ?_
  exact .pure _

theorem parseChannelEof_parses :
    ParsesOn (parseChannelEof payload) (Connection.parseChannelEof payload.bytes) := by
  intro t channel h
  refine matching_of_ok rfl rfl ?_
  refine matching_failIf ⟨h.disciplined, rfl⟩ fun _ => ?_
  refine matching_failIf ⟨h.disciplined, rfl⟩ fun _ => ?_
  refine matching_channel h ?_
  refine .bind (simulates_uint32 payload) fun recipientChannel => ?_
  refine .bind (.failIf _) fun _ => ?_
  refine .bind (simulates_position payload) fun position => ?_
  refine .bind (.failIf _) fun _ => ?_
  exact simulates_modify _

theorem parseExitStatus_parses :
    ParsesOn (parseExitStatus payload) (Connection.parseExitStatus payload.bytes) := by
  intro t channel h
  refine matching_of_ok rfl rfl ?_
  refine matching_failIf ⟨h.disciplined, rfl⟩ fun _ => ?_
  refine matching_failIf ⟨h.disciplined, rfl⟩ fun _ => ?_
  refine matching_channel h ?_
  refine .bind (simulates_uint32 payload) fun recipientChannel => ?_
  refine .bind (.failIf _) fun _ => ?_
  refine .bind (simulates_string payload) fun requestName => ?_
  refine .bind (.failIf _) fun _ => ?_
  refine simulates_wantReply payload fun wantReply => ?_
  refine .bind (simulates_uint32 payload) fun exitStatus => ?_
  refine .bind (simulates_position payload) fun position => ?_
  refine .bind (.failIf _) fun _ => ?_
  refine .bind (simulates_modify _) fun _ => ?_
  refine .bind (simulates_modify _) fun _ => ?_
  exact .pure _

theorem parseChannelClose_parses :
    ParsesOn (parseChannelClose payload) (Connection.parseChannelClose payload.bytes) := by
  intro t channel h
  refine matching_of_ok rfl rfl ?_
  refine matching_failIf ⟨h.disciplined, rfl⟩ fun _ => ?_
  refine matching_failIf ⟨h.disciplined, rfl⟩ fun _ => ?_
  refine matching_channel h ?_
  refine .bind (simulates_uint32 payload) fun recipientChannel => ?_
  refine .bind (.failIf _) fun _ => ?_
  refine .bind (simulates_position payload) fun position => ?_
  refine .bind (.failIf _) fun _ => ?_
  exact simulates_modify _

end Channels

/-! ### Every parser -/

/-- The log of a call, however it ends. -/
def logOf {α : Type} (x : Exec Trail α) : List Entry := (outcome (x.run {})).log

/-- The log of a call with a channel, however it ends. -/
def channelLogOf {α : Type} (x : Exec (Trail × Channel) α) (channel : Channel) : List Entry :=
  (outcome (x.run ({}, channel))).1.log

theorem Parses.disciplined {α : Type} {x : Exec Trail α} {y : Except Stop α} (h : Parses x y) :
    Disciplined (logOf x) :=
  (h {} (fresh_nil .payload)).2

theorem ParsesOn.disciplined {α : Type} {x : Exec (Trail × Channel) α} {y : Exec Channel α}
    (h : ParsesOn x y) (channel : Channel) : Disciplined (channelLogOf x channel) := by
  have hsame := h {} channel (fresh_nil .payload)
  unfold channelLogOf
  cases hx : x.run ({}, channel) <;> cases hy : y.run channel <;> rw [hx, hy] at hsame
  · exact hsame.2.1
  · exact hsame.elim
  · exact hsame.elim
  · exact hsame.2.1

/-- Whatever a payload holds, no parser lets a size wrap, looks at or copies a byte outside
its vector, or moves its cursor back. -/
theorem parsers_memory_discipline (payload : Vector .payload)
    (serverHostKey : Vector .serverHostKey) (signature : Vector .signature)
    (negotiatedHostKeyAlgorithm : Bytes) (channel : Channel) :
    Disciplined (logOf (parseKexinit payload)) ∧
    Disciplined (logOf (parseEcdhReply payload)) ∧
    Disciplined (logOf
      (parseEd25519VerificationData serverHostKey signature negotiatedHostKeyAlgorithm)) ∧
    Disciplined (logOf (validateServiceAccept payload)) ∧
    Disciplined (logOf (parseAuthFailure payload)) ∧
    Disciplined (channelLogOf (parseOpenConfirmation payload) channel) ∧
    Disciplined (channelLogOf (parseOpenFailure payload) channel) ∧
    Disciplined (logOf (parseGlobalRequest payload)) ∧
    Disciplined (channelLogOf (validateChannelSuccess payload) channel) ∧
    Disciplined (channelLogOf (validateChannelFailure payload) channel) ∧
    Disciplined (channelLogOf (parseWindowAdjust payload) channel) ∧
    Disciplined (channelLogOf (parseChannelData payload) channel) ∧
    Disciplined (channelLogOf (parseChannelExtendedData payload) channel) ∧
    Disciplined (channelLogOf (parseChannelEof payload) channel) ∧
    Disciplined (channelLogOf (parseExitStatus payload) channel) ∧
    Disciplined (channelLogOf (parseChannelClose payload) channel) := by
  refine ⟨(parseKexinit_parses payload).disciplined, (parseEcdhReply_parses payload).disciplined,
    (parseEd25519VerificationData_parses serverHostKey signature (Fixed.zero 32)
      negotiatedHostKeyAlgorithm).disciplined,
    (validateServiceAccept_parses payload).disciplined,
    (parseAuthFailure_parses payload).disciplined,
    (parseOpenConfirmation_parses payload).disciplined channel,
    (parseOpenFailure_parses payload).disciplined channel,
    (parseGlobalRequest_parses payload).disciplined,
    (validateChannelReply_parses payload _ _).disciplined channel,
    (validateChannelReply_parses payload _ _).disciplined channel,
    (parseWindowAdjust_parses payload).disciplined channel,
    (parseChannelData_parses payload).disciplined channel,
    (parseChannelExtendedData_parses payload).disciplined channel,
    (parseChannelEof_parses payload).disciplined channel,
    (parseExitStatus_parses payload).disciplined channel,
    (parseChannelClose_parses payload).disciplined channel⟩

end SshClient.Memory

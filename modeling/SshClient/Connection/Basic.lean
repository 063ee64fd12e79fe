import SshClient.Common.Encoding
import SshClient.Common.Messages

/-!
# Connection-layer messages of one channel

`create*` functions build a payload from a channel they do not change. `parse*`
functions are programs on the channel itself: their throws happen at the place where
the client throws, with whatever has been assigned by then, so that atomicity of a
rejected message is a statement about them. The cursor of a parser is a local
variable and starts behind the message number.
-/

namespace SshClient

open Control

/-- Mutable state for one SSH connection-layer channel. -/
structure Channel where
  localId : UInt32 := 0
  remoteId : UInt32 := 0
  localWindow : UInt32 := 0
  remoteWindow : UInt32 := 0
  localMaxPacket : UInt32 := 0
  remoteMaxPacket : UInt32 := 0
  isOpen : Bool := false
  remoteEofReceived : Bool := false
  remoteCloseReceived : Bool := false
  localCloseSent : Bool := false
  exitStatusReceived : Bool := false
  exitStatus : UInt32 := 0
  deriving DecidableEq, Repr

/-- Details supplied when the server rejects a channel-open request. -/
structure ChannelOpenFailure where
  reasonCode : UInt32
  description : Bytes
  language : Bytes
  deriving DecidableEq, Repr

/-- Parsed SSH_MSG_GLOBAL_REQUEST data. -/
structure GlobalRequest where
  requestName : Bytes
  wantReply : Bool
  requestData : Bytes
  deriving DecidableEq, Repr

/-- Exit status reported by the remote process. -/
structure ChannelExitStatus where
  exitStatus : UInt32
  wantReply : Bool
  deriving DecidableEq, Repr

/-- Extended channel data, normally the standard error stream of the remote process. -/
structure ChannelExtendedData where
  dataType : UInt32
  data : Bytes
  deriving DecidableEq, Repr

namespace Connection

def minMaxPacketSize : UInt32 := 32768

/-- `std::numeric_limits<uint32_t>::max()`. -/
def uint32Max : UInt32 := 4294967295

/-- The size of the window is checked before anything is announced to the server. -/
def createSessionOpen (channel : Channel) : Except Stop Bytes := do
  failIf channel.isOpen (error "Channel already opened")
  failIf (channel.localWindow = 0) (error "No channel data could be received")
  failIf (channel.localMaxPacket < minMaxPacketSize)
    (error "No channel-data packet could be accepted")
  let payload ← appendString [Message.channelOpen] (ascii "session")
  return payload ++ encodeUint32 channel.localId ++ encodeUint32 channel.localWindow ++
    encodeUint32 channel.localMaxPacket

/-- The channel takes over the state of the server only behind the last check. -/
def parseOpenConfirmation (payload : Bytes) : Exec Channel Unit := do
  let channel ← get
  failIf channel.isOpen (error "Channel already open")
  failIf (payload.head? ≠ some Message.channelOpenConfirmation)
    (error "Expected SSH_MSG_CHANNEL_OPEN_CONFIRMATION")
  withLocal 1 do
    let recipientChannel ← onLocal (readUint32 payload)
    let senderChannel ← onLocal (readUint32 payload)
    let remoteWindow ← onLocal (readUint32 payload)
    let remoteMaxPacket ← onLocal (readUint32 payload)
    failIf (channel.localId ≠ recipientChannel) (error "Not the correct recipient channel")
    failIf (remoteMaxPacket < minMaxPacketSize) (error "No channel-data packet can be sent")
    let position ← onLocal get
    failIf (position ≠ payload.length) (error "Payload contains more bytes than expected")
    onOuter <| modify fun channel => { channel with
      remoteId := senderChannel
      remoteWindow := remoteWindow
      remoteMaxPacket := remoteMaxPacket
      isOpen := true }

/-- The recipient is compared last, behind the end of the payload. -/
def parseOpenFailure (payload : Bytes) : Exec Channel ChannelOpenFailure := do
  let channel ← get
  failIf channel.isOpen (error "Open failure received for an already-open channel")
  failIf (payload.head? ≠ some Message.channelOpenFailure)
    (error "Expected SSH_MSG_CHANNEL_OPEN_FAILURE")
  withLocal 1 do
    let recipientChannel ← onLocal (readUint32 payload)
    let reasonCode ← onLocal (readUint32 payload)
    let description ← onLocal (readString payload)
    let language ← onLocal (readString payload)
    let position ← onLocal get
    failIf (position ≠ payload.length) (error "Payload contains more bytes than expected")
    failIf (recipientChannel ≠ channel.localId) (error "Not the correct recipient channel")
    return ⟨reasonCode, description, language⟩

/-- The request data is everything behind the reply flag. -/
def parseGlobalRequest (payload : Bytes) : Except Stop GlobalRequest :=
  evalOn (do
    failIf (payload.head? ≠ some Message.globalRequest) (error "Expected SSH_MSG_GLOBAL_REQUEST")
    let requestName ← readString payload
    let position ← get
    let remaining ← sizeSub payload.length position
    failIf (remaining < 1) (error "want_reply value expected")
    let wantReply ← byteAt payload position
    set (position + 1)
    let requestData ← copyRange payload (position + 1) (payload.length - (position + 1))
    return ⟨requestName, wantReply != 0, requestData⟩) 1

def createRequestFailure : Bytes := [Message.requestFailure]

def createExecRequest (channel : Channel) (command : Bytes) : Except Stop Bytes := do
  failIf (channel.isOpen = false) (error "Channel must be open")
  failIf (command = []) (error "Command must not be empty")
  let payload := [Message.channelRequest] ++ encodeUint32 channel.remoteId
  let payload ← appendString payload (ascii "exec")
  appendString (payload ++ [1]) command

/-- The two replies to a channel request differ in their number and its name. -/
def validateChannelReply (number : UInt8) (expected : String) (payload : Bytes) :
    Exec Channel Unit := do
  let channel ← get
  failIf (payload.head? ≠ some number) (error expected)
  withLocal 1 do
    let recipientChannel ← onLocal (readUint32 payload)
    failIf (recipientChannel ≠ channel.localId) (error "Channel ids did not match")
    let position ← onLocal get
    failIf (position ≠ payload.length) (error "Payload contains more bytes than expected")

def validateChannelSuccess : Bytes → Exec Channel Unit :=
  validateChannelReply Message.channelSuccess "Expected SSH_MSG_CHANNEL_SUCCESS"

def validateChannelFailure : Bytes → Exec Channel Unit :=
  validateChannelReply Message.channelFailure "Expected SSH_MSG_CHANNEL_FAILURE"

/-- An increase that would wrap the window of the server is refused. -/
def parseWindowAdjust (payload : Bytes) : Exec Channel Unit := do
  let channel ← get
  failIf (!channel.isOpen) (error "Window adjustment received for a closed channel")
  failIf (payload.head? ≠ some Message.channelWindowAdjust)
    (error "Expected SSH_MSG_CHANNEL_WINDOW_ADJUST")
  withLocal 1 do
    let recipientChannel ← onLocal (readUint32 payload)
    let bytesToAdd ← onLocal (readUint32 payload)
    failIf (recipientChannel ≠ channel.localId) (error "Channel ids did not match")
    let position ← onLocal get
    failIf (position ≠ payload.length) (error "Payload contains more bytes than expected")
    failIf (bytesToAdd = 0) (error "Channel window adjustment must be greater than zero")
    failIf (channel.remoteWindow > uint32Max - bytesToAdd) (error "Remote channel window overflow")
    onOuter <| modify fun channel =>
      { channel with remoteWindow := channel.remoteWindow + bytesToAdd }

/-- `local_window -= data.size()` on a 32-bit field. -/
def consumeLocalWindow (data : Bytes) : Exec Channel Unit :=
  modify fun channel =>
    { channel with localWindow := channel.localWindow - UInt32.ofNat data.length }

/-- Data is taken from the local window that was advertised, once it has passed both
limits. -/
def parseChannelData (payload : Bytes) : Exec Channel Bytes := do
  let channel ← get
  failIf (!channel.isOpen) (error "Channel data received for a closed channel")
  failIf (payload.head? ≠ some Message.channelData) (error "Expected SSH_MSG_CHANNEL_DATA")
  withLocal 1 do
    let recipientChannel ← onLocal (readUint32 payload)
    failIf (recipientChannel ≠ channel.localId) (error "Channel ids did not match")
    let data ← onLocal (readString payload)
    let position ← onLocal get
    failIf (position ≠ payload.length) (error "Payload contains more bytes than expected")
    failIf (data.length > channel.localMaxPacket.toNat)
      (error "Channel data exceeds local maximum packet size")
    failIf (data.length > channel.localWindow.toNat)
      (error "Data received exceeds maximum allowed size")
    onOuter (consumeLocalWindow data)
    return data

/-- The flag that is checked here is not looked at by the parsers of data. -/
def parseChannelEof (payload : Bytes) : Exec Channel Unit := do
  let channel ← get
  failIf (!channel.isOpen) (error "Channel data received for a closed channel")
  failIf channel.remoteEofReceived (error "EOF already received")
  failIf (payload.head? ≠ some Message.channelEof) (error "Expected SSH_MSG_CHANNEL_EOF")
  withLocal 1 do
    let recipientChannel ← onLocal (readUint32 payload)
    failIf (recipientChannel ≠ channel.localId) (error "Channel ids did not match")
    let position ← onLocal get
    failIf (position ≠ payload.length) (error "No more bytes were expected")
    onOuter <| modify fun channel => { channel with remoteEofReceived := true }

/-- Every other channel request is refused by its name. The reply flag is returned as it
is read. -/
def parseExitStatus (payload : Bytes) : Exec Channel ChannelExitStatus := do
  let channel ← get
  failIf (!channel.isOpen) (error "Exit status received for a closed channel")
  failIf channel.exitStatusReceived (error "Exit status already received")
  failIf (payload.head? ≠ some Message.channelRequest) (error "Expected SSH_MSG_CHANNEL_REQUEST")
  withLocal 1 do
    let recipientChannel ← onLocal (readUint32 payload)
    failIf (recipientChannel ≠ channel.localId) (error "Channel ids did not match")
    let requestName ← onLocal (readString payload)
    failIf (requestName ≠ ascii "exit-status") (error "Expected exit-status request")
    let position ← onLocal get
    let remaining ← sizeSub payload.length position
    failIf (remaining < 1) (error "want_reply value expected")
    let wantReply ← byteAt payload position
    onLocal (set (position + 1))
    let exitStatus ← onLocal (readUint32 payload)
    let position ← onLocal get
    failIf (position ≠ payload.length) (error "Payload contains more bytes than expected")
    onOuter <| modify fun channel => { channel with exitStatus := exitStatus }
    onOuter <| modify fun channel => { channel with exitStatusReceived := true }
    return ⟨exitStatus, wantReply != 0⟩

def parseChannelClose (payload : Bytes) : Exec Channel Unit := do
  let channel ← get
  failIf (!channel.isOpen) (error "Close request received for a closed channel")
  failIf channel.remoteCloseReceived (error "Channel close already received")
  failIf (payload.head? ≠ some Message.channelClose) (error "Expected SSH_MSG_CHANNEL_CLOSE")
  withLocal 1 do
    let recipientChannel ← onLocal (readUint32 payload)
    failIf (recipientChannel ≠ channel.localId) (error "Channel ids did not match")
    let position ← onLocal get
    failIf (position ≠ payload.length) (error "Payload contains more bytes than expected")
    onOuter <| modify fun channel => { channel with remoteCloseReceived := true }

def createChannelClose (channel : Channel) : Except Stop Bytes := do
  failIf (!channel.isOpen) (error "Channel already closed")
  failIf channel.localCloseSent (error "SSH_MSG_CHANNEL_CLOSE already been sent")
  return [Message.channelClose] ++ encodeUint32 channel.remoteId

def parseChannelExtendedData (payload : Bytes) : Exec Channel ChannelExtendedData := do
  let channel ← get
  failIf (!channel.isOpen) (error "Extended data received for a closed channel")
  failIf (payload.head? ≠ some Message.channelExtendedData) (error "Expected SSH_MSG_EXTENDED_DATA")
  withLocal 1 do
    let recipientChannel ← onLocal (readUint32 payload)
    failIf (recipientChannel ≠ channel.localId) (error "Channel ids did not match")
    let dataTypeCode ← onLocal (readUint32 payload)
    failIf (dataTypeCode ≠ 1) (error "Unexpected data type code received")
    let data ← onLocal (readString payload)
    let position ← onLocal get
    failIf (position ≠ payload.length) (error "Payload contains more bytes than expected")
    failIf (data.length > channel.localMaxPacket.toNat)
      (error "Channel data exceeds local maximum packet size")
    failIf (data.length > channel.localWindow.toNat)
      (error "Data received exceeds maximum allowed size")
    onOuter (consumeLocalWindow data)
    return ⟨dataTypeCode, data⟩

/-- Grants the server more capacity. The channel is not changed here. -/
def createWindowAdjust (channel : Channel) (bytesToAdd : UInt32) : Except Stop Bytes := do
  failIf (!channel.isOpen) (error "Channel already closed")
  failIf (bytesToAdd = 0) (error "Must add a positive number of bytes")
  let payload := [Message.channelWindowAdjust] ++ encodeUint32 channel.remoteId
  failIf (channel.localWindow > uint32Max - bytesToAdd) (error "Local channel window overflow")
  return payload ++ encodeUint32 bytesToAdd

def createPtyRequest (channel : Channel) (terminalType : Bytes) (columns rows : UInt32) :
    Except Stop Bytes := do
  failIf (!channel.isOpen) (error "Channel already closed")
  failIf (terminalType = []) (error "Must provide a non-empty terminal_type")
  failIf (columns = 0 ∨ rows = 0) (error "Columns and rows must be non-zero values")
  let payload := [Message.channelRequest] ++ encodeUint32 channel.remoteId
  let payload ← appendString payload (ascii "pty-req")
  let payload ← appendString (payload ++ [1]) terminalType
  -- Pixel dimensions are sent as zero, and the mode list is its terminator alone.
  let payload := payload ++ encodeUint32 columns ++ encodeUint32 rows ++ encodeUint32 0 ++
    encodeUint32 0
  appendString payload [0]

def createShellRequest (channel : Channel) : Except Stop Bytes := do
  failIf (!channel.isOpen) (error "Channel is already closed")
  let payload := [Message.channelRequest] ++ encodeUint32 channel.remoteId
  let payload ← appendString payload (ascii "shell")
  return payload ++ [1]

/-- Data that fits the window and the largest packet of the server, checked in this order. -/
def createChannelData (channel : Channel) (data : Bytes) : Except Stop Bytes := do
  failIf (!channel.isOpen) (error "Channel is already closed")
  failIf channel.localCloseSent (error "Request to close channel sent")
  failIf (data = []) (error "No data to be sent")
  failIf (data.length > channel.remoteWindow.toNat)
    (error "Remote channel doesn't have enough capacity")
  failIf (data.length > channel.remoteMaxPacket.toNat) (error "Packet is too large to be sent")
  let payload := [Message.channelData] ++ encodeUint32 channel.remoteId
  appendString payload data

end Connection

end SshClient

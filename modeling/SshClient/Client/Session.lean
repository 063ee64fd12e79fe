import SshClient.Client.World
import SshClient.Transport.Basic

/-!
# The session channel and the interactive shell

The loops of the connection layer. Each has a body that reads the condition of its loop
first, and `iterate` repeats it. The number of rounds comes from what is still to be
read, a packet or a poll result, of which every round takes one.

The iteration of `runInteractiveShell` has two halves, one for the keyboard and one for
the socket. A loop head is recorded each time the condition of the loop is read.
-/

namespace SshClient.Client

open Control Transport

def localWindowTarget : UInt32 := 1048576
def localWindowThreshold : UInt32 := 524288
def localMaxPacketSize : UInt32 := 32768
def initialChannelId : UInt32 := 0
def keyboardBufferSize : Nat := 1024

variable (crypto : Crypto)

def handleGlobalRequest (payload : Bytes) : Exec Wire Unit := do
  let gr ← lift (Connection.parseGlobalRequest payload)
  record (.accepted payload)
  if gr.wantReply then sendPacket crypto Connection.createRequestFailure

/-! ### Opening the channel and the two requests -/

def openRound : Exec World (Unit ⊕ Unit) := do
  let w ← get
  if w.channel.isOpen then return .inr ()
  let response ← onWire (receivePacket crypto)
  failIf (response = []) (error "Packet contained 0 bytes")
  if response.head? = some Message.channelOpenConfirmation then
    onChannel (Connection.parseOpenConfirmation response)
    onWire (record (.accepted response))
  else if response.head? = some Message.channelOpenFailure then
    let _ ← onChannel (Connection.parseOpenFailure response)
    throw (error "Connection failed to open")
  else if response.head? = some Message.globalRequest then
    onWire (handleGlobalRequest crypto response)
  else throw (error "Unexpected response received during session channel opening")
  return .inl ()

/-- More rounds than the bytes that are left have packets. -/
def pendingRounds : Exec World Nat := do
  let w ← get
  return (Socket.stream w.wire.sock.reads).length + 2

def openSessionChannel : Exec World Unit := do
  let w ← get
  let payload ← lift (Connection.createSessionOpen w.channel)
  onWire (sendPacket crypto payload)
  let rounds ← pendingRounds
  iterate .fault (fun _ => openRound crypto) rounds ()

/-- The loop variable is `request_accepted`. -/
def waitRound (requestName : Bytes) (requestAccepted : Bool) : Exec World (Bool ⊕ Unit) := do
  if requestAccepted then return .inr ()
  let response ← onWire (receivePacket crypto)
  failIf (response = []) (error "Packet contained 0 bytes")
  if response.head? = some Message.channelSuccess then
    onChannel (Connection.validateChannelSuccess response)
    onWire (record (.accepted response))
    return .inl true
  else if response.head? = some Message.channelFailure then
    onChannel (Connection.validateChannelFailure response)
    throw (Stop.thrown (requestName ++ ascii " request rejected"))
  else if response.head? = some Message.globalRequest then
    onWire (handleGlobalRequest crypto response)
    return .inl false
  else if response.head? = some Message.channelWindowAdjust then
    onChannel (Connection.parseWindowAdjust response)
    onWire (record (.accepted response))
    return .inl false
  else throw (Stop.thrown (ascii "Unexpected response received while waiting for " ++ requestName))

def waitForChannelRequestResult (requestName : Bytes) : Exec World Unit := do
  let rounds ← pendingRounds
  iterate .fault (waitRound crypto requestName) rounds false

def requestPty (terminalInfo : TerminalInfo) : Exec World Unit := do
  let w ← get
  let payload ← lift (Connection.createPtyRequest w.channel terminalInfo.type terminalInfo.columns
    terminalInfo.rows)
  onWire (sendPacket crypto payload)
  waitForChannelRequestResult crypto (ascii "pty-req")

def requestShell : Exec World Unit := do
  let w ← get
  let payload ← lift (Connection.createShellRequest w.channel)
  onWire (sendPacket crypto payload)
  waitForChannelRequestResult crypto (ascii "shell")

/-! ### The interactive shell -/

/-- The keyboard half: at most one packet, no larger than the server has room for. -/
def handleKeyboard : Exec World Unit := do
  let w ← get
  let maxRead := min (min keyboardBufferSize w.channel.remoteWindow.toNat)
    w.channel.remoteMaxPacket.toNat
  let keyboardData ← readKeyboard maxRead
  if keyboardData ≠ [] then
    onWire (record (.typed w.channel keyboardData))
    let payload ← lift (Connection.createChannelData w.channel keyboardData)
    onWire (sendPacket crypto payload)
    onChannel <| modify fun channel =>
      { channel with remoteWindow := channel.remoteWindow - UInt32.ofNat keyboardData.length }

/-- The branches on the message type. The result is `consumed_local_window`. -/
def handleMessage (response : Bytes) : Exec World Bool := do
  if response.head? = some Message.channelData then
    let data ← onChannel (Connection.parseChannelData response)
    onWire (record (.accepted response))
    onWire (record (.wroteStdout data))
    return true
  else if response.head? = some Message.channelWindowAdjust then
    onChannel (Connection.parseWindowAdjust response)
    onWire (record (.accepted response))
    return false
  else if response.head? = some Message.globalRequest then
    onWire (handleGlobalRequest crypto response)
    return false
  else if response.head? = some Message.channelExtendedData then
    let extended ← onChannel (Connection.parseChannelExtendedData response)
    onWire (record (.accepted response))
    onWire (record (.wroteStderr extended.data))
    return true
  else if response.head? = some Message.channelEof then
    onChannel (Connection.parseChannelEof response)
    onWire (record (.accepted response))
    return false
  else if response.head? = some Message.channelRequest then
    let _ ← onChannel (Connection.parseExitStatus response)
    onWire (record (.accepted response))
    return false
  else if response.head? = some Message.channelClose then
    onChannel (Connection.parseChannelClose response)
    onWire (record (.accepted response))
    let w ← get
    if !w.channel.localCloseSent then
      let payload ← lift (Connection.createChannelClose w.channel)
      onWire (sendPacket crypto payload)
      onChannel <| modify fun channel => { channel with localCloseSent := true }
    return false
  else throw (error "Unexpected SSH message during interactive shell")

/-- Give the server as much room again as it started with, when little is left. -/
def refillWindow (consumedLocalWindow : Bool) : Exec World Unit := do
  let w ← get
  if consumedLocalWindow ∧ w.channel.isOpen ∧ w.channel.localWindow ≤ localWindowThreshold then
    let difference := localWindowTarget - w.channel.localWindow
    let payload ← lift (Connection.createWindowAdjust w.channel difference)
    onWire (sendPacket crypto payload)
    onChannel <| modify fun channel =>
      { channel with localWindow := channel.localWindow + difference }

/-- The socket half: one packet. -/
def handleSocket : Exec World Unit := do
  let response ← onWire (receivePacket crypto)
  failIf (response = []) (error "Received an empty SSH packet")
  let consumedLocalWindow ← handleMessage crypto response
  refillWindow crypto consumedLocalWindow
  onChannel <| modify fun channel =>
    if channel.localCloseSent && channel.remoteCloseReceived then
      { channel with isOpen := false }
    else channel

def shellRound : Exec World (Unit ⊕ Unit) := do
  let w ← get
  onWire (record (.loopHead w.channel w.wire.transport))
  if !w.channel.isOpen then return .inr ()
  match ← poll (0 < w.channel.remoteWindow) with
  | .interrupted => return .inl ()
  | .failed => throw (error "poll failed")
  | .ready keyboard socket closed =>
      if keyboard then handleKeyboard crypto
      if socket then handleSocket crypto
      let w ← get
      failIf (w.channel.isOpen ∧ closed) (error "SSH socket closed unexpectedly")
      return .inl ()

def shellLoop : Exec World Unit := do
  let w ← get
  iterate .fault (fun _ => shellRound crypto) (w.polls.length + 2) ()

def runInteractiveShell : Exec World Unit := do
  onConsole Terminal.enableRawMode
  shellLoop crypto
  onConsole Terminal.restore

/-! ### The session -/

def initialChannel : Channel where
  localId := initialChannelId
  localWindow := localWindowTarget
  localMaxPacket := localMaxPacketSize

/-- Everything before the shell loop. -/
def prepareSession (display : Display) : Exec World Unit := do
  onChannel (set initialChannel)
  openSessionChannel crypto
  requestPty crypto (Terminal.getTerminalInfo display)
  requestShell crypto

def exitReport (status : UInt32) : Bytes :=
  ascii "\nRemote exit status: " ++ ascii (toString status.toNat) ++ ascii "\n"

def reportExitStatus : Exec World Unit := do
  let w ← get
  if w.channel.exitStatusReceived then print (exitReport w.channel.exitStatus)

def runConnectionSession (display : Display) : Exec World Unit := do
  prepareSession crypto display
  runInteractiveShell crypto
  reportExitStatus

end SshClient.Client

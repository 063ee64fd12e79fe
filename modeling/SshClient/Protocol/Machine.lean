import SshClient.Control.Runs
import SshClient.Client.Session
import SshClient.Connection.Formats

/-!
# The protocol as a machine on events

An abstract client whose steps are the events of a trace. It knows at which stage of the
protocol it is, what it has to do next, the channel, and for each direction the next
sequence number and whether encryption is active. It says which event may follow which,
and nothing about how the bytes are produced.

A run of the real client leaves a trace that is a run of this machine, however it ends.
What holds in every run of the machine therefore holds in every run of the client, and
only the steps of the machine have to be looked at.
-/

namespace SshClient.Protocol

open Control Connection Client

/-- One exchange of the part of a run that has a fixed order. -/
inductive Label where
  | send (number : UInt8)
  | receive
  | accept (number : UInt8)
  deriving DecidableEq

/-- Key exchange and authentication. -/
def script : List Label :=
  [.send Message.kexinit, .receive, .accept Message.kexinit,
    .send Message.kexEcdhInit, .receive, .accept Message.kexEcdhReply,
    .send Message.newkeys, .receive, .accept Message.newkeys,
    .send Message.serviceRequest, .receive, .accept Message.serviceAccept,
    .send Message.userauthRequest, .receive, .accept Message.userauthFailure,
    .send Message.userauthRequest, .receive, .accept Message.userauthSuccess]

/-- `requesting n` has `n` channel requests to make, and `waiting n` has made one and has
`n` more. In `closing` the reply to the close of the server is on its way. -/
inductive Stage where
  | scripted (rest : List Label)
  | opening
  | requesting (count : Nat)
  | waiting (count : Nat)
  | shell
  | closing
  | closed
  | reported

/-- What has been begun and must be finished before anything else. -/
inductive Duty where
  | idle
  | judge (payload : Bytes)
  | reply
  | send (typed : Bytes)
  | deliver (data : Bytes)
  | deliverError (data : Bytes)
  | refill
  | close

structure State where
  stage : Stage
  duty : Duty := .idle
  channel : Channel := {}
  outgoing : UInt32 := 0
  incoming : UInt32 := 0
  outgoingActive : Bool := false
  incomingActive : Bool := false

namespace State

/-- The transport counts and encrypts as the state says. -/
structure Aligned (s : State) (t : Transport) : Prop where
  outgoing : t.outgoingSequence = s.outgoing
  incoming : t.incomingSequence = s.incoming
  outgoingActive : t.outgoingEncryptionActive = s.outgoingActive
  incomingActive : t.incomingEncryptionActive = s.incomingActive

/-- One more packet has been passed to the transport. -/
def counted (s : State) : State := { s with outgoing := s.outgoing + 1 }

/-- A packet has been received and is to be judged. -/
def judging (s : State) (payload : Bytes) : State :=
  { s with duty := .judge payload, incoming := s.incoming + 1 }

def windowed (s : State) : State :=
  { s with duty := if s.channel.localWindow ≤ localWindowThreshold then .refill else .idle }

end State

/-- Events of the scripted part that exchange no packet. -/
def Event.quiet : Event → Bool
  | .identified .. | .signatureVerified .. | .hostChecked .. | .answered .. | .hostAdded ..
  | .printed .. | .printedError .. => true
  | _ => false

/-- A stage of the connection layer in which packets are received. -/
def Stage.listening : Stage → Bool
  | .opening | .waiting _ | .shell => true
  | _ => false

/-- A stage in which the window of the server may grow. -/
def Stage.adjusting : Stage → Bool
  | .waiting _ | .shell => true
  | _ => false

/-- A stage in which the channel is open. -/
def Stage.active : Stage → Bool
  | .requesting _ | .waiting _ | .shell => true
  | _ => false

/-- A stage behind the close of the channel. -/
def Stage.ended : Stage → Bool
  | .closing | .closed | .reported => true
  | _ => false

/-- A stage in which the reply to the close has been sent. -/
def Stage.finished : Stage → Bool
  | .closed | .reported => true
  | _ => false

/-- A duty that arises in the shell loop only. -/
def Duty.interactive : Duty → Bool
  | .send _ | .deliver _ | .deliverError _ | .refill | .close => true
  | _ => false

def Duty.closing : Duty → Bool
  | .close => true
  | _ => false

/-- The stage after a channel request has succeeded. -/
def Stage.granted : Nat → Stage
  | 0 => .shell
  | count + 1 => .requesting (count + 1)

inductive Step : State → Event → State → Prop where
  -- Anywhere: the return of `sendPacket`.
  | sent {s : State} {payload : Bytes} (idle : s.duty = .idle) (other : s.stage ≠ .closing) :
      Step s (.sent payload) s
  -- Key exchange and authentication.
  | quiet {s : State} {e : Event} {rest : List Label} (stage : s.stage = .scripted rest)
      (he : Event.quiet e = true) : Step s e s
  | send {s : State} {t : Transport} {number : UInt8} {rest : List Label} {payload : Bytes}
      (stage : s.stage = .scripted (.send number :: rest)) (idle : s.duty = .idle)
      (aligned : s.Aligned t) (head : payload.head? = some number) :
      Step s (.sending t payload) { s.counted with
        stage := .scripted rest
        outgoingActive := s.outgoingActive || number == Message.newkeys }
  | receive {s : State} {t : Transport} {rest : List Label} {payload : Bytes}
      (stage : s.stage = .scripted (.receive :: rest)) (idle : s.duty = .idle)
      (aligned : s.Aligned t) :
      Step s (.received t payload) { s.judging payload with stage := .scripted rest }
  | accept {s : State} {number : UInt8} {rest : List Label} {payload : Bytes}
      (stage : s.stage = .scripted (.accept number :: rest)) (duty : s.duty = .judge payload)
      (head : payload.head? = some number) :
      Step s (.accepted payload) { s with
        stage := .scripted rest
        duty := .idle
        incomingActive := s.incomingActive || number == Message.newkeys }
  -- The channel and its two requests.
  | openChannel {s : State} {t : Transport} {payload : Bytes} (stage : s.stage = .scripted [])
      (idle : s.duty = .idle) (aligned : s.Aligned t)
      (head : payload.head? = some Message.channelOpen) :
      Step s (.sending t payload) { s.counted with stage := .opening, channel := initialChannel }
  | listen {s : State} {t : Transport} {payload : Bytes} (stage : s.stage.listening = true)
      (idle : s.duty = .idle) (aligned : s.Aligned t) :
      Step s (.received t payload) (s.judging payload)
  | confirmation {s : State} {sender window maxPacket : UInt32} (stage : s.stage = .opening)
      (duty : s.duty = .judge (openConfirmation s.channel.localId sender window maxPacket))
      (hmax : minMaxPacketSize ≤ maxPacket) :
      Step s (.accepted (openConfirmation s.channel.localId sender window maxPacket)) { s with
        stage := .requesting 2
        duty := .idle
        channel := { s.channel with
          remoteId := sender
          remoteWindow := window
          remoteMaxPacket := maxPacket
          isOpen := true } }
  | global {s : State} {name data : Bytes} {wantReply : UInt8} (stage : s.stage.listening = true)
      (duty : s.duty = .judge (globalRequest name wantReply data))
      (hname : name.length < 4294967296) :
      Step s (.accepted (globalRequest name wantReply data)) { s with
        duty := if wantReply != 0 then .reply else .idle }
  | reply {s : State} {t : Transport} (duty : s.duty = .reply) (aligned : s.Aligned t) :
      Step s (.sending t createRequestFailure) { s.counted with duty := .idle }
  | request {s : State} {t : Transport} {count : Nat} {payload : Bytes}
      (stage : s.stage = .requesting (count + 1)) (idle : s.duty = .idle) (aligned : s.Aligned t)
      (head : payload.head? = some Message.channelRequest) :
      Step s (.sending t payload) { s.counted with stage := .waiting count }
  | success {s : State} {count : Nat} (stage : s.stage = .waiting count)
      (duty : s.duty = .judge (recipientOnly Message.channelSuccess s.channel.localId)) :
      Step s (.accepted (recipientOnly Message.channelSuccess s.channel.localId)) { s with
        stage := Stage.granted count
        duty := .idle }
  | adjust {s : State} {n : UInt32} (stage : s.stage.adjusting = true)
      (duty : s.duty = .judge (windowAdjust s.channel.localId n)) (positive : n ≠ 0)
      (fits : s.channel.remoteWindow.toNat + n.toNat < 4294967296) :
      Step s (.accepted (windowAdjust s.channel.localId n)) { s with
        duty := .idle
        channel := { s.channel with remoteWindow := s.channel.remoteWindow + n } }
  -- The shell loop.
  | head {s : State} {t : Transport} (stage : s.stage = .shell ∨ s.stage = .closed)
      (idle : s.duty = .idle) (aligned : s.Aligned t) : Step s (.loopHead s.channel t) s
  | typed {s : State} {data : Bytes} (stage : s.stage = .shell) (idle : s.duty = .idle)
      (nonempty : data ≠ []) (buffer : data.length ≤ keyboardBufferSize)
      (window : data.length ≤ s.channel.remoteWindow.toNat)
      (maxPacket : data.length ≤ s.channel.remoteMaxPacket.toNat) :
      Step s (.typed s.channel data) { s with duty := .send data }
  | sendTyped {s : State} {t : Transport} {data : Bytes} (duty : s.duty = .send data)
      (aligned : s.Aligned t) :
      Step s (.sending t (channelData s.channel.remoteId data)) { s.counted with
        duty := .idle
        channel := { s.channel with
          remoteWindow := s.channel.remoteWindow - UInt32.ofNat data.length } }
  | data {s : State} {data : Bytes} (stage : s.stage = .shell)
      (duty : s.duty = .judge (channelData s.channel.localId data))
      (maxPacket : data.length ≤ s.channel.localMaxPacket.toNat)
      (window : data.length ≤ s.channel.localWindow.toNat) :
      Step s (.accepted (channelData s.channel.localId data)) { s with
        duty := .deliver data
        channel := { s.channel with
          localWindow := s.channel.localWindow - UInt32.ofNat data.length } }
  | wroteStdout {s : State} {data : Bytes} (duty : s.duty = .deliver data) :
      Step s (.wroteStdout data) s.windowed
  | extendedData {s : State} {data : Bytes} (stage : s.stage = .shell)
      (duty : s.duty = .judge (extendedData s.channel.localId 1 data))
      (maxPacket : data.length ≤ s.channel.localMaxPacket.toNat)
      (window : data.length ≤ s.channel.localWindow.toNat) :
      Step s (.accepted (extendedData s.channel.localId 1 data)) { s with
        duty := .deliverError data
        channel := { s.channel with
          localWindow := s.channel.localWindow - UInt32.ofNat data.length } }
  | wroteStderr {s : State} {data : Bytes} (duty : s.duty = .deliverError data) :
      Step s (.wroteStderr data) s.windowed
  | refill {s : State} {t : Transport} {difference : UInt32} (duty : s.duty = .refill)
      (aligned : s.Aligned t)
      (hdifference : difference = localWindowTarget - s.channel.localWindow) :
      Step s (.sending t (windowAdjust s.channel.remoteId difference)) { s.counted with
        duty := .idle
        channel := { s.channel with localWindow := s.channel.localWindow + difference } }
  | eof {s : State} (stage : s.stage = .shell)
      (duty : s.duty = .judge (recipientOnly Message.channelEof s.channel.localId))
      (first : s.channel.remoteEofReceived = false) :
      Step s (.accepted (recipientOnly Message.channelEof s.channel.localId)) { s with
        duty := .idle
        channel := { s.channel with remoteEofReceived := true } }
  | exitStatus {s : State} {wantReply : UInt8} {status : UInt32} (stage : s.stage = .shell)
      (duty : s.duty = .judge (exitStatus s.channel.localId wantReply status))
      (first : s.channel.exitStatusReceived = false) :
      Step s (.accepted (Connection.exitStatus s.channel.localId wantReply status)) { s with
        duty := .idle
        channel := { s.channel with exitStatus := status, exitStatusReceived := true } }
  | close {s : State} (stage : s.stage = .shell)
      (duty : s.duty = .judge (recipientOnly Message.channelClose s.channel.localId))
      (first : s.channel.remoteCloseReceived = false) :
      Step s (.accepted (recipientOnly Message.channelClose s.channel.localId)) { s with
        duty := .close
        channel := { s.channel with remoteCloseReceived := true } }
  | sendClose {s : State} {t : Transport} (duty : s.duty = .close) (aligned : s.Aligned t) :
      Step s (.sending t (recipientOnly Message.channelClose s.channel.remoteId)) { s.counted with
        stage := .closing
        duty := .idle
        channel := { s.channel with localCloseSent := true, isOpen := false } }
  | sentClose {s : State} (stage : s.stage = .closing) (idle : s.duty = .idle) :
      Step s (.sent (recipientOnly Message.channelClose s.channel.remoteId))
        { s with stage := .closed }
  | report {s : State} (stage : s.stage = .closed) (idle : s.duty = .idle)
      (received : s.channel.exitStatusReceived = true) :
      Step s (.printed (exitReport s.channel.exitStatus)) { s with stage := .reported }

/-- The flags of the channel are those of the stage. -/
structure Sound (s : State) : Prop where
  isOpen : s.channel.isOpen = s.stage.active
  localCloseSent : s.channel.localCloseSent = s.stage.ended
  remoteCloseReceived : s.channel.remoteCloseReceived = (s.stage.ended || s.duty.closing)
  interactive : s.duty.interactive = true → s.stage = .shell
  ended : s.stage.ended = true → s.duty = .idle

@[simp] theorem Stage.active_granted (count : Nat) : (Stage.granted count).active = true := by
  cases count <;> rfl

@[simp] theorem Stage.ended_granted (count : Nat) : (Stage.granted count).ended = false := by
  cases count <;> rfl

theorem Stage.ended_of_listening {stage : Stage} (h : stage.listening = true) :
    stage.ended = false := by
  cases stage <;> first | rfl | cases h

theorem Sound.windowed {s : State} (h : Sound s) (stage : s.stage = .shell)
    (hclosing : s.duty.closing = false) : Sound s.windowed := by
  obtain ⟨hopen, hlocal, hremote, -, -⟩ := h
  unfold State.windowed
  split <;> constructor <;> simp_all [Duty.closing, Stage.ended]

theorem Step.sound {s s' : State} {e : Event} (step : Step s e s') (h : Sound s) : Sound s' := by
  have hwindowed := h.windowed
  obtain ⟨hopen, hlocal, hremote, hinteractive, hover⟩ := h
  cases step with
  | sent | quiet | head => exact ⟨hopen, hlocal, hremote, hinteractive, hover⟩
  | wroteStdout duty | wroteStderr duty =>
      rw [duty] at hinteractive hwindowed
      exact hwindowed (hinteractive rfl) rfl
  | global => constructor <;> split <;> simp_all [Duty.closing, Duty.interactive]
  | listen listening =>
      have hnot := Stage.ended_of_listening listening
      constructor <;> simp_all [State.judging, Duty.closing, Duty.interactive]
  | openChannel =>
      constructor <;> simp_all [State.counted, initialChannel, Stage.active, Stage.ended,
        Duty.closing, Duty.interactive]
  | success stage duty =>
      constructor <;> simp_all [Duty.closing, Duty.interactive]
      all_goals rfl
  | refill duty aligned hdifference =>
      clear hdifference
      constructor <;> simp_all [State.counted, Duty.closing, Duty.interactive]
  | _ =>
      constructor <;> simp_all [State.counted, State.judging, Stage.active, Stage.ended,
        Duty.closing, Duty.interactive]

/-! ### What a duty leaves to do -/

section Next

variable {s s' : State} {e : Event} (step : Step s e s')

include step

theorem Step.of_judge {payload : Bytes} (duty : s.duty = .judge payload)
    (listening : s.stage.listening = true) : e = .accepted payload := by
  cases step with
  | quiet stage =>
      rw [stage] at listening
      cases listening
  | _ => simp_all

theorem Step.of_reply (duty : s.duty = .reply) (listening : s.stage.listening = true) :
    ∃ t, e = .sending t createRequestFailure ∧ s' = { s.counted with duty := .idle } := by
  cases step with
  | quiet stage =>
      rw [stage] at listening
      cases listening
  | reply => exact ⟨_, rfl, rfl⟩
  | _ => simp_all

theorem Step.of_send {typed : Bytes} (duty : s.duty = .send typed) (stage : s.stage = .shell) :
    ∃ t, e = .sending t (channelData s.channel.remoteId typed) := by
  cases step <;> simp_all

theorem Step.of_refill (duty : s.duty = .refill) (stage : s.stage = .shell) :
    ∃ t, e = .sending t (windowAdjust s.channel.remoteId
      (localWindowTarget - s.channel.localWindow)) := by
  cases step <;> simp_all

theorem Step.of_close (duty : s.duty = .close) (stage : s.stage = .shell) :
    ∃ t, e = .sending t (recipientOnly Message.channelClose s.channel.remoteId) ∧
      s'.stage = .closing := by
  cases step <;> simp_all

end Next

end SshClient.Protocol

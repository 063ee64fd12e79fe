import SshClient.Client.Identification
import SshClient.Client.Target
import SshClient.Protocol.Program
import SshClient.Protocol.Streams
import SshClient.Transport.Supply

/-!
# Sessions that go through

What is proved of every run says what a client must not do, and a client that gives up at
once does nothing wrong. The other half is that this one serves its purpose: against a
server that keeps to the protocol it goes all the way. The server is described by what it
sends, and by a ledger of what the two windows allow it to send.
-/

namespace SshClient.Program

open Control Client Connection Transport Protocol

/-! ### The server -/

/-- What a server sends while a shell is running. -/
inductive ServerMessage where
  | data (bytes : Bytes)
  | extendedData (bytes : Bytes)
  | windowAdjust (count : UInt32)
  | globalRequest (name : Bytes) (wantReply : UInt8) (content : Bytes)
  | eof
  | exitStatus (wantReply : UInt8) (status : UInt32)

namespace ServerMessage

def payload (recipient : UInt32) : ServerMessage → Bytes
  | .data bytes => Connection.channelData recipient bytes
  | .extendedData bytes => Connection.extendedData recipient 1 bytes
  | .windowAdjust count => Connection.windowAdjust recipient count
  | .globalRequest name wantReply content => Connection.globalRequest name wantReply content
  | .eof => recipientOnly Message.channelEof recipient
  | .exitStatus wantReply status => Connection.exitStatus recipient wantReply status

/-- The output that a message carries. -/
def output : Stream → ServerMessage → Bytes
  | .stdout, .data bytes => bytes
  | .stderr, .extendedData bytes => bytes
  | _, _ => []

/-- The messages that take room from the window of the client. -/
def consumes : ServerMessage → Bool
  | .data _ | .extendedData _ => true
  | _ => false

/-- The messages that may come while the client waits for its channel. -/
def duringOpening : ServerMessage → Bool
  | .globalRequest .. => true
  | _ => false

/-- The messages that may come while the client waits for the reply to a request. -/
def duringRequest : ServerMessage → Bool
  | .globalRequest .. | .windowAdjust _ => true
  | _ => false

end ServerMessage

/-- What a server keeps count of: the room that the client has for its output, all that it has
allowed the client to send, and what may be sent only once. -/
structure Ledger where
  room : Nat
  granted : Nat
  eof : Bool := false
  exited : Option UInt32 := none

namespace Ledger

def permits (ledger : Ledger) : ServerMessage → Prop
  | .data bytes | .extendedData bytes =>
      bytes.length ≤ localMaxPacketSize.toNat ∧ bytes.length ≤ ledger.room
  | .windowAdjust count => count ≠ 0 ∧ ledger.granted + count.toNat < 4294967296
  | .globalRequest name _ _ => name.length < 4294967296
  | .eof => ledger.eof = false
  | .exitStatus _ _ => ledger.exited = none

def entered (ledger : Ledger) : ServerMessage → Ledger
  | .data bytes | .extendedData bytes => { ledger with room := ledger.room - bytes.length }
  | .windowAdjust count => { ledger with granted := ledger.granted + count.toNat }
  | .globalRequest .. => ledger
  | .eof => { ledger with eof := true }
  | .exitStatus _ status => { ledger with exited := some status }

/-- The client makes room again when little is left. -/
def refilled (ledger : Ledger) : Ledger :=
  if ledger.room ≤ localWindowThreshold.toNat then { ledger with room := localWindowTarget.toNat }
  else ledger

def after (ledger : Ledger) (message : ServerMessage) : Ledger :=
  if message.consumes then (ledger.entered message).refilled else ledger.entered message

/-- Messages each of which is allowed when its turn comes. -/
def Permits : Ledger → List ServerMessage → Prop
  | _, [] => True
  | ledger, message :: messages => ledger.permits message ∧ (ledger.after message).Permits messages

/-- The ledger behind these messages. -/
def close (ledger : Ledger) (messages : List ServerMessage) : Ledger := messages.foldl after ledger

theorem permits_append {ledger : Ledger} {messages later : List ServerMessage} :
    ledger.Permits (messages ++ later) ↔
      ledger.Permits messages ∧ (ledger.close messages).Permits later := by
  induction messages generalizing ledger with
  | nil => exact ⟨fun h => ⟨trivial, h⟩, fun h => h.2⟩
  | cons message messages ih =>
      simp only [List.cons_append, Permits, ih, and_assoc]
      rfl

end Ledger

/-- The channel of the client is as the ledger has it. What has been typed is no concern of
the ledger, which only knows what might have been. -/
structure Agrees (ledger : Ledger) (c : Channel) : Prop where
  isOpen : c.isOpen = true
  localId : c.localId = initialChannelId
  localMaxPacket : c.localMaxPacket = localMaxPacketSize
  room : c.localWindow.toNat = ledger.room
  remoteMaxPacket : minMaxPacketSize ≤ c.remoteMaxPacket
  granted : c.remoteWindow.toNat ≤ ledger.granted
  eof : c.remoteEofReceived = ledger.eof
  exitStatusReceived : c.exitStatusReceived = ledger.exited.isSome
  exitStatus : ∀ status, ledger.exited = some status → c.exitStatus = status
  localCloseSent : c.localCloseSent = false
  remoteCloseReceived : c.remoteCloseReceived = false

/-! ### Rules for the parts of the world -/

section Rules

variable {α β : Type} {w : World} {post : α → World → Prop}

/-- A parser that accepts. -/
theorem succeeds_onChannel {x : Exec Channel β} {b : β} {c : Channel} {f : β → Exec World α}
    (run : x.run w.channel = .ok b c) (h : Succeeds (f b) { w with channel := c } post) :
    Succeeds (onChannel x >>= f) w post :=
  WP.bind_iff.mpr (wp_onChannel.mpr (Succeeds.of_run run h))

theorem succeeds_onWire {x : Exec Wire β} {mid : β → Wire → Prop} {f : β → Exec World α}
    (h : Succeeds x w.wire mid)
    (next : ∀ b wire, mid b wire → Succeeds (f b) { w with wire := wire } post) :
    Succeeds (onWire x >>= f) w post :=
  WP.bind_iff.mpr (wp_onWire.mpr (h.consequence next))

theorem succeeds_note {event : Event} {f : Unit → Exec World α}
    (h : Succeeds (f ()) { w with wire := { w.wire with trace := w.wire.trace ++ [event] } } post) :
    Succeeds (onWire (record event) >>= f) w post :=
  WP.bind_iff.mpr (wp_onWire.mpr h)

end Rules

/-! ### Output -/

/-- What has been written to the two outputs between two states of the trace. -/
structure Shows (before after : List Event) (out err : Bytes) : Prop where
  stdout : sink .stdout after = sink .stdout before ++ out
  stderr : sink .stderr after = sink .stderr before ++ err

section Output

variable {l l' l'' : List Event} {out err out' err' : Bytes}

theorem Shows.trans (h : Shows l l' out err) (h' : Shows l' l'' out' err') :
    Shows l l'' (out ++ out') (err ++ err') := by
  constructor
  · rw [h'.stdout, h.stdout, List.append_assoc]
  · rw [h'.stderr, h.stderr, List.append_assoc]

theorem shows_nothing (l : List Event) : Shows l l [] [] :=
  ⟨(List.append_nil _).symm, (List.append_nil _).symm⟩

/-- Events that write to neither output. -/
def Hidden (events : List Event) : Prop :=
  ∀ e ∈ events, Event.sink .stdout e = [] ∧ Event.sink .stderr e = []

theorem shows_append {events : List Event} (hidden : Hidden events) :
    Shows l (l ++ events) [] [] := by
  have hnone : ∀ stream, (∀ e ∈ events, Event.sink stream e = []) → sink stream events = [] := by
    intro stream h
    exact List.flatMap_eq_nil_iff.mpr h
  constructor
  · rw [sink_append, hnone .stdout fun e he => (hidden e he).1]
  · rw [sink_append, hnone .stderr fun e he => (hidden e he).2]

theorem shows_sending {payload : Bytes} {w t : Wire} (h : Sending payload w t true) :
    Shows w.trace t.trace [] [] := by
  rw [h.trace]
  refine shows_append ?_
  intro e he
  simp only [if_true, List.mem_cons, List.not_mem_nil, or_false] at he
  rcases he with rfl | rfl <;> exact ⟨rfl, rfl⟩

theorem shows_received {payload : Bytes} {w t : Wire} (h : Transport.Received payload w t) :
    Shows w.trace t.trace [] [] := by
  rw [h.trace]
  refine shows_append ?_
  intro e he
  rw [List.mem_singleton.mp he]
  exact ⟨rfl, rfl⟩

theorem shows_note (l : List Event) {event : Event} (h : Event.sink .stdout event = [])
    (h' : Event.sink .stderr event = []) : Shows l (l ++ [event]) [] [] := by
  refine shows_append ?_
  intro e he
  rw [List.mem_singleton.mp he]
  exact ⟨h, h'⟩

theorem shows_stdout (l : List Event) (bytes : Bytes) :
    Shows l (l ++ [.wroteStdout bytes]) bytes [] := by
  constructor
  · rw [sink_append, sink_singleton]
    rfl
  · rw [sink_append, sink_singleton]
    rfl

theorem shows_stderr (l : List Event) (bytes : Bytes) :
    Shows l (l ++ [.wroteStderr bytes]) [] bytes := by
  constructor
  · rw [sink_append, sink_singleton]
    rfl
  · rw [sink_append, sink_singleton]
    rfl

end Output

/-! ### One message -/

section Message

variable {crypto : Crypto} {keystream : Fixed 32 → Fixed 16 → Nat → UInt8}
variable {payloads : List Bytes} {last : Line} {rest : Bytes} {ledger : Ledger} {w : World}

theorem sendable_of_length {payload : Bytes} (h : 0 < payload.length)
    (h' : payload.length ≤ 34983) :
    sendable payload := ⟨List.ne_nil_of_length_pos h, h'⟩

theorem succeeds_handleGlobalRequest (working : Working crypto keystream) {w : Wire}
    {name content : Bytes}
    {wantReply : UInt8} (hname : name.length < 4294967296)
    (h : Supplied crypto keystream payloads last rest w) :
    Succeeds (handleGlobalRequest crypto (globalRequest name wantReply content)) w fun _ t =>
      Supplied crypto keystream payloads last rest t ∧ Shows w.trace t.trace [] [] := by
  refine .bind_lift (parseGlobalRequest_globalRequest hname) ?_
  have hnoted :
      Shows w.trace (w.trace ++ [.accepted (globalRequest name wantReply content)]) [] [] :=
    shows_append (by simp [Hidden, Event.sink])
  have hsupplied : Supplied crypto keystream payloads last rest
      { w with trace := w.trace ++ [.accepted (globalRequest name wantReply content)] } :=
    h.of_same rfl rfl
  refine WP.bind_iff.mpr (wp_record.mpr
    (WP.ite_iff.mpr ⟨fun _ => ?_, fun _ => ⟨hsupplied, hnoted⟩⟩))
  refine (succeeds_sendPacket working
    ⟨by simp [createRequestFailure], by simp [createRequestFailure]⟩
    hsupplied).consequence ?_
  rintro _ t ⟨sending, ht⟩
  exact ⟨ht, hnoted.trans (shows_sending sending)⟩

/-- A message that is handled within the channel. -/
def Handled (crypto : Crypto) (keystream : Fixed 32 → Fixed 16 → Nat → UInt8)
    (payloads : List Bytes) (last : Line) (rest : Bytes) (ledger : Ledger) (out err : Bytes)
    (w t : World) : Prop :=
  ∃ wire channel, t = { w with wire := wire, channel := channel } ∧
    Supplied crypto keystream payloads last rest wire ∧ Agrees ledger channel ∧
    Shows w.wire.trace wire.trace out err

theorem succeeds_handleMessage (working : Working crypto keystream)
    (agrees : Agrees ledger w.channel)
    (message : ServerMessage) (permitted : ledger.permits message)
    (h : Supplied crypto keystream payloads last rest w.wire) :
    Succeeds (handleMessage crypto (message.payload w.channel.localId)) w fun consumed t =>
      consumed = message.consumes ∧
        Handled crypto keystream payloads last rest (ledger.entered message)
          (message.output .stdout) (message.output .stderr) w t := by
  cases message with
  | data bytes =>
      have hhead : ((ServerMessage.data bytes).payload w.channel.localId).head? =
          some Message.channelData := rfl
      have hwindow : bytes.length ≤ w.channel.localWindow.toNat := by
        rw [agrees.room]
        exact permitted.2
      have hrun := parseChannelData_channelData agrees.isOpen
        (by rw [agrees.localMaxPacket]; exact permitted.1) hwindow
      rw [handleMessage, if_pos hhead]
      refine succeeds_onChannel hrun (succeeds_note (succeeds_note (WP.pure_iff.mpr ?_)))
      refine ⟨rfl, _, _, rfl, h.of_same rfl rfl, { agrees with room := ?_ }, ?_⟩
      · rw [toNat_sub_length hwindow, agrees.room]
        rfl
      · exact (shows_note _ rfl rfl).trans (shows_stdout _ bytes)
  | extendedData bytes =>
      have hhead : ((ServerMessage.extendedData bytes).payload w.channel.localId).head? =
          some Message.channelExtendedData := rfl
      have hwindow : bytes.length ≤ w.channel.localWindow.toNat := by
        rw [agrees.room]
        exact permitted.2
      have hrun := parseChannelExtendedData_extendedData agrees.isOpen
        (by rw [agrees.localMaxPacket]; exact permitted.1) hwindow
      simp +decide only [handleMessage, hhead, Option.some.injEq, if_true, if_false]
      refine succeeds_onChannel hrun (succeeds_note (succeeds_note (WP.pure_iff.mpr ?_)))
      refine ⟨rfl, _, _, rfl, h.of_same rfl rfl, { agrees with room := ?_ }, ?_⟩
      · rw [toNat_sub_length hwindow, agrees.room]
        rfl
      · exact (shows_note _ rfl rfl).trans (shows_stderr _ bytes)
  | windowAdjust count =>
      have hhead : ((ServerMessage.windowAdjust count).payload w.channel.localId).head? =
          some Message.channelWindowAdjust := rfl
      have hfits : w.channel.remoteWindow.toNat + count.toNat < 4294967296 :=
        Nat.lt_of_le_of_lt (Nat.add_le_add_right agrees.granted _) permitted.2
      have hrun := parseWindowAdjust_windowAdjust agrees.isOpen permitted.1 hfits
      simp +decide only [handleMessage, hhead, Option.some.injEq, if_true, if_false]
      refine succeeds_onChannel hrun (succeeds_note (WP.pure_iff.mpr ?_))
      refine ⟨rfl, _, _, rfl, h.of_same rfl rfl, { agrees with granted := ?_ },
        shows_note _ rfl rfl⟩
      rw [toNat_add_of_lt hfits]
      exact Nat.add_le_add_right agrees.granted _
  | globalRequest name wantReply content =>
      have hhead : ((ServerMessage.globalRequest name wantReply content).payload
          w.channel.localId).head? =
          some Message.globalRequest := rfl
      simp +decide only [handleMessage, hhead, Option.some.injEq, if_true, if_false]
      refine succeeds_onWire (succeeds_handleGlobalRequest working permitted h) ?_
      rintro _ wire ⟨hwire, shows⟩
      exact WP.pure_iff.mpr ⟨rfl, _, _, rfl, hwire, agrees, shows⟩
  | eof =>
      have hhead : (ServerMessage.eof.payload w.channel.localId).head? =
          some Message.channelEof := rfl
      have hrun := parseChannelEof_recipientOnly agrees.isOpen (agrees.eof.trans permitted)
      simp +decide only [handleMessage, hhead, Option.some.injEq, if_true, if_false]
      refine succeeds_onChannel hrun (succeeds_note (WP.pure_iff.mpr ?_))
      exact ⟨rfl, _, _, rfl, h.of_same rfl rfl, { agrees with eof := rfl }, shows_note _ rfl rfl⟩
  | exitStatus wantReply status =>
      have hhead : ((ServerMessage.exitStatus wantReply status).payload w.channel.localId).head? =
          some Message.channelRequest := rfl
      have hnone : w.channel.exitStatusReceived = false := by
        rw [agrees.exitStatusReceived, permitted]
        rfl
      have hrun := @parseExitStatus_exitStatus w.channel wantReply status agrees.isOpen hnone
      simp +decide only [handleMessage, hhead, Option.some.injEq, if_true, if_false]
      refine succeeds_onChannel hrun (succeeds_note (WP.pure_iff.mpr ?_))
      refine ⟨rfl, _, _, rfl, h.of_same rfl rfl,
        { agrees with exitStatusReceived := rfl, exitStatus := ?_ }, shows_note _ rfl rfl⟩
      intro status' hstatus
      exact Option.some.inj hstatus

/-- The window is filled up to its target, and nothing wraps. -/
theorem toNat_refill {window : UInt32} (h : window ≤ localWindowThreshold) :
    (localWindowTarget - window).toNat = localWindowTarget.toNat - window.toNat ∧
      window.toNat < localWindowTarget.toNat := by
  have hlow : window.toNat ≤ 524288 := UInt32.le_iff_toNat_le.mp h
  have htarget : localWindowTarget.toNat = 1048576 := rfl
  constructor
  · rw [UInt32.toNat_sub_of_le]
    rw [UInt32.le_iff_toNat_le, htarget]
    omega
  · omega

theorem succeeds_refillWindow (working : Working crypto keystream)
    (agrees : Agrees ledger w.channel)
    (consumed : Bool) (h : Supplied crypto keystream payloads last rest w.wire) :
    Succeeds (refillWindow crypto consumed) w fun _ t =>
      Handled crypto keystream payloads last rest (if consumed then ledger.refilled else ledger)
        [] [] w t := by
  refine Succeeds.bind_get (WP.ite_iff.mpr ⟨?_, ?_⟩)
  · rintro ⟨hconsumed, -, hlow⟩
    obtain ⟨hdifference, hless⟩ := toNat_refill hlow
    have htarget : localWindowTarget.toNat = 1048576 := rfl
    have hne : localWindowTarget - w.channel.localWindow ≠ 0 := by
      intro hzero
      rw [hzero] at hdifference
      have : (0 : UInt32).toNat = 0 := rfl
      omega
    have hfits : w.channel.localWindow.toNat +
        (localWindowTarget - w.channel.localWindow).toNat < 4294967296 := by omega
    refine Succeeds.bind_lift (createWindowAdjust_ok.mpr ⟨agrees.isOpen, hne, hfits, rfl⟩) ?_
    have hsize : sendable (windowAdjust w.channel.remoteId
        (localWindowTarget - w.channel.localWindow)) := by
      constructor <;> simp [windowAdjust]
    refine succeeds_onWire (succeeds_sendPacket working hsize h) ?_
    rintro _ wire ⟨sending, hwire⟩
    refine wp_onChannel.mpr (WP.modify_iff.mpr ?_)
    have hroom : ledger.room ≤ localWindowThreshold.toNat := by
      rw [← agrees.room]
      exact UInt32.le_iff_toNat_le.mp hlow
    rw [if_pos hconsumed, Ledger.refilled, if_pos hroom]
    refine ⟨_, _, rfl, hwire, { agrees with room := ?_ }, shows_sending sending⟩
    rw [toNat_add_of_lt hfits, hdifference]
    exact Nat.add_sub_cancel' (Nat.le_of_lt hless)
  · intro hnot
    have hsame : (if consumed = true then ledger.refilled else ledger) = ledger := by
      split
      · rename_i hconsumed
        rw [Ledger.refilled, if_neg]
        intro hroom
        refine hnot ⟨hconsumed, agrees.isOpen, UInt32.le_iff_toNat_le.mpr ?_⟩
        rw [agrees.room]
        exact hroom
      · rfl
    rw [hsame]
    exact WP.pure_iff.mpr ⟨_, _, rfl, h, agrees, shows_nothing _⟩

theorem payload_ne_nil (message : ServerMessage) (recipient : UInt32) :
    message.payload recipient ≠ [] := by
  cases message <;> exact List.cons_ne_nil _ _

/-- The socket half of a round, with a message that does not end the session. -/
theorem succeeds_handleSocket (working : Working crypto keystream)
    (agrees : Agrees ledger w.channel)
    (message : ServerMessage) (permitted : ledger.permits message)
    (h : Supplied crypto keystream (message.payload initialChannelId :: payloads) last rest
      w.wire) :
    Succeeds (handleSocket crypto) w fun _ t =>
      Handled crypto keystream payloads last rest (ledger.after message)
        (message.output .stdout) (message.output .stderr) w t := by
  refine succeeds_onWire (succeeds_receivePacket working h) ?_
  rintro _ wire ⟨rfl, received, hwire⟩
  refine .bind_failIf (payload_ne_nil _ _) ?_
  rw [← agrees.localId]
  refine .bind (succeeds_handleMessage (w := { w with wire := wire }) working agrees message
    permitted hwire) ?_
  rintro _ _ ⟨rfl, wire2, channel2, rfl, h2, agrees2, shows2⟩
  refine .bind (succeeds_refillWindow working agrees2 message.consumes h2) ?_
  rintro _ _ ⟨wire3, channel3, rfl, h3, agrees3, shows3⟩
  refine wp_onChannel.mpr (WP.modify_iff.mpr ?_)
  have hopen : (channel3.localCloseSent && channel3.remoteCloseReceived) = false := by
    rw [agrees3.localCloseSent]
    rfl
  rw [hopen]
  have hshows := ((shows_received received).trans shows2).trans shows3
  rw [List.nil_append, List.nil_append, List.append_nil, List.append_nil] at hshows
  exact ⟨wire3, channel3, rfl, h3, agrees3, hshows⟩

/-- The session is over on both sides. -/
structure Closed (ledger : Ledger) (c : Channel) : Prop where
  isOpen : c.isOpen = false
  exitStatusReceived : c.exitStatusReceived = ledger.exited.isSome
  exitStatus : ∀ status, ledger.exited = some status → c.exitStatus = status

/-- The socket half of the last round: the close of the server is answered. -/
theorem succeeds_handleSocket_close (working : Working crypto keystream)
    (agrees : Agrees ledger w.channel)
    (h : Supplied crypto keystream (recipientOnly Message.channelClose initialChannelId :: payloads)
      last rest w.wire) :
    Succeeds (handleSocket crypto) w fun _ t => ∃ wire channel,
      t = { w with wire := wire, channel := channel } ∧
      Supplied crypto keystream payloads last rest wire ∧ Closed ledger channel ∧
      Shows w.wire.trace wire.trace [] [] := by
  refine succeeds_onWire (succeeds_receivePacket working h) ?_
  rintro _ wire ⟨rfl, received, hwire⟩
  refine .bind_failIf (List.cons_ne_nil _ _) ?_
  have hhead : (recipientOnly Message.channelClose w.channel.localId).head? =
      some Message.channelClose := rfl
  have hclose : createChannelClose { w.channel with remoteCloseReceived := true } =
      .ok (Message.channelClose :: encodeUint32 w.channel.remoteId) := by
    simp [createChannelClose, agrees.isOpen, agrees.localCloseSent, failIf]
    rfl
  have hsize : sendable (Message.channelClose :: encodeUint32 w.channel.remoteId) := by
    constructor <;> simp
  rw [← agrees.localId]
  have hhandled : Succeeds
      (handleMessage crypto (recipientOnly Message.channelClose w.channel.localId))
      { w with wire := wire } fun consumed t => consumed = false ∧ ∃ wire' : Wire,
        t = { w with
          wire := wire'
          channel := { w.channel with remoteCloseReceived := true, localCloseSent := true } } ∧
        Supplied crypto keystream payloads last rest wire' ∧
        Shows wire.trace wire'.trace [] [] := by
    simp +decide only [handleMessage, hhead, Option.some.injEq, if_true, if_false]
    refine succeeds_onChannel (parseChannelClose_recipientOnly agrees.isOpen
      agrees.remoteCloseReceived) (succeeds_note ?_)
    refine Succeeds.bind_get (Succeeds.ite_pos (by simp [agrees.localCloseSent]) ?_)
    refine Succeeds.bind_lift hclose ?_
    refine succeeds_onWire (succeeds_sendPacket working hsize (hwire.of_same rfl rfl)) ?_
    rintro _ wire2 ⟨sending, h2⟩
    refine WP.bind_iff.mpr (wp_onChannel.mpr (WP.modify_iff.mpr (WP.pure_iff.mpr ?_)))
    exact ⟨rfl, wire2, rfl, h2, (shows_note _ rfl rfl).trans (shows_sending sending)⟩
  refine .bind hhandled ?_
  rintro _ _ ⟨rfl, wire2, rfl, h2, shows2⟩
  refine WP.bind_iff.mpr (Succeeds.bind_get (Succeeds.ite_neg
    (fun hconsumed => absurd hconsumed.1 Bool.false_ne_true) (WP.pure_iff.mpr ?_)))
  refine wp_onChannel.mpr (WP.modify_iff.mpr
    ⟨wire2, _, rfl, h2, ?_, (shows_received received).trans shows2⟩)
  exact ⟨rfl, agrees.exitStatusReceived, agrees.exitStatus⟩

end Message

/-! ### The shell loop -/

def PollResult.socketReady : PollResult → Bool
  | .ready _ socket _ => socket
  | _ => false

def PollResult.keyboardReady : PollResult → Bool
  | .ready keyboard _ _ => keyboard
  | _ => false

/-- Neither a failure nor a hang-up. -/
def PollResult.undisturbed : PollResult → Bool
  | .interrupted => true
  | .failed => false
  | .ready _ _ closed => !closed

/-- The socket has its turns, in whatever order with the keyboard, and the keyboard has input
whenever it is reported. -/
structure Schedule (turns : Nat) (polls : List PollResult) (keyboard : List KeyboardRead) :
    Prop where
  undisturbed : ∀ p ∈ polls, PollResult.undisturbed p = true
  turns : turns ≤ polls.countP PollResult.socketReady
  typed : polls.countP PollResult.keyboardReady ≤ keyboard.length
  readable : .failed ∉ keyboard

section Loop

variable {crypto : Crypto} {keystream : Fixed 32 → Fixed 16 → Nat → UInt8}
variable {payloads : List Bytes} {last : Line} {rest : Bytes} {ledger : Ledger} {w : World}

/-- What is left of a chunk that was not read as a whole. -/
def leftOver (chunk : Bytes) (maxRead : Nat) : List KeyboardRead :=
  if chunk.length ≤ maxRead then [] else [.returned (chunk.drop maxRead)]

theorem readKeyboard_run {chunk : Bytes} {more : List KeyboardRead}
    (h : w.keyboard = .returned chunk :: more) (maxRead : Nat) :
    (readKeyboard maxRead).run w =
      .ok (chunk.take maxRead) { w with keyboard := leftOver chunk maxRead ++ more } := by
  apply WP.run_eq
  simp only [readKeyboard, WP.bind_iff, WP.get_iff, h, leftOver]
  split
  · rename_i hshort
    exact ⟨(List.take_of_length_le hshort).symm, rfl⟩
  · exact ⟨rfl, rfl⟩

/-- The keyboard half of a round. -/
theorem succeeds_handleKeyboard (working : Working crypto keystream)
    (agrees : Agrees ledger w.channel)
    {chunk : Bytes} {more : List KeyboardRead} (hkeyboard : w.keyboard = .returned chunk :: more)
    (h : Supplied crypto keystream payloads last rest w.wire) :
    Succeeds (handleKeyboard crypto) w fun _ t => ∃ wire channel maxRead,
      t = { w with
        wire := wire
        channel := channel
        keyboard := leftOver chunk maxRead ++ more } ∧
      Supplied crypto keystream payloads last rest wire ∧ Agrees ledger channel ∧
      Shows w.wire.trace wire.trace [] [] := by
  refine Succeeds.bind_get ?_
  generalize hmax : min (min keyboardBufferSize w.channel.remoteWindow.toNat)
    w.channel.remoteMaxPacket.toNat = maxRead
  have hbuffer : keyboardBufferSize = 1024 := rfl
  have hlength : (chunk.take maxRead).length ≤ maxRead := List.length_take_le _ _
  have hread : Succeeds (readKeyboard maxRead) w fun data t => data = chunk.take maxRead ∧
      t = { w with keyboard := leftOver chunk maxRead ++ more } :=
    Succeeds.of_run (readKeyboard_run hkeyboard maxRead) ⟨rfl, rfl⟩
  refine hread.bind ?_
  rintro _ _ ⟨rfl, rfl⟩
  refine WP.ite_iff.mpr ⟨fun hne => ?_, fun _ => WP.pure_iff.mpr ?_⟩
  · have hwindow : (chunk.take maxRead).length ≤ w.channel.remoteWindow.toNat := by omega
    have hpacket : (chunk.take maxRead).length ≤ w.channel.remoteMaxPacket.toNat := by omega
    have hsize : sendable (channelData w.channel.remoteId (chunk.take maxRead)) := by
      refine ⟨List.cons_ne_nil _ _, ?_⟩
      simp only [channelData, List.length_cons, List.length_append, encodeUint32_length,
        encodeString_length]
      omega
    refine succeeds_note (Succeeds.bind_lift (createChannelData_ok.mpr ⟨agrees.isOpen,
      agrees.localCloseSent, hne, hwindow, hpacket, rfl⟩) ?_)
    refine succeeds_onWire (succeeds_sendPacket working hsize (h.of_same rfl rfl)) ?_
    rintro _ wire ⟨sending, hwire⟩
    refine wp_onChannel.mpr (WP.modify_iff.mpr ⟨wire, _, maxRead, rfl, hwire,
      { agrees with granted := ?_ }, (shows_note _ rfl rfl).trans (shows_sending sending)⟩)
    rw [toNat_sub_length hwindow]
    exact Nat.le_trans (Nat.sub_le _ _) agrees.granted
  · exact ⟨w.wire, w.channel, maxRead, rfl, h, agrees, shows_nothing _⟩

end Loop

section Shell

namespace Schedule

variable {turns : Nat} {polls : List PollResult} {keyboard : List KeyboardRead}
variable {pressed socket closed : Bool}

/-- Behind a result with nothing to do for it. -/
theorem behind {p : PollResult} (h : Schedule turns (p :: polls) keyboard)
    (quiet : PollResult.socketReady p = false) : Schedule turns polls keyboard where
  undisturbed q hq := h.undisturbed q (List.mem_cons_of_mem _ hq)
  turns := by
    have hturns := h.turns
    rw [List.countP_cons_of_neg (by rw [quiet]; exact Bool.false_ne_true)] at hturns
    exact hturns
  typed := by
    have htyped := h.typed
    rw [List.countP_cons] at htyped
    omega
  readable := h.readable

/-- Behind a turn of the socket. -/
theorem behind_socket (h : Schedule (turns + 1) (.ready pressed true closed :: polls) keyboard) :
    Schedule turns polls keyboard where
  undisturbed q hq := h.undisturbed q (List.mem_cons_of_mem _ hq)
  turns := by
    have hturns := h.turns
    rw [List.countP_cons_of_pos rfl] at hturns
    omega
  typed := by
    have htyped := h.typed
    rw [List.countP_cons] at htyped
    omega
  readable := h.readable

/-- The keyboard has been left alone. -/
theorem unread (h : Schedule turns (.ready pressed socket closed :: polls) keyboard) :
    Schedule turns (.ready false socket closed :: polls) keyboard where
  undisturbed q hq := by
    rcases List.mem_cons.mp hq with rfl | hq
    · exact h.undisturbed (.ready pressed socket closed) List.mem_cons_self
    · exact h.undisturbed q (List.mem_cons_of_mem _ hq)
  turns := by
    have hturns := h.turns
    rw [List.countP_cons] at hturns ⊢
    exact hturns
  typed := by
    have htyped := h.typed
    rw [List.countP_cons] at htyped
    rw [List.countP_cons_of_neg Bool.false_ne_true]
    omega
  readable := h.readable

/-- The keyboard is read: there is something to read, and what is left is input again. -/
theorem read (h : Schedule turns (.ready true socket closed :: polls) keyboard) :
    ∃ chunk more, keyboard = .returned chunk :: more ∧
      ∀ maxRead, Schedule turns (.ready false socket closed :: polls)
        (leftOver chunk maxRead ++ more) := by
  have htyped := h.typed
  rw [List.countP_cons_of_pos rfl] at htyped
  cases keyboard with
  | nil => exact absurd htyped (Nat.not_succ_le_zero _)
  | cons first more =>
      cases first with
      | failed => exact absurd (List.mem_cons_self) h.readable
      | returned chunk =>
          refine ⟨chunk, more, rfl, fun maxRead => ?_⟩
          have hunread := h.unread
          refine ⟨hunread.undisturbed, hunread.turns, ?_, ?_⟩
          · rw [List.countP_cons_of_neg Bool.false_ne_true, List.length_append]
            rw [List.length_cons] at htyped
            omega
          · have hmore := h.readable
            rw [leftOver]
            split <;> simp_all

end Schedule

variable {crypto : Crypto} {keystream : Fixed 32 → Fixed 16 → Nat → UInt8}

/-- The output of these messages. -/
def outputs (stream : Stream) (messages : List ServerMessage) : Bytes :=
  messages.flatMap (ServerMessage.output stream)

/-- The payloads of these messages, and the close. -/
def closing (messages : List ServerMessage) : List Bytes :=
  messages.map (ServerMessage.payload initialChannelId) ++
    [recipientOnly Message.channelClose initialChannelId]

/-- Where a session is going: the ledger at its end, the two outputs, what is behind its
packets, and the console that it leaves alone meanwhile. -/
structure Course where
  final : Ledger
  stdout : Bytes
  stderr : Bytes
  last : Line
  rest : Bytes
  console : Console

/-- The shell is running, with these messages and the close to come. -/
structure Running (crypto : Crypto) (keystream : Fixed 32 → Fixed 16 → Nat → UInt8)
    (course : Course) (ledger : Ledger) (messages : List ServerMessage) (polls : List PollResult)
    (w : World) : Prop where
  agrees : Agrees ledger w.channel
  permitted : ledger.Permits messages
  final : ledger.close messages = course.final
  supplied : Supplied crypto keystream (closing messages) course.last course.rest w.wire
  schedule : Schedule (messages.length + 1) polls w.keyboard
  stdout : sink .stdout w.wire.trace ++ outputs .stdout messages = course.stdout
  stderr : sink .stderr w.wire.trace ++ outputs .stderr messages = course.stderr
  console : w.console = course.console

/-- Both sides have closed the channel. -/
structure Ended (crypto : Crypto) (keystream : Fixed 32 → Fixed 16 → Nat → UInt8)
    (course : Course) (w : World) : Prop where
  closed : Closed course.final w.channel
  supplied : Supplied crypto keystream [] course.last course.rest w.wire
  stdout : sink .stdout w.wire.trace = course.stdout
  stderr : sink .stderr w.wire.trace = course.stderr
  console : w.console = course.console

variable {course : Course} {ledger : Ledger} {messages : List ServerMessage} {w : World}

/-- A half of the round that writes nothing keeps the course. -/
theorem Running.of_shows {polls : List PollResult} {t : World}
    (h : Running crypto keystream course ledger messages polls w) {ledger' : Ledger}
    {later : List ServerMessage} {polls' : List PollResult} {out err : Bytes}
    (agrees : Agrees ledger' t.channel) (permitted : ledger'.Permits later)
    (final : ledger'.close later = ledger.close messages)
    (supplied : Supplied crypto keystream (closing later) course.last course.rest t.wire)
    (schedule : Schedule (later.length + 1) polls' t.keyboard)
    (shows : Shows w.wire.trace t.wire.trace out err)
    (stdout : outputs .stdout messages = out ++ outputs .stdout later)
    (stderr : outputs .stderr messages = err ++ outputs .stderr later)
    (console : t.console = w.console) :
    Running crypto keystream course ledger' later polls' t where
  agrees := agrees
  permitted := permitted
  final := final.trans h.final
  supplied := supplied
  schedule := schedule
  stdout := by rw [shows.stdout, List.append_assoc, ← stdout, h.stdout]
  stderr := by rw [shows.stderr, List.append_assoc, ← stderr, h.stderr]
  console := console.trans h.console

theorem Running.keyboardHalf (working : Working crypto keystream) {pressed socket closed : Bool}
    {polls : List PollResult}
    (h : Running crypto keystream course ledger messages
      (.ready pressed socket closed :: polls) w) :
    Succeeds (if pressed && 0 < w.channel.remoteWindow then handleKeyboard crypto else pure ()) w
      fun _ t => t.polls = w.polls ∧
        Running crypto keystream course ledger messages
          (.ready false socket closed :: polls) t := by
  refine WP.ite_iff.mpr ⟨fun hpressed => ?_, fun _ => WP.pure_iff.mpr ?_⟩
  · obtain ⟨rfl, -⟩ := Bool.and_eq_true_iff.mp hpressed
    obtain ⟨chunk, more, hkeyboard, hleft⟩ := h.schedule.read
    refine (succeeds_handleKeyboard working h.agrees hkeyboard h.supplied).consequence ?_
    rintro _ _ ⟨wire, channel, maxRead, rfl, hwire, hchannel, shows⟩
    exact ⟨rfl, h.of_shows hchannel h.permitted rfl hwire (hleft maxRead) shows rfl rfl rfl⟩
  · exact ⟨rfl, { h with schedule := h.schedule.unread }⟩

/-- Where a round leads. -/
def Onward (crypto : Crypto) (keystream : Fixed 32 → Fixed 16 → Nat → UInt8) (course : Course)
    (w : World) : Prop :=
  (∃ ledger messages, Running crypto keystream course ledger messages w.polls w) ∨
    Ended crypto keystream course w

theorem Running.socketHalf (working : Working crypto keystream) {socket closed : Bool}
    (h : Running crypto keystream course ledger messages
      (.ready false socket closed :: w.polls) w) :
    Succeeds (if socket then handleSocket crypto else pure ()) w fun _ t =>
      t.polls = w.polls ∧ Onward crypto keystream course t := by
  refine WP.ite_iff.mpr ⟨fun hsocket => ?_, fun hsocket => WP.pure_iff.mpr ?_⟩
  · subst hsocket
    have hsupplied := h.supplied
    cases messages with
    | nil =>
        refine (succeeds_handleSocket_close working h.agrees hsupplied).consequence ?_
        rintro _ _ ⟨wire, channel, rfl, hwire, hclosed, shows⟩
        refine ⟨rfl, .inr ⟨?_, hwire, ?_, ?_, h.console⟩⟩
        · rw [← h.final]
          exact hclosed
        · rw [shows.stdout, ← h.stdout]
          rfl
        · rw [shows.stderr, ← h.stderr]
          rfl
    | cons message later =>
        refine (succeeds_handleSocket working h.agrees message h.permitted.1
          hsupplied).consequence ?_
        rintro _ _ ⟨wire, channel, rfl, hwire, hchannel, shows⟩
        exact ⟨rfl, .inl ⟨_, later, h.of_shows hchannel h.permitted.2 rfl hwire
          h.schedule.behind_socket shows rfl rfl rfl⟩⟩
  · have hquiet : socket = false := Bool.eq_false_of_not_eq_true hsocket
    exact ⟨rfl, .inl ⟨ledger, messages, { h with schedule := h.schedule.behind hquiet }⟩⟩

/-- What `poll` reports is what is ready, unless the keyboard was not asked for. -/
def PollResult.reported (asked : Bool) : PollResult → PollResult
  | .ready keyboard socket closed => .ready (keyboard && asked) socket closed
  | result => result

theorem poll_run {p : PollResult} {polls : List PollResult} (h : w.polls = p :: polls)
    (asked : Bool) :
    (poll asked).run w = .ok (PollResult.reported asked p) { w with polls := polls } := by
  apply WP.run_eq
  simp only [poll, WP.bind_iff, WP.get_iff, h, WP.set_iff]
  cases p <;> exact ⟨rfl, rfl⟩

/-- What is left of a round when its result of `poll` is known. -/
theorem Running.ready (working : Working crypto keystream) {pressed socket closed : Bool}
    {polls : List PollResult}
    (h : Running crypto keystream course ledger messages (.ready pressed socket closed :: polls) w)
    (hpolls : w.polls = polls) :
    Succeeds (if pressed && 0 < w.channel.remoteWindow then handleKeyboard crypto else pure ()) w
      fun _ t => Succeeds (if socket then handleSocket crypto else pure ()) t
        fun _ u => u.polls = polls ∧ Onward crypto keystream course u := by
  subst hpolls
  refine (h.keyboardHalf working).consequence ?_
  rintro _ t ⟨htail, ht⟩
  rw [← htail] at ht ⊢
  exact ht.socketHalf working

/-- One round of the loop, which ends in the round behind the close. -/
theorem succeeds_shellRound (working : Working crypto keystream)
    (h : Onward crypto keystream course w) :
    Succeeds (shellRound crypto) w fun result t =>
      (result = .inl () → Onward crypto keystream course t ∧ t.polls.length < w.polls.length) ∧
        (result = .inr () → Ended crypto keystream course t) := by
  have hhead : Shows w.wire.trace (w.wire.trace ++ [.loopHead w.channel w.wire.transport]) [] [] :=
    shows_note _ rfl rfl
  refine Succeeds.bind_get (succeeds_note ?_)
  rcases h with ⟨ledger, messages, running⟩ | ended
  · have hopen : w.channel.isOpen = true := running.agrees.isOpen
    have hrunning : ∀ polls, Running crypto keystream course ledger messages w.polls { w with
        wire := { w.wire with trace := w.wire.trace ++ [.loopHead w.channel w.wire.transport] }
        polls := polls } := fun _ =>
      running.of_shows running.agrees running.permitted rfl (running.supplied.of_same rfl rfl)
        running.schedule hhead rfl rfl rfl
    refine Succeeds.ite_neg (by simp [hopen]) ?_
    cases hpolls : w.polls with
    | nil =>
        have hturns := running.schedule.turns
        rw [hpolls] at hturns
        exact absurd hturns (Nat.not_succ_le_zero _)
    | cons p polls =>
        have hcalm := running.schedule.undisturbed p (by rw [hpolls]; exact List.mem_cons_self)
        have hpolled := hrunning polls
        rw [hpolls] at hpolled
        refine Succeeds.bind_run (poll_run rfl _) ?_
        cases p with
        | failed => exact absurd hcalm Bool.false_ne_true
        | interrupted =>
            have hbehind := hpolled.schedule.behind rfl
            refine WP.pure_iff.mpr ⟨fun _ => ⟨.inl ⟨ledger, messages, ?_⟩, Nat.lt_succ_self _⟩, ?_⟩
            · exact { hpolled with schedule := hbehind }
            · exact fun hnone => absurd hnone Sum.inl_ne_inr
        | ready pressed socket closed =>
            have hready := hpolled.ready working rfl
            dsimp only [PollResult.reported]
            refine Succeeds.bind_ite hready ?_
            intro t ht
            refine Succeeds.bind_ite ht ?_
            rintro u ⟨hrest, hu⟩
            refine Succeeds.bind_get (Succeeds.bind_failIf ?_ (WP.pure_iff.mpr ?_))
            · rintro ⟨-, rfl⟩
              exact Bool.false_ne_true hcalm
            · refine ⟨fun _ => ⟨hu, ?_⟩, fun hnone => absurd hnone Sum.inl_ne_inr⟩
              rw [hrest]
              exact Nat.lt_succ_self _
  · refine Succeeds.ite_pos (by simp [ended.closed.isOpen]) (WP.pure_iff.mpr ⟨?_, fun _ => ?_⟩)
    · exact fun hnone => absurd hnone Sum.inr_ne_inl
    · refine { ended with supplied := ended.supplied.of_same rfl rfl, stdout := ?_, stderr := ?_ }
      · exact (hhead.stdout.trans (List.append_nil _)).trans ended.stdout
      · exact (hhead.stderr.trans (List.append_nil _)).trans ended.stderr

theorem succeeds_shellLoop (working : Working crypto keystream)
    (h : Running crypto keystream course ledger messages w.polls w) :
    Succeeds (shellLoop crypto) w fun _ t => Ended crypto keystream course t := by
  refine Succeeds.bind_get ?_
  refine WP.iterate (fun _ t => Onward crypto keystream course t) (fun _ t => t.polls.length) ?_
    _ _ (.inl ⟨ledger, messages, h⟩) (Nat.lt_add_of_pos_right (by decide))
  intro _ t ht
  refine (succeeds_shellRound working ht).consequence ?_
  rintro result u ⟨hon, hend⟩
  cases result with
  | inl _ => exact hon rfl
  | inr _ => exact hend rfl

end Shell

end SshClient.Program

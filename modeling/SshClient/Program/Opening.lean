import SshClient.Program.Service

/-!
# From the opening of the channel to the exit status

A server may send a global request at any time, and an adjustment of the window as soon
as there is one. The loops that wait for a reply go through these messages and end with
the reply, and the ledger is kept all the way into the shell.
-/

namespace SshClient.Program

open Control Client Connection Transport Protocol

section Waiting

variable {crypto : Crypto} {keystream : Fixed 32 → Fixed 16 → Nat → UInt8}
variable {payloads : List Bytes} {last : Line} {rest : Bytes} {ledger : Ledger} {w : World}

/-- What the loops that wait leave of the world, and what is on its way then. -/
def Passed (crypto : Crypto) (keystream : Fixed 32 → Fixed 16 → Nat → UInt8)
    (payloads : List Bytes) (last : Line) (rest : Bytes) (w t : World) : Prop :=
  ∃ wire channel, t = { w with wire := wire, channel := channel } ∧
    Supplied crypto keystream payloads last rest wire ∧ Shows w.wire.trace wire.trace [] []

theorem Passed.trans {later : List Bytes} {t u : World}
    (h : Passed crypto keystream payloads last rest w t)
    (h' : Passed crypto keystream later last rest t u) :
    Passed crypto keystream later last rest w u := by
  obtain ⟨wire, channel, rfl, -, shows⟩ := h
  obtain ⟨wire', channel', rfl, hwire', shows'⟩ := h'
  exact ⟨wire', channel', rfl, hwire', shows.trans shows'⟩

theorem Passed.supplied {t : World} (h : Passed crypto keystream payloads last rest w t) :
    Supplied crypto keystream payloads last rest t.wire := by
  obtain ⟨wire, channel, rfl, hwire, -⟩ := h
  exact hwire

theorem succeeds_openRound_global (working : Working crypto keystream)
    (hclosed : w.channel.isOpen = false) {message : ServerMessage}
    (global : message.duringOpening = true) (permitted : ledger.permits message)
    (h : Supplied crypto keystream (message.payload initialChannelId :: payloads) last rest
      w.wire) :
    Succeeds (openRound crypto) w fun r t => r = .inl () ∧ t.channel = w.channel ∧
      Passed crypto keystream payloads last rest w t := by
  cases message with
  | globalRequest name wantReply content =>
      have hhead : ((ServerMessage.globalRequest name wantReply content).payload
          initialChannelId).head? = some Message.globalRequest := rfl
      refine Succeeds.bind_get (Succeeds.ite_neg (ne_true_of_eq_false hclosed) ?_)
      refine succeeds_onWire (succeeds_receivePacket working h) ?_
      rintro _ wire ⟨rfl, received, hwire⟩
      refine Succeeds.bind_failIf (payload_ne_nil _ _) ?_
      simp +decide only [hhead, Option.some.injEq, if_true, if_false]
      refine succeeds_onWire (succeeds_handleGlobalRequest working permitted hwire) ?_
      rintro _ wire' ⟨hwire', shows⟩
      exact WP.pure_iff.mpr ⟨rfl, rfl, wire', _, rfl, hwire', (shows_received received).trans shows⟩
  | _ => exact absurd global Bool.false_ne_true

/-- The ledger of a channel that has just been opened. -/
def Ledger.opened (window : UInt32) : Ledger where
  room := localWindowTarget.toNat
  granted := window.toNat

theorem succeeds_openRound_confirmation (working : Working crypto keystream)
    (hchannel : w.channel = initialChannel) {sender window maxPacket : UInt32}
    (hmax : minMaxPacketSize ≤ maxPacket)
    (h : Supplied crypto keystream
      (openConfirmation initialChannelId sender window maxPacket :: payloads) last rest w.wire) :
    Succeeds (openRound crypto) w fun r t => r = .inl () ∧ Agrees (Ledger.opened window) t.channel ∧
      Passed crypto keystream payloads last rest w t := by
  have hhead : (openConfirmation initialChannelId sender window maxPacket).head? =
      some Message.channelOpenConfirmation := rfl
  have hclosed : w.channel.isOpen = false := by
    rw [hchannel]
    rfl
  have hlocal : w.channel.localId = initialChannelId := by
    rw [hchannel]
    rfl
  refine Succeeds.bind_get (Succeeds.ite_neg (ne_true_of_eq_false hclosed) ?_)
  refine succeeds_onWire (succeeds_receivePacket working h) ?_
  rintro _ wire ⟨rfl, received, hwire⟩
  refine Succeeds.bind_failIf (List.cons_ne_nil _ _) ?_
  rw [if_pos hhead, ← hlocal]
  refine succeeds_onChannel (parseOpenConfirmation_openConfirmation hclosed hmax) (succeeds_note ?_)
  refine WP.pure_iff.mpr ⟨rfl, ?_, _, _, rfl, hwire.of_same rfl rfl,
    (shows_received received).trans (shows_note _ rfl rfl)⟩
  rw [hchannel]
  exact {
    isOpen := rfl, localId := rfl, localMaxPacket := rfl, room := rfl, remoteMaxPacket := hmax,
    granted := Nat.le_refl _, eof := rfl, exitStatusReceived := rfl, exitStatus := nofun,
    localCloseSent := rfl, remoteCloseReceived := rfl }

theorem succeeds_openRound_opened (agrees : Agrees ledger w.channel) :
    Succeeds (openRound crypto) w fun r t => r = .inr () ∧ t = w :=
  .bind_get (.ite_pos agrees.isOpen ⟨rfl, rfl⟩)

/-- The payloads of these messages, and one behind them. -/
def ahead (messages : List ServerMessage) (payload : Bytes) (payloads : List Bytes) : List Bytes :=
  messages.map (ServerMessage.payload initialChannelId) ++ payload :: payloads

theorem sendable_sessionOpen : ∃ payload, createSessionOpen initialChannel = .ok payload ∧
    sendable payload := ⟨_, rfl, List.cons_ne_nil _ _, by decide⟩

theorem succeeds_openSessionChannel (working : Working crypto keystream)
    (hchannel : w.channel = initialChannel) {before : List ServerMessage}
    (hbefore : ∀ message ∈ before, message.duringOpening = true ∧ ledger.permits message)
    {sender window maxPacket : UInt32} (hmax : minMaxPacketSize ≤ maxPacket)
    (h : Supplied crypto keystream
      (ahead before (openConfirmation initialChannelId sender window maxPacket) payloads)
      last rest w.wire) :
    Succeeds (openSessionChannel crypto) w fun _ t => Agrees (Ledger.opened window) t.channel ∧
      Passed crypto keystream payloads last rest w t := by
  obtain ⟨payload, hpayload, hsize⟩ := sendable_sessionOpen
  rw [← hchannel] at hpayload
  refine Succeeds.bind_get (Succeeds.bind_lift hpayload ?_)
  refine succeeds_onWire (succeeds_sendPacket working hsize h) ?_
  rintro _ wire ⟨sending, hwire⟩
  refine WP.bind_iff.mpr (WP.bind_iff.mpr (WP.get_iff.mpr (WP.pure_iff.mpr ?_)))
  have hrounds := hwire.length_le
  rw [ahead, List.length_append, List.length_map, List.length_cons] at hrounds
  refine Succeeds.iterate_until
    (fun left t => t.channel = initialChannel ∧
      (∀ message ∈ left, message.duringOpening = true ∧ ledger.permits message) ∧
      Passed crypto keystream
        (ahead left (openConfirmation initialChannelId sender window maxPacket) payloads)
        last rest w t)
    (fun _ t => Agrees (Ledger.opened window) t.channel ∧
      Passed crypto keystream payloads last rest w t) ?_ ?_ ?_
    ⟨hchannel, hbefore, wire, w.channel, rfl, hwire, shows_sending sending⟩ ?_
  · rintro message left t ⟨ht, hleft, passed⟩
    obtain ⟨hglobal, hpermitted⟩ := hleft message List.mem_cons_self
    have hclosed : t.channel.isOpen = false := by
      rw [ht]
      rfl
    refine (succeeds_openRound_global working hclosed hglobal hpermitted
      passed.supplied).consequence ?_
    rintro _ u ⟨rfl, hu, passed'⟩
    exact ⟨rfl, hu.trans ht, fun other hother => hleft other (List.mem_cons_of_mem _ hother),
      passed.trans passed'⟩
  · rintro t ⟨ht, -, passed⟩
    refine (succeeds_openRound_confirmation working ht hmax passed.supplied).consequence ?_
    rintro _ u ⟨rfl, hu, passed'⟩
    exact ⟨(), rfl, hu, passed.trans passed'⟩
  · rintro _ t ⟨ht, passed⟩
    refine (succeeds_openRound_opened ht).consequence ?_
    rintro _ _ ⟨rfl, rfl⟩
    exact ⟨(), rfl, ht, passed⟩
  · change _ < (Socket.stream wire.sock.reads).length + 2
    omega

/-! ### The two requests -/

theorem succeeds_waitRound_message (working : Working crypto keystream) (requestName : Bytes)
    (agrees : Agrees ledger w.channel) {message : ServerMessage}
    (during : message.duringRequest = true) (permitted : ledger.permits message)
    (h : Supplied crypto keystream (message.payload initialChannelId :: payloads) last rest
      w.wire) :
    Succeeds (waitRound crypto requestName false) w fun r t => r = .inl false ∧
      Agrees (ledger.after message) t.channel ∧ Passed crypto keystream payloads last rest w t := by
  refine Succeeds.ite_neg Bool.false_ne_true ?_
  refine succeeds_onWire (succeeds_receivePacket working h) ?_
  rintro _ wire ⟨rfl, received, hwire⟩
  refine Succeeds.bind_failIf (payload_ne_nil _ _) ?_
  cases message with
  | globalRequest name wantReply content =>
      have hhead : ((ServerMessage.globalRequest name wantReply content).payload
          initialChannelId).head? = some Message.globalRequest := rfl
      simp +decide only [hhead, Option.some.injEq, if_true, if_false]
      refine succeeds_onWire (succeeds_handleGlobalRequest working permitted hwire) ?_
      rintro _ wire' ⟨hwire', shows⟩
      exact WP.pure_iff.mpr ⟨rfl, agrees, wire', _, rfl, hwire',
        (shows_received received).trans shows⟩
  | windowAdjust count =>
      have hhead : ((ServerMessage.windowAdjust count).payload initialChannelId).head? =
          some Message.channelWindowAdjust := rfl
      have hfits : w.channel.remoteWindow.toNat + count.toNat < 4294967296 :=
        Nat.lt_of_le_of_lt (Nat.add_le_add_right agrees.granted _) permitted.2
      simp +decide only [hhead, Option.some.injEq, if_true, if_false]
      rw [← agrees.localId]
      refine succeeds_onChannel (parseWindowAdjust_windowAdjust agrees.isOpen permitted.1 hfits)
        (succeeds_note ?_)
      refine WP.pure_iff.mpr ⟨rfl, { agrees with granted := ?_ }, _, _, rfl, hwire.of_same rfl rfl,
        (shows_received received).trans (shows_note _ rfl rfl)⟩
      rw [toNat_add_of_lt hfits]
      exact Nat.add_le_add_right agrees.granted _
  | _ => exact absurd during Bool.false_ne_true

theorem succeeds_waitRound_success (working : Working crypto keystream) (requestName : Bytes)
    (agrees : Agrees ledger w.channel)
    (h : Supplied crypto keystream
      (recipientOnly Message.channelSuccess initialChannelId :: payloads)
      last rest w.wire) :
    Succeeds (waitRound crypto requestName false) w fun r t => r = .inl true ∧
      Agrees ledger t.channel ∧ Passed crypto keystream payloads last rest w t := by
  have hhead : (recipientOnly Message.channelSuccess initialChannelId).head? =
      some Message.channelSuccess := rfl
  refine Succeeds.ite_neg Bool.false_ne_true ?_
  refine succeeds_onWire (succeeds_receivePacket working h) ?_
  rintro _ wire ⟨rfl, received, hwire⟩
  refine Succeeds.bind_failIf (List.cons_ne_nil _ _) ?_
  rw [if_pos hhead, ← agrees.localId]
  refine succeeds_onChannel validateChannelReply_recipientOnly (succeeds_note ?_)
  exact WP.pure_iff.mpr ⟨rfl, agrees, _, _, rfl, hwire.of_same rfl rfl,
    (shows_received received).trans (shows_note _ rfl rfl)⟩

/-- The wait for the reply to a request, from behind the request. -/
theorem succeeds_waitForChannelRequestResult (working : Working crypto keystream)
    (requestName : Bytes) (agrees : Agrees ledger w.channel) {before : List ServerMessage}
    (hbefore : ∀ message ∈ before, message.duringRequest = true) (permitted : ledger.Permits before)
    (h : Supplied crypto keystream
      (ahead before (recipientOnly Message.channelSuccess initialChannelId) payloads) last rest
      w.wire) :
    Succeeds (waitForChannelRequestResult crypto requestName) w fun _ t =>
      Agrees (ledger.close before) t.channel ∧ Passed crypto keystream payloads last rest w t := by
  refine WP.bind_iff.mpr (WP.bind_iff.mpr (WP.get_iff.mpr (WP.pure_iff.mpr ?_)))
  have hrounds := h.length_le
  rw [ahead, List.length_append, List.length_map, List.length_cons] at hrounds
  refine Succeeds.iterate_until
    (fun left t => ∃ now : Ledger, now.close left = ledger.close before ∧ now.Permits left ∧
      (∀ message ∈ left, message.duringRequest = true) ∧ Agrees now t.channel ∧
      Passed crypto keystream
        (ahead left (recipientOnly Message.channelSuccess initialChannelId) payloads) last rest w t)
    (fun accepted t => accepted = true ∧ Agrees (ledger.close before) t.channel ∧
      Passed crypto keystream payloads last rest w t) ?_ ?_ ?_
    ⟨ledger, rfl, permitted, hbefore, agrees, w.wire, w.channel, rfl, h, shows_nothing _⟩ ?_
  · rintro message left t ⟨now, hclose, hpermits, hleft, ht, passed⟩
    refine (succeeds_waitRound_message working requestName ht (hleft message List.mem_cons_self)
      hpermits.1 passed.supplied).consequence ?_
    rintro _ u ⟨rfl, hu, passed'⟩
    exact ⟨rfl, _, hclose, hpermits.2,
      fun other hother => hleft other (List.mem_cons_of_mem _ hother), hu, passed.trans passed'⟩
  · rintro t ⟨now, hclose, -, -, ht, passed⟩
    obtain rfl : now = ledger.close before := hclose
    refine (succeeds_waitRound_success working requestName ht passed.supplied).consequence ?_
    rintro _ u ⟨rfl, hu, passed'⟩
    exact ⟨true, rfl, rfl, hu, passed.trans passed'⟩
  · rintro _ t ⟨rfl, ht, passed⟩
    exact Succeeds.ite_pos rfl ⟨(), rfl, ht, passed⟩
  · omega

theorem succeeds_request (working : Working crypto keystream) (requestName : Bytes)
    (create : Channel → Except Stop Bytes) {payload : Bytes}
    (hcreate : create w.channel = .ok payload)
    (hsize : sendable payload) (agrees : Agrees ledger w.channel) {before : List ServerMessage}
    (hbefore : ∀ message ∈ before, message.duringRequest = true) (permitted : ledger.Permits before)
    (h : Supplied crypto keystream
      (ahead before (recipientOnly Message.channelSuccess initialChannelId) payloads) last rest
      w.wire) :
    Succeeds (do
        let w ← get
        let payload ← lift (create w.channel)
        onWire (sendPacket crypto payload)
        waitForChannelRequestResult crypto requestName) w fun _ t =>
      Agrees (ledger.close before) t.channel ∧ Passed crypto keystream payloads last rest w t := by
  refine Succeeds.bind_get (Succeeds.bind_lift hcreate ?_)
  refine succeeds_onWire (succeeds_sendPacket working hsize h) ?_
  rintro _ wire ⟨sending, hwire⟩
  refine (succeeds_waitForChannelRequestResult (w := { w with wire := wire }) working requestName
    agrees hbefore permitted hwire).consequence ?_
  rintro _ t ⟨ht, wire', channel', rfl, hwire', shows⟩
  exact ⟨ht, wire', channel', rfl, hwire', (shows_sending sending).trans shows⟩

theorem createPtyRequest_of_open {c : Channel} {info : TerminalInfo} (hopen : c.isOpen = true)
    (hcolumns : info.columns ≠ 0) (hrows : info.rows ≠ 0) (htype : info.type ≠ [])
    (hsize : info.type.length ≤ 34941) :
    ∃ payload, createPtyRequest c info.type info.columns info.rows = .ok payload ∧
      sendable payload := by
  have hname : (ascii "pty-req").length = 7 := rfl
  have hlength : info.type.length < 4294967296 := by omega
  simp only [createPtyRequest, bind_eq_ok, failIf_eq_ok, appendString_ok, hopen, htype, hcolumns,
    hrows]
  refine ⟨_, ⟨(), by simp, (), by simp, (), by simp, _, ⟨by decide, rfl⟩, _, ⟨hlength, rfl⟩,
    by decide, rfl⟩, List.cons_ne_nil _ _, ?_⟩
  simp only [List.length_append, encodeString_length, encodeUint32_length, List.length_singleton,
    hname]
  omega

theorem createShellRequest_of_open {c : Channel} (hopen : c.isOpen = true) :
    ∃ payload, createShellRequest c = .ok payload ∧ sendable payload := by
  have hname : (ascii "shell").length = 5 := rfl
  simp only [createShellRequest, bind_eq_ok, failIf_eq_ok, appendString_ok, pure_eq_ok, hopen]
  refine ⟨_, ⟨(), by simp, _, ⟨by decide, rfl⟩, rfl⟩, List.cons_ne_nil _ _, ?_⟩
  simp [hname]

/-- The name is that of the environment when it has one, and the default otherwise. -/
theorem getTerminalInfo_type_ne_nil (display : Display) :
    (Terminal.getTerminalInfo display).type ≠ [] := by
  have hdefault : Terminal.defaultTerminalType ≠ [] := by decide
  obtain ⟨term, dimensions⟩ := display
  have hname : (Terminal.getTerminalInfo ⟨term, none⟩).type ≠ [] := by
    rcases term with _ | (_ | ⟨first, name⟩)
    · exact hdefault
    · exact hdefault
    · exact List.cons_ne_nil first name
  -- the size of the terminal has no part in its name
  cases dimensions with
  | none => exact hname
  | some size =>
      unfold Terminal.getTerminalInfo
      dsimp only
      split
      · exact hname
      · exact hname

theorem toUInt32_ne_zero {n : UInt16} (h : n ≠ 0) : n.toUInt32 ≠ 0 := by
  intro hzero
  have hnat := congrArg UInt32.toNat hzero
  rw [UInt16.toNat_toUInt32] at hnat
  exact h (UInt16.toNat_inj.mp hnat)

theorem getTerminalInfo_size_ne_zero (display : Display) :
    (Terminal.getTerminalInfo display).columns ≠ 0 ∧
      (Terminal.getTerminalInfo display).rows ≠ 0 := by
  have hdefault : Terminal.defaultTerminalColumns ≠ 0 ∧ Terminal.defaultTerminalRows ≠ 0 := by
    decide
  unfold Terminal.getTerminalInfo
  dsimp only
  split
  · next columns rows _ =>
    split
    · next hsize => exact ⟨toUInt32_ne_zero hsize.1, toUInt32_ne_zero hsize.2⟩
    · exact hdefault
  · exact hdefault

end Waiting

/-! ### The console -/

/-- Every call that reads or changes the settings of the terminal succeeds. -/
structure Willing (console : Console) : Prop where
  gets : ∀ answer ∈ console.getAnswers, answer = true
  sets : ∀ answer ∈ console.setAnswers, answer = true

section Terminal

variable {console : Console}

theorem succeeds_tcgetattr (h : Willing console) :
    Succeeds Console.tcgetattr console fun settings t => settings = some console.settings ∧
      ∃ answers, t = { console with getAnswers := answers } ∧ Willing t := by
  simp only [Console.tcgetattr, WP.bind_iff, WP.get_iff]
  cases hanswers : console.getAnswers with
  | nil => exact ⟨rfl, [], by rw [← hanswers], h⟩
  | cons answer answers =>
      have hgets := h.gets
      rw [hanswers] at hgets
      obtain rfl : answer = true := hgets answer List.mem_cons_self
      exact ⟨rfl, answers, rfl, fun other hother => hgets other (List.mem_cons_of_mem _ hother),
        h.sets⟩

theorem succeeds_tcsetattr (h : Willing console) (settings : Termios) :
    Succeeds (Console.tcsetattr settings) console fun done t => done = true ∧
      ∃ answers, t = { console with settings := settings, setAnswers := answers } ∧ Willing t := by
  simp only [Console.tcsetattr, WP.bind_iff, WP.get_iff]
  cases hanswers : console.setAnswers with
  | nil => exact ⟨rfl, [], rfl, h.gets, fun _ hnone => absurd hnone List.not_mem_nil⟩
  | cons answer answers =>
      have hsets := h.sets
      rw [hanswers] at hsets
      obtain rfl : answer = true := hsets answer List.mem_cons_self
      exact ⟨rfl, answers, rfl, h.gets,
        fun other hother => hsets other (List.mem_cons_of_mem _ hother)⟩

theorem succeeds_enableRawMode (h : Willing console)
    (hraw : console.terminal.rawModeActive = false) :
    Succeeds Terminal.enableRawMode console fun _ t => Willing t ∧
      t.terminal = ⟨console.settings, true⟩ := by
  refine Succeeds.bind_get (Succeeds.ite_neg (ne_true_of_eq_false hraw) ?_)
  refine Succeeds.bind (succeeds_tcgetattr h) ?_
  rintro _ _ ⟨rfl, answers, rfl, hgot⟩
  refine WP.bind_iff.mpr (WP.modify_iff.mpr ?_)
  have hsaved : Willing { console with
      getAnswers := answers
      terminal := { console.terminal with originalSettings := console.settings } } :=
    ⟨hgot.gets, hgot.sets⟩
  refine Succeeds.bind (succeeds_tcsetattr hsaved console.settings.makeRaw) ?_
  rintro _ _ ⟨rfl, answers', rfl, hset⟩
  refine Succeeds.bind_failIf Bool.false_ne_true (WP.modify_iff.mpr ⟨⟨hset.gets, hset.sets⟩, rfl⟩)

theorem succeeds_restore (h : Willing console) (hraw : console.terminal.rawModeActive = true) :
    Succeeds Terminal.restore console fun _ t =>
      t.settings = console.terminal.originalSettings ∧ t.terminal.rawModeActive = false := by
  refine Succeeds.bind_get (Succeeds.ite_neg (by simp [hraw]) ?_)
  refine Succeeds.bind (succeeds_tcsetattr h _) ?_
  rintro _ _ ⟨rfl, answers, rfl, hset⟩
  exact .bind_failIf Bool.false_ne_true (WP.modify_iff.mpr ⟨rfl, rfl⟩)

end Terminal

/-! ### The session -/

/-- What a server sends from the opening of the channel on. -/
structure Script where
  beforeOpen : List ServerMessage
  sender : UInt32
  window : UInt32
  maxPacket : UInt32
  beforePty : List ServerMessage
  beforeShell : List ServerMessage
  messages : List ServerMessage

namespace Script

def payloads (script : Script) : List Bytes :=
  ahead script.beforeOpen (openConfirmation initialChannelId script.sender script.window
      script.maxPacket) <|
    ahead script.beforePty (recipientOnly Message.channelSuccess initialChannelId) <|
      ahead script.beforeShell (recipientOnly Message.channelSuccess initialChannelId) <|
        closing script.messages

/-- The ledger at the end. -/
def final (script : Script) : Ledger :=
  (Ledger.opened script.window).close
    (script.beforePty ++ (script.beforeShell ++ script.messages))

/-- The server keeps to the protocol: only messages of their time come before a reply, the
channel is large enough for the client, and the ledger permits what is sent. -/
structure Conforms (script : Script) : Prop where
  beforeOpen : ∀ message ∈ script.beforeOpen,
    message.duringOpening = true ∧ (Ledger.opened script.window).permits message
  beforePty : ∀ message ∈ script.beforePty, message.duringRequest = true
  beforeShell : ∀ message ∈ script.beforeShell, message.duringRequest = true
  maxPacket : minMaxPacketSize ≤ script.maxPacket
  permitted : (Ledger.opened script.window).Permits
    (script.beforePty ++ (script.beforeShell ++ script.messages))

end Script

section Session

variable {crypto : Crypto} {keystream : Fixed 32 → Fixed 16 → Nat → UInt8}
variable {script : Script} {last : Line} {rest : Bytes} {display : Display} {w : World}

/-- A terminal name that fits into the request. -/
def fitting (display : Display) : Prop := (Terminal.getTerminalInfo display).type.length ≤ 34941

theorem succeeds_prepareSession (working : Working crypto keystream) (conforms : script.Conforms)
    (fits : fitting display) (h : Supplied crypto keystream script.payloads last rest w.wire) :
    Succeeds (prepareSession crypto display) w fun _ t =>
      Agrees ((Ledger.opened script.window).close (script.beforePty ++ script.beforeShell))
        t.channel ∧ Passed crypto keystream (closing script.messages) last rest w t := by
  have htype := getTerminalInfo_type_ne_nil display
  obtain ⟨hcolumns, hrows⟩ := getTerminalInfo_size_ne_zero display
  obtain ⟨hpty, hlater⟩ := Ledger.permits_append.mp conforms.permitted
  obtain ⟨hshell, -⟩ := Ledger.permits_append.mp hlater
  refine WP.bind_iff.mpr (wp_onChannel.mpr (WP.set_iff.mpr ?_))
  refine Succeeds.bind (succeeds_openSessionChannel (w := { w with channel := initialChannel })
    working rfl conforms.beforeOpen conforms.maxPacket h) ?_
  rintro _ t ⟨ht, wire, channel, rfl, hwire, shows⟩
  obtain ⟨pty, hcreated, hptySize⟩ := createPtyRequest_of_open ht.isOpen hcolumns hrows htype fits
  refine Succeeds.bind (succeeds_request working (ascii "pty-req")
    (fun c => createPtyRequest c (Terminal.getTerminalInfo display).type
      (Terminal.getTerminalInfo display).columns (Terminal.getTerminalInfo display).rows)
    hcreated hptySize ht conforms.beforePty hpty hwire) ?_
  rintro _ t ⟨ht, wire2, channel2, rfl, hwire2, shows2⟩
  obtain ⟨shell, hcreated, hshellSize⟩ := createShellRequest_of_open ht.isOpen
  refine (succeeds_request working (ascii "shell") createShellRequest hcreated hshellSize ht
    conforms.beforeShell hshell hwire2).consequence ?_
  rintro _ t ⟨ht, wire3, channel3, rfl, hwire3, shows3⟩
  refine ⟨?_, wire3, channel3, rfl, hwire3, (shows.trans shows2).trans shows3⟩
  rw [Ledger.close, List.foldl_append]
  exact ht

theorem succeeds_runInteractiveShell (working : Working crypto keystream) {course : Course}
    {ledger : Ledger} {messages : List ServerMessage}
    (h : Running crypto keystream course ledger messages w.polls w) (willing : Willing w.console)
    (hraw : w.console.terminal.rawModeActive = false) :
    Succeeds (runInteractiveShell crypto) w fun _ t => ∃ console,
      Ended crypto keystream { course with console := console } t ∧
      console.settings = w.console.settings ∧ console.terminal.rawModeActive = false := by
  refine WP.bind_iff.mpr (wp_onConsole.mpr ((succeeds_enableRawMode willing hraw).consequence ?_))
  rintro _ raw ⟨hwilling, hterminal⟩
  have hrunning : Running crypto keystream { course with console := raw } ledger messages w.polls
      { w with console := raw } := { h with console := rfl }
  refine Succeeds.bind (succeeds_shellLoop working hrunning) ?_
  intro _ t ended
  obtain rfl : t.console = raw := ended.console
  have hactive : t.console.terminal.rawModeActive = true := by rw [hterminal]
  refine wp_onConsole.mpr ((succeeds_restore hwilling hactive).consequence ?_)
  rintro _ console ⟨hsettings, hinactive⟩
  refine ⟨console, { ended with console := rfl }, ?_, hinactive⟩
  rw [hsettings, hterminal]

/-- The status is reported when there is one. -/
theorem succeeds_reportExitStatus {ledger : Ledger} (closed : Closed ledger w.channel) :
    Succeeds reportExitStatus w fun _ t => ∃ reports : List Event,
      t = { w with wire := { w.wire with trace := w.wire.trace ++ reports } } ∧ Hidden reports ∧
      ∀ status, ledger.exited = some status → reports = [.printed (exitReport status)] := by
  refine Succeeds.bind_get (WP.ite_iff.mpr ⟨fun _ => ?_, fun hnone => ?_⟩)
  · refine wp_onWire.mpr ⟨[.printed (exitReport w.channel.exitStatus)], rfl, ?_, ?_⟩
    · intro e he
      rw [List.mem_singleton.mp he]
      exact ⟨rfl, rfl⟩
    · intro status hstatus
      rw [closed.exitStatus status hstatus]
  · refine WP.pure_iff.mpr ⟨[], by rw [List.append_nil], fun _ he => absurd he List.not_mem_nil, ?_⟩
    intro status hstatus
    rw [closed.exitStatusReceived, hstatus] at hnone
    exact absurd rfl hnone

/-- How a session that went through has ended: the output is written, the status of the
remote shell is reported, the terminal is as it was, and nothing else has been received. -/
structure Served (crypto : Crypto) (keystream : Fixed 32 → Fixed 16 → Nat → UInt8)
    (script : Script) (last : Line) (rest : Bytes) (w t : World) : Prop where
  stdout : sink .stdout t.wire.trace = sink .stdout w.wire.trace ++ outputs .stdout script.messages
  stderr : sink .stderr t.wire.trace = sink .stderr w.wire.trace ++ outputs .stderr script.messages
  reported : ∀ status, script.final.exited = some status →
    t.wire.trace.getLast? = some (.printed (exitReport status))
  settings : t.console.settings = w.console.settings
  inactive : t.console.terminal.rawModeActive = false
  supplied : Supplied crypto keystream [] last rest t.wire

theorem succeeds_runConnectionSession (working : Working crypto keystream)
    (conforms : script.Conforms) (fits : fitting display) (willing : Willing w.console)
    (hraw : w.console.terminal.rawModeActive = false)
    (schedule : Schedule (script.messages.length + 1) w.polls w.keyboard)
    (h : Supplied crypto keystream script.payloads last rest w.wire) :
    Succeeds (runConnectionSession crypto display) w fun _ t =>
      Served crypto keystream script last rest w t := by
  refine Succeeds.bind (succeeds_prepareSession working conforms fits h) ?_
  rintro _ _ ⟨agrees, wire, channel, rfl, hwire, shows⟩
  have hpermitted := conforms.permitted
  rw [← List.append_assoc] at hpermitted
  obtain ⟨-, hmessages⟩ := Ledger.permits_append.mp hpermitted
  let course : Course := {
    final := script.final
    stdout := sink .stdout w.wire.trace ++ outputs .stdout script.messages
    stderr := sink .stderr w.wire.trace ++ outputs .stderr script.messages
    last := last, rest := rest, console := w.console }
  have hrunning : Running crypto keystream course
      ((Ledger.opened script.window).close (script.beforePty ++ script.beforeShell))
      script.messages w.polls { w with wire := wire, channel := channel } := {
    agrees := agrees
    permitted := hmessages
    final := by
      simp only [course, Script.final, Ledger.close, List.foldl_append]
    supplied := hwire
    schedule := schedule
    stdout := by
      simp only [course, shows.stdout, List.append_nil]
    stderr := by
      simp only [course, shows.stderr, List.append_nil]
    console := rfl }
  refine Succeeds.bind (succeeds_runInteractiveShell working hrunning willing hraw) ?_
  rintro _ t ⟨console, ended, hsettings, hinactive⟩
  obtain rfl : t.console = console := ended.console
  refine (succeeds_reportExitStatus ended.closed).consequence ?_
  rintro _ _ ⟨reports, rfl, hidden, hreported⟩
  have hreport : Shows t.wire.trace (t.wire.trace ++ reports) [] [] := shows_append hidden
  refine ⟨?_, ?_, ?_, hsettings, hinactive, ended.supplied.of_same rfl rfl⟩
  · exact (hreport.stdout.trans (List.append_nil _)).trans ended.stdout
  · exact (hreport.stderr.trans (List.append_nil _)).trans ended.stderr
  · intro status hstatus
    rw [hreported status hstatus, List.getLast?_concat]

end Session

end SshClient.Program

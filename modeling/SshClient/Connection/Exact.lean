import SshClient.Connection.Formats

/-!
# The parsers accept exactly their formats

For every payload and every state of the channel a parser either assigns what its message
concerns and returns the decoded fields, or throws and leaves the channel alone. Which of
the two happens is a condition on the payload and the channel before the call.
-/

namespace SshClient.Connection

open Control

/-- The parser returns `a` with the channel at `t` exactly when `accepts c a t` holds, and
an exception leaves the channel as it was. -/
def Exactly {α : Type} (parse : Exec Channel α) (accepts : Channel → α → Channel → Prop) : Prop :=
  ∀ c, (∀ a t, parse.run c = .ok a t ↔ accepts c a t) ∧
    ∀ e t, parse.run c = .error e t → t = c ∧ ∃ what, e = .thrown what

/-- A rule for whatever a parser may do and a run for whatever it must accept. -/
theorem exactly_of_rules {α : Type} {parse : Exec Channel α}
    {accepts : Channel → α → Channel → Prop}
    (sound : ∀ c, WP parse c (accepts c) (fun e t => t = c ∧ ∃ what, e = .thrown what))
    (complete : ∀ c a t, accepts c a t → parse.run c = .ok a t) : Exactly parse accepts := by
  intro c
  refine ⟨fun a t => ⟨fun run => (sound c).of_ok run, complete c a t⟩, fun e t run => ?_⟩
  exact (sound c).of_error run

/-- The rule of a parser that accepts exactly its format. -/
theorem Exactly.wp {α : Type} {parse : Exec Channel α} {accepts : Channel → α → Channel → Prop}
    (h : Exactly parse accepts) {c : Channel} {post : α → Channel → Prop}
    {fail : Stop → Channel → Prop} (ok : ∀ a t, accepts c a t → post a t)
    (reject : ∀ what, (∀ a t, ¬ accepts c a t) → fail (.thrown what) c) :
    WP parse c post fail := by
  obtain ⟨hok, herror⟩ := h c
  refine WP.intro (fun a t run => ok a t ((hok a t).mp run)) (fun e t run => ?_)
  obtain ⟨rfl, what, rfl⟩ := herror e t run
  refine reject what (fun a u haccepts => ?_)
  rw [(hok a u).mpr haccepts] at run
  cases run

variable (payload : Bytes)

/-! ### What each parser accepts

The conditions on the payload, then those on the channel, then the channel afterwards. -/

namespace Accepts

/-- The state of the server is taken over, and the channel is open. -/
def openConfirmation (c : Channel) (_ : Unit) (t : Channel) : Prop :=
  ∃ sender window maxPacket,
    payload = Connection.openConfirmation c.localId sender window maxPacket ∧
    c.isOpen = false ∧ minMaxPacketSize ≤ maxPacket ∧
    t = { c with
      remoteId := sender
      remoteWindow := window
      remoteMaxPacket := maxPacket
      isOpen := true }

/-- Nothing is assigned: the channel stays closed. -/
def openFailure (c : Channel) (failure : ChannelOpenFailure) (t : Channel) : Prop :=
  payload = Connection.openFailure c.localId failure ∧
    failure.description.length < 4294967296 ∧ failure.language.length < 4294967296 ∧
    c.isOpen = false ∧ t = c

/-- The two replies carry the channel alone. -/
def reply (number : UInt8) (c : Channel) (_ : Unit) (t : Channel) : Prop :=
  payload = recipientOnly number c.localId ∧ t = c

/-- The window of the server grows by a positive amount and does not wrap. -/
def windowAdjust (c : Channel) (_ : Unit) (t : Channel) : Prop :=
  ∃ n, payload = Connection.windowAdjust c.localId n ∧ c.isOpen = true ∧ n ≠ 0 ∧
    c.remoteWindow.toNat + n.toNat < 4294967296 ∧
    t = { c with remoteWindow := c.remoteWindow + n }

/-- The data fits the local window and is taken from it. -/
def channelData (c : Channel) (data : Bytes) (t : Channel) : Prop :=
  payload = Connection.channelData c.localId data ∧ c.isOpen = true ∧
    data.length ≤ c.localMaxPacket.toNat ∧ data.length ≤ c.localWindow.toNat ∧
    t = { c with localWindow := c.localWindow - UInt32.ofNat data.length }

/-- The same for the standard error stream, which is the only data type. -/
def extendedData (c : Channel) (extended : ChannelExtendedData) (t : Channel) : Prop :=
  extended.dataType = 1 ∧ payload = Connection.extendedData c.localId 1 extended.data ∧
    c.isOpen = true ∧ extended.data.length ≤ c.localMaxPacket.toNat ∧
    extended.data.length ≤ c.localWindow.toNat ∧
    t = { c with localWindow := c.localWindow - UInt32.ofNat extended.data.length }

def eof (c : Channel) (_ : Unit) (t : Channel) : Prop :=
  payload = recipientOnly Message.channelEof c.localId ∧ c.isOpen = true ∧
    c.remoteEofReceived = false ∧ t = { c with remoteEofReceived := true }

/-- A status is accepted once. Whether a reply is wanted is returned and not acted on. -/
def exitStatus (c : Channel) (result : ChannelExitStatus) (t : Channel) : Prop :=
  ∃ wantReply : UInt8, payload = Connection.exitStatus c.localId wantReply result.exitStatus ∧
    result.wantReply = (wantReply != 0) ∧ c.isOpen = true ∧ c.exitStatusReceived = false ∧
    t = { c with exitStatus := result.exitStatus, exitStatusReceived := true }

def close (c : Channel) (_ : Unit) (t : Channel) : Prop :=
  payload = recipientOnly Message.channelClose c.localId ∧ c.isOpen = true ∧
    c.remoteCloseReceived = false ∧ t = { c with remoteCloseReceived := true }

end Accepts

theorem parseOpenConfirmation_exactly :
    Exactly (parseOpenConfirmation payload) (Accepts.openConfirmation payload) := by
  refine exactly_of_rules (fun c => ?_) ?_
  · exact wp_parseOpenConfirmation (fun sender window maxPacket hclosed hpayload hmax =>
      ⟨sender, window, maxPacket, hpayload, hclosed, hmax, rfl⟩) (fun what => ⟨rfl, what, rfl⟩)
  · rintro c _ _ ⟨sender, window, maxPacket, rfl, hclosed, hmax, rfl⟩
    exact parseOpenConfirmation_openConfirmation hclosed hmax

theorem parseOpenFailure_exactly :
    Exactly (parseOpenFailure payload) (Accepts.openFailure payload) := by
  refine exactly_of_rules (fun c => ?_) ?_
  · exact wp_parseOpenFailure (fun failure hclosed hpayload hdescription hlanguage =>
      ⟨hpayload, hdescription, hlanguage, hclosed, rfl⟩) (fun what => ⟨rfl, what, rfl⟩)
  · rintro c failure _ ⟨rfl, hdescription, hlanguage, hclosed, rfl⟩
    exact parseOpenFailure_openFailure hclosed hdescription hlanguage

/-- For either of the two numbers. -/
theorem validateChannelReply_exactly (number : UInt8) (expected : String) :
    Exactly (validateChannelReply number expected payload) (Accepts.reply payload number) := by
  refine exactly_of_rules (fun c => ?_) ?_
  · exact wp_validateChannelReply (fun hpayload => ⟨hpayload, rfl⟩) (fun what => ⟨rfl, what, rfl⟩)
  · rintro c _ _ ⟨rfl, rfl⟩
    exact validateChannelReply_recipientOnly

theorem parseWindowAdjust_exactly :
    Exactly (parseWindowAdjust payload) (Accepts.windowAdjust payload) := by
  refine exactly_of_rules (fun c => ?_) ?_
  · exact wp_parseWindowAdjust (fun n hopen hpayload hn hfit =>
      ⟨n, hpayload, hopen, hn, hfit, rfl⟩) (fun what => ⟨rfl, what, rfl⟩)
  · rintro c _ _ ⟨n, rfl, hopen, hn, hfit, rfl⟩
    exact parseWindowAdjust_windowAdjust hopen hn hfit

theorem parseChannelData_exactly :
    Exactly (parseChannelData payload) (Accepts.channelData payload) := by
  refine exactly_of_rules (fun c => ?_) ?_
  · exact wp_parseChannelData (fun data hopen hpayload hmax hwin =>
      ⟨hpayload, hopen, hmax, hwin, rfl⟩) (fun what => ⟨rfl, what, rfl⟩)
  · rintro c data _ ⟨rfl, hopen, hmax, hwin, rfl⟩
    exact parseChannelData_channelData hopen hmax hwin

theorem parseChannelExtendedData_exactly :
    Exactly (parseChannelExtendedData payload) (Accepts.extendedData payload) := by
  refine exactly_of_rules (fun c => ?_) ?_
  · exact wp_parseChannelExtendedData (fun data hopen hpayload hmax hwin =>
      ⟨rfl, hpayload, hopen, hmax, hwin, rfl⟩) (fun what => ⟨rfl, what, rfl⟩)
  · rintro c ⟨dataType, data⟩ _ ⟨rfl, rfl, hopen, hmax, hwin, rfl⟩
    exact parseChannelExtendedData_extendedData hopen hmax hwin

theorem parseChannelEof_exactly : Exactly (parseChannelEof payload) (Accepts.eof payload) := by
  refine exactly_of_rules (fun c => ?_) ?_
  · exact wp_parseChannelEof (fun hopen heof hpayload => ⟨hpayload, hopen, heof, rfl⟩)
      (fun what => ⟨rfl, what, rfl⟩)
  · rintro c _ _ ⟨rfl, hopen, heof, rfl⟩
    exact parseChannelEof_recipientOnly hopen heof

theorem parseExitStatus_exactly :
    Exactly (parseExitStatus payload) (Accepts.exitStatus payload) := by
  refine exactly_of_rules (fun c => ?_) ?_
  · exact wp_parseExitStatus (fun wantReply status hopen hexit hpayload =>
      ⟨wantReply, hpayload, rfl, hopen, hexit, rfl⟩) (fun what => ⟨rfl, what, rfl⟩)
  · rintro c ⟨status, _⟩ _ ⟨wantReply, rfl, rfl, hopen, hexit, rfl⟩
    exact parseExitStatus_exitStatus hopen hexit

theorem parseChannelClose_exactly :
    Exactly (parseChannelClose payload) (Accepts.close payload) := by
  refine exactly_of_rules (fun c => ?_) ?_
  · exact wp_parseChannelClose (fun hopen hclose hpayload => ⟨hpayload, hopen, hclose, rfl⟩)
      (fun what => ⟨rfl, what, rfl⟩)
  · rintro c _ _ ⟨rfl, hopen, hclose, rfl⟩
    exact parseChannelClose_recipientOnly hopen hclose

/-- All parsers of channel messages accept exactly their formats and are atomic. -/
theorem parsers_exactly :
    Exactly (parseOpenConfirmation payload) (Accepts.openConfirmation payload) ∧
      Exactly (parseOpenFailure payload) (Accepts.openFailure payload) ∧
      Exactly (validateChannelSuccess payload) (Accepts.reply payload Message.channelSuccess) ∧
      Exactly (validateChannelFailure payload) (Accepts.reply payload Message.channelFailure) ∧
      Exactly (parseWindowAdjust payload) (Accepts.windowAdjust payload) ∧
      Exactly (parseChannelData payload) (Accepts.channelData payload) ∧
      Exactly (parseChannelExtendedData payload) (Accepts.extendedData payload) ∧
      Exactly (parseChannelEof payload) (Accepts.eof payload) ∧
      Exactly (parseExitStatus payload) (Accepts.exitStatus payload) ∧
      Exactly (parseChannelClose payload) (Accepts.close payload) :=
  ⟨parseOpenConfirmation_exactly payload, parseOpenFailure_exactly payload,
    validateChannelReply_exactly payload _ _, validateChannelReply_exactly payload _ _,
    parseWindowAdjust_exactly payload, parseChannelData_exactly payload,
    parseChannelExtendedData_exactly payload, parseChannelEof_exactly payload,
    parseExitStatus_exactly payload, parseChannelClose_exactly payload⟩

end SshClient.Connection

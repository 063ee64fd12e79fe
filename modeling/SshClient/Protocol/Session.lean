import SshClient.Client.Exceptions
import SshClient.Protocol.Refinement

/-!
# The session follows the machine

The functions of the connection layer, from the opening of the channel to the end of the
shell loop. Where a handler gives up on a packet, the format of that packet is compared
with the steps of the machine: none of them accepts it.
-/

namespace SshClient.Protocol

open Control Client Connection Transport

variable (crypto : Crypto) {base : List Event} {start : State} {s : State}

/-- The machine is in `s`, and the wire and the channel are as `s` says. -/
structure Tracks (base : List Event) (start s : State) (w : World) : Prop where
  reached : Reached base start s w.wire
  channel : w.channel = s.channel

/-- The machine is idle at a stage with the property. -/
def At (base : List Event) (start : State) (stage : Stage → Prop) (w : World) : Prop :=
  ∃ s, Tracks base start s w ∧ s.duty = .idle ∧ stage s.stage

theorem At.mono {base : List Event} {start : State} {p q : Stage → Prop} {w : World}
    (h : At base start p w) (hpq : ∀ stage, p stage → q stage) : At base start q w := by
  obtain ⟨s, htracks, hduty, hstage⟩ := h
  exact ⟨s, htracks, hduty, hpq _ hstage⟩

/-- The bytes that the server has still to send. -/
def pending (w : World) : Nat := (Socket.stream w.wire.sock.reads).length

/-! ### Packets that the machine accepts -/

theorem Stage.unscripted_of_listening {stage : Stage} (h : stage.listening = true) :
    ∀ rest, stage = .scripted rest → rest = [] := by
  rintro rest rfl
  cases h

section Accepted

variable {s' : State} {payload : Bytes}

/-- What can be accepted behind the script, by the number of the message, and where it leads. -/
theorem accepted_cases (step : Step s (.accepted payload) s')
    (nothing : ∀ rest, s.stage = .scripted rest → rest = []) :
    (payload.head? = some Message.globalRequest ∧ ∃ name wantReply data, name.length < 4294967296 ∧
        payload = globalRequest name wantReply data ∧
        s' = { s with duty := if wantReply != 0 then .reply else .idle }) ∨
      (payload.head? = some Message.channelOpenConfirmation ∧ s.stage = .opening ∧
        ∃ sender window maxPacket, minMaxPacketSize ≤ maxPacket ∧
          payload = openConfirmation s.channel.localId sender window maxPacket) ∨
      (payload.head? = some Message.channelSuccess ∧ (∃ count, s.stage = .waiting count) ∧
        payload = recipientOnly Message.channelSuccess s.channel.localId) ∨
      (payload.head? = some Message.channelWindowAdjust ∧ s.stage.adjusting = true ∧ ∃ n, n ≠ 0 ∧
        s.channel.remoteWindow.toNat + n.toNat < 4294967296 ∧
        payload = windowAdjust s.channel.localId n) ∨
      (payload.head? = some Message.channelData ∧ s.stage = .shell ∧ ∃ data : Bytes,
        data.length ≤ s.channel.localMaxPacket.toNat ∧
        data.length ≤ s.channel.localWindow.toNat ∧
        payload = channelData s.channel.localId data) ∨
      (payload.head? = some Message.channelExtendedData ∧ s.stage = .shell ∧ ∃ data : Bytes,
        data.length ≤ s.channel.localMaxPacket.toNat ∧
        data.length ≤ s.channel.localWindow.toNat ∧
        payload = extendedData s.channel.localId 1 data) ∨
      (payload.head? = some Message.channelEof ∧ s.stage = .shell ∧
        s.channel.remoteEofReceived = false ∧
        payload = recipientOnly Message.channelEof s.channel.localId ∧
        s' = { s with duty := .idle, channel := { s.channel with remoteEofReceived := true } }) ∨
      (payload.head? = some Message.channelRequest ∧ s.stage = .shell ∧
        s.channel.exitStatusReceived = false ∧ ∃ wantReply status,
          payload = exitStatus s.channel.localId wantReply status ∧ s' = { s with
            duty := .idle
            channel := { s.channel with exitStatus := status, exitStatusReceived := true } }) ∨
      (payload.head? = some Message.channelClose ∧ s.stage = .shell ∧
        s.channel.remoteCloseReceived = false ∧
        payload = recipientOnly Message.channelClose s.channel.localId ∧
        s' = { s with
          duty := .close
          channel := { s.channel with remoteCloseReceived := true } }) := by
  cases step with
  | quiet _ he => cases he
  | accept stage => exact absurd (nothing _ stage) (List.cons_ne_nil _ _)
  | global _ _ hname =>
      exact .inl ⟨rfl, _, _, _, hname, rfl, rfl⟩
  | confirmation stage _ hmax =>
      exact .inr <| .inl ⟨rfl, stage, _, _, _, hmax, rfl⟩
  | success stage =>
      exact .inr <| .inr <| .inl ⟨rfl, ⟨_, stage⟩, rfl⟩
  | adjust stage _ positive fits =>
      exact .inr <| .inr <| .inr <| .inl ⟨rfl, stage, _, positive, fits, rfl⟩
  | data stage _ hmax hwin =>
      exact .inr <| .inr <| .inr <| .inr <| .inl ⟨rfl, stage, _, hmax, hwin, rfl⟩
  | extendedData stage _ hmax hwin =>
      exact .inr <| .inr <| .inr <| .inr <| .inr <| .inl ⟨rfl, stage, _, hmax, hwin, rfl⟩
  | eof stage _ first =>
      exact .inr <| .inr <| .inr <| .inr <| .inr <| .inr <| .inl ⟨rfl, stage, first, rfl, rfl⟩
  | exitStatus stage _ first =>
      exact .inr <| .inr <| .inr <| .inr <| .inr <| .inr <| .inr <| .inl
        ⟨rfl, stage, first, _, _, rfl, rfl⟩
  | close stage _ first =>
      exact .inr <| .inr <| .inr <| .inr <| .inr <| .inr <| .inr <| .inr
        ⟨rfl, stage, first, rfl, rfl⟩

/-! The messages after which the duty or a flag tells what was accepted. -/

theorem Step.of_globalRequest (step : Step s (.accepted payload) s')
    (nothing : ∀ rest, s.stage = .scripted rest → rest = [])
    (head : payload.head? = some Message.globalRequest) :
    ∃ name wantReply data, name.length < 4294967296 ∧
      payload = globalRequest name wantReply data ∧
      s' = { s with duty := if wantReply != 0 then .reply else .idle } := by
  simpa +decide [head] using accepted_cases step nothing

theorem Step.of_channelEof (step : Step s (.accepted payload) s')
    (nothing : ∀ rest, s.stage = .scripted rest → rest = [])
    (head : payload.head? = some Message.channelEof) :
    s.stage = .shell ∧ s.channel.remoteEofReceived = false ∧
      payload = recipientOnly Message.channelEof s.channel.localId ∧
      s' = { s with duty := .idle, channel := { s.channel with remoteEofReceived := true } } := by
  simpa +decide [head] using accepted_cases step nothing

theorem Step.of_channelRequest (step : Step s (.accepted payload) s')
    (nothing : ∀ rest, s.stage = .scripted rest → rest = [])
    (head : payload.head? = some Message.channelRequest) :
    s.stage = .shell ∧ s.channel.exitStatusReceived = false ∧ ∃ wantReply status,
      payload = Connection.exitStatus s.channel.localId wantReply status ∧ s' = { s with
        duty := .idle
        channel := { s.channel with exitStatus := status, exitStatusReceived := true } } := by
  simpa +decide [head] using accepted_cases step nothing

theorem Step.of_channelClose (step : Step s (.accepted payload) s')
    (nothing : ∀ rest, s.stage = .scripted rest → rest = [])
    (head : payload.head? = some Message.channelClose) :
    s.stage = .shell ∧ s.channel.remoteCloseReceived = false ∧
      payload = recipientOnly Message.channelClose s.channel.localId ∧
      s' = { s with
        duty := .close
        channel := { s.channel with remoteCloseReceived := true } } := by
  simpa +decide [head] using accepted_cases step nothing

end Accepted

section Sending

variable {s' : State} {t : Transport} {payload : Bytes}

/-- What can be sent behind the script, by the number of the message, and the duty that data
and the close answer to. -/
theorem sending_cases (step : Step s (.sending t payload) s')
    (nothing : ∀ rest, s.stage = .scripted rest → rest = []) :
    payload.head? = some Message.channelOpen ∨
      payload.head? = some Message.channelRequest ∨
      payload.head? = some Message.requestFailure ∨
      payload.head? = some Message.channelWindowAdjust ∨
      (payload.head? = some Message.channelData ∧ ∃ data, s.duty = .send data ∧
        payload = channelData s.channel.remoteId data) ∨
      (payload.head? = some Message.channelClose ∧ s.duty = .close ∧ s'.stage = .closing) := by
  cases step with
  | quiet _ hquiet => cases hquiet
  | send stage => exact absurd (nothing _ stage) (List.cons_ne_nil _ _)
  | openChannel _ _ _ head => exact .inl head
  | request _ _ _ head => exact .inr <| .inl head
  | reply => exact .inr <| .inr <| .inl rfl
  | refill => exact .inr <| .inr <| .inr <| .inl rfl
  | sendTyped duty => exact .inr <| .inr <| .inr <| .inr <| .inl ⟨rfl, _, duty, rfl⟩
  | sendClose duty => exact .inr <| .inr <| .inr <| .inr <| .inr ⟨rfl, duty, rfl⟩

end Sending

/-! ### Opening the channel and the two requests -/

section Wire

variable {w : Wire} {post : Unit → Wire → Prop} {fail : Stop → Wire → Prop}

theorem Stage.finished_of_listening {stage : Stage} (h : stage.listening = true) :
    stage.finished = false := by
  cases stage <;> first | rfl | cases h

theorem Stage.ne_closing_of_listening {stage : Stage} (h : stage.listening = true) :
    stage ≠ .closing := by
  intro hclosing
  rw [hclosing] at h
  cases h

theorem wp_handleGlobalRequest {payload : Bytes} (h : Reached base start s w)
    (listening : s.stage.listening = true) (duty : s.duty = .judge payload)
    (head : payload.head? = some Message.globalRequest)
    (ok : ∀ s' t, Reached base start s' t → s'.stage = s.stage → s'.duty = .idle →
      s'.channel = s.channel → t.sock.reads = w.sock.reads → post () t)
    (stop : ∀ e t, Stopped base start e t → fail e t) :
    WP (handleGlobalRequest crypto payload) w post fail := by
  simp only [handleGlobalRequest, WP.bind_iff, WP.lift_iff, wp_record, WP.ite_iff, WP.pure_iff]
  refine ⟨fun gr hgr => ?_, fun e he => stop e w ?_⟩
  · obtain ⟨wantReply, rfl, hwant, hname⟩ := parseGlobalRequest_ok hgr
    have hrecord := h.record (.global listening duty hname) ⟨rfl, rfl, rfl, rfl⟩
    rw [hwant]
    refine ⟨fun hreply => ?_, fun hreply => ok _ _ hrecord rfl (if_neg hreply) rfl rfl⟩
    have hduty : (if (wantReply != 0) = true then Duty.reply else Duty.idle) = .reply :=
      if_pos hreply
    exact wp_sendPacket_reached crypto hrecord (.reply hduty hrecord.aligned)
      (.sent rfl (Stage.ne_closing_of_listening listening)) ⟨rfl, rfl, rfl, rfl⟩
      (fun t ht hreads => ok _ t ht rfl rfl rfl hreads)
      (fun e t ht => stop e t (ht.stopped rfl (Stage.finished_of_listening listening)))
  · refine h.refused duty (Stage.finished_of_listening listening)
      (throwsOnly_parseGlobalRequest e he) fun s' step => ?_
    obtain ⟨name, wantReply, data, hname, rfl, -⟩ :=
      step.of_globalRequest (Stage.unscripted_of_listening listening) head
    rw [parseGlobalRequest_globalRequest hname] at he
    cases he

end Wire

section World

variable {w : World}

theorem wp_note {s' : State} {e : Event} {post : Unit → World → Prop} {fail : Stop → World → Prop}
    (h : Tracks base start s w) (step : Step s e s') (same : SameCounters s s')
    (hchannel : s'.channel = s.channel)
    (ok : ∀ t, Tracks base start s' t → t.channel = w.channel → pending t = pending w →
      t.polls = w.polls → post () t) :
    WP (onWire (record e)) w post fail := by
  rw [wp_onWire, wp_record]
  exact ok _ ⟨h.reached.record step same, h.channel.trans hchannel.symm⟩ rfl rfl rfl

theorem wp_receive {post : Bytes → World → Prop} {fail : Stop → World → Prop}
    (h : Tracks base start s w) (listening : s.stage.listening = true) (idle : s.duty = .idle)
    (ok : ∀ payload s' t, Tracks base start s' t → s'.duty = .judge payload →
      s'.stage = s.stage → payload ≠ [] → pending t < pending w → t.polls = w.polls →
      post payload t)
    (stop : ∀ e t, Stopped base start e t.wire → fail e t) :
    WP (onWire (receivePacket crypto)) w post fail := by
  rw [wp_onWire]
  exact wp_receivePacket_reached crypto h.reached
    (fun payload => .listen listening idle h.reached.aligned) (fun _ => ⟨rfl, rfl, rfl, rfl⟩)
    (fun payload t ht hreceived => ok payload _ _ ⟨ht, h.channel⟩ rfl rfl hreceived.ne_nil
      hreceived.stream_lt rfl)
    (fun e t ht => stop e _ (ht.stopped idle (Stage.finished_of_listening listening)))

theorem wp_transmit {payload : Bytes} {s1 s2 : State} {post : Unit → World → Prop}
    {fail : Stop → World → Prop} (h : Reached base start s w.wire)
    (sending : Step s (.sending w.wire.transport payload) s1) (sent : Step s1 (.sent payload) s2)
    (idle : s1.duty = .idle) (hstage : s1.stage.finished = false) (same : SameCounters s.counted s2)
    (ok : ∀ t, Reached base start s2 t.wire → t.channel = w.channel → pending t = pending w →
      t.polls = w.polls → post () t)
    (stop : ∀ e t, Stopped base start e t.wire → fail e t) :
    WP (onWire (sendPacket crypto payload)) w post fail := by
  rw [wp_onWire]
  refine wp_sendPacket_reached crypto h sending sent same (fun t ht hreads => ok _ ht rfl ?_ rfl)
    (fun e t ht => stop e _ (ht.stopped idle hstage))
  simp only [pending, hreads]

/-- A parser that accepts what the machine accepts, and the record of the acceptance. -/
theorem wp_accept {α : Type} (after : α → State → Prop) {parse : Exec Channel α}
    {accepts : Channel → α → Channel → Prop} {payload : Bytes} {post : α → World → Prop}
    {fail : Stop → World → Prop} (exactly : Exactly parse accepts) (h : Tracks base start s w)
    (listening : s.stage.listening = true) (duty : s.duty = .judge payload)
    (step : ∀ a c, accepts s.channel a c → ∃ s', Step s (.accepted payload) s' ∧
      s'.channel = c ∧ SameCounters s s' ∧ after a s')
    (refused : ∀ s', Step s (.accepted payload) s' → ∃ a c, accepts s.channel a c)
    (ok : ∀ a s' t, Tracks base start s' t → after a s' → pending t = pending w →
      t.polls = w.polls → post a t)
    (stop : ∀ e t, Stopped base start e t.wire → fail e t) :
    WP (onChannel parse) w
      (fun a t => WP (onWire (record (.accepted payload))) t (fun _ => post a) fail) fail := by
  simp only [wp_onChannel, wp_onWire, wp_record]
  rw [h.channel]
  refine exactly.wp (fun a c haccepts => ?_) (fun what hnone => ?_)
  · obtain ⟨s', hstep, hchannel, hsame, hafter⟩ := step a c haccepts
    exact ok a s' _ ⟨h.reached.record hstep hsame, hchannel.symm⟩ hafter rfl rfl
  · refine stop _ _ (h.reached.refused duty (Stage.finished_of_listening listening)
      Stop.thrown_thrown fun s' hstep => ?_)
    obtain ⟨a, c, haccepts⟩ := refused s' hstep
    exact hnone a c haccepts

theorem wp_confirmation {payload : Bytes} {post : Unit → World → Prop}
    {fail : Stop → World → Prop} (h : Tracks base start s w) (stage : s.stage = .opening)
    (duty : s.duty = .judge payload)
    (head : payload.head? = some Message.channelOpenConfirmation)
    (ok : ∀ t, At base start (· = .requesting 2) t → pending t = pending w → post () t)
    (stop : ∀ e t, Stopped base start e t.wire → fail e t) :
    WP (onChannel (parseOpenConfirmation payload)) w
      (fun a t => WP (onWire (record (.accepted payload))) t (fun _ => post a) fail) fail := by
  have listening : s.stage.listening = true := by
    rw [stage]
    rfl
  refine wp_accept (fun _ s' => s'.duty = .idle ∧ s'.stage = .requesting 2)
    (parseOpenConfirmation_exactly payload) h listening duty ?_ (fun s' step => ?_)
    (fun _ s' t ht hafter hpending _ => ok t ⟨s', ht, hafter⟩ hpending) stop
  · rintro _ c ⟨sender, window, maxPacket, rfl, -, hmax, rfl⟩
    exact ⟨_, .confirmation stage duty hmax, rfl, ⟨rfl, rfl, rfl, rfl⟩, rfl, rfl⟩
  · obtain ⟨-, sender, window, maxPacket, hmax, rfl⟩ :
        s.stage = .opening ∧ ∃ sender window maxPacket, minMaxPacketSize ≤ maxPacket ∧
          payload = openConfirmation s.channel.localId sender window maxPacket := by
      simpa +decide [head] using accepted_cases step (Stage.unscripted_of_listening listening)
    exact ⟨(), _, sender, window, maxPacket, rfl,
      h.reached.sound.isOpen.trans (by rw [stage]; rfl), hmax, rfl⟩

theorem wp_openRound {post : Unit ⊕ Unit → World → Prop} {fail : Stop → World → Prop}
    (h : At base start (fun stage => stage = .opening ∨ stage = .requesting 2) w)
    (again : ∀ t, At base start (fun stage => stage = .opening ∨ stage = .requesting 2) t →
      pending t < pending w → post (.inl ()) t)
    (done : At base start (· = .requesting 2) w → post (.inr ()) w)
    (stop : ∀ e t, Stopped base start e t.wire → fail e t) :
    WP (openRound crypto) w post fail := by
  obtain ⟨s, htracks, hidle, hstage⟩ := h
  have hopen := htracks.reached.sound.isOpen
  rw [← htracks.channel] at hopen
  simp only [openRound, WP.bind_iff, WP.get_iff, WP.ite_iff, WP.pure_iff, WP.failIf_iff,
    WP.throw_iff]
  refine ⟨fun hyes => done ⟨s, htracks, hidle, ?_⟩, fun hno => ?_⟩
  · obtain hstage | hstage := hstage
    · rw [hopen, hstage] at hyes
      cases hyes
    · exact hstage
  · have hstage : s.stage = .opening := by
      obtain hstage | hstage := hstage
      · exact hstage
      · rw [hopen, hstage] at hno
        exact absurd rfl hno
    refine wp_receive crypto htracks (by rw [hstage]; rfl) hidle
      (fun payload s' t ht duty hs hne hlt _ => ?_) stop
    rw [hstage] at hs
    have listening : s'.stage.listening = true := by
      rw [hs]
      rfl
    refine ⟨fun hnil => absurd hnil hne, fun _ => ⟨fun head => ?_, fun hconfirmation =>
      ⟨fun head => ?_, fun hfailure => ⟨fun head => ?_, fun hglobal => ?_⟩⟩⟩⟩
    · exact wp_confirmation ht hs duty head (fun u hu hpending =>
        again u (hu.mono fun _ hs' => .inr hs') (by omega)) stop
    · rw [wp_onChannel, ht.channel]
      refine (parseOpenFailure_exactly payload).wp (fun _ c _ => stop _ _ ?_)
        (fun _ _ => stop _ _ ?_) <;>
      · refine ht.reached.refused duty (by rw [hs]; rfl) Stop.thrown_thrown fun s' step => ?_
        simpa +decide [head] using accepted_cases step (Stage.unscripted_of_listening listening)
    · rw [wp_onWire]
      refine wp_handleGlobalRequest crypto ht.reached listening duty head
        (fun s' u hu hs' hduty hc hreads =>
          again _ ⟨s', ⟨hu, ht.channel.trans hc.symm⟩, hduty, .inl (hs'.trans hs)⟩ ?_)
        (fun e t ht => stop e _ ht)
      simpa only [pending, hreads] using hlt
    · refine stop _ _
        (ht.reached.refused duty (by rw [hs]; rfl) Stop.thrown_thrown fun s' step => ?_)
      simpa [hs, hconfirmation, hglobal, Stage.adjusting] using
        accepted_cases step (Stage.unscripted_of_listening listening)

theorem createSessionOpen_initialChannel :
    ∃ payload, createSessionOpen initialChannel = .ok payload ∧
      payload.head? = some Message.channelOpen := ⟨_, rfl, rfl⟩

theorem wp_openSessionChannel {post : Unit → World → Prop} {fail : Stop → World → Prop}
    (h : Reached base start s w.wire) (stage : s.stage = .scripted []) (idle : s.duty = .idle)
    (hchannel : w.channel = initialChannel)
    (ok : ∀ t, At base start (· = .requesting 2) t → post () t)
    (stop : ∀ e t, Stopped base start e t.wire → fail e t) :
    WP (openSessionChannel crypto) w post fail := by
  obtain ⟨payload, hpayload, head⟩ := createSessionOpen_initialChannel
  simp only [openSessionChannel, pendingRounds, WP.bind_iff, WP.get_iff, WP.lift_iff, WP.pure_iff]
  rw [hchannel, hpayload]
  refine ⟨fun payload' hpayload' => ?_, fun e he => by cases he⟩
  cases hpayload'
  refine wp_transmit crypto h (.openChannel stage idle h.aligned head)
    (.sent idle (by simp)) idle rfl ⟨rfl, rfl, rfl, rfl⟩ (fun t ht hc _ _ => ?_) stop
  refine WP.iterate
    (fun _ u => At base start (fun stage => stage = .opening ∨ stage = .requesting 2) u)
    (fun _ u => pending u) (fun _ u hu => ?_) _ () ?_ (Nat.lt_add_of_pos_right (by decide))
  · exact wp_openRound crypto hu (fun v hv hlt => ⟨hv, hlt⟩) (fun hdone => ok u hdone) stop
  · exact ⟨_, ⟨ht, hc.trans hchannel⟩, idle, .inl rfl⟩

theorem wp_success {count : Nat} {payload : Bytes} {post : Unit → World → Prop}
    {fail : Stop → World → Prop} (h : Tracks base start s w) (stage : s.stage = .waiting count)
    (duty : s.duty = .judge payload) (head : payload.head? = some Message.channelSuccess)
    (ok : ∀ t, At base start (· = Stage.granted count) t → pending t = pending w → post () t)
    (stop : ∀ e t, Stopped base start e t.wire → fail e t) :
    WP (onChannel (validateChannelSuccess payload)) w
      (fun a t => WP (onWire (record (.accepted payload))) t (fun _ => post a) fail) fail := by
  have listening : s.stage.listening = true := by
    rw [stage]
    rfl
  refine wp_accept (fun _ s' => s'.duty = .idle ∧ s'.stage = Stage.granted count)
    (validateChannelReply_exactly payload _ _) h listening duty ?_ (fun s' step => ?_)
    (fun _ s' t ht hafter hpending _ => ok t ⟨s', ht, hafter⟩ hpending) stop
  · rintro _ c ⟨rfl, rfl⟩
    exact ⟨_, .success stage duty, rfl, ⟨rfl, rfl, rfl, rfl⟩, rfl, rfl⟩
  · obtain ⟨-, rfl⟩ : (∃ count, s.stage = .waiting count) ∧
        payload = recipientOnly Message.channelSuccess s.channel.localId := by
      simpa +decide [head] using accepted_cases step (Stage.unscripted_of_listening listening)
    exact ⟨(), _, rfl, rfl⟩

theorem Stage.listening_of_adjusting {stage : Stage} (h : stage.adjusting = true) :
    stage.listening = true := by
  cases stage <;> first | rfl | cases h

theorem Stage.active_of_adjusting {stage : Stage} (h : stage.adjusting = true) :
    stage.active = true := by
  cases stage <;> first | rfl | cases h

theorem wp_adjust {payload : Bytes} {post : Unit → World → Prop} {fail : Stop → World → Prop}
    (h : Tracks base start s w) (adjusting : s.stage.adjusting = true)
    (duty : s.duty = .judge payload) (head : payload.head? = some Message.channelWindowAdjust)
    (ok : ∀ t, At base start (· = s.stage) t → pending t = pending w → t.polls = w.polls →
      post () t)
    (stop : ∀ e t, Stopped base start e t.wire → fail e t) :
    WP (onChannel (parseWindowAdjust payload)) w
      (fun a t => WP (onWire (record (.accepted payload))) t (fun _ => post a) fail) fail := by
  have listening := Stage.listening_of_adjusting adjusting
  refine wp_accept (fun _ s' => s'.duty = .idle ∧ s'.stage = s.stage)
    (parseWindowAdjust_exactly payload) h listening duty ?_ (fun s' step => ?_)
    (fun _ s' t ht hafter => ok t ⟨s', ht, hafter⟩) stop
  · rintro _ c ⟨n, rfl, -, hn, hfit, rfl⟩
    exact ⟨_, .adjust adjusting duty hn hfit, rfl, ⟨rfl, rfl, rfl, rfl⟩, rfl, rfl⟩
  · obtain ⟨-, n, hn, hfit, rfl⟩ : s.stage.adjusting = true ∧ ∃ n : UInt32, n ≠ 0 ∧
        s.channel.remoteWindow.toNat + n.toNat < 4294967296 ∧
        payload = windowAdjust s.channel.localId n := by
      simpa +decide [head] using accepted_cases step (Stage.unscripted_of_listening listening)
    exact ⟨(), _, n, rfl,
      h.reached.sound.isOpen.trans (Stage.active_of_adjusting adjusting), hn, hfit, rfl⟩

theorem wp_waitRound {requestName : Bytes} {requestAccepted : Bool} {count : Nat}
    {post : Bool ⊕ Unit → World → Prop} {fail : Stop → World → Prop}
    (h : At base start (· = if requestAccepted then Stage.granted count else .waiting count) w)
    (again : ∀ accepted t,
      At base start (· = if accepted then Stage.granted count else .waiting count) t →
      pending t < pending w → post (.inl accepted) t)
    (done : At base start (· = Stage.granted count) w → post (.inr ()) w)
    (stop : ∀ e t, Stopped base start e t.wire → fail e t) :
    WP (waitRound crypto requestName requestAccepted) w post fail := by
  simp only [waitRound, WP.bind_iff, WP.ite_iff, WP.pure_iff, WP.failIf_iff, WP.throw_iff]
  refine ⟨fun hyes => done ?_, fun hno => ?_⟩
  · rwa [if_pos hyes] at h
  · rw [if_neg hno] at h
    obtain ⟨s, htracks, hidle, hstage⟩ := h
    refine wp_receive crypto htracks (by rw [hstage]; rfl) hidle
      (fun payload s' t ht duty hs hne hlt _ => ?_) stop
    rw [hstage] at hs
    have adjusting : s'.stage.adjusting = true := by
      rw [hs]
      rfl
    have listening := Stage.listening_of_adjusting adjusting
    refine ⟨fun hnil => absurd hnil hne, fun _ => ⟨fun head => ?_, fun hsuccess =>
      ⟨fun head => ?_, fun hfailure => ⟨fun head => ?_, fun hglobal => ⟨fun head => ?_,
        fun hadjust => ?_⟩⟩⟩⟩⟩
    · exact wp_success ht hs duty head (fun u hu hpending => again true u hu (by omega)) stop
    · rw [wp_onChannel, ht.channel]
      refine (validateChannelReply_exactly payload _ _).wp (fun _ c _ => stop _ _ ?_)
        (fun _ _ => stop _ _ ?_) <;>
      · refine ht.reached.refused duty (by rw [hs]; rfl) Stop.thrown_thrown fun s' step => ?_
        simpa +decide [head] using accepted_cases step (Stage.unscripted_of_listening listening)
    · rw [wp_onWire]
      refine wp_handleGlobalRequest crypto ht.reached listening duty head
        (fun s' u hu hs' hduty hc hreads =>
          again false _ ⟨s', ⟨hu, ht.channel.trans hc.symm⟩, hduty, hs'.trans hs⟩ ?_)
        (fun e t ht => stop e _ ht)
      simpa only [pending, hreads] using hlt
    · exact wp_adjust ht adjusting duty head (fun u hu hpending _ =>
        again false u (hu.mono fun _ hs' => hs'.trans hs) (by omega)) stop
    · refine stop _ _
        (ht.reached.refused duty (by rw [hs]; rfl) Stop.thrown_thrown fun s' step => ?_)
      simpa [hs, hsuccess, hglobal, hadjust] using
        accepted_cases step (Stage.unscripted_of_listening listening)

theorem wp_waitForChannelRequestResult {requestName : Bytes} {count : Nat}
    {post : Unit → World → Prop} {fail : Stop → World → Prop}
    (h : At base start (· = .waiting count) w)
    (ok : ∀ t, At base start (· = Stage.granted count) t → post () t)
    (stop : ∀ e t, Stopped base start e t.wire → fail e t) :
    WP (waitForChannelRequestResult crypto requestName) w post fail := by
  simp only [waitForChannelRequestResult, pendingRounds, WP.bind_iff, WP.get_iff, WP.pure_iff]
  refine WP.iterate (fun accepted u =>
      At base start (· = if accepted then Stage.granted count else .waiting count) u)
    (fun _ u => pending u) (fun accepted u hu => ?_) _ false h
    (Nat.lt_add_of_pos_right (by decide))
  exact wp_waitRound crypto hu (fun accepted v hv hlt => ⟨hv, hlt⟩) (fun hdone => ok u hdone) stop

theorem createPtyRequest_head {c : Channel} {terminalType : Bytes} {columns rows : UInt32}
    {payload : Bytes} (h : createPtyRequest c terminalType columns rows = .ok payload) :
    payload.head? = some Message.channelRequest := by
  simp only [createPtyRequest, bind_eq_ok, failIf_eq_ok, appendString_ok] at h
  obtain ⟨-, -, -, -, -, -, p1, ⟨-, rfl⟩, p2, ⟨-, rfl⟩, -, rfl⟩ := h
  rfl

theorem createShellRequest_head {c : Channel} {payload : Bytes}
    (h : createShellRequest c = .ok payload) :
    payload.head? = some Message.channelRequest := by
  simp only [createShellRequest, bind_eq_ok, failIf_eq_ok, appendString_ok, pure_eq_ok] at h
  obtain ⟨-, -, p1, ⟨-, rfl⟩, rfl⟩ := h
  rfl

/-- The two requests differ in their payload only. -/
theorem wp_request {create : Except Stop Bytes} {requestName : Bytes} {count : Nat}
    {post : Unit → World → Prop} {fail : Stop → World → Prop}
    (hcreate : ∀ payload, create = .ok payload → payload.head? = some Message.channelRequest)
    (h : At base start (· = .requesting (count + 1)) w)
    (ok : ∀ t, At base start (· = Stage.granted count) t → post () t)
    (stop : ∀ e t, Stopped base start e t.wire → fail e t) :
    WP (do
      let payload ← lift create
      onWire (sendPacket crypto payload)
      waitForChannelRequestResult crypto requestName : Exec World Unit) w post fail := by
  obtain ⟨s, htracks, hidle, hstage⟩ := h
  simp only [WP.bind_iff, WP.lift_iff]
  refine ⟨fun payload hpayload => ?_, fun e he => stop e w ?_⟩
  · refine wp_transmit crypto htracks.reached
      (.request hstage hidle htracks.reached.aligned (hcreate payload hpayload))
      (.sent hidle (by simp)) hidle rfl ⟨rfl, rfl, rfl, rfl⟩ (fun t ht hc _ _ => ?_) stop
    exact wp_waitForChannelRequestResult crypto
      ⟨_, ⟨ht, hc.trans htracks.channel⟩, hidle, rfl⟩ ok stop
  · exact htracks.reached.follows.stopped hidle (by rw [hstage]; rfl)

theorem wp_requestPty {terminalInfo : TerminalInfo} {post : Unit → World → Prop}
    {fail : Stop → World → Prop} (h : At base start (· = .requesting 2) w)
    (ok : ∀ t, At base start (· = .requesting 1) t → post () t)
    (stop : ∀ e t, Stopped base start e t.wire → fail e t) :
    WP (requestPty crypto terminalInfo) w post fail := by
  rw [requestPty, WP.bind_iff, WP.get_iff]
  exact wp_request crypto (fun _ => createPtyRequest_head) h ok stop

theorem wp_requestShell {post : Unit → World → Prop} {fail : Stop → World → Prop}
    (h : At base start (· = .requesting 1) w)
    (ok : ∀ t, At base start (· = .shell) t → post () t)
    (stop : ∀ e t, Stopped base start e t.wire → fail e t) :
    WP (requestShell crypto) w post fail := by
  rw [requestShell, WP.bind_iff, WP.get_iff]
  exact wp_request crypto (fun _ => createShellRequest_head) h ok stop

/-! ### The interactive shell -/

theorem wp_readKeyboard {maxRead : Nat} {post : Bytes → World → Prop} {fail : Stop → World → Prop}
    (ok : ∀ (data : Bytes) keyboard, data.length ≤ maxRead →
      post data { w with keyboard := keyboard })
    (stop : ∀ e keyboard, fail e { w with keyboard := keyboard }) :
    WP (readKeyboard maxRead) w post fail := by
  rw [readKeyboard, WP.bind_iff, WP.get_iff]
  split
  · exact stop _ w.keyboard
  · exact stop _ _
  · rw [WP.ite_iff]
    refine ⟨fun hfits => ok _ _ hfits, fun _ => ok _ _ ?_⟩
    rw [List.length_take]
    omega

theorem wp_handleKeyboard {post : Unit → World → Prop} {fail : Stop → World → Prop}
    (h : At base start (· = .shell) w)
    (ok : ∀ t, At base start (· = .shell) t → t.polls = w.polls → post () t)
    (stop : ∀ e t, Stopped base start e t.wire → fail e t) :
    WP (handleKeyboard crypto) w post fail := by
  obtain ⟨s, htracks, hidle, hstage⟩ := h
  have hsound := htracks.reached.sound
  have hstopped : ∀ e, Stopped base start e w.wire := fun _ =>
    htracks.reached.follows.stopped hidle (by rw [hstage]; rfl)
  simp only [handleKeyboard, WP.bind_iff, WP.get_iff]
  refine wp_readKeyboard (fun data keyboard hlen => ?_) (fun e keyboard => stop e _ (hstopped e))
  simp only [WP.ite_iff, WP.bind_iff, WP.lift_iff, WP.pure_iff]
  refine ⟨fun hne => ?_, fun _ => ok _ ⟨s, ⟨htracks.reached, htracks.channel⟩, hidle, hstage⟩ rfl⟩
  rw [htracks.channel] at hlen ⊢
  have hcreate : createChannelData s.channel data = .ok (channelData s.channel.remoteId data) := by
    refine createChannelData_ok.mpr ⟨?_, ?_, hne, by omega, by omega, rfl⟩
    · rw [hsound.isOpen, hstage]
      rfl
    · rw [hsound.localCloseSent, hstage]
      rfl
  rw [hcreate]
  refine wp_note (s := s) ⟨htracks.reached, rfl⟩
    (.typed hstage hidle hne (by omega) (by omega) (by omega)) ⟨rfl, rfl, rfl, rfl⟩ rfl
    (fun t ht hc _ hpolls => ⟨fun payload hpayload => ?_, fun e he => by cases he⟩)
  cases hpayload
  refine wp_transmit crypto ht.reached (.sendTyped rfl ht.reached.aligned)
    (.sent rfl (by simp [State.counted, hstage])) rfl
    (by simp [State.counted, hstage, Stage.finished])
    ⟨rfl, rfl, rfl, rfl⟩ (fun u hu hcu _ hpollsu => ?_) stop
  rw [wp_onChannel, WP.modify_iff]
  exact ok _ ⟨_, ⟨hu, by rw [hcu, ht.channel]⟩, rfl, hstage⟩ (hpollsu.trans hpolls)

/-- Where the machine is when the packet has been handled and the window has not been
refilled yet. The channel is still open behind the reply to a close. -/
def Handled (base : List Event) (start : State) : Bool → World → Prop
  | true, w => ∃ s, Tracks base start s w ∧ s.stage = .shell ∧
      s.duty = if s.channel.localWindow ≤ localWindowThreshold then .refill else .idle
  | false, w => At base start (· = .shell) w ∨
      ∃ s, Reached base start s w.wire ∧ s.stage = .closed ∧ s.duty = .idle ∧
        s.channel = { w.channel with isOpen := false } ∧ w.channel.localCloseSent = true ∧
        w.channel.remoteCloseReceived = true

theorem wp_data {payload : Bytes} {post : World → Prop} {fail : Stop → World → Prop}
    (h : Tracks base start s w) (stage : s.stage = .shell) (duty : s.duty = .judge payload)
    (head : payload.head? = some Message.channelData)
    (ok : ∀ t, Handled base start true t → t.polls = w.polls → post t)
    (stop : ∀ e t, Stopped base start e t.wire → fail e t) :
    WP (onChannel (parseChannelData payload)) w
      (fun data t => WP (onWire (record (.accepted payload))) t
        (fun _ t => WP (onWire (record (.wroteStdout data))) t (fun _ t => post t) fail) fail)
      fail := by
  have listening : s.stage.listening = true := by
    rw [stage]
    rfl
  refine wp_accept (fun data s' => s'.duty = .deliver data ∧ s'.stage = .shell)
    (parseChannelData_exactly payload) h listening duty ?_ (fun s' step => ?_)
    (fun data s' t ht hafter _ hpolls => ?_) stop
  · rintro data c ⟨rfl, -, hmax, hwin, rfl⟩
    exact ⟨_, .data stage duty hmax hwin, rfl, ⟨rfl, rfl, rfl, rfl⟩, rfl, stage⟩
  · obtain ⟨-, data, hmax, hwin, rfl⟩ : s.stage = .shell ∧ ∃ data : Bytes,
        data.length ≤ s.channel.localMaxPacket.toNat ∧
        data.length ≤ s.channel.localWindow.toNat ∧
        payload = channelData s.channel.localId data := by
      simpa +decide [head] using accepted_cases step (Stage.unscripted_of_listening listening)
    exact ⟨data, _, rfl, h.reached.sound.isOpen.trans (by rw [stage]; rfl), hmax, hwin, rfl⟩
  · refine wp_note ht (.wroteStdout hafter.1) ⟨rfl, rfl, rfl, rfl⟩ rfl (fun u hu _ _ hpollsu => ?_)
    exact ok u ⟨_, hu, hafter.2, rfl⟩ (hpollsu.trans hpolls)

theorem wp_extendedData {payload : Bytes} {post : World → Prop} {fail : Stop → World → Prop}
    (h : Tracks base start s w) (stage : s.stage = .shell) (duty : s.duty = .judge payload)
    (head : payload.head? = some Message.channelExtendedData)
    (ok : ∀ t, Handled base start true t → t.polls = w.polls → post t)
    (stop : ∀ e t, Stopped base start e t.wire → fail e t) :
    WP (onChannel (parseChannelExtendedData payload)) w
      (fun extended t => WP (onWire (record (.accepted payload))) t
        (fun _ t => WP (onWire (record (.wroteStderr extended.data))) t (fun _ t => post t) fail)
        fail)
      fail := by
  have listening : s.stage.listening = true := by
    rw [stage]
    rfl
  refine wp_accept (fun extended s' => s'.duty = .deliverError extended.data ∧ s'.stage = .shell)
    (parseChannelExtendedData_exactly payload) h listening duty ?_ (fun s' step => ?_)
    (fun extended s' t ht hafter _ hpolls => ?_) stop
  · rintro ⟨dataType, data⟩ c ⟨-, rfl, -, hmax, hwin, rfl⟩
    exact ⟨_, .extendedData stage duty hmax hwin, rfl, ⟨rfl, rfl, rfl, rfl⟩, rfl, stage⟩
  · obtain ⟨-, data, hmax, hwin, rfl⟩ : s.stage = .shell ∧ ∃ data : Bytes,
        data.length ≤ s.channel.localMaxPacket.toNat ∧
        data.length ≤ s.channel.localWindow.toNat ∧
        payload = extendedData s.channel.localId 1 data := by
      simpa +decide [head] using accepted_cases step (Stage.unscripted_of_listening listening)
    exact ⟨⟨1, data⟩, _, rfl, rfl, h.reached.sound.isOpen.trans (by rw [stage]; rfl), hmax, hwin,
      rfl⟩
  · refine wp_note ht (.wroteStderr hafter.1) ⟨rfl, rfl, rfl, rfl⟩ rfl (fun u hu _ _ hpollsu => ?_)
    exact ok u ⟨_, hu, hafter.2, rfl⟩ (hpollsu.trans hpolls)

theorem wp_eof {payload : Bytes} {post : World → Prop} {fail : Stop → World → Prop}
    (h : Tracks base start s w) (stage : s.stage = .shell) (duty : s.duty = .judge payload)
    (head : payload.head? = some Message.channelEof)
    (ok : ∀ t, Handled base start false t → t.polls = w.polls → post t)
    (stop : ∀ e t, Stopped base start e t.wire → fail e t) :
    WP (onChannel (parseChannelEof payload)) w
      (fun _ t => WP (onWire (record (.accepted payload))) t (fun _ t => post t) fail) fail := by
  have listening : s.stage.listening = true := by
    rw [stage]
    rfl
  refine wp_accept (fun _ s' => s'.duty = .idle ∧ s'.stage = .shell)
    (parseChannelEof_exactly payload) h listening duty ?_ (fun s' step => ?_)
    (fun _ s' t ht hafter _ hpolls => ok t (.inl ⟨s', ht, hafter⟩) hpolls) stop
  · rintro _ c ⟨rfl, -, hfirst, rfl⟩
    exact ⟨_, .eof stage duty hfirst, rfl, ⟨rfl, rfl, rfl, rfl⟩, rfl, stage⟩
  · obtain ⟨-, hfirst, rfl, -⟩ :=
      step.of_channelEof (Stage.unscripted_of_listening listening) head
    exact ⟨(), _, rfl, h.reached.sound.isOpen.trans (by rw [stage]; rfl), hfirst, rfl⟩

theorem wp_exitStatus {payload : Bytes} {post : World → Prop} {fail : Stop → World → Prop}
    (h : Tracks base start s w) (stage : s.stage = .shell) (duty : s.duty = .judge payload)
    (head : payload.head? = some Message.channelRequest)
    (ok : ∀ t, Handled base start false t → t.polls = w.polls → post t)
    (stop : ∀ e t, Stopped base start e t.wire → fail e t) :
    WP (onChannel (parseExitStatus payload)) w
      (fun _ t => WP (onWire (record (.accepted payload))) t (fun _ t => post t) fail) fail := by
  have listening : s.stage.listening = true := by
    rw [stage]
    rfl
  refine wp_accept (fun _ s' => s'.duty = .idle ∧ s'.stage = .shell)
    (parseExitStatus_exactly payload) h listening duty ?_ (fun s' step => ?_)
    (fun _ s' t ht hafter _ hpolls => ok t (.inl ⟨s', ht, hafter⟩) hpolls) stop
  · rintro result c ⟨wantReply, rfl, -, -, hfirst, rfl⟩
    exact ⟨_, .exitStatus stage duty hfirst, rfl, ⟨rfl, rfl, rfl, rfl⟩, rfl, stage⟩
  · obtain ⟨-, hfirst, wantReply, status, rfl, -⟩ :=
      step.of_channelRequest (Stage.unscripted_of_listening listening) head
    exact ⟨⟨status, wantReply != 0⟩, _, wantReply, rfl, rfl,
      h.reached.sound.isOpen.trans (by rw [stage]; rfl), hfirst, rfl⟩

theorem createChannelClose_ok {c : Channel} (hopen : c.isOpen = true)
    (hclose : c.localCloseSent = false) :
    createChannelClose c = .ok (recipientOnly Message.channelClose c.remoteId) := by
  simp only [createChannelClose, bind_eq_ok, failIf_eq_ok, pure_eq_ok]
  simp [hopen, hclose, recipientOnly]

theorem wp_close {payload : Bytes} {post : World → Prop} {fail : Stop → World → Prop}
    (h : Tracks base start s w) (stage : s.stage = .shell) (duty : s.duty = .judge payload)
    (head : payload.head? = some Message.channelClose)
    (ok : ∀ t, Handled base start false t → t.polls = w.polls → post t)
    (stop : ∀ e t, Stopped base start e t.wire → fail e t) :
    WP (do
      onChannel (parseChannelClose payload)
      onWire (record (.accepted payload))
      let w ← get
      if !w.channel.localCloseSent then
        let payload ← lift (createChannelClose w.channel)
        onWire (sendPacket crypto payload)
        onChannel <| modify fun channel => { channel with localCloseSent := true } :
        Exec World Unit) w (fun _ t => post t) fail := by
  have listening : s.stage.listening = true := by
    rw [stage]
    rfl
  simp only [WP.bind_iff, WP.get_iff, WP.ite_iff, WP.lift_iff, WP.pure_iff]
  refine wp_accept (fun _ s' => s'.duty = .close ∧ s'.stage = .shell)
    (parseChannelClose_exactly payload) h listening duty ?_ (fun s' step => ?_)
    (fun _ s' t ht hafter _ hpolls => ?_) stop
  · rintro _ c ⟨rfl, -, hfirst, rfl⟩
    exact ⟨_, .close stage duty hfirst, rfl, ⟨rfl, rfl, rfl, rfl⟩, rfl, stage⟩
  · obtain ⟨-, hfirst, rfl, -⟩ :=
      step.of_channelClose (Stage.unscripted_of_listening listening) head
    exact ⟨(), _, rfl, h.reached.sound.isOpen.trans (by rw [stage]; rfl), hfirst, rfl⟩
  · obtain ⟨hduty, hstage⟩ := hafter
    obtain ⟨hopen, hlocal, hremote, -, -⟩ := ht.reached.sound
    rw [hstage] at hopen hlocal
    rw [hstage, hduty] at hremote
    rw [← ht.channel] at hopen hlocal hremote
    rw [createChannelClose_ok hopen hlocal]
    refine ⟨fun _ => ⟨fun payload hpayload => ?_, fun e he => by cases he⟩, fun hno => ?_⟩
    · cases hpayload
      rw [ht.channel]
      refine wp_transmit crypto ht.reached (.sendClose hduty ht.reached.aligned)
        (.sentClose rfl rfl)
        rfl rfl ⟨rfl, rfl, rfl, rfl⟩ (fun u hu hcu _ hpollsu => ?_) stop
      rw [wp_onChannel, WP.modify_iff]
      refine ok _ (.inr ⟨_, hu, rfl, rfl, ?_, rfl, ?_⟩) (hpollsu.trans hpolls)
      · simp only [hcu, ht.channel]
      · simp only [hcu, hremote]
        rfl
    · rw [hlocal] at hno
      exact absurd rfl hno

theorem wp_handleMessage {payload : Bytes} {post : Bool → World → Prop}
    {fail : Stop → World → Prop} (h : Tracks base start s w) (stage : s.stage = .shell)
    (duty : s.duty = .judge payload)
    (ok : ∀ consumed t, Handled base start consumed t → t.polls = w.polls → post consumed t)
    (stop : ∀ e t, Stopped base start e t.wire → fail e t) :
    WP (handleMessage crypto payload) w post fail := by
  have adjusting : s.stage.adjusting = true := by
    rw [stage]
    rfl
  have listening := Stage.listening_of_adjusting adjusting
  rw [handleMessage]
  simp only [WP.ite_iff, WP.throw_iff]
  refine ⟨fun head => ?_, fun hdata => ⟨fun head => ?_, fun hadjust => ⟨fun head => ?_,
    fun hglobal => ⟨fun head => ?_, fun hextended => ⟨fun head => ?_, fun heof =>
    ⟨fun head => ?_, fun hrequest => ⟨fun head => ?_, fun hclose => ?_⟩⟩⟩⟩⟩⟩⟩
  · simp only [WP.bind_iff, WP.pure_iff]
    exact wp_data h stage duty head (ok true) stop
  · simp only [WP.bind_iff, WP.pure_iff]
    exact wp_adjust h adjusting duty head
      (fun t ht _ hpolls => ok false t (.inl (ht.mono fun _ hs => hs.trans stage)) hpolls) stop
  · simp only [WP.bind_iff, WP.pure_iff, wp_onWire]
    exact wp_handleGlobalRequest crypto h.reached listening duty head
      (fun s' t ht hs hduty hc hreads => ok false _
        (.inl ⟨s', ⟨ht, h.channel.trans hc.symm⟩, hduty, hs.trans stage⟩) rfl)
      (fun e t ht => stop e _ ht)
  · simp only [WP.bind_iff, WP.pure_iff]
    exact wp_extendedData h stage duty head (ok true) stop
  · simp only [WP.bind_iff, WP.pure_iff]
    exact wp_eof h stage duty head (ok false) stop
  · simp only [WP.bind_iff, WP.pure_iff]
    exact wp_exitStatus h stage duty head (ok false) stop
  · have hspec := wp_close crypto h stage duty head (ok false) stop
    simp only [WP.bind_iff, WP.get_iff, WP.ite_iff, WP.lift_iff, WP.pure_iff] at hspec ⊢
    exact hspec
  · refine stop _ _
      (h.reached.refused duty (by rw [stage]; rfl) Stop.thrown_thrown fun s' step => ?_)
    simpa [stage, hdata, hadjust, hglobal, hextended, heof, hrequest, hclose] using
      accepted_cases step (Stage.unscripted_of_listening listening)

/-- Below the threshold the difference to the target is positive and brings the window to
the target without a wrap. -/
theorem createWindowAdjust_refill {c : Channel} (hopen : c.isOpen = true)
    (hlow : c.localWindow ≤ localWindowThreshold) :
    createWindowAdjust c (localWindowTarget - c.localWindow) =
      .ok (windowAdjust c.remoteId (localWindowTarget - c.localWindow)) := by
  have hle : c.localWindow.toNat ≤ 524288 := hlow
  have hsub : (localWindowTarget - c.localWindow).toNat = 1048576 - c.localWindow.toNat :=
    UInt32.toNat_sub_of_le _ _ (UInt32.le_trans hlow (by decide))
  refine createWindowAdjust_ok.mpr ⟨hopen, fun hzero => ?_, by omega, rfl⟩
  rw [hzero, UInt32.toNat_zero] at hsub
  omega

theorem wp_refillWindow {consumed : Bool} {post : Unit → World → Prop}
    {fail : Stop → World → Prop} (h : Handled base start consumed w)
    (ok : ∀ t, Handled base start false t → t.polls = w.polls → post () t)
    (stop : ∀ e t, Stopped base start e t.wire → fail e t) :
    WP (refillWindow crypto consumed) w post fail := by
  simp only [refillWindow, WP.bind_iff, WP.get_iff, WP.ite_iff, WP.lift_iff, WP.pure_iff]
  cases consumed with
  | false => exact ⟨fun hyes => (Bool.false_ne_true hyes.1).elim, fun _ => ok w h rfl⟩
  | true =>
      obtain ⟨s, htracks, hstage, hduty⟩ := h
      have hopen : w.channel.isOpen = true := by
        rw [htracks.channel, htracks.reached.sound.isOpen, hstage]
        rfl
      refine ⟨fun hyes => ?_, fun hno => ok w (.inl ⟨s, htracks, ?_, hstage⟩) rfl⟩
      · have hlow := hyes.2.2
        rw [createWindowAdjust_refill hopen hlow]
        rw [htracks.channel] at hlow ⊢
        rw [if_pos hlow] at hduty
        refine ⟨fun payload hpayload => ?_, fun e he => by cases he⟩
        cases hpayload
        refine wp_transmit crypto htracks.reached (.refill hduty htracks.reached.aligned rfl)
          (.sent rfl (by simp [State.counted, hstage])) rfl
          (by simp [State.counted, hstage, Stage.finished])
          ⟨rfl, rfl, rfl, rfl⟩ (fun t ht hc _ hpolls => ?_) stop
        rw [wp_onChannel, WP.modify_iff]
        exact ok _ (.inl ⟨_, ⟨ht, by rw [hc, htracks.channel]⟩, rfl, hstage⟩) hpolls
      · rw [hduty, if_neg]
        intro hlow
        rw [← htracks.channel] at hlow
        exact hno ⟨rfl, hopen, hlow⟩

/-- A stage at which the condition of the shell loop is read. -/
def Stage.looping (stage : Stage) : Prop := stage = .shell ∨ stage = .closed

theorem wp_handleSocket {post : Unit → World → Prop} {fail : Stop → World → Prop}
    (h : At base start (· = .shell) w)
    (ok : ∀ t, At base start Stage.looping t → t.polls = w.polls → post () t)
    (stop : ∀ e t, Stopped base start e t.wire → fail e t) :
    WP (handleSocket crypto) w post fail := by
  obtain ⟨s, htracks, hidle, hstage⟩ := h
  simp only [handleSocket, WP.bind_iff, WP.failIf_iff]
  refine wp_receive crypto htracks (by rw [hstage]; rfl) hidle
    (fun payload s' t ht duty hs hne _ hpolls => ⟨fun hnil => absurd hnil hne, fun _ => ?_⟩) stop
  refine wp_handleMessage crypto ht (hs.trans hstage) duty (fun consumed u hu hpollsu => ?_) stop
  refine wp_refillWindow crypto hu (fun v hv hpollsv => ?_) stop
  rw [wp_onChannel, WP.modify_iff]
  have hpollsw := (hpollsv.trans hpollsu).trans hpolls
  obtain ⟨s', hs', hduty', hstage'⟩ | ⟨s', hs', hstage', hduty', hc, hlocal, hremote⟩ := hv
  · have hlocal : v.channel.localCloseSent = false := by
      rw [hs'.channel, hs'.reached.sound.localCloseSent, hstage']
      rfl
    refine ok _ ⟨s', ⟨hs'.reached, (if_neg ?_).trans hs'.channel⟩, hduty', .inl hstage'⟩ hpollsw
    rw [hlocal]
    exact Bool.false_ne_true
  · refine ok _ ⟨s', ⟨hs', (if_pos ?_).trans hc.symm⟩, hduty', .inr hstage'⟩ hpollsw
    rw [hlocal, hremote]
    rfl

theorem wp_poll {events : Bool} {post : PollResult → World → Prop} {fail : Stop → World → Prop}
    (ok : ∀ result rest, rest.length < w.polls.length → post result { w with polls := rest })
    (blocked : w.polls = [] → fail .blocked w) : WP (poll events) w post fail := by
  rw [poll, WP.bind_iff, WP.get_iff]
  split
  · next hpolls => exact blocked hpolls
  · rename_i result rest hpolls
    have hlt : rest.length < w.polls.length := by simp [hpolls]
    rw [WP.bind_iff, WP.set_iff]
    split <;> exact ok _ rest hlt

theorem wp_shellRound {post : Unit ⊕ Unit → World → Prop} {fail : Stop → World → Prop}
    (h : At base start Stage.looping w)
    (again : ∀ t, At base start Stage.looping t → t.polls.length < w.polls.length →
      post (.inl ()) t)
    (done : ∀ t, At base start (· = .closed) t → post (.inr ()) t)
    (stop : ∀ e t, Stopped base start e t.wire → fail e t) :
    WP (shellRound crypto) w post fail := by
  obtain ⟨s, htracks, hidle, hstage⟩ := h
  have hopen := htracks.reached.sound.isOpen
  rw [← htracks.channel] at hopen
  simp only [shellRound, WP.bind_iff, WP.get_iff]
  rw [htracks.channel]
  refine wp_note htracks (.head hstage hidle htracks.reached.aligned) ⟨rfl, rfl, rfl, rfl⟩ rfl
    (fun t ht hc _ hpolls => ?_)
  rw [← htracks.channel]
  simp only [WP.ite_iff, WP.bind_iff, WP.pure_iff]
  refine ⟨fun hno => done t ⟨s, ht, hidle, ?_⟩, fun hyes => ?_⟩
  · obtain hstage | hstage := hstage
    · rw [hopen, hstage] at hno
      cases hno
    · exact hstage
  · have hstage : s.stage = .shell := by
      obtain hstage | hstage := hstage
      · exact hstage
      · rw [hopen, hstage] at hyes
        exact absurd rfl hyes
    have hstopped : ∀ e, Stopped base start e t.wire := fun _ =>
      ht.reached.follows.stopped hidle (by rw [hstage]; rfl)
    refine wp_poll (fun result rest hlt => ?_) (fun _ => stop _ _ (hstopped _))
    have hat : At base start (· = .shell) { t with polls := rest } :=
      ⟨s, ⟨ht.reached, ht.channel⟩, hidle, hstage⟩
    rw [hpolls] at hlt
    cases result with
    | interrupted => exact again _ ⟨s, ⟨ht.reached, ht.channel⟩, hidle, .inl hstage⟩ hlt
    | failed => exact stop _ _ (hstopped _)
    | ready keyboard socket closed =>
        have hclosed : ∀ u, At base start Stage.looping u → u.polls = rest →
            (u.channel.isOpen = true ∧ closed = true →
                fail (error "SSH socket closed unexpectedly") u) ∧
              (¬(u.channel.isOpen = true ∧ closed = true) → post (.inl ()) u) := by
          intro u hu hrest
          refine ⟨fun hyes => stop _ _ ?_, fun _ => again u hu (by rwa [hrest])⟩
          obtain ⟨s', hs', hduty, hs⟩ := hu
          rw [hs'.channel, hs'.reached.sound.isOpen] at hyes
          obtain hs | hs := hs
          · exact hs'.reached.follows.stopped hduty (by rw [hs]; rfl)
          · rw [hs] at hyes
            cases hyes.1
        have hlooping : ∀ {u}, At base start (· = .shell) u → At base start Stage.looping u :=
          fun hu => hu.mono fun _ hstage => .inl hstage
        have hsocket : ∀ u, At base start (· = .shell) u → u.polls = rest →
            (socket = true → WP (handleSocket crypto) u (fun _ u =>
                (u.channel.isOpen = true ∧ closed = true →
                  fail (error "SSH socket closed unexpectedly") u) ∧
                (¬(u.channel.isOpen = true ∧ closed = true) → post (.inl ()) u)) fail) ∧
              (¬socket = true → (u.channel.isOpen = true ∧ closed = true →
                  fail (error "SSH socket closed unexpectedly") u) ∧
                (¬(u.channel.isOpen = true ∧ closed = true) → post (.inl ()) u)) := by
          intro u hu hrest
          refine ⟨fun _ => ?_, fun _ => hclosed u (hlooping hu) hrest⟩
          exact wp_handleSocket crypto hu
            (fun v hv hpolls => hclosed v hv (hpolls.trans hrest)) stop
        simp only [WP.bind_iff, WP.ite_iff, WP.pure_iff, WP.get_iff, WP.failIf_iff]
        refine ⟨fun _ => ?_, fun _ => hsocket _ hat rfl⟩
        exact wp_handleKeyboard crypto hat (fun u hu hpolls => hsocket u hu hpolls) stop

theorem wp_shellLoop {post : Unit → World → Prop} {fail : Stop → World → Prop}
    (h : At base start Stage.looping w)
    (ok : ∀ t, At base start (· = .closed) t → post () t)
    (stop : ∀ e t, Stopped base start e t.wire → fail e t) :
    WP (shellLoop crypto) w post fail := by
  rw [shellLoop, WP.bind_iff, WP.get_iff]
  refine WP.iterate (fun _ u => At base start Stage.looping u) (fun _ u => u.polls.length)
    (fun _ u hu => ?_) _ () h (Nat.lt_add_of_pos_right (by decide))
  exact wp_shellRound crypto hu (fun v hv hlt => ⟨hv, hlt⟩) ok stop

/-! ### The whole session -/

/-- A property of the world that does not depend on what is sent, on the channel or on
the keyboard. -/
structure Undisturbed (inv : World → Prop) : Prop where
  record : ∀ e, Preserves inv (onWire (record e))
  send : ∀ payload, Preserves inv (onWire (sendPacket crypto payload))
  global : ∀ payload, Preserves inv (onWire (handleGlobalRequest crypto payload))
  channel : ∀ {α : Type} (x : Exec Channel α), Preserves inv (onChannel x)
  keyboard : ∀ maxRead, Preserves inv (readKeyboard maxRead)

namespace Undisturbed

variable {inv : World → Prop} (h : Undisturbed crypto inv)

include h

theorem handleKeyboard : Preserves inv (handleKeyboard crypto) :=
  .bind .get fun _ => .bind (h.keyboard _) fun _ =>
    .ite (.bind (h.record _) fun _ => .bind (.lift _) fun _ =>
      .bind (h.send _) fun _ => h.channel _) (.pure _)

theorem handleMessage (response : Bytes) : Preserves inv (handleMessage crypto response) :=
  .ite (.bind (h.channel _) fun _ => .bind (h.record _) fun _ =>
      .bind (h.record _) fun _ => .pure _) <|
  .ite (.bind (h.channel _) fun _ => .bind (h.record _) fun _ => .pure _) <|
  .ite (.bind (h.global _) fun _ => .pure _) <|
  .ite (.bind (h.channel _) fun _ => .bind (h.record _) fun _ =>
      .bind (h.record _) fun _ => .pure _) <|
  .ite (.bind (h.channel _) fun _ => .bind (h.record _) fun _ => .pure _) <|
  .ite (.bind (h.channel _) fun _ => .bind (h.record _) fun _ => .pure _) <|
  .ite (.bind (h.channel _) fun _ => .bind (h.record _) fun _ =>
      .bind .get fun _ => .ite (.bind (.lift _) fun _ => .bind (h.send _) fun _ =>
        .bind (h.channel _) fun _ => .pure _) (.pure _)) <|
  .throw _

theorem refillWindow (consumed : Bool) : Preserves inv (refillWindow crypto consumed) :=
  .bind .get fun _ =>
    .ite (.bind (.lift _) fun _ => .bind (h.send _) fun _ => h.channel _) (.pure _)

theorem handleSocket (receive : Preserves inv (onWire (receivePacket crypto))) :
    Preserves inv (handleSocket crypto) :=
  .bind receive fun _ => .bind (.failIf _ _) fun _ => .bind (h.handleMessage _ _) fun _ =>
    .bind (h.refillWindow _ _) fun _ => h.channel _

/-- What a round does when `poll` has returned. -/
theorem ready (receive : Preserves inv (onWire (receivePacket crypto)))
    (keyboard socket closed : Bool) :
    Preserves inv (do
      if keyboard then Client.handleKeyboard crypto
      if socket then Client.handleSocket crypto
      let w ← get
      failIf (w.channel.isOpen ∧ closed) (error "SSH socket closed unexpectedly")
      return .inl () : Exec World (Unit ⊕ Unit)) := by
  have hend : Preserves inv (do
      let w ← get
      failIf (w.channel.isOpen ∧ closed) (error "SSH socket closed unexpectedly")
      return .inl () : Exec World (Unit ⊕ Unit)) :=
    .bind .get fun _ => .bind (.failIf _ _) fun _ => .pure _
  have hsocket := Preserves.ite (c := socket = true)
    (.bind (h.handleSocket _ receive) fun _ => hend) hend
  exact .ite (.bind (h.handleKeyboard) fun _ => hsocket) hsocket

end Undisturbed

section Console

variable {console : Console}

theorem preserves_onWire {α : Type} (x : Exec Wire α) :
    Preserves (·.console = console) (onWire x) :=
  fun _ h => wp_onWire.mpr (WP.intro (fun _ _ _ => h) (fun _ _ _ => h))

theorem undisturbed_console : Undisturbed crypto (·.console = console) where
  record _ := preserves_onWire _
  send _ := preserves_onWire _
  global _ := preserves_onWire _
  channel _ := fun _ h => wp_onChannel.mpr (WP.intro (fun _ _ _ => h) (fun _ _ _ => h))
  keyboard _ := fun _ h => wp_readKeyboard (fun _ _ _ => h) (fun _ _ => h)

theorem preserves_shellLoop : Preserves (·.console = console) (shellLoop crypto) := by
  refine .bind .get fun w => .iterate (fun _ => ?_) _ _
  refine .bind .get fun w => .bind (preserves_onWire _) fun _ => .ite (.pure _) ?_
  refine .bind (fun w h => wp_poll (fun _ _ _ => h) (fun _ => h)) fun result => ?_
  cases result with
  | interrupted => exact .pure _
  | failed => exact .throw _
  | ready keyboard socket closed =>
      exact (undisturbed_console crypto).ready _ (preserves_onWire _) _ _ _

end Console

/-- Raw mode can be entered and left again. -/
def Restores (console : Console) : Prop :=
  ∃ c, (do Terminal.enableRawMode; Terminal.restore : Exec Console Unit).run console = .ok () c

/-- The shell returns with the channel closed. When it stops, the channel has not been
closed, or restoring the terminal is what failed. -/
theorem wp_runInteractiveShell {post : Unit → World → Prop} {fail : Stop → World → Prop}
    (h : At base start (· = .shell) w)
    (ok : ∀ t, At base start (· = .closed) t → Restores w.console → post () t)
    (restore : ∀ e t, At base start (· = .closed) t → ¬ Restores w.console → fail e t)
    (stop : ∀ e t, Stopped base start e t.wire → fail e t) :
    WP (runInteractiveShell crypto) w post fail := by
  obtain ⟨s, htracks, hidle, hstage⟩ := h
  simp only [runInteractiveShell, WP.bind_iff]
  rw [wp_onConsole]
  refine WP.intro (fun _ console hraw => ?_) (fun e console _ => stop e _ ?_)
  · have hloop : WP (shellLoop crypto) { w with console := console }
        (fun _ t => At base start (· = .closed) t) (fun e t => Stopped base start e t.wire) :=
      wp_shellLoop crypto ⟨s, ⟨htracks.reached, htracks.channel⟩, hidle, .inl hstage⟩
        (fun t ht => ht) (fun e t ht => ht)
    have hconsole : WP (shellLoop crypto) { w with console := console }
        (fun _ t => t.console = console) (fun _ t => t.console = console) :=
      preserves_shellLoop crypto _ rfl
    refine (hloop.and hconsole).mono ?_ (fun e t ht => stop e t ht.1)
    rintro _ t ⟨⟨s', ⟨hreached, hchannel⟩, hduty, hclosed⟩, rfl⟩
    have hrestores : Restores w.console ↔ ∃ c, Terminal.restore.run t.console = .ok () c := by
      unfold Restores
      rw [EStateM.run_bind, hraw]
    rw [wp_onConsole]
    refine WP.intro (fun _ c hrun => ok _ ⟨s', ⟨hreached, hchannel⟩, hduty, hclosed⟩ ?_)
      (fun e c hrun => restore e _ ⟨s', ⟨hreached, hchannel⟩, hduty, hclosed⟩ ?_)
    · exact hrestores.mpr ⟨c, hrun⟩
    · rw [hrestores]
      rintro ⟨c', hrun'⟩
      rw [hrun] at hrun'
      cases hrun'
  · exact htracks.reached.follows.stopped hidle (by rw [hstage]; rfl)

theorem wp_prepareSession {display : Display} {post : Unit → World → Prop}
    {fail : Stop → World → Prop} (h : Reached base start s w.wire)
    (stage : s.stage = .scripted []) (idle : s.duty = .idle)
    (ok : ∀ t, At base start (· = .shell) t → post () t)
    (stop : ∀ e t, Stopped base start e t.wire → fail e t) :
    WP (prepareSession crypto display) w post fail := by
  simp only [prepareSession, WP.bind_iff, wp_onChannel, WP.set_iff]
  refine wp_openSessionChannel crypto h stage idle rfl (fun t ht => ?_) stop
  refine wp_requestPty crypto ht (fun u hu => ?_) stop
  exact wp_requestShell crypto hu ok stop

/-- The state behind the authentication, with the counters of the transport. -/
def State.authenticated (t : Transport) : State where
  stage := .scripted []
  outgoing := t.outgoingSequence
  incoming := t.incomingSequence
  outgoingActive := t.outgoingEncryptionActive
  incomingActive := t.incomingEncryptionActive

theorem reached_authenticated (w : Wire) :
    Reached w.trace (State.authenticated w.transport) (State.authenticated w.transport) w :=
  ⟨⟨[], (List.append_nil _).symm, .nil⟩, ⟨rfl, rfl, rfl, rfl⟩, ⟨rfl, rfl, rfl, nofun, nofun⟩⟩

theorem wp_reportExitStatus {post : Unit → World → Prop} {fail : Stop → World → Prop}
    (h : At base start (· = .closed) w)
    (ok : ∀ s t, Tracks base start s t → s.duty = .idle →
      s.stage = (if s.channel.exitStatusReceived then .reported else .closed) → post () t) :
    WP (reportExitStatus) w post fail := by
  obtain ⟨s, htracks, hidle, hstage⟩ := h
  simp only [reportExitStatus, print, WP.bind_iff, WP.get_iff, WP.ite_iff, WP.pure_iff]
  rw [htracks.channel]
  refine ⟨fun hyes => ?_, fun hno => ok s w htracks hidle (by rw [if_neg hno, hstage])⟩
  refine wp_note htracks (.report hstage hidle hyes) ⟨rfl, rfl, rfl, rfl⟩ rfl (fun t ht _ _ _ => ?_)
  exact ok _ t ht hidle (if_pos hyes).symm

/-- The end of a session: behind the close it has been reported what was to be reported. -/
theorem wp_runConnectionSession {display : Display} {post : Unit → World → Prop}
    {fail : Stop → World → Prop} (h : Reached base start s w.wire)
    (stage : s.stage = .scripted []) (idle : s.duty = .idle)
    (ok : ∀ s t, Tracks base start s t → s.duty = .idle →
      s.stage = (if s.channel.exitStatusReceived then .reported else .closed) → post () t)
    (restore : ∀ e t, At base start (· = .closed) t → fail e t)
    (stop : ∀ e t, Stopped base start e t.wire → fail e t) :
    WP (runConnectionSession crypto display) w post fail := by
  simp only [runConnectionSession, WP.bind_iff]
  refine wp_prepareSession crypto h stage idle (fun t ht => ?_) stop
  refine wp_runInteractiveShell crypto ht (fun u hu _ => ?_) (fun e u hu _ => restore e u hu) stop
  exact wp_reportExitStatus hu ok

end World

/-- What has happened between two worlds of a run. -/
def eventsSince (w t : World) : List Event := t.wire.trace.drop w.wire.trace.length

/-- The events of a session, however it ends. -/
def sessionEvents (display : Display) (w : World) : List Event :=
  eventsSince w (outcome ((runConnectionSession crypto display).run w))

theorem Follows.drop {w : Wire} (h : Follows base start s w) :
    Run Step start (w.trace.drop base.length) s := by
  obtain ⟨run, htrace, hrun⟩ := h
  rwa [htrace, List.drop_left]

/-- Every session is a run of the machine that ends settled. A session that ends with
something still to be judged has thrown. -/
theorem sessionEvents_run (display : Display) (w : World) :
    ∃ s, Run Step (State.authenticated w.wire.transport) (sessionEvents crypto display w) s ∧
      Settled s ∧
      (s.duty ≠ .idle →
        ∃ what t, (runConnectionSession crypto display).run w = .error (.thrown what) t) := by
  have hspec : WP (runConnectionSession crypto display) w
      (fun _ t => ∃ s, Follows w.wire.trace (State.authenticated w.wire.transport) s t.wire ∧
        s.duty = .idle)
      (fun e t => ∃ s, Follows w.wire.trace (State.authenticated w.wire.transport) s t.wire ∧
        Settled s ∧ (s.duty ≠ .idle → e.Thrown)) := by
    refine wp_runConnectionSession crypto (reached_authenticated w.wire) rfl rfl
      (fun s t ht hidle _ => ⟨s, ht.reached.follows, hidle⟩) (fun e t ht => ?_) (fun e t ht => ?_)
    · obtain ⟨s, hs, hidle, -⟩ := ht
      exact ⟨s, hs.reached.follows, .inl hidle, fun hduty => absurd hidle hduty⟩
    · obtain ⟨s, hfollows, hsettled, -, hthrown⟩ := ht
      exact ⟨s, hfollows, hsettled, hthrown⟩
  unfold sessionEvents
  cases run : (runConnectionSession crypto display).run w with
  | ok _ t =>
      obtain ⟨s, hfollows, hidle⟩ := hspec.of_ok run
      exact ⟨s, hfollows.drop, .inl hidle, fun hduty => absurd hidle hduty⟩
  | error e t =>
      obtain ⟨s, hfollows, hsettled, hthrown⟩ := hspec.of_error run
      refine ⟨s, hfollows.drop, hsettled, fun hduty => ?_⟩
      obtain ⟨what, rfl⟩ := hthrown hduty
      exact ⟨what, t, rfl⟩

theorem sound_authenticated (t : Transport) : Sound (State.authenticated t) :=
  ⟨rfl, rfl, rfl, nofun, nofun⟩

theorem Sound.of_run {l : List Event} {s s' : State} (h : Sound s) (run : Run Step s l s') :
    Sound s' :=
  run.invariant (fun _ s => Sound s) h (fun _ _ _ _ hs hstep => hstep.sound hs)

/-- A session that has been prepared, and its machine. -/
theorem at_shell_of_prepared {display : Display} {w w' : World}
    (prepared : (prepareSession crypto display).run w = .ok () w') :
    At w.wire.trace (State.authenticated w.wire.transport) (· = .shell) w' := by
  have hspec : WP (prepareSession crypto display) w
      (fun _ t => At w.wire.trace (State.authenticated w.wire.transport) (· = .shell) t)
      (fun _ _ => True) :=
    wp_prepareSession crypto (reached_authenticated w.wire) rfl rfl (fun t ht => ht)
      (fun _ _ _ => trivial)
  exact hspec.of_ok prepared

end SshClient.Protocol

import SshClient.Protocol.Windows

/-!
# The end of a session

The close of the server is answered at once and nothing is sent behind the answer. What a
run has seen of the close and of the exit status can be read off the state of the machine,
and the flags of the channel are never taken back.
-/

namespace SshClient.Protocol

open Control Connection Client Transport

variable {l : List Event} {s s' : State} {e : Event}

/-! ### The close -/

/-- A message that closes a channel. -/
def IsClose (payload : Bytes) : Prop := payload.head? = some Message.channelClose

/-- How the close that is due, on its way or done shows in the trace. -/
structure CloseLog (l : List Event) (s : State) : Prop where
  due : s.duty = .close → ∃ l' payload, l = l' ++ [.accepted payload] ∧ IsClose payload
  closing : s.stage = .closing → ∃ l' payload t,
    l = l' ++
      [.accepted payload, .sending t (recipientOnly Message.channelClose s.channel.remoteId)] ∧
      IsClose payload
  closed : s.stage.finished = true → ∃ l' payload t reply m,
    l = l' ++ .accepted payload :: .sending t reply :: .sent reply :: m ∧ IsClose payload ∧
      IsClose reply

theorem CloseLog.keep (h : CloseLog l s) (hduty : s'.duty ≠ .close) (hclosing : s'.stage ≠ .closing)
    (hstage : s'.stage.finished = true → s.stage.finished = true) :
    CloseLog (l ++ [e]) s' := by
  refine ⟨fun hyes => absurd hyes hduty, fun hyes => absurd hyes hclosing, fun hyes => ?_⟩
  obtain ⟨l', payload, t, reply, m, rfl, hpayload, hreply⟩ := h.closed (hstage hyes)
  exact ⟨l', payload, t, reply, m ++ [e], by simp, hpayload, hreply⟩

theorem Step.of_closing (step : Step s e s') (sound : Sound s) (stage : s.stage = .closing) :
    e = .sent (recipientOnly Message.channelClose s.channel.remoteId) ∧
      s' = { s with stage := .closed } := by
  have idle := sound.ended (by rw [stage]; rfl)
  cases step <;> simp_all [Stage.listening]

theorem CloseLog.step (h : CloseLog l s) (sound : Sound s) (step : Step s e s') :
    CloseLog (l ++ [e]) s' := by
  by_cases hclosing : s.stage = .closing
  · have idle := sound.ended (by rw [hclosing]; rfl)
    obtain ⟨rfl, rfl⟩ := step.of_closing sound hclosing
    obtain ⟨l', payload, t, rfl, hpayload⟩ := h.closing hclosing
    refine ⟨fun hyes => ?_, fun hyes => (nomatch hyes), fun _ => ⟨l', payload, t,
      recipientOnly Message.channelClose s.channel.remoteId, [], by simp, hpayload, rfl⟩⟩
    rw [show s.duty = _ from hyes] at idle
    cases idle
  · cases step with
    | close stage duty =>
        refine ⟨fun _ => ⟨l, _, rfl, rfl⟩, fun hyes => absurd hyes hclosing, fun hyes => ?_⟩
        rw [stage] at hyes
        cases hyes
    | @sendClose t duty =>
        obtain ⟨l', payload, rfl, hpayload⟩ := h.due duty
        exact ⟨fun hyes => (nomatch hyes), fun _ => ⟨l', payload, t, by simp, hpayload⟩,
          fun hyes => (nomatch hyes)⟩
    | sentClose stage => exact absurd stage hclosing
    | quiet stage =>
        refine h.keep (fun hduty => ?_) hclosing id
        have := sound.interactive (by rw [hduty]; rfl)
        rw [stage] at this
        cases this
    | @success count =>
        refine h.keep (by simp) ?_ ?_ <;> cases count <;> simp [Stage.granted, Stage.finished]
    | global => exact h.keep (by split <;> simp) hclosing id
    | wroteStdout | wroteStderr =>
        refine h.keep ?_ hclosing id
        unfold State.windowed
        split <;> simp
    | report stage idle => exact h.keep (by simp [idle]) (by simp) (fun _ => by rw [stage]; rfl)
    | _ => apply h.keep <;> simp_all [State.counted, State.judging, Stage.finished]

theorem closeLog_of_run {t : Transport} (run : Run Step (State.authenticated t) l s) :
    CloseLog l s := by
  have h : Sound s ∧ CloseLog l s := run.invariant (fun l s => Sound s ∧ CloseLog l s)
    ⟨sound_authenticated t, ⟨nofun, nofun, nofun⟩⟩
    (fun _ _ _ _ h step => ⟨step.sound h.1, h.2.step h.1 step⟩)
  exact h.2

/-- Nothing is sent behind the reply to a close. -/
theorem Step.of_ended (step : Step s e s') (sound : Sound s) (ended : s.stage.ended = true) :
    s'.stage.ended = true ∧ ∀ t payload, e ≠ .sending t payload := by
  have idle := sound.ended ended
  cases step with
  | listen listening =>
      rw [Stage.ended_of_listening listening] at ended
      cases ended
  | _ => simp_all [Stage.ended]

theorem Step.of_finished (step : Step s e s') (sound : Sound s) (stage : s.stage.finished = true) :
    s'.stage.finished = true := by
  have hover : s.stage.ended = true := by
    cases hs : s.stage <;> rw [hs] at stage <;> first | rfl | cases stage
  have idle := sound.ended hover
  cases step with
  | listen listening =>
      rw [Stage.ended_of_listening listening] at hover
      cases hover
  | _ => simp_all [Stage.finished]

theorem not_sending_of_ended {start : State} (run : Run Step start l s) (sound : Sound start)
    (ended : start.stage.ended = true) : ∀ t payload, .sending t payload ∉ l := by
  have h := run.invariant (fun l s => Sound s ∧ s.stage.ended = true ∧
    ∀ t payload, .sending t payload ∉ l) ⟨sound, ended, by simp⟩ ?_
  · exact h.2.2
  · rintro l s e s' ⟨hsound, hover, hl⟩ step
    obtain ⟨hover', he⟩ := step.of_ended hsound hover
    refine ⟨step.sound hsound, hover', fun t payload hmem => ?_⟩
    obtain hmem | hmem := List.mem_append.mp hmem
    · exact hl t payload hmem
    · exact he t payload (List.mem_singleton.mp hmem).symm

/-- A close is sent only when one is due. -/
theorem due_of_close {t tr : Transport} {payload : Bytes}
    (run : Run Step (State.authenticated t) l s) (step : Step s (.sending tr payload) s')
    (close : IsClose payload) : s.duty = .close ∧ s'.stage = .closing := by
  have head : payload.head? = some Message.channelClose := close
  simpa +decide [head] using sending_cases step (sendBalance_of_run run).scripted

/-- An accepted close makes a close due. -/
theorem close_due {t : Transport} {payload : Bytes} (run : Run Step (State.authenticated t) l s)
    (step : Step s (.accepted payload) s') (close : IsClose payload) :
    s'.duty = .close ∧ s'.stage = .shell := by
  obtain ⟨stage, -, -, rfl⟩ := step.of_channelClose (sendBalance_of_run run).scripted close
  exact ⟨rfl, stage⟩

/-- Behind an answered close the channel stays closed. -/
theorem finished_of_answer {t tr : Transport} {payload reply : Bytes} {m : List Event}
    (run : Run Step (State.authenticated t)
      (l ++ .accepted payload :: .sending tr reply :: .sent reply :: m) s)
    (close : IsClose payload) : s.stage.finished = true := by
  obtain ⟨s1, s2, hl, haccepted, hrest⟩ := run.split_at
  obtain ⟨duty, stage⟩ := close_due hl haccepted close
  obtain ⟨s3, hsending, hrest⟩ := hrest.cons_inv
  obtain ⟨tr', -, hclosing⟩ := hsending.of_close duty stage
  obtain ⟨s4, hsent, hrest⟩ := hrest.cons_inv
  have hsound := (((sound_authenticated t).of_run hl) |> haccepted.sound |> hsending.sound)
  obtain ⟨-, rfl⟩ := hsent.of_closing hsound hclosing
  have h := hrest.invariant (fun _ s => Sound s ∧ s.stage.finished = true)
    ⟨hsent.sound hsound, rfl⟩ ?_
  · exact h.2
  · rintro _ s e s' ⟨hsound, hstage⟩ step
    exact ⟨step.sound hsound, step.of_finished hsound hstage⟩

/-! ### The flags and the exit status -/

/-- The flags that the server raises are still up. -/
structure FlagsKept (c c' : Channel) : Prop where
  eof : c.remoteEofReceived = true → c'.remoteEofReceived = true
  close : c.remoteCloseReceived = true → c'.remoteCloseReceived = true
  exitStatus : c.exitStatusReceived = true → c'.exitStatusReceived = true

theorem FlagsKept.refl (c : Channel) : FlagsKept c c := ⟨id, id, id⟩

theorem Step.flagsKept (step : Step s e s') (late : s.stage.late = true) :
    FlagsKept s.channel s'.channel := by
  cases step with
  | openChannel stage =>
      rw [stage] at late
      cases late
  | eof => exact ⟨fun _ => rfl, id, id⟩
  | close => exact ⟨id, fun _ => rfl, id⟩
  | exitStatus => exact ⟨id, id, fun _ => rfl⟩
  | _ => exact ⟨id, id, id⟩

theorem flagsKept_of_run {start : State} (run : Run Step start l s)
    (late : start.stage.late = true) : FlagsKept start.channel s.channel := by
  have h := run.invariant (fun _ s => s.stage.late = true ∧ FlagsKept start.channel s.channel)
    ⟨late, .refl _⟩ ?_
  · exact h.2
  · rintro _ s e s' ⟨hlate, hkept⟩ step
    obtain ⟨heof, hclose, hexit⟩ := step.flagsKept hlate
    exact ⟨step.late hlate, heof ∘ hkept.eof, hclose ∘ hkept.close, hexit ∘ hkept.exitStatus⟩

/-- The acceptance of a channel request, which can only be an exit status. -/
def Exits : Event → Bool
  | .accepted payload => payload.head? == some Message.channelRequest
  | _ => false

structure ExitLog (l : List Event) (s : State) : Prop where
  scripted : ∀ rest, s.stage = .scripted rest → s.channel.exitStatusReceived = false
  count : l.countP Exits = if s.channel.exitStatusReceived then 1 else 0
  value : s.channel.exitStatusReceived = true → ∃ recipient wantReply,
    .accepted (exitStatus recipient wantReply s.channel.exitStatus) ∈ l

theorem ExitLog.keep (h : ExitLog l s) (scripted : ∀ rest, s'.stage = .scripted rest →
      s.channel.exitStatusReceived = false)
    (hreceived : s'.channel.exitStatusReceived = s.channel.exitStatusReceived)
    (hstatus : s'.channel.exitStatus = s.channel.exitStatus) (hexits : Exits e = false) :
    ExitLog (l ++ [e]) s' := by
  refine ⟨fun rest hrest => hreceived.trans (scripted rest hrest), ?_, fun hyes => ?_⟩
  · rw [List.countP_append, h.count, hreceived]
    simp [hexits]
  · rw [hreceived] at hyes
    obtain ⟨recipient, wantReply, hmem⟩ := h.value hyes
    exact ⟨recipient, wantReply, by rw [hstatus]; exact List.mem_append_left _ hmem⟩

theorem ExitLog.step (h : ExitLog l s) (nothing : ∀ rest, s.stage = .scripted rest → rest = [])
    (step : Step s e s') : ExitLog (l ++ [e]) s' := by
  have heads : ∀ {payload : Bytes} {number : UInt8}, payload.head? = some number →
      number ≠ Message.channelRequest → Exits (.accepted payload) = false := by
    intro payload number head hne
    simp [Exits, head, hne]
  cases step with
  | @exitStatus wantReply status stage duty first =>
      refine ⟨fun rest hrest => ?_, ?_, fun _ =>
        ⟨s.channel.localId, wantReply, List.mem_append_right _ (List.mem_singleton_self _)⟩⟩
      · rw [stage] at hrest
        cases hrest
      · rw [List.countP_append, h.count, first]
        simp [Exits]
  | quiet stage hquiet =>
      have hexits : Exits e = false := by
        cases e <;> first | rfl | cases hquiet
      exact h.keep h.scripted rfl rfl hexits
  | accept stage => exact absurd (nothing _ stage) (by simp)
  | openChannel stage =>
      have hreceived := h.scripted _ stage
      refine ⟨fun _ _ => rfl, ?_, fun hyes => (nomatch hyes)⟩
      rw [List.countP_append, h.count, hreceived]
      rfl
  | send stage | receive stage => exact h.keep (fun _ _ => h.scripted _ stage) rfl rfl rfl
  | @success count =>
      exact h.keep (fun _ hrest => by cases count <;> cases hrest) rfl rfl
        (heads (head?_recipientOnly _ _) (by decide))
  | confirmation =>
      exact h.keep (fun _ hrest => (nomatch hrest)) rfl rfl
        (heads (head?_openConfirmation _ _ _ _) (by decide))
  | global => exact h.keep h.scripted rfl rfl (heads (head?_globalRequest _ _ _) (by decide))
  | adjust => exact h.keep h.scripted rfl rfl (heads (head?_windowAdjust _ _) (by decide))
  | data => exact h.keep h.scripted rfl rfl (heads (head?_channelData _ _) (by decide))
  | extendedData => exact h.keep h.scripted rfl rfl (heads (head?_extendedData _ _ _) (by decide))
  | eof | close =>
      exact h.keep h.scripted rfl rfl (heads (head?_recipientOnly _ _) (by decide))
  | request | sendClose | sentClose | report =>
      exact h.keep (fun _ hrest => (nomatch hrest)) rfl rfl rfl
  | _ => exact h.keep h.scripted rfl rfl rfl

theorem exitLog_of_run {t : Transport} (run : Run Step (State.authenticated t) l s) :
    ExitLog l s := by
  induction run with
  | nil => exact ⟨fun _ _ => rfl, rfl, fun hyes => (nomatch hyes)⟩
  | snoc hrun step ih => exact ih.step (sendBalance_of_run hrun).scripted step

/-! ### The shell of a session -/

variable (crypto : Crypto)

/-- What has happened when the shell is over that `w'` is ready to start. -/
def shellEvents (w w' : World) : List Event :=
  eventsSince w (outcome ((runInteractiveShell crypto).run w'))

variable {display : Display} {w w' : World}

/-- The outcome of the shell, by the machine. -/
theorem shell_outcome (prepared : (prepareSession crypto display).run w = .ok () w') :
    (∃ t, (runInteractiveShell crypto).run w' = .ok () t ∧
        At w.wire.trace (State.authenticated w.wire.transport) (· = .closed) t ∧
        Restores w'.console) ∨
      ∃ e t, (runInteractiveShell crypto).run w' = .error e t ∧
        (Stopped w.wire.trace (State.authenticated w.wire.transport) e t.wire ∨
          At w.wire.trace (State.authenticated w.wire.transport) (· = .closed) t ∧
            ¬ Restores w'.console) := by
  have hspec : WP (runInteractiveShell crypto) w'
      (fun _ t => At w.wire.trace (State.authenticated w.wire.transport) (· = .closed) t ∧
        Restores w'.console)
      (fun e t => Stopped w.wire.trace (State.authenticated w.wire.transport) e t.wire ∨
        At w.wire.trace (State.authenticated w.wire.transport) (· = .closed) t ∧
          ¬ Restores w'.console) :=
    wp_runInteractiveShell crypto (at_shell_of_prepared crypto prepared)
      (fun t ht hrestores => ⟨ht, hrestores⟩) (fun e t ht hrestores => .inr ⟨ht, hrestores⟩)
      (fun e t ht => .inl ht)
  cases run : (runInteractiveShell crypto).run w' with
  | ok _ t => exact .inl ⟨t, rfl, hspec.of_ok run⟩
  | error e t => exact .inr ⟨e, t, rfl, hspec.of_error run⟩

theorem shellEvents_run (prepared : (prepareSession crypto display).run w = .ok () w') :
    ∃ s, Run Step (State.authenticated w.wire.transport) (shellEvents crypto w w') s ∧
      Settled s := by
  unfold shellEvents
  obtain ⟨t, run, ⟨s, hs, hidle, -⟩, -⟩ | ⟨e, t, run, hstop | ⟨⟨s, hs, hidle, -⟩, -⟩⟩ :=
    shell_outcome crypto prepared
  · rw [run]
    exact ⟨s, hs.reached.follows.drop, .inl hidle⟩
  · rw [run]
    obtain ⟨s, hfollows, hsettled, -⟩ := hstop
    exact ⟨s, hfollows.drop, hsettled⟩
  · rw [run]
    exact ⟨s, hs.reached.follows.drop, .inl hidle⟩

/-- The close of the server, answered. -/
def Answered (l : List Event) : Prop :=
  ∃ l' payload t reply m, l = l' ++ .accepted payload :: .sending t reply :: .sent reply :: m ∧
    IsClose payload ∧ IsClose reply

/-- The shell returns exactly when a close has been answered and the terminal restored. -/
theorem shell_returns_iff (prepared : (prepareSession crypto display).run w = .ok () w') :
    (∃ t, (runInteractiveShell crypto).run w' = .ok () t) ↔
      Answered (shellEvents crypto w w') ∧ Restores w'.console := by
  unfold shellEvents
  obtain ⟨t, run, ⟨s, hs, -, hclosed⟩, hrestores⟩ | ⟨e, t, run, hstop⟩ :=
    shell_outcome crypto prepared
  · rw [run]
    refine ⟨fun _ => ⟨?_, hrestores⟩, fun _ => ⟨t, rfl⟩⟩
    exact (closeLog_of_run hs.reached.follows.drop).closed (by rw [hclosed]; rfl)
  · rw [run]
    refine ⟨fun ⟨_, h⟩ => (nomatch h), fun ⟨hanswered, hrestores⟩ => ?_⟩
    obtain ⟨l, payload, tr, reply, m, hevents, hclose, -⟩ := hanswered
    obtain ⟨s, hfollows, -, hfinished, -⟩ | ⟨-, hnot⟩ := hstop
    · have hrun := hfollows.drop
      rw [show t.wire.trace.drop w.wire.trace.length = _ from hevents] at hrun
      rw [finished_of_answer hrun hclose] at hfinished
      cases hfinished
    · exact absurd hrestores hnot

/-- What the client reports of the exit status. -/
theorem reportExitStatus_of_shell (prepared : (prepareSession crypto display).run w = .ok () w')
    {t : World} (run : (runInteractiveShell crypto).run w' = .ok () t) :
    ((shellEvents crypto w w').countP Exits = 1 ∧ ∃ recipient wantReply status,
        .accepted (exitStatus recipient wantReply status) ∈ shellEvents crypto w w' ∧
        reportExitStatus.run t = (print (exitReport status)).run t) ∨
      ((shellEvents crypto w w').countP Exits = 0 ∧ reportExitStatus.run t = .ok () t) := by
  unfold shellEvents
  obtain ⟨t', run', ⟨s, hs, -, -⟩, -⟩ | ⟨e, t', run', -⟩ := shell_outcome crypto prepared
  · rw [run] at run'
    cases run'
    rw [run]
    have hlog := exitLog_of_run hs.reached.follows.drop
    have hcount := hlog.count
    cases hreceived : s.channel.exitStatusReceived with
    | false =>
        rw [hreceived] at hcount
        rw [← hs.channel] at hreceived
        exact .inr ⟨hcount, by simp [reportExitStatus, hreceived]⟩
    | true =>
        rw [hreceived] at hcount
        obtain ⟨recipient, wantReply, hmem⟩ := hlog.value hreceived
        refine .inl ⟨hcount, recipient, wantReply, _, hmem, ?_⟩
        simp [reportExitStatus, hreceived, hs.channel]
  · rw [run] at run'
    cases run'

/-- The close is sent once, as the answer to the close of the server, and nothing behind
it. The shell returns exactly when that has happened and the terminal has been restored.
While the channel is open neither side has closed it, the flags of the server stay, and
the exit status that is reported is the one that was received. -/
theorem shell_close_handshake (prepared : (prepareSession crypto display).run w = .ok () w') :
    (∀ l t payload m, shellEvents crypto w w' = l ++ .sending t payload :: m → IsClose payload →
      (∃ l' close, l = l' ++ [.accepted close] ∧ IsClose close) ∧
        ∀ t' payload', .sending t' payload' ∉ m) ∧
    (∀ l close m, shellEvents crypto w w' = l ++ .accepted close :: m → IsClose close →
      ∃ t reply m', m = .sending t reply :: m' ∧ IsClose reply) ∧
    ((∃ t, (runInteractiveShell crypto).run w' = .ok () t) ↔
      Answered (shellEvents crypto w w') ∧ Restores w'.console) ∧
    (∀ c t, .loopHead c t ∈ shellEvents crypto w w' → c.isOpen = true →
      c.localCloseSent = false ∧ c.remoteCloseReceived = false) ∧
    (∀ l c t m c' t' n, shellEvents crypto w w' =
        l ++ .loopHead c t :: (m ++ .loopHead c' t' :: n) → FlagsKept c c') ∧
    ∀ t, (runInteractiveShell crypto).run w' = .ok () t →
      ((shellEvents crypto w w').countP Exits = 1 ∧ ∃ recipient wantReply status,
          .accepted (exitStatus recipient wantReply status) ∈ shellEvents crypto w w' ∧
          reportExitStatus.run t = (print (exitReport status)).run t) ∨
        ((shellEvents crypto w w').countP Exits = 0 ∧ reportExitStatus.run t = .ok () t) := by
  obtain ⟨s, run, settled⟩ := shellEvents_run crypto prepared
  refine ⟨fun l t payload m hevents hclose => ?_, fun l close m hevents hclose => ?_,
    shell_returns_iff crypto prepared, fun c t hhead hopen => ?_, fun l c t m c' t' n hevents => ?_,
    fun t => reportExitStatus_of_shell crypto prepared⟩
  · rw [hevents] at run
    obtain ⟨u, v, hl, step, rest⟩ := run.split_at
    obtain ⟨hdue, hstage⟩ := due_of_close hl step hclose
    have hsound := step.sound ((sound_authenticated _).of_run hl)
    exact ⟨(closeLog_of_run hl).due hdue, not_sending_of_ended rest hsound (by rw [hstage]; rfl)⟩
  · rw [hevents] at run
    obtain ⟨u, v, hl, step, rest⟩ := run.split_at
    obtain ⟨hduty, hstage⟩ := close_due hl step hclose
    obtain ⟨e, m', x, rfl, hstep, -⟩ := settled.next rest (by simp [hduty])
    obtain ⟨tr, rfl, -⟩ := hstep.of_close hduty hstage
    exact ⟨tr, _, m', rfl, rfl⟩
  · obtain ⟨l, m, hevents⟩ := List.append_of_mem hhead
    rw [hevents] at run
    obtain ⟨u, v, hl, step, -⟩ := run.split_at
    obtain ⟨hisOpen, hlocal, hremote, -, -⟩ := (sound_authenticated _).of_run hl
    cases step with
    | quiet _ hquiet => cases hquiet
    | head stage idle =>
        obtain stage | stage := stage
        · rw [stage] at hlocal hremote
          rw [idle] at hremote
          exact ⟨hlocal, hremote⟩
        · rw [hisOpen, stage] at hopen
          cases hopen
  · rw [hevents] at run
    obtain ⟨u, v, hl, step, rest⟩ := run.split_at
    obtain ⟨u', v', hm, step', -⟩ := rest.split_at
    have hlate : v.stage.late = true :=
      late_of_head (hl.snoc step) (List.mem_append_right _ (List.mem_singleton_self _))
    have hkept := flagsKept_of_run hm hlate
    cases step with
    | quiet _ hquiet => cases hquiet
    | head =>
        cases step' with
        | quiet _ hquiet => cases hquiet
        | head => exact hkept

/-- The shell of the short login, which reports the exit status. -/
theorem shell_close_handshake_shortLogin :
    ∃ w' t, (prepareSession (zeroKeyCrypto []) {}).run shortLogin = .ok () w' ∧
      (runInteractiveShell (zeroKeyCrypto [])).run w' = .ok () t ∧
      Answered (shellEvents (zeroKeyCrypto []) shortLogin w') ∧
      ∃ status, reportExitStatus.run t = (print (exitReport status)).run t := by
  have hprepared := eq_ok_of_returned
    (r := (prepareSession (zeroKeyCrypto []) {}).run shortLogin) (by decide +kernel)
  generalize hw : outcome ((prepareSession (zeroKeyCrypto []) {}).run shortLogin) = w' at hprepared
  have hrun := eq_ok_of_returned
    (r := (runInteractiveShell (zeroKeyCrypto [])).run w') (by rw [← hw]; decide +kernel)
  obtain ⟨-, -, hreturns, -, -, hreport⟩ := shell_close_handshake (zeroKeyCrypto []) hprepared
  refine ⟨w', _, hprepared, hrun, (hreturns.mp ⟨_, hrun⟩).1, ?_⟩
  obtain ⟨-, _, _, status, -, hstatus⟩ | ⟨hcount, -⟩ := hreport _ hrun
  · exact ⟨status, hstatus⟩
  · have hone : (shellEvents (zeroKeyCrypto []) shortLogin w').countP Exits = 1 := by
      rw [← hw]
      decide +kernel
    rw [hone] at hcount
    cases hcount

/-- The short login at a terminal that cannot be restored. -/
def stuckTerminal : World := { shortLogin with console := { setAnswers := [true, false] } }

/-- The close has been accepted and answered, but the shell does not return. -/
theorem shell_close_answered_not_returned :
    ∃ w', (prepareSession (zeroKeyCrypto []) {}).run stuckTerminal = .ok () w' ∧
      Answered (shellEvents (zeroKeyCrypto []) stuckTerminal w') ∧
      ¬ ∃ t, (runInteractiveShell (zeroKeyCrypto [])).run w' = .ok () t := by
  have hprepared := eq_ok_of_returned
    (r := (prepareSession (zeroKeyCrypto []) {}).run stuckTerminal) (by decide +kernel)
  refine ⟨_, hprepared, ?_, fun ⟨t, ht⟩ => ?_⟩
  · let events := shellEvents (zeroKeyCrypto []) stuckTerminal
      (outcome ((prepareSession (zeroKeyCrypto []) {}).run stuckTerminal))
    exact ⟨events.take 29, recipientOnly Message.channelClose 0,
      { outgoingSequence := 4, incomingSequence := 8 }, recipientOnly Message.channelClose 7,
      events.drop 32, by decide +kernel, rfl, rfl⟩
  · exact ne_ok_of_not_returned (by decide +kernel) ht

end SshClient.Protocol

import SshClient.Protocol.Session
import SshClient.Transport.Exact

/-!
# The windows of the session

What a run has granted, sent and delivered are totals over its events. The invariant of
each direction says how the window of the channel follows from them, as natural numbers.
It is kept by every step of the machine and therefore holds at every event of a session.
-/

namespace SshClient

open Connection

namespace Event

/-- The bytes that an accepted message allows the client to send. -/
def grants : Event → Nat
  | .accepted payload =>
      (windowOf payload).elim 0 UInt32.toNat + (adjustOf payload).elim 0 UInt32.toNat
  | _ => 0

/-- The bytes that a message of the client allows the server to send. -/
def refills : Event → Nat
  | .sending _ payload => (adjustOf payload).elim 0 UInt32.toNat
  | _ => 0

/-- The bytes of the server that reach the user. -/
def delivers : Event → Nat
  | .wroteStdout data | .wroteStderr data => data.length
  | _ => 0

/-- The data of the user that is sent. -/
def carries : Event → Bytes
  | .sending _ payload => (dataOf payload).getD []
  | _ => []

/-- The data that is read from the keyboard. -/
def reads : Event → Bytes
  | .typed _ bytes => bytes
  | _ => []

/-- The acceptance of the channel by the server. -/
def opens : Event → Bool
  | .accepted payload => (windowOf payload).isSome
  | _ => false

end Event

namespace Protocol

open Control Client Transport

def granted (l : List Event) : Nat := (l.map Event.grants).sum

def refilled (l : List Event) : Nat := (l.map Event.refills).sum

def delivered (l : List Event) : Nat := (l.map Event.delivers).sum

def carried (l : List Event) : Bytes := l.flatMap Event.carries

def keyed (l : List Event) : Bytes := l.flatMap Event.reads

section Totals

variable (l : List Event) (e : Event)

@[simp] theorem granted_snoc : granted (l ++ [e]) = granted l + e.grants := by simp [granted]

@[simp] theorem refilled_snoc : refilled (l ++ [e]) = refilled l + e.refills := by simp [refilled]

@[simp] theorem delivered_snoc : delivered (l ++ [e]) = delivered l + e.delivers := by
  simp [delivered]

@[simp] theorem carried_snoc : carried (l ++ [e]) = carried l ++ e.carries := by simp [carried]

@[simp] theorem keyed_snoc : keyed (l ++ [e]) = keyed l ++ e.reads := by simp [keyed]

end Totals

variable {l : List Event} {s s' : State} {e : Event}

/-! ### The window of the client -/

/-- What has been taken from the window and not been written yet. -/
def Duty.output : Duty → Nat
  | .deliver data | .deliverError data => data.length
  | _ => 0

/-- The duties between the receipt of data and the window being looked at. -/
def Duty.consuming : Duty → Bool
  | .deliver _ | .deliverError _ | .refill => true
  | _ => false

def Stage.begun : Stage → Bool
  | .scripted _ => false
  | _ => true

structure ReceiveBalance (l : List Event) (s : State) : Prop where
  begun : s.stage.begun = true
  localId : s.channel.localId = initialChannelId
  maxPacket : s.channel.localMaxPacket = localMaxPacketSize
  balance : 1048576 + refilled l = s.channel.localWindow.toNat + delivered l + s.duty.output
  target : s.channel.localWindow.toNat ≤ 1048576
  threshold : s.duty.consuming = false → 524288 < s.channel.localWindow.toNat

/-- A step that leaves the window and the totals alone. -/
theorem ReceiveBalance.keep (h : ReceiveBalance l s) (begun : s'.stage.begun = true)
    (hid : s'.channel.localId = s.channel.localId)
    (hmax : s'.channel.localMaxPacket = s.channel.localMaxPacket)
    (hwindow : s'.channel.localWindow = s.channel.localWindow)
    (hbefore : s.duty.consuming = false) (hafter : s'.duty.consuming = false)
    (hrefills : e.refills = 0) (hdelivers : e.delivers = 0) : ReceiveBalance (l ++ [e]) s' := by
  have houtput : ∀ {duty : Duty}, duty.consuming = false → duty.output = 0 := by
    intro duty hduty
    cases duty <;> first | rfl | cases hduty
  refine ⟨begun, hid.trans h.localId, hmax.trans h.maxPacket, ?_, ?_, fun _ => ?_⟩
  · have hbalance := h.balance
    rw [houtput hbefore] at hbalance
    rw [hwindow, houtput hafter, refilled_snoc, delivered_snoc, hrefills, hdelivers]
    exact hbalance
  · rw [hwindow]
    exact h.target
  · rw [hwindow]
    exact h.threshold hbefore

/-- Data that is accepted is taken from the window. -/
theorem ReceiveBalance.take {data : Bytes} {duty : Duty} (h : ReceiveBalance l s)
    (hbefore : s.duty.consuming = false) (hlen : data.length ≤ s.channel.localWindow.toNat)
    (hafter : duty.consuming = true) (houtput : duty.output = data.length)
    (hrefills : e.refills = 0) (hdelivers : e.delivers = 0) :
    ReceiveBalance (l ++ [e]) { s with
      duty := duty
      channel := { s.channel with
        localWindow := s.channel.localWindow - UInt32.ofNat data.length } } := by
  have hwindow := toNat_sub_length hlen
  have hbalance := h.balance
  have htarget := h.target
  have hold : s.duty.output = 0 := by
    cases hduty : s.duty <;> rw [hduty] at hbefore <;> first | rfl | cases hbefore
  rw [hold] at hbalance
  refine ⟨h.begun, h.localId, h.maxPacket, ?_, ?_, fun hno => ?_⟩
  · rw [refilled_snoc, delivered_snoc, hrefills, hdelivers, hwindow, houtput]
    omega
  · rw [hwindow]
    omega
  · rw [hafter] at hno
    cases hno

/-- Output that is written is counted, and a small window is refilled next. -/
theorem ReceiveBalance.write (h : ReceiveBalance l s) (hrefills : e.refills = 0)
    (hdelivers : e.delivers = s.duty.output) : ReceiveBalance (l ++ [e]) s.windowed := by
  have hbalance := h.balance
  have houtput : s.windowed.duty.output = 0 := by
    unfold State.windowed
    split <;> rfl
  refine ⟨h.begun, h.localId, h.maxPacket, ?_, h.target, fun hno => ?_⟩
  · rw [refilled_snoc, delivered_snoc, hrefills, hdelivers, houtput]
    change _ = s.channel.localWindow.toNat + _ + _
    omega
  · by_contra hlow
    have hle : s.channel.localWindow ≤ localWindowThreshold := Nat.not_lt.mp hlow
    simp [State.windowed, hle, Duty.consuming] at hno

/-- The adjustment brings the window back to the target. -/
theorem ReceiveBalance.refill {difference : UInt32} {t : Transport} (h : ReceiveBalance l s)
    (duty : s.duty = .refill)
    (hdifference : difference = localWindowTarget - s.channel.localWindow) :
    ReceiveBalance (l ++ [.sending t (windowAdjust s.channel.remoteId difference)])
      { s.counted with
        duty := .idle
        channel := { s.channel with localWindow := s.channel.localWindow + difference } } := by
  have hbalance := h.balance
  have htarget := h.target
  rw [duty] at hbalance
  have hn : difference.toNat = 1048576 - s.channel.localWindow.toNat := by
    rw [hdifference]
    exact UInt32.toNat_sub_of_le _ _ htarget
  have hadd : (s.channel.localWindow + difference).toNat = 1048576 := by
    rw [toNat_add_of_lt (by omega), hn]
    omega
  refine ⟨h.begun, h.localId, h.maxPacket, ?_, ?_, fun _ => ?_⟩
  · simp only [refilled_snoc, delivered_snoc, Event.refills, Event.delivers, adjustOf_windowAdjust,
      Option.elim_some, hadd, hn, Duty.output] at hbalance ⊢
    omega
  · rw [hadd]
  · rw [hadd]
    decide

theorem ReceiveBalance.step (h : ReceiveBalance l s) (step : Step s e s') :
    ReceiveBalance (l ++ [e]) s' := by
  cases step with
  | data stage duty _ hlen | extendedData stage duty _ hlen =>
      exact h.take (by rw [duty]; rfl) hlen rfl rfl rfl rfl
  | wroteStdout duty | wroteStderr duty => exact h.write rfl (by rw [duty]; rfl)
  | refill duty _ hdifference => exact h.refill duty hdifference
  | sent idle | head _ idle =>
      exact h.keep h.begun rfl rfl rfl (by rw [idle]; rfl) (by rw [idle]; rfl) rfl rfl
  | sentClose _ idle =>
      exact h.keep rfl rfl rfl rfl (by rw [idle]; rfl) (by rw [idle]; rfl) rfl rfl
  | quiet stage | send stage | receive stage | accept stage | openChannel stage =>
      have begun := h.begun
      rw [stage] at begun
      cases begun
  | listen _ idle => exact h.keep h.begun rfl rfl rfl (by rw [idle]; rfl) rfl rfl rfl
  | confirmation _ duty => exact h.keep rfl rfl rfl rfl (by rw [duty]; rfl) rfl rfl rfl
  | global _ duty => exact h.keep h.begun rfl rfl rfl (by rw [duty]; rfl) (by split <;> rfl) rfl rfl
  | reply duty => exact h.keep h.begun rfl rfl rfl (by rw [duty]; rfl) rfl rfl rfl
  | request _ idle _ head =>
      refine h.keep rfl rfl rfl rfl (by rw [idle]; rfl)
        (by simp [State.counted, idle, Duty.consuming])
        ?_ rfl
      simp [Event.refills, adjustOf_of_head head (by decide)]
  | @success count _ duty =>
      exact h.keep (by cases count <;> rfl) rfl rfl rfl (by rw [duty]; rfl) rfl rfl rfl
  | adjust _ duty => exact h.keep h.begun rfl rfl rfl (by rw [duty]; rfl) rfl rfl rfl
  | typed _ idle => exact h.keep h.begun rfl rfl rfl (by rw [idle]; rfl) rfl rfl rfl
  | sendTyped duty =>
      refine h.keep h.begun rfl rfl rfl (by rw [duty]; rfl) rfl ?_ rfl
      simp [Event.refills]
  | eof _ duty | exitStatus _ duty | close _ duty =>
      exact h.keep h.begun rfl rfl rfl (by rw [duty]; rfl) rfl rfl rfl
  | sendClose duty =>
      refine h.keep rfl rfl rfl rfl (by rw [duty]; rfl) rfl ?_ rfl
      simp [Event.refills,
        adjustOf_of_head (head?_recipientOnly s.channel.remoteId Message.channelClose) (by decide)]
  | report _ idle =>
      exact h.keep rfl rfl rfl rfl (by rw [idle]; rfl) (by rw [idle]; rfl) rfl rfl

/-- The window of the client in every run of a session. -/
theorem receiveBalance_of_run {t : Transport} (run : Run Step (State.authenticated t) l s) :
    (s.stage = .scripted [] ∧ s.duty = .idle ∧ refilled l = 0 ∧ delivered l = 0) ∨
      ReceiveBalance l s := by
  refine run.invariant (fun l s => (s.stage = .scripted [] ∧ s.duty = .idle ∧ refilled l = 0 ∧
    delivered l = 0) ∨ ReceiveBalance l s) (.inl ⟨rfl, rfl, rfl, rfl⟩) ?_
  rintro l s e s' (⟨stage, idle, hrefilled, hdelivered⟩ | h) step
  · cases step with
    | sent =>
        exact .inl ⟨stage, idle, by simp [hrefilled, Event.refills],
          by simp [hdelivered, Event.delivers]⟩
    | quiet _ hquiet =>
        have hweight : e.refills = 0 ∧ e.delivers = 0 := by
          cases e <;> first | exact ⟨rfl, rfl⟩ | cases hquiet
        exact .inl ⟨stage, idle, by simp [hrefilled, hweight], by simp [hdelivered, hweight]⟩
    | openChannel _ _ _ head =>
        refine .inr ⟨rfl, rfl, rfl, ?_,
          (by decide : initialChannel.localWindow.toNat ≤ 1048576),
          fun _ => (by decide : 524288 < initialChannel.localWindow.toNat)⟩
        simp [hrefilled, hdelivered, Event.refills, Event.delivers, State.counted, idle,
          adjustOf_of_head head (by decide), Duty.output, initialChannel, localWindowTarget]
    | _ => simp_all [Stage.listening]
  · exact .inr (h.step step)

/-- The window at a loop head. -/
theorem receiveBalance_at_head {t : Transport} {c : Channel} {tr : Transport}
    (run : Run Step (State.authenticated t) l s) (step : Step s (.loopHead c tr) s') :
    localWindowThreshold < c.localWindow ∧ c.localWindow ≤ localWindowTarget ∧
      localWindowTarget.toNat + refilled l = c.localWindow.toNat + delivered l := by
  cases step with
  | quiet _ hquiet => cases hquiet
  | head stage idle =>
      obtain ⟨hscripted, -⟩ | h := receiveBalance_of_run run
      · rw [hscripted] at stage
        obtain stage | stage := stage <;> cases stage
      · have hbalance := h.balance
        rw [idle] at hbalance
        exact ⟨h.threshold (by rw [idle]; rfl), h.target, hbalance⟩

/-- Output after which the window is small is followed by an adjustment to the target. -/
theorem refill_of_output {t : Transport} {m : List Event} {u : State}
    (run : Run Step (State.authenticated t) l s) (step : Step s e s')
    (rest : Run Step s' m u) (settled : Settled u) {data : Bytes}
    (output : e = .wroteStdout data ∨ e = .wroteStderr data)
    (small : localWindowTarget.toNat + refilled l ≤
      delivered (l ++ [e]) + localWindowThreshold.toNat) :
    ∃ tr recipient n m', m = .sending tr (windowAdjust recipient n) :: m' ∧
      n.toNat + refilled l = delivered (l ++ [e]) := by
  obtain ⟨rfl, stage, hrefills⟩ : s' = s.windowed ∧ s.stage = .shell ∧ e.refills = 0 := by
    have hinteractive := ((sound_authenticated t).of_run run).interactive
    obtain rfl | rfl := output
    · cases step with
      | quiet _ hquiet => cases hquiet
      | wroteStdout duty =>
          rw [duty] at hinteractive
          exact ⟨rfl, hinteractive rfl, rfl⟩
    · cases step with
      | quiet _ hquiet => cases hquiet
      | wroteStderr duty =>
          rw [duty] at hinteractive
          exact ⟨rfl, hinteractive rfl, rfl⟩
  have h : ReceiveBalance (l ++ [e]) s.windowed := by
    obtain ⟨hscripted, -⟩ | h := receiveBalance_of_run (run.snoc step)
    · have hscripted : s.stage = .scripted [] := hscripted
      rw [stage] at hscripted
      cases hscripted
    · exact h
  have hbalance : 1048576 + refilled (l ++ [e]) =
      s.channel.localWindow.toNat + delivered (l ++ [e]) + s.windowed.duty.output := h.balance
  have htarget : s.channel.localWindow.toNat ≤ 1048576 := h.target
  rw [refilled_snoc, hrefills] at hbalance
  have hlow : s.channel.localWindow ≤ localWindowThreshold := by
    rw [UInt32.le_iff_toNat_le]
    have : localWindowTarget.toNat = 1048576 := rfl
    omega
  have hduty : s.windowed.duty = .refill := if_pos hlow
  rw [hduty] at hbalance
  obtain ⟨e', m', v, rfl, hstep, -⟩ := settled.next rest (by simp [hduty])
  obtain ⟨tr, rfl⟩ := hstep.of_refill hduty stage
  refine ⟨tr, _, _, m', rfl, ?_⟩
  have hn : (localWindowTarget - s.channel.localWindow).toNat =
      1048576 - s.channel.localWindow.toNat := UInt32.toNat_sub_of_le _ _ htarget
  have houtput : Duty.refill.output = 0 := rfl
  change (localWindowTarget - s.channel.localWindow).toNat + _ = _
  omega

/-- The stages from the shell on. -/
def Stage.late : Stage → Bool
  | .shell | .closing | .closed | .reported => true
  | _ => false

theorem Stage.eq_shell {stage : Stage} (late : stage.late = true)
    (listening : stage.listening = true) : stage = .shell := by
  cases stage <;> simp_all [Stage.late, Stage.listening]

theorem Step.late (step : Step s e s') (h : s.stage.late = true) : s'.stage.late = true := by
  cases step <;> simp_all [Stage.late, State.counted, State.judging, State.windowed]

theorem late_of_head {start : State} (run : Run Step start l s) {c : Channel} {t : Transport}
    (head : .loopHead c t ∈ l) : s.stage.late = true := by
  obtain ⟨l, m, rfl⟩ := List.append_of_mem head
  obtain ⟨u, v, -, step, rest⟩ := run.split_at
  refine rest.invariant (fun _ s => s.stage.late = true) ?_ (fun _ _ _ _ h step => step.late h)
  cases step with
  | quiet _ hquiet => cases hquiet
  | head stage => obtain stage | stage := stage <;> rw [stage] <;> rfl

/-- A message with output for the user, of at most the size that the client announced. -/
def Output (payload : Bytes) : Prop :=
  ∃ data : Bytes, data.length ≤ localMaxPacketSize.toNat ∧
    (payload = channelData initialChannelId data ∨ payload = extendedData initialChannelId 1 data)

/-- A packet that is received behind the authentication is judged. -/
theorem Step.of_received {tr : Transport} {payload : Bytes}
    (step : Step s (.received tr payload) s')
    (nothing : ∀ rest, s.stage = .scripted rest → rest = []) :
    s.stage.listening = true ∧ s.duty = .idle ∧ s' = s.judging payload := by
  cases step with
  | quiet _ hquiet => cases hquiet
  | receive stage => exact absurd (nothing _ stage) (by simp)
  | listen listening idle => exact ⟨listening, idle, rfl⟩

/-- What is judged is accepted next, unless the machine refuses it and the run is over. -/
theorem judged {m : List Event} {u : State} {payload : Bytes} (rest : Run Step s m u)
    (settled : Settled u) (listening : s.stage.listening = true) (duty : s.duty = .judge payload) :
    (m = [] ∧ u = s ∧ Refused s payload) ∨
      ∃ m' v, m = .accepted payload :: m' ∧ Step s (.accepted payload) v ∧ Run Step v m' u := by
  obtain ⟨rfl, rfl⟩ | ⟨e', m', v, rfl, hstep, hrest⟩ := rest.head_cases
  · obtain hidle | ⟨payload', hjudge, hrefused⟩ := settled
    · rw [duty] at hidle
      cases hidle
    · rw [duty] at hjudge
      cases hjudge
      exact .inl ⟨rfl, rfl, hrefused listening⟩
  · cases hstep.of_judge duty listening
    exact .inr ⟨m', v, rfl, hstep, hrest⟩

/-- Once the shell has started, packets are received in it. -/
theorem receiveBalance_of_late {t : Transport} (run : Run Step (State.authenticated t) l s)
    (late : s.stage.late = true) (listening : s.stage.listening = true) :
    s.stage = .shell ∧ ReceiveBalance l s := by
  have stage := Stage.eq_shell late listening
  obtain ⟨hscripted, -⟩ | h := receiveBalance_of_run run
  · rw [stage] at hscripted
    cases hscripted
  · exact ⟨stage, h⟩

/-- Output that is received in the shell loop is accepted at once. -/
theorem accepted_of_output {t tr : Transport} {m : List Event} {u : State} {payload : Bytes}
    (run : Run Step (State.authenticated t) l s) (step : Step s (.received tr payload) s')
    (rest : Run Step s' m u) (settled : Settled u) (late : s.stage.late = true)
    (output : Output payload) : ∃ m', m = .accepted payload :: m' := by
  obtain ⟨listening, idle, rfl⟩ := step.of_received (fun rest hscripted => by
    rw [hscripted] at late
    cases late)
  obtain ⟨stage, h⟩ := receiveBalance_of_late run late listening
  obtain ⟨-, -, hrefused⟩ | ⟨m', v, hm, -, -⟩ := judged rest settled listening rfl
  · obtain ⟨data, hlen, hpayload⟩ := output
    have hmax : data.length ≤ s.channel.localMaxPacket.toNat := by
      rw [h.maxPacket]
      exact hlen
    have hwin : data.length ≤ s.channel.localWindow.toNat := by
      have := h.threshold (by rw [idle]; rfl)
      have hsize : localMaxPacketSize.toNat = 32768 := rfl
      omega
    rw [← h.localId] at hpayload
    obtain rfl | rfl := hpayload
    · exact (hrefused _ (.data stage rfl hmax hwin)).elim
    · exact (hrefused _ (.extendedData stage rfl hmax hwin)).elim
  · exact ⟨m', hm⟩

/-- Output in any legal frame passes the checks of the receiver. -/
theorem exists_frame_of_output {payload padding : Bytes} {block : Nat} (output : Output payload)
    (hmin : minPaddingLength ≤ padding.length) (hmax : padding.length ≤ 255)
    (haligned : (5 + payload.length + padding.length) % block = 0) :
    ∃ f : Frame block, f.payload = payload ∧ f.padding = padding := by
  obtain ⟨data, hlen, hpayload⟩ := output
  have hlen : data.length ≤ 32768 := hlen
  have hsize : 9 ≤ payload.length ∧ payload.length ≤ 32781 := by
    obtain rfl | rfl := hpayload <;> simp [channelData, extendedData] <;> omega
  have hmin : 4 ≤ padding.length := hmin
  refine ⟨⟨payload, padding, ?_, hmin, hmax, ?_, ?_, haligned⟩, rfl, rfl⟩
  · intro hnil
    simp [hnil] at hsize
  · simp only [minPacketSize]
    omega
  · simp only [maxPacketSize]
    omega

variable (crypto : Crypto)

/-- At every loop head the window is above the threshold and at most the target, and it is
the target less what has been delivered and not been given back. A window that output
takes to the threshold is filled up at once, without a wrap. Output of the announced size
is accepted whenever it is received in the loop, and it is received in every legal frame. -/
theorem session_receive_window (display : Display) (w : World) :
    (∀ l c t m, sessionEvents crypto display w = l ++ .loopHead c t :: m →
      localWindowThreshold < c.localWindow ∧ c.localWindow ≤ localWindowTarget ∧
        localWindowTarget.toNat + refilled l = c.localWindow.toNat + delivered l) ∧
    (∀ l e m data, sessionEvents crypto display w = l ++ e :: m →
      e = .wroteStdout data ∨ e = .wroteStderr data →
      localWindowTarget.toNat + refilled l ≤ delivered (l ++ [e]) + localWindowThreshold.toNat →
      ∃ t recipient n m', m = .sending t (windowAdjust recipient n) :: m' ∧
        n.toNat + refilled l = delivered (l ++ [e])) ∧
    (∀ l t payload m, sessionEvents crypto display w = l ++ .received t payload :: m →
      (∃ c t, .loopHead c t ∈ l) → Output payload → ∃ m', m = .accepted payload :: m') ∧
    ∀ keystream, Working crypto keystream → ∀ p, Socket.Serves p →
      ∀ (u : Wire) line payload padding rest, p u.sock.reads →
      incoming u.transport = some line → Output payload →
      minPaddingLength ≤ padding.length → padding.length ≤ 255 →
      (5 + payload.length + padding.length) % line.block = 0 →
      ∃ f : Frame line.block, f.payload = payload ∧ f.padding = padding ∧
        (Socket.stream u.sock.reads = image crypto keystream line f.bytes ++ rest →
          ∃ t, (receivePacket crypto).run u = .ok payload t ∧
            Socket.stream t.sock.reads = rest) := by
  obtain ⟨s, run, settled, -⟩ := sessionEvents_run crypto display w
  refine ⟨fun l c t m hevents => ?_, fun l e m data hevents output small => ?_,
    fun l t payload m hevents ⟨c, t', head⟩ output => ?_, ?_⟩
  · rw [hevents] at run
    obtain ⟨u, v, hl, step, -⟩ := run.split_at
    exact receiveBalance_at_head hl step
  · rw [hevents] at run
    obtain ⟨u, v, hl, step, rest⟩ := run.split_at
    exact refill_of_output hl step rest settled output small
  · rw [hevents] at run
    obtain ⟨u, v, hl, step, rest⟩ := run.split_at
    exact accepted_of_output hl step rest settled (late_of_head hl head) output
  · intro keystream working p serves u line payload padding rest hreads hline output hmin hmax
      haligned
    obtain ⟨f, rfl, rfl⟩ := exists_frame_of_output output hmin hmax haligned
    refine ⟨f, rfl, rfl, fun hstream => ?_⟩
    obtain ⟨t, hrun, hrest, -⟩ := receivePacket_of_image working serves hreads hline f hstream
    exact ⟨t, hrun, hrest⟩

/-- A payload in its smallest plaintext packet. -/
def plainPacket (payload : Bytes) : Bytes :=
  let n := paddingFor blockSize payload.length
  encodeUint32 (UInt32.ofNat (1 + payload.length + n)) ++
    (UInt8.ofNat n :: (payload ++ List.replicate n 0))

/-- A login without encryption: the server grants 100 bytes and later 5 more, prints a
word, and ends with the exit status 3 after the user has typed two letters. -/
def shortLogin : World where
  wire := { sock := { reads := [.returned ([openConfirmation 0 7 100 32768,
    recipientOnly Message.channelSuccess 0, windowAdjust 0 5,
    recipientOnly Message.channelSuccess 0, channelData 0 (ascii "hi"),
    recipientOnly Message.channelEof 0, exitStatus 0 0 3,
    recipientOnly Message.channelClose 0].flatMap plainPacket)] } }
  keyboard := [.returned (ascii "ls")]
  polls := [.ready true true false, .ready false true false, .ready false true false,
    .ready false true false]

/-- The channel of the login when the shell has started. -/
def shortLoginChannel : Channel :=
  { initialChannel with
    remoteId := 7
    remoteWindow := 105
    remoteMaxPacket := 32768
    isOpen := true }

/-- The window before and after a word is printed, and the packet that carries it. -/
theorem session_receive_window_shortLogin :
    (∃ l m, sessionEvents (zeroKeyCrypto []) {} shortLogin =
        l ++ .loopHead shortLoginChannel { outgoingSequence := 3, incomingSequence := 4 } :: m ∧
      localWindowThreshold < shortLoginChannel.localWindow ∧
      localWindowTarget.toNat + refilled l =
        shortLoginChannel.localWindow.toNat + delivered l) ∧
    (∃ l m, sessionEvents (zeroKeyCrypto []) {} shortLogin =
      l ++ .received { outgoingSequence := 4, incomingSequence := 4 }
          (channelData 0 (ascii "hi")) ::
        .accepted (channelData 0 (ascii "hi")) :: m) ∧
    ∃ f : Frame blockSize, f.payload = channelData 0 (ascii "hi") ∧ f.padding.length = 16 := by
  obtain ⟨heads, -, accepts, frames⟩ :=
    session_receive_window (zeroKeyCrypto []) {} shortLogin
  have hhead : sessionEvents (zeroKeyCrypto []) {} shortLogin =
      (sessionEvents (zeroKeyCrypto []) {} shortLogin).take 14 ++
        .loopHead shortLoginChannel { outgoingSequence := 3, incomingSequence := 4 } ::
          (sessionEvents (zeroKeyCrypto []) {} shortLogin).drop 15 := by decide +kernel
  have hreceived : sessionEvents (zeroKeyCrypto []) {} shortLogin =
      (sessionEvents (zeroKeyCrypto []) {} shortLogin).take 18 ++
        .received { outgoingSequence := 4, incomingSequence := 4 } (channelData 0 (ascii "hi")) ::
          (sessionEvents (zeroKeyCrypto []) {} shortLogin).drop 19 := by decide +kernel
  have hloop : .loopHead shortLoginChannel { outgoingSequence := 3, incomingSequence := 4 } ∈
      (sessionEvents (zeroKeyCrypto []) {} shortLogin).take 18 := by decide +kernel
  have houtput : Output (channelData 0 (ascii "hi")) := ⟨ascii "hi", by decide, .inl rfl⟩
  obtain ⟨hthreshold, -, hbalance⟩ := heads _ _ _ _ hhead
  obtain ⟨m, hm⟩ := accepts _ _ _ _ hreceived ⟨_, _, hloop⟩ houtput
  refine ⟨⟨_, _, hhead, hthreshold, hbalance⟩, ⟨_, m, hm ▸ hreceived⟩, ?_⟩
  obtain ⟨f, hpayload, hpadding, -⟩ := frames (fun _ _ => zeroKeystream)
    (working_zeroKeyCrypto []) _ Socket.serves_flowing {} ⟨0, none⟩ _ (List.replicate 16 0) []
    (by simp [Socket.Flowing]) rfl houtput (by decide) (by decide) (by decide)
  exact ⟨f, hpayload, by rw [hpadding, List.length_replicate]⟩

/-! ### The window of the server -/

/-- What has been read from the keyboard and not been sent yet. -/
def Duty.unsent : Duty → Bytes
  | .send typed => typed
  | _ => []

/-- The stages before the server has opened the channel. -/
def Stage.unopened : Stage → Bool
  | .scripted _ | .opening => true
  | _ => false

structure SendBalance (l : List Event) (s : State) : Prop where
  scripted : ∀ rest, s.stage = .scripted rest → rest = []
  unopened : s.stage.unopened = true → s.channel.remoteWindow = 0
  opened : l.countP Event.opens = if s.stage.unopened then 0 else 1
  balance : s.channel.remoteWindow.toNat + (carried l).length = granted l
  keyed : keyed l = carried l ++ s.duty.unsent
  fits : s.duty.unsent.length ≤ s.channel.remoteWindow.toNat

/-- A step that leaves the window and the totals alone. -/
theorem SendBalance.keep (h : SendBalance l s) (stage : s'.stage.unopened = s.stage.unopened)
    (scripted : ∀ rest, s'.stage = .scripted rest → rest = [])
    (hwindow : s'.channel.remoteWindow = s.channel.remoteWindow) (hbefore : s.duty.unsent = [])
    (hafter : s'.duty.unsent = []) (hgrants : e.grants = 0) (hcarries : e.carries = [])
    (hreads : e.reads = []) (hopens : e.opens = false) : SendBalance (l ++ [e]) s' := by
  have hkeyed := h.keyed
  rw [hbefore] at hkeyed
  refine ⟨scripted, ?_, ?_, ?_, ?_, ?_⟩
  · rw [stage, hwindow]
    exact h.unopened
  · rw [stage, List.countP_append, h.opened]
    simp [hopens]
  · rw [hwindow, carried_snoc, granted_snoc, hcarries, hgrants, List.append_nil]
    exact h.balance
  · rw [keyed_snoc, carried_snoc, hreads, hcarries, hafter, List.append_nil, List.append_nil]
    exact hkeyed
  · simp [hafter]

/-- A step behind the opening. -/
theorem SendBalance.keep_opened (h : SendBalance l s) (stage : s.stage.unopened = false)
    (stage' : s'.stage.unopened = false)
    (hwindow : s'.channel.remoteWindow = s.channel.remoteWindow) (hbefore : s.duty.unsent = [])
    (hafter : s'.duty.unsent = []) (hgrants : e.grants = 0) (hcarries : e.carries = [])
    (hreads : e.reads = []) (hopens : e.opens = false) : SendBalance (l ++ [e]) s' := by
  refine h.keep (stage'.trans stage.symm) (fun rest hrest => ?_) hwindow hbefore hafter hgrants
    hcarries hreads hopens
  rw [hrest] at stage'
  cases stage'

theorem SendBalance.confirm {sender window maxPacket : UInt32} (h : SendBalance l s)
    (stage : s.stage = .opening)
    (duty : s.duty = .judge (openConfirmation s.channel.localId sender window maxPacket)) :
    SendBalance (l ++ [.accepted (openConfirmation s.channel.localId sender window maxPacket)])
      { s with
        stage := .requesting 2
        duty := .idle
        channel := { s.channel with
          remoteId := sender
          remoteWindow := window
          remoteMaxPacket := maxPacket
          isOpen := true } } := by
  have hbalance := h.balance
  have hopened := h.opened
  have hkeyed := h.keyed
  rw [h.unopened (by rw [stage]; rfl), UInt32.toNat_zero] at hbalance
  rw [stage] at hopened
  rw [duty] at hkeyed
  have hadjust := adjustOf_of_head
    (head?_openConfirmation s.channel.localId sender window maxPacket)
    (by decide)
  refine ⟨fun rest hrest => (nomatch hrest), fun hno => (nomatch hno), ?_, ?_, ?_, Nat.zero_le _⟩
  · rw [List.countP_append, hopened]
    simp [Event.opens, Stage.unopened]
  · simp only [granted_snoc, carried_snoc, Event.grants, Event.carries, hadjust,
      windowOf_openConfirmation, Option.elim_some, Option.elim_none, List.append_nil]
    omega
  · simpa [Event.reads, Event.carries, Duty.unsent] using hkeyed

theorem SendBalance.adjust {n : UInt32} (h : SendBalance l s)
    (stage : s.stage.adjusting = true)
    (duty : s.duty = .judge (windowAdjust s.channel.localId n))
    (fits : s.channel.remoteWindow.toNat + n.toNat < 4294967296) :
    SendBalance (l ++ [.accepted (windowAdjust s.channel.localId n)]) { s with
      duty := .idle
      channel := { s.channel with remoteWindow := s.channel.remoteWindow + n } } := by
  have hbalance := h.balance
  have hkeyed := h.keyed
  rw [duty] at hkeyed
  have hopened : s.stage.unopened = false := by
    cases hs : s.stage <;> rw [hs] at stage <;> first | rfl | cases stage
  have hwindow := windowOf_of_head (head?_windowAdjust s.channel.localId n) (by decide)
  refine ⟨h.scripted, fun hno => ?_, ?_, ?_, ?_, Nat.zero_le _⟩
  · exact absurd (hopened.symm.trans hno) Bool.false_ne_true
  · rw [List.countP_append, h.opened]
    simp [Event.opens, hwindow]
  · simp only [granted_snoc, carried_snoc, Event.grants, Event.carries, hwindow,
      adjustOf_windowAdjust, Option.elim_some, Option.elim_none, List.append_nil,
      toNat_add_of_lt fits]
    omega
  · simpa [Event.reads, Event.carries, Duty.unsent] using hkeyed

theorem SendBalance.type {data : Bytes} {c : Channel} (h : SendBalance l s) (idle : s.duty = .idle)
    (window : data.length ≤ s.channel.remoteWindow.toNat) :
    SendBalance (l ++ [.typed c data]) { s with duty := .send data } := by
  have hkeyed := h.keyed
  rw [idle] at hkeyed
  refine ⟨h.scripted, h.unopened, ?_, ?_, ?_, window⟩
  · rw [List.countP_append, h.opened]
    simp [Event.opens]
  · simpa [Event.grants, Event.carries] using h.balance
  · simpa [Event.reads, Event.carries, Duty.unsent] using hkeyed

theorem SendBalance.send {data : Bytes} {t : Transport} (h : SendBalance l s)
    (stage : s.stage.unopened = false) (duty : s.duty = .send data) :
    SendBalance (l ++ [.sending t (channelData s.channel.remoteId data)]) { s.counted with
      duty := .idle
      channel := { s.channel with
        remoteWindow := s.channel.remoteWindow - UInt32.ofNat data.length } } := by
  have hbalance := h.balance
  have hkeyed := h.keyed
  have hfits := h.fits
  rw [duty] at hkeyed hfits
  have hwindow := toNat_sub_length hfits
  simp only [Duty.unsent] at hkeyed hfits hwindow
  refine ⟨h.scripted, fun hno => ?_, ?_, ?_, ?_, Nat.zero_le _⟩
  · exact absurd (stage.symm.trans hno) Bool.false_ne_true
  · rw [List.countP_append, h.opened]
    simp [Event.opens, State.counted, stage]
  · simp only [granted_snoc, carried_snoc, Event.grants, Event.carries, dataOf_channelData,
      Option.getD_some, List.length_append, hwindow]
    omega
  · simpa [Event.reads, Event.carries, Duty.unsent] using hkeyed

theorem SendBalance.step (h : SendBalance l s) (sound : Sound s) (step : Step s e s') :
    SendBalance (l ++ [e]) s' := by
  have hshell : s.stage = .shell → s.stage.unopened = false := by
    intro stage
    rw [stage]
    rfl
  have heads : ∀ {payload : Bytes} {number : UInt8}, payload.head? = some number →
      number ≠ Message.channelOpenConfirmation → number ≠ Message.channelWindowAdjust →
      (Event.accepted payload).grants = 0 ∧ (Event.accepted payload).opens = false := by
    intro payload number head h1 h2
    simp [Event.grants, Event.opens, windowOf_of_head head h1, adjustOf_of_head head h2]
  cases step with
  | confirmation stage duty => exact h.confirm stage duty
  | adjust stage duty _ fits => exact h.adjust stage duty fits
  | typed _ idle _ _ window => exact h.type idle window
  | sendTyped duty => exact h.send (hshell (sound.interactive (by rw [duty]; rfl))) duty
  | quiet stage hquiet =>
      have hidle : s.duty.unsent = [] := by
        cases hduty : s.duty with
        | send =>
            have := sound.interactive (by rw [hduty]; rfl)
            rw [stage] at this
            cases this
        | _ => rfl
      have hweights : e.grants = 0 ∧ e.carries = [] ∧ e.reads = [] ∧ e.opens = false := by
        cases e <;> first | exact ⟨rfl, rfl, rfl, rfl⟩ | cases hquiet
      exact h.keep rfl h.scripted rfl hidle hidle hweights.1 hweights.2.1 hweights.2.2.1
        hweights.2.2.2
  | send stage | receive stage | accept stage => exact absurd (h.scripted _ stage) (by simp)
  | openChannel stage idle _ head =>
      refine h.keep ?_ (fun rest hrest => (nomatch hrest)) ?_ (by rw [idle]; rfl) ?_ rfl ?_ rfl rfl
      · rw [stage]
        rfl
      · exact (h.unopened (by rw [stage]; rfl)).symm
      · simp [State.counted, idle, Duty.unsent]
      · simp [Event.carries, dataOf_of_head head (by decide)]
  | sent idle | head _ idle =>
      exact h.keep rfl h.scripted rfl (by rw [idle]; rfl) (by rw [idle]; rfl) rfl rfl rfl rfl
  | listen _ idle => exact h.keep rfl h.scripted rfl (by rw [idle]; rfl) rfl rfl rfl rfl rfl
  | global _ duty =>
      obtain ⟨hgrants, hopens⟩ := heads (head?_globalRequest _ _ _) (by decide) (by decide)
      exact h.keep rfl h.scripted rfl (by rw [duty]; rfl) (by split <;> rfl) hgrants rfl rfl hopens
  | reply duty => exact h.keep rfl h.scripted rfl (by rw [duty]; rfl) rfl rfl rfl rfl rfl
  | request stage idle _ head =>
      refine h.keep_opened (by rw [stage]; rfl) rfl rfl (by rw [idle]; rfl) ?_ rfl ?_ rfl rfl
      · simp [State.counted, idle, Duty.unsent]
      · simp [Event.carries, dataOf_of_head head (by decide)]
  | @success count stage duty =>
      obtain ⟨hgrants, hopens⟩ := heads
        (head?_recipientOnly s.channel.localId Message.channelSuccess)
        (by decide) (by decide)
      exact h.keep_opened (by rw [stage]; rfl) (by cases count <;> rfl) rfl (by rw [duty]; rfl) rfl
        hgrants rfl rfl hopens
  | data stage duty =>
      obtain ⟨hgrants, hopens⟩ := heads (head?_channelData _ _) (by decide) (by decide)
      exact h.keep_opened (hshell stage) (hshell stage) rfl (by rw [duty]; rfl) rfl hgrants rfl rfl
        hopens
  | extendedData stage duty =>
      obtain ⟨hgrants, hopens⟩ := heads (head?_extendedData _ _ _) (by decide) (by decide)
      exact h.keep_opened (hshell stage) (hshell stage) rfl (by rw [duty]; rfl) rfl hgrants rfl rfl
        hopens
  | exitStatus stage duty =>
      obtain ⟨hgrants, hopens⟩ := heads (head?_exitStatus _ _ _) (by decide) (by decide)
      exact h.keep_opened (hshell stage) (hshell stage) rfl (by rw [duty]; rfl) rfl hgrants rfl rfl
        hopens
  | eof stage duty =>
      obtain ⟨hgrants, hopens⟩ := heads (head?_recipientOnly s.channel.localId Message.channelEof)
        (by decide) (by decide)
      exact h.keep_opened (hshell stage) (hshell stage) rfl (by rw [duty]; rfl) rfl hgrants rfl rfl
        hopens
  | close stage duty =>
      obtain ⟨hgrants, hopens⟩ := heads (head?_recipientOnly s.channel.localId Message.channelClose)
        (by decide) (by decide)
      exact h.keep_opened (hshell stage) (hshell stage) rfl (by rw [duty]; rfl) rfl hgrants rfl rfl
        hopens
  | wroteStdout duty | wroteStderr duty =>
      refine h.keep rfl h.scripted rfl (by rw [duty]; rfl) ?_ rfl rfl rfl rfl
      unfold State.windowed
      split <;> rfl
  | refill duty =>
      refine h.keep rfl h.scripted rfl (by rw [duty]; rfl) rfl rfl ?_ rfl rfl
      simp [Event.carries]
  | sendClose duty =>
      have stage := hshell (sound.interactive (by rw [duty]; rfl))
      refine h.keep_opened stage rfl rfl (by rw [duty]; rfl) rfl rfl ?_ rfl rfl
      simp [Event.carries,
        dataOf_of_head (head?_recipientOnly s.channel.remoteId Message.channelClose) (by decide)]
  | sentClose stage idle | report stage idle =>
      exact h.keep_opened (by rw [stage]; rfl) rfl rfl (by rw [idle]; rfl) (by rw [idle]; rfl) rfl
        rfl rfl rfl

theorem sendBalance_of_run {t : Transport} (run : Run Step (State.authenticated t) l s) :
    SendBalance l s := by
  have h : Sound s ∧ SendBalance l s := run.invariant (fun l s => Sound s ∧ SendBalance l s)
    ⟨sound_authenticated t,
      ⟨fun rest hrest => by cases hrest; rfl, fun _ => rfl, rfl, rfl, rfl, Nat.le_refl _⟩⟩
    (fun _ _ _ _ h step => ⟨step.sound h.1, h.2.step h.1 step⟩)
  exact h.2

/-- Data is due because it has just been read. -/
theorem typed_of_send {start : State} {data : Bytes} (run : Run Step start l s)
    (sound : Sound start)
    (hstart : start.duty = .idle) (duty : s.duty = .send data) :
    ∃ l' c, l = l' ++ [.typed c data] := by
  cases run with
  | nil =>
      rw [hstart] at duty
      cases duty
  | @snoc l u _ e hrun step =>
      have hinteractive := (sound.of_run hrun).interactive
      have hduty : ∀ stage, u.stage = .scripted stage → u.duty ≠ .send data := by
        intro rest stage h
        rw [h, stage] at hinteractive
        cases hinteractive rfl
      cases step with
      | quiet stage => exact absurd duty (hduty _ stage)
      | typed _ _ =>
          cases duty
          exact ⟨l, _, rfl⟩
      | wroteStdout | wroteStderr =>
          unfold State.windowed at duty
          split at duty <;> cases duty
      | global =>
          dsimp only at duty
          split at duty <;> cases duty
      | _ => simp_all [State.counted, State.judging]

theorem exists_checkSizes {recipient : UInt32} {data : Bytes} (h : data.length ≤ keyboardBufferSize)
    (t : Transport) : ∃ n, checkSizes t (channelData recipient data) = .ok n := by
  have h : data.length ≤ 1024 := h
  refine ⟨_, checkSizes_eq_ok_iff.mpr ⟨(fits_iff _ _).mpr ⟨by simp [channelData], ?_⟩, rfl⟩⟩
  simp only [channelData, encodeString, List.length_cons, List.length_append, encodeUint32_length,
    maxPayloadSize]
  split <;> omega

/-- Data that has been read fits, passes every check and is sent at once. -/
theorem sent_of_typed {t : Transport} {c : Channel} {data : Bytes} {m : List Event} {u : State}
    (run : Run Step (State.authenticated t) l s) (step : Step s (.typed c data) s')
    (rest : Run Step s' m u) (settled : Settled u) :
    c.remoteWindow.toNat + (carried l).length = granted l ∧ 1 ≤ data.length ∧
      data.length ≤ min (min keyboardBufferSize c.remoteWindow.toNat) c.remoteMaxPacket.toNat ∧
      ∃ payload, createChannelData c data = .ok payload ∧ dataOf payload = some data ∧
        (∀ tr, ∃ n, checkSizes tr payload = .ok n) ∧ ∃ tr m', m = .sending tr payload :: m' := by
  have hbalance := (sendBalance_of_run run).balance
  obtain ⟨hopen, hlocal, -, -, -⟩ := (sound_authenticated t).of_run run
  cases step with
  | quiet _ hquiet => cases hquiet
  | typed stage idle nonempty buffer window maxPacket =>
      rw [stage] at hopen hlocal
      refine ⟨hbalance, List.length_pos_iff.mpr nonempty, by omega,
        channelData s.channel.remoteId data,
        createChannelData_ok.mpr ⟨hopen, hlocal, nonempty, window, maxPacket, rfl⟩,
        dataOf_channelData _ _, exists_checkSizes buffer, ?_⟩
      obtain ⟨e', m', v, rfl, hstep, -⟩ := settled.next rest (by simp)
      obtain ⟨tr, rfl⟩ := hstep.of_send rfl stage
      exact ⟨tr, m', rfl⟩

/-- Nothing is sent as data but what has just been read. -/
theorem typed_of_data {t tr : Transport} {payload data : Bytes}
    (run : Run Step (State.authenticated t) l s) (step : Step s (.sending tr payload) s')
    (hdata : dataOf payload = some data) : ∃ l' c, l = l' ++ [.typed c data] := by
  have head : payload.head? = some Message.channelData := by
    by_contra hother
    rw [dataOf, if_neg hother] at hdata
    cases hdata
  obtain ⟨sent, duty, rfl⟩ : ∃ sent, s.duty = .send sent ∧
      payload = channelData s.channel.remoteId sent := by
    simpa +decide [head] using sending_cases step (sendBalance_of_run run).scripted
  rw [dataOf_channelData] at hdata
  cases hdata
  exact typed_of_send run (sound_authenticated t) rfl duty

/-- At every loop head and at every read the window of the server is what it has granted
less what has been sent. Whatever is read is sent next, in a packet of a legal size, and
nothing else is sent as data. -/
theorem session_send_window (display : Display) (w : World) :
    (∀ l c t m, sessionEvents crypto display w = l ++ .loopHead c t :: m →
      c.remoteWindow.toNat + (carried l).length = granted l) ∧
    (∀ l c data m, sessionEvents crypto display w = l ++ .typed c data :: m →
      c.remoteWindow.toNat + (carried l).length = granted l ∧ 1 ≤ data.length ∧
        data.length ≤ min (min keyboardBufferSize c.remoteWindow.toNat) c.remoteMaxPacket.toNat ∧
        ∃ payload, createChannelData c data = .ok payload ∧ dataOf payload = some data ∧
          (∀ t, ∃ n, checkSizes t payload = .ok n) ∧ ∃ t m', m = .sending t payload :: m') ∧
    (∀ l t payload data m, sessionEvents crypto display w = l ++ .sending t payload :: m →
      dataOf payload = some data → ∃ l' c, l = l' ++ [.typed c data]) ∧
    carried (sessionEvents crypto display w) = keyed (sessionEvents crypto display w) ∧
    (sessionEvents crypto display w).countP Event.opens ≤ 1 := by
  obtain ⟨s, run, settled, -⟩ := sessionEvents_run crypto display w
  refine ⟨fun l c t m hevents => ?_, fun l c data m hevents => ?_,
    fun l t payload data m hevents hdata => ?_, ?_, ?_⟩
  · rw [hevents] at run
    obtain ⟨u, v, hl, step, -⟩ := run.split_at
    cases step with
    | quiet _ hquiet => cases hquiet
    | head => exact (sendBalance_of_run hl).balance
  · rw [hevents] at run
    obtain ⟨u, v, hl, step, rest⟩ := run.split_at
    exact sent_of_typed hl step rest settled
  · rw [hevents] at run
    obtain ⟨u, v, hl, step, -⟩ := run.split_at
    exact typed_of_data hl step hdata
  · have hkeyed := (sendBalance_of_run run).keyed
    have hunsent : s.duty.unsent = [] := by
      obtain hidle | ⟨payload, hjudge, -⟩ := settled
      · rw [hidle]
        rfl
      · rw [hjudge]
        rfl
    rw [hkeyed, hunsent, List.append_nil]
  · rw [(sendBalance_of_run run).opened]
    split <;> decide

/-- The two letters are sent out of 105 bytes that the server has granted. -/
theorem session_send_window_shortLogin :
    (∃ l m t, sessionEvents (zeroKeyCrypto []) {} shortLogin =
        l ++ .typed shortLoginChannel (ascii "ls") ::
          .sending t (channelData 7 (ascii "ls")) :: m ∧
      shortLoginChannel.remoteWindow.toNat + (carried l).length = granted l ∧ granted l = 105) ∧
    carried (sessionEvents (zeroKeyCrypto []) {} shortLogin) = ascii "ls" := by
  obtain ⟨-, typed, -, hcarried, -⟩ := session_send_window (zeroKeyCrypto []) {} shortLogin
  have htyped : sessionEvents (zeroKeyCrypto []) {} shortLogin =
      (sessionEvents (zeroKeyCrypto []) {} shortLogin).take 15 ++
        .typed shortLoginChannel (ascii "ls") ::
          (sessionEvents (zeroKeyCrypto []) {} shortLogin).drop 16 := by decide +kernel
  obtain ⟨hbalance, -, -, payload, hpayload, -, -, t, m, hm⟩ := typed _ _ _ _ htyped
  have hcreate : createChannelData shortLoginChannel (ascii "ls") =
      .ok (channelData 7 (ascii "ls")) := by decide +kernel
  rw [hcreate] at hpayload
  cases hpayload
  rw [hm] at htyped
  refine ⟨⟨_, m, t, htyped, hbalance, by decide +kernel⟩, ?_⟩
  rw [hcarried]
  decide +kernel

end Protocol

end SshClient

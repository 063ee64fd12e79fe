import SshClient.Protocol.Closing

/-!
# What the server sends in the shell

A global request is accepted at any time and answered when the server wants an answer. Of
the channel requests only an exit status is accepted. The end of the data of the server
is recorded, but data behind it is accepted like any other.
-/

namespace SshClient.Protocol

open Control Connection Client Transport

variable {l m : List Event} {s s' u : State} {e : Event}

/-! ### Requests -/

def IsReceived : Event → Bool
  | .received _ _ => true
  | _ => false

/-- What happens before the next packet is read. -/
def beforeNext (l : List Event) : List Event := l.takeWhile fun e => !IsReceived e

/-- Every packet that is sent before the next one is read carries what was typed. -/
def Unanswered (l : List Event) : Prop :=
  ∀ t payload, .sending t payload ∈ beforeNext l → ∃ data, dataOf payload = some data

/-- The client waits for a packet, and may only send what is typed meanwhile. -/
structure State.Waiting (s : State) : Prop where
  listening : s.stage.listening = true
  duty : s.duty = .idle ∨ ∃ typed, s.duty = .send typed

theorem State.Waiting.step (h : s.Waiting) (step : Step s e s') (he : IsReceived e = false) :
    s'.Waiting ∧ ∀ t payload, e = .sending t payload → ∃ data, dataOf payload = some data := by
  obtain ⟨listening, hduty⟩ := h
  cases step with
  | receive | listen => cases he
  | sent idle => exact ⟨⟨listening, .inl idle⟩, nofun⟩
  | head _ idle => exact ⟨⟨listening, .inl idle⟩, nofun⟩
  | typed => exact ⟨⟨listening, .inr ⟨_, rfl⟩⟩, nofun⟩
  | sendTyped =>
      refine ⟨⟨listening, .inl rfl⟩, ?_⟩
      rintro t payload he
      cases he
      exact ⟨_, dataOf_channelData _ _⟩
  | quiet stage | send stage | openChannel stage | request stage | sentClose stage | report stage =>
      rw [stage] at listening
      cases listening
  | accept _ duty | confirmation _ duty | global _ duty | success _ duty | adjust _ duty
  | data _ duty | extendedData _ duty | eof _ duty | exitStatus _ duty | close _ duty
  | reply duty | wroteStdout duty | wroteStderr duty | refill duty | sendClose duty =>
      rw [duty] at hduty
      simp at hduty

theorem State.Waiting.unanswered (h : s.Waiting) (run : Run Step s m u) : Unanswered m := by
  induction m generalizing s with
  | nil => simp [Unanswered, beforeNext]
  | cons e m ih =>
      obtain ⟨v, hstep, hrun⟩ := run.cons_inv
      intro t payload hmem
      rw [beforeNext, List.takeWhile_cons] at hmem
      cases hreceived : IsReceived e with
      | true => simp [hreceived] at hmem
      | false =>
          obtain ⟨hv, hsending⟩ := h.step hstep hreceived
          simp only [hreceived, Bool.not_false, if_true, List.mem_cons] at hmem
          obtain he | hmem := hmem
          · exact hsending t payload he.symm
          · exact ih hv hrun t payload hmem

/-- A global request is accepted in every stage, and an answer is due if one is wanted. -/
theorem Step.of_global {name data : Bytes} {wantReply : UInt8}
    (step : Step s (.accepted (globalRequest name wantReply data)) s')
    (listening : s.stage.listening = true) (hname : name.length < 4294967296) :
    s' = { s with duty := if wantReply != 0 then .reply else .idle } := by
  obtain ⟨name', wantReply', data', hname', hpayload, rfl⟩ :=
    step.of_globalRequest (Stage.unscripted_of_listening listening) (head?_globalRequest _ _ _)
  have hparse : Connection.parseGlobalRequest (globalRequest name wantReply data) =
      .ok ⟨name, wantReply != 0, data⟩ := parseGlobalRequest_globalRequest hname
  rw [hpayload, parseGlobalRequest_globalRequest hname'] at hparse
  have hwant := congrArg GlobalRequest.wantReply (Except.ok.inj hparse)
  rw [show (wantReply' != 0) = (wantReply != 0) from hwant]

variable {t tr : Transport}

/-- What follows a global request, in any stage of the session. -/
theorem answered_of_global {name data : Bytes} {wantReply : UInt8}
    (hname : name.length < 4294967296) (run : Run Step (State.authenticated t) l s)
    (step : Step s (.received tr (globalRequest name wantReply data)) s') (rest : Run Step s' m u)
    (settled : Settled u) :
    ∃ m', m = .accepted (globalRequest name wantReply data) :: m' ∧
      (wantReply ≠ 0 → ∃ t' m'', m' = .sending t' createRequestFailure :: m'' ∧ Unanswered m'') ∧
      (wantReply = 0 → Unanswered m') := by
  obtain ⟨listening, -, rfl⟩ := step.of_received (sendBalance_of_run run).scripted
  obtain ⟨-, -, hrefused⟩ | ⟨m', v, rfl, hstep, hrest⟩ := judged rest settled listening rfl
  · exact (hrefused _ (.global listening rfl hname)).elim
  · have hv := hstep.of_global listening hname
    refine ⟨m', rfl, fun hyes => ?_, fun hno => ?_⟩
    · have hduty : v.duty = .reply := by
        rw [hv]
        simp [hyes]
      have hstage : v.stage.listening = true := by
        rw [hv]
        exact listening
      obtain ⟨e, m'', x, rfl, hreply, hlast⟩ := settled.next hrest (by simp [hduty])
      obtain ⟨t', rfl, rfl⟩ := hreply.of_reply hduty hstage
      have hwaiting : ({ v.counted with duty := .idle } : State).Waiting :=
        ⟨hstage, .inl rfl⟩
      exact ⟨t', m'', rfl, hwaiting.unanswered hlast⟩
    · have hwaiting : v.Waiting := by
        rw [hv]
        exact ⟨listening, .inl (by simp [hno])⟩
      exact hwaiting.unanswered hrest

/-- What follows a channel request in the shell, before an exit status. -/
theorem judged_channelRequest {payload : Bytes} {c : Channel} {tr' : Transport}
    (run : Run Step (State.authenticated t) l s) (step : Step s (.received tr payload) s')
    (rest : Run Step s' m u) (settled : Settled u) (hhead : .loopHead c tr' ∈ l)
    (hfirst : ∀ e ∈ l, Exits e = false) (request : payload.head? = some Message.channelRequest) :
    (∀ wantReply status, payload = exitStatus initialChannelId wantReply status →
      ∃ m', m = .accepted payload :: m' ∧ Unanswered m') ∧
    ((∀ wantReply status, payload ≠ exitStatus initialChannelId wantReply status) →
      m = [] ∧ u.duty ≠ .idle) := by
  have nothing := (sendBalance_of_run run).scripted
  obtain ⟨listening, -, rfl⟩ := step.of_received nothing
  obtain ⟨stage, hbalance⟩ := receiveBalance_of_late run (late_of_head run hhead) listening
  have hreceived : s.channel.exitStatusReceived = false := by
    have hcount := (exitLog_of_run run).count
    rw [List.countP_eq_zero.mpr (fun e he => by simp [hfirst e he])] at hcount
    cases hexit : s.channel.exitStatusReceived with
    | false => rfl
    | true => simp [hexit] at hcount
  obtain ⟨hm, hu, hrefused⟩ | ⟨m', v, hm, hstep, hrest⟩ := judged rest settled listening rfl
  · refine ⟨fun wantReply status hpayload => ?_, fun _ => ⟨hm, ?_⟩⟩
    · subst hpayload
      rw [← hbalance.localId] at hrefused
      exact (hrefused _ (.exitStatus stage rfl hreceived)).elim
    · rw [hu]
      exact nofun
  · obtain ⟨-, -, wantReply, status, hpayload, hv⟩ := hstep.of_channelRequest nothing request
    have hlocal : (s.judging payload).channel.localId = initialChannelId := hbalance.localId
    rw [hlocal] at hpayload
    have hwaiting : v.Waiting := by
      rw [hv]
      exact ⟨listening, .inl rfl⟩
    exact ⟨fun _ _ _ => ⟨m', hm, hwaiting.unanswered hrest⟩,
      fun hother => absurd hpayload (hother wantReply status)⟩

variable (crypto : Crypto)

/-- A global request is accepted whenever it is received. If an answer is wanted, the
refusal is sent next, it passes the checks on the size of a packet, and nothing else is
sent in answer before the next packet is read; otherwise nothing at all is. In the shell,
before an exit status, a channel request is accepted if it is an exit status and ends the
session with an exception if it is not. -/
theorem session_request_replies (display : Display) (w : World) :
    (∀ l t name wantReply data m, name.length < 4294967296 →
      sessionEvents crypto display w = l ++ .received t (globalRequest name wantReply data) :: m →
      ∃ m', m = .accepted (globalRequest name wantReply data) :: m' ∧
        (wantReply ≠ 0 → ∃ t' m'', m' = .sending t' createRequestFailure :: m'' ∧
          (∃ n, checkSizes t' createRequestFailure = .ok n) ∧ Unanswered m'') ∧
        (wantReply = 0 → Unanswered m')) ∧
    (∀ l t payload m, sessionEvents crypto display w = l ++ .received t payload :: m →
      (∃ c t, .loopHead c t ∈ l) → (∀ e ∈ l, Exits e = false) →
      payload.head? = some Message.channelRequest →
      (∀ wantReply status, payload = exitStatus initialChannelId wantReply status →
        ∃ m', m = .accepted payload :: m' ∧ (wantReply = 0 → Unanswered m')) ∧
      ((∀ wantReply status, payload ≠ exitStatus initialChannelId wantReply status) →
        m = [] ∧
          ∃ what t, (runConnectionSession crypto display).run w = .error (.thrown what) t)) := by
  obtain ⟨s, run, settled, hfailed⟩ := sessionEvents_run crypto display w
  refine ⟨fun l t name wantReply data m hname hevents => ?_,
    fun l t payload m hevents ⟨c, t', hhead⟩ hfirst hrequest => ?_⟩
  · rw [hevents] at run
    obtain ⟨u, v, hl, step, rest⟩ := run.split_at
    obtain ⟨m', hm, hreply, hnone⟩ := answered_of_global hname hl step rest settled
    refine ⟨m', hm, fun hyes => ?_, hnone⟩
    obtain ⟨t', m'', hm', hrest⟩ := hreply hyes
    refine ⟨t', m'', hm',
      ⟨_, checkSizes_eq_ok_iff.mpr ⟨(fits_iff _ _).mpr ⟨nofun, ?_⟩, rfl⟩⟩, hrest⟩
    simp only [createRequestFailure, List.length_cons, List.length_nil, maxPayloadSize]
    split <;> decide
  · rw [hevents] at run
    obtain ⟨u, v, hl, step, rest⟩ := run.split_at
    obtain ⟨haccepted, hrefused⟩ :=
      judged_channelRequest hl step rest settled hhead hfirst hrequest
    refine ⟨fun wantReply status hpayload => ?_, fun hother => ?_⟩
    · obtain ⟨m', hm, hrest⟩ := haccepted wantReply status hpayload
      exact ⟨m', hm, fun _ => hrest⟩
    · obtain ⟨hm, hduty⟩ := hrefused hother
      exact ⟨hm, hfailed hduty⟩

/-- A request of the server on a channel. -/
def channelRequest (recipient : UInt32) (name : Bytes) (wantReply : UInt8) (data : Bytes) : Bytes :=
  Message.channelRequest :: (encodeUint32 recipient ++ encodeString name ++ wantReply :: data)

/-- The server asks twice whether the client is alive, before the channel is open and in
the shell. -/
def askedAlive : World where
  wire := { sock := { reads := [.returned ([globalRequest (ascii "keepalive@openssh.com") 1 [],
    openConfirmation 0 7 100 32768, recipientOnly Message.channelSuccess 0,
    recipientOnly Message.channelSuccess 0,
    channelRequest 0 (ascii "keepalive@openssh.com") 1 []].flatMap plainPacket)] } }
  polls := [.ready false true false]

/-- The global request of the server, accepted and refused. -/
theorem session_request_replies_askedAlive :
    ∃ l t t' m, sessionEvents (zeroKeyCrypto []) {} askedAlive =
      l ++ .received t (globalRequest (ascii "keepalive@openssh.com") 1 []) ::
        .accepted (globalRequest (ascii "keepalive@openssh.com") 1 []) ::
        .sending t' createRequestFailure :: m ∧ Unanswered m := by
  obtain ⟨hglobal, -⟩ := session_request_replies (zeroKeyCrypto []) {} askedAlive
  have hreceived : sessionEvents (zeroKeyCrypto []) {} askedAlive =
      (sessionEvents (zeroKeyCrypto []) {} askedAlive).take 2 ++
        .received { outgoingSequence := 1 } (globalRequest (ascii "keepalive@openssh.com") 1 []) ::
          (sessionEvents (zeroKeyCrypto []) {} askedAlive).drop 3 := by decide +kernel
  obtain ⟨m', hm', hreply, -⟩ := hglobal _ _ _ _ _ _ (by decide) hreceived
  obtain ⟨t', m, hm, -, hrest⟩ := hreply (by decide)
  rw [hm', hm] at hreceived
  exact ⟨_, _, t', m, hreceived, hrest⟩

/-- The channel request of the server ends the session. -/
theorem channelRequest_ends_askedAlive :
    ∃ l t, sessionEvents (zeroKeyCrypto []) {} askedAlive =
        l ++ [.received t (channelRequest initialChannelId (ascii "keepalive@openssh.com") 1 [])] ∧
      (∃ c t, .loopHead c t ∈ l) ∧ (∀ e ∈ l, Exits e = false) ∧
      ¬ ∃ u, (runConnectionSession (zeroKeyCrypto []) {}).run askedAlive = .ok () u := by
  refine ⟨(sessionEvents (zeroKeyCrypto []) {} askedAlive).dropLast,
    { outgoingSequence := 4, incomingSequence := 4 }, by decide +kernel,
    ⟨{ shortLoginChannel with remoteWindow := 100 },
      { outgoingSequence := 4, incomingSequence := 4 }, by decide +kernel⟩,
    by decide +kernel, fun ⟨u, hu⟩ => ?_⟩
  exact ne_ok_of_not_returned (by decide +kernel) hu

/-! ### Data behind the end of the data -/

def IsEof : Event → Bool
  | .accepted payload => payload.head? == some Message.channelEof
  | _ => false

/-- What happens behind the first accepted end of the data. -/
def afterEof : List Event → List Event
  | [] => []
  | e :: l => if IsEof e then l else afterEof l

theorem afterEof_cases (l : List Event) :
    afterEof l = [] ∨ ∃ l' payload, l = l' ++ .accepted payload :: afterEof l ∧
      payload.head? = some Message.channelEof := by
  induction l with
  | nil => exact .inl rfl
  | cons e l ih =>
      rw [afterEof]
      split
      next heof =>
        cases e with
        | accepted payload => exact .inr ⟨[], payload, rfl, by simpa [IsEof] using heof⟩
        | _ => cases heof
      next =>
        obtain hnil | ⟨l', payload, hl, hpayload⟩ := ih
        · exact .inl hnil
        · exact .inr ⟨e :: l', payload, by rw [List.cons_append, ← hl], hpayload⟩

/-- The acceptance of output, and its delivery to the user. -/
def Delivers : Event → Prop
  | .accepted payload =>
      payload.head? = some Message.channelData ∨ payload.head? = some Message.channelExtendedData
  | .wroteStdout _ | .wroteStderr _ => True
  | _ => False

theorem Output.delivers {payload : Bytes} (h : Output payload) : Delivers (.accepted payload) := by
  obtain ⟨data, -, rfl | rfl⟩ := h
  · exact .inl (head?_channelData _ _)
  · exact .inr (head?_extendedData _ _ _)

/-- Behind the end of the data no output is accepted or delivered, and the window stays. -/
structure EofRespected (l : List Event) : Prop where
  nothing : ∀ e ∈ afterEof l, ¬ Delivers e
  window : ∀ c t c' t', .loopHead c t ∈ afterEof l → .loopHead c' t' ∈ afterEof l →
    c.localWindow = c'.localWindow

/-- The duty does not come from output. -/
def Duty.Barred : Duty → Prop
  | .judge payload => ¬ Output payload
  | .deliver _ | .deliverError _ | .refill => False
  | _ => True

/-- The shell has started, the channel is the one that was opened, no output is handled. -/
structure State.Barred (window : UInt32) (s : State) : Prop where
  late : s.stage.late = true
  localId : s.channel.localId = initialChannelId
  maxPacket : s.channel.localMaxPacket = localMaxPacketSize
  window : s.channel.localWindow = window
  duty : s.duty.Barred

theorem State.Barred.step {window : UInt32} (h : s.Barred window) (step : Step s e s')
    (he : ∀ t payload, e = .received t payload → ¬ Output payload) :
    s'.Barred window ∧ ¬ Delivers e ∧ ∀ c t, e = .loopHead c t → c.localWindow = window := by
  obtain ⟨late, localId, maxPacket, hwindow, hduty⟩ := h
  have late' := step.late late
  have barred : ∀ {data payload : Bytes}, data.length ≤ s.channel.localMaxPacket.toNat →
      s.duty = .judge payload →
      ¬ (payload = channelData s.channel.localId data ∨
        payload = extendedData s.channel.localId 1 data) := by
    intro data payload hlen duty hpayload
    rw [duty] at hduty
    rw [maxPacket] at hlen
    rw [localId] at hpayload
    exact hduty ⟨data, hlen, hpayload⟩
  have accepted : ∀ (payload : Bytes) {number : UInt8}, payload.head? = some number →
      number ≠ Message.channelData → number ≠ Message.channelExtendedData →
      ¬ Delivers (.accepted payload) ∧
        ∀ c t, Event.accepted payload = .loopHead c t → c.localWindow = window := by
    intro payload number head h1 h2
    refine ⟨?_, fun _ _ => nofun⟩
    simp [Delivers, head, h1, h2]
  cases step with
  | quiet stage | send stage | receive stage | accept stage | openChannel stage =>
      rw [stage] at late
      cases late
  | data _ duty maxPacket => exact absurd (.inl rfl) (barred maxPacket duty)
  | extendedData _ duty maxPacket => exact absurd (.inr rfl) (barred maxPacket duty)
  | wroteStdout duty | wroteStderr duty | refill duty =>
      rw [duty] at hduty
      exact hduty.elim
  | sent | sentClose | report =>
      exact ⟨⟨late', localId, maxPacket, hwindow, hduty⟩, id, fun _ _ => nofun⟩
  | head =>
      refine ⟨⟨late', localId, maxPacket, hwindow, hduty⟩, id, fun c t hhead => ?_⟩
      cases hhead
      exact hwindow
  | listen => exact ⟨⟨late', localId, maxPacket, hwindow, he _ _ rfl⟩, id, fun _ _ => nofun⟩
  | request _ idle =>
      exact ⟨⟨late', localId, maxPacket, hwindow, hduty⟩, id, fun _ _ => nofun⟩
  | typed | sendTyped | reply | sendClose =>
      exact ⟨⟨late', localId, maxPacket, hwindow, trivial⟩, id, fun _ _ => nofun⟩
  | global =>
      refine ⟨⟨late', localId, maxPacket, hwindow, ?_⟩,
        accepted _ (head?_globalRequest _ _ _) (by decide) (by decide)⟩
      dsimp only
      split <;> trivial
  | confirmation =>
      exact ⟨⟨late', localId, maxPacket, hwindow, trivial⟩,
        accepted _ (head?_openConfirmation _ _ _ _) (by decide) (by decide)⟩
  | adjust =>
      exact ⟨⟨late', localId, maxPacket, hwindow, trivial⟩,
        accepted _ (head?_windowAdjust _ _) (by decide) (by decide)⟩
  | exitStatus =>
      exact ⟨⟨late', localId, maxPacket, hwindow, trivial⟩,
        accepted _ (head?_exitStatus _ _ _) (by decide) (by decide)⟩
  | success | eof | close =>
      exact ⟨⟨late', localId, maxPacket, hwindow, trivial⟩,
        accepted _ (head?_recipientOnly _ _) (by decide) (by decide)⟩

theorem State.Barred.of_run {window : UInt32} (h : s.Barred window) (run : Run Step s m u)
    (hno : ∀ t payload, .received t payload ∈ m → ¬ Output payload) :
    (∀ e ∈ m, ¬ Delivers e) ∧ ∀ c t, .loopHead c t ∈ m → c.localWindow = window := by
  induction m generalizing s with
  | nil => simp
  | cons e m ih =>
      obtain ⟨v, hstep, hrun⟩ := run.cons_inv
      obtain ⟨hv, hnot, hhead⟩ := h.step hstep (fun t payload he => hno t payload (by simp [he]))
      obtain ⟨hrest, hwindows⟩ :=
        ih hv hrun (fun t payload hmem => hno t payload (List.mem_cons_of_mem _ hmem))
      refine ⟨fun e' hmem => ?_, fun c t hmem => ?_⟩
      · obtain rfl | hmem := List.mem_cons.mp hmem
        · exact hnot
        · exact hrest e' hmem
      · obtain he | hmem := List.mem_cons.mp hmem
        · exact hhead c t he.symm
        · exact hwindows c t hmem

theorem barred_of_eof {payload : Bytes} (run : Run Step (State.authenticated t) l s)
    (step : Step s (.accepted payload) s') (head : payload.head? = some Message.channelEof) :
    s'.Barred s'.channel.localWindow := by
  obtain ⟨stage, -, -, rfl⟩ := step.of_channelEof (sendBalance_of_run run).scripted head
  obtain ⟨hscripted, -⟩ | h := receiveBalance_of_run run
  · rw [stage] at hscripted
    cases hscripted
  · exact ⟨by rw [stage]; rfl, h.localId, h.maxPacket, rfl, trivial⟩

variable {display : Display} {w w' : World}

/-- The end of the data is respected exactly when the server sends no output behind it. -/
theorem shell_eof_respected_iff (prepared : (prepareSession crypto display).run w = .ok () w') :
    EofRespected (shellEvents crypto w w') ↔
      ∀ t payload, .received t payload ∈ afterEof (shellEvents crypto w w') →
        ¬ Output payload := by
  obtain ⟨s, run, settled⟩ := shellEvents_run crypto prepared
  generalize shellEvents crypto w w' = events at run
  obtain hnil | ⟨l, eof, hevents, heof⟩ := afterEof_cases events
  · exact ⟨fun _ _ _ hmem => by simp [hnil] at hmem,
      fun _ => ⟨by simp [hnil], fun _ _ _ _ hmem => by simp [hnil] at hmem⟩⟩
  have hrun := run
  rw [hevents] at hrun
  obtain ⟨u, v, hl, step, rest⟩ := hrun.split_at
  have hbarred := barred_of_eof hl step heof
  refine ⟨fun h t payload hmem houtput => ?_, fun h => ?_⟩
  · obtain ⟨m, n, hm⟩ := List.append_of_mem hmem
    rw [hm] at rest
    obtain ⟨x, y, hbefore, hreceived, hafter⟩ := rest.split_at
    have hlate : x.stage.late = true := hbefore.invariant (fun _ s => s.stage.late = true)
      hbarred.late (fun _ _ _ _ h step => step.late h)
    obtain ⟨n', rfl⟩ := accepted_of_output ((hl.snoc step).append hbefore) hreceived hafter settled
      hlate houtput
    exact h.nothing (.accepted payload) (by simp [hm]) houtput.delivers
  · obtain ⟨hnothing, hwindow⟩ := hbarred.of_run rest h
    exact ⟨hnothing, fun c t c' t' hc hc' => (hwindow c t hc).trans (hwindow c' t' hc').symm⟩

/-- In the short login only the exit status and the close come behind the end. -/
theorem shell_eof_respected_shortLogin :
    ∃ w', (prepareSession (zeroKeyCrypto []) {}).run shortLogin = .ok () w' ∧
      (afterEof (shellEvents (zeroKeyCrypto []) shortLogin w')).length = 9 ∧
      EofRespected (shellEvents (zeroKeyCrypto []) shortLogin w') := by
  have hprepared := eq_ok_of_returned
    (r := (prepareSession (zeroKeyCrypto []) {}).run shortLogin) (by decide +kernel)
  refine ⟨_, hprepared, by decide +kernel, ?_⟩
  refine (shell_eof_respected_iff (zeroKeyCrypto []) hprepared).mpr
    (fun t payload hmem houtput => ?_)
  have hheads : ∀ e ∈ afterEof (shellEvents (zeroKeyCrypto []) shortLogin
      (outcome ((prepareSession (zeroKeyCrypto []) {}).run shortLogin))),
      e ∈ [.received { outgoingSequence := 4, incomingSequence := 6 } (exitStatus 0 0 3),
        .received { outgoingSequence := 4, incomingSequence := 7 }
          (recipientOnly Message.channelClose 0)] ∨ IsReceived e = false := by decide +kernel
  obtain hmem | hno := hheads _ hmem
  · have hdelivers := houtput.delivers
    simp only [List.mem_cons, Event.received.injEq, List.not_mem_nil, or_false] at hmem
    obtain ⟨-, rfl⟩ | ⟨-, rfl⟩ := hmem <;> obtain h | h := hdelivers <;> exact absurd h (by decide)
  · cases hno

/-- The server sends a word behind the end of its data. -/
def wordBehindEof : World where
  wire := { sock := { reads := [.returned ([openConfirmation 0 7 100 32768,
    recipientOnly Message.channelSuccess 0, recipientOnly Message.channelSuccess 0,
    recipientOnly Message.channelEof 0, channelData 0 (ascii "hi"),
    recipientOnly Message.channelClose 0].flatMap plainPacket)] } }
  polls := [.ready false true false, .ready false true false, .ready false true false]

/-- The word is accepted and written to the screen. -/
theorem shell_eof_ignored_wordBehindEof :
    ∃ w', (prepareSession (zeroKeyCrypto []) {}).run wordBehindEof = .ok () w' ∧
      .accepted (channelData initialChannelId (ascii "hi")) ∈
        afterEof (shellEvents (zeroKeyCrypto []) wordBehindEof w') ∧
      .wroteStdout (ascii "hi") ∈ afterEof (shellEvents (zeroKeyCrypto []) wordBehindEof w') ∧
      ¬ EofRespected (shellEvents (zeroKeyCrypto []) wordBehindEof w') := by
  have hprepared := eq_ok_of_returned
    (r := (prepareSession (zeroKeyCrypto []) {}).run wordBehindEof) (by decide +kernel)
  have hword : .wroteStdout (ascii "hi") ∈ afterEof (shellEvents (zeroKeyCrypto []) wordBehindEof
      (outcome ((prepareSession (zeroKeyCrypto []) {}).run wordBehindEof))) := by decide +kernel
  exact ⟨_, hprepared, by decide +kernel, hword, fun h => h.nothing _ hword trivial⟩

end SshClient.Protocol

import SshClient.Protocol.Program

/-!
# The order of a whole run

The types of the messages that the client accepts, one after the other, are the beginning
of a word of a fixed language. The proof keeps for each state of the machine the words
that may still follow, and reads a step backwards: what may follow behind it may follow
its message in front of it.

The packets of a run are numbered from 0 in each direction, and the first three are the
only ones that are not encrypted.
-/

namespace SshClient.Protocol

open Control Client Connection Transport

/-! ### Words -/

/-- The messages of key exchange and authentication. -/
def handshakeTypes : List UInt8 :=
  [Message.kexinit, Message.kexEcdhReply, Message.newkeys, Message.serviceAccept,
    Message.userauthFailure, Message.userauthSuccess]

/-- What may come between two messages of the shell. -/
def shellTypes : List UInt8 :=
  [Message.channelData, Message.channelExtendedData, Message.channelWindowAdjust,
    Message.globalRequest, Message.channelEof, Message.channelRequest]

/-- The shell: at most so many ends of input and exit statuses, and one close. -/
def ShellWord (eofs statuses : Nat) (word : List UInt8) : Prop :=
  ∃ body, word = body ++ [Message.channelClose] ∧ (∀ number ∈ body, number ∈ shellTypes) ∧
    body.count Message.channelEof ≤ eofs ∧ body.count Message.channelRequest ≤ statuses

/-- So many channel requests, each with the success that answers it. -/
def RequestsWord (eofs statuses : Nat) : Nat → List UInt8 → Prop
  | 0, word => ShellWord eofs statuses word
  | count + 1, word => ∃ waiting rest, word = waiting ++ Message.channelSuccess :: rest ∧
      (∀ number ∈ waiting, number ∈ [Message.globalRequest, Message.channelWindowAdjust]) ∧
      RequestsWord eofs statuses count rest

/-- The channel, its two requests and the shell. -/
def ConnectionWord (eofs statuses : Nat) (word : List UInt8) : Prop :=
  ∃ opening rest, word = opening ++ Message.channelOpenConfirmation :: rest ∧
    (∀ number ∈ opening, number = Message.globalRequest) ∧ RequestsWord eofs statuses 2 rest

def ProtocolWord (word : List UInt8) : Prop :=
  ∃ rest, word = handshakeTypes ++ rest ∧ ConnectionWord 1 1 rest

section Words

variable {eofs statuses count : Nat} {number : UInt8} {word : List UInt8}

theorem shellWord_close : ShellWord eofs statuses [Message.channelClose] :=
  ⟨[], rfl, by simp, by simp, by simp⟩

/-- A message of the shell that is neither of the two that are counted. -/
theorem ShellWord.cons (h : ShellWord eofs statuses word) (mem : number ∈ shellTypes)
    (eof : number ≠ Message.channelEof) (status : number ≠ Message.channelRequest) :
    ShellWord eofs statuses (number :: word) := by
  obtain ⟨body, rfl, hmem, heofs, hstatuses⟩ := h
  refine ⟨number :: body, rfl, ?_, ?_, ?_⟩
  · exact List.forall_mem_cons.mpr ⟨mem, hmem⟩
  · rw [List.count_cons_of_ne eof]
    exact heofs
  · rw [List.count_cons_of_ne status]
    exact hstatuses

theorem ShellWord.cons_eof (h : ShellWord eofs statuses word) :
    ShellWord (eofs + 1) statuses (Message.channelEof :: word) := by
  obtain ⟨body, rfl, hmem, heofs, hstatuses⟩ := h
  refine ⟨Message.channelEof :: body, rfl, ?_, ?_, ?_⟩
  · exact List.forall_mem_cons.mpr ⟨by decide, hmem⟩
  · rw [List.count_cons_self]
    exact Nat.succ_le_succ heofs
  · rw [List.count_cons_of_ne (by decide)]
    exact hstatuses

theorem ShellWord.cons_exitStatus (h : ShellWord eofs statuses word) :
    ShellWord eofs (statuses + 1) (Message.channelRequest :: word) := by
  obtain ⟨body, rfl, hmem, heofs, hstatuses⟩ := h
  refine ⟨Message.channelRequest :: body, rfl, ?_, ?_, ?_⟩
  · exact List.forall_mem_cons.mpr ⟨by decide, hmem⟩
  · rw [List.count_cons_of_ne (by decide)]
    exact heofs
  · rw [List.count_cons_self]
    exact Nat.succ_le_succ hstatuses

theorem RequestsWord.success (h : RequestsWord eofs statuses count word) :
    RequestsWord eofs statuses (count + 1) (Message.channelSuccess :: word) :=
  ⟨[], word, rfl, by simp, h⟩

theorem RequestsWord.cons (h : RequestsWord eofs statuses (count + 1) word)
    (mem : number ∈ [Message.globalRequest, Message.channelWindowAdjust]) :
    RequestsWord eofs statuses (count + 1) (number :: word) := by
  obtain ⟨waiting, rest, rfl, hmem, hrest⟩ := h
  exact ⟨number :: waiting, rest, rfl, List.forall_mem_cons.mpr ⟨mem, hmem⟩, hrest⟩

theorem ConnectionWord.cons (h : ConnectionWord eofs statuses word) :
    ConnectionWord eofs statuses (Message.globalRequest :: word) := by
  obtain ⟨opening, rest, rfl, hmem, hrest⟩ := h
  exact ⟨Message.globalRequest :: opening, rest, rfl, List.forall_mem_cons.mpr ⟨rfl, hmem⟩, hrest⟩

theorem exists_requestsWord (eofs statuses count : Nat) :
    ∃ word, RequestsWord eofs statuses count word := by
  induction count with
  | zero => exact ⟨_, shellWord_close⟩
  | succ count ih =>
      obtain ⟨word, h⟩ := ih
      exact ⟨_, h.success⟩

theorem connectionWord_cons (h : RequestsWord eofs statuses 2 word) :
    ConnectionWord eofs statuses (Message.channelOpenConfirmation :: word) :=
  ⟨[], word, rfl, by simp, h⟩

end Words

/-! ### What may still be accepted -/

def Label.acceptedType : Label → Option UInt8
  | .accept number => some number
  | _ => none

def Event.acceptedType : Event → Option UInt8
  | .accepted payload => some (payload.headD 0)
  | _ => none

/-- The types of the messages that have been accepted, in their order. -/
def acceptedTypes (l : List Event) : List UInt8 := l.filterMap Event.acceptedType

theorem acceptedTypes_append (l l' : List Event) :
    acceptedTypes (l ++ l') = acceptedTypes l ++ acceptedTypes l' := List.filterMap_append

def State.eofs (s : State) : Nat := if s.channel.remoteEofReceived then 0 else 1

def State.statuses (s : State) : Nat := if s.channel.exitStatusReceived then 0 else 1

/-- The words that complete a run from this state. -/
def Expected (s : State) (word : List UInt8) : Prop :=
  match s.stage with
  | .scripted rest =>
      ∃ more, word = rest.filterMap Label.acceptedType ++ more ∧ ConnectionWord 1 1 more
  | .opening => ConnectionWord s.eofs s.statuses word
  | .requesting count => RequestsWord s.eofs s.statuses count word
  | .waiting count => RequestsWord s.eofs s.statuses (count + 1) word
  | .shell => if s.duty.closing then word = [] else ShellWord s.eofs s.statuses word
  | .closing | .closed | .reported => word = []

section Steps

variable {s s' : State} {e : Event} {l : List Event} {word : List UInt8}

theorem exists_expected (s : State) : ∃ word, Expected s word := by
  obtain ⟨shell, hshell⟩ : ∃ word, ShellWord s.eofs s.statuses word := ⟨_, shellWord_close⟩
  unfold Expected
  cases s.stage with
  | scripted rest =>
      obtain ⟨word, h⟩ := exists_requestsWord 1 1 2
      exact ⟨_, _, rfl, connectionWord_cons h⟩
  | opening =>
      obtain ⟨word, h⟩ := exists_requestsWord s.eofs s.statuses 2
      exact ⟨_, connectionWord_cons h⟩
  | requesting count | waiting count => exact exists_requestsWord ..
  | shell =>
      cases hclosing : s.duty.closing with
      | true => exact ⟨[], by simp⟩
      | false => exact ⟨shell, by simpa using hshell⟩
  | closing | closed | reported => exact ⟨[], rfl⟩

/-- A step that does not change what has been accepted of the session. -/
theorem Expected.of_same (h : Expected s' word) (stage : s'.stage = s.stage)
    (closing : s'.duty.closing = s.duty.closing)
    (eof : s'.channel.remoteEofReceived = s.channel.remoteEofReceived)
    (status : s'.channel.exitStatusReceived = s.channel.exitStatusReceived) : Expected s word := by
  unfold Expected State.eofs State.statuses at h ⊢
  rw [stage, closing, eof, status] at h
  exact h

theorem Expected.shell (h : Expected s word) (stage : s.stage = .shell)
    (closing : s.duty.closing = false) : ShellWord s.eofs s.statuses word := by
  unfold Expected at h
  rw [stage] at h
  simpa [closing] using h

theorem expected_shell (stage : s.stage = .shell) (closing : s.duty.closing = false)
    (h : ShellWord s.eofs s.statuses word) : Expected s word := by
  unfold Expected
  rw [stage]
  simpa [closing] using h

/-- A message that is accepted in the shell and counted neither as the end of the input nor
as an exit status. -/
theorem Expected.cons_shell (h : Expected s word) (number : UInt8) (stage : s.stage = .shell)
    (closing : s.duty.closing = false) (mem : number ∈ shellTypes)
    (eof : number ≠ Message.channelEof) (status : number ≠ Message.channelRequest) :
    Expected s (number :: word) :=
  expected_shell stage closing ((h.shell stage closing).cons mem eof status)

theorem Expected.cons_adjust (h : Expected s word) (stage : s.stage.adjusting = true)
    (closing : s.duty.closing = false) : Expected s (Message.channelWindowAdjust :: word) := by
  cases hstage : s.stage with
  | waiting count =>
      unfold Expected at h ⊢
      rw [hstage] at h ⊢
      exact h.cons (by decide)
  | shell => exact h.cons_shell _ hstage closing (by decide) (by decide) (by decide)
  | _ =>
      rw [hstage] at stage
      cases stage

theorem Expected.cons_global (h : Expected s word) (stage : s.stage.listening = true)
    (closing : s.duty.closing = false) : Expected s (Message.globalRequest :: word) := by
  cases hstage : s.stage with
  | opening =>
      unfold Expected at h ⊢
      rw [hstage] at h ⊢
      exact h.cons
  | waiting count =>
      unfold Expected at h ⊢
      rw [hstage] at h ⊢
      exact h.cons (by decide)
  | shell => exact h.cons_shell _ hstage closing (by decide) (by decide) (by decide)
  | _ =>
      rw [hstage] at stage
      cases stage

theorem acceptedTypes_quiet (quiet : Event.quiet e = true) : acceptedTypes [e] = [] := by
  cases e <;> first | rfl | cases quiet

theorem closing_of_judge {payload : Bytes} (duty : s.duty = .judge payload) :
    s.duty.closing = false := by
  rw [duty]
  rfl

theorem windowed_closing (s : State) : s.windowed.duty.closing = false := by
  unfold State.windowed
  split <;> rfl

/-- What may follow behind a step may follow its message in front of it. -/
theorem Step.expected (step : Step s e s') (sound : Sound s) (h : Expected s' word) :
    Expected s (acceptedTypes [e] ++ word) := by
  cases step with
  | sent | head => exact h
  | quiet _ quiet =>
      rw [acceptedTypes_quiet quiet]
      exact h
  | send stage | receive stage | request stage =>
      unfold Expected
      rw [stage]
      exact h
  | accept stage _ head =>
      obtain ⟨more, rfl, hmore⟩ := h
      unfold Expected
      rw [stage]
      refine ⟨more, ?_, hmore⟩
      simp [acceptedTypes, Event.acceptedType, Label.acceptedType, List.headD_eq_head?_getD, head]
  | openChannel stage =>
      unfold Expected
      rw [stage]
      exact ⟨word, rfl, h⟩
  | listen _ idle | typed _ idle => exact h.of_same rfl (by rw [idle]; rfl) rfl rfl
  | confirmation stage =>
      unfold Expected
      rw [stage]
      exact connectionWord_cons h
  | global stage duty =>
      have hsame : Expected s word := by
        refine h.of_same rfl ?_ rfl rfl
        rw [closing_of_judge duty]
        split <;> rfl
      exact hsame.cons_global stage (closing_of_judge duty)
  | success stage duty =>
      rename_i count
      unfold Expected
      rw [stage]
      cases count with
      | zero => exact RequestsWord.success (h.shell rfl rfl)
      | succ count => exact RequestsWord.success h
  | adjust stage duty =>
      have hsame : Expected s word := h.of_same rfl (closing_of_judge duty).symm rfl rfl
      exact hsame.cons_adjust stage (closing_of_judge duty)
  | reply duty | sendTyped duty | refill duty => exact h.of_same rfl (by rw [duty]; rfl) rfl rfl
  | wroteStdout duty | wroteStderr duty =>
      exact h.of_same rfl (by rw [duty, windowed_closing]; rfl) rfl rfl
  | data stage duty =>
      have hsame : Expected s word := h.of_same rfl (closing_of_judge duty).symm rfl rfl
      exact hsame.cons_shell Message.channelData stage (closing_of_judge duty) (by decide)
        (by decide) (by decide)
  | extendedData stage duty =>
      have hsame : Expected s word := h.of_same rfl (closing_of_judge duty).symm rfl rfl
      exact hsame.cons_shell Message.channelExtendedData stage (closing_of_judge duty) (by decide)
        (by decide) (by decide)
  | eof stage duty first =>
      refine expected_shell stage (closing_of_judge duty) ?_
      have hshell := (h.shell stage rfl).cons_eof
      rw [State.eofs, first]
      exact hshell
  | exitStatus stage duty first =>
      refine expected_shell stage (closing_of_judge duty) ?_
      have hshell := (h.shell stage rfl).cons_exitStatus
      rw [State.statuses, first]
      exact hshell
  | close stage duty =>
      obtain rfl : word = [] := by
        unfold Expected at h
        simpa [stage, Duty.closing] using h
      exact expected_shell stage (closing_of_judge duty) shellWord_close
  | sendClose duty =>
      have stage : s.stage = .shell := sound.interactive (by rw [duty]; rfl)
      unfold Expected
      rw [stage, duty]
      exact h
  | sentClose stage | report stage =>
      unfold Expected
      rw [stage]
      exact h

/-- The messages that have been accepted, followed by anything that may still come. -/
theorem protocolWord_of_run (run : Run Step State.initial l s) (h : Expected s word) :
    ProtocolWord (acceptedTypes l ++ word) := by
  have hinv : Sound s ∧ ∀ word, Expected s word → ProtocolWord (acceptedTypes l ++ word) := by
    refine run.invariant (fun l s => Sound s ∧
      ∀ word, Expected s word → ProtocolWord (acceptedTypes l ++ word)) ⟨sound_initial, ?_⟩ ?_
    · intro word h
      exact h
    · intro l s e s' h step
      refine ⟨step.sound h.1, ?_⟩
      intro word hword
      rw [acceptedTypes_append, List.append_assoc]
      exact h.2 _ (step.expected h.1 hword)
  exact hinv.2 word h

end Steps

/-! ### The numbers of packets -/

def Event.isSending : Event → Bool
  | .sending .. => true
  | _ => false

def Event.isReceived : Event → Bool
  | .received .. => true
  | _ => false

/-- How many packets have been passed to the transport. -/
def sends (l : List Event) : Nat := l.countP Event.isSending

/-- How many packets the transport has returned. -/
def receives (l : List Event) : Nat := l.countP Event.isReceived

/-- A packet has the number of the packets before it, and it is encrypted unless it is one
of the first three. -/
def Event.Numbered (before : List Event) : Event → Prop
  | .sending t _ => t.outgoingSequence = UInt32.ofNat (sends before) ∧
      t.outgoingEncryptionActive = decide (3 ≤ sends before)
  | .received t _ => t.incomingSequence = UInt32.ofNat (receives before) ∧
      t.incomingEncryptionActive = decide (3 ≤ receives before)
  | _ => True

def Label.isSend : Label → Bool
  | .send _ => true
  | _ => false

def Label.isReceive : Label → Bool
  | .receive => true
  | _ => false

section Script

variable {done rest : List Label}

/-- Whether the keys are in use where the script has got to. -/
def Label.keysOutgoing (done : List Label) : Bool :=
  done.any fun
    | .send number => number == Message.newkeys
    | _ => false

def Label.keysIncoming (done : List Label) : Bool :=
  done.any fun
    | .accept number => number == Message.newkeys
    | _ => false

/-- A place of the script is given by the length of what has been done. -/
theorem script_place {P : List Label → List Label → Prop}
    (h : ∀ k ≤ script.length, P (script.take k) (script.drop k)) (split : script = done ++ rest) :
    P done rest := by
  have hlength : done.length ≤ script.length := by
    rw [split, List.length_append]
    exact Nat.le_add_right ..
  have hplace := h done.length hlength
  rwa [split, List.take_left, List.drop_left] at hplace

/-- A packet of the script is encrypted unless it is one of the first three. -/
theorem keysOutgoing_of_send {number : UInt8} (split : script = done ++ .send number :: rest) :
    Label.keysOutgoing done = decide (3 ≤ done.countP Label.isSend) := by
  have hplace := script_place (P := fun done rest => rest.head?.any Label.isSend = true →
    Label.keysOutgoing done = decide (3 ≤ done.countP Label.isSend)) (by decide) split
  exact hplace rfl

theorem keysIncoming_of_receive (split : script = done ++ .receive :: rest) :
    Label.keysIncoming done = decide (3 ≤ done.countP Label.isReceive) := by
  have hplace := script_place (P := fun done rest => rest.head?.any Label.isReceive = true →
    Label.keysIncoming done = decide (3 ≤ done.countP Label.isReceive)) (by decide) split
  exact hplace rfl

end Script

section Counting

variable {s s' : State} {e : Event} {l : List Event} {done rest : List Label}

theorem sends_snoc : sends (l ++ [e]) = sends l + if Event.isSending e then 1 else 0 := by
  rw [sends, List.countP_append, List.countP_singleton]
  rfl

theorem receives_snoc : receives (l ++ [e]) = receives l + if Event.isReceived e then 1 else 0 := by
  rw [receives, List.countP_append, List.countP_singleton]
  rfl

theorem not_packet_of_quiet (quiet : Event.quiet e = true) :
    Event.isSending e = false ∧ Event.isReceived e = false := by
  cases e <;> first | exact ⟨rfl, rfl⟩ | cases quiet

/-- The machine counts packets and nothing else. -/
theorem Step.counters (step : Step s e s') :
    s'.outgoing = s.outgoing + UInt32.ofNat (if Event.isSending e then 1 else 0) ∧
      s'.incoming = s.incoming + UInt32.ofNat (if Event.isReceived e then 1 else 0) := by
  cases step with
  | quiet _ quiet =>
      obtain ⟨hsending, hreceived⟩ := not_packet_of_quiet quiet
      rw [hsending, hreceived]
      exact ⟨(UInt32.add_zero _).symm, (UInt32.add_zero _).symm⟩
  | send | openChannel | reply | request | sendTyped | refill | sendClose =>
      exact ⟨rfl, (UInt32.add_zero _).symm⟩
  | receive | listen => exact ⟨(UInt32.add_zero _).symm, rfl⟩
  | _ => exact ⟨(UInt32.add_zero _).symm, (UInt32.add_zero _).symm⟩

/-- Behind the script the keys stay in use. -/
theorem Step.active (step : Step s e s') (unscripted : Unscripted s) :
    s'.outgoingActive = s.outgoingActive ∧ s'.incomingActive = s.incomingActive := by
  cases step with
  | send stage | accept stage => exact absurd (unscripted _ stage) (by simp)
  | _ => exact ⟨rfl, rfl⟩

/-- The run is inside the script. -/
structure Scripted (l : List Event) (s : State) (done rest : List Label) : Prop where
  stage : s.stage = .scripted rest
  split : script = done ++ rest
  duty : s.duty = .idle ∨ ∃ payload, s.duty = .judge payload
  sent : sends l = done.countP Label.isSend
  received : receives l = done.countP Label.isReceive
  outgoingActive : s.outgoingActive = Label.keysOutgoing done
  incomingActive : s.incomingActive = Label.keysIncoming done

/-- The run is behind the script. -/
structure Keyed (l : List Event) (s : State) : Prop where
  unscripted : Unscripted s
  sent : 3 ≤ sends l
  received : 3 ≤ receives l
  outgoingActive : s.outgoingActive = true
  incomingActive : s.incomingActive = true

theorem Scripted.keyed (h : Scripted l s done []) : Keyed l s := by
  obtain rfl : done = script := by
    rw [h.split, List.append_nil]
  refine ⟨?_, ?_, ?_, ?_, ?_⟩
  · intro rest hrest
    rw [h.stage] at hrest
    cases hrest
    rfl
  · rw [h.sent]
    decide
  · rw [h.received]
    decide
  · rw [h.outgoingActive]
    decide
  · rw [h.incomingActive]
    decide

theorem Keyed.step (h : Keyed l s) (step : Step s e s') : Keyed (l ++ [e]) s' := by
  obtain ⟨houtgoing, hincoming⟩ := step.active h.unscripted
  refine ⟨step.unscripted h.unscripted, ?_, ?_, ?_, ?_⟩
  · rw [sends_snoc]
    exact Nat.le_add_right_of_le h.sent
  · rw [receives_snoc]
    exact Nat.le_add_right_of_le h.received
  · rw [houtgoing]
    exact h.outgoingActive
  · rw [hincoming]
    exact h.incomingActive

/-- An event that is not a packet. -/
theorem Scripted.other (h : Scripted l s done rest) (sending : Event.isSending e = false)
    (received : Event.isReceived e = false) : Scripted (l ++ [e]) s done rest := by
  refine ⟨h.stage, h.split, h.duty, ?_, ?_, h.outgoingActive, h.incomingActive⟩
  · rw [sends_snoc, sending]
    exact h.sent
  · rw [receives_snoc, received]
    exact h.received

/-- What a step inside the script can be: something between two packets, the label that is
next, or the step out of the script. -/
theorem Scripted.cases_step (h : Scripted l s done rest) (step : Step s e s') :
    (s' = s ∧ Event.isSending e = false ∧ Event.isReceived e = false) ∨
    (∃ number rest' t payload, rest = .send number :: rest' ∧ e = .sending t payload ∧
      s' = s.past number rest') ∨
    (∃ rest' t payload, rest = .receive :: rest' ∧ e = .received t payload ∧
      s' = { s.judging payload with stage := .scripted rest' }) ∨
    (∃ number rest' payload, rest = .accept number :: rest' ∧ e = .accepted payload ∧
      s' = { s with
        stage := .scripted rest'
        duty := .idle
        incomingActive := s.incomingActive || number == Message.newkeys }) ∨
    rest = [] := by
  have hrest : ∀ rest', s.stage = .scripted rest' → rest = rest' := by
    intro rest' stage
    rw [h.stage] at stage
    exact Stage.scripted.inj stage
  cases step with
  | sent => exact .inl ⟨rfl, rfl, rfl⟩
  | quiet _ quiet => exact .inl ⟨rfl, not_packet_of_quiet quiet⟩
  | send stage => exact .inr (.inl ⟨_, _, _, _, hrest _ stage, rfl, rfl⟩)
  | receive stage => exact .inr (.inr (.inl ⟨_, _, _, hrest _ stage, rfl, rfl⟩))
  | accept stage => exact .inr (.inr (.inr (.inl ⟨_, _, _, hrest _ stage, rfl, rfl⟩)))
  | openChannel stage => exact .inr (.inr (.inr (.inr (hrest _ stage))))
  | listen stage | global stage | adjust stage =>
      rw [h.stage] at stage
      cases stage
  | confirmation stage | request stage | success stage | typed stage | data stage
  | extendedData stage | eof stage | exitStatus stage | close stage | sentClose stage
  | report stage =>
      rw [h.stage] at stage
      cases stage
  | head stage =>
      rw [h.stage] at stage
      rcases stage with stage | stage <;> cases stage
  | reply duty | sendTyped duty | wroteStdout duty | wroteStderr duty | refill duty
  | sendClose duty =>
      rcases h.duty with hduty | ⟨payload, hduty⟩ <;> rw [hduty] at duty <;> cases duty

theorem Scripted.step (h : Scripted l s done rest) (step : Step s e s') :
    (∃ done' rest', Scripted (l ++ [e]) s' done' rest') ∨ Keyed (l ++ [e]) s' := by
  obtain ⟨rfl, hsending, hreceived⟩ | ⟨number, rest', t, payload, rfl, rfl, rfl⟩ |
    ⟨rest', t, payload, rfl, rfl, rfl⟩ | ⟨number, rest', payload, rfl, rfl, rfl⟩ | rfl :=
    h.cases_step step
  · exact .inl ⟨done, rest, h.other hsending hreceived⟩
  · refine .inl ⟨done ++ [.send number], rest', rfl, by simp [h.split], h.duty, ?_, ?_, ?_, ?_⟩
    · simp [sends_snoc, h.sent, Event.isSending, Label.isSend]
    · simp [receives_snoc, h.received, Event.isReceived, Label.isReceive]
    · simp [State.past, h.outgoingActive, Label.keysOutgoing]
    · simp [State.past, State.counted, h.incomingActive, Label.keysIncoming]
  · refine .inl ⟨done ++ [.receive], rest', rfl, by simp [h.split], .inr ⟨_, rfl⟩, ?_, ?_, ?_, ?_⟩
    · simp [sends_snoc, h.sent, Event.isSending, Label.isSend]
    · simp [receives_snoc, h.received, Event.isReceived, Label.isReceive]
    · simp [State.judging, h.outgoingActive, Label.keysOutgoing]
    · simp [State.judging, h.incomingActive, Label.keysIncoming]
  · refine .inl ⟨done ++ [.accept number], rest', rfl, by simp [h.split], .inl rfl, ?_, ?_, ?_, ?_⟩
    · simp [sends_snoc, h.sent, Event.isSending, Label.isSend]
    · simp [receives_snoc, h.received, Event.isReceived, Label.isReceive]
    · simp [h.outgoingActive, Label.keysOutgoing]
    · simp [h.incomingActive, Label.keysIncoming]
  · exact .inr (h.keyed.step step)

/-- The machine has the numbers of the packets of the run. -/
structure Counts (l : List Event) (s : State) : Prop where
  outgoing : s.outgoing = UInt32.ofNat (sends l)
  incoming : s.incoming = UInt32.ofNat (receives l)
  place : (∃ done rest, Scripted l s done rest) ∨ Keyed l s

theorem counts_initial : Counts [] State.initial :=
  ⟨rfl, rfl, .inl ⟨[], script, rfl, rfl, .inl rfl, rfl, rfl, rfl, rfl⟩⟩

theorem Counts.step (h : Counts l s) (step : Step s e s') : Counts (l ++ [e]) s' := by
  obtain ⟨houtgoing, hincoming⟩ := step.counters
  refine ⟨?_, ?_, ?_⟩
  · rw [houtgoing, h.outgoing, sends_snoc, UInt32.ofNat_add]
  · rw [hincoming, h.incoming, receives_snoc, UInt32.ofNat_add]
  · rcases h.place with ⟨done, rest, hscripted⟩ | hkeyed
    · exact hscripted.step step
    · exact .inr (hkeyed.step step)

theorem counts_of_run (run : Run Step State.initial l s) : Counts l s :=
  run.invariant Counts counts_initial fun _ _ _ _ h step => h.step step

theorem Keyed.outgoing_eq (h : Keyed l s) : s.outgoingActive = decide (3 ≤ sends l) := by
  rw [h.outgoingActive]
  exact (decide_eq_true h.sent).symm

theorem Keyed.incoming_eq (h : Keyed l s) : s.incomingActive = decide (3 ≤ receives l) := by
  rw [h.incomingActive]
  exact (decide_eq_true h.received).symm

/-- The keys are in use for the packets behind the third one. -/
theorem Counts.sending (h : Counts l s) {t : Transport} {payload : Bytes}
    (step : Step s (.sending t payload) s') : s.outgoingActive = decide (3 ≤ sends l) := by
  rcases h.place with ⟨done, rest, hscripted⟩ | hkeyed
  · obtain ⟨-, hsending, -⟩ | ⟨number, rest', t', payload', rfl, -, -⟩ | ⟨_, _, _, -, he, -⟩ |
      ⟨_, _, _, -, he, -⟩ | rfl := hscripted.cases_step step
    · cases hsending
    · rw [hscripted.outgoingActive, hscripted.sent]
      exact keysOutgoing_of_send hscripted.split
    · cases he
    · cases he
    · exact hscripted.keyed.outgoing_eq
  · exact hkeyed.outgoing_eq

theorem Counts.receiving (h : Counts l s) {t : Transport} {payload : Bytes}
    (step : Step s (.received t payload) s') : s.incomingActive = decide (3 ≤ receives l) := by
  rcases h.place with ⟨done, rest, hscripted⟩ | hkeyed
  · obtain ⟨-, -, hreceived⟩ | ⟨_, _, _, _, -, he, -⟩ | ⟨rest', t', payload', rfl, -, -⟩ |
      ⟨_, _, _, -, he, -⟩ | rfl := hscripted.cases_step step
    · cases hreceived
    · cases he
    · rw [hscripted.incomingActive, hscripted.received]
      exact keysIncoming_of_receive hscripted.split
    · cases he
    · exact hscripted.keyed.incoming_eq
  · exact hkeyed.incoming_eq

theorem Step.aligned_of_sending {t : Transport} {payload : Bytes}
    (step : Step s (.sending t payload) s') : s.Aligned t := by
  cases step with
  | quiet _ quiet => cases quiet
  | send _ _ aligned | openChannel _ _ aligned | request _ _ aligned => exact aligned
  | reply _ aligned | sendTyped _ aligned | refill _ aligned | sendClose _ aligned => exact aligned

theorem Step.aligned_of_received {t : Transport} {payload : Bytes}
    (step : Step s (.received t payload) s') : s.Aligned t := by
  cases step with
  | quiet _ quiet => cases quiet
  | receive _ _ aligned | listen _ _ aligned => exact aligned

/-- Every packet of a run has its number. -/
theorem numbered_of_run (run : Run Step State.initial l s) : Each Event.Numbered l := by
  refine run.each ?_
  intro l s e s' hrun step
  have hcounts := counts_of_run hrun
  cases e with
  | sending t payload =>
      have haligned := step.aligned_of_sending
      refine ⟨?_, ?_⟩
      · rw [haligned.outgoing, hcounts.outgoing]
      · rw [haligned.outgoingActive, hcounts.sending step]
  | received t payload =>
      have haligned := step.aligned_of_received
      refine ⟨?_, ?_⟩
      · rw [haligned.incoming, hcounts.incoming]
      · rw [haligned.incomingActive, hcounts.receiving step]
  | _ => trivial

/-- A channel request that is accepted is an exit status. -/
theorem exitStatus_of_run (run : Run Step State.initial l s) :
    Each (fun _ e => ∀ payload, e = .accepted payload →
      payload.head? = some Message.channelRequest →
      ∃ recipient wantReply status,
        payload = Connection.exitStatus recipient wantReply status) l := by
  refine run.each ?_
  intro l s e s' hrun step payload he head
  rw [he] at step
  cases step with
  | quiet _ quiet => cases quiet
  | accept stage _ head' =>
      rename_i number _ _
      obtain rfl : number = Message.channelRequest := by
        rw [head', Option.some.injEq] at head
        exact head
      rcases (counts_of_run hrun).place with ⟨done, rest', hscripted⟩ | hkeyed
      · have hmem : Label.accept Message.channelRequest ∈ script := by
          rw [hscripted.split, Stage.scripted.inj (hscripted.stage.symm.trans stage)]
          simp
        exact absurd hmem (by decide)
      · exact absurd (hkeyed.unscripted _ stage) (by simp)
  | confirmation => exact absurd head (head_cons_ne Message.channelOpenConfirmation (by decide))
  | global => exact absurd head (head_cons_ne Message.globalRequest (by decide))
  | success => exact absurd head (head_cons_ne Message.channelSuccess (by decide))
  | adjust => exact absurd head (head_cons_ne Message.channelWindowAdjust (by decide))
  | data => exact absurd head (head_cons_ne Message.channelData (by decide))
  | extendedData => exact absurd head (head_cons_ne Message.channelExtendedData (by decide))
  | eof => exact absurd head (head_cons_ne Message.channelEof (by decide))
  | close => exact absurd head (head_cons_ne Message.channelClose (by decide))
  | exitStatus => exact ⟨_, _, _, rfl⟩

end Counting

/-! ### The program -/

section Program

variable {guard : List Event → Transport → Bytes → Prop} {passed : List Event} {keys : Keying}

/-- Three packets in each direction have led to the authentication. -/
theorem counts_of_exchange {w : Wire}
    (h : Along guard authenticationScript .idle passed keys w) :
    sends w.trace = 3 ∧ receives w.trace = 3 ∧
      w.transport.outgoingSequence = 3 ∧ w.transport.incomingSequence = 3 := by
  obtain ⟨s, hreached, hstage, -⟩ := h.reached
  obtain ⟨run, htrace, hrun⟩ := hreached.follows
  rw [List.nil_append] at htrace
  have hcounts := counts_of_run hrun
  rw [← htrace] at hcounts
  rcases hcounts.place with ⟨done, rest, hscripted⟩ | hkeyed
  · have hrest : rest = authenticationScript :=
      Stage.scripted.inj (hscripted.stage.symm.trans hstage)
    have hdone : done = keyExchangeScript [] := by
      have hsplit : keyExchangeScript [] ++ authenticationScript = done ++ rest := hscripted.split
      rw [hrest] at hsplit
      exact (List.append_cancel_right hsplit).symm
    have hsends : sends w.trace = 3 := by
      rw [hscripted.sent, hdone]
      rfl
    have hreceives : receives w.trace = 3 := by
      rw [hscripted.received, hdone]
      rfl
    refine ⟨hsends, hreceives, ?_, ?_⟩
    · rw [hreached.aligned.outgoing, hcounts.outgoing, hsends]
      rfl
    · rw [hreached.aligned.incoming, hcounts.incoming, hreceives]
      rfl
  · exact absurd (hkeyed.unscripted _ hstage) (by decide)

/-- What stands behind a run of the machine. -/
theorem acceptedTypes_tail {tail : List Event}
    (h : tail = [] ∨ ∃ text, tail = [.printedError text]) : acceptedTypes tail = [] := by
  obtain rfl | ⟨text, rfl⟩ := h
  · rfl
  · rfl

theorem each_append_tail {P : List Event → Event → Prop} {l tail : List Event} (each : Each P l)
    (h : tail = [] ∨ ∃ text, tail = [.printedError text])
    (free : ∀ text before, P before (.printedError text)) : Each P (l ++ tail) := by
  refine each.append ?_
  intro e hmem before
  obtain rfl | ⟨text, rfl⟩ := h
  · cases hmem
  · rw [List.mem_singleton.mp hmem]
    exact free text before

/-- In every run of the program the accepted messages are the beginning of a word of the
protocol, and all of one when the exit code is 0. Every packet has the number of its place,
and only the first three of each direction are not encrypted. When the key exchange of the
program returns, both counters are at 3 and nothing has been taken from the stream but three
frames, of which the last is the NEWKEYS of the server. -/
theorem main_protocol_order (crypto : Crypto) (env : Environment) :
    (∃ word, ProtocolWord word ∧
      acceptedTypes (outcome (main crypto env)).wire.trace <+: word) ∧
    (∀ t, main crypto env = .ok 0 t → ProtocolWord (acceptedTypes t.wire.trace)) ∧
    (∀ payload, .accepted payload ∈ (outcome (main crypto env)).wire.trace →
      payload.head? = some Message.channelRequest →
      ∃ recipient wantReply status, payload = Connection.exitStatus recipient wantReply status) ∧
    Each Event.Numbered (outcome (main crypto env)).wire.trace ∧
    ∀ config id w t, (openConnection env).run env.start = .ok (config, id) w →
      (performKeyExchange crypto id (Config.knownHostIdentifier config)).run w = .ok () t →
      sends t.wire.trace = 3 ∧ receives t.wire.trace = 3 ∧
      t.wire.transport.outgoingSequence = 3 ∧ t.wire.transport.incomingSequence = 3 ∧
      ∃ kexinit reply newkeys : Frame blockSize, newkeys.payload = [Message.newkeys] ∧
        Socket.stream w.wire.sock.reads =
          kexinit.bytes ++ reply.bytes ++ newkeys.bytes ++ Socket.stream t.wire.sock.reads := by
  have hmain : Guarded (fun _ _ _ => True) (outcome (main crypto env)).wire.trace ∧ _ :=
    main_follows crypto fun _ _ _ _ _ _ _ _ => trivial
  obtain ⟨-, run, s, tail, htrace, htail, hrun, hend⟩ := hmain
  have haccepted : acceptedTypes (outcome (main crypto env)).wire.trace = acceptedTypes run := by
    rw [htrace, acceptedTypes_append, acceptedTypes_tail htail, List.append_nil]
  refine ⟨?_, ?_, ?_, ?_, ?_⟩
  · obtain ⟨word, hword⟩ := exists_expected s
    refine ⟨_, protocolWord_of_run hrun hword, ?_⟩
    rw [haccepted]
    exact List.prefix_append ..
  · intro t ht
    have hexpected : Expected s [] := by
      obtain hstage | hstage := (hend t ht).2
      · unfold Expected
        rw [hstage]
      · unfold Expected
        rw [hstage]
    have hword := protocolWord_of_run hrun hexpected
    rw [List.append_nil, ← haccepted, ht] at hword
    exact hword
  · intro payload hmem head
    have heach := each_append_tail (exitStatus_of_run hrun) htail
      (fun text _ payload he => absurd he (by simp))
    rw [← htrace] at heach
    obtain ⟨-, hstatus⟩ := heach.of_mem hmem
    exact hstatus payload rfl head
  · rw [htrace]
    exact each_append_tail (numbered_of_run hrun) htail fun _ _ => trivial
  · intro config id w t hopen hexchange
    obtain ⟨x, halong, kexinit, reply, newkeys, -, -, hnewkeys, hstream⟩ :=
      exchanged_of_performKeyExchange crypto hopen hexchange
    obtain ⟨hsends, hreceives, houtgoing, hincoming⟩ := counts_of_exchange halong
    exact ⟨hsends, hreceives, houtgoing, hincoming, kexinit, reply, newkeys, hnewkeys, hstream⟩

/-- The exit code of a run that has come to an end. -/
def exitCode : EStateM.Result Stop World Nat → Option Nat
  | .ok code _ => some code
  | .error _ _ => none

theorem exists_of_exitCode {r : EStateM.Result Stop World Nat} {code : Nat}
    (h : exitCode r = some code) : ∃ t, r = .ok code t := by
  cases r with
  | ok code' t =>
      cases h
      exact ⟨t, rfl⟩
  | error e t => cases h

theorem main_protocol_order_sample :
    ∃ t, main sampleCrypto sampleEnvironment = .ok 0 t ∧
      ProtocolWord (acceptedTypes t.wire.trace) := by
  have hcode : exitCode (main sampleCrypto sampleEnvironment) = some 0 := by
    decide +kernel
  obtain ⟨t, ht⟩ := exists_of_exitCode hcode
  exact ⟨t, ht, (main_protocol_order sampleCrypto sampleEnvironment).2.1 t ht⟩

end Program

end SshClient.Protocol

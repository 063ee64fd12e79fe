import SshClient.Client.Composition
import SshClient.Protocol.Program
import SshClient.Protocol.Streams

/-!
# The standard streams of a run

However a run of the program ends, what was accepted for an output has been written there,
and what `read(2)` returned in the shell has been passed to the transport, whole and in
order. Nothing of the results that `read(2)` has for the shell is lost: what it has not
returned is still there. Before the session there is nothing to pass on, because nothing
before it has the right to read, to write or to accept such data. In the session the machine
says what is under way, and a session stops only when nothing is.
-/

namespace SshClient.Program

open Control Client Transport Protocol

variable {crypto : Crypto} {α : Type}

/-! ### Before the session -/

/-- Nothing has come out of a source or gone into a sink. -/
def Silent (w : Wire) : Prop :=
  ∀ stream, source stream w.trace = [] ∧ sink stream w.trace = []

theorem Silent.snoc {w : Wire} (h : Silent w) {t : Wire} {event : Event}
    (trace : t.trace = w.trace ++ [event])
    (quiet : ∀ stream, Event.source stream event = [] ∧ Event.sink stream event = []) :
    Silent t := by
  intro stream
  obtain ⟨hsource, hsink⟩ := h stream
  obtain ⟨hquiet, hquiet'⟩ := quiet stream
  rw [trace, source_append, sink_append, source_singleton, sink_singleton, hsource, hsink, hquiet,
    hquiet']
  exact ⟨rfl, rfl⟩

section Silence

variable {rights : Rights}

/-- What may be sent without the keyboard carries no input. -/
theorem sink_of_sends (typing : rights.keyboard = false) {payload : Bytes}
    (permitted : rights.sends payload = true) (stream : Stream) (t : Transport) :
    Event.sink stream (.sending t payload) = [] := by
  cases stream with
  | stdin =>
      have hdata : payload.head? ≠ some Message.channelData := by
        intro head
        simp [Rights.sends, typing, head] at permitted
      exact if_neg hdata
  | stdout => rfl
  | stderr => rfl

/-- What may be recorded without the keyboard and the outputs moves nothing. -/
theorem silent_of_notes (typing : rights.keyboard = false) (output : rights.output = false)
    {event : Event} (permitted : rights.notes event = true) (stream : Stream) :
    Event.source stream event = [] ∧ Event.sink stream event = [] := by
  cases event with
  | typed channel data =>
      rw [Rights.notes, typing] at permitted
      cases permitted
  | wroteStdout data =>
      rw [Rights.notes, output] at permitted
      cases permitted
  | wroteStderr data =>
      rw [Rights.notes, output] at permitted
      cases permitted
  | sending t payload => cases permitted
  | accepted payload =>
      have hcarries : carriesOutput payload = false := by
        simp only [Rights.notes, output, Bool.false_or, Bool.and_eq_true,
          Bool.not_eq_true'] at permitted
        exact permitted.1
      obtain ⟨hdata, hextended⟩ := Bool.or_eq_false_iff.mp hcarries
      refine ⟨?_, sink_accepted stream payload⟩
      cases stream with
      | stdin => rfl
      | stdout => exact if_neg (by simpa using hdata)
      | stderr => exact if_neg (by simpa using hextended)
  | _ => cases stream <;> exact ⟨rfl, rfl⟩

theorem upholds_silent (typing : rights.keyboard = false) (output : rights.output = false)
    {x : Exec Wire α} (h : WireCall crypto rights α x) : Upholds Silent (fun _ => Silent) x := by
  intro w hw
  cases h with
  | send payload permitted =>
      have hsending : ∀ t : Wire, t.trace = w.trace ++ [.sending w.transport payload] → Silent t :=
        fun t trace => hw.snoc trace fun stream =>
          ⟨source_sending stream _ _, sink_of_sends typing permitted stream _⟩
      refine wp_sendPacket ?_ ?_
      · intro t sending
        have hbefore := hsending { w with trace := w.trace ++ [.sending w.transport payload] } rfl
        have htrace : t.trace = (w.trace ++ [.sending w.transport payload]) ++ [.sent payload] := by
          rw [sending.trace, List.append_assoc]
          rfl
        refine hbefore.snoc htrace ?_
        intro stream
        cases stream <;> exact ⟨rfl, rfl⟩
      · intro what t sending
        exact hsending t sending.trace
  | receive =>
      refine wp_receivePacket ?_ ?_
      · intro payload t received
        refine hw.snoc received.trace ?_
        intro stream
        cases stream <;> exact ⟨rfl, rfl⟩
      · intro e t _ missed stream
        rw [missed.trace]
        exact hw stream
  | draw count => exact hw
  | note permitted => exact hw.snoc rfl (silent_of_notes typing output permitted)
  | enableOutgoing | enableIncoming =>
      refine WP.bind_iff.mpr (WP.failIf_iff.mpr ⟨fun _ => hw, fun _ => ?_⟩)
      exact WP.bind_iff.mpr (WP.failIf_iff.mpr ⟨fun _ => hw, fun _ => hw⟩)

end Silence

/-! ### The keyboard -/

def KeyboardRead.bytes : KeyboardRead → Bytes
  | .returned chunk => chunk
  | .failed => []

/-- What `read(2)` still has to return. -/
def keyboardBytes (reads : List KeyboardRead) : Bytes := reads.flatMap KeyboardRead.bytes

/-- What has been read from the keyboard, followed by what has not. -/
def Keyed (total : Bytes) (w : World) : Prop :=
  source .stdin w.wire.trace ++ keyboardBytes w.keyboard = total

section Keyboard

variable {total : Bytes} {rights : Rights}

theorem wp_readKeyboard_bytes (maxRead : Nat) (w : World) :
    WP (readKeyboard maxRead) w
      (fun data t => ∃ rest, t = { w with keyboard := rest } ∧
        data ++ keyboardBytes rest = keyboardBytes w.keyboard)
      (fun _ t => ∃ rest, t = { w with keyboard := rest } ∧
        keyboardBytes rest = keyboardBytes w.keyboard) := by
  rw [readKeyboard, WP.bind_iff, WP.get_iff]
  split
  · exact ⟨w.keyboard, rfl, rfl⟩
  · next rest hkeyboard =>
      refine ⟨rest, rfl, ?_⟩
      rw [hkeyboard]
      rfl
  · next chunk rest hkeyboard =>
      rw [WP.ite_iff, hkeyboard]
      refine ⟨fun _ => ⟨rest, rfl, rfl⟩, fun _ => ⟨_, rfl, ?_⟩⟩
      show chunk.take maxRead ++ (chunk.drop maxRead ++ keyboardBytes rest) = _
      rw [← List.append_assoc, List.take_append_drop]
      rfl

/-- Only the keyboard half of the shell takes something out of the keyboard. -/
theorem upholds_untyped (typing : rights.keyboard = false) {typed : Bytes} {x : Exec Wire α}
    (h : WireCall crypto rights α x) :
    Upholds (fun w : Wire => source .stdin w.trace = typed)
      (fun _ w => source .stdin w.trace = typed)
      x := by
  have hsnoc : ∀ (w t : Wire) (event : Event), source .stdin w.trace = typed →
      t.trace = w.trace ++ [event] → Event.source .stdin event = [] →
      source .stdin t.trace = typed := by
    intro w t event hw trace quiet
    rw [trace, source_append, source_singleton, quiet, List.append_nil, hw]
  intro w hw
  cases h with
  | send payload =>
      refine wp_sendPacket ?_ ?_
      · intro t sending
        dsimp only
        rw [sending.trace, source_append, hw]
        exact List.append_nil _
      · intro what t sending
        rw [sending.trace, source_append, hw]
        exact List.append_nil _
  | receive =>
      refine wp_receivePacket ?_ ?_
      · intro payload t received
        exact hsnoc w t _ hw received.trace rfl
      · intro e t _ missed
        rw [missed.trace]
        exact hw
  | draw count => exact hw
  | note permitted =>
      refine hsnoc w _ _ hw rfl ?_
      cases ‹Event› with
      | typed channel data =>
          rw [Rights.notes, typing] at permitted
          cases permitted
      | _ => rfl
  | enableOutgoing | enableIncoming =>
      refine WP.bind_iff.mpr (WP.failIf_iff.mpr ⟨fun _ => hw, fun _ => ?_⟩)
      exact WP.bind_iff.mpr (WP.failIf_iff.mpr ⟨fun _ => hw, fun _ => hw⟩)

theorem beside_keyboard (typing : rights.keyboard = false) (reads : List KeyboardRead) :
    Beside rights fun w => w.keyboard = reads where
  wire _ _ h := h
  channel _ _ h := h
  console _ _ h := h
  polls _ _ h := h
  hosts _ _ _ h := h
  keyboard allowed := absurd allowed (by simp [typing])

theorem upholds_keyed (typing : rights.keyboard = false) {allowed : Stop → Prop}
    {x : Exec World α} (h : OnWorld crypto allowed rights x) :
    Upholds (Keyed total) (fun _ => Keyed total) x := by
  intro w hw
  have hwire := upholds_onWorld crypto (fun _ _ => upholds_untyped typing) (fun _ ht => ht) h w rfl
  have hkeyboard := (beside_keyboard typing w.keyboard).upholds crypto h w rfl
  refine (hwire.and hkeyboard).mono ?_ ?_
  · rintro _ t ⟨hsource, hreads⟩
    rw [Keyed, hsource, hreads]
    exact hw
  · rintro _ t ⟨hsource, hreads⟩
    rw [Keyed, hsource, hreads]
    exact hw

theorem upholds_keyed_handleKeyboard :
    Upholds (Keyed total) (fun _ => Keyed total) (handleKeyboard crypto) := by
  intro w hw
  simp only [handleKeyboard, WP.bind_iff, WP.get_iff]
  refine (wp_readKeyboard_bytes _ w).mono ?_ ?_
  · rintro data t ⟨rest, rfl, hbytes⟩
    rw [WP.ite_iff]
    refine ⟨fun _ => ?_, fun hempty => ?_⟩
    · have hkeyed : ∀ wire : Wire, source .stdin wire.trace = source .stdin w.wire.trace ++ data →
          ∀ channel, Keyed total { w with wire := wire, keyboard := rest, channel := channel } := by
        intro wire hsource channel
        rw [Keyed, hsource, List.append_assoc, hbytes]
        exact hw
      have htyped : source .stdin (w.wire.trace ++ [.typed w.channel data]) =
          source .stdin w.wire.trace ++ data := by
        rw [source_append, source_singleton]
        rfl
      simp only [WP.bind_iff, wp_onWire, wp_record, WP.lift_iff, wp_onChannel, WP.modify_iff]
      refine ⟨fun payload _ => ?_, fun _ _ => hkeyed _ htyped _⟩
      refine wp_sendPacket ?_ ?_
      · intro t sending
        refine hkeyed t ?_ _
        rw [sending.trace, source_append, htyped]
        exact List.append_nil _
      · intro what t sending
        refine hkeyed t ?_ _
        rw [sending.trace, source_append, htyped]
        exact List.append_nil _
    · obtain rfl : data = [] := not_not.mp hempty
      have hrest : keyboardBytes rest = keyboardBytes w.keyboard := hbytes
      rw [WP.pure_iff, Keyed, hrest]
      exact hw
  · rintro _ t ⟨rest, rfl, hbytes⟩
    rw [Keyed, hbytes]
    exact hw

/-- Programs that keep account of the keyboard. -/
abbrev Keeping (total : Bytes) {β : Type} (x : Exec World β) : Prop :=
  Composed (fun w => w) (fun _ => True)
    (fun _ (y : Exec World _) => Upholds (Keyed total) (fun _ => Keyed total) y) x

theorem Keeping.upholds {x : Exec World α} (h : Keeping total x) :
    Upholds (Keyed total) (fun _ => Keyed total) x :=
  Composed.upholds h (fun _ _ hy => hy) (fun _ _ _ hw => hw)

theorem keeping_of_onWorld {allowed : Stop → Prop} {x : Exec World α}
    (h : OnWorld crypto allowed { output := true } x) : Keeping total x := .op (upholds_keyed rfl h)

theorem keeping_call (crypto : Crypto) {x : Exec World α} (h : Call crypto { output := true } α x) :
    Keeping total x := by
  have hcall : OnWorld crypto (fun _ => True) { output := true } x := .op h
  exact keeping_of_onWorld hcall

theorem keeping_shellTurn (result : PollResult) : Keeping total (shellTurn crypto result) := by
  cases result with
  | interrupted => exact .pure _
  | failed => exact .throw trivial
  | ready keyboard socket closed =>
      have hsocket : Keeping total (handleSocket crypto) :=
        keeping_of_onWorld (composed_handleSocket crypto rfl)
      have hend : Keeping total (do
          let w ← get
          failIf (w.channel.isOpen ∧ closed) (error "SSH socket closed unexpectedly")
          return (.inl () : Unit ⊕ Unit)) :=
        .read (fun _ => rfl) fun w => .bind (.failIf trivial) fun _ => .pure _
      refine .ite (.bind (.op upholds_keyed_handleKeyboard) fun _ => ?_) ?_
      · exact .ite (.bind hsocket fun _ => hend) hend
      · exact .ite (.bind hsocket fun _ => hend) hend

theorem keeping_shellLoop : Keeping total (shellLoop crypto) := by
  refine .read (fun _ => rfl) fun w => .iterate trivial (fun _ => ?_) _ _
  rw [shellRound_eq]
  refine .read (fun _ => rfl) fun w =>
    .bind (keeping_call crypto (.wire (.op (.note rfl)))) fun _ => ?_
  exact .ite (.pure _) (.bind (keeping_call crypto (.poll _)) fun result =>
    keeping_shellTurn result)

theorem upholds_keyed_runConnectionSession (crypto : Crypto) (display : Display) :
    Upholds (Keyed total) (fun _ => Keyed total) (runConnectionSession crypto display) := by
  refine Keeping.upholds (.bind ?_ fun _ => .bind ?_ fun _ => ?_)
  · refine .bind (keeping_call crypto (.channel (waits_set _))) fun _ => ?_
    refine .bind (keeping_of_onWorld (composed_openSessionChannel crypto rfl)) fun _ => ?_
    exact .bind (keeping_of_onWorld (composed_requestPty crypto rfl _)) fun _ =>
      keeping_of_onWorld (composed_requestShell crypto rfl)
  · refine .bind (keeping_call crypto (.console .enableRawMode)) fun _ => ?_
    exact .bind keeping_shellLoop fun _ => keeping_call crypto (.console .restore)
  · exact .read (fun _ => rfl) fun w =>
      .ite (keeping_call crypto (.wire (.op (.note rfl)))) (.pure _)

end Keyboard

/-! ### The program -/

/-- Every stream has been passed on, and what was not read is still in the keyboard. -/
structure PassedOn (total : Bytes) (w : World) : Prop where
  streams : ∀ stream, sink stream w.wire.trace = source stream w.wire.trace
  keyboard : Keyed total w

/-- The session has not begun. -/
structure Waiting (total : Bytes) (w : World) : Prop where
  silent : Silent w.wire
  keyboard : Keyed total w

theorem Waiting.passedOn {total : Bytes} {w : World} (h : Waiting total w) : PassedOn total w := by
  refine ⟨?_, h.keyboard⟩
  intro stream
  obtain ⟨hsource, hsink⟩ := h.silent stream
  rw [hsource, hsink]

section Program

variable {total : Bytes} {w : World}

theorem upholds_waiting (rights : Rights) (typing : rights.keyboard = false)
    (output : rights.output = false) {allowed : Stop → Prop} {x : Exec World α}
    (h : OnWorld crypto allowed rights x) : Upholds (Waiting total) (fun _ => Waiting total) x := by
  intro w hw
  have hsilent := upholds_onWorld crypto (fun _ _ => upholds_silent typing output) (fun _ ht => ht)
    h w hw.silent
  exact (hsilent.and (upholds_keyed typing h w hw.keyboard)).mono (fun _ _ ht => ⟨ht.1, ht.2⟩)
    (fun _ _ ht => ⟨ht.1, ht.2⟩)

theorem wp_openConnection_waiting (env : Environment) :
    WP (openConnection env) env.start (fun _ t => Waiting (keyboardBytes env.keyboard) t)
      (fun _ t => Waiting (keyboardBytes env.keyboard) t) := by
  have hwaiting : ∀ t : World, Silent t.wire → t.keyboard = env.keyboard →
      Waiting (keyboardBytes env.keyboard) t := by
    intro t silent keyboard
    refine ⟨silent, ?_⟩
    rw [Keyed, (silent .stdin).1, keyboard]
    rfl
  have hnothing : ∀ sock, Silent { env.start.wire with sock := sock } :=
    fun sock stream => ⟨rfl, rfl⟩
  have hstart : Waiting (keyboardBytes env.keyboard) env.start := hwaiting _ (hnothing {}) rfl
  simp only [openConnection, WP.bind_iff, WP.lift_iff, WP.failIf_iff]
  refine ⟨fun config _ => ⟨fun _ => hstart, fun _ => ?_⟩, fun _ _ => hstart⟩
  cases env.home with
  | none => exact hstart
  | some homeDirectory =>
      simp only [WP.bind_iff, WP.lift_iff, WP.modify_iff, wp_onWire, wp_onSocket, wp_record,
        WP.pure_iff]
      refine ⟨fun sock _ => ?_, fun _ _ => hwaiting _ (hnothing {}) rfl⟩
      refine WP.intro (fun id sock' _ => ?_) (fun _ sock' _ => hwaiting _ (hnothing sock') rfl)
      refine hwaiting _ ((hnothing sock').snoc rfl ?_) rfl
      intro stream
      cases stream <;> exact ⟨rfl, rfl⟩

/-- What the machine knows of a session that has ended: nothing is under way. -/
theorem passedOn_of_follows {s s' : State} {t : World} (h : Silent w.wire)
    (scripted : s.stage = .scripted []) (idle : s.duty = .idle)
    (follows : Follows w.wire.trace s s' t.wire)
    (settled : ∀ stream, s'.duty.underway stream = []) (stream : Stream) :
    sink stream t.wire.trace = source stream t.wire.trace := by
  obtain ⟨run, htrace, hrun⟩ := follows
  have hunscripted : Unscripted s := by
    intro rest hrest
    rw [scripted] at hrest
    cases hrest
    rfl
  have hmoved := streams_of_run hrun hunscripted idle stream
  rw [settled stream, List.append_nil] at hmoved
  rw [htrace, source_append, sink_append, (h stream).1, (h stream).2, hmoved]

theorem wp_runConnectionSession_passedOn {guard : List Event → Transport → Bytes → Prop}
    {passed : List Event} {keys : Keying} (along : Along guard [] .idle passed keys w.wire)
    (h : Waiting total w) (display : Display) :
    WP (runConnectionSession crypto display) w (fun _ t => PassedOn total t)
      (fun _ t => PassedOn total t) := by
  obtain ⟨s, hreached, hstage, hduty⟩ := along.reached
  have hfrom : Reached w.wire.trace s s w.wire :=
    ⟨⟨[], (List.append_nil _).symm, .nil⟩, hreached.aligned, hreached.sound⟩
  have hstreams : WP (runConnectionSession crypto display) w
      (fun _ t => ∀ stream, sink stream t.wire.trace = source stream t.wire.trace)
      (fun _ t => ∀ stream, sink stream t.wire.trace = source stream t.wire.trace) := by
    refine wp_runConnectionSession crypto hfrom hstage hduty ?_ ?_ ?_
    · intro s' t ht idle _
      exact passedOn_of_follows h.silent hstage hduty ht.reached.follows fun _ => underway_idle idle
    · rintro e t ⟨s', ht, idle, -⟩
      exact passedOn_of_follows h.silent hstage hduty ht.reached.follows fun _ => underway_idle idle
    · rintro e t ⟨s', ht, settled, -⟩
      exact passedOn_of_follows h.silent hstage hduty ht fun _ => underway_settled settled
  have hkeyboard := upholds_keyed_runConnectionSession crypto display w h.keyboard
  exact (hstreams.and hkeyboard).mono (fun _ _ ht => ⟨ht.1, ht.2⟩) (fun _ _ ht => ⟨ht.1, ht.2⟩)

end Program

-- The proposal of the client is a closed term, and the unifier would evaluate it.
attribute [local irreducible] Client.performKeyExchange

theorem wp_session_passedOn (env : Environment) :
    WP (session crypto env) env.start (fun _ t => PassedOn (keyboardBytes env.keyboard) t)
      (fun _ t => PassedOn (keyboardBytes env.keyboard) t) := by
  have hopened : WP (openConnection env) env.start (fun connection t =>
      Along (fun _ _ _ => True) script .idle
        [.identified connection.2.client connection.2.server] unkeyed t.wire)
      (fun _ _ => True) :=
    wp_openConnection (fun _ _ _ _ _ h => h) (fun _ _ _ => trivial)
  rw [session_eq, WP.bind_iff]
  refine (hopened.and (wp_openConnection_waiting env)).mono ?_ (fun _ _ ht => ht.2.passedOn)
  rintro connection w ⟨halong, hwaiting⟩
  have hexchanged : WP (performKeyExchange crypto connection.2
      (Config.knownHostIdentifier connection.1)) w
      (fun _ t => ∃ passed keys, Along (fun _ _ _ => True) authenticationScript .idle passed keys
        t.wire) (fun _ _ => True) :=
    wp_performKeyExchange crypto halong (fun _ _ ht _ => ⟨_, _, ht⟩) (fun _ _ _ => trivial)
  have hsilent := upholds_waiting .exchange rfl rfl
    (composed_performKeyExchange crypto rfl rfl connection.2
      (Config.knownHostIdentifier connection.1)) w hwaiting
  rw [WP.bind_iff]
  refine (hexchanged.and hsilent).mono ?_ (fun _ _ ht => ht.2.passedOn)
  rintro _ t ⟨⟨passed, keys, halong⟩, hwaiting⟩
  refine wp_withTerminal_beside ?_ (fun _ _ hu => ⟨hu.streams, hu.keyboard⟩)
  rw [WP.bind_iff]
  have hquiet : Waiting (keyboardBytes env.keyboard)
      { t with console := { t.console with terminal := {} } } :=
    ⟨hwaiting.silent, hwaiting.keyboard⟩
  have hauthenticated : WP (authenticateUser crypto connection.1.username)
      { t with console := { t.console with terminal := {} } }
      (fun _ u => ∃ passed, Along (fun _ _ _ => True) [] .idle passed keys u.wire)
      (fun _ _ => True) :=
    wp_authenticateUser crypto halong (fun _ _ _ _ => trivial) (fun _ _ hu => ⟨_, hu⟩)
      (fun _ _ _ => trivial)
  refine (hauthenticated.and (upholds_waiting {} rfl rfl
    (composed_authenticateUser crypto {} _) _ hquiet)).mono ?_ (fun _ _ hu => hu.2.passedOn)
  rintro _ u ⟨⟨passed', halong⟩, hwaiting⟩
  exact wp_runConnectionSession_passedOn halong hwaiting env.display

/-- In every run of the program the data that was accepted for each output is what was handed
to it, and what `read(2)` returned in the shell is what was passed to the transport as data.
In the second part the results of that `read(2)` are counted: those that it has returned and
those that it has not are all of them. -/
theorem main_passes_on (crypto : Crypto) (env : Environment) :
    (∀ stream, sink stream (outcome (main crypto env)).wire.trace =
      source stream (outcome (main crypto env)).wire.trace) ∧
    source .stdin (outcome (main crypto env)).wire.trace ++
      keyboardBytes (outcome (main crypto env)).keyboard = keyboardBytes env.keyboard := by
  have hpassed := outcome_main crypto (P := PassedOn (keyboardBytes env.keyboard))
    (wp_session_passedOn env) ?_
  · exact ⟨hpassed.streams, hpassed.keyboard⟩
  · intro w text h
    have hreport : ∀ stream, source stream (w.wire.trace ++ [.printedError text]) =
        source stream w.wire.trace ∧ sink stream (w.wire.trace ++ [.printedError text]) =
        sink stream w.wire.trace := by
      intro stream
      rw [source_append, sink_append]
      cases stream <;> exact ⟨List.append_nil _, List.append_nil _⟩
    refine ⟨?_, ?_⟩
    · intro stream
      exact (hreport stream).2.trans ((h.streams stream).trans (hreport stream).1.symm)
    · rw [Keyed, (hreport .stdin).1]
      exact h.keyboard

end SshClient.Program

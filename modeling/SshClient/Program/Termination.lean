import SshClient.Client.Composition
import SshClient.Client.Identification
import SshClient.Protocol.Program
import SshClient.Transport.Intake

/-!
# Every run on a finite script ends

An environment is a finite script of the results of calls. Each round of a loop takes a packet
off the stream or a result off the polls, and no call gives one back, so the rounds that a
loop is given are enough. Together with what the single calls throw this leaves three ends
of a run: the two exit codes, and a call of which the script has no result. Signals are no
part of a script, so a write to a broken pipe is one that fails.
-/

namespace SshClient.Program

open Control Client Transport

section Bounds

variable {crypto : Crypto} {rights : Rights} {α : Type} {n m : Nat}

/-- Bounds on what is left to be read and to be polled. -/
structure Bounded (n m : Nat) (w : World) : Prop where
  stream : (Socket.stream w.wire.sock.reads).length ≤ n
  polls : w.polls.length ≤ m

/-- Nothing is left to be read from the socket. -/
def Unserved (w : Wire) : Prop := w.sock.reads = []

/-- The script has no result for one of the calls that wait. -/
def Starved (w : World) : Prop :=
  Unserved w.wire ∨ Terminal.NothingTyped w.console ∨ w.polls = [] ∨ w.keyboard = []

theorem halting_onWire {w : World} {e : Stop} {wire : Wire} (h : Halting Unserved e wire) :
    Halting Starved e { w with wire := wire } :=
  h.imp .inl

theorem halting_onConsole {w : World} {e : Stop} {console : Console}
    (h : Halting Terminal.NothingTyped e console) :
    Halting Starved e { w with console := console } :=
  h.imp fun nothing => .inr (.inl nothing)

theorem halting_sendPacket (payload : Bytes) (w : Wire) :
    WP (sendPacket crypto payload) w
      (fun _ t => (Socket.stream t.sock.reads).length = (Socket.stream w.sock.reads).length)
      (Halting Unserved) := by
  refine wp_sendPacket ?_ (fun _ _ _ => halting_thrown)
  intro t sending
  rw [sending.reads]

theorem halting_receivePacket (w : Wire) :
    WP (receivePacket crypto) w
      (fun _ t => (Socket.stream t.sock.reads).length < (Socket.stream w.sock.reads).length)
      (Halting Unserved) := by
  refine halting_of_wp (wp_receivePacket ?_ (fun _ _ he _ => he)) ?_
  · intro payload t received
    exact received.stream_lt
  · exact (takes_receivePacket crypto w).mono (fun _ _ _ => trivial) (fun _ _ ht => ht.2)

theorem upholds_stream_of_wireCall {x : Exec Wire α} (h : WireCall crypto rights α x) :
    Upholds (fun w : Wire => (Socket.stream w.sock.reads).length ≤ n) (Halting Unserved) x := by
  intro w hw
  cases h with
  | send payload =>
      exact (halting_sendPacket payload w).mono (fun _ _ ht => ht.le.trans hw) (fun _ _ ht => ht)
  | receive =>
      exact (halting_receivePacket w).mono (fun _ _ ht => ht.le.trans hw) (fun _ _ ht => ht)
  | draw count => exact hw
  | note other => exact hw
  | enableOutgoing | enableIncoming =>
      refine WP.bind_iff.mpr (WP.failIf_iff.mpr ⟨fun _ => .inl error_thrown, fun _ => ?_⟩)
      exact WP.bind_iff.mpr (WP.failIf_iff.mpr ⟨fun _ => .inl error_thrown, fun _ => hw⟩)

/-- A program on another part of the world. -/
theorem bounded_of_waits {σ : Type} {get : World → σ} {put : World → σ → World}
    {starved : σ → Prop} {x : Exec σ α} (h : Waits starved x)
    (keeps : ∀ w s, Bounded n m w → Bounded n m (put w s))
    (weaken : ∀ w s, starved s → Starved (put w s)) :
    Upholds (Bounded n m) (Halting Starved) (focus get put x) := by
  intro w hw
  rw [WP.focus_iff]
  exact (h (get w)).mono (fun _ s _ => keeps w s hw) (fun _ s hs => hs.imp (weaken w s))

theorem waits_of_consoleCall {x : Exec Console α} (h : ConsoleCall α x) :
    Waits Terminal.NothingTyped x := by
  cases h with
  | readAnswer => exact Terminal.waits_readAnswer
  | readHiddenInput prompt => exact Terminal.waits_readHiddenInput
  | enableRawMode => exact Terminal.waits_enableRawMode
  | restore => exact Terminal.waits_restore

theorem upholds_bounded_of_call {x : Exec World α} (h : Call crypto rights α x) :
    Upholds (Bounded n m) (Halting Starved) x := by
  cases h with
  | wire h =>
      intro w hw
      have hx : Upholds (fun w : Wire => (Socket.stream w.sock.reads).length ≤ n)
          (Halting Unserved) _ :=
        h.upholds (fun _ _ => upholds_stream_of_wireCall) (fun _ _ he _ => .inl he)
      rw [wp_onWire]
      exact (hx w.wire hw.stream).mono (fun _ _ ht => ⟨ht, hw.polls⟩)
        (fun _ _ he => halting_onWire he)
  | channel h =>
      exact bounded_of_waits h (fun w s hw => ⟨hw.stream, hw.polls⟩) (fun _ _ hs => hs.elim)
  | console h =>
      exact bounded_of_waits (waits_of_consoleCall h) (fun w s hw => ⟨hw.stream, hw.polls⟩)
        (fun _ _ hs => .inr (.inl hs))
  | hosts _ hostname algorithm hostKey =>
      have hadd : Waits (fun _ => False) (KnownHosts.add crypto hostname algorithm hostKey) :=
        KnownHosts.waits_add crypto
      exact bounded_of_waits hadd (fun w s hw => ⟨hw.stream, hw.polls⟩) (fun _ _ hs => hs.elim)
  | poll keyboardEvents =>
      intro w hw
      refine Protocol.wp_poll ?_ (fun hpolls => .inr ⟨rfl, .inr (.inr (.inl hpolls))⟩)
      intro result rest hlt
      exact ⟨hw.stream, hlt.le.trans hw.polls⟩
  | readKeyboard maxRead =>
      intro w hw
      simp only [readKeyboard, WP.bind_iff, WP.get_iff]
      split
      · next hkeyboard => exact .inr ⟨rfl, .inr (.inr (.inr hkeyboard))⟩
      · exact .inl error_thrown
      · split
        · exact ⟨hw.stream, hw.polls⟩
        · exact ⟨hw.stream, hw.polls⟩
  | rounds =>
      intro w hw
      exact hw

/-- No program of calls faults, and none gives back what it has read. -/
theorem upholds_bounded (rights : Rights) {x : Exec World α}
    (h : OnWorld crypto Stop.Thrown rights x) :
    Upholds (Bounded n m) (Halting Starved) x :=
  h.upholds (fun _ _ => upholds_bounded_of_call) (fun _ _ he _ => .inl he)

theorem waits_of_onWorld (rights : Rights) {x : Exec World α}
    (h : OnWorld crypto Stop.Thrown rights x) : Waits Starved x := by
  intro w
  exact (upholds_bounded rights h w ⟨le_rfl, le_rfl⟩).mono (fun _ _ _ => trivial) (fun _ _ he => he)

end Bounds

variable (crypto : Crypto)

/-! ### The loops -/

/-- A round that goes on has taken a packet off the stream, whatever it did with it. -/
theorem wp_receive_shorter {τ : Type} {f : Bytes → Exec World (τ ⊕ Unit)} {w : World}
    (h : ∀ response, OnWorld crypto Stop.Thrown .session (f response)) :
    WP (onWire (receivePacket crypto) >>= f) w
      (fun r t => r.isLeft = true → (Socket.stream t.wire.sock.reads).length <
        (Socket.stream w.wire.sock.reads).length) (Halting Starved) := by
  rw [WP.bind_iff, wp_onWire]
  refine (halting_receivePacket w.wire).mono ?_ (fun _ _ he => halting_onWire he)
  intro response t received
  refine (upholds_bounded .session (h response) { w with wire := t } ⟨le_rfl, le_rfl⟩).mono ?_
    (fun _ _ he => he)
  intro _ u hu _
  exact hu.stream.trans_lt received

theorem wp_openRound_shorter (w : World) :
    WP (openRound crypto) w
      (fun r t => r.isLeft = true → (Socket.stream t.wire.sock.reads).length <
        (Socket.stream w.wire.sock.reads).length) (Halting Starved) := by
  rw [openRound_eq, WP.bind_iff, WP.get_iff, WP.ite_iff]
  refine ⟨fun _ => ?_, fun _ => wp_receive_shorter crypto (composed_openResponse crypto rfl)⟩
  intro hleft
  cases hleft

theorem wp_waitRound_shorter (requestName : Bytes) (requestAccepted : Bool) (w : World) :
    WP (waitRound crypto requestName requestAccepted) w
      (fun r t => r.isLeft = true → (Socket.stream t.wire.sock.reads).length <
        (Socket.stream w.wire.sock.reads).length) (Halting Starved) := by
  rw [waitRound_eq, WP.ite_iff]
  refine ⟨fun _ => ?_,
    fun _ => wp_receive_shorter crypto (composed_waitResponse crypto rfl requestName)⟩
  intro hleft
  cases hleft

theorem waits_loop {τ : Type} {body : τ → Exec World (τ ⊕ Unit)} (u : τ)
    (h : ∀ u w, WP (body u) w
      (fun r t => r.isLeft = true → (Socket.stream t.wire.sock.reads).length <
        (Socket.stream w.wire.sock.reads).length) (Halting Starved)) :
    Waits Starved (do
      let rounds ← pendingRounds
      iterate .fault body rounds u) := by
  intro w
  simp only [pendingRounds, WP.bind_iff, WP.get_iff, WP.pure_iff]
  refine WP.iterate (fun _ _ => True)
    (fun _ w => (Socket.stream w.wire.sock.reads).length) ?_ _ u trivial (by omega)
  intro v t _
  refine (h v t).mono ?_ ?_
  · intro r t' hr
    cases r with
    | inl next => exact ⟨trivial, hr rfl⟩
    | inr a => trivial
  · intro _ _ he
    exact he

/-- A round of the shell that goes on has taken a result off the polls. -/
theorem wp_shellRound_shorter (w : World) :
    WP (shellRound crypto) w (fun r t => r.isLeft = true → t.polls.length < w.polls.length)
      (Halting Starved) := by
  have hturn : ∀ result t, WP (shellTurn crypto result) t
      (fun _ u => u.polls.length ≤ t.polls.length) (Halting Starved) := by
    intro result t
    exact (upholds_bounded .session (composed_shellTurn crypto rfl rfl result) t
      ⟨le_rfl, le_rfl⟩).mono (fun _ _ hu => hu.polls) (fun _ _ he => he)
  rw [shellRound_eq, WP.bind_iff, WP.get_iff, WP.bind_iff, wp_onWire, wp_record, WP.ite_iff]
  refine ⟨?_, fun _ => ?_⟩
  · intro _ hleft
    cases hleft
  · rw [WP.bind_iff]
    refine Protocol.wp_poll ?_ (fun hpolls => .inr ⟨rfl, .inr (.inr (.inl hpolls))⟩)
    intro result rest hlt
    refine (hturn result _).mono ?_ (fun _ _ he => he)
    intro _ u hu _
    exact hu.trans_lt hlt

theorem waits_shellLoop : Waits Starved (shellLoop crypto) := by
  intro w
  simp only [shellLoop, WP.bind_iff, WP.get_iff]
  refine WP.iterate (fun _ _ => True) (fun _ w => w.polls.length) ?_ _ () trivial (by omega)
  intro _ t _
  refine (wp_shellRound_shorter crypto t).mono ?_ (fun _ _ he => he)
  intro r t' hr
  cases r with
  | inl next => exact ⟨trivial, hr rfl⟩
  | inr a => trivial

/-! ### The program -/

theorem waits_waitForChannelRequestResult (requestName : Bytes) :
    Waits Starved (waitForChannelRequestResult crypto requestName) :=
  waits_loop false (wp_waitRound_shorter crypto requestName)

theorem waits_send (payload : Bytes) : Waits Starved (onWire (sendPacket crypto payload)) :=
  waits_of_onWorld { keys := true, keyboard := true } (onWire_call (.send payload rfl))

theorem waits_openSessionChannel : Waits Starved (openSessionChannel crypto) := by
  refine .of_composed (.read (fun _ => rfl) fun w => ?_)
  refine .bind (composed_lift Connection.throwsOnly_createSessionOpen) fun payload => ?_
  refine .bind (.op (waits_send crypto payload)) fun _ => ?_
  exact .op (waits_loop () fun _ w => wp_openRound_shorter crypto w)

theorem waits_requestPty (info : TerminalInfo) : Waits Starved (requestPty crypto info) := by
  refine .of_composed (.read (fun _ => rfl) fun w => ?_)
  refine .bind (composed_lift Connection.throwsOnly_createPtyRequest) fun payload => ?_
  refine .bind (.op (waits_send crypto payload)) fun _ => ?_
  exact .op (waits_waitForChannelRequestResult crypto _)

theorem waits_requestShell : Waits Starved (requestShell crypto) := by
  refine .of_composed (.read (fun _ => rfl) fun w => ?_)
  refine .bind (composed_lift Connection.throwsOnly_createShellRequest) fun payload => ?_
  refine .bind (.op (waits_send crypto payload)) fun _ => ?_
  exact .op (waits_waitForChannelRequestResult crypto _)

theorem waits_onConsole {α : Type} {x : Exec Console α} (h : Waits Terminal.NothingTyped x) :
    Waits Starved (onConsole x) := by
  intro w
  rw [wp_onConsole]
  exact (h w.console).mono (fun _ _ _ => trivial) (fun _ _ he => halting_onConsole he)

theorem waits_runConnectionSession (display : Display) :
    Waits Starved (runConnectionSession crypto display) := by
  refine .of_composed (.bind (.bind (.op ?_) fun _ => ?_) fun _ => .bind ?_ fun _ => ?_)
  · intro w
    trivial
  · refine .bind (.op (waits_openSessionChannel crypto)) fun _ => ?_
    exact .bind (.op (waits_requestPty crypto _)) fun _ =>
      .op (waits_requestShell crypto)
  · refine .bind (.op (waits_onConsole Terminal.waits_enableRawMode)) fun _ => ?_
    exact .bind (.op (waits_shellLoop crypto)) fun _ =>
      .op (waits_onConsole Terminal.waits_restore)
  · refine .read (fun _ => rfl) fun w => .ite (.op ?_) (.pure _)
    exact waits_of_onWorld {} (onWorld_print _ : OnWorld crypto Stop.Thrown {} _)

theorem waits_withTerminal {x : Exec World Unit} (h : Waits Starved x) :
    Waits Starved (withTerminal x) := by
  have hdestroy : Waits Starved (onConsole Terminal.destroy) :=
    waits_onConsole Terminal.waits_destroy
  intro w
  unfold WP withTerminal
  simp only [EStateM.run]
  cases hrun : x { w with console := { w.console with terminal := {} } } with
  | ok a t => exact hdestroy t
  | error e t =>
      have hhalting : Halting Starved e t := (h _).of_error hrun
      cases e with
      | thrown what =>
          exact WP.bind_iff.mpr ((hdestroy t).mono (fun _ _ _ => halting_thrown)
            (fun _ _ he => he))
      | blocked => exact hhalting
      | fault => exact hhalting

theorem waits_readVersion : Waits (fun s : Socket => s.reads = []) readVersion := by
  have hcomposed : Composed id (· ≠ Stop.blocked) (fun _ y => Upholds (fun _ : Socket => True)
      (fun e t => e = .blocked → t.reads = []) y) readVersion := by
    refine .read (fun _ => rfl) fun s => .iterate (by simp) (fun version => ?_) _ _
    refine .bind (.op fun t _ => ?_) fun bytes => .bind (.op fun t _ => ?_) fun byte => ?_
    · exact (Socket.wp_readExact_taken t 1).mono (fun _ _ _ => trivial) (fun _ _ ht => ht.2)
    · simp
    · exact .ite (.pure _) (.ite (.pure _) (.pure _))
  have hblocked := hcomposed.upholds (fun _ _ hy => hy) (fun _ _ other _ he => absurd he other)
  intro s
  exact halting_of_wp (wp_readVersion (fun _ _ _ _ => trivial) (fun _ _ he _ => he))
    (hblocked s trivial)

theorem waits_exchangeIdentification (clientVersion : Bytes) :
    Waits (fun s : Socket => s.reads = []) (exchangeIdentification clientVersion) := by
  refine .of_composed (.bind (.op waits_readVersion) fun version => ?_)
  refine .bind (.failIf Stop.thrown_thrown) fun _ => .bind (.op ?_) fun _ => .pure _
  intro s
  exact Socket.wp_writeExact (fun _ => trivial) (fun _ _ _ _ => halting_thrown)

theorem waits_openConnection (env : Environment) :
    Waits Starved (Protocol.openConnection env) := by
  refine .of_composed (.bind (composed_lift Config.throwsOnly_parseClientConfig) fun config => ?_)
  refine .bind composed_require fun _ => ?_
  cases env.home with
  | none => exact .throw error_thrown
  | some homeDirectory =>
      refine .bind (.op (waits_modify _)) fun _ => ?_
      refine .bind (composed_lift Socket.throwsOnly_connected) fun sock => ?_
      refine .bind (.op (waits_modify _)) fun _ => .bind (.op ?_) fun id => ?_
      · intro w
        rw [wp_onWire, wp_onSocket]
        exact (waits_exchangeIdentification _ w.wire.sock).mono (fun _ _ _ => trivial)
          (fun _ _ he => halting_onWire he)
      · exact .bind (.op fun _ => trivial) fun _ => .pure _

-- The proposal of the client is a closed term, and the unifier would evaluate it.
attribute [local irreducible] Client.performKeyExchange

theorem waits_performKeyExchange (id : IdentificationExchange) (hostname : Bytes) :
    Waits Starved (performKeyExchange crypto id hostname) :=
  waits_of_onWorld .exchange (composed_performKeyExchange crypto rfl rfl id hostname)

theorem waits_session (env : Environment) : Waits Starved (session crypto env) := by
  rw [Protocol.session_eq]
  refine .of_composed (.bind (.op (waits_openConnection env)) fun connection => ?_)
  refine .bind (.op (waits_performKeyExchange crypto _ _)) fun _ => ?_
  refine .op (waits_withTerminal (.of_composed (.bind (.op ?_) fun _ => .op ?_)))
  · exact waits_of_onWorld {} (composed_authenticateUser crypto {} _)
  · exact waits_runConnectionSession crypto env.display

/-- Whatever results the script has for the calls, and whatever the libraries return, a run ends
with exit code 0 or 1 or comes to a call of which the script has no result: no index leaves
its buffer, no size wraps, and no loop of the model runs out of rounds. -/
theorem main_on_finite_script (env : Environment) :
    (∃ t, main crypto env = .ok 0 t) ∨ (∃ t, main crypto env = .ok 1 t) ∨
      ∃ t, main crypto env = .error .blocked t ∧ Starved t := by
  have hsession := waits_session crypto env env.start
  unfold main
  cases hrun : (session crypto env).run env.start with
  | ok _ t => exact .inl ⟨t, rfl⟩
  | error e t =>
      rcases hsession.of_error hrun with ⟨what, rfl⟩ | ⟨rfl, starved⟩
      · exact .inr (.inl ⟨_, rfl⟩)
      · exact .inr (.inr ⟨t, rfl, starved⟩)

end SshClient.Program

import SshClient.Protocol.Handshake

/-!
# The standard streams of a session

Each of the three standard streams has a source and a sink: what is typed goes out as data
of the channel, and data of the channel is written to the output it is meant for. What has
come out of the source and is not yet in the sink is the duty of the machine, which is one
message at most.
-/

namespace SshClient.Protocol

open Control Client Connection

inductive Stream where
  | stdin
  | stdout
  | stderr

/-- What stands behind the header of a message of this type. -/
def behindHeader (number : UInt8) (header : Nat) (payload : Bytes) : Bytes :=
  if payload.head? = some number then payload.drop header else []

/-- What an event adds to what has come out of the source. -/
def Event.source : Stream → Event → Bytes
  | .stdin, .typed _ data => data
  | .stdout, .accepted payload => behindHeader Message.channelData 9 payload
  | .stderr, .accepted payload => behindHeader Message.channelExtendedData 13 payload
  | _, _ => []

/-- What an event adds to what has gone into the sink. -/
def Event.sink : Stream → Event → Bytes
  | .stdin, .sending _ payload => behindHeader Message.channelData 9 payload
  | .stdout, .wroteStdout data => data
  | .stderr, .wroteStderr data => data
  | _, _ => []

def source (stream : Stream) (l : List Event) : Bytes := l.flatMap (Event.source stream)

def sink (stream : Stream) (l : List Event) : Bytes := l.flatMap (Event.sink stream)

/-- What is on its way from the source to the sink. -/
def Duty.underway : Stream → Duty → Bytes
  | .stdin, .send data => data
  | .stdout, .deliver data => data
  | .stderr, .deliverError data => data
  | _, _ => []

theorem source_append (stream : Stream) (l m : List Event) :
    source stream (l ++ m) = source stream l ++ source stream m := List.flatMap_append

theorem sink_append (stream : Stream) (l m : List Event) :
    sink stream (l ++ m) = sink stream l ++ sink stream m := List.flatMap_append

theorem source_singleton (stream : Stream) (e : Event) :
    source stream [e] = Event.source stream e := List.append_nil _

theorem sink_singleton (stream : Stream) (e : Event) :
    sink stream [e] = Event.sink stream e := List.append_nil _

section Carried

variable {number : UInt8} {header : Nat} {payload : Bytes}

theorem behindHeader_of_head {other : UInt8} (head : payload.head? = some other)
    (h : other ≠ number) : behindHeader number header payload = [] := by
  refine if_neg ?_
  rw [head]
  exact fun heq => h (Option.some.inj heq)

theorem behindHeader_channelData (recipient : UInt32) (data : Bytes) :
    behindHeader Message.channelData 9 (channelData recipient data) = data := if_pos rfl

theorem behindHeader_extendedData (recipient : UInt32) (data : Bytes) :
    behindHeader Message.channelExtendedData 13 (extendedData recipient 1 data) = data := if_pos rfl

/-- A message that carries no output. -/
theorem source_accepted_of_head (stream : Stream) {other : UInt8}
    (head : payload.head? = some other)
    (data : other ≠ Message.channelData) (extended : other ≠ Message.channelExtendedData) :
    Event.source stream (.accepted payload) = [] := by
  cases stream with
  | stdin => rfl
  | stdout => exact behindHeader_of_head head data
  | stderr => exact behindHeader_of_head head extended

/-- A message that carries no input. -/
theorem sink_sending_of_head (stream : Stream) {t : Transport} {other : UInt8}
    (head : payload.head? = some other) (data : other ≠ Message.channelData) :
    Event.sink stream (.sending t payload) = [] := by
  cases stream with
  | stdin => exact behindHeader_of_head head data
  | stdout => rfl
  | stderr => rfl

end Carried

section Steps

variable {s s' : State} {e : Event} {l : List Event} {stream : Stream}

theorem underway_idle (h : s.duty = .idle) : s.duty.underway stream = [] := by
  rw [h]
  cases stream <;> rfl

theorem underway_judge {payload : Bytes} (h : s.duty = .judge payload) :
    s.duty.underway stream = [] := by
  rw [h]
  cases stream <;> rfl

theorem underway_windowed (s : State) : s.windowed.duty.underway stream = [] := by
  unfold State.windowed
  cases stream <;> dsimp only <;> split <;> rfl

theorem source_quiet (quiet : Event.quiet e = true) : Event.source stream e = [] := by
  cases e <;> cases stream <;> first | rfl | cases quiet

theorem sink_quiet (quiet : Event.quiet e = true) : Event.sink stream e = [] := by
  cases e <;> cases stream <;> first | rfl | cases quiet

theorem source_sending (stream : Stream) (t : Transport) (payload : Bytes) :
    Event.source stream (.sending t payload) = [] := by
  cases stream <;> rfl

theorem sink_accepted (stream : Stream) (payload : Bytes) :
    Event.sink stream (.accepted payload) = [] := by
  cases stream <;> rfl

/-- A step that has nothing to do with a stream. -/
theorem moves_nothing {duty duty' : Duty} (before : duty.underway stream = [])
    (source : Event.source stream e = []) (sink : Event.sink stream e = [])
    (after : duty'.underway stream = []) :
    duty.underway stream ++ Event.source stream e =
      Event.sink stream e ++ duty'.underway stream := by
  rw [before, source, sink, after]

/-- A message that is accepted and carries no output. -/
theorem moves_accepted {payload : Bytes} {duty' : Duty} (number : UInt8)
    (duty : s.duty = .judge payload) (head : payload.head? = some number)
    (other : number ≠ Message.channelData ∧ number ≠ Message.channelExtendedData)
    (after : duty'.underway stream = []) :
    s.duty.underway stream ++ Event.source stream (.accepted payload) =
      Event.sink stream (.accepted payload) ++ duty'.underway stream :=
  moves_nothing (underway_judge duty) (source_accepted_of_head stream head other.1 other.2)
    (sink_accepted stream payload) after

/-- A message that is sent and carries no input. -/
theorem moves_sending {t : Transport} {payload : Bytes} {duty' : Duty} (number : UInt8)
    (before : s.duty.underway stream = []) (head : payload.head? = some number)
    (other : number ≠ Message.channelData) (after : duty'.underway stream = []) :
    s.duty.underway stream ++ Event.source stream (.sending t payload) =
      Event.sink stream (.sending t payload) ++ duty'.underway stream :=
  moves_nothing before (source_sending stream t payload) (sink_sending_of_head stream head other)
    after

theorem underway_none : Duty.idle.underway stream = [] := by
  cases stream <;> rfl

/-- One step takes something out of a source, or puts what is under way into a sink. -/
theorem Step.moves (step : Step s e s') (h : Unscripted s) (stream : Stream) :
    s.duty.underway stream ++ Event.source stream e =
      Event.sink stream e ++ s'.duty.underway stream := by
  cases step with
  | send stage | receive stage | accept stage => exact absurd (h _ stage) (List.cons_ne_nil _ _)
  | sent | head => cases stream <;> exact List.append_nil _
  | quiet _ quiet =>
      rw [source_quiet quiet, sink_quiet quiet]
      exact List.append_nil _
  | openChannel _ idle _ head =>
      exact moves_sending _ (underway_idle idle) head (by decide) (underway_idle idle)
  | request _ idle _ head =>
      exact moves_sending _ (underway_idle idle) head (by decide) (underway_idle idle)
  | listen _ idle =>
      rw [underway_idle idle]
      cases stream <;> rfl
  | confirmation _ duty =>
      exact moves_accepted Message.channelOpenConfirmation duty rfl (by decide) underway_none
  | global _ duty =>
      refine moves_accepted Message.globalRequest duty rfl (by decide) ?_
      dsimp only
      cases stream <;> split <;> rfl
  | success _ duty =>
      exact moves_accepted Message.channelSuccess duty rfl (by decide) underway_none
  | adjust _ duty =>
      exact moves_accepted Message.channelWindowAdjust duty rfl (by decide) underway_none
  | eof _ duty => exact moves_accepted Message.channelEof duty rfl (by decide) underway_none
  | exitStatus _ duty =>
      exact moves_accepted Message.channelRequest duty rfl (by decide) underway_none
  | close _ duty =>
      refine moves_accepted Message.channelClose duty rfl (by decide) ?_
      cases stream <;> rfl
  | reply duty | refill duty | sendClose duty =>
      rw [duty]
      cases stream <;> rfl
  | typed _ idle =>
      rw [underway_idle idle]
      cases stream <;> rfl
  | sendTyped duty =>
      rw [duty]
      cases stream with
      | stdin =>
          dsimp only [Event.sink]
          rw [behindHeader_channelData]
          rfl
      | stdout => rfl
      | stderr => rfl
  | data _ duty =>
      rw [underway_judge duty]
      cases stream with
      | stdin => rfl
      | stdout => exact behindHeader_channelData s.channel.localId _
      | stderr => rfl
  | extendedData _ duty =>
      rw [underway_judge duty]
      cases stream with
      | stdin => rfl
      | stdout => rfl
      | stderr => exact behindHeader_extendedData s.channel.localId _
  | wroteStdout duty | wroteStderr duty =>
      rw [duty, underway_windowed]
      cases stream <;> rfl
  | sentClose | report => cases stream <;> exact List.append_nil _

/-- Along a run without a script, what has come out of a source has gone into its sink or is
under way. -/
theorem streams_of_run (run : Run Step s l s') (unscripted : Unscripted s)
    (start : s.duty = .idle) (stream : Stream) :
    source stream l = sink stream l ++ s'.duty.underway stream := by
  have hinv : Unscripted s' ∧ source stream l = sink stream l ++ s'.duty.underway stream := by
    refine run.invariant (fun l t => Unscripted t ∧
      source stream l = sink stream l ++ t.duty.underway stream) ⟨unscripted, ?_⟩ ?_
    · rw [underway_idle start]
      rfl
    · intro l t e u h step
      obtain ⟨hunscripted, hmoved⟩ := h
      refine ⟨step.unscripted hunscripted, ?_⟩
      rw [source_append, sink_append, source_singleton, sink_singleton, hmoved, List.append_assoc,
        step.moves hunscripted stream, List.append_assoc]
  exact hinv.2

theorem underway_settled (h : Settled s) : s.duty.underway stream = [] := by
  rcases h with idle | ⟨payload, judge, -⟩
  · exact underway_idle idle
  · exact underway_judge judge

end Steps

end SshClient.Protocol

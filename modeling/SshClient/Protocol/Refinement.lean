import SshClient.Protocol.Machine
import SshClient.Connection.Exact
import SshClient.Transport.Frames

/-!
# The client runs the machine

Each function of the client is followed by steps of the machine. The trace is a fixed
beginning and a run of the machine behind it, and between two events the state of the
machine describes the wire and the channel.

A function that stops leaves a trace of the same form. It never stops between deciding
that a packet is due and passing it to the transport, and it gives up on a packet of the
connection layer only when the machine refuses that packet as well.
-/

namespace SshClient.Protocol

open Control Client Connection Transport

variable (crypto : Crypto) {base : List Event} {start : State}

/-- The trace behind `base` is a run that ends in `s`. -/
def Follows (base : List Event) (start s : State) (w : Wire) : Prop :=
  ∃ run, w.trace = base ++ run ∧ Run Step start run s

/-- The machine is in `s`, and the transport is as `s` says. -/
structure Reached (base : List Event) (start s : State) (w : Wire) : Prop where
  follows : Follows base start s w
  aligned : s.Aligned w.transport
  sound : Sound s

def Refused (s : State) (payload : Bytes) : Prop := ∀ s', ¬ Step s (.accepted payload) s'

/-- Nothing is due, except the judgement of a packet that the machine refuses. -/
def Settled (s : State) : Prop :=
  s.duty = .idle ∨
    ∃ payload, s.duty = .judge payload ∧ (s.stage.listening = true → Refused s payload)

/-- A run does not settle before it has taken the step that is due. -/
theorem Settled.next {s u : State} {l : List Event} (settled : Settled u) (run : Run Step s l u)
    (due : s.duty ≠ .idle ∧ ∀ payload, s.duty ≠ .judge payload) :
    ∃ e m t, l = e :: m ∧ Step s e t ∧ Run Step t m u := by
  obtain ⟨-, rfl⟩ | hstep := run.head_cases
  · obtain hidle | ⟨payload, hjudge, -⟩ := settled
    · exact absurd hidle due.1
    · exact absurd hjudge (due.2 payload)
  · exact hstep

/-- The run has come to an end with `e` in a settled state, before a close was answered. A
packet is refused with an exception. -/
def Stopped (base : List Event) (start : State) (e : Stop) (w : Wire) : Prop :=
  ∃ s, Follows base start s w ∧ Settled s ∧ s.stage.finished = false ∧ (s.duty ≠ .idle → e.Thrown)

/-- Two states with the same counters. -/
structure SameCounters (s s' : State) : Prop where
  outgoing : s'.outgoing = s.outgoing
  incoming : s'.incoming = s.incoming
  outgoingActive : s'.outgoingActive = s.outgoingActive
  incomingActive : s'.incomingActive = s.incomingActive

variable {s s' : State} {e : Event}

theorem SameCounters.aligned {t : Transport} (same : SameCounters s s') (h : s.Aligned t) :
    s'.Aligned t :=
  ⟨h.outgoing.trans same.outgoing.symm, h.incoming.trans same.incoming.symm,
    h.outgoingActive.trans same.outgoingActive.symm,
    h.incomingActive.trans same.incomingActive.symm⟩

/-! ### The wire -/

section Wire

variable {w : Wire} {post : Unit → Wire → Prop} {fail : Stop → Wire → Prop}

theorem Follows.snoc (h : Follows base start s w) (step : Step s e s') {w' : Wire}
    (htrace : w'.trace = w.trace ++ [e]) : Follows base start s' w' := by
  obtain ⟨run, hbase, hrun⟩ := h
  exact ⟨run ++ [e], by rw [htrace, hbase, List.append_assoc], .snoc hrun step⟩

theorem Follows.of_trace_eq (h : Follows base start s w) {w' : Wire}
    (htrace : w'.trace = w.trace) : Follows base start s w' := by
  obtain ⟨run, hbase, hrun⟩ := h
  exact ⟨run, htrace.trans hbase, hrun⟩

theorem Reached.record (h : Reached base start s w) (step : Step s e s')
    (same : SameCounters s s') :
    Reached base start s' { w with trace := w.trace ++ [e] } :=
  ⟨h.follows.snoc step rfl, same.aligned h.aligned, step.sound h.sound⟩

theorem Follows.stopped {e : Stop} (h : Follows base start s w) (idle : s.duty = .idle)
    (hstage : s.stage.finished = false) : Stopped base start e w :=
  ⟨s, h, .inl idle, hstage, fun hduty => absurd idle hduty⟩

theorem Reached.refused {e : Stop} {payload : Bytes} (h : Reached base start s w)
    (duty : s.duty = .judge payload) (hstage : s.stage.finished = false) (thrown : e.Thrown)
    (refused : Refused s payload) : Stopped base start e w :=
  ⟨s, h.follows, .inr ⟨payload, duty, fun _ => refused⟩, hstage, fun _ => thrown⟩

/-- A packet that is due is passed to the transport, which returns or throws. -/
theorem wp_sendPacket_follows {payload : Bytes} {s1 s2 : State} (h : Reached base start s w)
    (sending : Step s (.sending w.transport payload) s1) (sent : Step s1 (.sent payload) s2)
    (ok : ∀ t, Follows base start s2 t → Sending payload w t true → post () t)
    (stop : ∀ e t, Follows base start s1 t → fail e t) :
    WP (sendPacket crypto payload) w post fail := by
  refine wp_sendPacket (fun t ht => ?_) (fun what t ht => ?_)
  · refine ok t ?_ ht
    obtain ⟨run, hbase, hrun⟩ := h.follows
    refine ⟨run ++ [.sending w.transport payload] ++ [.sent payload], ?_,
      .snoc (.snoc hrun sending) sent⟩
    rw [ht.trace, hbase]
    simp
  · refine stop _ t (h.follows.snoc sending ?_)
    rw [ht.trace]
    rfl

/-- The usual case, in which sending does not change what is active. -/
theorem wp_sendPacket_reached {payload : Bytes} {s1 s2 : State} (h : Reached base start s w)
    (sending : Step s (.sending w.transport payload) s1) (sent : Step s1 (.sent payload) s2)
    (same : SameCounters s.counted s2)
    (ok : ∀ t, Reached base start s2 t → t.sock.reads = w.sock.reads → post () t)
    (stop : ∀ e t, Follows base start s1 t → fail e t) :
    WP (sendPacket crypto payload) w post fail := by
  refine wp_sendPacket_follows crypto h sending sent (fun t hfollows ht => ok t
    ⟨hfollows, same.aligned ⟨?_, ?_, ?_, ?_⟩, sent.sound (sending.sound h.sound)⟩ ht.reads) stop
  · rw [ht.outgoingSequence, h.aligned.outgoing]
    rfl
  · rw [ht.incomingSequence, h.aligned.incoming]
    rfl
  · exact (congrArg Keying.outgoingActive ht.keying).trans h.aligned.outgoingActive
  · exact (congrArg Keying.incomingActive ht.keying).trans h.aligned.incomingActive

theorem wp_receivePacket_reached {next : Bytes → State} {post : Bytes → Wire → Prop}
    (h : Reached base start s w)
    (received : ∀ payload, Step s (.received w.transport payload) (next payload))
    (same : ∀ payload, SameCounters (s.judging payload) (next payload))
    (ok : ∀ payload t, Reached base start (next payload) t → Received payload w t → post payload t)
    (stop : ∀ e t, Follows base start s t → fail e t) :
    WP (receivePacket crypto) w post fail := by
  refine wp_receivePacket (fun payload t ht => ?_) (fun e t _ ht => ?_)
  · refine ok payload t ⟨h.follows.snoc (received payload) ht.trace,
      (same payload).aligned ⟨?_, ?_, ?_, ?_⟩, (received payload).sound h.sound⟩ ht
    · rw [ht.outgoingSequence, h.aligned.outgoing]
      rfl
    · rw [ht.incomingSequence, h.aligned.incoming]
      rfl
    · exact (congrArg Keying.outgoingActive ht.keying).trans h.aligned.outgoingActive
    · exact (congrArg Keying.incomingActive ht.keying).trans h.aligned.incomingActive
  · exact stop e t (h.follows.of_trace_eq ht.trace)

end Wire

end SshClient.Protocol

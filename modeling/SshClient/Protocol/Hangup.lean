import SshClient.Control.Simulation
import SshClient.Protocol.Windows

/-!
# A hang-up while packets are unread

An iteration of the shell reads one packet, but an error or a hang-up that `poll` reports
concerns the whole connection. The shell gives up at the end of the iteration in which it
is reported, whatever is still unread.

Whether another packet can be read depends on the incoming half of the wire only, so it
can be decided at the loop head, before the iteration has sent anything.
-/

namespace SshClient.Protocol

open Control Connection Client Transport

variable (crypto : Crypto)

/-! ### The incoming half of a wire -/

/-- The next packets of the two wires are the same. -/
structure SameInbound (w t : Wire) : Prop where
  reads : t.sock.reads = w.sock.reads
  sequence : t.transport.incomingSequence = w.transport.incomingSequence
  active : t.transport.incomingEncryptionActive = w.transport.incomingEncryptionActive
  cipher : t.transport.incomingCipher = w.transport.incomingCipher
  macKey : t.transport.incomingMacKey = w.transport.incomingMacKey

namespace SameInbound

variable {w t u : Wire}

theorem symm (h : SameInbound w t) : SameInbound t w :=
  ⟨h.reads.symm, h.sequence.symm, h.active.symm, h.cipher.symm, h.macKey.symm⟩

theorem trans (h : SameInbound w t) (h' : SameInbound t u) : SameInbound w u :=
  ⟨h'.reads.trans h.reads, h'.sequence.trans h.sequence, h'.active.trans h.active,
    h'.cipher.trans h.cipher, h'.macKey.trans h.macKey⟩

end SameInbound

theorem simulates_readExact (len : Nat) :
    Simulates SameInbound (onSocket (Socket.readExact len)) (onSocket (Socket.readExact len)) := by
  intro w t h
  simp only [onSocket, focus, Socket.readExact, EStateM.run, h.reads]
  cases Socket.readLoop w.sock.reads len with
  | mk result reads =>
      cases result with
      | ok bytes => exact ⟨rfl, rfl, h.sequence, h.active, h.cipher, h.macKey⟩
      | error e => exact ⟨rfl, rfl, h.sequence, h.active, h.cipher, h.macKey⟩

theorem simulates_decryptIncomingBytes (bytes : Bytes) :
    Simulates SameInbound (decryptIncomingBytes crypto bytes)
      (decryptIncomingBytes crypto bytes) := by
  refine .bind_get fun w t h => ?_
  rw [h.active, h.cipher]
  refine .bind (.failIf _) fun _ => ?_
  cases w.transport.incomingCipher with
  | none => exact .throw _
  | some context =>
      refine .bind (.failIf _) fun _ => ?_
      cases crypto.decryptUpdate context bytes with
      | none => exact .throw _
      | some output =>
          refine .bind (fun _ _ _ => ⟨rfl, ?_⟩) fun _ => .bind (.failIf _) fun _ => .pure _
          exact ⟨h.reads, h.sequence, h.active, rfl, h.macKey⟩

section Accesses

variable {σ : Type} {R : σ → σ → Prop}

theorem simulates_byteAt (bytes : Bytes) (i : Nat) :
    Simulates R (byteAt bytes i) (byteAt bytes i) := by
  unfold byteAt
  split
  · exact .pure _
  · exact .throw _

theorem simulates_sizeSub (a b : Nat) : Simulates R (sizeSub a b) (sizeSub a b) := by
  unfold sizeSub
  split
  · exact .pure _
  · exact .throw _

theorem simulates_copyRange (bytes : Bytes) (start count : Nat) :
    Simulates R (copyRange bytes start count) (copyRange bytes start count) := by
  unfold copyRange
  split
  · exact .pure _
  · exact .throw _

end Accesses

theorem simulates_extractPayload (packetLength : UInt32) (paddingLength : UInt8) (body : Bytes)
    (start : Nat) :
    Simulates SameInbound (extractPayload packetLength paddingLength body start)
      (extractPayload packetLength paddingLength body start) :=
  .bind (.lift _) fun _ => .bind (simulates_sizeSub _ _) fun _ =>
    .bind (simulates_sizeSub _ _) fun _ => .bind (simulates_copyRange _ _ _) fun _ =>
    .bind (.modify fun _ _ h =>
      ⟨h.reads, congrArg (· + 1) h.sequence, h.active, h.cipher, h.macKey⟩)
      fun _ => .pure _

theorem validatePacketLength_congr {w t : Wire} (h : SameInbound w t) (packetLength : UInt32) :
    validatePacketLength t.transport packetLength =
      validatePacketLength w.transport packetLength := by
  simp only [validatePacketLength, h.active]

theorem simulates_receivePlaintext : Simulates SameInbound receivePlaintext receivePlaintext := by
  refine .bind_get fun w t h => .bind (simulates_readExact _) fun lengthBytes => ?_
  dsimp only
  rw [validatePacketLength_congr h]
  exact .bind (.lift _) fun _ => .bind (simulates_readExact _) fun _ =>
    .bind (simulates_byteAt _ _) fun _ => simulates_extractPayload _ _ _ _

theorem simulates_receiveEncrypted :
    Simulates SameInbound (receiveEncrypted crypto) (receiveEncrypted crypto) := by
  refine .bind_get fun w t h => .bind (simulates_readExact _) fun _ =>
    .bind (simulates_decryptIncomingBytes crypto _) fun _ =>
    .bind (simulates_copyRange _ _ _) fun lengthBytes => ?_
  dsimp only
  rw [validatePacketLength_congr h, h.sequence, h.macKey]
  refine .bind (.lift _) fun _ => .bind (simulates_sizeSub _ _) fun _ =>
    .bind (simulates_readExact _) fun _ =>
    .bind (simulates_decryptIncomingBytes crypto _) fun _ => .bind (.failIf _) fun _ =>
    .bind (simulates_readExact _) fun _ => .bind (.lift _) fun _ => .bind (.failIf _) fun _ =>
    .bind (.modify fun _ _ h => ?_) fun _ =>
    .bind (simulates_byteAt _ _) fun _ => simulates_extractPayload _ _ _ _
  exact ⟨h.reads, h.sequence, h.active, h.cipher, h.macKey⟩

theorem simulates_receivePacket :
    Simulates SameInbound (receivePacket crypto) (receivePacket crypto) := by
  refine .bind_get fun w t h => ?_
  have hend : ∀ payload, Simulates SameInbound
      (do record (.received w.transport payload); return payload)
      (do record (.received t.transport payload); return payload) := by
    refine fun payload => .bind (.modify fun _ _ h => ?_) fun _ => .pure _
    exact ⟨h.reads, h.sequence, h.active, h.cipher, h.macKey⟩
  dsimp only
  rw [h.active]
  split
  · exact .bind simulates_receivePlaintext hend
  · exact .bind (simulates_receiveEncrypted crypto) hend

/-! ### Unread packets -/

/-- A whole packet can be read. -/
def Complete (w : Wire) : Prop := ∃ payload t, (receivePacket crypto).run w = .ok payload t

/-- Two whole packets can be read, one after the other. -/
def TwoComplete (w : Wire) : Prop :=
  ∃ payload t, (receivePacket crypto).run w = .ok payload t ∧ Complete crypto t

theorem sameInbound_of_sending {w t : Wire} {payload : Bytes} {done : Bool}
    (h : Sending payload w t done) : SameInbound w t :=
  ⟨h.reads, h.incomingSequence, congrArg Keying.incomingActive h.keying, h.incomingCipher,
    congrArg Keying.incomingMacKey h.keying⟩

variable {crypto}

theorem Complete.congr {w t : Wire} (h : Complete crypto w) (same : SameInbound w t) :
    Complete crypto t := by
  obtain ⟨payload, u, run⟩ := h
  obtain ⟨v, run', -⟩ := (simulates_receivePacket crypto).of_ok same run
  exact ⟨payload, v, run'⟩

theorem Complete.stream_ne_nil {w : Wire} (h : Complete crypto w) :
    Socket.stream w.sock.reads ≠ [] := by
  obtain ⟨payload, t, run⟩ := h
  have hreceived : WP (receivePacket crypto) w (fun payload t => Received payload w t)
      (fun _ _ => True) := wp_receivePacket (fun _ _ h => h) (fun _ _ _ _ => trivial)
  have hlt := (hreceived.of_ok run).stream_lt
  intro hnil
  rw [hnil] at hlt
  cases hlt

variable (crypto)

/-! ### The rounds of the shell -/

/-- Sending and everything else but receiving leave the incoming half alone. -/
theorem undisturbed_inbound (w : Wire) : Undisturbed crypto (fun t => SameInbound w t.wire) where
  record _ _ h := ⟨h.reads, h.sequence, h.active, h.cipher, h.macKey⟩
  send _ _ h := wp_onWire.mpr (wp_sendPacket (fun _ ht => h.trans (sameInbound_of_sending ht))
    (fun _ _ ht => h.trans (sameInbound_of_sending ht)))
  global payload t h := by
    simp only [handleGlobalRequest, wp_onWire, WP.bind_iff, WP.lift_iff, wp_record, WP.ite_iff,
      WP.pure_iff]
    have hrecorded : SameInbound w { t.wire with trace := t.wire.trace ++ [.accepted payload] } :=
      ⟨h.reads, h.sequence, h.active, h.cipher, h.macKey⟩
    refine ⟨fun gr _ => ⟨fun _ => ?_, fun _ => hrecorded⟩, fun _ _ => h⟩
    exact wp_sendPacket (fun _ ht => hrecorded.trans (sameInbound_of_sending ht))
      (fun _ _ ht => hrecorded.trans (sameInbound_of_sending ht))
  channel _ _ h := wp_onChannel.mpr (WP.intro (fun _ _ _ => h) (fun _ _ _ => h))
  keyboard _ _ h := wp_readKeyboard (fun _ _ _ => h) (fun _ _ => h)

/-- What a round does with the two descriptors, behind the poll. -/
def roundHalves (keyboard socket : Bool) : Exec World Unit := do
  if keyboard then handleKeyboard crypto
  if socket then handleSocket crypto

/-- The world behind the poll of a round. -/
def polled (u : World) (rest : List PollResult) : World :=
  { u with
    polls := rest
    wire := { u.wire with trace := u.wire.trace ++ [.loopHead u.channel u.wire.transport] } }

/-- The round that begins at `u` handles what is ready, and then finds the channel open and
an error or a hang-up of the socket reported. -/
def Hangs (u t : World) : Prop :=
  u.channel.isOpen = true ∧ ∃ keyboard socket rest, u.polls = .ready keyboard socket true :: rest ∧
    (roundHalves crypto (keyboard && 0 < u.channel.remoteWindow) socket).run (polled u rest) =
      .ok () t ∧ t.channel.isOpen = true

/-- The check behind the two descriptors. -/
def checkHangup (closed : Bool) : Exec World (Unit ⊕ Unit) := do
  let w ← get
  failIf (w.channel.isOpen ∧ closed) (error "SSH socket closed unexpectedly")
  return .inl ()

theorem halves_checkHangup (keyboard socket closed : Bool) :
    (roundHalves crypto keyboard socket >>= fun _ => checkHangup closed) = (do
      if keyboard then handleKeyboard crypto
      if socket then handleSocket crypto
      let w ← get
      failIf (w.channel.isOpen ∧ closed) (error "SSH socket closed unexpectedly")
      return .inl ()) := by
  cases keyboard <;> cases socket <;> simp [roundHalves, checkHangup]

/-- A round whose poll reports handles the two descriptors, and then checks for the hang-up. -/
theorem shellRound_ready {u : World} {keyboard socket closed : Bool} {rest : List PollResult}
    (hopen : u.channel.isOpen = true) (hpolls : u.polls = .ready keyboard socket closed :: rest) :
    (shellRound crypto).run u =
      (roundHalves crypto (keyboard && 0 < u.channel.remoteWindow) socket >>=
        fun _ => checkHangup closed).run (polled u rest) := by
  have hhead : (onWire (record (.loopHead u.channel u.wire.transport))).run u =
      .ok () { polled u rest with polls := u.polls } := rfl
  have hpoll : (poll (0 < u.channel.remoteWindow)).run { polled u rest with polls := u.polls } =
      .ok (.ready (keyboard && 0 < u.channel.remoteWindow) socket closed) (polled u rest) := by
    simp only [poll, EStateM.run_bind, EStateM.run_get, hpolls]
    rfl
  rw [halves_checkHangup, shellRound, EStateM.run_bind, EStateM.run_get]
  simp only [EStateM.run_bind, hhead, hopen, Bool.not_true, Bool.false_eq_true, if_false, hpoll]

theorem checkHangup_error {v t : World} {closed : Bool} {e : Stop} :
    (checkHangup closed).run v = .error e t ↔
      (v.channel.isOpen = true ∧ closed = true) ∧ e = error "SSH socket closed unexpectedly" ∧
        t = v := by
  rw [checkHangup, EStateM.run_bind, EStateM.run_get]
  dsimp only
  rw [EStateM.run_bind]
  by_cases hboth : v.channel.isOpen = true ∧ closed = true
  · rw [run_failIf_pos hboth]
    simp [hboth, eq_comm]
  · rw [run_failIf_neg hboth]
    simp [hboth]

theorem shellRound_of_hangs {u t : World} (h : Hangs crypto u t) :
    (shellRound crypto).run u = .error (error "SSH socket closed unexpectedly") t := by
  obtain ⟨hopen, keyboard, socket, rest, hpolls, hhalves, hstill⟩ := h
  rw [shellRound_ready crypto hopen hpolls, EStateM.run_bind, hhalves]
  exact checkHangup_error.mpr ⟨⟨hstill, rfl⟩, rfl, rfl⟩

/-- What a round throws behind its poll is thrown while a descriptor is handled, or by the
check for the hang-up, and then the round hangs. -/
theorem hangs_of_thrown {u t : World} {e : Stop} {keyboard socket closed : Bool}
    {rest : List PollResult} (hpolls : u.polls = .ready keyboard socket closed :: rest)
    (run : (shellRound crypto).run u = .error e t) :
    (roundHalves crypto (keyboard && 0 < u.channel.remoteWindow) socket).run (polled u rest) =
        .error e t ∨
      e = error "SSH socket closed unexpectedly" ∧ Hangs crypto u t := by
  cases hopen : u.channel.isOpen with
  | false =>
      rw [shellRound, EStateM.run_bind, EStateM.run_get] at run
      simp only [hopen] at run
      cases run
  | true =>
      rw [shellRound_ready crypto hopen hpolls, EStateM.run_bind] at run
      cases hhalves : (roundHalves crypto (keyboard && 0 < u.channel.remoteWindow) socket).run
          (polled u rest) with
      | error e' t' =>
          rw [hhalves] at run
          cases run
          exact .inl rfl
      | ok _ v =>
          rw [hhalves] at run
          obtain ⟨⟨hstill, rfl⟩, rfl, rfl⟩ := checkHangup_error.mp run
          exact .inr ⟨rfl, hopen, _, _, _, hpolls, hhalves, hstill⟩
/-- The worlds in which the shell that starts at `w` reads the condition of its loop. -/
inductive LoopHead (w : World) : World → Prop where
  | start {console : Console} :
      Terminal.enableRawMode.run w.console = .ok () console →
      LoopHead w { w with console := console }
  | next {u v : World} : LoopHead w u → (shellRound crypto).run u = .ok (.inl ()) v → LoopHead w v

theorem undisturbed_polls (polls : List PollResult) : Undisturbed crypto (·.polls = polls) where
  record _ _ h := h
  send _ _ h := wp_onWire.mpr (WP.intro (fun _ _ _ => h) (fun _ _ _ => h))
  global _ _ h := wp_onWire.mpr (WP.intro (fun _ _ _ => h) (fun _ _ _ => h))
  channel _ _ h := wp_onChannel.mpr (WP.intro (fun _ _ _ => h) (fun _ _ _ => h))
  keyboard _ _ h := wp_readKeyboard (fun _ _ _ => h) (fun _ _ => h)

/-- Every round takes a poll result. -/
theorem polls_of_shellRound {u v : World} (run : (shellRound crypto).run u = .ok (.inl ()) v) :
    v.polls.length < u.polls.length := by
  have hspec : WP (shellRound crypto) u
      (fun r v => r = .inl () → v.polls.length < u.polls.length) (fun _ _ => True) := by
    simp only [shellRound, WP.bind_iff, WP.get_iff, wp_onWire, wp_record, WP.ite_iff, WP.pure_iff]
    refine ⟨fun _ hleft => (by cases hleft), fun _ => ?_⟩
    refine wp_poll (fun result rest hlt => ?_) (fun _ => trivial)
    cases result with
    | interrupted => exact fun _ => hlt
    | failed => exact trivial
    | ready keyboard socket closed =>
        have hkept := (undisturbed_polls crypto rest).ready _
          (fun _ h => wp_onWire.mpr (WP.intro (fun _ _ _ => h) (fun _ _ _ => h)))
          keyboard socket closed
        refine (hkept _ rfl).mono (fun r v hv _ => ?_) (fun _ _ _ => trivial)
        rw [hv]
        exact hlt
  exact hspec.of_ok run rfl

/-- The loop from a loop head is what is left of the loop from the start. -/
theorem LoopHead.iterate {w u : World} (h : LoopHead crypto w u) :
    ∃ console rounds, Terminal.enableRawMode.run w.console = .ok () console ∧
      u.polls.length < rounds ∧
      (shellLoop crypto).run { w with console := console } =
        (Control.iterate .fault (fun _ => shellRound crypto) rounds ()).run u := by
  induction h with
  | @start console hraw => exact ⟨console, w.polls.length + 2, hraw, by simp, rfl⟩
  | @next u v _ hround ih =>
      obtain ⟨console, rounds, hraw, hlt, hloop⟩ := ih
      have hpolls := polls_of_shellRound crypto hround
      obtain ⟨rounds, rfl⟩ := Nat.exists_eq_succ_of_ne_zero (Nat.ne_zero_of_lt hlt)
      refine ⟨console, rounds, hraw, by omega, hloop.trans ?_⟩
      rw [Control.iterate, EStateM.run_bind, hround]

theorem shell_of_hangs {w u t : World} (head : LoopHead crypto w u) (h : Hangs crypto u t) :
    (runInteractiveShell crypto).run w = .error (error "SSH socket closed unexpectedly") t := by
  obtain ⟨console, rounds, hraw, hlt, hloop⟩ := head.iterate
  obtain ⟨rounds, rfl⟩ := Nat.exists_eq_succ_of_ne_zero (Nat.ne_zero_of_lt hlt)
  rw [Control.iterate, EStateM.run_bind, shellRound_of_hangs crypto h] at hloop
  have honConsole : (onConsole Terminal.enableRawMode).run w =
      .ok () { w with console := console } := by
    simp only [onConsole, focus, EStateM.run] at hraw ⊢
    rw [hraw]
  rw [runInteractiveShell, EStateM.run_bind, honConsole]
  change ((shellLoop crypto >>= fun _ => onConsole Terminal.restore).run _) = _
  rw [EStateM.run_bind, hloop]

/-- Where a round leaves the incoming half of the wire. -/
theorem inbound_of_halves {u t : World} {keyboard socket : Bool} {rest : List PollResult}
    (run : (roundHalves crypto keyboard socket).run (polled u rest) = .ok () t) :
    if socket then
      ∃ payload v, (receivePacket crypto).run u.wire = .ok payload v ∧ SameInbound v t.wire
    else SameInbound u.wire t.wire := by
  have hsocket : ∀ x : World, SameInbound u.wire x.wire → WP (handleSocket crypto) x
      (fun _ t => ∃ payload v, (receivePacket crypto).run u.wire = .ok payload v ∧
        SameInbound v t.wire) (fun _ _ => True) := by
    intro x hx
    simp only [handleSocket, WP.bind_iff, wp_onWire]
    refine WP.intro (fun payload v hrun => ?_) (fun _ _ _ => trivial)
    obtain ⟨v', hrun', hv'⟩ := (simulates_receivePacket crypto).of_ok hx.symm hrun
    have hkept := undisturbed_inbound crypto v'
    rw [WP.failIf_iff]
    refine ⟨fun _ => trivial, fun _ => ?_⟩
    refine (hkept.handleMessage _ payload _ hv'.symm).mono (fun consumed y hy => ?_)
      (fun _ _ _ => trivial)
    refine (hkept.refillWindow _ consumed y hy).mono (fun _ z hz => ?_) (fun _ _ _ => trivial)
    exact (hkept.channel _ z hz).mono (fun _ t ht => ⟨payload, v', hrun', ht⟩)
      (fun _ _ _ => trivial)
  have hstart : SameInbound u.wire (polled u rest).wire := ⟨rfl, rfl, rfl, rfl, rfl⟩
  have hspec : WP (roundHalves crypto keyboard socket) (polled u rest)
      (fun _ t => if socket then
        ∃ payload v, (receivePacket crypto).run u.wire = .ok payload v ∧ SameInbound v t.wire
        else SameInbound u.wire t.wire) (fun _ _ => True) := by
    have hhalf : ∀ x : World, SameInbound u.wire x.wire →
        (socket = true → WP (handleSocket crypto) x (fun _ t => if socket then
          ∃ payload v, (receivePacket crypto).run u.wire = .ok payload v ∧ SameInbound v t.wire
          else SameInbound u.wire t.wire) (fun _ _ => True)) ∧
        (¬ socket = true → if socket then
          ∃ payload v, (receivePacket crypto).run u.wire = .ok payload v ∧ SameInbound v x.wire
          else SameInbound u.wire x.wire) := by
      intro x hx
      refine ⟨fun hyes => ?_, fun hno => ?_⟩
      · simp only [hyes, if_true]
        exact hsocket x hx
      · rw [if_neg hno]
        exact hx
    simp only [roundHalves, WP.bind_iff, WP.ite_iff, WP.pure_iff]
    refine ⟨fun _ => ?_, fun _ => hhalf _ hstart⟩
    exact ((undisturbed_inbound crypto u.wire).handleKeyboard _ _ hstart).mono (fun _ => hhalf)
      (fun _ _ _ => trivial)
  exact hspec.of_ok run

/-- Where the shell gives up on a hang-up, no whole packet is left unread exactly when there
were not two of them at the loop head. It is assumed that a socket with unread bytes is
reported readable, together with the hang-up. -/
theorem shell_hangup_iff {w : World}
    (reports : ∀ u keyboard socket rest, LoopHead crypto w u →
      u.polls = .ready keyboard socket true :: rest → Socket.stream u.wire.sock.reads ≠ [] →
      socket = true) :
    ∀ u t, LoopHead crypto w u → Hangs crypto u t →
      (runInteractiveShell crypto).run w = .error (error "SSH socket closed unexpectedly") t ∧
      (¬ Complete crypto t.wire ↔ ¬ TwoComplete crypto u.wire) := by
  intro u t head hangs
  refine ⟨shell_of_hangs crypto head hangs, not_congr ?_⟩
  obtain ⟨-, keyboard, socket, rest, hpolls, hhalves, -⟩ := hangs
  have hinbound := inbound_of_halves crypto hhalves
  cases socket with
  | true =>
      obtain ⟨payload, v, hrun, hsame⟩ := hinbound
      refine ⟨fun hcomplete => ⟨payload, v, hrun, hcomplete.congr hsame.symm⟩, ?_⟩
      rintro ⟨payload', v', hrun', hcomplete⟩
      rw [hrun] at hrun'
      cases hrun'
      exact hcomplete.congr hsame
  | false =>
      -- Nothing was reported readable, so nothing can be read.
      have hempty : ¬ Complete crypto u.wire := fun hcomplete =>
        Bool.false_ne_true (reports u _ _ _ head hpolls hcomplete.stream_ne_nil)
      have hsame : SameInbound u.wire t.wire := hinbound
      refine ⟨fun hcomplete => absurd (hcomplete.congr hsame.symm) hempty, ?_⟩
      rintro ⟨payload, v, hrun, -⟩
      exact absurd ⟨payload, v, hrun⟩ hempty

/-- A shell on whose socket the packets are unread when the hang-up is reported. -/
def hangupWorld (payloads : List Bytes) : World where
  wire := { sock := { reads := [.returned (payloads.flatMap plainPacket), .returned []] } }
  polls := [.ready false true true]
  channel := shortLoginChannel

/-- Its loop head. -/
def hangupHead (payloads : List Bytes) : World :=
  { hangupWorld payloads with console := outcome (Terminal.enableRawMode.run {}) }

/-- Where its only round ends. -/
def hangupEnd (payloads : List Bytes) : World :=
  outcome ((roundHalves (zeroKeyCrypto []) false true).run (polled (hangupHead payloads) []))

theorem enableRawMode_hangupWorld (payloads : List Bytes) :
    Terminal.enableRawMode.run (hangupWorld payloads).console =
      .ok () (outcome (Terminal.enableRawMode.run {})) :=
  eq_ok_of_returned (r := Terminal.enableRawMode.run {}) (by decide +kernel)

section Example

variable {payloads : List Bytes}
  (handled : returned ((roundHalves (zeroKeyCrypto []) false true).run
    (polled (hangupHead payloads) [])) = true)
  (stillOpen : (hangupEnd payloads).channel.isOpen = true)

include handled stillOpen

theorem hangs_hangupHead : Hangs (zeroKeyCrypto []) (hangupHead payloads) (hangupEnd payloads) :=
  ⟨rfl, false, true, [], rfl, eq_ok_of_returned handled, stillOpen⟩

theorem eq_hangupHead {u : World} (head : LoopHead (zeroKeyCrypto []) (hangupWorld payloads) u) :
    u = hangupHead payloads := by
  induction head with
  | start hraw =>
      rw [enableRawMode_hangupWorld] at hraw
      cases hraw
      rfl
  | next _ hround ih =>
      rw [ih, shellRound_of_hangs _ (hangs_hangupHead handled stillOpen)] at hround
      cases hround

end Example

/-- One word is unread, and nothing when the shell gives up. -/
theorem shell_hangup_oneWord :
    ∃ t, (runInteractiveShell (zeroKeyCrypto [])).run (hangupWorld [channelData 0 (ascii "hi")]) =
        .error (error "SSH socket closed unexpectedly") t ∧
      ¬ Complete (zeroKeyCrypto []) t.wire := by
  have handled : returned ((roundHalves (zeroKeyCrypto []) false true).run
      (polled (hangupHead [channelData 0 (ascii "hi")]) [])) = true := by decide +kernel
  have stillOpen : (hangupEnd [channelData 0 (ascii "hi")]).channel.isOpen = true := by
    decide +kernel
  obtain ⟨hrun, hiff⟩ := shell_hangup_iff (zeroKeyCrypto []) (fun u _ _ _ hhead hpolls _ => by
    rw [eq_hangupHead handled stillOpen hhead] at hpolls
    cases hpolls
    rfl) _ _ (.start (enableRawMode_hangupWorld _)) (hangs_hangupHead handled stillOpen)
  refine ⟨_, hrun, hiff.mpr ?_⟩
  rintro ⟨payload, v, hfirst, payload', v', hsecond⟩
  have hv : v = outcome ((receivePacket (zeroKeyCrypto [])).run
      (hangupHead [channelData 0 (ascii "hi")]).wire) := by
    rw [show (receivePacket (zeroKeyCrypto [])).run (hangupHead _).wire = _ from hfirst]
    rfl
  rw [hv] at hsecond
  exact ne_ok_of_not_returned (by decide +kernel) hsecond

/-- A word and the close are unread, and the close is lost. -/
theorem shell_hangup_closeLost :
    ∃ t, (runInteractiveShell (zeroKeyCrypto [])).run (hangupWorld
        [channelData 0 (ascii "hi"), recipientOnly Message.channelClose 0]) =
        .error (error "SSH socket closed unexpectedly") t ∧ Complete (zeroKeyCrypto []) t.wire := by
  refine ⟨_, shell_of_hangs (zeroKeyCrypto []) (.start (enableRawMode_hangupWorld _))
    (hangs_hangupHead (by decide +kernel) (by decide +kernel)), ?_⟩
  cases hrun : (receivePacket (zeroKeyCrypto [])).run (hangupEnd
      [channelData 0 (ascii "hi"), recipientOnly Message.channelClose 0]).wire with
  | ok payload t => exact ⟨payload, t, hrun⟩
  | error e t =>
      have hreturned : returned ((receivePacket (zeroKeyCrypto [])).run (hangupEnd
        [channelData 0 (ascii "hi"), recipientOnly Message.channelClose 0]).wire) = true := by
        decide +kernel
      rw [hrun] at hreturned
      cases hreturned

end SshClient.Protocol

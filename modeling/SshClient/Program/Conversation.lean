import SshClient.Client.Composition
import SshClient.Client.Identification
import SshClient.Client.Target
import SshClient.Program.Completion
import SshClient.Protocol.Program
import SshClient.Transport.Emission
import SshClient.Transport.Intake

/-!
# The bytes of a whole run

Both directions of a run are a sequence of packets in the clear, up to the NEWKEYS of the
direction, and behind it a sequence under the keys that the key exchange of this run has
derived. What is written is such a sequence of the payloads that were sent, and what is read
is such a sequence of the payloads that were received. When a call throws in the middle of a
packet, a part of one packet is left at the end; a run that returns leaves nothing.
-/

namespace SshClient.Program

open Control Client Transport Protocol

variable {crypto : Crypto} {keystream : Fixed 32 → Fixed 16 → Nat → UInt8}

/-! ### Traces -/

def Event.sentPayload : Event → Option Bytes
  | .sent payload => some payload
  | _ => none

def Event.receivedPayload : Event → Option Bytes
  | .received _ payload => some payload
  | _ => none

/-- The payloads that have been sent. -/
def sentPayloads (l : List Event) : List Bytes := l.filterMap Event.sentPayload

/-- The payloads that have been received. -/
def receivedPayloads (l : List Event) : List Bytes := l.filterMap Event.receivedPayload

theorem sentPayloads_append (l m : List Event) :
    sentPayloads (l ++ m) = sentPayloads l ++ sentPayloads m := List.filterMap_append

theorem receivedPayloads_append (l m : List Event) :
    receivedPayloads (l ++ m) = receivedPayloads l ++ receivedPayloads m := List.filterMap_append

theorem sentPayloads_note {l : List Event} {event : Event} (other : event.ofPacket = false) :
    sentPayloads (l ++ [event]) = sentPayloads l := by
  rw [sentPayloads_append]
  cases event with
  | sending | sent | received => cases other
  | _ => exact List.append_nil _

theorem receivedPayloads_note {l : List Event} {event : Event} (other : event.ofPacket = false) :
    receivedPayloads (l ++ [event]) = receivedPayloads l := by
  rw [receivedPayloads_append]
  cases event with
  | sending | sent | received => cases other
  | _ => exact List.append_nil _

/-! ### One direction of the wire -/

/-- Payloads that do not change the keys. -/
def Unannounced (payloads : List Bytes) : Prop := [Message.newkeys] ∉ payloads

theorem Unannounced.snoc {payloads : List Bytes} {payload : Bytes} (h : Unannounced payloads)
    (other : payload ≠ [Message.newkeys]) : Unannounced (payloads ++ [payload]) := by
  intro hmem
  rcases List.mem_append.mp hmem with hmem | hmem
  · exact h hmem
  · exact other (List.mem_singleton.mp hmem).symm

/-- Since `start`, payloads have been sent behind the earlier ones, and their packets have
been written behind the bytes of these. -/
def Said (crypto : Crypto) (keystream : Fixed 32 → Fixed 16 → Nat → UInt8)
    (earlier : List Bytes) (prior : Bytes) (start : Line) (w : Wire) : Prop :=
  ∃ payloads bytes line, Carries crypto keystream start payloads bytes line ∧
    Unannounced payloads ∧ sentPayloads w.trace = earlier ++ payloads ∧
    w.sock.written = prior ++ bytes ∧ outgoing w.transport = some line

/-- The same with a packet of which only a part may have been written. -/
def SaidPartly (crypto : Crypto) (keystream : Fixed 32 → Fixed 16 → Nat → UInt8)
    (earlier : List Bytes) (prior : Bytes) (start : Line) (w : Wire) : Prop :=
  ∃ payloads bytes line part, Carries crypto keystream start payloads bytes line ∧
    Unannounced payloads ∧ sentPayloads w.trace = earlier ++ payloads ∧
    w.sock.written = prior ++ bytes ++ part ∧
    (part = [] ∨ ∃ f : Frame line.block, part <+: image crypto keystream line f.bytes)

/-- Since `start`, payloads have been received behind the earlier ones, and their packets have
been taken from what stood ahead. -/
def Heard (crypto : Crypto) (keystream : Fixed 32 → Fixed 16 → Nat → UInt8)
    (earlier : List Bytes) (ahead : Bytes) (start : Line) (w : Wire) : Prop :=
  ∃ payloads bytes line, Carries crypto keystream start payloads bytes line ∧
    receivedPayloads w.trace = earlier ++ payloads ∧
    ahead = bytes ++ Socket.stream w.sock.reads ∧ incoming w.transport = some line

/-- Bytes that a receive on the line has taken, no more than one packet has, when it stopped
and left these reads. -/
def Torn (crypto : Crypto) (line : Line) (part : Bytes) (reads : List ReadResult) : Prop :=
  part.length ≤ maxPacketSize + macBytes ∧ ∃ before e after,
    incoming before.transport = some line ∧
    (receivePacket crypto).run before = .error e after ∧ after.sock.reads = reads ∧
    Socket.stream before.sock.reads = part ++ Socket.stream reads

/-- The same with a packet that has been torn. -/
def HeardPartly (crypto : Crypto) (keystream : Fixed 32 → Fixed 16 → Nat → UInt8)
    (earlier : List Bytes) (ahead : Bytes) (start : Line) (w : Wire) : Prop :=
  ∃ payloads bytes line part, Carries crypto keystream start payloads bytes line ∧
    receivedPayloads w.trace = earlier ++ payloads ∧
    ahead = bytes ++ part ++ Socket.stream w.sock.reads ∧
    (part = [] ∨ Torn crypto line part w.sock.reads)

section Directions

variable {earlier : List Bytes} {prior ahead : Bytes} {start : Line} {w : Wire} {α : Type}

theorem Said.partly (h : Said crypto keystream earlier prior start w) :
    SaidPartly crypto keystream earlier prior start w := by
  obtain ⟨payloads, bytes, line, hcarries, hother, hsent, hwritten, -⟩ := h
  refine ⟨payloads, bytes, line, [], hcarries, hother, hsent, ?_, .inl rfl⟩
  rw [hwritten, List.append_nil]

theorem Heard.partly (h : Heard crypto keystream earlier ahead start w) :
    HeardPartly crypto keystream earlier ahead start w := by
  obtain ⟨payloads, bytes, line, hcarries, hreceived, hahead, -⟩ := h
  refine ⟨payloads, bytes, line, [], hcarries, hreceived, ?_, .inl rfl⟩
  rw [hahead, List.append_nil]

/-- One more packet, of whatever payload. -/
theorem wp_sendPacket_said (working : Working crypto keystream) (payload : Bytes)
    (h : Said crypto keystream earlier prior start w) :
    WP (sendPacket crypto payload) w
      (fun _ t => ∃ payloads bytes line, Carries crypto keystream start payloads bytes line ∧
        Unannounced payloads ∧ ∃ f : Frame line.block, f.payload = payload ∧
          sentPayloads t.trace = earlier ++ (payloads ++ [payload]) ∧
          t.sock.written = prior ++ (bytes ++ image crypto keystream line f.bytes) ∧
          outgoing t.transport = some (line.next f.bytes.length))
      (fun _ t => SaidPartly crypto keystream earlier prior start t) := by
  obtain ⟨payloads, bytes, line, hcarries, hother, hsent, hwritten, hline⟩ := h
  refine (wp_sendPacket_line working hline).mono ?_ ?_
  · rintro _ t ⟨sending, f, hpayload, himage, hnext⟩
    refine ⟨payloads, bytes, line, hcarries, hother, f, hpayload, ?_, ?_, hnext⟩
    · rw [sending.trace, sentPayloads_append, hsent, List.append_assoc]
      rfl
    · rw [himage, hwritten, List.append_assoc]
  · rintro _ t ⟨sending, taken, htaken, hpart⟩
    refine ⟨payloads, bytes, line, taken, hcarries, hother, ?_, by rw [htaken, hwritten], ?_⟩
    · rw [sending.trace, sentPayloads_append, hsent]
      exact List.append_nil _
    · rcases hpart with rfl | ⟨f, -, hprefix⟩
      · exact .inl rfl
      · exact .inr ⟨f, hprefix⟩

theorem upholds_said_send (working : Working crypto keystream) {payload : Bytes}
    (other : payload ≠ [Message.newkeys]) :
    Upholds (Said crypto keystream earlier prior start)
      (fun _ => SaidPartly crypto keystream earlier prior start) (sendPacket crypto payload) := by
  intro w hw
  refine (wp_sendPacket_said working payload hw).mono ?_ (fun _ _ ht => ht)
  rintro _ t ⟨payloads, bytes, line, hcarries, hother, f, rfl, hsent, hwritten, hline⟩
  exact ⟨_, _, _, hcarries.snoc f, hother.snoc other, hsent, hwritten, hline⟩

/-- Nothing is said by a call that leaves the outgoing direction alone. -/
theorem Said.of_unsaid {t : Wire} (h : Said crypto keystream earlier prior start w)
    (trace : sentPayloads t.trace = sentPayloads w.trace)
    (written : t.sock.written = w.sock.written)
    (line : outgoing t.transport = outgoing w.transport) :
    Said crypto keystream earlier prior start t := by
  unfold Said
  rw [trace, written, line]
  exact h

theorem Heard.of_unheard {t : Wire} (h : Heard crypto keystream earlier ahead start w)
    (trace : receivedPayloads t.trace = receivedPayloads w.trace)
    (reads : t.sock.reads = w.sock.reads)
    (line : incoming t.transport = incoming w.transport) :
    Heard crypto keystream earlier ahead start t := by
  unfold Heard
  rw [trace, reads, line]
  exact h

theorem upholds_said_receive :
    Upholds (Said crypto keystream earlier prior start)
      (fun _ => SaidPartly crypto keystream earlier prior start) (receivePacket crypto) := by
  intro w h
  refine wp_receivePacket ?_ ?_
  · intro payload t received
    refine h.of_unsaid ?_ received.written
      (outgoing_congr received.keying received.outgoingSequence received.outgoingCipher)
    rw [received.trace, sentPayloads_append]
    exact List.append_nil _
  · intro e t _ missed
    refine (h.of_unsaid ?_ missed.written
      (outgoing_congr missed.keying missed.outgoingSequence missed.outgoingCipher)).partly
    rw [missed.trace]

theorem upholds_heard_receive (working : Working crypto keystream) :
    Upholds (Heard crypto keystream earlier ahead start)
      (fun _ => HeardPartly crypto keystream earlier ahead start) (receivePacket crypto) := by
  rintro w ⟨payloads, bytes, line, hcarries, hreceived, hahead, hline⟩
  have hpacket := wp_receivePacket_line working hline
  refine WP.intro ?_ ?_
  · intro payload t hrun
    obtain ⟨received, f, rfl, himage, hnext⟩ := hpacket.of_ok hrun
    refine ⟨_, _, _, hcarries.snoc f, ?_, ?_, hnext⟩
    · rw [received.trace, receivedPayloads_append, hreceived, List.append_assoc]
      rfl
    · rw [hahead, himage, List.append_assoc]
  · intro e t hrun
    have missed := hpacket.of_error hrun
    obtain ⟨⟨part, hpart, hlength⟩, -⟩ := (takes_receivePacket crypto w).of_error hrun
    refine ⟨payloads, bytes, line, part, hcarries, ?_, ?_, .inr ⟨hlength, w, e, t, hline, hrun, rfl,
      hpart⟩⟩
    · rw [missed.trace, hreceived]
    · rw [hahead, hpart, List.append_assoc]

theorem upholds_heard_send (payload : Bytes) :
    Upholds (Heard crypto keystream earlier ahead start)
      (fun _ => HeardPartly crypto keystream earlier ahead start) (sendPacket crypto payload) := by
  intro w h
  have hkept : ∀ t done, Sending payload w t done →
      Heard crypto keystream earlier ahead start t := by
    intro t done sending
    refine h.of_unheard ?_ sending.reads
      (incoming_congr sending.keying sending.incomingSequence sending.incomingCipher)
    rw [sending.trace, receivedPayloads_append]
    cases done <;> exact List.append_nil _
  exact wp_sendPacket (fun t sending => hkept t true sending)
    (fun _ t sending => (hkept t false sending).partly)

theorem upholds_said (working : Working crypto keystream) {x : Exec Wire α}
    {rights : Rights} (kept : rights.keys = false) (h : WireCall crypto rights α x) :
    Upholds (Said crypto keystream earlier prior start)
      (fun _ => SaidPartly crypto keystream earlier prior start) x := by
  cases h with
  | send payload permitted =>
      exact upholds_said_send working (Rights.ne_newkeys_of_sends kept permitted)
  | receive => exact upholds_said_receive
  | draw count =>
      intro w hw
      exact hw.of_unsaid rfl rfl rfl
  | note permitted =>
      intro w hw
      exact hw.of_unsaid (sentPayloads_note (Rights.ofPacket_of_notes permitted)) rfl rfl
  | enableOutgoing allowed | enableIncoming allowed => exact absurd allowed (by simp [kept])

theorem upholds_heard (working : Working crypto keystream) {x : Exec Wire α}
    {rights : Rights} (kept : rights.keys = false) (h : WireCall crypto rights α x) :
    Upholds (Heard crypto keystream earlier ahead start)
      (fun _ => HeardPartly crypto keystream earlier ahead start) x := by
  cases h with
  | send payload => exact upholds_heard_send payload
  | receive => exact upholds_heard_receive working
  | draw count =>
      intro w hw
      exact hw.of_unheard rfl rfl rfl
  | note permitted =>
      intro w hw
      exact hw.of_unheard (receivedPayloads_note (Rights.ofPacket_of_notes permitted)) rfl rfl
  | enableOutgoing allowed | enableIncoming allowed => exact absurd allowed (by simp [kept])

end Directions

/-! ### The change of the keys -/

/-- The keys for the packets of the client. -/
def outgoingKeys (keys : TransportKeyMaterial) : Cipher × Fixed 32 :=
  ({ key := keys.encryptionKeyCs, iv := keys.ivCs }, keys.macKeyCs)

/-- The keys for the packets of the server. -/
def incomingKeys (keys : TransportKeyMaterial) : Cipher × Fixed 32 :=
  ({ key := keys.encryptionKeySc, iv := keys.ivSc }, keys.macKeySc)

/-- The packets of one direction since the connection was made: in the clear, and when there
are keys for it, behind a NEWKEYS under these from the beginning of their key stream. The
payloads on both sides of that NEWKEYS are as `among` says. -/
inductive Transmission (crypto : Crypto) (keystream : Fixed 32 → Fixed 16 → Nat → UInt8)
    (among : List Bytes → Prop) :
    Option (Cipher × Fixed 32) → List Bytes → Bytes → Line → Prop where
  | clear {keys : Option (Cipher × Fixed 32)} {payloads : List Bytes} {bytes : Bytes} {line : Line}
      (h : Carries crypto keystream ⟨0, none⟩ payloads bytes line) (amongPlain : among payloads) :
      Transmission crypto keystream among keys payloads bytes line
  | keyed {keys : Cipher × Fixed 32} {plain secret : List Bytes} {inClear inSecret : Bytes}
      {middle line : Line}
      (h : Carries crypto keystream ⟨0, none⟩ (plain ++ [[Message.newkeys]]) inClear middle)
      (h' : Carries crypto keystream ⟨middle.sequence, some keys⟩ secret inSecret line)
      (amongPlain : among plain) (amongSecret : among secret) :
      Transmission crypto keystream among (some keys) (plain ++ [[Message.newkeys]] ++ secret)
        (inClear ++ inSecret) line

/-- The outgoing direction behind its NEWKEYS. -/
def SaidSecretly (crypto : Crypto) (keystream : Fixed 32 → Fixed 16 → Nat → UInt8)
    (keys : Cipher × Fixed 32) (prior : Bytes) (w : Wire) : Prop :=
  ∃ plain bytes middle,
    Carries crypto keystream ⟨0, none⟩ (plain ++ [[Message.newkeys]]) bytes middle ∧
    Unannounced plain ∧ Said crypto keystream (plain ++ [[Message.newkeys]]) (prior ++ bytes)
      ⟨middle.sequence, some keys⟩ w

/-- The incoming direction behind its NEWKEYS. -/
def HeardSecretly (crypto : Crypto) (keystream : Fixed 32 → Fixed 16 → Nat → UInt8)
    (keys : Cipher × Fixed 32) (ahead : Bytes) (w : Wire) : Prop :=
  ∃ plain bytes rest middle,
    Carries crypto keystream ⟨0, none⟩ (plain ++ [[Message.newkeys]]) bytes middle ∧
    ahead = bytes ++ rest ∧
    Heard crypto keystream (plain ++ [[Message.newkeys]]) rest ⟨middle.sequence, some keys⟩ w

/-- Everything that has been written since the line of the client. -/
def Transmitted (crypto : Crypto) (keystream : Fixed 32 → Fixed 16 → Nat → UInt8)
    (keys : Option (Cipher × Fixed 32)) (prior : Bytes) (w : Wire) : Prop :=
  ∃ bytes line part,
    Transmission crypto keystream Unannounced keys (sentPayloads w.trace) bytes line ∧
    w.sock.written = prior ++ bytes ++ part ∧
    (part = [] ∨ ∃ f : Frame line.block, part <+: image crypto keystream line f.bytes)

/-- Everything that has been read since the line of the server. Behind a NEWKEYS that has been
accepted the packets are under keys. -/
def Understood (crypto : Crypto) (keystream : Fixed 32 → Fixed 16 → Nat → UInt8)
    (keys : Option (Cipher × Fixed 32)) (ahead : Bytes) (w : Wire) : Prop :=
  ∃ bytes line part,
    Transmission crypto keystream (fun _ => True) keys (receivedPayloads w.trace) bytes line ∧
    (.accepted [Message.newkeys] ∈ w.trace → line.keys.isSome = true) ∧
    ahead = bytes ++ part ++ Socket.stream w.sock.reads ∧
    (part = [] ∨ Torn crypto line part w.sock.reads)

/-- NEWKEYS of the server has not been accepted. -/
def Unaccepted (w : Wire) : Prop := .accepted [Message.newkeys] ∉ w.trace

theorem keys_of_carries {start line : Line} {payloads : List Bytes} {bytes : Bytes}
    (h : Carries crypto keystream start payloads bytes line) :
    line.keys.isSome = start.keys.isSome := by
  induction h with
  | nil => rfl
  | snoc _ f ih => rw [← ih, Line.next, Option.isSome_map]

section Keys

variable {keys : Cipher × Fixed 32} {prior ahead : Bytes} {w : Wire} {α : Type}

theorem SaidPartly.transmitted {keys : Option (Cipher × Fixed 32)}
    (h : SaidPartly crypto keystream [] prior ⟨0, none⟩ w) :
    Transmitted crypto keystream keys prior w := by
  obtain ⟨payloads, bytes, line, part, hcarries, hother, hsent, hwritten, hpart⟩ := h
  rw [List.nil_append] at hsent
  exact ⟨bytes, line, part, hsent ▸ .clear hcarries hother, hwritten, hpart⟩

theorem HeardPartly.understood {keys : Option (Cipher × Fixed 32)}
    (h : HeardPartly crypto keystream [] ahead ⟨0, none⟩ w) (unaccepted : Unaccepted w) :
    Understood crypto keystream keys ahead w := by
  obtain ⟨payloads, bytes, line, part, hcarries, hreceived, hahead, hpart⟩ := h
  rw [List.nil_append] at hreceived
  exact ⟨bytes, line, part, hreceived ▸ .clear hcarries trivial,
    fun accepted => absurd accepted unaccepted, hahead, hpart⟩

theorem transmitted_of_keyed {plain : List Bytes} {bytes : Bytes} {middle : Line}
    (h : Carries crypto keystream ⟨0, none⟩ (plain ++ [[Message.newkeys]]) bytes middle)
    (other : Unannounced plain)
    (h' : SaidPartly crypto keystream (plain ++ [[Message.newkeys]]) (prior ++ bytes)
      ⟨middle.sequence, some keys⟩ w) : Transmitted crypto keystream (some keys) prior w := by
  obtain ⟨payloads, inSecret, line, part, hcarries, hother, hsent, hwritten, hpart⟩ := h'
  refine ⟨bytes ++ inSecret, line, part, hsent ▸ .keyed h hcarries other hother, ?_, hpart⟩
  rw [hwritten]
  simp only [List.append_assoc]

theorem understood_of_keyed {plain : List Bytes} {bytes rest : Bytes} {middle : Line}
    (h : Carries crypto keystream ⟨0, none⟩ (plain ++ [[Message.newkeys]]) bytes middle)
    (hahead : ahead = bytes ++ rest)
    (h' : HeardPartly crypto keystream (plain ++ [[Message.newkeys]]) rest
      ⟨middle.sequence, some keys⟩ w) : Understood crypto keystream (some keys) ahead w := by
  obtain ⟨payloads, inSecret, line, part, hcarries, hreceived, hrest, hpart⟩ := h'
  refine ⟨bytes ++ inSecret, line, part, hreceived ▸ .keyed h hcarries trivial trivial,
    fun _ => keys_of_carries hcarries, ?_, hpart⟩
  rw [hahead, hrest]
  simp only [List.append_assoc]

theorem SaidSecretly.transmitted (h : SaidSecretly crypto keystream keys prior w) :
    Transmitted crypto keystream (some keys) prior w := by
  obtain ⟨plain, bytes, middle, hcarries, hother, hsaid⟩ := h
  exact transmitted_of_keyed hcarries hother hsaid.partly

theorem HeardSecretly.understood (h : HeardSecretly crypto keystream keys ahead w) :
    Understood crypto keystream (some keys) ahead w := by
  obtain ⟨plain, bytes, rest, middle, hcarries, hahead, hheard⟩ := h
  exact understood_of_keyed hcarries hahead hheard.partly

theorem upholds_saidSecretly (working : Working crypto keystream) {x : Exec Wire α}
    {rights : Rights} (kept : rights.keys = false) (h : WireCall crypto rights α x) :
    Upholds (SaidSecretly crypto keystream keys prior)
      (fun _ => Transmitted crypto keystream (some keys) prior) x := by
  rintro w ⟨plain, bytes, middle, hcarries, hother, hsaid⟩
  refine (upholds_said working kept h w hsaid).mono ?_ ?_
  · intro _ t ht
    exact ⟨plain, bytes, middle, hcarries, hother, ht⟩
  · intro _ t ht
    exact transmitted_of_keyed hcarries hother ht

theorem upholds_heardSecretly (working : Working crypto keystream) {x : Exec Wire α}
    {rights : Rights} (kept : rights.keys = false) (h : WireCall crypto rights α x) :
    Upholds (HeardSecretly crypto keystream keys ahead)
      (fun _ => Understood crypto keystream (some keys) ahead) x := by
  rintro w ⟨plain, bytes, rest, middle, hcarries, hahead, hheard⟩
  refine (upholds_heard working kept h w hheard).mono ?_ ?_
  · intro _ t ht
    exact ⟨plain, bytes, rest, middle, hcarries, hahead, ht⟩
  · intro _ t ht
    exact understood_of_keyed hcarries hahead ht

theorem Unaccepted.append {t : Wire} {events : List Event} (h : Unaccepted w)
    (trace : t.trace = w.trace ++ events) (other : .accepted [Message.newkeys] ∉ events) :
    Unaccepted t := by
  intro hmem
  rw [trace] at hmem
  rcases List.mem_append.mp hmem with hmem | hmem
  · exact h hmem
  · exact other hmem

theorem upholds_unaccepted_send (payload : Bytes) :
    Upholds Unaccepted (fun _ => Unaccepted) (sendPacket crypto payload) := fun _ h =>
  wp_sendPacket (fun _ sending => h.append sending.trace (by simp))
    (fun _ _ sending => h.append sending.trace (by simp))

theorem upholds_unaccepted_receive :
    Upholds Unaccepted (fun _ => Unaccepted) (receivePacket crypto) := fun _ h =>
  wp_receivePacket (fun _ _ received => h.append received.trace (by simp))
    (fun _ _ _ missed => h.append (missed.trace.trans (List.append_nil _).symm) (by simp))

theorem upholds_unaccepted {x : Exec Wire α} {rights : Rights} (kept : rights.keys = false)
    (silent : rights.output = false) (h : WireCall crypto rights α x) :
    Upholds Unaccepted (fun _ => Unaccepted) x := by
  cases h with
  | send payload => exact upholds_unaccepted_send payload
  | receive => exact upholds_unaccepted_receive
  | draw count => exact fun w hw => hw
  | note permitted =>
      intro w hw
      refine hw.append rfl ?_
      intro hmem
      rw [← List.mem_singleton.mp hmem] at permitted
      exact Rights.ne_newkeys_of_notes kept silent permitted rfl
  | enableOutgoing allowed | enableIncoming allowed => exact absurd allowed (by simp [kept])

theorem wp_exchangeNewkeys_said (working : Working crypto keystream) (keys : TransportKeyMaterial)
    (h : Said crypto keystream [] prior ⟨0, none⟩ w) :
    WP (exchangeNewkeys crypto keys) w
      (fun _ t => SaidSecretly crypto keystream (outgoingKeys keys) prior t)
      (fun _ t => Transmitted crypto keystream (some (outgoingKeys keys)) prior t) := by
  rw [exchangeNewkeys, WP.bind_iff]
  refine (wp_sendPacket_said working _ h).mono ?_ (fun _ _ ht => ht.transmitted)
  rintro _ t ⟨payloads, bytes, line, hcarries, hother, f, hpayload, hsent, hwritten, hline⟩
  rw [WP.bind_iff]
  refine wp_enableEncryption working ?_
  have hsecretly : SaidSecretly crypto keystream (outgoingKeys keys) prior
      { t with transport := { t.transport with
          outgoingCipher := some { key := keys.encryptionKeyCs, iv := keys.ivCs }
          outgoingMacKey := keys.macKeyCs
          outgoingEncryptionActive := true } } := by
    refine ⟨payloads, _, _, hpayload ▸ hcarries.snoc f, hother, [], [], _, .nil,
      List.not_mem_nil, ?_, ?_, ?_⟩
    · rw [List.append_nil]
      exact hsent
    · rw [List.append_nil]
      exact hwritten
    · rw [sequence_of_outgoing hline]
      rfl
  have hreceive : WireCall crypto {} Bytes (receivePacket crypto) := .receive
  simp only [WP.bind_iff, WP.failIf_iff, wp_record]
  refine (upholds_saidSecretly working rfl hreceive _ hsecretly).mono ?_ (fun _ _ ht => ht)
  intro payload u hu
  refine ⟨fun _ => hu.transmitted, fun _ => ⟨fun _ => hu.transmitted, fun _ => ?_⟩⟩
  obtain ⟨plain, bytes', middle, hcarries', hother', hsaid'⟩ := hu
  refine wp_enableEncryption working ⟨plain, bytes', middle, hcarries', hother', ?_⟩
  exact hsaid'.of_unsaid (sentPayloads_note rfl) rfl rfl

theorem wp_exchangeNewkeys_heard (working : Working crypto keystream) (keys : TransportKeyMaterial)
    (h : Heard crypto keystream [] ahead ⟨0, none⟩ w) (unaccepted : Unaccepted w) :
    WP (exchangeNewkeys crypto keys) w
      (fun _ t => HeardSecretly crypto keystream (incomingKeys keys) ahead t)
      (fun _ t => Understood crypto keystream (some (incomingKeys keys)) ahead t) := by
  rw [exchangeNewkeys, WP.bind_iff]
  refine ((upholds_heard_send [Message.newkeys] w h).and
    (upholds_unaccepted_send _ w unaccepted)).mono ?_ (fun _ _ ht => ht.1.understood ht.2)
  rintro _ t ⟨ht, hunaccepted⟩
  rw [WP.bind_iff]
  refine wp_enableEncryption working ?_
  have hkept : Heard crypto keystream [] ahead ⟨0, none⟩ { t with transport := { t.transport with
      outgoingCipher := some { key := keys.encryptionKeyCs, iv := keys.ivCs }
      outgoingMacKey := keys.macKeyCs
      outgoingEncryptionActive := true } } := ht.of_unheard rfl rfl rfl
  rw [WP.bind_iff]
  refine (((upholds_heard_receive working _ hkept).and
    (upholds_unaccepted_receive _ hunaccepted)).and
    (wp_receivePacket (fun _ _ received => received) (fun _ _ _ _ => trivial))).mono ?_
    (fun _ _ hu => hu.1.1.understood hu.1.2)
  rintro payload u ⟨⟨hheard, hunaccepted'⟩, received⟩
  simp only [WP.bind_iff, WP.failIf_iff, wp_record]
  refine ⟨fun _ => hheard.partly.understood hunaccepted', fun hlength =>
    ⟨fun _ => hheard.partly.understood hunaccepted', fun hhead => ?_⟩⟩
  have hnewkeys : payload = [Message.newkeys] := by
    rw [Decidable.not_not] at hlength hhead
    obtain ⟨byte, rfl⟩ := List.length_eq_one_iff.mp hlength
    rw [List.head?_cons, Option.some.injEq] at hhead
    rw [hhead]
  obtain ⟨payloads, bytes, line, hcarries, hreceived, hahead, hline⟩ := hheard
  obtain rfl : payloads = receivedPayloads t.trace ++ [[Message.newkeys]] := by
    rw [← List.nil_append payloads, ← hreceived, received.trace, receivedPayloads_append, hnewkeys]
    rfl
  refine wp_enableEncryption working ⟨_, bytes, _, line, hcarries, hahead, [], [], _, .nil, ?_,
    rfl, ?_⟩
  · rw [receivedPayloads_note rfl, hreceived, List.append_nil]
    rfl
  · rw [sequence_of_incoming hline]
    rfl

end Keys

/-! ### The keys of a run -/

/-- The keys are those that the key exchange of the run has derived. What it agreed on, with the
server that was asked for, is what the trace begins with. -/
def Agreed (crypto : Crypto) (env : Environment) (keys : TransportKeyMaterial)
    (trace : List Event) : Prop :=
  ∃ config id, Config.parseClientConfig env.arguments = .ok config ∧
    ∃ x : KeyExchange crypto (Environment.hosts env config) (Config.knownHostIdentifier config) id,
      x.transportKeys = keys ∧
      .identified id.client id.server :: x.agreement <+: milestones trace

section Agreement

variable {env : Environment} {keys : TransportKeyMaterial} {α : Type} {rights : Rights}

/-- A trace only grows. -/
theorem Agreed.append {trace : List Event} (h : Agreed crypto env keys trace)
    (events : List Event) : Agreed crypto env keys (trace ++ events) := by
  obtain ⟨config, id, hconfig, x, hkeys, hpassed⟩ := h
  refine ⟨config, id, hconfig, x, hkeys, ?_⟩
  rw [milestones_append]
  exact hpassed.trans (List.prefix_append _ _)

theorem upholds_agreed {x : Exec Wire α} (h : WireCall crypto rights α x) :
    Upholds (fun w => Agreed crypto env keys w.trace) (fun _ w => Agreed crypto env keys w.trace)
      x := by
  intro w hw
  have hgrown : ∀ t : Wire, ∀ events, t.trace = w.trace ++ events →
      Agreed crypto env keys t.trace := by
    intro t events htrace
    rw [htrace]
    exact hw.append events
  cases h with
  | send payload =>
      exact wp_sendPacket (fun t sending => hgrown t _ sending.trace)
        (fun _ t sending => hgrown t _ sending.trace)
  | receive =>
      refine wp_receivePacket (fun payload t received => hgrown t _ received.trace) ?_
      intro _ t _ missed
      exact hgrown t [] (missed.trace.trans (List.append_nil _).symm)
  | draw count => exact hw
  | note => exact hw.append _
  | enableOutgoing | enableIncoming =>
      refine WP.bind_iff.mpr (WP.failIf_iff.mpr ⟨fun _ => hw, fun _ => ?_⟩)
      exact WP.bind_iff.mpr (WP.failIf_iff.mpr ⟨fun _ => hw, fun _ => hw⟩)

end Agreement

/-! ### The whole program -/

/-- The line with which every run introduces itself. -/
def identificationLine : Bytes := ascii "SSH-2.0-ConorSSH_0.1" ++ [carriageReturn, lineFeed]

theorem identification_of_ok {argv : List Bytes} {config : ClientConfig}
    (h : Config.parseClientConfig argv = .ok config) :
    config.identification ++ [13, 10] = identificationLine := by
  obtain ⟨_, _, _, _, _, _, -, -, -, rfl⟩ := Config.parseClientConfig_ok.mp h
  rfl

/-- No packet has been exchanged, and at most the line of the client has been written. -/
structure Unheard (w : Wire) : Prop where
  sent : sentPayloads w.trace = []
  received : receivedPayloads w.trace = []
  written : w.sock.written <+: identificationLine

/-- The server has introduced itself, with `ahead` behind its line. -/
def Greeted (stream ahead : Bytes) : Prop :=
  ∃ line, lineFeed ∉ line ∧ (lineVersion line).take 7 = ascii "SSH-2.0" ∧
    stream = line ++ lineFeed :: ahead

/-- The lines have been exchanged, with `ahead` behind the line of the server. -/
structure Introduced (stream ahead : Bytes) (w : Wire) : Prop where
  sent : sentPayloads w.trace = []
  received : receivedPayloads w.trace = []
  unaccepted : Unaccepted w
  written : w.sock.written = identificationLine
  transport : w.transport = {}
  reads : Socket.stream w.sock.reads = ahead
  greeting : Greeted stream ahead

theorem wp_exchangeIdentification {s : Socket} {clientVersion : Bytes}
    {post : IdentificationExchange → Socket → Prop} {fail : Stop → Socket → Prop}
    (ok : ∀ id line reads writes, lineFeed ∉ line → (lineVersion line).take 7 = ascii "SSH-2.0" →
      Socket.stream s.reads = line ++ lineFeed :: Socket.stream reads →
      post id { s with
        reads := reads
        writes := writes
        written := s.written ++ (clientVersion ++ [13, 10]) })
    (stop : ∀ e reads writes taken, taken <+: clientVersion ++ [13, 10] →
      fail e { s with reads := reads, writes := writes, written := s.written ++ taken }) :
    WP (exchangeIdentification clientVersion) s post fail := by
  have hstop : ∀ e reads, fail e { s with reads := reads } := by
    intro e reads
    have hnothing := stop e reads s.writes [] List.nil_prefix
    rw [List.append_nil] at hnothing
    exact hnothing
  simp only [exchangeIdentification, WP.bind_iff, WP.failIf_iff, WP.pure_iff]
  refine wp_readVersion ?_ (fun e reads _ _ => hstop e reads)
  intro line reads hstream hline
  refine ⟨fun _ => hstop _ reads, fun hversion => ?_⟩
  rw [Decidable.not_not] at hversion
  exact Socket.wp_writeExact (fun writes => ok _ line reads writes hline hversion hstream)
    (fun what writes taken htaken => stop _ reads writes taken htaken)

theorem wp_openConnection_introduced (env : Environment) :
    WP (openConnection env) env.start
      (fun _ t => ∃ ahead, Introduced (Socket.stream env.network.reads) ahead t.wire)
      (fun _ t => Unheard t.wire) := by
  have hstart : Unheard env.start.wire := ⟨rfl, rfl, List.nil_prefix⟩
  simp only [openConnection, WP.bind_iff, WP.lift_iff, WP.failIf_iff]
  refine ⟨fun config hconfig => ⟨fun _ => hstart, fun _ => ?_⟩, fun _ _ => hstart⟩
  cases env.home with
  | none => exact hstart
  | some homeDirectory =>
      simp only [WP.bind_iff, WP.lift_iff, WP.modify_iff, wp_onWire, wp_onSocket, wp_record,
        WP.pure_iff]
      refine ⟨fun sock hsock => ?_, fun _ _ => hstart⟩
      obtain rfl : sock = { reads := env.network.reads, writes := env.network.writes } := by
        obtain ⟨_, -, hsock⟩ := bind_eq_ok.mp hsock
        obtain ⟨_, -, hsock⟩ := bind_eq_ok.mp hsock
        exact pure_eq_ok.mp hsock
      have hidentification := identification_of_ok hconfig
      refine wp_exchangeIdentification ?_ ?_
      · intro id line reads writes hline hversion hstream
        rw [hidentification]
        exact ⟨Socket.stream reads, rfl, rfl, by simp [Unaccepted, Environment.start], rfl, rfl,
          rfl, line, hline, hversion, hstream⟩
      · intro e reads writes taken htaken
        rw [hidentification] at htaken
        exact ⟨rfl, rfl, htaken⟩

/-- Both directions of a run behind the two lines. Where there are keys they are its own. -/
structure Conversation (crypto : Crypto) (keystream : Fixed 32 → Fixed 16 → Nat → UInt8)
    (env : Environment) (keys : Option TransportKeyMaterial) (ahead : Bytes) (w : Wire) :
    Prop where
  agreed : ∀ material, keys = some material → Agreed crypto env material w.trace
  transmitted : Transmitted crypto keystream (keys.map outgoingKeys) identificationLine w
  understood : Understood crypto keystream (keys.map incomingKeys) ahead w

/-- Both directions before their NEWKEYS. -/
structure Clearly (crypto : Crypto) (keystream : Fixed 32 → Fixed 16 → Nat → UInt8)
    (ahead : Bytes) (w : Wire) : Prop where
  said : Said crypto keystream [] identificationLine ⟨0, none⟩ w
  heard : Heard crypto keystream [] ahead ⟨0, none⟩ w
  unaccepted : Unaccepted w

/-- Both directions behind their NEWKEYS. Nothing has been torn. -/
structure Secretly (crypto : Crypto) (keystream : Fixed 32 → Fixed 16 → Nat → UInt8)
    (env : Environment) (keys : TransportKeyMaterial) (ahead : Bytes) (w : Wire) : Prop where
  agreed : Agreed crypto env keys w.trace
  said : SaidSecretly crypto keystream (outgoingKeys keys) identificationLine w
  heard : HeardSecretly crypto keystream (incomingKeys keys) ahead w

section Program

variable {env : Environment} {keys : TransportKeyMaterial} {ahead : Bytes} {α : Type}
variable {allowed : Stop → Prop} {x : Exec World α} {w : World}

theorem Clearly.conversation {wire : Wire} (h : Clearly crypto keystream ahead wire) :
    Conversation crypto keystream env none ahead wire where
  agreed := by simp
  transmitted := h.said.partly.transmitted
  understood := h.heard.partly.understood h.unaccepted

theorem Secretly.conversation {wire : Wire} (h : Secretly crypto keystream env keys ahead wire) :
    Conversation crypto keystream env (some keys) ahead wire where
  agreed := by
    intro material hsome
    rw [← Option.some.inj hsome]
    exact h.agreed
  transmitted := h.said.transmitted
  understood := h.heard.understood

theorem Conversation.report {keys : Option TransportKeyMaterial} {wire : Wire}
    (h : Conversation crypto keystream env keys ahead wire) (text : Bytes) :
    Conversation crypto keystream env keys ahead
      { wire with trace := wire.trace ++ [.printedError text] } := by
  obtain ⟨hagreed, ⟨bytes, line, part, hsent, hwritten⟩,
    ⟨bytes', line', part', hreceived, hkeyed, hread⟩⟩ := h
  have other : (Event.printedError text).ofPacket = false := rfl
  rw [← sentPayloads_note other] at hsent
  rw [← receivedPayloads_note other] at hreceived
  refine ⟨fun material hkeys => (hagreed material hkeys).append _,
    ⟨bytes, line, part, hsent, hwritten⟩, ⟨bytes', line', part', hreceived, ?_, hread⟩⟩
  intro accepted
  refine hkeyed ?_
  simpa using accepted

theorem upholds_clearly (working : Working crypto keystream) (rights : Rights)
    (kept : rights.keys = false) (silent : rights.output = false)
    (h : OnWorld crypto allowed rights x) :
    Upholds (fun t => Clearly crypto keystream ahead t.wire)
      (fun _ t => Conversation crypto keystream env none ahead t.wire) x := by
  refine upholds_onWorld crypto ?_ (fun _ => Clearly.conversation) h
  intro α y hy wire hwire
  refine (((upholds_said working kept hy wire hwire.said).and
    (upholds_heard working kept hy wire hwire.heard)).and
    (upholds_unaccepted kept silent hy wire hwire.unaccepted)).mono ?_ ?_
  · rintro _ t ⟨⟨said, heard⟩, unaccepted⟩
    exact ⟨said, heard, unaccepted⟩
  · rintro _ t ⟨⟨said, heard⟩, unaccepted⟩
    exact ⟨by simp, said.transmitted, heard.understood unaccepted⟩

theorem upholds_secretly (working : Working crypto keystream)
    (rights : Rights) (kept : rights.keys = false) (h : OnWorld crypto allowed rights x) :
    Upholds (fun t => Secretly crypto keystream env keys ahead t.wire)
      (fun _ t => Conversation crypto keystream env (some keys) ahead t.wire) x := by
  refine upholds_onWorld crypto ?_ (fun _ => Secretly.conversation) h
  intro α y hy wire hwire
  refine (((upholds_agreed hy wire hwire.agreed).and
    (upholds_saidSecretly working kept hy wire hwire.said)).and
    (upholds_heardSecretly working kept hy wire hwire.heard)).mono ?_ ?_
  · rintro _ t ⟨⟨agreed, said⟩, heard⟩
    exact ⟨agreed, said, heard⟩
  · rintro _ t ⟨⟨agreed, said⟩, heard⟩
    exact ⟨fun _ hkeys => Option.some.inj hkeys ▸ agreed, said, heard⟩

theorem Introduced.clearly {stream : Bytes} {wire : Wire} (h : Introduced stream ahead wire) :
    Clearly crypto keystream ahead wire := by
  refine ⟨⟨[], [], _, .nil, List.not_mem_nil, h.sent, ?_, ?_⟩,
    ⟨[], [], _, .nil, h.received, h.reads.symm, ?_⟩, h.unaccepted⟩
  · rw [h.written, List.append_nil]
  · rw [h.transport]
    rfl
  · rw [h.transport]
    rfl

-- The proposal of the client is a closed term, and the unifier would evaluate it.
attribute [local irreducible] Client.agreeKeys

/-- The keys of both directions are those of the exchange. -/
theorem wp_performKeyExchange_conversation (working : Working crypto keystream)
    {config : ClientConfig} {id : IdentificationExchange}
    (parsed : Config.parseClientConfig env.arguments = .ok config)
    (hosts : w.hosts = Environment.hosts env config)
    (along : Along (fun _ _ _ => True) script .idle [.identified id.client id.server] unkeyed
      w.wire)
    (h : Clearly crypto keystream ahead w.wire) :
    WP (performKeyExchange crypto id (Config.knownHostIdentifier config)) w
      (fun _ t => ∃ keys, Secretly crypto keystream env keys ahead t.wire)
      (fun _ t => ∃ keys, Conversation crypto keystream env keys ahead t.wire) := by
  have hagreed : WP (agreeKeys crypto id (Config.knownHostIdentifier config)) w
      (fun keys t => Agreed crypto env keys t.wire.trace) (fun _ _ => True) := by
    refine wp_agreeKeys crypto along ?_ (fun _ _ _ => trivial)
    rw [hosts]
    intro x t ht _
    refine ⟨config, id, parsed, x, rfl, ?_⟩
    rw [ht.passing]
    exact List.prefix_refl _
  have hclearly : Upholds (fun t => Clearly crypto keystream ahead t.wire)
      (fun _ t => Conversation crypto keystream env none ahead t.wire)
      (agreeKeys crypto id (Config.knownHostIdentifier config)) :=
    upholds_clearly working { hosts := true } rfl rfl (composed_agreeKeys crypto rfl id _)
  rw [performKeyExchange_eq, WP.bind_iff]
  refine ((hclearly w h).and hagreed).mono ?_ (fun _ _ ht => ⟨none, ht.1⟩)
  rintro keys t ⟨ht, hkeys⟩
  rw [wp_onWire]
  have hcomposed : OnWire crypto Rights.exchange (exchangeNewkeys crypto keys) :=
    composed_exchangeNewkeys crypto rfl keys
  have hgrown : WP (exchangeNewkeys crypto keys) t.wire
      (fun _ u => Agreed crypto env keys u.trace) (fun _ u => Agreed crypto env keys u.trace) :=
    hcomposed.upholds (fun _ _ => upholds_agreed) (fun _ _ _ hu => hu) t.wire hkeys
  refine ((hgrown.and (wp_exchangeNewkeys_said working keys ht.said)).and
    (wp_exchangeNewkeys_heard working keys ht.heard ht.unaccepted)).mono ?_ ?_
  · rintro _ u ⟨⟨agreed, said⟩, heard⟩
    exact ⟨keys, agreed, said, heard⟩
  · rintro _ u ⟨⟨agreed, said⟩, heard⟩
    exact ⟨some keys, fun _ hsome => Option.some.inj hsome ▸ agreed, said, heard⟩

end Program

attribute [local irreducible] Client.performKeyExchange

/-- What a run leaves on the wire. -/
def Accounted (crypto : Crypto) (keystream : Fixed 32 → Fixed 16 → Nat → UInt8)
    (env : Environment) (w : Wire) : Prop :=
  Unheard w ∨ ∃ ahead keys, Greeted (Socket.stream env.network.reads) ahead ∧
    Conversation crypto keystream env keys ahead w

/-- What a run that returns leaves: whole packets in both directions, of which those behind
NEWKEYS are under its keys. -/
def Settled (crypto : Crypto) (keystream : Fixed 32 → Fixed 16 → Nat → UInt8)
    (env : Environment) (w : Wire) : Prop :=
  ∃ ahead keys, Greeted (Socket.stream env.network.reads) ahead ∧
    Secretly crypto keystream env keys ahead w

section Main

variable {env : Environment} {w : Wire}

theorem Settled.accounted (h : Settled crypto keystream env w) :
    Accounted crypto keystream env w := by
  obtain ⟨ahead, keys, greeted, secretly⟩ := h
  exact .inr ⟨ahead, some keys, greeted, secretly.conversation⟩

theorem Accounted.report (h : Accounted crypto keystream env w) (text : Bytes) :
    Accounted crypto keystream env { w with trace := w.trace ++ [.printedError text] } := by
  rcases h with ⟨hsent, hreceived, hwritten⟩ | ⟨ahead, keys, greeted, h⟩
  · refine .inl ⟨?_, ?_, hwritten⟩
    · exact (sentPayloads_note rfl).trans hsent
    · exact (receivedPayloads_note rfl).trans hreceived
  · exact .inr ⟨ahead, keys, greeted, h.report text⟩

theorem wp_session_accounted (working : Working crypto keystream) (env : Environment) :
    WP (session crypto env) env.start (fun _ t => Settled crypto keystream env t.wire)
      (fun _ t => Accounted crypto keystream env t.wire) := by
  have hopened : WP (openConnection env) env.start (fun connection t =>
      Config.parseClientConfig env.arguments = .ok connection.1 ∧
        t.hosts = Environment.hosts env connection.1 ∧
        Along (fun _ _ _ => True) script .idle
          [.identified connection.2.client connection.2.server] unkeyed t.wire)
      (fun _ _ => True) :=
    wp_openConnection (fun _ _ _ parsed hosts along => ⟨parsed, hosts, along⟩)
      (fun _ _ _ => trivial)
  rw [session_eq, WP.bind_iff]
  refine ((wp_openConnection_introduced env).and hopened).mono ?_ (fun _ _ ht => .inl ht.1)
  rintro connection w ⟨⟨ahead, introduced⟩, parsed, hosts, along⟩
  have haccounted : ∀ keys wire, Conversation crypto keystream env keys ahead wire →
      Accounted crypto keystream env wire :=
    fun keys wire h => .inr ⟨ahead, keys, introduced.greeting, h⟩
  rw [WP.bind_iff]
  refine (wp_performKeyExchange_conversation working parsed hosts along
    introduced.clearly).mono ?_ ?_
  · rintro _ t ⟨keys, ht⟩
    refine wp_withTerminal (P := Secretly crypto keystream env keys ahead)
      (Q := Conversation crypto keystream env (some keys) ahead) ?_
      (fun _ => Secretly.conversation) (fun u hu => ⟨ahead, keys, introduced.greeting, hu⟩)
      (fun _ u hu => haccounted _ _ hu)
    intro console
    rw [WP.bind_iff]
    refine (upholds_secretly working {} rfl (composed_authenticateUser crypto {} _)
      { t with console := console } ht).mono ?_ (fun _ _ hu => hu)
    intro _ u hu
    exact upholds_secretly working .session rfl (composed_runConnectionSession crypto rfl rfl _)
      u hu
  · rintro _ t ⟨keys, ht⟩
    exact haccounted keys _ ht

theorem accounted_of_main (working : Working crypto keystream) (env : Environment) :
    Accounted crypto keystream env (outcome (main crypto env)).wire :=
  outcome_main crypto (P := fun w => Accounted crypto keystream env w.wire)
    ((wp_session_accounted working env).mono (fun _ _ h => h.accounted) (fun _ _ h => h))
    (fun _ text h => h.report text)

theorem settled_of_main (working : Working crypto keystream) {t : World}
    (run : main crypto env = .ok 0 t) : Settled crypto keystream env t.wire := by
  have hsession := wp_session_accounted working env
  unfold main at run
  cases hrun : (session crypto env).run env.start with
  | ok _ u =>
      rw [hrun] at run
      cases run
      exact hsession.of_ok hrun
  | error e u =>
      rw [hrun] at run
      cases e <;> cases run

end Main

end SshClient.Program

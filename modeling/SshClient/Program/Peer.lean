import SshClient.Program.Conversation

/-!
# What the peer receives

A peer with the receiving half of this transport that installs the keys of the run's own
key exchange where NEWKEYS says so gets back what the run has sent, however its bytes are
cut into pieces on the way. The run may have ended anywhere: what it had begun to write when
it stopped is left unread.
-/

namespace SshClient.Program

open Control Client Transport Protocol

variable {crypto : Crypto} {keystream : Fixed 32 → Fixed 16 → Nat → UInt8}

/-- A peer that receives a number of packets, and behind NEWKEYS installs the keys for the
packets of the client. -/
def peerReceives (crypto : Crypto) (keys : TransportKeyMaterial) : Nat → Exec Wire (List Bytes)
  | 0 => pure []
  | count + 1 => do
      let earlier ← peerReceives crypto keys count
      let payload ← receivePacket crypto
      if payload = [Message.newkeys] then
        enableIncomingEncryption crypto keys.ivCs keys.encryptionKeyCs keys.macKeyCs
      return earlier ++ [payload]

/-- The peer has received these payloads, is on this line, and has the rest before it. -/
structure Received (crypto : Crypto) (keys : TransportKeyMaterial) (r : Wire)
    (payloads : List Bytes) (line : Line) (rest : Bytes) (t : Wire) : Prop where
  run : (peerReceives crypto keys payloads.length).run r = .ok payloads t
  line : incoming t.transport = some line
  stream : Socket.stream t.sock.reads = rest
  flowing : Socket.Flowing t.sock.reads

section Peer

variable {keys : TransportKeyMaterial} {r t : Wire} {payloads : List Bytes} {line : Line}
variable {rest : Bytes}

theorem received_none (hline : incoming r.transport = some line)
    (flowing : Socket.Flowing r.sock.reads) (hstream : Socket.stream r.sock.reads = rest) :
    Received crypto keys r [] line rest r := ⟨rfl, hline, hstream, flowing⟩

/-- A packet that does not change the keys. -/
theorem Received.next (working : Working crypto keystream) {f : Frame line.block}
    (h : Received crypto keys r payloads line
      (image crypto keystream line f.bytes ++ rest) t)
    (other : f.payload ≠ [Message.newkeys]) :
    ∃ u, Received crypto keys r (payloads ++ [f.payload]) (line.next f.bytes.length)
      rest u := by
  obtain ⟨u, hreceive, hrest, hflow, hline⟩ :=
    receivePacket_of_image working Socket.serves_flowing h.flowing h.line f h.stream
  refine ⟨u, ?_, hline, hrest, hflow⟩
  rw [List.length_append, List.length_singleton, peerReceives, EStateM.run_bind, h.run]
  dsimp only
  rw [EStateM.run_bind, hreceive]
  dsimp only
  rw [if_neg other]
  rfl

/-- NEWKEYS itself is received under the old keys. -/
theorem Received.newkeys (working : Working crypto keystream) {f : Frame line.block}
    (h : Received crypto keys r payloads line
      (image crypto keystream line f.bytes ++ rest) t)
    (newkeys : f.payload = [Message.newkeys]) :
    ∃ u, Received crypto keys r (payloads ++ [f.payload])
      ⟨(line.next f.bytes.length).sequence, some (outgoingKeys keys)⟩ rest u := by
  obtain ⟨u, hreceive, hrest, hflow, hline⟩ :=
    receivePacket_of_image working Socket.serves_flowing h.flowing h.line f h.stream
  obtain ⟨v, henable, hsock, hkeyed⟩ := enableIncomingEncryption_run working hline keys.ivCs
    keys.encryptionKeyCs keys.macKeyCs
  rw [← hsock] at hrest hflow
  refine ⟨v, ?_, hkeyed, hrest, hflow⟩
  rw [List.length_append, List.length_singleton, peerReceives, EStateM.run_bind, h.run]
  dsimp only
  rw [EStateM.run_bind, hreceive]
  dsimp only
  rw [if_pos newkeys, EStateM.run_bind, henable]
  rfl

/-- A sequence of such packets. -/
theorem Received.carries (working : Working crypto keystream) {start : Line} {later : List Bytes}
    {bytes : Bytes} (carries : Carries crypto keystream start later bytes line)
    (h : Received crypto keys r payloads start (bytes ++ rest) t)
    (other : Unannounced later) :
    ∃ u, Received crypto keys r (payloads ++ later) line rest u := by
  induction carries generalizing rest with
  | nil =>
      rw [List.append_nil]
      exact ⟨t, h⟩
  | snoc _ f ih =>
      rw [List.append_assoc] at h
      have hother : Unannounced _ := fun hmem => other (List.mem_append_left _ hmem)
      obtain ⟨u, hu⟩ := ih h hother
      have hlast : f.payload ≠ [Message.newkeys] := by
        intro hnewkeys
        exact other (List.mem_append_right _ (List.mem_singleton.mpr hnewkeys.symm))
      obtain ⟨v, hv⟩ := hu.next working hlast
      rw [List.append_assoc] at hv
      exact ⟨v, hv⟩

end Peer

/-- A peer with these keys to which the bytes and then `rest` arrive in any pieces receives
these payloads, and leaves the rest. -/
def Reaches (crypto : Crypto) (keys : TransportKeyMaterial) (payloads : List Bytes)
    (bytes : Bytes) : Prop :=
  ∀ (r : Wire) (rest : Bytes), r.transport = {} → Socket.Flowing r.sock.reads →
    Socket.stream r.sock.reads = bytes ++ rest →
    ∃ t, (peerReceives crypto keys payloads.length).run r = .ok payloads t ∧
      Socket.stream t.sock.reads = rest

section Reaching

variable {keys : TransportKeyMaterial} {payloads : List Bytes} {bytes : Bytes}

theorem incoming_of_fresh {r : Wire} (fresh : r.transport = {}) :
    incoming r.transport = some ⟨0, none⟩ := by
  rw [fresh]
  rfl

/-- In the clear the keys do not matter. -/
theorem reaches_of_carries (working : Working crypto keystream) {line : Line}
    (h : Carries crypto keystream ⟨0, none⟩ payloads bytes line) (other : Unannounced payloads) :
    Reaches crypto keys payloads bytes := by
  intro r rest fresh flowing hstream
  obtain ⟨t, ht⟩ :=
    (received_none (incoming_of_fresh fresh) flowing hstream).carries working h other
  exact ⟨t, ht.run, ht.stream⟩

/-- Behind its NEWKEYS the direction is for the peer with the keys. -/
theorem Transmission.reaches (working : Working crypto keystream)
    {keys : Option TransportKeyMaterial} {line : Line}
    (h : Transmission crypto keystream Unannounced (keys.map outgoingKeys) payloads bytes line) :
    (Unannounced payloads ∧ ∀ material, Reaches crypto material payloads bytes) ∨
      ∃ material, keys = some material ∧ Reaches crypto material payloads bytes := by
  generalize hkeys : keys.map outgoingKeys = installed at h
  cases h with
  | clear h other => exact .inl ⟨other, fun _ => reaches_of_carries working h other⟩
  | @keyed _ plain secret inClear inSecret middle line h h' other other' =>
      obtain ⟨material, rfl, rfl⟩ := Option.map_eq_some_iff.mp hkeys
      refine .inr ⟨material, rfl, ?_⟩
      intro r rest fresh flowing hstream
      rw [List.append_assoc] at hstream
      generalize hplain : plain ++ [[Message.newkeys]] = before at h
      cases h with
      | nil => exact absurd hplain (List.concat_ne_nil _ _)
      | snoc h f =>
          obtain ⟨rfl, hnewkeys⟩ := List.append_inj' hplain rfl
          rw [List.append_assoc] at hstream
          obtain ⟨t, ht⟩ :=
            (received_none (incoming_of_fresh fresh) flowing hstream).carries working h other
          obtain ⟨u, hu⟩ := ht.newkeys working (List.singleton_inj.mp hnewkeys).symm
          obtain ⟨v, hv⟩ := hu.carries working h' other'
          rw [List.nil_append] at hv
          exact ⟨v, hv.run, hv.stream⟩

end Reaching

/-- What a run has sent can be received. Behind the line of the client stand the bytes of the
payloads that `sendPacket` has returned from, and at most a part of one more packet. While
NEWKEYS is not among the payloads every peer gets them, and after that the peer with the keys
that the key exchange of the run has derived. -/
def Delivered (crypto : Crypto) (keystream : Fixed 32 → Fixed 16 → Nat → UInt8)
    (env : Environment) (w : Wire) : Prop :=
  (sentPayloads w.trace = [] ∧ w.sock.written <+: identificationLine) ∨
    ∃ bytes part, w.sock.written = identificationLine ++ bytes ++ part ∧
      (part = [] ∨ ∃ line, ∃ f : Frame line.block, part <+: image crypto keystream line f.bytes) ∧
      ((Unannounced (sentPayloads w.trace) ∧
          ∀ keys, Reaches crypto keys (sentPayloads w.trace) bytes) ∨
        ∃ keys, Agreed crypto env keys w.trace ∧
          Reaches crypto keys (sentPayloads w.trace) bytes)

theorem Accounted.delivered (working : Working crypto keystream) {env : Environment} {w : Wire}
    (h : Accounted crypto keystream env w) : Delivered crypto keystream env w := by
  rcases h with ⟨hsent, -, hwritten⟩ | ⟨ahead, keys, -, hconversation⟩
  · exact .inl ⟨hsent, hwritten⟩
  · obtain ⟨bytes, line, part, htransmission, hwritten, hpart⟩ := hconversation.transmitted
    refine .inr ⟨bytes, part, hwritten, hpart.imp_right fun hpart => ⟨line, hpart⟩, ?_⟩
    rcases htransmission.reaches working with hclear | ⟨material, hkeys, hreaches⟩
    · exact .inl hclear
    · exact .inr ⟨material, hconversation.agreed material hkeys, hreaches⟩

/-- Whatever becomes of a run, the payloads that it has sent reach the peer with its keys, in
their order. -/
theorem main_reaches_peer (working : Working crypto keystream) (env : Environment) :
    Delivered crypto keystream env (outcome (main crypto env)).wire :=
  (accounted_of_main working env).delivered working

/-- A run that returns has changed its keys. -/
theorem Settled.announced {env : Environment} {w : Wire} (h : Settled crypto keystream env w) :
    [Message.newkeys] ∈ sentPayloads w.trace := by
  obtain ⟨ahead, keys, -, secretly⟩ := h
  obtain ⟨plain, bytes, middle, -, -, payloads, _, _, -, -, hsent, -⟩ := secretly.said
  rw [hsent]
  simp

/-- The peer of the visit gets what was sent in the clear and what was sent under the keys. -/
theorem main_reaches_peer_visit :
    ∃ t, main visitCrypto visit = .ok 0 t ∧ [Message.newkeys] ∈ sentPayloads t.wire.trace ∧
      Delivered visitCrypto visitKeystream visit t.wire := by
  obtain ⟨t, hrun⟩ := main_visit
  refine ⟨t, hrun, (settled_of_main working_visitCrypto hrun).announced, ?_⟩
  have hdelivered := main_reaches_peer working_visitCrypto visit
  rw [hrun] at hdelivered
  exact hdelivered

end SshClient.Program

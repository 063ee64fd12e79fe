import SshClient.Socket.Schedule
import SshClient.Transport.Basic
import SshClient.Control.Simulation

/-!
# Packets under any schedule

Two wires that differ only in how the bytes of the peer are cut into results of `read`
behave alike: every call on them returns the same or throws the same, and they differ in
nothing else afterwards. So the packets that are received do not depend on the schedule.
-/

namespace SshClient.Transport

open Control

/-- The same socket, with its bytes cut in another way. -/
def SameSocket (s s' : Socket) : Prop :=
  ∃ reads, s' = { s with reads := reads } ∧ Socket.SameBytes s.reads reads

/-- The same wire on such a socket. -/
def SameWire (w w' : Wire) : Prop :=
  ∃ sock, w' = { w with sock := sock } ∧ SameSocket w.sock sock

theorem simulates_readExact (len : Nat) :
    Simulates SameSocket (Socket.readExact len) (Socket.readExact len) := by
  rintro s _ ⟨reads, rfl, hsame⟩
  obtain ⟨hresult, hrest⟩ := hsame.readLoop len
  simp only [Socket.readExact, EStateM.run]
  cases h : Socket.readLoop s.reads len with
  | mk result left =>
      cases h' : Socket.readLoop reads len with
      | mk result' left' =>
          rw [h, h'] at hresult hrest
          cases hresult
          cases result with
          | ok bytes => exact ⟨rfl, left', rfl, hrest⟩
          | error e => exact ⟨rfl, left', rfl, hrest⟩

theorem simulates_writeExact (bytes : Bytes) :
    Simulates SameSocket (Socket.writeExact bytes) (Socket.writeExact bytes) := by
  rintro s _ ⟨reads, rfl, hsame⟩
  simp only [Socket.writeExact, EStateM.run]
  cases Socket.writeLoop s.writes bytes with
  | mk result left =>
      cases result with
      | ok _ => exact ⟨rfl, reads, rfl, hsame⟩
      | error e => exact ⟨rfl, reads, rfl, hsame⟩

theorem simulates_onSocket {α : Type} {x : Exec Socket α} (h : Simulates SameSocket x x) :
    Simulates SameWire (onSocket x) (onSocket x) := by
  refine Simulates.focus h ?_ ?_
  · rintro w _ ⟨sock, rfl, hsock⟩
    exact hsock
  · rintro w _ u v ⟨sock, rfl, -⟩ huv
    exact ⟨v, rfl, huv⟩

section Machine

variable {σ τ : Type} {R : σ → τ → Prop}

theorem simulates_sizeSub (a b : Nat) : Simulates R (sizeSub a b) (sizeSub a b) := by
  unfold sizeSub
  exact .ite (.pure _) (.throw _)

theorem simulates_byteAt (bytes : Bytes) (i : Nat) :
    Simulates R (byteAt bytes i) (byteAt bytes i) := by
  unfold byteAt
  split
  · exact .pure _
  · exact .throw _

theorem simulates_copyRange (bytes : Bytes) (start count : Nat) :
    Simulates R (copyRange bytes start count) (copyRange bytes start count) := by
  unfold copyRange
  exact .ite (.pure _) (.throw _)

end Machine

/-- A change that leaves the socket alone. -/
theorem simulates_modify {f : Wire → Wire}
    (h : ∀ w sock, f { w with sock := sock } = { f w with sock := sock })
    (hsock : ∀ w, (f w).sock = w.sock) :
    Simulates SameWire (modify f : Exec Wire PUnit) (modify f) := by
  refine .modify ?_
  rintro w _ ⟨sock, rfl, hsame⟩
  exact ⟨sock, h w sock, (hsock w).symm ▸ hsame⟩

theorem simulates_record (event : Event) : Simulates SameWire (record event) (record event) :=
  simulates_modify (fun _ _ => rfl) (fun _ => rfl)

theorem simulates_cipherUpdate {texts : CipherTexts} {active : Transport → Bool}
    {cipher : Transport → Option Cipher} {install : Transport → Cipher → Transport}
    {update : Cipher → Bytes → Option Bytes} (bytes : Bytes) :
    Simulates SameWire (cipherUpdate texts active cipher install update bytes)
      (cipherUpdate texts active cipher install update bytes) := by
  unfold cipherUpdate
  refine .bind_get ?_
  rintro w _ ⟨sock, rfl, hsame⟩
  refine .bind (.failIf _) fun _ => ?_
  dsimp only
  split
  · exact .throw _
  · refine .bind (.failIf _) fun _ => ?_
    split
    · exact .throw _
    · exact .bind (.set ⟨sock, rfl, hsame⟩) fun _ => .bind (.failIf _) fun _ => .pure _

theorem simulates_extractPayload (packetLength : UInt32) (paddingLength : UInt8) (body : Bytes)
    (start : Nat) :
    Simulates SameWire (extractPayload packetLength paddingLength body start)
      (extractPayload packetLength paddingLength body start) := by
  unfold extractPayload
  refine .bind (.lift _) fun _ => ?_
  refine .bind (simulates_sizeSub _ _) fun _ => ?_
  refine .bind (simulates_sizeSub _ _) fun _ => ?_
  refine .bind (simulates_copyRange _ _ _) fun _ => ?_
  exact .bind (simulates_modify (fun _ _ => rfl) (fun _ => rfl)) fun _ => .pure _

theorem simulates_receivePlaintext : Simulates SameWire receivePlaintext receivePlaintext := by
  unfold receivePlaintext
  refine .bind_get ?_
  rintro w _ ⟨sock, rfl, -⟩
  refine .bind (simulates_onSocket (simulates_readExact _)) fun _ => ?_
  refine .bind (.lift _) fun _ => ?_
  refine .bind (simulates_onSocket (simulates_readExact _)) fun _ => ?_
  exact .bind (simulates_byteAt _ _) fun _ => simulates_extractPayload _ _ _ _

theorem simulates_receiveEncrypted (crypto : Crypto) :
    Simulates SameWire (receiveEncrypted crypto) (receiveEncrypted crypto) := by
  unfold receiveEncrypted
  refine .bind_get ?_
  rintro w _ ⟨sock, rfl, -⟩
  refine .bind (simulates_onSocket (simulates_readExact _)) fun _ => ?_
  refine .bind (simulates_cipherUpdate _) fun _ => ?_
  refine .bind (simulates_copyRange _ _ _) fun _ => ?_
  refine .bind (.lift _) fun _ => ?_
  refine .bind (simulates_sizeSub _ _) fun _ => ?_
  refine .bind (simulates_onSocket (simulates_readExact _)) fun _ => ?_
  refine .bind (simulates_cipherUpdate _) fun _ => ?_
  refine .bind (.failIf _) fun _ => ?_
  refine .bind (simulates_onSocket (simulates_readExact _)) fun _ => ?_
  refine .bind (.lift _) fun _ => ?_
  refine .bind (.failIf _) fun _ => ?_
  refine .bind (simulates_modify (fun _ _ => rfl) (fun _ => rfl)) fun _ => ?_
  exact .bind (simulates_byteAt _ _) fun _ => simulates_extractPayload _ _ _ _

theorem simulates_receivePacket (crypto : Crypto) :
    Simulates SameWire (receivePacket crypto) (receivePacket crypto) := by
  unfold receivePacket
  refine .bind_get ?_
  rintro w _ ⟨sock, rfl, -⟩
  dsimp only
  split
  · exact .bind simulates_receivePlaintext fun _ => .bind (simulates_record _) fun _ => .pure _
  · exact .bind (simulates_receiveEncrypted crypto) fun _ =>
      .bind (simulates_record _) fun _ => .pure _

theorem simulates_randombytesBuf (count : Nat) :
    Simulates SameWire (randombytesBuf count) (randombytesBuf count) := by
  unfold randombytesBuf
  refine .bind_get ?_
  rintro w _ ⟨sock, rfl, hsame⟩
  exact .bind (.set ⟨sock, rfl, hsame⟩) fun _ => .pure _

theorem simulates_sendPacket (crypto : Crypto) (payload : Bytes) :
    Simulates SameWire (sendPacket crypto payload) (sendPacket crypto payload) := by
  have hsent : Simulates SameWire
      (do
        modify fun w => { w with transport :=
          { w.transport with outgoingSequence := w.transport.outgoingSequence + 1 } }
        record (.sent payload))
      (do
        modify fun w => { w with transport :=
          { w.transport with outgoingSequence := w.transport.outgoingSequence + 1 } }
        record (.sent payload)) :=
    .bind (simulates_modify (fun _ _ => rfl) (fun _ => rfl)) fun _ => simulates_record _
  unfold sendPacket
  refine .bind_get ?_
  rintro w _ ⟨sock, rfl, -⟩
  refine .bind (simulates_record _) fun _ => ?_
  refine .bind (.lift _) fun _ => ?_
  refine .bind (simulates_randombytesBuf _) fun _ => ?_
  refine .bind (.failIf _) fun _ => ?_
  refine .ite ?_ ?_
  · refine .bind (.lift _) fun _ => ?_
    refine .bind (simulates_modify (fun _ _ => rfl) (fun _ => rfl)) fun _ => ?_
    refine .bind (simulates_cipherUpdate _) fun _ => ?_
    exact .bind (simulates_onSocket (simulates_writeExact _)) fun _ => hsent
  · exact .bind (simulates_onSocket (simulates_writeExact _)) fun _ => hsent

theorem simulates_enableEncryption (crypto : Crypto) (direction : Direction)
    (install : Transport → Cipher → Fixed 32 → Transport) (iv : Fixed 16)
    (encryptionKey macKey : Fixed 32) :
    Simulates SameWire (enableEncryption crypto direction install iv encryptionKey macKey)
      (enableEncryption crypto direction install iv encryptionKey macKey) := by
  unfold enableEncryption
  refine .bind (.failIf _) fun _ => .bind (.failIf _) fun _ => ?_
  exact simulates_modify (fun _ _ => rfl) (fun _ => rfl)

/-! ### Sequences of calls -/

/-- The calls that are made on a transport. -/
inductive Call where
  | receive
  | send (payload : Bytes)
  | enableIncoming (iv : Fixed 16) (encryptionKey macKey : Fixed 32)
  | enableOutgoing (iv : Fixed 16) (encryptionKey macKey : Fixed 32)

/-- One call, with the payload that it returns. -/
def perform (crypto : Crypto) : Call → Exec Wire (Option Bytes)
  | .receive => do return some (← receivePacket crypto)
  | .send payload => do
      sendPacket crypto payload
      return none
  | .enableIncoming iv encryptionKey macKey => do
      enableIncomingEncryption crypto iv encryptionKey macKey
      return none
  | .enableOutgoing iv encryptionKey macKey => do
      enableOutgoingEncryption crypto iv encryptionKey macKey
      return none

/-- What each of the calls returns or throws, one after the other. -/
def results (crypto : Crypto) : List Call → Wire → List (Except Stop (Option Bytes))
  | [], _ => []
  | call :: calls, w =>
      match (perform crypto call).run w with
      | .ok result t => .ok result :: results crypto calls t
      | .error e t => .error e :: results crypto calls t

theorem simulates_perform (crypto : Crypto) (call : Call) :
    Simulates SameWire (perform crypto call) (perform crypto call) := by
  cases call with
  | receive => exact .bind (simulates_receivePacket crypto) fun _ => .pure _
  | send payload => exact .bind (simulates_sendPacket crypto payload) fun _ => .pure _
  | enableIncoming iv encryptionKey macKey =>
      exact .bind (simulates_enableEncryption crypto _ _ _ _ _) fun _ => .pure _
  | enableOutgoing iv encryptionKey macKey =>
      exact .bind (simulates_enableEncryption crypto _ _ _ _ _) fun _ => .pure _

theorem results_eq (crypto : Crypto) (calls : List Call) {w w' : Wire} (h : SameWire w w') :
    results crypto calls w = results crypto calls w' := by
  induction calls generalizing w w' with
  | nil => rfl
  | cons call calls ih =>
      have hsame := simulates_perform crypto call w w' h
      rw [results, results]
      cases hw : (perform crypto call).run w <;> cases hw' : (perform crypto call).run w' <;>
        rw [hw, hw'] at hsame
      · rw [hsame.1]
        exact congrArg _ (ih hsame.2)
      · exact hsame.elim
      · exact hsame.elim
      · rw [hsame.1]
        exact congrArg _ (ih hsame.2)

/-- `readExact` and `writeExact` are their loops, and move exactly the bytes they were asked
for, in order, under every schedule that neither ends nor fails before, and report one that
does. Two schedules of the same bytes give the same results to all calls on a transport. -/
theorem exact_io_any_schedule (crypto : Crypto) :
    (∀ (s : Socket) (dst : Bytes), (Socket.readExact dst.length).run s =
      Socket.afterReads s (Socket.readRounds dst.length 0 dst s.reads)) ∧
    (∀ (s : Socket) (src : Bytes), (Socket.writeExact src).run s =
      Socket.afterWrites s (Socket.writeRounds src 0 s.writes [])) ∧
    (∀ (s : Socket) (len : Nat) (front back : List ReadResult), Socket.Flowing front →
      (len ≤ (Socket.stream front).length → ∃ left,
        (Socket.readExact len).run { s with reads := front ++ back } =
            .ok ((Socket.stream front).take len) { s with reads := left ++ back } ∧
          Socket.stream left = (Socket.stream front).drop len ∧ Socket.Flowing left) ∧
      ((Socket.stream front).length < len →
        (∀ rest, back = .returned [] :: rest → ∃ t,
          (Socket.readExact len).run { s with reads := front ++ back } =
            .error (error "Connection closed") t) ∧
        ∀ what rest, back = .failed what :: rest → ∃ t,
          (Socket.readExact len).run { s with reads := front ++ back } =
            .error (.thrown what) t)) ∧
    (∀ (s : Socket) (src : Bytes) (front back : List WriteResult), Socket.Lossless front →
      (src.length ≤ Socket.capacity front ∨ back = [] → ∃ left,
        (Socket.writeExact src).run { s with writes := front ++ back } =
            .ok () { s with writes := left ++ back, written := s.written ++ src } ∧
          Socket.Lossless left) ∧
      (Socket.capacity front < src.length →
        (∀ rest, back = .accepted 0 :: rest →
          (Socket.writeExact src).run { s with writes := front ++ back } =
            .error (error "Write returned zero") { s with
              writes := rest
              written := s.written ++ src.take (Socket.capacity front) }) ∧
        ∀ what rest, back = .failed what :: rest →
          (Socket.writeExact src).run { s with writes := front ++ back } =
            .error (.thrown what) { s with
              writes := rest
              written := s.written ++ src.take (Socket.capacity front) })) ∧
    ∀ (w : Wire) (front front' back : List ReadResult) (calls : List Call),
      Socket.Flowing front → Socket.Flowing front' →
      Socket.stream front = Socket.stream front' →
      results crypto calls { w with sock := { w.sock with reads := front ++ back } } =
        results crypto calls { w with sock := { w.sock with reads := front' ++ back } } := by
  refine ⟨fun s dst => Socket.readExact_eq_readRounds rfl s,
    fun s src => Socket.writeExact_eq_writeRounds src s,
    fun s len front back flowing => Socket.readExact_any_schedule s len flowing back,
    fun s src front back lossless => Socket.writeExact_any_schedule s src lossless back, ?_⟩
  intro w front front' back calls flowing flowing' hstream
  exact results_eq crypto calls ⟨_, rfl, _, rfl, front, front', back, rfl, rfl, flowing,
    flowing', hstream⟩

end SshClient.Transport

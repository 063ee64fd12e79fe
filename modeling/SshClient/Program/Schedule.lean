import SshClient.Program.Alike
import SshClient.Protocol.Program

/-!
# The program under any schedule

How the bytes of the server are cut into results of `read` decides nothing. Two runs of
the program in which the same bytes arrive in different pieces have the same exit code,
the same trace, write the same bytes, and leave the same known-hosts file and terminal.
-/

namespace SshClient.Program

open Control Client Transport

theorem unnoticed_sameWire (crypto : Crypto) (rights : Rights) :
    Unnoticed crypto rights SameWire where
  transport := by
    rintro w _ ⟨sock, rfl, -⟩
    rfl
  stream := by
    rintro w _ ⟨_, rfl, reads, rfl, front, front', back, hreads, rfl, -, -, hstream⟩
    rw [hreads, Socket.stream_append, Socket.stream_append, hstream]
  calls := by
    intro α x h
    cases h with
    | send payload => exact simulates_sendPacket crypto payload
    | receive => exact simulates_receivePacket crypto
    | draw count => exact simulates_randombytesBuf count
    | note other => exact simulates_record _
    | enableOutgoing => exact simulates_enableEncryption crypto _ _ _ _ _
    | enableIncoming => exact simulates_enableEncryption crypto _ _ _ _ _

theorem simulates_readVersion : Simulates SameSocket readVersion readVersion := by
  refine .bind_get ?_
  rintro s _ ⟨reads, rfl, hsame⟩
  obtain ⟨front, front', back, hreads, hreads', -, -, hstream⟩ := hsame
  have hrounds : Socket.stream reads = Socket.stream s.reads := by
    rw [hreads, hreads', Socket.stream_append, Socket.stream_append, hstream]
  dsimp only
  rw [hrounds]
  refine .iterate (fun version => ?_) _ _
  refine .bind (simulates_readExact 1) fun bytes => .bind (simulates_byteAt _ _) fun byte => ?_
  exact .ite (.pure _) (.ite (.pure _) (.pure _))

theorem simulates_exchangeIdentification (clientVersion : Bytes) :
    Simulates SameSocket (exchangeIdentification clientVersion)
      (exchangeIdentification clientVersion) :=
  .bind simulates_readVersion fun _ => .bind (.failIf _) fun _ =>
    .bind (simulates_writeExact _) fun _ => .pure _

/-- The same environment, with a server whose bytes arrive in other pieces. -/
def rescheduled (env : Environment) (reads : List ReadResult) : Environment :=
  { env with network := { env.network with reads := reads } }

/-- The connection is made in both environments or in neither. -/
theorem connected_rescheduled (env : Environment) (reads : List ReadResult) (host : Bytes)
    (port : UInt16) :
    (∃ e, Socket.connected env.network host port = .error e ∧
      Socket.connected (rescheduled env reads).network host port = .error e) ∨
    (Socket.connected env.network host port =
        .ok { reads := env.network.reads, writes := env.network.writes } ∧
      Socket.connected (rescheduled env reads).network host port =
        .ok { reads := reads, writes := env.network.writes }) := by
  have hcreate : Socket.create (rescheduled env reads).network = Socket.create env.network := rfl
  have hconnect : Socket.connect (rescheduled env reads).network host port =
      Socket.connect env.network host port := rfl
  unfold Socket.connected
  rw [hcreate, hconnect]
  by_cases hcreated : (!Socket.create env.network) = true
  · rw [failIf, if_pos hcreated]
    exact .inl ⟨_, rfl, rfl⟩
  · rw [failIf, if_neg hcreated]
    by_cases hconnected : (!Socket.connect env.network host port) = true
    · rw [failIf, if_pos hconnected]
      exact .inl ⟨_, rfl, rfl⟩
    · rw [failIf, if_neg hconnected]
      exact .inr ⟨rfl, rfl⟩

theorem simulates_openConnection (env : Environment) {reads : List ReadResult}
    (same : Socket.SameBytes env.network.reads reads) :
    Simulates (Alike SameWire) (Protocol.openConnection env)
      (Protocol.openConnection (rescheduled env reads)) := by
  refine .bind (.lift _) fun config => .bind (.failIf _) fun _ => ?_
  have hhome : (rescheduled env reads).home = env.home := rfl
  rw [hhome]
  cases env.home with
  | none => exact .throw _
  | some homeDirectory =>
      refine .bind (.modify ?_) fun _ => ?_
      · rintro w _ ⟨wire, rfl, related⟩
        exact ⟨wire, rfl, related⟩
      · rcases connected_rescheduled env reads config.hostname config.port with
          ⟨e, herror, herror'⟩ | ⟨hsock, hsock'⟩
        · rw [herror, herror']
          exact .throw e
        · simp only [hsock, hsock', lift, pure_bind]
          refine .bind (.modify ?_) fun _ => ?_
          · rintro w _ ⟨_, rfl, sock, rfl, -⟩
            exact ⟨_, rfl, _, rfl, reads, rfl, same⟩
          · refine .bind (simulates_onWire ?_) fun id => ?_
            · exact simulates_onSocket (simulates_exchangeIdentification _)
            · exact .bind (simulates_onWire (simulates_record _)) fun _ => .pure _

variable (crypto : Crypto)

-- The proposal of the client is a closed term, and the unifier would evaluate it.
attribute [local irreducible] Client.performKeyExchange

theorem simulates_session (env : Environment) {reads : List ReadResult}
    (same : Socket.SameBytes env.network.reads reads) :
    Simulates (Alike SameWire) (session crypto env) (session crypto (rescheduled env reads)) := by
  have hexchange : ∀ id hostname, Simulates (Alike SameWire)
      (performKeyExchange crypto id hostname) (performKeyExchange crypto id hostname) := by
    intro id hostname
    exact simulates_onWorld (unnoticed_sameWire crypto .exchange)
      (composed_performKeyExchange crypto rfl rfl id hostname)
  have hauthenticate : ∀ username, Simulates (Alike SameWire)
      (authenticateUser crypto username) (authenticateUser crypto username) := by
    intro username
    exact simulates_onWorld (unnoticed_sameWire crypto {})
      (composed_authenticateUser crypto {} username)
  have hsession : Simulates (Alike SameWire) (runConnectionSession crypto env.display)
      (runConnectionSession crypto env.display) :=
    simulates_onWorld (unnoticed_sameWire crypto .session)
      (composed_runConnectionSession crypto rfl rfl env.display)
  rw [Protocol.session_eq, Protocol.session_eq]
  refine .bind (simulates_openConnection env same) fun connection => ?_
  refine .bind (hexchange _ _) fun _ => simulates_withTerminal ?_
  exact .bind (hauthenticate _) fun _ => hsession

/-- The program ends in the same way, with the same trace, bytes, file and terminal, however
the bytes of the server are cut into pieces and however often a call is interrupted. -/
theorem main_any_schedule (env : Environment) {reads : List ReadResult}
    (same : Socket.SameBytes env.network.reads reads) :
    MatchingResult (Alike SameWire) (main crypto env) (main crypto (rescheduled env reads)) := by
  have hstart : Alike SameWire env.start (rescheduled env reads).start :=
    ⟨env.start.wire, rfl, _, rfl, _, rfl, .refl _⟩
  have hsession := simulates_session crypto env same _ _ hstart
  have hreport : ∀ what, Simulates (Alike SameWire)
      (do printError (ascii "Error: " ++ what ++ ascii "\n"); return 1 : Exec World Nat)
      (do printError (ascii "Error: " ++ what ++ ascii "\n"); return 1 : Exec World Nat) := by
    intro what
    exact .bind (simulates_onWire (simulates_record _)) fun _ => .pure _
  unfold main
  cases hrun : (session crypto env).run env.start <;>
    cases hrun' : (session crypto (rescheduled env reads)).run (rescheduled env reads).start <;>
    rw [hrun, hrun'] at hsession
  case ok.ok => exact ⟨rfl, hsession.2⟩
  case ok.error => exact hsession.elim
  case error.ok => exact hsession.elim
  case error.error e t e' t' =>
      obtain ⟨rfl, hrelated⟩ := hsession
      cases e with
      | thrown what => exact hreport what _ _ hrelated
      | blocked => exact ⟨rfl, hrelated⟩
      | fault => exact ⟨rfl, hrelated⟩

/-- A result of `read` that brings bytes or is tried again. -/
def flows : ReadResult → Bool
  | .returned chunk => !chunk.isEmpty
  | .interrupted => true
  | .failed _ => false

/-- Everything in one piece, after an interrupted call. -/
def wholly (script : List ReadResult) : List ReadResult :=
  [.interrupted, .returned (Socket.stream script)]

theorem sameBytes_wholly {script : List ReadResult} (h : script.all flows = true)
    (nonempty : Socket.stream script ≠ []) : Socket.SameBytes script (wholly script) := by
  refine ⟨script, wholly script, [], (List.append_nil _).symm, (List.append_nil _).symm, ?_, ?_,
    (List.append_nil _).symm⟩
  · intro result member
    have hresult := List.all_eq_true.mp h result member
    cases result with
    | returned chunk =>
        refine .inr ⟨chunk, rfl, ?_⟩
        rintro rfl
        cases hresult
    | interrupted => exact .inl rfl
    | failed what => cases hresult
  · intro result member
    rcases List.mem_cons.mp member with rfl | member
    · exact .inl rfl
    · rw [List.mem_singleton.mp member]
      exact .inr ⟨_, rfl, nonempty⟩

theorem main_any_schedule_sample :
    MatchingResult (Alike SameWire) (main Protocol.sampleCrypto Protocol.sampleEnvironment)
      (main Protocol.sampleCrypto (rescheduled Protocol.sampleEnvironment
        (wholly Protocol.sampleEnvironment.network.reads))) := by
  have hflows : Protocol.sampleEnvironment.network.reads.all flows = true := by decide +kernel
  have hnonempty : Socket.stream Protocol.sampleEnvironment.network.reads ≠ [] := by
    decide +kernel
  have same := sameBytes_wholly hflows hnonempty
  -- The two runs are closed terms, which the unifier would evaluate.
  generalize Protocol.sampleEnvironment = env at same ⊢
  exact main_any_schedule Protocol.sampleCrypto env same

end SshClient.Program

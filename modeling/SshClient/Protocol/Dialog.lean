import SshClient.Protocol.Order
import Mathlib.Computability.Language

/-!
# Both sides of a run

What the client says and what it hears, in the order in which it happens, is the beginning
of a word of a regular language. The language is put together from turns: a global request
with the reply that it may ask for, a piece of output with the window that is given back for
it, and the two closes at the end. Nothing comes between the parts of a turn.
-/

namespace SshClient.Protocol

open Control Client Connection Transport Computability

/-- One message, as its type. -/
inductive Utterance where
  | tells (number : UInt8)
  | hears (number : UInt8)
  deriving DecidableEq

/-! ### The language -/

/-- One of finitely many turns. -/
def turn (words : List (List Utterance)) : Language Utterance := { word | word ∈ words }

/-- A global request, without or with its reply. -/
def globalTurns : List (List Utterance) :=
  [[.hears Message.globalRequest], [.hears Message.globalRequest, .tells Message.requestFailure]]

/-- While a channel request is waited for. -/
def waitingTurns : List (List Utterance) := [.hears Message.channelWindowAdjust] :: globalTurns

/-- In the shell, up to the close. -/
def shellTurns : List (List Utterance) :=
  waitingTurns ++
    [[.tells Message.channelData], [.hears Message.channelData],
      [.hears Message.channelData, .tells Message.channelWindowAdjust],
      [.hears Message.channelExtendedData],
      [.hears Message.channelExtendedData, .tells Message.channelWindowAdjust],
      [.hears Message.channelEof], [.hears Message.channelRequest]]

def shellDialog : Language Utterance :=
  (turn shellTurns)∗ * {[.hears Message.channelClose, .tells Message.channelClose]}

/-- So many channel requests, each with the success that answers it, and the shell. -/
def requestsDialog : Nat → Language Utterance
  | 0 => shellDialog
  | count + 1 => {[.tells Message.channelRequest]} *
      ((turn waitingTurns)∗ * ({[.hears Message.channelSuccess]} * requestsDialog count))

/-- A channel request has been made, and there are more to come. -/
def waitingDialog (count : Nat) : Language Utterance :=
  (turn waitingTurns)∗ * ({[.hears Message.channelSuccess]} * requestsDialog count)

def openingDialog : Language Utterance :=
  (turn globalTurns)∗ * ({[.hears Message.channelOpenConfirmation]} * requestsDialog 2)

def connectionDialog : Language Utterance := {[.tells Message.channelOpen]} * openingDialog

def handshakeDialog : List Utterance :=
  [.tells Message.kexinit, .hears Message.kexinit, .tells Message.kexEcdhInit,
    .hears Message.kexEcdhReply, .tells Message.newkeys, .hears Message.newkeys,
    .tells Message.serviceRequest, .hears Message.serviceAccept, .tells Message.userauthRequest,
    .hears Message.userauthFailure, .tells Message.userauthRequest, .hears Message.userauthSuccess]

/-- A whole run. -/
def protocolDialog : Language Utterance := {handshakeDialog} * connectionDialog

section Words

variable {words : List (List Utterance)} {L : Language Utterance} {word front : List Utterance}
variable {u : Utterance}

theorem append_mem_word (front : List Utterance) (h : word ∈ L) :
    front ++ word ∈ ({front} : Language Utterance) * L := Language.append_mem_mul rfl h

theorem cons_mem_word (h : word ∈ L) : u :: word ∈ ({[u]} : Language Utterance) * L :=
  append_mem_word [u] h

theorem word_cons {rest : List Utterance} (h : word ∈ ({rest} : Language Utterance) * L) :
    u :: word ∈ ({u :: rest} : Language Utterance) * L := by
  obtain ⟨_, rfl, more, hmore, rfl⟩ := Language.mem_mul.mp h
  exact append_mem_word (_ :: _) hmore

theorem exists_of_mem_word (h : word ∈ ({front} : Language Utterance) * L) :
    ∃ rest ∈ L, word = front ++ rest := by
  obtain ⟨_, rfl, rest, hrest, rfl⟩ := Language.mem_mul.mp h
  exact ⟨rest, hrest, rfl⟩

theorem mem_turns (h : word ∈ L) : word ∈ (turn words)∗ * L :=
  Language.mem_mul.mpr ⟨[], Language.nil_mem_kstar _, word, h, rfl⟩

/-- A turn in front of turns. -/
theorem turn_append (first : front ∈ words) (h : word ∈ (turn words)∗ * L) :
    front ++ word ∈ (turn words)∗ * L := by
  obtain ⟨turns, hturns, rest, hrest, rfl⟩ := Language.mem_mul.mp h
  obtain ⟨parts, rfl, hparts⟩ := Language.mem_kstar.mp hturns
  refine Language.mem_mul.mpr ⟨front ++ parts.flatten, ?_, rest, hrest, List.append_assoc ..⟩
  exact Language.mem_kstar.mpr ⟨front :: parts, rfl, List.forall_mem_cons.mpr ⟨first, hparts⟩⟩

theorem turn_cons (first : [u] ∈ words) (h : word ∈ (turn words)∗ * L) :
    u :: word ∈ (turn words)∗ * L := turn_append first h

/-- A turn of which the second part is already there. -/
theorem turn_cons_cons {v : Utterance} (first : [u, v] ∈ words)
    (h : word ∈ ({[v]} : Language Utterance) * ((turn words)∗ * L)) :
    u :: word ∈ (turn words)∗ * L := by
  obtain ⟨rest, hrest, rfl⟩ := exists_of_mem_word h
  exact turn_append first hrest

end Words

/-! ### What remains -/

def Label.utterance : Label → Option Utterance
  | .send number => some (.tells number)
  | .receive => none
  | .accept number => some (.hears number)

def Event.utterance : Event → Option Utterance
  | .sending _ payload => some (.tells (payload.headD 0))
  | .accepted payload => some (.hears (payload.headD 0))
  | _ => none

/-- What is said and heard, in order. -/
def dialogOf (l : List Event) : List Utterance := l.filterMap Event.utterance

theorem dialogOf_append (l m : List Event) : dialogOf (l ++ m) = dialogOf l ++ dialogOf m :=
  List.filterMap_append

/-- What has been begun comes first. -/
def Duty.before (duty : Duty) (L : Language Utterance) : Language Utterance :=
  match duty with
  | .idle | .judge _ => L
  | .reply => {[.tells Message.requestFailure]} * L
  | .send _ => {[.tells Message.channelData]} * L
  | .deliver _ | .deliverError _ => L + {[.tells Message.channelWindowAdjust]} * L
  | .refill => {[.tells Message.channelWindowAdjust]} * L
  | .close => {[.tells Message.channelClose]}

/-- The words that complete a run from this state. -/
def Remaining (s : State) : Language Utterance :=
  match s.stage with
  | .scripted rest => {rest.filterMap Label.utterance} * connectionDialog
  | .opening => s.duty.before openingDialog
  | .requesting count => requestsDialog count
  | .waiting count => s.duty.before (waitingDialog count)
  | .shell => s.duty.before shellDialog
  | .closing | .closed | .reported => 1

/-- What a stage says and hears while it listens. -/
def Stage.dialog : Stage → Language Utterance
  | .opening => openingDialog
  | .waiting count => waitingDialog count
  | _ => shellDialog

/-- A reply is owed only while the client listens. -/
def Replying (s : State) : Prop := s.duty = .reply → s.stage.listening = true

section Steps

variable {s s' : State} {e : Event} {l : List Event} {word : List Utterance}

theorem remaining_of_listening (h : s.stage.listening = true) :
    Remaining s = s.duty.before s.stage.dialog := by
  unfold Remaining
  cases hstage : s.stage with
  | opening | waiting count | shell => rfl
  | _ =>
      rw [hstage] at h
      cases h

theorem remaining_of_shell (stage : s.stage = .shell) :
    Remaining s = s.duty.before shellDialog := by
  unfold Remaining
  rw [stage]

/-- The same, about the state behind a step. -/
theorem listening_of_remaining (h : word ∈ Remaining s) (listening : s.stage.listening = true) :
    word ∈ s.duty.before s.stage.dialog := by
  rw [remaining_of_listening listening] at h
  exact h

theorem shell_of_remaining (h : word ∈ Remaining s) (stage : s.stage = .shell) :
    word ∈ s.duty.before shellDialog := by
  rw [remaining_of_shell stage] at h
  exact h

/-- Global requests are heard wherever the client listens. -/
theorem Stage.global_append {stage : Stage} (h : stage.listening = true) (front : List Utterance)
    (first : front ∈ globalTurns) (hword : word ∈ stage.dialog) : front ++ word ∈ stage.dialog := by
  cases stage with
  | opening => exact turn_append first hword
  | waiting count => exact turn_append (List.mem_cons_of_mem _ first) hword
  | shell => exact turn_append (List.mem_append_left _ (List.mem_cons_of_mem _ first)) hword
  | _ => cases h

theorem Stage.adjust_cons {stage : Stage} (h : stage.adjusting = true)
    (hword : word ∈ stage.dialog) :
    .hears Message.channelWindowAdjust :: word ∈ stage.dialog := by
  cases stage with
  | waiting count => exact turn_cons (by decide) hword
  | shell => exact turn_cons (by decide) hword
  | _ => cases h

theorem Step.replying (step : Step s e s') (h : Replying s) : Replying s' := by
  unfold Replying at h ⊢
  cases step with
  | sent | quiet | head => exact h
  | global stage duty =>
      intro _
      exact stage
  | wroteStdout duty | wroteStderr duty =>
      intro hreply
      unfold State.windowed at hreply
      split at hreply <;> cases hreply
  | send _ idle | openChannel _ idle | request _ idle | sentClose _ idle | report _ idle =>
      intro hreply
      exact absurd (idle.symm.trans hreply) nofun
  | _ => exact nofun

theorem dialogOf_quiet (quiet : Event.quiet e = true) : dialogOf [e] = [] := by
  cases e <;> first | rfl | cases quiet

theorem dialogOf_sending {t : Transport} {payload : Bytes} {number : UInt8}
    (head : payload.head? = some number) : dialogOf [.sending t payload] = [.tells number] := by
  simp only [dialogOf, List.filterMap_cons, Event.utterance, List.filterMap_nil,
    List.headD_eq_head?_getD, head, Option.getD_some]

theorem dialogOf_accepted {payload : Bytes} {number : UInt8}
    (head : payload.head? = some number) : dialogOf [.accepted payload] = [.hears number] := by
  simp only [dialogOf, List.filterMap_cons, Event.utterance, List.filterMap_nil,
    List.headD_eq_head?_getD, head, Option.getD_some]

/-- A message that is heard in the shell and changes nothing about what remains. -/
theorem shell_hears {payload : Bytes} (number : UInt8) (stage : s.stage = .shell)
    (duty : s.duty = .judge payload) (first : [.hears number] ∈ shellTurns)
    (h : word ∈ shellDialog) : .hears number :: word ∈ Remaining s := by
  rw [remaining_of_shell stage, duty]
  exact turn_cons first h

/-- A piece of output, with the window that may be given back for it. -/
theorem shell_output {payload : Bytes} (number : UInt8) (stage : s.stage = .shell)
    (duty : s.duty = .judge payload) (first : [.hears number] ∈ shellTurns)
    (second : [.hears number, .tells Message.channelWindowAdjust] ∈ shellTurns)
    (h : word ∈ shellDialog + {[.tells Message.channelWindowAdjust]} * shellDialog) :
    .hears number :: word ∈ Remaining s := by
  rw [remaining_of_shell stage, duty]
  rcases (Language.mem_add _ _ _).mp h with h | h
  · exact turn_cons first h
  · exact turn_cons_cons second h

theorem windowed_remaining (stage : s.stage = .shell) (h : word ∈ Remaining s.windowed) :
    word ∈ shellDialog + {[.tells Message.channelWindowAdjust]} * shellDialog := by
  have hshell := shell_of_remaining h stage
  unfold State.windowed at hshell
  dsimp only at hshell
  split at hshell
  · exact (Language.mem_add _ _ _).mpr (.inr hshell)
  · exact (Language.mem_add _ _ _).mpr (.inl hshell)

/-- What may follow behind a step may follow its message in front of it. -/
theorem Step.remaining (step : Step s e s') (sound : Sound s) (replying : Replying s)
    (h : word ∈ Remaining s') : dialogOf [e] ++ word ∈ Remaining s := by
  cases step with
  | sent | head => exact h
  | quiet _ quiet =>
      rw [dialogOf_quiet quiet]
      exact h
  | send stage idle aligned head =>
      rw [dialogOf_sending head]
      unfold Remaining
      rw [stage]
      exact word_cons h
  | receive stage =>
      unfold Remaining
      rw [stage]
      exact h
  | accept stage duty head =>
      rw [dialogOf_accepted head]
      unfold Remaining
      rw [stage]
      exact word_cons h
  | openChannel stage idle aligned head =>
      have hopening : word ∈ s.duty.before openingDialog := h
      rw [idle] at hopening
      rw [dialogOf_sending head]
      unfold Remaining
      rw [stage]
      exact append_mem_word [] (cons_mem_word hopening)
  | listen listening idle =>
      have hdialog := listening_of_remaining h listening
      rw [remaining_of_listening listening, idle]
      exact hdialog
  | confirmation stage duty =>
      unfold Remaining
      rw [stage, duty]
      exact mem_turns (cons_mem_word h)
  | global listening duty =>
      have hdialog := listening_of_remaining h listening
      rw [remaining_of_listening listening, duty]
      dsimp only at hdialog
      split at hdialog
      · obtain ⟨rest, hrest, rfl⟩ := exists_of_mem_word hdialog
        exact Stage.global_append listening [.hears Message.globalRequest, _] (by decide) hrest
      · exact Stage.global_append listening [.hears Message.globalRequest] (by decide) hdialog
  | reply duty =>
      have listening := replying duty
      have hdialog := listening_of_remaining h listening
      rw [remaining_of_listening listening, duty]
      exact cons_mem_word hdialog
  | request stage idle aligned head =>
      have hwaiting : word ∈ s.duty.before (waitingDialog _) := h
      rw [idle] at hwaiting
      rw [dialogOf_sending head]
      unfold Remaining
      rw [stage]
      exact cons_mem_word hwaiting
  | success stage duty =>
      rename_i count
      unfold Remaining
      rw [stage, duty]
      apply mem_turns
      apply cons_mem_word
      cases count with
      | zero => exact h
      | succ count => exact h
  | adjust adjusting duty =>
      have listening := Stage.listening_of_adjusting adjusting
      have hdialog := listening_of_remaining h listening
      rw [remaining_of_listening listening, duty]
      exact Stage.adjust_cons adjusting hdialog
  | typed stage idle =>
      have hshell := shell_of_remaining h stage
      obtain ⟨rest, hrest, rfl⟩ := exists_of_mem_word hshell
      rw [remaining_of_shell stage, idle]
      exact turn_cons (by decide) hrest
  | sendTyped duty =>
      have stage : s.stage = .shell := sound.interactive (by rw [duty]; rfl)
      have hshell := shell_of_remaining h stage
      rw [remaining_of_shell stage, duty]
      exact cons_mem_word hshell
  | data stage duty =>
      have hshell := shell_of_remaining h stage
      exact shell_output Message.channelData stage duty (by decide) (by decide) hshell
  | extendedData stage duty =>
      have hshell := shell_of_remaining h stage
      exact shell_output Message.channelExtendedData stage duty (by decide) (by decide) hshell
  | wroteStdout duty | wroteStderr duty =>
      have stage : s.stage = .shell := sound.interactive (by rw [duty]; rfl)
      rw [remaining_of_shell stage, duty]
      exact windowed_remaining stage h
  | refill duty =>
      have stage : s.stage = .shell := sound.interactive (by rw [duty]; rfl)
      have hshell := shell_of_remaining h stage
      rw [remaining_of_shell stage, duty]
      exact cons_mem_word hshell
  | eof stage duty =>
      have hshell := shell_of_remaining h stage
      exact shell_hears Message.channelEof stage duty (by decide) hshell
  | exitStatus stage duty =>
      have hshell := shell_of_remaining h stage
      exact shell_hears Message.channelRequest stage duty (by decide) hshell
  | close stage duty =>
      obtain rfl : word = [.tells Message.channelClose] := shell_of_remaining h stage
      rw [remaining_of_shell stage, duty]
      exact mem_turns rfl
  | sendClose duty =>
      have stage : s.stage = .shell := sound.interactive (by rw [duty]; rfl)
      obtain rfl : word = [] := h
      rw [remaining_of_shell stage, duty]
      rfl
  | sentClose stage | report stage =>
      unfold Remaining
      rw [stage]
      exact h

/-- What has been said and heard, followed by anything that may still come. -/
theorem protocolDialog_of_run (run : Run Step State.initial l s) (h : word ∈ Remaining s) :
    dialogOf l ++ word ∈ protocolDialog := by
  have hinv : (Sound s ∧ Replying s) ∧
      ∀ word ∈ Remaining s, dialogOf l ++ word ∈ protocolDialog := by
    refine run.invariant (fun l s => (Sound s ∧ Replying s) ∧
      ∀ word ∈ Remaining s, dialogOf l ++ word ∈ protocolDialog) ⟨⟨sound_initial, nofun⟩, ?_⟩ ?_
    · intro word h
      exact h
    · intro l s e s' h step
      obtain ⟨⟨sound, replying⟩, hdialog⟩ := h
      refine ⟨⟨step.sound sound, step.replying replying⟩, ?_⟩
      intro word hword
      rw [dialogOf_append, List.append_assoc]
      exact hdialog _ (step.remaining sound replying hword)
  exact hinv.2 word h

end Steps

/-! ### Every run can be completed -/

theorem exists_shellDialog : ∃ word, word ∈ shellDialog := ⟨_, mem_turns rfl⟩

theorem exists_requestsDialog (count : Nat) : ∃ word, word ∈ requestsDialog count := by
  induction count with
  | zero => exact exists_shellDialog
  | succ count ih =>
      obtain ⟨word, h⟩ := ih
      exact ⟨_, cons_mem_word (mem_turns (cons_mem_word h))⟩

theorem exists_waitingDialog (count : Nat) : ∃ word, word ∈ waitingDialog count := by
  obtain ⟨word, h⟩ := exists_requestsDialog count
  exact ⟨_, mem_turns (cons_mem_word h)⟩

theorem exists_openingDialog : ∃ word, word ∈ openingDialog := by
  obtain ⟨word, h⟩ := exists_requestsDialog 2
  exact ⟨_, mem_turns (cons_mem_word h)⟩

theorem Duty.exists_before (duty : Duty) {L : Language Utterance} (h : ∃ word, word ∈ L) :
    ∃ word, word ∈ duty.before L := by
  obtain ⟨word, h⟩ := h
  cases duty with
  | idle | judge => exact ⟨_, h⟩
  | reply | send | refill => exact ⟨_, cons_mem_word h⟩
  | deliver | deliverError => exact ⟨_, (Language.mem_add _ _ _).mpr (.inl h)⟩
  | close => exact ⟨_, rfl⟩

theorem exists_remaining (s : State) : ∃ word, word ∈ Remaining s := by
  unfold Remaining
  cases s.stage with
  | scripted rest =>
      obtain ⟨word, h⟩ := exists_openingDialog
      exact ⟨_, append_mem_word _ (cons_mem_word h)⟩
  | opening => exact s.duty.exists_before exists_openingDialog
  | requesting count => exact exists_requestsDialog count
  | waiting count => exact s.duty.exists_before (exists_waitingDialog count)
  | shell => exact s.duty.exists_before exists_shellDialog
  | closing | closed | reported => exact ⟨[], rfl⟩

/-! ### The program -/

theorem dialogOf_tail {tail : List Event}
    (h : tail = [] ∨ ∃ text, tail = [.printedError text]) : dialogOf tail = [] := by
  obtain rfl | ⟨text, rfl⟩ := h
  · rfl
  · rfl

/-- What any run of the program says and hears is the beginning of a word of the protocol,
and all of one when the exit code is 0. -/
theorem main_dialog (crypto : Crypto) (env : Environment) :
    (∃ rest, dialogOf (outcome (main crypto env)).wire.trace ++ rest ∈ protocolDialog) ∧
    ∀ t, main crypto env = .ok 0 t → dialogOf t.wire.trace ∈ protocolDialog := by
  have hmain : Guarded (fun _ _ _ => True) (outcome (main crypto env)).wire.trace ∧ _ :=
    main_follows crypto fun _ _ _ _ _ _ _ _ => trivial
  obtain ⟨-, run, s, tail, htrace, htail, hrun, hend⟩ := hmain
  have hdialog : dialogOf (outcome (main crypto env)).wire.trace = dialogOf run := by
    rw [htrace, dialogOf_append, dialogOf_tail htail, List.append_nil]
  refine ⟨?_, ?_⟩
  · obtain ⟨word, hword⟩ := exists_remaining s
    rw [hdialog]
    exact ⟨word, protocolDialog_of_run hrun hword⟩
  · intro t ht
    have hremaining : [] ∈ Remaining s := by
      unfold Remaining
      obtain hstage | hstage := (hend t ht).2
      · rw [hstage]
        rfl
      · rw [hstage]
        rfl
    have hword := protocolDialog_of_run hrun hremaining
    rw [List.append_nil, ← hdialog, ht] at hword
    exact hword

theorem main_dialog_sample :
    ∃ t, main sampleCrypto sampleEnvironment = .ok 0 t ∧
      dialogOf t.wire.trace ∈ protocolDialog := by
  have hcode : exitCode (main sampleCrypto sampleEnvironment) = some 0 := by
    decide +kernel
  obtain ⟨t, ht⟩ := exists_of_exitCode hcode
  exact ⟨t, ht, (main_dialog sampleCrypto sampleEnvironment).2 t ht⟩

end SshClient.Protocol

import SshClient.Basic
import Mathlib.Data.List.Basic

/-!
# Blocking reads and writes of exact lengths

The operating system is a script of results, one for each system call. A read of
`readExact` may be short, interrupted, at the end of the stream or failing, and so may
a write, except that its zero result is an error of its own. A script with no entry
left is a call that has not completed: the read blocks, while a write is accepted.

`stream` forgets how the bytes are cut into results. Above this module a socket is read
only through it.
-/

namespace SshClient

open Control

/-- One result of `read(2)`. An empty chunk is the end of the stream. -/
inductive ReadResult where
  | returned (chunk : Bytes)
  | interrupted
  | failed (what : Bytes)
  deriving DecidableEq, Repr

/-- One result of `write(2)`, which takes no more than it is offered. -/
inductive WriteResult where
  | accepted (count : Nat)
  | interrupted
  | failed (what : Bytes)
  deriving DecidableEq, Repr

structure Socket where
  reads : List ReadResult := []
  writes : List WriteResult := []
  written : Bytes := []
  deriving DecidableEq, Repr

/-- What the system answers while a socket is being set up. -/
structure Network where
  createSucceeds : Bool := true
  resolves : Bytes → UInt16 → Bool := fun _ _ => true
  connects : Bytes → UInt16 → Bool := fun _ _ => true
  reads : List ReadResult := []
  writes : List WriteResult := []

namespace Socket

def create (network : Network) : Bool := network.createSucceeds

def connect (network : Network) (host : Bytes) (port : UInt16) : Bool :=
  if !network.resolves host port then false else network.connects host port

/-- The constructor of the socket. -/
def connected (network : Network) (host : Bytes) (port : UInt16) : Except Stop Socket := do
  failIf (!create network) (error "Failed to create socket")
  failIf (!connect network host port) (Stop.thrown (ascii "Failed to connect to " ++ host))
  return { reads := network.reads, writes := network.writes }

/-- The rounds of `readExact` that still need bytes, with the script they leave. The
end of the stream stays at the head of the script. -/
def readLoop : List ReadResult → Nat → Except Stop Bytes × List ReadResult
  | script, 0 => (.ok [], script)
  | [], _ + 1 => (.error .blocked, [])
  | .interrupted :: rest, need + 1 => readLoop rest (need + 1)
  | .failed what :: rest, _ + 1 => (.error (.thrown what), rest)
  | .returned chunk :: rest, need + 1 =>
      if chunk = [] then (.error (error "Connection closed"), .returned chunk :: rest)
      else if chunk.length ≤ need + 1 then
        let result := readLoop rest (need + 1 - chunk.length)
        (result.1.map (chunk ++ ·), result.2)
      else (.ok (chunk.take (need + 1)), .returned (chunk.drop (need + 1)) :: rest)

def readExact (len : Nat) : Exec Socket Bytes := fun s =>
  match readLoop s.reads len with
  | (.ok bytes, reads) => .ok bytes { s with reads := reads }
  | (.error e, reads) => .error e { s with reads := reads }

/-- The rounds of `writeExact`, with the script they leave and the bytes taken. -/
def writeLoop : List WriteResult → Bytes → Except Stop Unit × List WriteResult × Bytes
  | script, [] => (.ok (), script, [])
  | [], byte :: bytes => (.ok (), [], byte :: bytes)
  | .interrupted :: rest, byte :: bytes => writeLoop rest (byte :: bytes)
  | .failed what :: rest, _ :: _ => (.error (.thrown what), rest, [])
  | .accepted 0 :: rest, _ :: _ => (.error (error "Write returned zero"), rest, [])
  | .accepted (count + 1) :: rest, byte :: bytes =>
      let result := writeLoop rest (bytes.drop count)
      (result.1, result.2.1, byte :: bytes.take count ++ result.2.2)

def writeExact (bytes : Bytes) : Exec Socket Unit := fun s =>
  match writeLoop s.writes bytes with
  | (.ok _, writes, taken) => .ok () { s with writes := writes, written := s.written ++ taken }
  | (.error e, writes, taken) =>
      .error e { s with writes := writes, written := s.written ++ taken }

/-- The bytes of a read script in order. -/
def stream : List ReadResult → Bytes
  | [] => []
  | .returned chunk :: rest => chunk ++ stream rest
  | .interrupted :: rest => stream rest
  | .failed _ :: rest => stream rest

/-- Every pending read delivers something or is retried. -/
def Flowing (script : List ReadResult) : Prop :=
  ∀ result ∈ script, result = .interrupted ∨ ∃ chunk, result = .returned chunk ∧ chunk ≠ []

/-- No pending write fails. -/
def Lossless (script : List WriteResult) : Prop :=
  ∀ result ∈ script, result = .interrupted ∨ ∃ count, result = .accepted (count + 1)

/-! ### Reading -/

/-- Whatever the outcome of a read, the bytes that are left are a suffix of the
stream, and a result is exactly what stands before them. -/
theorem readLoop_stream (script : List ReadResult) (need : Nat) :
    (∀ bytes, (readLoop script need).1 = .ok bytes →
      bytes.length = need ∧ stream script = bytes ++ stream (readLoop script need).2) ∧
    (∀ e, (readLoop script need).1 = .error e →
      e ≠ .fault ∧ stream (readLoop script need).2 <:+ stream script) := by
  fun_induction readLoop script need with
  | case1 script => simp
  | case2 need => simp
  | case3 rest need ih => simpa [stream] using ih
  | case4 what rest need => simp [stream]
  | case5 rest need => simp [error]
  | case6 chunk rest need hne hle result ih =>
      obtain ⟨ihok, iherr⟩ := ih
      constructor
      · intro bytes h
        cases hr : result.1 with
        | ok tail =>
            obtain ⟨hlen, hstream⟩ := ihok tail hr
            rw [hr] at h
            cases h
            constructor
            · rw [List.length_append, hlen]
              omega
            · rw [stream, hstream, List.append_assoc]
        | error e =>
            rw [hr] at h
            cases h
      · intro e h
        cases hr : result.1 with
        | ok tail =>
            rw [hr] at h
            cases h
        | error e' =>
            rw [hr] at h
            cases h
            obtain ⟨hfault, hsuffix⟩ := iherr e hr
            exact ⟨hfault, hsuffix.trans (List.suffix_append _ _)⟩
  | case7 chunk rest need hne hlt =>
      constructor
      · intro bytes h
        cases h
        constructor
        · rw [List.length_take]
          omega
        · rw [stream, stream, ← List.append_assoc, List.take_append_drop]
      · intro e h
        cases h

/-- Whatever the outcome of a read, it takes at most what it needs, and it waits only when
the script has nothing left. -/
theorem readLoop_taken (script : List ReadResult) (need : Nat) :
    (∃ part, stream script = part ++ stream (readLoop script need).2 ∧ part.length ≤ need) ∧
      ((readLoop script need).1 = .error .blocked → (readLoop script need).2 = []) := by
  fun_induction readLoop script need with
  | case1 script => exact ⟨⟨[], rfl, Nat.zero_le _⟩, by simp⟩
  | case2 need => exact ⟨⟨[], rfl, Nat.zero_le _⟩, fun _ => rfl⟩
  | case3 rest need ih => exact ih
  | case4 what rest need => exact ⟨⟨[], rfl, Nat.zero_le _⟩, by simp⟩
  | case5 rest need => exact ⟨⟨[], rfl, Nat.zero_le _⟩, by simp [error]⟩
  | case6 chunk rest need hne hle result ih =>
      obtain ⟨⟨part, hstream, hlength⟩, hblocked⟩ := ih
      refine ⟨⟨chunk ++ part, ?_, ?_⟩, fun h => hblocked ?_⟩
      · rw [stream, hstream, List.append_assoc]
      · rw [List.length_append]
        omega
      · cases hresult : result.1 with
        | ok tail =>
            rw [hresult] at h
            cases h
        | error e =>
            rw [hresult] at h
            exact h
  | case7 chunk rest need hne hlt =>
      refine ⟨⟨chunk.take (need + 1), ?_, ?_⟩, by simp⟩
      · rw [stream, stream, ← List.append_assoc, List.take_append_drop]
      · rw [List.length_take]
        exact Nat.min_le_left _ _

theorem wp_readExact {s : Socket} {len : Nat} {post : Bytes → Socket → Prop}
    {fail : Stop → Socket → Prop}
    (ok : ∀ bytes reads, bytes.length = len → stream s.reads = bytes ++ stream reads →
      post bytes { s with reads := reads })
    (stop : ∀ e reads, e ≠ .fault → stream reads <:+ stream s.reads →
      fail e { s with reads := reads }) :
    WP (readExact len) s post fail := by
  have spec := readLoop_stream s.reads len
  unfold WP readExact
  simp only [EStateM.run]
  split
  · rename_i h
    split at h
    · rename_i bytes reads hloop
      cases h
      rw [hloop] at spec
      exact ok _ _ (spec.1 _ rfl).1 (spec.1 _ rfl).2
    · cases h
  · rename_i h
    split at h
    · cases h
    · rename_i e reads hloop
      cases h
      rw [hloop] at spec
      exact stop _ _ (spec.2 _ rfl).1 (spec.2 _ rfl).2

theorem wp_readExact_taken (s : Socket) (len : Nat) :
    WP (readExact len) s
      (fun _ t => ∃ part, stream s.reads = part ++ stream t.reads ∧ part.length ≤ len)
      (fun e t => (∃ part, stream s.reads = part ++ stream t.reads ∧ part.length ≤ len) ∧
        (e = .blocked → t.reads = [])) := by
  have taken := readLoop_taken s.reads len
  unfold WP readExact
  simp only [EStateM.run]
  cases hloop : readLoop s.reads len with
  | mk result reads =>
      rw [hloop] at taken
      cases result with
      | ok bytes => exact taken.1
      | error e =>
          refine ⟨taken.1, ?_⟩
          rintro rfl
          exact taken.2 rfl

/-- Bytes that are on a flowing script are read. -/
theorem readLoop_of_flowing {script : List ReadResult} (flowing : Flowing script)
    {bytes rest : Bytes} (h : stream script = bytes ++ rest) :
    ∃ left, readLoop script bytes.length = (.ok bytes, left) ∧ stream left = rest ∧
      Flowing left := by
  generalize hneed : bytes.length = need
  fun_induction readLoop script need generalizing bytes with
  | case1 script =>
      rw [List.length_eq_zero_iff] at hneed
      subst hneed
      exact ⟨script, rfl, h, flowing⟩
  | case2 need =>
      have := congrArg List.length h
      simp only [stream, List.length_nil, List.length_append] at this
      omega
  | case3 tail need ih =>
      exact ih (fun r hr => flowing r (List.mem_cons_of_mem _ hr)) h hneed
  | case4 what tail need =>
      have := flowing _ List.mem_cons_self
      simp at this
  | case5 tail need =>
      have := flowing _ List.mem_cons_self
      simp at this
  | case6 chunk tail need hne hle result ih =>
      -- The chunk is used up: the rest of the bytes come from the tail of the script.
      have hsplit : bytes = chunk ++ bytes.drop chunk.length := by
        rw [stream] at h
        have htake := congrArg (List.take chunk.length) h
        rw [List.take_left, List.take_append_of_le_length (by omega)] at htake
        nth_rewrite 1 [htake]
        rw [List.take_append_drop]
      have hrest : stream tail = bytes.drop chunk.length ++ rest := by
        rw [stream, hsplit, List.append_assoc] at h
        simpa using List.append_cancel_left h
      obtain ⟨left, hloop, hleft⟩ :=
        ih (fun r hr => flowing r (List.mem_cons_of_mem _ hr)) hrest (by simp [hneed])
      refine ⟨left, ?_, hleft⟩
      simp only [result, hloop]
      rw [Except.map, ← hsplit]
  | case7 chunk tail need hne hlt =>
      rw [stream] at h
      have hbytes : bytes = chunk.take (need + 1) := by
        have htake := congrArg (List.take (need + 1)) h
        rw [List.take_append_of_le_length (by omega), List.take_left' hneed] at htake
        exact htake.symm
      refine ⟨_, by rw [hbytes], ?_, ?_⟩
      · have hdrop := congrArg (List.drop (need + 1)) h
        rw [List.drop_append_of_le_length (by omega), List.drop_left' hneed] at hdrop
        rw [stream, hdrop]
      · intro r hr
        rcases List.mem_cons.mp hr with rfl | hr
        · refine .inr ⟨_, rfl, ?_⟩
          rw [ne_eq, List.drop_eq_nil_iff]
          omega
        · exact flowing r (List.mem_cons_of_mem _ hr)

/-- Scripts that deliver what is on them, and stay such scripts. -/
def Serves (p : List ReadResult → Prop) : Prop :=
  ∀ script bytes rest, p script → stream script = bytes ++ rest →
    ∃ left, readLoop script bytes.length = (.ok bytes, left) ∧ stream left = rest ∧ p left

theorem serves_flowing : Serves Flowing := fun _ _ _ flowing h => readLoop_of_flowing flowing h

/-- A read that is served does not see what stands further behind. -/
theorem readLoop_append {front : List ReadResult} {need : Nat} {bytes : Bytes}
    (back : List ReadResult) (h : (readLoop front need).1 = .ok bytes) :
    readLoop (front ++ back) need = (.ok bytes, (readLoop front need).2 ++ back) := by
  fun_induction readLoop front need generalizing bytes with
  | case1 script =>
      cases h
      simp [readLoop]
  | case2 need => cases h
  | case3 rest need ih => simpa [readLoop] using ih h
  | case4 what rest need => cases h
  | case5 rest need => cases h
  | case6 chunk rest need hne hle result =>
      rename_i ih
      cases hr : result.1 with
      | ok tail =>
          rw [hr] at h
          cases h
          simp only [List.cons_append, readLoop, hne, hle, if_false, if_true, ih hr]
          rfl
      | error e =>
          rw [hr] at h
          cases h
  | case7 chunk rest need hne hlt =>
      cases h
      simp [readLoop, hne, hlt]

/-- The stream is delivered and then ends. -/
def Ended (script : List ReadResult) : Prop :=
  ∃ chunks, Flowing chunks ∧ script = chunks ++ [.returned []]

theorem stream_append (front back : List ReadResult) :
    stream (front ++ back) = stream front ++ stream back := by
  induction front with
  | nil => rfl
  | cons result front ih => cases result <;> simp [stream, ih]

theorem serves_ended : Serves Ended := by
  rintro _ bytes rest ⟨chunks, flowing, rfl⟩ h
  rw [stream_append, show stream [.returned []] = [] from rfl, List.append_nil] at h
  obtain ⟨left, hloop, hrest, hleft⟩ := readLoop_of_flowing flowing h
  have hok : (readLoop chunks bytes.length).1 = .ok bytes := by rw [hloop]
  refine ⟨left ++ [.returned []], ?_, ?_, left, hleft, rfl⟩
  · rw [readLoop_append _ hok, hloop]
  · rw [stream_append, hrest, show stream [.returned []] = [] from rfl, List.append_nil]

theorem readExact_of_serves {p : List ReadResult → Prop} (serves : Serves p) {s : Socket}
    (hp : p s.reads) {len : Nat} {bytes rest : Bytes} (h : stream s.reads = bytes ++ rest)
    (hlen : bytes.length = len) :
    ∃ reads, (readExact len).run s = .ok bytes { s with reads := reads } ∧
      stream reads = rest ∧ p reads := by
  subst hlen
  obtain ⟨left, hloop, hleft⟩ := serves _ _ _ hp h
  exact ⟨left, by simp only [readExact, EStateM.run, hloop], hleft⟩

/-- Behind the end of the stream there is nothing to wait for. -/
theorem readLoop_ended {script : List ReadResult} {need : Nat} (h : .returned [] ∈ script) :
    (readLoop script need).1 ≠ .error .blocked ∧ .returned [] ∈ (readLoop script need).2 := by
  fun_induction readLoop script need with
  | case1 script => exact ⟨by simp, h⟩
  | case2 need => simp at h
  | case3 rest need ih => exact ih (by simpa using h)
  | case4 what rest need => exact ⟨by simp, by simpa using h⟩
  | case5 rest need => exact ⟨by simp [error], List.mem_cons_self⟩
  | case6 chunk rest need hne hle result ih =>
      have hrest : .returned [] ∈ rest := by simpa [Ne.symm hne] using h
      refine ⟨?_, (ih hrest).2⟩
      have hblocked := (ih hrest).1
      intro hmap
      cases hr : result.1 with
      | ok tail =>
          rw [hr] at hmap
          cases hmap
      | error e =>
          rw [hr] at hmap
          cases hmap
          exact hblocked hr
  | case7 chunk rest need hne hlt =>
      have hrest : .returned [] ∈ rest := by simpa [Ne.symm hne] using h
      exact ⟨by simp, List.mem_cons_of_mem _ hrest⟩

theorem wp_readExact_ended {s : Socket} {len : Nat} (h : .returned [] ∈ s.reads) :
    WP (readExact len) s (fun _ t => .returned [] ∈ t.reads) (fun e _ => e ≠ .blocked) := by
  have ended : (readLoop s.reads len).1 ≠ .error .blocked ∧
      .returned [] ∈ (readLoop s.reads len).2 := readLoop_ended h
  unfold WP readExact
  simp only [EStateM.run]
  cases hloop : readLoop s.reads len with
  | mk result reads =>
      rw [hloop] at ended
      cases result with
      | ok bytes => exact ended.2
      | error e => exact fun he => ended.1 (by rw [he])

/-! ### Writing -/

theorem wp_writeExact {s : Socket} {bytes : Bytes} {post : Unit → Socket → Prop}
    {fail : Stop → Socket → Prop}
    (ok : ∀ writes, post () { s with writes := writes, written := s.written ++ bytes })
    (stop : ∀ what writes taken, taken <+: bytes →
      fail (.thrown what) { s with writes := writes, written := s.written ++ taken }) :
    WP (writeExact bytes) s post fail := by
  have spec : ∀ script bytes,
      ((writeLoop script bytes).1 = .ok () ∧ (writeLoop script bytes).2.2 = bytes) ∨
      ((∃ what, (writeLoop script bytes).1 = .error (.thrown what)) ∧
        (writeLoop script bytes).2.2 <+: bytes) := by
    intro script bytes
    fun_induction writeLoop script bytes with
    | case1 script => simp
    | case2 byte bytes => simp
    | case3 rest byte bytes ih => exact ih
    | case4 what rest byte bytes => simp
    | case5 rest byte bytes => simp [error]
    | case6 count rest byte bytes result ih =>
        rcases ih with ⟨hok, htaken⟩ | ⟨herr, htaken⟩
        · exact .inl ⟨hok, by simp [result, htaken]⟩
        · refine .inr ⟨herr, ?_⟩
          obtain ⟨unwritten, h⟩ := htaken
          refine ⟨unwritten, ?_⟩
          rw [List.cons_append, List.cons_append, List.append_assoc, h, List.take_append_drop]
  unfold WP writeExact
  simp only [EStateM.run]
  rcases spec s.writes bytes with ⟨hok, htaken⟩ | ⟨⟨what, herr⟩, htaken⟩
  · have heq : writeLoop s.writes bytes = (.ok (), (writeLoop s.writes bytes).2.1, bytes) :=
      Prod.ext hok (Prod.ext rfl htaken)
    rw [heq]
    exact ok _
  · have heq : writeLoop s.writes bytes = (.error (.thrown what),
      (writeLoop s.writes bytes).2.1, (writeLoop s.writes bytes).2.2) := Prod.ext herr rfl
    rw [heq]
    exact stop what _ _ htaken

/-- Without failing writes all bytes are written and later writes do not fail either. -/
theorem writeExact_of_lossless {s : Socket} (lossless : Lossless s.writes) (bytes : Bytes) :
    ∃ writes, (writeExact bytes).run s =
        .ok () { s with writes := writes, written := s.written ++ bytes } ∧ Lossless writes := by
  have loop : ∀ script bytes, Lossless script →
      ∃ left, writeLoop script bytes = (.ok (), left, bytes) ∧ Lossless left := by
    intro script bytes
    fun_induction writeLoop script bytes with
    | case1 script => exact fun h => ⟨script, rfl, h⟩
    | case2 byte bytes => exact fun h => ⟨[], rfl, h⟩
    | case3 rest byte bytes ih => exact fun h => ih fun r hr => h r (List.mem_cons_of_mem _ hr)
    | case4 what rest byte bytes =>
        intro h
        have := h _ List.mem_cons_self
        simp at this
    | case5 rest byte bytes =>
        intro h
        have := h _ List.mem_cons_self
        simp at this
    | case6 count rest byte bytes result ih =>
        intro h
        obtain ⟨left, hloop, hleft⟩ := ih fun r hr => h r (List.mem_cons_of_mem _ hr)
        exact ⟨left, by simp [result, hloop], hleft⟩
  obtain ⟨left, hloop, hleft⟩ := loop s.writes bytes lossless
  exact ⟨left, by simp only [writeExact, EStateM.run, hloop], hleft⟩

end Socket

end SshClient

import SshClient.Client.Handshake
import SshClient.Socket.Schedule

/-!
# The identification lines

The client reads the line of the server byte by byte, and nothing behind it. The line has
no limit and need not end in a carriage return: carriage returns are dropped wherever they
stand. Only a line that then begins with `SSH-2.0` is answered.
-/

namespace SshClient.Client

open Control

variable {s : Socket}

def lineFeed : UInt8 := 10

def carriageReturn : UInt8 := 13

/-- The version that a line stands for. -/
def lineVersion (line : Bytes) : Bytes := line.filter (· ≠ carriageReturn)

theorem lineVersion_snoc (line : Bytes) (byte : UInt8) :
    lineVersion (line ++ [byte]) =
      if byte ≠ carriageReturn then lineVersion line ++ [byte] else lineVersion line := by
  unfold lineVersion
  rw [List.filter_append]
  split
  · rename_i hbyte
    rw [List.filter_cons_of_pos (by simpa using hbyte)]
    rfl
  · rename_i hbyte
    rw [List.filter_cons_of_neg (by simpa using hbyte)]
    exact List.append_nil _

/-- One round, with the byte that it reads. -/
theorem wp_readVersionByte {version : Bytes} {t : Socket} {post : Bytes ⊕ Bytes → Socket → Prop}
    {fail : Stop → Socket → Prop}
    (last : ∀ reads, Socket.stream t.reads = lineFeed :: Socket.stream reads →
      post (.inr version) { t with reads := reads })
    (more : ∀ byte reads, byte ≠ lineFeed → Socket.stream t.reads = byte :: Socket.stream reads →
      post (.inl (if byte ≠ carriageReturn then version ++ [byte] else version))
        { t with reads := reads })
    (stop : ∀ e reads, e ≠ .fault → Socket.stream reads <:+ Socket.stream t.reads →
      fail e { t with reads := reads }) :
    WP (readVersionByte version) t post fail := by
  simp only [readVersionByte, WP.bind_iff]
  refine Socket.wp_readExact ?_ stop
  intro bytes reads hlength hstream
  obtain ⟨byte, rfl⟩ := List.length_eq_one_iff.mp hlength
  rw [List.singleton_append] at hstream
  rw [wp_byteAt]
  refine ⟨?_, fun hnone => by simp at hnone⟩
  intro b hb
  obtain rfl : byte = b := by simpa using hb
  rw [WP.ite_iff]
  constructor
  · rintro rfl
    exact last reads hstream
  · intro hfeed
    have hmore := more byte reads hfeed hstream
    rw [WP.ite_iff]
    constructor
    · intro hreturn
      rw [if_pos (show byte ≠ carriageReturn from hreturn)] at hmore
      exact hmore
    · intro hreturn
      rw [if_neg (show ¬ byte ≠ carriageReturn from hreturn)] at hmore
      exact hmore

/-- What has been read is the first line of the stream, and nothing else has been read. -/
theorem wp_readVersion {post : Bytes → Socket → Prop} {fail : Stop → Socket → Prop}
    (ok : ∀ line reads, Socket.stream s.reads = line ++ lineFeed :: Socket.stream reads →
      lineFeed ∉ line → post (lineVersion line) { s with reads := reads })
    (stop : ∀ e reads, e ≠ .fault → Socket.stream reads <:+ Socket.stream s.reads →
      fail e { s with reads := reads }) :
    WP readVersion s post fail := by
  simp only [readVersion, WP.bind_iff, WP.get_iff]
  refine WP.iterate (fun version t => ∃ line reads, t = { s with reads := reads } ∧
      Socket.stream s.reads = line ++ Socket.stream reads ∧ lineFeed ∉ line ∧
      version = lineVersion line)
    (fun _ t => (Socket.stream t.reads).length) ?_ _ [] ?_ (by omega)
  · rintro _ _ ⟨line, reads, rfl, hread, hline, rfl⟩
    refine wp_readVersionByte ?_ ?_ ?_
    · intro reads' hstream
      refine ok line reads' ?_ hline
      rw [hread, hstream]
    · intro byte reads' hbyte hstream
      refine ⟨⟨line ++ [byte], reads', rfl, ?_, ?_, (lineVersion_snoc line byte).symm⟩, ?_⟩
      · rw [hread, hstream, List.append_assoc]
        rfl
      · simp only [List.mem_append, List.mem_singleton, not_or]
        exact ⟨hline, hbyte.symm⟩
      · rw [hstream]
        exact Nat.lt_succ_self _
    · intro e reads' he hsuffix
      refine stop e reads' he (hsuffix.trans ?_)
      rw [hread]
      exact List.suffix_append _ _
  · exact ⟨[], s.reads, rfl, rfl, List.not_mem_nil, rfl⟩

/-! ### A peer that goes on sending -/

/-- A byte that is there is read, and the line goes on unless it is a newline. -/
theorem wp_readVersionByte_flowing {version : Bytes} {t : Socket}
    (flowing : Socket.Flowing t.reads) {byte : UInt8} {rest : Bytes}
    (hstream : Socket.stream t.reads = byte :: rest) :
    WP (readVersionByte version) t
      (fun r u => Socket.Flowing u.reads ∧ Socket.stream u.reads = rest ∧
        (r.isLeft = true ↔ byte ≠ lineFeed)) (fun _ _ => False) := by
  obtain ⟨reads, hrun, hrest, hflow⟩ :=
    Socket.readExact_of_serves Socket.serves_flowing flowing
      (show _ = [byte] ++ rest from hstream) (show [byte].length = 1 from rfl)
  rw [readVersionByte, WP.bind_iff, WP.ok_iff hrun, WP.bind_iff, wp_byteAt]
  refine ⟨?_, nofun⟩
  intro b hb
  obtain rfl : byte = b := by simpa using hb
  rw [WP.ite_iff, WP.ite_iff]
  refine ⟨fun hbyte => ⟨hflow, hrest, nofun, fun hne => absurd hbyte hne⟩, fun hbyte => ?_⟩
  exact ⟨fun _ => ⟨hflow, hrest, fun _ => hbyte, fun _ => rfl⟩,
    fun _ => ⟨hflow, hrest, fun _ => hbyte, fun _ => rfl⟩⟩

theorem wp_readVersion_flowing (flowing : Socket.Flowing s.reads)
    (ends : lineFeed ∈ Socket.stream s.reads) :
    WP readVersion s (fun _ t => Socket.Flowing t.reads) (fun _ _ => False) := by
  simp only [readVersion, WP.bind_iff, WP.get_iff]
  refine WP.iterate
    (fun _ t => Socket.Flowing t.reads ∧ lineFeed ∈ Socket.stream t.reads)
    (fun _ t => (Socket.stream t.reads).length) ?_ _ [] ⟨flowing, ends⟩ (by omega)
  rintro version t ⟨hflow, hends⟩
  cases hstream : Socket.stream t.reads with
  | nil =>
      rw [hstream] at hends
      cases hends
  | cons byte rest =>
      refine (wp_readVersionByte_flowing hflow hstream).mono ?_ (fun _ _ h => h)
      rintro r u ⟨hu, hrest, hbyte⟩
      cases r with
      | inr version => exact hu
      | inl next =>
          refine ⟨⟨hu, ?_⟩, ?_⟩
          · rw [hstream] at hends
            rw [hrest]
            exact (List.mem_cons.mp hends).resolve_left (hbyte.mp rfl).symm
          · rw [hrest]
            exact Nat.lt_succ_self _

/-- The first line of a stream is determined. -/
theorem line_inj {line line' rest rest' : Bytes} (hline : lineFeed ∉ line)
    (hline' : lineFeed ∉ line') (h : line ++ lineFeed :: rest = line' ++ lineFeed :: rest') :
    line = line' ∧ rest = rest' := by
  have hlines := congrArg (Text.lines lineFeed) h
  rw [Text.lines_append_delimiter hline, Text.lines_append_delimiter hline'] at hlines
  obtain ⟨rfl, -⟩ := List.cons.inj hlines
  exact ⟨rfl, (List.cons.inj (List.append_cancel_left h)).2⟩

theorem readVersion_run (flowing : Socket.Flowing s.reads) {line rest : Bytes}
    (hstream : Socket.stream s.reads = line ++ lineFeed :: rest) (hline : lineFeed ∉ line) :
    ∃ reads, readVersion.run s = .ok (lineVersion line) { s with reads := reads } ∧
      Socket.stream reads = rest := by
  have hexact : WP readVersion s
      (fun version t => ∃ reads, t = { s with reads := reads } ∧ version = lineVersion line ∧
        Socket.stream reads = rest)
      (fun _ _ => True) := by
    refine wp_readVersion ?_ (fun _ _ _ _ => trivial)
    intro line' reads hstream' hline'
    obtain ⟨rfl, rfl⟩ := line_inj hline hline' (hstream.symm.trans hstream')
    exact ⟨reads, rfl, rfl, rfl⟩
  have hends : lineFeed ∈ Socket.stream s.reads := by
    rw [hstream]
    simp
  have htotal : WP readVersion s
      (fun version t => ∃ reads, t = { s with reads := reads } ∧ version = lineVersion line ∧
        Socket.stream reads = rest)
      (fun _ _ => False) :=
    (hexact.and (wp_readVersion_flowing flowing hends)).mono (fun _ _ h => h.1) (fun _ _ h => h.2)
  obtain ⟨_, _, hrun, reads, rfl, rfl, hrest⟩ := htotal.exists_ok
  exact ⟨reads, hrun, hrest⟩

/-- Without a newline the rest of the line is waited for. -/
theorem wp_readVersion_endless (flowing : Socket.Flowing s.reads)
    (endless : lineFeed ∉ Socket.stream s.reads) :
    WP readVersion s (fun _ _ => False) (fun e _ => e = .blocked) := by
  simp only [readVersion, WP.bind_iff, WP.get_iff]
  refine WP.iterate
    (fun _ t => Socket.Flowing t.reads ∧ lineFeed ∉ Socket.stream t.reads)
    (fun _ t => (Socket.stream t.reads).length) ?_ _ [] ⟨flowing, endless⟩ (by omega)
  rintro version t ⟨hflow, hendless⟩
  cases hstream : Socket.stream t.reads with
  | nil =>
      have hshort : (Socket.stream t.reads).length < 1 := by
        rw [hstream]
        exact Nat.one_pos
      have hloop := Socket.readLoop_short hflow [] hshort
      rw [List.append_nil, hstream] at hloop
      have hrun : (Socket.readExact 1).run t = .error .blocked { t with reads := [] } := by
        simp only [Socket.readExact, EStateM.run, hloop]
        rfl
      unfold WP readVersionByte
      rw [EStateM.run_bind, hrun]
  | cons byte rest =>
      rw [hstream, List.mem_cons, not_or] at hendless
      refine (wp_readVersionByte_flowing hflow hstream).mono ?_ (fun _ _ h => h.elim)
      rintro r u ⟨hu, hrest, hbyte⟩
      cases r with
      | inr version => cases hbyte.mpr (Ne.symm hendless.1)
      | inl next =>
          rw [hrest]
          exact ⟨⟨hu, hendless.2⟩, Nat.lt_succ_self _⟩

/-- The exchange of the identification lines, for every stream of a peer that goes on sending
and every socket that takes what is written. The line of the server is everything up to the
first newline. A version that begins with `SSH-2.0` is answered with the line of the client,
any other is refused with nothing written, and in both cases nothing behind the line has
been read. While there is no newline the client waits. -/
theorem exchangeIdentification_exact (flowing : Socket.Flowing s.reads)
    (lossless : Socket.Lossless s.writes) (clientVersion : Bytes) :
    (∀ line rest, Socket.stream s.reads = line ++ lineFeed :: rest → lineFeed ∉ line →
      ((lineVersion line).take 7 = ascii "SSH-2.0" → ∃ t,
        (exchangeIdentification clientVersion).run s =
            .ok { client := clientVersion, server := lineVersion line } t ∧
          Socket.stream t.reads = rest ∧
          t.written = s.written ++ (clientVersion ++ [carriageReturn, lineFeed])) ∧
      ((lineVersion line).take 7 ≠ ascii "SSH-2.0" → ∃ t,
        (exchangeIdentification clientVersion).run s =
            .error (.thrown (ascii "Not SSH-2.0: " ++ lineVersion line)) t ∧
          Socket.stream t.reads = rest ∧ t.written = s.written)) ∧
    (lineFeed ∉ Socket.stream s.reads → ∃ t,
      (exchangeIdentification clientVersion).run s = .error .blocked t ∧
        t.written = s.written) := by
  constructor
  · intro line rest hstream hline
    obtain ⟨reads, hrun, hrest⟩ := readVersion_run flowing hstream hline
    constructor
    · intro hversion
      obtain ⟨writes, hwrite, -⟩ := Socket.writeExact_of_lossless
        (s := { s with reads := reads }) lossless (clientVersion ++ [carriageReturn, lineFeed])
      have hanswered : WP (exchangeIdentification clientVersion) s
          (fun id t => id = { client := clientVersion, server := lineVersion line } ∧
            Socket.stream t.reads = rest ∧
            t.written = s.written ++ (clientVersion ++ [carriageReturn, lineFeed]))
          (fun _ _ => False) := by
        rw [exchangeIdentification, WP.bind_iff, WP.ok_iff hrun, WP.bind_iff, WP.failIf_iff]
        refine ⟨fun hother => absurd hversion hother, fun _ => ?_⟩
        rw [WP.bind_iff]
        exact (WP.ok_iff hwrite).mpr ⟨rfl, hrest, rfl⟩
      obtain ⟨_, t, hanswer, rfl, hleft, hwritten⟩ := hanswered.exists_ok
      exact ⟨t, hanswer, hleft, hwritten⟩
    · intro hversion
      refine ⟨{ s with reads := reads }, ?_, hrest, rfl⟩
      unfold exchangeIdentification
      rw [EStateM.run_bind, hrun]
      dsimp only
      rw [EStateM.run_bind, run_failIf_pos hversion]
  · intro hendless
    have hquiet : WP readVersion s (fun _ _ => True) (fun _ t => t.written = s.written) :=
      wp_readVersion (fun _ _ _ _ => trivial) (fun _ _ _ _ => rfl)
    have hwaits : WP (exchangeIdentification clientVersion) s (fun _ _ => False)
        (fun e t => e = .blocked ∧ t.written = s.written) := by
      rw [exchangeIdentification, WP.bind_iff]
      exact ((wp_readVersion_endless flowing hendless).and hquiet).mono (fun _ _ h => h.1.elim)
        (fun _ _ h => h)
    obtain ⟨_, t, hrun, rfl, hwritten⟩ := hwaits.exists_error
    exact ⟨t, hrun, hwritten⟩

/-- A server that sends its line in two pieces, with carriage returns in it. -/
def greetingSocket : Socket where
  reads := [.returned (ascii "SSH-2.\r0-x"), .interrupted, .returned (ascii "\r\nrest")]

theorem exchangeIdentification_exact_greeting :
    ∃ t, (exchangeIdentification (ascii "SSH-2.0-y")).run greetingSocket =
        .ok { client := ascii "SSH-2.0-y", server := ascii "SSH-2.0-x" } t ∧
      Socket.stream t.reads = ascii "rest" := by
  have flowing : Socket.Flowing greetingSocket.reads := by
    simp [Socket.Flowing, greetingSocket, ascii]
  have lossless : Socket.Lossless greetingSocket.writes := by
    simp [Socket.Lossless, greetingSocket]
  obtain ⟨t, hrun, hrest, -⟩ :=
    ((exchangeIdentification_exact flowing lossless (ascii "SSH-2.0-y")).1
      (ascii "SSH-2.\r0-x\r") (ascii "rest") (by decide) (by decide)).1 (by decide)
  exact ⟨t, hrun, hrest⟩

end SshClient.Client

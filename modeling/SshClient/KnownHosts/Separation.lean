import SshClient.KnownHosts.Store

/-!
# Entries of different names

What `add` writes for one name is never what `check` answers from for another. This holds
for every content of the file and for every answer of the file system: an entry may be
written only in part, and it may be joined to a last line that is not terminated.
-/

namespace SshClient.KnownHosts

open Control

variable {crypto : Crypto} {hosts : KnownHosts}
variable {hostname algorithm key text other algorithm' key' text' : Bytes}
variable {status : HostKeyStatus}

/-- The line of an entry. -/
def entryLine (hostname algorithm encodedKey : Bytes) : Bytes :=
  hostname ++ blank :: (algorithm ++ blank :: encodedKey)

/-- The line of another name does not matter, wherever it stands. -/
theorem checkLines_skip (hh : IsName hostname) (ha : IsName algorithm) (ht : IsName text)
    (hother : hostname ≠ other) (bad : Bool) (before after : List Bytes) :
    checkLines other algorithm' text' bad (before ++ entryLine hostname algorithm text :: after) =
      checkLines other algorithm' text' bad (before ++ after) := by
  induction before with
  | nil =>
      rw [List.nil_append, List.nil_append, checkLines, if_neg (by simp [entryLine]), entryLine,
        words_entry hh ha ht]
      exact if_pos hother
  | cons line before ih =>
      rw [List.cons_append, List.cons_append, checkLines, checkLines, ih]

/-! ### What a part of an entry says -/

/-- One line of three fields is answered by its first field. -/
theorem checkLines_line {line first second third : Bytes} {later : List Bytes}
    (hline : Text.words isSpace line = first :: second :: third :: later) :
    checkLines other algorithm' text' false [line] =
      if first ≠ other then .ok .unknown
      else if second = algorithm' ∧ third = text' then .ok .matched else .ok .changed := by
  have hne : line ≠ [] := by
    rintro rfl
    cases hline
  rw [checkLines, if_neg hne, hline]
  rfl

theorem checkLines_name (hh : IsName hostname) (bad : Bool) :
    checkLines other algorithm' text' bad [hostname] =
      .error (error "Malformed known-hosts entry") := by
  have hwords : Text.words isSpace hostname = [hostname] := by
    simpa [Text.words] using
      Text.words_append hh (show ([] : Bytes).head?.all isSpace = true from rfl)
  rw [checkLines, if_neg hh.1, hwords]

/-- A line that begins as an entry is blank, malformed or of the same name. -/
theorem checkLines_part (hh : IsName hostname) (hother : hostname ≠ other) {part rest : Bytes}
    {bad : Bool} (hpart : part <+: hostname ++ blank :: rest)
    (h : checkLines other algorithm' text' bad [part] = .ok status) : status = .unknown := by
  have hend : checkLines other algorithm' text' bad [] = .ok status → status = .unknown := by
    intro hnil
    cases bad <;> cases hnil
    rfl
  rcases List.prefix_or_prefix_of_prefix hpart (List.prefix_append hostname _) with hshort | hlong
  · by_cases hne : part = []
    · subst hne
      exact hend h
    · have hname : IsName part := ⟨hne, fun c hc => hh.2 c (hshort.subset hc)⟩
      rw [checkLines_name hname bad] at h
      cases h
  · obtain ⟨more, rfl⟩ := hlong
    rw [List.prefix_append_right_inj, List.prefix_cons_iff] at hpart
    obtain rfl | ⟨tail, rfl, -⟩ := hpart
    · rw [List.append_nil, checkLines_name hh bad] at h
      cases h
    · have hwords : Text.words isSpace (hostname ++ blank :: tail) =
          hostname :: Text.words isSpace tail := by
        rw [Text.words_append hh (by simp [isSpace_blank]), Text.words_space isSpace_blank]
      match htail : Text.words isSpace tail with
      | second :: third :: later =>
          rw [checkLines, if_neg (by simp [hh.1]), hwords, htail] at h
          exact hend ((if_pos hother).symm.trans h)
      | [] =>
          rw [checkLines, if_neg (by simp [hh.1]), hwords, htail] at h
          cases h
      | [_] =>
          rw [checkLines, if_neg (by simp [hh.1]), hwords, htail] at h
          cases h

/-- The lines of a file to which part of an entry has been appended. -/
theorem lines_appended (hh : IsName hostname) (ha : IsName algorithm) (ht : IsName text)
    (content : Bytes) (n : Nat) :
    ∃ part, part <+: entryLine hostname algorithm text ∧
      (Text.Terminated newline content ∧
          (Text.lines newline (content ++ (entry hostname algorithm text).take n) =
              Text.lines newline content ∨
            Text.lines newline (content ++ (entry hostname algorithm text).take n) =
              Text.lines newline content ++ [part]) ∨
        ¬ Text.Terminated newline content ∧ ∃ before line, line ≠ [] ∧
          Text.lines newline content = before ++ [line] ∧
          Text.lines newline (content ++ (entry hostname algorithm text).take n) =
            before ++ [line ++ part]) := by
  have hline : newline ∉ entryLine hostname algorithm text := newline_notMem_entry hh ha ht
  by_cases hn : n ≤ (entryLine hostname algorithm text).length
  · have htake : (entry hostname algorithm text).take n =
        (entryLine hostname algorithm text).take n := by
      rw [entry_eq]
      exact List.take_append_of_le_length hn
    have hpart := List.take_prefix n (entryLine hostname algorithm text)
    have hnot : newline ∉ (entryLine hostname algorithm text).take n :=
      fun hm => hline (hpart.subset hm)
    rw [htake]
    refine ⟨_, hpart, ?_⟩
    by_cases hend : Text.Terminated newline content
    · refine .inl ⟨hend, ?_⟩
      rw [Text.lines_append hend]
      by_cases hne : (entryLine hostname algorithm text).take n = []
      · exact .inl (by rw [hne, Text.lines, List.append_nil])
      · exact .inr (by rw [Text.lines_of_not_mem hnot hne])
    · obtain ⟨before, line, hne, hlines, hmore⟩ := Text.lines_continued hend
      exact .inr ⟨hend, before, line, hne, hlines, (hmore _ hnot).1⟩
  · have htake : (entry hostname algorithm text).take n =
        entryLine hostname algorithm text ++ [newline] := by
      rw [entry_eq]
      refine List.take_of_length_le ?_
      rw [List.length_append, List.length_singleton]
      exact Nat.lt_of_not_le hn
    rw [htake]
    refine ⟨_, List.prefix_refl _, ?_⟩
    by_cases hend : Text.Terminated newline content
    · refine .inl ⟨hend, .inr ?_⟩
      rw [Text.lines_append hend, Text.lines_append_delimiter hline]
      rfl
    · obtain ⟨before, line, hne, hlines, hmore⟩ := Text.lines_continued hend
      exact .inr ⟨hend, before, line, hne, hlines, (hmore _ hline).2⟩

/-- A file in which a name is not found, with part of its entry appended: the answer for
another name comes from the lines that were there. -/
theorem checkLines_appended (hh : IsName hostname) (ha : IsName algorithm) (ht : IsName text)
    (hother : hostname ≠ other) {content : Bytes} {n : Nat}
    (absent : checkLines hostname algorithm text false (Text.lines newline content) = .ok .unknown)
    (h : checkLines other algorithm' text' false
      (Text.lines newline (content ++ (entry hostname algorithm text).take n)) = .ok status) :
    (status = .unknown ↔
      checkLines other algorithm' text' false (Text.lines newline content) = .ok .unknown) ∧
    (Text.Terminated newline content →
      checkLines other algorithm' text' false (Text.lines newline content) = .ok status) := by
  obtain ⟨part, hpart, ⟨hend, hlines | hlines⟩ | ⟨hend, before, line, hne, hcontent, hlines⟩⟩ :=
    lines_appended hh ha ht content n
  · rw [hlines] at h
    exact ⟨by rw [h, Except.ok.injEq], fun _ => h⟩
  · rw [hlines, checkLines_append] at h
    have hsame : checkLines other algorithm' text' false (Text.lines newline content) =
        .ok status := by
      match hold : checkLines other algorithm' text' false (Text.lines newline content) with
      | .error _ =>
          rw [hold] at h
          cases h
      | .ok .matched =>
          rw [hold] at h
          exact h
      | .ok .changed =>
          rw [hold] at h
          exact h
      | .ok .unknown =>
          rw [hold] at h
          rw [checkLines_part hh hother hpart h]
    exact ⟨by rw [hsame, Except.ok.injEq], fun _ => hsame⟩
  · -- The last line has three fields, since the search for the new name has passed it.
    obtain ⟨first, second, third, later, hwords, -⟩ :=
      (checkLines_eq_unknown absent line (by simp [hcontent])).resolve_left hne
    obtain ⟨second', third', later', hwords'⟩ := words_continued hwords part
    refine ⟨?_, fun hclosed => absurd hclosed hend⟩
    rw [hlines, checkLines_append, checkLines_line hwords'] at h
    rw [hcontent, checkLines_append, checkLines_line hwords]
    match hold : checkLines other algorithm' text' false before with
    | .error _ =>
        rw [hold] at h
        cases h
    | .ok .matched =>
        rw [hold] at h
        cases h
        simp [otherwise]
    | .ok .changed =>
        rw [hold] at h
        cases h
        simp [otherwise]
    | .ok .unknown =>
        rw [hold] at h
        simp only [otherwise] at h ⊢
        by_cases hfirst : first = other
        · rw [if_neg (not_not.mpr hfirst)] at h ⊢
          constructor
          · rintro rfl
            split at h <;> cases h
          · intro hunknown
            split at hunknown <;> cases hunknown
        · rw [if_pos hfirst] at h ⊢
          cases h
          simp

/-! ### Calls -/

theorem of_encodeBase64 (h : encodeBase64 crypto key = .ok text) :
    key ≠ [] ∧ crypto.bin2base64 key = some text := by
  obtain ⟨_, hkey, h⟩ := bind_eq_ok.mp h
  rw [failIf_eq_ok] at hkey
  split at h
  · cases h
  · rename_i encoded hencoded
    rw [pure_eq_ok.mp h]
    exact ⟨hkey, hencoded⟩

/-- A normal answer of `check`. -/
theorem check_eq_ok :
    check crypto hosts hostname algorithm key = .ok status ↔
      ∃ text, encodeBase64 crypto key = .ok text ∧ hosts.system.existsFails = none ∧
        (hosts.content = none ∧ status = .unknown ∨
          ∃ content, hosts.content = some content ∧ hosts.system.readable = true ∧
            checkLines hostname algorithm text (readLines hosts.system content).2
              (readLines hosts.system content).1 = .ok status) := by
  unfold check
  rw [bind_eq_ok]
  refine exists_congr fun text => and_congr_right fun _ => ?_
  cases hosts.system.existsFails with
  | some what => simp
  | none =>
      cases hosts.content with
      | none =>
          constructor
          · intro h
            cases h
            exact ⟨rfl, .inl ⟨rfl, rfl⟩⟩
          · rintro ⟨-, ⟨-, rfl⟩ | ⟨_, hcontent, -⟩⟩
            · rfl
            · cases hcontent
      | some content => simp [bind_eq_ok, failIf_eq_ok]

/-- A stream that has gone bad is never answered with `unknown`. -/
theorem checkLines_bad (lines : List Bytes) :
    checkLines hostname algorithm text true lines ≠ .ok .unknown := by
  induction lines with
  | nil =>
      intro h
      cases h
  | cons line lines ih =>
      rw [checkLines]
      split
      · exact ih
      · split
        · split
          · exact ih
          · intro h
            split at h <;> cases h
        · intro h
          cases h

theorem wp_createDirectories (hosts : KnownHosts) :
    WP createDirectories hosts (fun _ t => t = hosts) (fun _ t => t = hosts) := by
  unfold createDirectories
  simp only [WP.bind_iff, WP.get_iff]
  cases hosts.system.createDirectoriesFails <;> simp

theorem wp_append (hosts : KnownHosts) (bytes : Bytes) :
    WP (append bytes) hosts (fun _ t => ∃ n, t = hosts.appended (bytes.take n))
      (fun _ t => ∃ n, t = hosts.appended (bytes.take n)) := by
  unfold append
  simp only [WP.bind_iff, WP.get_iff]
  cases hosts.system.appendFault with
  | none => exact WP.set_iff.mpr ⟨bytes.length, by rw [List.take_length]⟩
  | some fault =>
      simp only [WP.bind_iff, WP.set_iff, WP.failIf_iff]
      exact ⟨fun _ => ⟨fault.written, rfl⟩, fun _ => ⟨fault.written, rfl⟩⟩

/-- The file is left as it was, or has a part of one entry of a new name behind it. -/
theorem wp_add (crypto : Crypto) (hostname algorithm key : Bytes) (hosts : KnownHosts) :
    let written := fun after : KnownHosts => after = hosts ∨
      check crypto hosts hostname algorithm key = .ok .unknown ∧ ∃ text n,
        encodeBase64 crypto key = .ok text ∧
          after = hosts.appended ((entry hostname algorithm text).take n)
    WP (add crypto hostname algorithm key) hosts (fun _ t => written t) (fun _ t => written t) := by
  intro written
  have hkept : written hosts := .inl rfl
  unfold add
  simp only [WP.bind_iff, WP.get_iff, WP.lift_iff, WP.ite_iff, WP.pure_iff, WP.failIf_iff]
  refine ⟨?_, fun _ _ => hkept⟩
  intro status hcheck
  refine ⟨fun _ => hkept, fun hmatched => ⟨fun _ => hkept, fun hchanged => ?_⟩⟩
  have hunknown : status = .unknown := by
    cases status with
    | matched => exact absurd rfl hmatched
    | unknown => rfl
    | changed => exact absurd rfl hchanged
  have hwrite : ∀ text, encodeBase64 crypto key = .ok text →
      WP (append (entry hostname algorithm text)) hosts (fun _ t => written t)
        (fun _ t => written t) := by
    intro text hencode
    refine (wp_append hosts _).mono ?_ ?_
    · rintro _ t ⟨n, rfl⟩
      exact .inr ⟨hunknown ▸ hcheck, text, n, hencode, rfl⟩
    · rintro _ t ⟨n, rfl⟩
      exact .inr ⟨hunknown ▸ hcheck, text, n, hencode, rfl⟩
  refine ⟨fun _ => ?_, fun _ => ⟨fun _ => hkept, fun _ => ⟨hwrite, fun _ _ => hkept⟩⟩⟩
  refine (wp_createDirectories hosts).mono ?_ ?_
  · rintro _ t rfl
    exact ⟨fun _ => hkept, fun _ => ⟨hwrite, fun _ _ => hkept⟩⟩
  · rintro _ t rfl
    exact hkept

/-- A search that ends without the name has read the lines of the whole file. -/
theorem lines_of_unknown (h : check crypto hosts hostname algorithm key = .ok .unknown)
    (hencode : encodeBase64 crypto key = .ok text) :
    hosts.content = none ∨ ∃ content, hosts.content = some content ∧
      hosts.system.readFault = none ∧
      checkLines hostname algorithm text false (Text.lines newline content) = .ok .unknown := by
  obtain ⟨text', hencode', -, ⟨hnone, -⟩ | ⟨content, hsome, -, hlines⟩⟩ := check_eq_ok.mp h
  · exact .inl hnone
  · rw [hencode, Except.ok.injEq] at hencode'
    subst hencode'
    unfold readLines at hlines
    cases hfault : hosts.system.readFault with
    | none =>
        rw [hfault] at hlines
        exact .inr ⟨content, hsome, rfl, hlines⟩
    | some count =>
        rw [hfault] at hlines
        dsimp only at hlines
        split at hlines <;> exact absurd hlines (checkLines_bad _)

/-- A new file that holds part of an entry, read up to a fault or to its end. -/
theorem checkLines_created (hh : IsName hostname) (ha : IsName algorithm) (ht : IsName text)
    (hother : hostname ≠ other) {system : FileSystem} {n : Nat}
    (h : checkLines other algorithm' text'
      (readLines system ((entry hostname algorithm text).take n)).2
      (readLines system ((entry hostname algorithm text).take n)).1 = .ok status) :
    status = .unknown := by
  have hlines : ∀ m, ∃ part, part <+: entryLine hostname algorithm text ∧
      (Text.lines newline ((entry hostname algorithm text).take m) = [] ∨
        Text.lines newline ((entry hostname algorithm text).take m) = [part]) := by
    intro m
    obtain ⟨part, hpart, ⟨-, hlines⟩ | ⟨hend, -⟩⟩ := lines_appended hh ha ht [] m
    · exact ⟨part, hpart, hlines⟩
    · exact absurd (fun c hc => by simp at hc) hend
  have hfew : ∀ bad, checkLines other algorithm' text' bad [] = .ok status →
      status = .unknown := by
    intro bad hnil
    cases bad <;> cases hnil
    rfl
  unfold readLines at h
  split at h
  · obtain ⟨part, hpart, hnil | hone⟩ := hlines n
    · rw [hnil] at h
      exact hfew _ h
    · rw [hone] at h
      exact checkLines_part hh hother hpart h
  · dsimp only at h
    rw [List.take_take] at h
    obtain ⟨part, hpart, hnil | hone⟩ := hlines (min ‹Nat› n)
    · rw [hnil] at h
      split at h <;> exact hfew _ h
    · rw [hone] at h
      split at h
      · exact checkLines_part hh hother hpart h
      · exact hfew _ h

/-- Whatever becomes of the call, whether another name is found does not change, and on a
file whose last line is complete neither does its answer. -/
theorem check_add_other (base64 : Base64 crypto) (hh : IsName hostname) (ha : IsName algorithm)
    (hother : hostname ≠ other)
    (h : check crypto (outcome ((add crypto hostname algorithm key).run hosts)) other algorithm'
      key' = .ok status) :
    (status = .unknown ↔ check crypto hosts other algorithm' key' = .ok .unknown) ∧
      ((∀ content, hosts.content = some content → Text.Terminated newline content) →
        check crypto hosts other algorithm' key' = .ok status) := by
  obtain hsame | ⟨hunknown, text, n, hencode, hafter⟩ :=
    (wp_add crypto hostname algorithm key hosts).of_outcome
  · rw [hsame] at h
    exact ⟨by rw [h, Except.ok.injEq], fun _ => h⟩
  · rw [hafter] at h
    have ht : IsName text := by
      obtain ⟨hkey, htext⟩ := of_encodeBase64 hencode
      exact base64.isName key text hkey htext
    obtain ⟨text', hencode', hexists, ⟨hnone, -⟩ | ⟨content', hcontent', hreadable, hlines⟩⟩ :=
      check_eq_ok.mp h
    · cases hnone
    cases hcontent'
    obtain hnone | ⟨content, hcontent, hfault, habsent⟩ := lines_of_unknown hunknown hencode
    · have hcheck : check crypto hosts other algorithm' key' = .ok .unknown :=
        check_eq_ok.mpr ⟨text', hencode', hexists, .inl ⟨hnone, rfl⟩⟩
      rw [hnone, Option.getD_none, List.nil_append] at hlines
      rw [checkLines_created hh ha ht hother hlines, hcheck]
      exact ⟨by simp, fun _ => rfl⟩
    · have hread : ∀ text, readLines hosts.system text = (Text.lines newline text, false) := by
        intro text
        unfold readLines
        rw [hfault]
      have hcheck : ∀ status, check crypto hosts other algorithm' key' = .ok status ↔
          checkLines other algorithm' text' false (Text.lines newline content) = .ok status := by
        intro status
        rw [check_eq_ok]
        constructor
        · rintro ⟨text, hencode, -, ⟨hnone, -⟩ | ⟨old, hold, -, hlines⟩⟩
          · rw [hcontent] at hnone
            cases hnone
          · rw [hencode', Except.ok.injEq] at hencode
            rw [hcontent, Option.some.injEq] at hold
            rwa [hread, ← hencode, ← hold] at hlines
        · intro hlines
          exact ⟨text', hencode', hexists, .inr ⟨content, hcontent, hreadable, by rwa [hread]⟩⟩
      rw [hcontent, Option.getD_some] at hlines
      change checkLines _ _ _ (readLines hosts.system _).2
        (readLines hosts.system _).1 = _ at hlines
      rw [hread] at hlines
      obtain ⟨hiff, hsame⟩ := checkLines_appended hh ha ht hother habsent hlines
      exact ⟨hiff.trans (hcheck _).symm, fun hend => (hcheck _).mpr (hsame (hend _ hcontent))⟩

end SshClient.KnownHosts

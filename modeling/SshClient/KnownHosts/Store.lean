import SshClient.KnownHosts.Basic
import SshClient.Text.Base64
import Mathlib.Logic.Function.Basic

/-!
# The known-hosts file as a write-once map

Abstractly the store maps a host to the algorithm and key it was first added with, and
a later `add` never changes a binding. The file refines this map: as long as its text
ends with a newline, the answers of `check` after `add` are those of the extended map.

Without that last newline the entry is joined to the last line of the file. The last
section shows that this is the only way in which adding a host can go wrong.
-/

namespace SshClient

open Control

/-! ### Write-once maps -/

namespace WriteOnce

variable {κ ν : Type} [DecidableEq κ]

/-- A first binding of a key is kept. -/
def bind (m : κ → Option ν) (k : κ) (v : ν) : κ → Option ν :=
  Function.update m k (some ((m k).getD v))

/-- The first binding of a key in a history. -/
def first (history : List (κ × ν)) (k : κ) : Option ν :=
  (history.find? (·.1 = k)).map Prod.snd

theorem first_append (history : List (κ × ν)) (k : κ) (v : ν) :
    first (history ++ [(k, v)]) = bind (first history) k v := by
  funext j
  unfold bind
  by_cases hj : j = k
  · subst hj
    cases h : history.find? (·.1 = j) <;> simp [first, h]
  · have hkj : k ≠ j := Ne.symm hj
    cases h : history.find? (·.1 = j) <;> simp [first, h, hj, hkj]

end WriteOnce

namespace KnownHosts

variable {crypto : Crypto}

/-- What is assumed of `sodium_bin2base64` with the padded variant. -/
structure Base64 (crypto : Crypto) : Prop where
  total : ∀ key, ∃ text, crypto.bin2base64 key = some text
  injective : ∀ key key' text, crypto.bin2base64 key = some text →
    crypto.bin2base64 key' = some text → key = key'
  isName : ∀ key text, key ≠ [] → crypto.bin2base64 key = some text → IsName text

theorem encodeBase64_ok {key text : Bytes} (hk : key ≠ [])
    (h : crypto.bin2base64 key = some text) : encodeBase64 crypto key = .ok text := by
  simp only [encodeBase64, failIf, if_neg hk, h]
  rfl

/-- The text of a key that can be stored. -/
theorem Base64.encode (base64 : Base64 crypto) {key : Bytes} (hk : key ≠ []) :
    ∃ text, encodeBase64 crypto key = .ok text ∧ IsName text ∧
      crypto.bin2base64 key = some text := by
  obtain ⟨text, h⟩ := base64.total key
  exact ⟨text, encodeBase64_ok hk h, base64.isName key text hk h, h⟩

/-- A file whose system calls succeed is searched line by line. -/
theorem check_eq {hosts : KnownHosts} (reliable : hosts.system = {})
    {hostname algorithm key text : Bytes} (h : encodeBase64 crypto key = .ok text) :
    check crypto hosts hostname algorithm key = match hosts.content with
      | none => .ok .unknown
      | some content => checkLines hostname algorithm text false (Text.lines newline content) := by
  unfold check
  rw [h, reliable]
  cases hosts.content <;> rfl

/-- An empty key is rejected before the file is read. -/
theorem check_nil (hosts : KnownHosts) (hostname algorithm : Bytes) :
    check crypto hosts hostname algorithm [] = .error (error "Cannot encode an empty host key") :=
  rfl

section Add

variable {hosts : KnownHosts} {hostname algorithm key text : Bytes}

theorem add_matched (hcheck : check crypto hosts hostname algorithm key = .ok .matched) :
    (add crypto hostname algorithm key).run hosts = .ok () hosts := by
  apply WP.run_eq
  simp [add, hcheck]

theorem add_changed (hcheck : check crypto hosts hostname algorithm key = .ok .changed) :
    (add crypto hostname algorithm key).run hosts =
      .error (error "Refusing to replace existing host key") hosts := by
  have hadd : WP (add crypto hostname algorithm key) hosts (fun _ _ => False)
      (fun e t => e = error "Refusing to replace existing host key" ∧ t = hosts) := by
    simp [add, hcheck]
  obtain ⟨e, t, run, rfl, rfl⟩ := hadd.exists_error
  exact run

theorem add_unknown (reliable : hosts.system = {}) (h : encodeBase64 crypto key = .ok text)
    (hcheck : check crypto hosts hostname algorithm key = .ok .unknown) :
    (add crypto hostname algorithm key).run hosts =
      .ok () (hosts.appended (entry hostname algorithm text)) := by
  obtain ⟨filePath, content, system⟩ := hosts
  subst reliable
  have happend : (append (entry hostname algorithm text)).run ⟨filePath, content, {}⟩ =
      .ok () (appended ⟨filePath, content, {}⟩ (entry hostname algorithm text)) := rfl
  have hdirs : createDirectories.run ⟨filePath, content, {}⟩ = .ok () ⟨filePath, content, {}⟩ := rfl
  apply WP.run_eq
  simp [add, hcheck, h, WP.ok_iff hdirs, WP.ok_iff happend]

end Add

/-! ### The file refines the map -/

/-- The answer for a host that is bound to `bound`. -/
def answer (bound : Option (Bytes × Bytes)) (algorithm key : Bytes) : HostKeyStatus :=
  match bound with
  | none => .unknown
  | some v => if v = (algorithm, key) then .matched else .changed

/-- The file holds the bindings of `m`, and its last line is complete. -/
structure Represents (crypto : Crypto) (hosts : KnownHosts)
    (m : Bytes → Option (Bytes × Bytes)) : Prop where
  reliable : hosts.system = {}
  terminated : ∀ content, hosts.content = some content → Text.Terminated newline content
  answers : ∀ hostname algorithm key, key ≠ [] →
    check crypto hosts hostname algorithm key = .ok (answer (m hostname) algorithm key)

theorem represents_missing (base64 : Base64 crypto) (filePath : Bytes) :
    Represents crypto { filePath := filePath } (fun _ => none) where
  reliable := rfl
  terminated := by simp
  answers := by
    intro hostname algorithm key hk
    obtain ⟨text, hencode, -⟩ := base64.encode hk
    rw [check_eq rfl hencode]
    rfl

/-- The search of a file behind whose last complete line an entry is appended. -/
theorem check_append {hosts : KnownHosts} (reliable : hosts.system = {})
    (terminated : ∀ content, hosts.content = some content → Text.Terminated newline content)
    {hostname algorithm text : Bytes} (hh : IsName hostname) (ha : IsName algorithm)
    (ht : IsName text) {hostname' algorithm' key' text' : Bytes}
    (hencode : encodeBase64 crypto key' = .ok text') :
    check crypto (hosts.appended (entry hostname algorithm text)) hostname' algorithm' key' =
      otherwise (check crypto hosts hostname' algorithm' key')
        (if hostname ≠ hostname' then .ok .unknown
          else if algorithm = algorithm' ∧ text = text' then .ok .matched
          else .ok .changed) := by
  have hentry : Text.lines newline (entry hostname algorithm text) =
      [hostname ++ blank :: (algorithm ++ blank :: text)] := by
    rw [entry_eq, Text.lines_append_delimiter (newline_notMem_entry hh ha ht)]
    rfl
  have reliable' : (hosts.appended (entry hostname algorithm text)).system = {} := reliable
  rw [check_eq reliable hencode, check_eq reliable' hencode]
  cases hcontent : hosts.content with
  | none =>
      simp only [appended, hcontent, Option.getD_none, List.nil_append, hentry]
      exact checkLines_entry hh ha ht
  | some content =>
      simp only [appended, hcontent, Option.getD_some,
        Text.lines_append (terminated content hcontent), hentry, checkLines_append]
      rw [checkLines_entry hh ha ht]

/-- A host, algorithm and key that can be stored. -/
structure Query where
  hostname : Bytes
  algorithm : Bytes
  key : Bytes
  isHostname : IsName hostname
  isAlgorithm : IsName algorithm
  isKey : key ≠ []

theorem Represents.add {hosts : KnownHosts} {m : Bytes → Option (Bytes × Bytes)}
    (base64 : Base64 crypto) (rep : Represents crypto hosts m) (q : Query)
    (hunbound : m q.hostname = none) {text : Bytes}
    (htext : crypto.bin2base64 q.key = some text) :
    Represents crypto (hosts.appended (entry q.hostname q.algorithm text))
      (WriteOnce.bind m q.hostname (q.algorithm, q.key)) where
  reliable := rep.reliable
  terminated := by
    intro content hcontent
    cases hcontent
    rw [entry_eq, ← List.append_assoc]
    exact Text.terminated_append_singleton _ _
  answers := by
    intro hostname algorithm key hk
    obtain ⟨text', hencode, hname, htext'⟩ := base64.encode hk
    rw [check_append rep.reliable rep.terminated q.isHostname q.isAlgorithm
      (base64.isName _ _ q.isKey htext) hencode, rep.answers hostname algorithm key hk]
    have hkey : text = text' ↔ q.key = key := by
      constructor
      · rintro rfl
        exact base64.injective _ _ _ htext htext'
      · rintro rfl
        exact Option.some.inj (htext.symm.trans htext')
    by_cases hsame : q.hostname = hostname
    · subst hsame
      simp only [answer, hunbound, ne_eq, not_true_eq_false, if_false, WriteOnce.bind,
        Function.update_self, Option.getD_none, Prod.mk.injEq, hkey]
      split <;> rfl
    · have hother : WriteOnce.bind m q.hostname (q.algorithm, q.key) hostname = m hostname :=
        Function.update_of_ne (Ne.symm hsame) _ _
      rw [hother, if_pos hsame, otherwise_unknown]

/-! ### Sequences of calls -/

inductive Call where
  | check (query : Query)
  | add (query : Query)

/-- Make one call and keep the queries whose `add` has returned normally. -/
def call (crypto : Crypto) (s : KnownHosts × List Query) : Call → KnownHosts × List Query
  | .check _ => s
  | .add q =>
      match (KnownHosts.add crypto q.hostname q.algorithm q.key).run s.1 with
      | .ok _ hosts => (hosts, s.2 ++ [q])
      | .error _ hosts => (hosts, s.2)

/-- The bindings made by a list of queries. -/
def bindings (added : List Query) : List (Bytes × Bytes × Bytes) :=
  added.map fun q => (q.hostname, q.algorithm, q.key)

/-- One call keeps the file in agreement with the first successful `add` of each host. -/
theorem call_represents (base64 : Base64 crypto) {s : KnownHosts × List Query}
    (rep : Represents crypto s.1 (WriteOnce.first (bindings s.2))) (c : Call) :
    Represents crypto (call crypto s c).1
      (WriteOnce.first (bindings (call crypto s c).2)) := by
  cases c with
  | check q => exact rep
  | add q =>
      obtain ⟨text, hencode, -, htext⟩ := base64.encode q.isKey
      have hcheck := rep.answers q.hostname q.algorithm q.key q.isKey
      have hfirst : WriteOnce.first (bindings (s.2 ++ [q])) =
          WriteOnce.bind (WriteOnce.first (bindings s.2)) q.hostname (q.algorithm, q.key) := by
        simp only [bindings, List.map_append, List.map_cons, List.map_nil,
          WriteOnce.first_append]
      cases hbound : WriteOnce.first (bindings s.2) q.hostname with
      | none =>
          rw [hbound] at hcheck
          simp only [call, add_unknown rep.reliable hencode hcheck]
          rw [hfirst]
          exact rep.add base64 q hbound htext
      | some v =>
          rw [hbound, answer] at hcheck
          by_cases hsame : v = (q.algorithm, q.key)
          · -- A binding that is already there is not changed by adding it again.
            rw [if_pos hsame] at hcheck
            simp only [call, add_matched hcheck]
            rw [hfirst]
            have hkeep : WriteOnce.bind (WriteOnce.first (bindings s.2)) q.hostname
                (q.algorithm, q.key) = WriteOnce.first (bindings s.2) := by
              unfold WriteOnce.bind
              rw [hbound, Option.getD_some, ← hbound, Function.update_eq_self]
            rwa [hkeep]
          · rw [if_neg hsame] at hcheck
            simp only [call, add_changed hcheck]
            exact rep

theorem calls_represent (base64 : Base64 crypto) (calls : List Call)
    {s : KnownHosts × List Query}
    (rep : Represents crypto s.1 (WriteOnce.first (bindings s.2))) :
    Represents crypto (calls.foldl (call crypto) s).1
      (WriteOnce.first (bindings (calls.foldl (call crypto) s).2)) := by
  induction calls generalizing s with
  | nil => exact rep
  | cons c calls ih => exact ih (call_represents base64 rep c)

/-- The first successful `add` of a host. -/
def firstAdded (added : List Query) (hostname : Bytes) : Option Query :=
  added.find? (·.hostname = hostname)

theorem first_bindings (added : List Query) (hostname : Bytes) :
    WriteOnce.first (bindings added) hostname =
      (firstAdded added hostname).map fun p => (p.algorithm, p.key) := by
  simp only [WriteOnce.first, bindings, firstAdded, List.find?_map, Option.map_map]
  rfl

/-- After any calls on a file that was missing, `check` answers by the first successful
`add` of the host, and `add` appends one line, returns or refuses accordingly. -/
theorem store_refines_write_once (base64 : Base64 crypto) (filePath : Bytes)
    (calls : List Call) (q : Query) :
    let s := calls.foldl (call crypto) ({ filePath := filePath }, [])
    let found := check crypto s.1 q.hostname q.algorithm q.key
    let run := (add crypto q.hostname q.algorithm q.key).run s.1
    (firstAdded s.2 q.hostname = none ∧ found = .ok .unknown ∧
      ∃ line, line ≠ [] ∧ newline ∉ line ∧ run = .ok () (s.1.appended (line ++ [newline]))) ∨
    (∃ p, firstAdded s.2 q.hostname = some p ∧ (p.algorithm = q.algorithm ∧ p.key = q.key) ∧
      found = .ok .matched ∧ run = .ok () s.1) ∨
    (∃ p, firstAdded s.2 q.hostname = some p ∧ ¬ (p.algorithm = q.algorithm ∧ p.key = q.key) ∧
      found = .ok .changed ∧
      run = .error (error "Refusing to replace existing host key") s.1) := by
  have rep := calls_represent base64 calls (s := ({ filePath := filePath }, []))
    (represents_missing base64 filePath)
  intro s found run
  obtain ⟨text, hencode, hname, -⟩ := base64.encode q.isKey
  have hcheck := rep.answers q.hostname q.algorithm q.key q.isKey
  rw [first_bindings] at hcheck
  cases hfirst : firstAdded s.2 q.hostname with
  | none =>
      simp only [s] at hfirst
      rw [hfirst] at hcheck
      refine .inl ⟨rfl, hcheck, _, ?_,
        newline_notMem_entry q.isHostname q.isAlgorithm hname, ?_⟩
      · simp
      · rw [← entry_eq]
        exact add_unknown rep.reliable hencode hcheck
  | some p =>
      simp only [s] at hfirst
      simp only [hfirst, Option.map_some, answer, Prod.mk.injEq] at hcheck
      by_cases hsame : p.algorithm = q.algorithm ∧ p.key = q.key
      · rw [if_pos hsame] at hcheck
        exact .inr (.inl ⟨p, rfl, hsame, hcheck, add_matched hcheck⟩)
      · rw [if_neg hsame] at hcheck
        exact .inr (.inr ⟨p, rfl, hsame, hcheck, add_changed hcheck⟩)

/-- A library whose text encoding is the standard one. -/
def textOnly : Crypto where
  hashSha256 _ := Fixed.zero 32
  authHmacsha256 _ _ := none
  scalarmultCurve25519Base _ := none
  scalarmultCurve25519 _ _ := none
  signVerifyDetached _ _ _ := false
  bin2base64 key := some (Text.Base64.encode key)
  bin2base64NoPadding := Text.Base64.encodeNoPadding
  contextNew _ := false
  cipherInit _ _ _ := false
  encryptUpdate _ _ := none
  decryptUpdate _ _ := none

theorem base64_textOnly : Base64 textOnly where
  total key := ⟨_, rfl⟩
  injective := by
    rintro key key' text h h'
    apply Text.Base64.encode_injective
    rw [Option.some.inj h, Option.some.inj h']
  isName := by
    rintro key text hk h
    rw [← Option.some.inj h]
    refine ⟨Text.Base64.encode_ne_nil hk, Text.Base64.forall_mem_encode ?_ (by decide) key⟩
    intro n hn
    have table : ∀ i : Fin 64, isSpace (Text.Base64.digit i) = false := by decide +kernel
    exact table ⟨n, hn⟩

theorem isName_of_forall {name : Bytes} (hne : name ≠ []) (h : name.all (!isSpace ·) = true) :
    IsName name :=
  ⟨hne, by simpa using h⟩

/-- A host name, the algorithm of the client and a short key. -/
def sampleQuery (hostname key : Bytes) (hne : hostname ≠ [])
    (h : hostname.all (!isSpace ·) = true) (hk : key ≠ []) : Query :=
  ⟨hostname, ascii "ssh-ed25519", key, isName_of_forall hne h,
    isName_of_forall (by decide) (by decide), hk⟩

def hostA : Query := sampleQuery (ascii "a") [1] (by decide) (by decide) (by decide)

def hostAOtherKey : Query := sampleQuery (ascii "a") [2] (by decide) (by decide) (by decide)

def hostB : Query := sampleQuery (ascii "b") [4, 5] (by decide) (by decide) (by decide)

/-- A second key for a host is refused, and a second host is stored behind the first. -/
theorem store_refines_write_once_two_hosts :
    let s := [.add hostA, .add hostAOtherKey, .add hostB].foldl (call textOnly)
      ({ filePath := ascii "hosts" }, [])
    s.1.content = some (ascii "a ssh-ed25519 AQ==\nb ssh-ed25519 BAU=\n") ∧
      ∃ p, firstAdded s.2 hostB.hostname = some p ∧
        check textOnly s.1 hostB.hostname hostB.algorithm hostB.key = .ok .matched := by
  refine ⟨by decide, ?_⟩
  rcases store_refines_write_once base64_textOnly (ascii "hosts")
    [.add hostA, .add hostAOtherKey, .add hostB] hostB with
    ⟨-, h, -⟩ | ⟨p, hp, -, h, -⟩ | ⟨-, -, -, h, -⟩
  · exact absurd h (by decide)
  · exact ⟨p, hp, h⟩
  · exact absurd h (by decide)

/-! ### Adding a host to an arbitrary file -/

/-- The new host is trusted with its key, and every other host is answered as before. -/
structure Undisturbed (crypto : Crypto) (before after : KnownHosts) (q : Query) : Prop where
  added : check crypto after q.hostname q.algorithm q.key = .ok .matched
  others : ∀ hostname, hostname ≠ q.hostname → ∀ algorithm key,
    check crypto after hostname algorithm key = check crypto before hostname algorithm key

theorem undisturbed_of_terminated (base64 : Base64 crypto) {hosts : KnownHosts}
    (reliable : hosts.system = {}) {q : Query} {text : Bytes}
    (htext : crypto.bin2base64 q.key = some text)
    (unknown : check crypto hosts q.hostname q.algorithm q.key = .ok .unknown)
    (terminated : ∀ content, hosts.content = some content → Text.Terminated newline content) :
    Undisturbed crypto hosts (hosts.appended (entry q.hostname q.algorithm text)) q := by
  have append := @check_append crypto hosts reliable terminated _ _ _ q.isHostname q.isAlgorithm
    (base64.isName _ _ q.isKey htext)
  constructor
  · rw [append (encodeBase64_ok q.isKey htext), unknown]
    simp [otherwise]
  · intro hostname hother algorithm key
    by_cases hk : key = []
    · subst hk
      rw [check_nil, check_nil]
    · obtain ⟨text', hencode, -⟩ := base64.encode hk
      rw [append hencode, if_pos (Ne.symm hother), otherwise_unknown]

/-- The first field of a line with three fields stays when the line is continued. -/
theorem words_continued {line first second third : Bytes} {later : List Bytes}
    (h : Text.words isSpace line = first :: second :: third :: later) (more : Bytes) :
    ∃ second' third' later', Text.words isSpace (line ++ more) =
      first :: second' :: third' :: later' := by
  obtain ⟨init, last, hinit⟩ : ∃ init last, third :: later = init ++ [last] :=
    ⟨_, _, (List.dropLast_append_getLast (by simp)).symm⟩
  have hall : Text.words isSpace line = (first :: second :: init) ++ [last] := by
    rw [h, hinit]
    rfl
  obtain ⟨last', later', hw⟩ := Text.words_append_init hall more
  cases init with
  | nil => exact ⟨second, last', later', hw⟩
  | cons word init => exact ⟨second, word, _, hw⟩

/-- An entry that is joined to the last line is not found: the first field of that line
is the name of another host. -/
theorem check_joined {hosts : KnownHosts} (reliable : hosts.system = {}) {content : Bytes}
    (hcontent : hosts.content = some content)
    (unterminated : ¬ Text.Terminated newline content)
    {hostname algorithm key text : Bytes} (hh : IsName hostname) (ha : IsName algorithm)
    (ht : IsName text) (hencode : encodeBase64 crypto key = .ok text)
    (unknown : check crypto hosts hostname algorithm key = .ok .unknown) :
    check crypto (hosts.appended (entry hostname algorithm text)) hostname algorithm key =
      .ok .unknown := by
  have reliable' : (hosts.appended (entry hostname algorithm text)).system = {} := reliable
  rw [check_eq reliable hencode, hcontent] at unknown
  obtain ⟨before, line, hne, hlines, hjoined⟩ := Text.lines_append_of_not_terminated unterminated
  have found := checkLines_eq_unknown unknown
  simp only [hlines] at found unknown
  obtain ⟨first, second, third, later, hwords, hfirst⟩ :=
    (found line (by simp)).resolve_left hne
  have hbefore : checkLines hostname algorithm text false before = .ok .unknown := by
    rw [checkLines_append] at unknown
    cases hb : checkLines hostname algorithm text false before with
    | error e => simp [hb, otherwise] at unknown
    | ok status => cases status <;> simp_all [otherwise]
  -- The joined line still begins with the name of the other host.
  obtain ⟨second', third', later', hwords'⟩ :=
    words_continued hwords (hostname ++ blank :: (algorithm ++ blank :: text))
  rw [check_eq reliable' hencode, appended, hcontent]
  simp only [Option.getD_some, entry_eq,
    hjoined _ [] (newline_notMem_entry hh ha ht), checkLines_append, hbefore]
  rw [checkLines, if_neg (by simp [hne]), hwords']
  simp [otherwise, hfirst, checkLines, Text.lines]

/-- Adding an unknown host leaves all existing trust as it was exactly when the file is
missing, is empty, or ends with a newline. -/
theorem add_undisturbed_iff (base64 : Base64 crypto) {hosts hosts' : KnownHosts}
    (reliable : hosts.system = {}) (q : Query)
    (unknown : check crypto hosts q.hostname q.algorithm q.key = .ok .unknown)
    (run : (add crypto q.hostname q.algorithm q.key).run hosts = .ok () hosts') :
    Undisturbed crypto hosts hosts' q ↔
      ∀ content, hosts.content = some content → Text.Terminated newline content := by
  obtain ⟨text, hencode, hname, htext⟩ := base64.encode q.isKey
  rw [add_unknown reliable hencode unknown] at run
  cases run
  refine ⟨fun undisturbed content hcontent => ?_,
    undisturbed_of_terminated base64 reliable htext unknown⟩
  by_contra unterminated
  have missed := check_joined reliable hcontent unterminated q.isHostname q.isAlgorithm hname
    hencode unknown
  rw [undisturbed.added] at missed
  cases missed

/-- A file whose last line is complete. -/
def endsWithNewline : KnownHosts :=
  { filePath := ascii "hosts", content := some (ascii "a ssh-ed25519 AQ==\n") }

/-- The same file cut before its last newline. -/
def cutOff : KnownHosts :=
  { filePath := ascii "hosts", content := some (ascii "a ssh-ed25519 AQ==") }

theorem add_undisturbed_iff_endsWithNewline :
    Undisturbed textOnly endsWithNewline
      { endsWithNewline with content := some (ascii "a ssh-ed25519 AQ==\nb ssh-ed25519 BAU=\n") }
      hostB := by
  refine (add_undisturbed_iff base64_textOnly rfl hostB (by decide) rfl).mpr ?_
  intro content hcontent
  rw [← Option.some.inj hcontent]
  decide

/-- On the cut file the new entry is joined to the old one: the new host is not found,
and the old host no longer matches its key. -/
theorem add_disturbs_cutOff :
    check textOnly cutOff hostB.hostname hostB.algorithm hostB.key = .ok .unknown ∧
      check textOnly cutOff (ascii "a") (ascii "ssh-ed25519") [1] = .ok .matched ∧
      ∃ hosts, (add textOnly hostB.hostname hostB.algorithm hostB.key).run cutOff =
          .ok () hosts ∧
        check textOnly hosts hostB.hostname hostB.algorithm hostB.key = .ok .unknown ∧
        check textOnly hosts (ascii "a") (ascii "ssh-ed25519") [1] = .ok .changed ∧
        ¬ Undisturbed textOnly cutOff hosts hostB := by
  refine ⟨by decide, by decide, _, rfl, by decide, by decide, fun undisturbed => ?_⟩
  exact absurd undisturbed.added (by decide)

end KnownHosts

end SshClient

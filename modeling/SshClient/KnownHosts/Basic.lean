import SshClient.Crypto
import SshClient.Text.Split

/-!
# The known-hosts file

`check` reads the whole file again on every call, line by line and field by field, and
answers from the first line whose host name is the one asked for. `add` appends. The
state is the content of the file under one path, together with what the system answers
to the calls made on it.
-/

namespace SshClient

open Control

inductive HostKeyStatus where
  | matched
  | unknown
  | changed
  deriving DecidableEq, Repr

/-- Only part of an appended entry reaches the file. The stream reports it only when
it has tried to flush before it is asked. -/
structure AppendFault where
  written : Nat
  noticed : Bool
  deriving DecidableEq, Repr

/-- The answers of the file system. The defaults are those of calls that succeed. -/
structure FileSystem where
  existsFails : Option Bytes := none
  readable : Bool := true
  readFault : Option Nat := none
  createDirectoriesFails : Option Bytes := none
  appendable : Bool := true
  appendFault : Option AppendFault := none
  deriving DecidableEq, Repr

/-- The store: its path, and the content of the file when there is one. -/
structure KnownHosts where
  filePath : Bytes
  content : Option Bytes := none
  system : FileSystem := {}
  deriving DecidableEq, Repr

namespace KnownHosts

def newline : UInt8 := 10

def blank : UInt8 := 32

/-- The white space of the classic locale. -/
def isSpace (c : UInt8) : Bool := c == 32 || (9 ≤ c && c ≤ 13)

def encodeBase64 (crypto : Crypto) (bytes : Bytes) : Except Stop Bytes := do
  failIf (bytes = []) (error "Cannot encode an empty host key")
  match crypto.bin2base64 bytes with
  | none => .error (error "Failed to encode host key")
  | some encoded => return encoded

/-- The lines that the loop of `check` sees, and whether the stream went bad behind
them. A line that is cut by the fault is not seen. -/
def readLines (system : FileSystem) (content : Bytes) : List Bytes × Bool :=
  match system.readFault with
  | none => (Text.lines newline content, false)
  | some count =>
      let text := content.take count
      if Text.Terminated newline text then (Text.lines newline text, true)
      else ((Text.lines newline text).dropLast, true)

def checkLines (hostname algorithm encodedKey : Bytes) (bad : Bool) :
    List Bytes → Except Stop HostKeyStatus
  | [] => if bad then .error (error "Failed while reading known-hosts file") else .ok .unknown
  | line :: rest =>
      if line = [] then checkLines hostname algorithm encodedKey bad rest
      else match Text.words isSpace line with
        | savedHostname :: savedAlgorithm :: savedKey :: _ =>
            if savedHostname ≠ hostname then checkLines hostname algorithm encodedKey bad rest
            else if savedAlgorithm = algorithm ∧ savedKey = encodedKey then .ok .matched
            else .ok .changed
        | _ => .error (error "Malformed known-hosts entry")

def check (crypto : Crypto) (hosts : KnownHosts) (hostname algorithm hostKey : Bytes) :
    Except Stop HostKeyStatus := do
  let encodedKey ← encodeBase64 crypto hostKey
  match hosts.system.existsFails with
  | some what => .error (.thrown what)
  | none =>
      match hosts.content with
      | none => .ok .unknown
      | some content =>
          failIf (!hosts.system.readable) (error "Failed to open known-hosts file")
          let (lines, bad) := readLines hosts.system content
          checkLines hostname algorithm encodedKey bad lines

/-- A path without a directory part has an empty parent. -/
def hasParentPath (filePath : Bytes) : Bool := filePath.contains 47

def createDirectories : Exec KnownHosts Unit := do
  let hosts ← get
  match hosts.system.createDirectoriesFails with
  | some what => throw (.thrown what)
  | none => pure ()

/-- The line that is appended for a host. -/
def entry (hostname algorithm encodedKey : Bytes) : Bytes :=
  hostname ++ blank :: (algorithm ++ blank :: (encodedKey ++ [newline]))

/-- The file with bytes appended. Opening it for that has created it. -/
def appended (hosts : KnownHosts) (bytes : Bytes) : KnownHosts :=
  { hosts with content := some (hosts.content.getD [] ++ bytes) }

/-- Write through a stream opened for appending. -/
def append (bytes : Bytes) : Exec KnownHosts Unit := do
  let hosts ← get
  match hosts.system.appendFault with
  | none => set (hosts.appended bytes)
  | some fault =>
      set (hosts.appended (bytes.take fault.written))
      failIf fault.noticed (error "Failed to write known-hosts entry")

def add (crypto : Crypto) (hostname algorithm hostKey : Bytes) : Exec KnownHosts Unit := do
  let hosts ← get
  let status ← lift (check crypto hosts hostname algorithm hostKey)
  if status = .matched then pure ()
  else
    failIf (status = .changed) (error "Refusing to replace existing host key")
    if hasParentPath hosts.filePath then createDirectories else pure ()
    failIf (!hosts.system.appendable) (error "Failed to open known-hosts file for writing")
    let encodedKey ← lift (encodeBase64 crypto hostKey)
    append (entry hostname algorithm encodedKey)

/-! ### Searching the lines -/

variable {hostname algorithm encodedKey : Bytes}

/-- An answer that was found stands; otherwise the search goes on. -/
def otherwise (found later : Except Stop HostKeyStatus) : Except Stop HostKeyStatus :=
  match found with
  | .ok .unknown => later
  | found => found

@[simp] theorem otherwise_unknown (found : Except Stop HostKeyStatus) :
    otherwise found (.ok .unknown) = found := by
  match found with
  | .error _ => rfl
  | .ok .matched => rfl
  | .ok .unknown => rfl
  | .ok .changed => rfl

theorem checkLines_append (before after : List Bytes) :
    checkLines hostname algorithm encodedKey false (before ++ after) =
      otherwise (checkLines hostname algorithm encodedKey false before)
        (checkLines hostname algorithm encodedKey false after) := by
  induction before with
  | nil => rfl
  | cons line before ih =>
      rw [List.cons_append, checkLines, checkLines]
      split
      · exact ih
      · split
        · split
          · exact ih
          · split <;> rfl
        · rfl

/-- Nothing was found exactly when every line is blank or of another host. -/
theorem checkLines_eq_unknown {lines : List Bytes}
    (h : checkLines hostname algorithm encodedKey false lines = .ok .unknown) :
    ∀ line ∈ lines, line = [] ∨ ∃ savedHostname savedAlgorithm savedKey later,
      Text.words isSpace line = savedHostname :: savedAlgorithm :: savedKey :: later ∧
        savedHostname ≠ hostname := by
  induction lines with
  | nil => simp
  | cons line lines ih =>
      rw [checkLines] at h
      intro other member
      split at h
      · rename_i hline
        rcases List.mem_cons.mp member with rfl | member
        · exact .inl hline
        · exact ih h other member
      · split at h
        · rename_i savedHostname savedAlgorithm savedKey later hwords
          split at h
          · rename_i hother
            rcases List.mem_cons.mp member with rfl | member
            · exact .inr ⟨_, _, _, _, hwords, hother⟩
            · exact ih h other member
          · split at h <;> cases h
        · cases h

theorem isSpace_blank : isSpace blank = true := by decide

theorem isSpace_newline : isSpace newline = true := by decide

/-- A name that the file format can hold. -/
abbrev IsName (name : Bytes) : Prop := Text.IsWord isSpace name

theorem newline_notMem {name : Bytes} (h : IsName name) : newline ∉ name := by
  intro hm
  have hspace := h.2 _ hm
  rw [isSpace_newline] at hspace
  cases hspace

/-- The fields of an entry are read back. -/
theorem words_entry (hh : IsName hostname) (ha : IsName algorithm) (hk : IsName encodedKey) :
    Text.words isSpace (hostname ++ blank :: (algorithm ++ blank :: encodedKey)) =
      [hostname, algorithm, encodedKey] := by
  have hend : Text.words isSpace encodedKey = [encodedKey] := by
    simpa [Text.words] using
      Text.words_append hk (show ([] : Bytes).head?.all isSpace = true from rfl)
  rw [Text.words_append hh (by simp [isSpace_blank]), Text.words_space isSpace_blank,
    Text.words_append ha (by simp [isSpace_blank]), Text.words_space isSpace_blank, hend]

theorem entry_eq (hostname algorithm encodedKey : Bytes) :
    entry hostname algorithm encodedKey =
      (hostname ++ blank :: (algorithm ++ blank :: encodedKey)) ++ [newline] := by
  simp [entry]

/-- An entry is one line. -/
theorem newline_notMem_entry (hh : IsName hostname) (ha : IsName algorithm)
    (hk : IsName encodedKey) :
    newline ∉ hostname ++ blank :: (algorithm ++ blank :: encodedKey) := by
  simp only [List.mem_append, List.mem_cons, not_or]
  exact ⟨newline_notMem hh, by decide, newline_notMem ha, by decide, newline_notMem hk⟩

/-- The search of the line of one entry. -/
theorem checkLines_entry {savedHostname savedAlgorithm savedKey : Bytes}
    (hh : IsName savedHostname) (ha : IsName savedAlgorithm) (hk : IsName savedKey) :
    checkLines hostname algorithm encodedKey false
        [savedHostname ++ blank :: (savedAlgorithm ++ blank :: savedKey)] =
      if savedHostname ≠ hostname then .ok .unknown
      else if savedAlgorithm = algorithm ∧ savedKey = encodedKey then .ok .matched
      else .ok .changed := by
  rw [checkLines, if_neg (by simp [hh.1]), words_entry hh ha hk]
  rfl

end KnownHosts

end SshClient

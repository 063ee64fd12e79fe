import SshClient.Basic

/-!
# The local terminal

The console is what the client shares with its user: the settings in force, the answers
of the calls that read and change them, and the lines that will be typed. `Terminal` is
the object that remembers the settings to go back to.

A failing `tcsetattr` changes nothing. A script with no answer left succeeds, and a line
that has not been typed yet is waited for.
-/

namespace SshClient

open Control

/-- The fields of `termios` that the client or `cfmakeraw` assign. -/
structure Termios where
  inputFlags : UInt32 := 0
  outputFlags : UInt32 := 0
  controlFlags : UInt32 := 0
  localFlags : UInt32 := 0
  minimum : UInt8 := 0
  timeout : UInt8 := 0
  deriving DecidableEq, Repr

/-- The flags of the Linux terminal driver. -/
def Termios.withoutEcho (settings : Termios) : Termios :=
  { settings with localFlags := settings.localFlags &&& ~~~ 0x8 }

/-- `cfmakeraw` -/
def Termios.makeRaw (settings : Termios) : Termios where
  inputFlags := settings.inputFlags &&& ~~~ 0x5EB
  outputFlags := settings.outputFlags &&& ~~~ 0x1
  controlFlags := (settings.controlFlags &&& ~~~ 0x130) ||| 0x30
  localFlags := settings.localFlags &&& ~~~ 0x804B
  minimum := 1
  timeout := 0

/-- One result of `std::getline` on the standard input. -/
inductive LineResult where
  | line (text : Bytes)
  | ended
  | failed (what : Bytes)
  deriving DecidableEq, Repr

structure Terminal where
  originalSettings : Termios := {}
  rawModeActive : Bool := false
  deriving DecidableEq, Repr

structure Console where
  settings : Termios := {}
  getAnswers : List Bool := []
  setAnswers : List Bool := []
  lines : List LineResult := []
  output : List Bytes := []
  terminal : Terminal := {}
  deriving DecidableEq, Repr

/-- What the client asks of its environment when it describes its terminal. -/
structure Display where
  term : Option Bytes := none
  dimensions : Option (UInt16 × UInt16) := none
  deriving DecidableEq, Repr

structure TerminalInfo where
  type : Bytes
  columns : UInt32
  rows : UInt32
  deriving DecidableEq, Repr

namespace Console

def print (text : Bytes) : Exec Console Unit :=
  modify fun console => { console with output := console.output ++ [text] }

def tcgetattr : Exec Console (Option Termios) := do
  let console ← get
  match console.getAnswers with
  | [] => return some console.settings
  | answer :: rest =>
      set { console with getAnswers := rest }
      return if answer then some console.settings else none

def tcsetattr (settings : Termios) : Exec Console Bool := do
  let console ← get
  match console.setAnswers with
  | [] =>
      set { console with settings := settings }
      return true
  | true :: rest =>
      set { console with settings := settings, setAnswers := rest }
      return true
  | false :: rest =>
      set { console with setAnswers := rest }
      return false

def getline : Exec Console LineResult := do
  let console ← get
  match console.lines with
  | [] => throw .blocked
  | result :: rest =>
      set { console with lines := rest }
      return result

end Console

namespace Terminal

open Console

def defaultTerminalColumns : UInt32 := 80
def defaultTerminalRows : UInt32 := 24
def defaultTerminalType : Bytes := ascii "xterm-256color"

/-- The settings are put back also when reading the line throws. -/
def readHiddenInput (prompt : Bytes) : Exec Console Bytes := do
  print prompt
  match ← tcgetattr with
  | none => throw (error "Failed to save current terminal settings")
  | some original =>
      let hidden := original.withoutEcho
      failIf (!(← tcsetattr hidden)) (error "Failed to disable terminal echo")
      match ← getline with
      | .failed what =>
          let _ ← tcsetattr original
          print (ascii "\n")
          throw (.thrown what)
      | result =>
          failIf (!(← tcsetattr original)) (error "Failed to reenable terminal echo")
          match result with
          | .line password =>
              print (ascii "\n")
              return password
          | _ => throw (error "Password not read correctly")

def getTerminalInfo (display : Display) : TerminalInfo :=
  let type := match display.term with
    | none => defaultTerminalType
    | some [] => defaultTerminalType
    | some value => value
  match display.dimensions with
  | some (columns, rows) =>
      if columns ≠ 0 ∧ rows ≠ 0 then ⟨type, columns.toUInt32, rows.toUInt32⟩
      else ⟨type, defaultTerminalColumns, defaultTerminalRows⟩
  | none => ⟨type, defaultTerminalColumns, defaultTerminalRows⟩

def enableRawMode : Exec Console Unit := do
  let console ← get
  if console.terminal.rawModeActive then return
  match ← tcgetattr with
  | none => throw (error "Failed to read terminal settings")
  | some original =>
      modify fun console =>
        { console with terminal := { console.terminal with originalSettings := original } }
      failIf (!(← tcsetattr original.makeRaw)) (error "Failed to enable raw terminal mode")
      modify fun console =>
        { console with terminal := { console.terminal with rawModeActive := true } }

def restore : Exec Console Unit := do
  let console ← get
  if !console.terminal.rawModeActive then return
  failIf (!(← tcsetattr console.terminal.originalSettings))
    (error "Failed to restore terminal settings")
  modify fun console =>
    { console with terminal := { console.terminal with rawModeActive := false } }

/-- `~Terminal` ignores the result of its call. -/
def destroy : Exec Console Unit := do
  let console ← get
  if console.terminal.rawModeActive then
    let _ ← tcsetattr console.terminal.originalSettings

/-! ### The settings are put back -/

/-- What the system answers during one call of the client. The `tcsetattr` that restores
settings is not among it: a script with no answer left succeeds. -/
structure Answers where
  tcgetattr : Bool := true
  entering : Bool := true
  getline : LineResult := .ended
  deriving DecidableEq, Repr

inductive Call where
  | enableRawMode
  | restore
  | readHiddenInput (prompt : Bytes)
  deriving DecidableEq, Repr

/-- The console of a call that reads the settings, enters a mode and perhaps reads a line. -/
def answering (answers : Answers) (console : Console) : Console :=
  { console with
    getAnswers := [answers.tcgetattr], setAnswers := [answers.entering],
    lines := [answers.getline] }

/-- The console of a call whose only system call restores the settings. -/
def restoring (console : Console) : Console := { console with setAnswers := [] }

/-- One call, with the exception it may throw caught by the caller. -/
def call (console : Console) : Call × Answers → Console
  | (.enableRawMode, answers) => outcome (enableRawMode.run (answering answers console))
  | (.restore, _) => outcome (restore.run (restoring console))
  | (.readHiddenInput prompt, answers) =>
      outcome ((readHiddenInput prompt).run (answering answers console))

/-- The constructor. -/
def construct (console : Console) : Console := { console with terminal := {} }

/-- The settings in force are those given, or their raw version with those given saved. -/
structure Kept (settings : Termios) (console : Console) : Prop where
  inactive : console.terminal.rawModeActive = false → console.settings = settings
  active : console.terminal.rawModeActive = true →
    console.terminal.originalSettings = settings ∧ console.settings = settings.makeRaw

variable {settings : Termios} {console : Console}

theorem Kept.construct (console : Console) : Kept console.settings (construct console) :=
  ⟨fun _ => rfl, nofun⟩

theorem Kept.enableRawMode (h : Kept settings console) (answers : Answers) :
    Kept settings (outcome (enableRawMode.run (answering answers console))) := by
  obtain ⟨current, _, _, _, _, original, rawModeActive⟩ := console
  obtain ⟨read, entered, _⟩ := answers
  cases rawModeActive with
  | true => exact ⟨h.inactive, h.active⟩
  | false =>
      obtain rfl : current = settings := h.inactive rfl
      cases read with
      | false => exact ⟨fun _ => rfl, nofun⟩
      | true =>
          -- The saved copy is taken before the mode is entered, from settings not yet altered.
          cases entered with
          | false => exact ⟨fun _ => rfl, nofun⟩
          | true => exact ⟨nofun, fun _ => ⟨rfl, rfl⟩⟩

theorem Kept.restore (h : Kept settings console) :
    Kept settings (outcome (restore.run (restoring console))) := by
  obtain ⟨current, _, _, _, _, original, rawModeActive⟩ := console
  cases rawModeActive with
  | true => exact ⟨fun _ => (h.active rfl).1, nofun⟩
  | false => exact ⟨h.inactive, nofun⟩

/-- Hidden input leaves the settings as it found them, in whatever mode they are. -/
theorem readHiddenInput_leaves (prompt : Bytes) (answers : Answers) (console : Console) :
    (outcome ((readHiddenInput prompt).run (answering answers console))).settings =
        console.settings ∧
      (outcome ((readHiddenInput prompt).run (answering answers console))).terminal =
        console.terminal := by
  obtain ⟨read, entered, line⟩ := answers
  cases read with
  | false => exact ⟨rfl, rfl⟩
  | true =>
      cases entered with
      | false => exact ⟨rfl, rfl⟩
      | true => cases line <;> exact ⟨rfl, rfl⟩

theorem Kept.call (h : Kept settings console) (made : Call × Answers) :
    Kept settings (call console made) := by
  obtain ⟨call, answers⟩ := made
  cases call with
  | enableRawMode => exact h.enableRawMode answers
  | restore => exact h.restore
  | readHiddenInput prompt =>
      obtain ⟨hsettings, hterminal⟩ := readHiddenInput_leaves prompt answers console
      constructor
      · intro hraw
        exact hsettings.trans (h.inactive (hterminal ▸ hraw))
      · intro hraw
        obtain ⟨hsaved, hforce⟩ := h.active (hterminal ▸ hraw)
        exact ⟨by rw [Terminal.call, hterminal, hsaved], hsettings.trans hforce⟩

theorem Kept.calls (h : Kept settings console) (calls : List (Call × Answers)) :
    Kept settings (calls.foldl Terminal.call console) := by
  induction calls generalizing console with
  | nil => exact h
  | cons made calls ih => exact ih (h.call made)

theorem Kept.destroy (h : Kept settings console) :
    (outcome (destroy.run (restoring console))).settings = settings := by
  obtain ⟨current, _, _, _, _, original, rawModeActive⟩ := console
  cases rawModeActive with
  | true => exact (h.active rfl).1
  | false => exact h.inactive rfl

/-- Between any two calls the settings in force are those of the construction or their raw
version, with the originals saved, and the destructor puts the originals back. -/
theorem terminal_put_back (console : Console) (calls : List (Call × Answers)) :
    let reached := calls.foldl call (construct console)
    (reached.terminal.rawModeActive = false → reached.settings = console.settings) ∧
      (reached.terminal.rawModeActive = true →
        reached.terminal.originalSettings = console.settings ∧
          reached.settings = console.settings.makeRaw) ∧
      (outcome (destroy.run (restoring reached))).settings = console.settings := by
  intro reached
  have hkept : Kept console.settings reached := (Kept.construct console).calls calls
  exact ⟨hkept.inactive, hkept.active, hkept.destroy⟩

end Terminal

end SshClient

import SshClient.Client.Config
import SshClient.Client.Handshake
import SshClient.Client.Session

/-!
# The program

`main` connects the parts. An exception of any of them ends in a message and the exit
code 1. The terminal object lives from the end of the key exchange on, and its destructor
runs on the way out, by return or by exception.
-/

namespace SshClient.Client

open Control

/-- Everything outside the program that a run depends on. -/
structure Environment where
  arguments : List Bytes
  home : Option Bytes := none
  sodiumInitialises : Bool := true
  network : Network := {}
  knownHosts : Option Bytes := none
  fileSystem : FileSystem := {}
  display : Display := {}
  console : Console := {}
  keyboard : List KeyboardRead := []
  polls : List PollResult := []
  random : Nat → UInt8 := fun _ => 0

variable (crypto : Crypto)

/-- Run a block in which a `Terminal` lives. -/
def withTerminal (x : Exec World Unit) : Exec World Unit := fun w =>
  let w := { w with console := { w.console with terminal := {} } }
  match x.run w with
  | .ok _ t => (onConsole Terminal.destroy).run t
  | .error (.thrown what) t =>
      (do onConsole Terminal.destroy; throw (.thrown what) : Exec World Unit).run t
  | .error e t => .error e t

/-- The block under `try`. -/
def session (env : Environment) : Exec World Unit := do
  let config ← lift (Config.parseClientConfig env.arguments)
  let hostIdentifier := Config.knownHostIdentifier config
  failIf (!env.sodiumInitialises) (error "Sodium could not be initialised")
  match env.home with
  | none => throw (error "HOME environment variable could not be accessed")
  | some homeDirectory =>
      modify fun w => { w with hosts := {
        filePath := homeDirectory ++ config.knownHostsRelativePath
        content := env.knownHosts
        system := env.fileSystem } }
      let sock ← lift (Socket.connected env.network config.hostname config.port)
      modify fun w => { w with wire := { w.wire with sock := sock } }
      let id ← onWire (onSocket (exchangeIdentification config.identification))
      onWire (record (.identified id.client id.server))
      performKeyExchange crypto id hostIdentifier
      withTerminal do
        authenticateUser crypto config.username
        runConnectionSession crypto env.display

/-- The world in which the program starts. -/
def Environment.start (env : Environment) : World where
  wire := { random := env.random }
  console := env.console
  keyboard := env.keyboard
  polls := env.polls

/-- The exit code, unless the program is still waiting for something. -/
def main (env : Environment) : EStateM.Result Stop World Nat :=
  match (session crypto env).run env.start with
  | .ok _ t => .ok 0 t
  | .error (.thrown what) t =>
      (do printError (ascii "Error: " ++ what ++ ascii "\n"); return 1 : Exec World Nat).run t
  | .error e t => .error e t

end SshClient.Client

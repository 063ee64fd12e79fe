import SshClient.Trace
import SshClient.Terminal

/-!
# The state of a run

A run of the client is a program on a world: the wire with its trace, the known-hosts
file, the console, the channel of the session, and the scripts of the two calls that the
shell loop makes itself, `poll(2)` and `read(2)` on the standard input. Whatever
`std::getline` has taken from the standard input before the shell, with the bytes that it
may hold in its buffer, belongs to the lines of the console and not to that `read(2)`.
-/

namespace SshClient

open Control

/-- One result of `poll(2)`: whether the keyboard and the socket are readable, and whether
an error, a hang-up or an invalid descriptor is reported for the socket. -/
inductive PollResult where
  | interrupted
  | failed
  | ready (keyboard socket closed : Bool)
  deriving DecidableEq, Repr

/-- One result of `read(2)` on the standard input in the shell. An empty chunk is the end of
the input. -/
inductive KeyboardRead where
  | returned (chunk : Bytes)
  | failed
  deriving DecidableEq, Repr

structure World where
  wire : Wire := {}
  hosts : KnownHosts := { filePath := [] }
  console : Console := {}
  keyboard : List KeyboardRead := []
  polls : List PollResult := []
  channel : Channel := {}

section Parts

variable {α : Type}

def onWire (x : Exec Wire α) : Exec World α :=
  focus World.wire (fun w wire => { w with wire := wire }) x

def onHosts (x : Exec KnownHosts α) : Exec World α :=
  focus World.hosts (fun w hosts => { w with hosts := hosts }) x

def onConsole (x : Exec Console α) : Exec World α :=
  focus World.console (fun w console => { w with console := console }) x

def onChannel (x : Exec Channel α) : Exec World α :=
  focus World.channel (fun w channel => { w with channel := channel }) x

variable {w : World} {post : α → World → Prop} {fail : Stop → World → Prop}

@[simp] theorem wp_onWire {x : Exec Wire α} :
    WP (onWire x) w post fail ↔
      WP x w.wire (fun a wire => post a { w with wire := wire })
        (fun e wire => fail e { w with wire := wire }) := WP.focus_iff

@[simp] theorem wp_onHosts {x : Exec KnownHosts α} :
    WP (onHosts x) w post fail ↔
      WP x w.hosts (fun a hosts => post a { w with hosts := hosts })
        (fun e hosts => fail e { w with hosts := hosts }) := WP.focus_iff

@[simp] theorem wp_onConsole {x : Exec Console α} :
    WP (onConsole x) w post fail ↔
      WP x w.console (fun a console => post a { w with console := console })
        (fun e console => fail e { w with console := console }) := WP.focus_iff

@[simp] theorem wp_onChannel {x : Exec Channel α} :
    WP (onChannel x) w post fail ↔
      WP x w.channel (fun a channel => post a { w with channel := channel })
        (fun e channel => fail e { w with channel := channel }) := WP.focus_iff

end Parts

def print (text : Bytes) : Exec World Unit := onWire (record (.printed text))

def printError (text : Bytes) : Exec World Unit := onWire (record (.printedError text))

/-- `poll` on both descriptors. The keyboard is reported only when it was asked for. -/
def poll (keyboardEvents : Bool) : Exec World PollResult := do
  let w ← get
  match w.polls with
  | [] => throw .blocked
  | result :: rest =>
      set { w with polls := rest }
      match result with
      | .ready keyboard socket closed => return .ready (keyboard && keyboardEvents) socket closed
      | result => return result

/-- `read(2)` of at most `maxRead` bytes. What was not asked for stays in the input. -/
def readKeyboard (maxRead : Nat) : Exec World Bytes := do
  let w ← get
  match w.keyboard with
  | [] => throw .blocked
  | .failed :: rest =>
      set { w with keyboard := rest }
      throw (error "Failed to read keyboard input")
  | .returned chunk :: rest =>
      if chunk.length ≤ maxRead then
        set { w with keyboard := rest }
        return chunk
      else
        set { w with keyboard := .returned (chunk.drop maxRead) :: rest }
        return chunk.take maxRead

end SshClient

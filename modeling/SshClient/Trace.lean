import SshClient.Crypto
import SshClient.Socket
import SshClient.KnownHosts.Basic
import SshClient.Connection.Basic

/-!
# What a run does, in order

Properties of whole runs speak about the order of what happened, so the state of a run
keeps a trace. No function of the client reads it. An event is recorded where the
client has just done what it describes, and it carries the values that were used.

`sending` is recorded on entry to `sendPacket`, with the transport as it is then, and
`sent` when it returns. `received` is recorded when `receivePacket` returns, with the
transport as it was on entry.
`accepted` marks a payload that the handler of its message type has taken without
throwing; a message that makes the client give up is never accepted.
-/

namespace SshClient

open Control

/-- The fields of a `Transport`. The keys are arrays that the constructor leaves
unset; they are not read before encryption is enabled. -/
structure Transport where
  incomingSequence : UInt32 := 0
  outgoingSequence : UInt32 := 0
  outgoingEncryptionActive : Bool := false
  incomingEncryptionActive : Bool := false
  outgoingCipher : Option Cipher := none
  incomingCipher : Option Cipher := none
  outgoingMacKey : Fixed 32 := Fixed.zero 32
  incomingMacKey : Fixed 32 := Fixed.zero 32
  deriving DecidableEq

inductive Event where
  | identified (client server : Bytes)
  | sending (transport : Transport) (payload : Bytes)
  | sent (payload : Bytes)
  | received (transport : Transport) (payload : Bytes)
  | accepted (payload : Bytes)
  | signatureVerified (signature : Fixed 64) (exchangeHash : Fixed 32) (publicKey : Fixed 32)
  | hostChecked (hostname algorithm hostKey : Bytes) (status : HostKeyStatus)
  | answered (line : Bytes)
  | hostAdded (hostname algorithm hostKey : Bytes)
  | loopHead (channel : Channel) (transport : Transport)
  | typed (channel : Channel) (bytes : Bytes)
  | wroteStdout (data : Bytes)
  | wroteStderr (data : Bytes)
  | printed (text : Bytes)
  | printedError (text : Bytes)
  deriving DecidableEq

/-- A transport with the socket below it, the random bytes not yet drawn, and the trace
of the run. `authenticated` and `verified` list the sequence numbers and packets for
which a tag was computed in `sendPacket` and found right in `receivePacket`. -/
structure Wire where
  sock : Socket := {}
  transport : Transport := {}
  random : Nat → UInt8 := fun _ => 0
  drawn : Nat := 0
  trace : List Event := []
  authenticated : List (UInt32 × Bytes) := []
  verified : List (UInt32 × Bytes) := []

def record (event : Event) : Exec Wire Unit :=
  modify fun w => { w with trace := w.trace ++ [event] }

/-- `randombytes_buf` -/
def randombytesBuf (count : Nat) : Exec Wire Bytes := do
  let w ← get
  set { w with drawn := w.drawn + count }
  return (List.range count).map fun i => w.random (w.drawn + i)

/-- A call on the socket of the transport. -/
def onSocket {α : Type} (x : Exec Socket α) : Exec Wire α :=
  focus Wire.sock (fun w sock => { w with sock := sock }) x

section Rules

variable {w : Wire} {fail : Stop → Wire → Prop}

@[simp] theorem wp_record {event : Event} {post : Unit → Wire → Prop} :
    WP (record event) w post fail ↔ post () { w with trace := w.trace ++ [event] } := Iff.rfl

@[simp] theorem wp_randombytesBuf {count : Nat} {post : Bytes → Wire → Prop} :
    WP (randombytesBuf count) w post fail ↔
      post ((List.range count).map fun i => w.random (w.drawn + i))
        { w with drawn := w.drawn + count } := Iff.rfl

@[simp] theorem wp_onSocket {α : Type} {x : Exec Socket α} {post : α → Wire → Prop} :
    WP (onSocket x) w post fail ↔
      WP x w.sock (fun a sock => post a { w with sock := sock })
        (fun e sock => fail e { w with sock := sock }) := WP.focus_iff

end Rules

end SshClient

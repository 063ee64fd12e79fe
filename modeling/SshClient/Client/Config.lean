import SshClient.KnownHosts.Basic

/-!
# The command line

The target `username@host`, an optional port, and the name under which the host key of
the target is kept. `stoul` is the conversion of the C++ library in base ten: blanks, a
sign, digits, and a value of 64 bits that a minus sign negates modulo `2 ^ 64`.
-/

namespace SshClient

open Control

def defaultSshPort : UInt16 := 22

structure ClientConfig where
  hostname : Bytes
  port : UInt16 := defaultSshPort
  username : Bytes
  identification : Bytes := ascii "SSH-2.0-ConorSSH_0.1"
  knownHostsRelativePath : Bytes := ascii "/.conorssh/known_hosts"
  deriving DecidableEq, Repr

namespace Config

def atSign : UInt8 := 64

def isDigit (c : UInt8) : Bool := 48 ≤ c && c ≤ 57

def digitsValue (digits : Bytes) : Nat :=
  digits.foldl (fun value c => value * 10 + (c.toNat - 48)) 0

/-- The value and the number of characters that were converted. Without digits, and for
digits above `ULONG_MAX`, the library throws. -/
def stoul (text : Bytes) : Option (Nat × Nat) :=
  let unspaced := text.dropWhile KnownHosts.isSpace
  let (negative, unsigned) := match unspaced with
    | 45 :: rest => (true, rest)
    | 43 :: rest => (false, rest)
    | rest => (false, rest)
  let digits := unsigned.takeWhile isDigit
  let parsed := text.length - unsigned.length + digits.length
  if digits = [] then none
  else if digitsValue digits > 18446744073709551615 then none
  else if negative then
    some ((18446744073709551616 - digitsValue digits) % 18446744073709551616, parsed)
  else some (digitsValue digits, parsed)

def parsePort (portText : Bytes) : Except Stop UInt16 :=
  match stoul portText with
  | none => .error (error "Port must be an integer from 1 to 65535")
  | some (parsedPort, parsedCharacters) => do
      failIf (parsedCharacters ≠ portText.length ∨ parsedPort = 0 ∨ parsedPort > 65535)
        (error "Port must be an integer from 1 to 65535")
      return UInt16.ofNat parsedPort

/-- The argument vector with the program name in front. -/
def parseClientConfig (argv : List Bytes) : Except Stop ClientConfig := do
  failIf (argv.length ≠ 2 ∧ argv.length ≠ 3) (error "Usage: ssh <username>@<host> [port]")
  let target := argv.getD 1 []
  match target.findIdx? (· == atSign) with
  | none => .error (error "Target must use the format <username>@<host>")
  | some separator =>
      failIf (separator = 0 ∨ separator = target.length - 1 ∨
          atSign ∈ target.drop (separator + 1))
        (error "Target must use the format <username>@<host>")
      let config : ClientConfig := {
        username := target.take separator
        hostname := target.drop (separator + 1) }
      match argv[2]? with
      | none => return config
      | some portText => return { config with port := ← parsePort portText }

def knownHostIdentifier (config : ClientConfig) : Bytes :=
  if config.port = defaultSshPort then config.hostname
  else ascii "[" ++ config.hostname ++ ascii "]:" ++ ascii (toString config.port.toNat)

end Config

end SshClient

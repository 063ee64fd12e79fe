import SshClient.Basic

/-!
# The cryptographic libraries as parameters

libsodium and OpenSSL are not part of the client. `Crypto` has one field for each call
that the client makes, with the failures that it checks for. Nothing is assumed about
the fields here: a result that needs an assumption takes it as a hypothesis of its own,
and the two that are shared, counter mode and the text encoding, are stated beside the
modules that rely on them.
-/

namespace SshClient

/-- A `std::array` of bytes. -/
abbrev Fixed (n : Nat) := { bytes : Bytes // bytes.length = n }

namespace Fixed

def zero (n : Nat) : Fixed n := ⟨List.replicate n 0, List.length_replicate⟩

/-- Copy a range that has been checked to have the size of the array. -/
def copy (n : Nat) (bytes : Bytes) : Fixed n :=
  if h : bytes.length = n then ⟨bytes, h⟩ else zero n

theorem copy_val {n : Nat} {bytes : Bytes} (h : bytes.length = n) : (copy n bytes).val = bytes := by
  simp [copy, h]

/-- The first bytes of a longer array. -/
def first {m : Nat} (n : Nat) (h : n ≤ m) (bytes : Fixed m) : Fixed n :=
  ⟨bytes.val.take n, by rw [List.length_take, bytes.property]; omega⟩

end Fixed

/-- An AES-256-CTR context: what it was initialised with, and how many bytes it has
processed. -/
structure Cipher where
  key : Fixed 32
  iv : Fixed 16
  position : Nat := 0
  deriving DecidableEq

/-- The context after `count` more bytes. -/
def Cipher.advance (context : Cipher) (count : Nat) : Cipher :=
  { context with position := context.position + count }

/-- The two directions of a transport. -/
inductive Direction where
  | outgoing
  | incoming
  deriving DecidableEq

/-- The calls of the client into its libraries. A call that reports failure by a
return code or a null pointer has an optional or a Boolean result. -/
structure Crypto where
  hashSha256 : Bytes → Fixed 32
  authHmacsha256 : Bytes → Fixed 32 → Option (Fixed 32)
  scalarmultCurve25519Base : Fixed 32 → Option (Fixed 32)
  scalarmultCurve25519 : Fixed 32 → Fixed 32 → Option (Fixed 32)
  signVerifyDetached : Fixed 64 → Bytes → Fixed 32 → Bool
  bin2base64 : Bytes → Option Bytes
  bin2base64NoPadding : Bytes → Bytes
  contextNew : Direction → Bool
  cipherInit : Direction → Fixed 32 → Fixed 16 → Bool
  encryptUpdate : Cipher → Bytes → Option Bytes
  decryptUpdate : Cipher → Bytes → Option Bytes

end SshClient

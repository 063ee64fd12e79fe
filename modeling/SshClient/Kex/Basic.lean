import SshClient.Trace
import SshClient.Common.Encoding

/-!
# Algorithm negotiation, key agreement and key derivation

The parsers move a cursor that is local to the call. Only two functions of the class
draw random bytes, and only these are programs on the wire; the others are pure and can
throw. The bytes that are hashed have definitions of their own, so that a statement about
a digest can name what it is the digest of.
-/

namespace SshClient

open Control

structure KexInit where
  rawPayload : Bytes
  cookie : Fixed 16
  kexAlgorithms : Bytes
  hostKeyAlgorithms : Bytes
  encryptionCsAlgorithms : Bytes
  encryptionScAlgorithms : Bytes
  macCsAlgorithms : Bytes
  macScAlgorithms : Bytes
  compressionCsAlgorithms : Bytes
  compressionScAlgorithms : Bytes
  languagesCs : Bytes
  languagesSc : Bytes
  firstKexPacketFollows : Bool
  deriving DecidableEq

structure NegotiatedAlgorithms where
  kexAlgorithm : Bytes
  hostKeyAlgorithm : Bytes
  encryptionCsAlgorithm : Bytes
  encryptionScAlgorithm : Bytes
  macCsAlgorithm : Bytes
  macScAlgorithm : Bytes
  compressionCsAlgorithm : Bytes
  compressionScAlgorithm : Bytes
  deriving DecidableEq

structure Curve25519State where
  clientPrivateKey : Fixed 32
  clientPublicKey : Fixed 32
  sharedSecret : Fixed 32 := Fixed.zero 32
  deriving DecidableEq

structure EcdhReply where
  serverHostKey : Bytes
  serverPublicKey : Fixed 32
  signature : Bytes
  deriving DecidableEq

structure Ed25519VerificationData where
  publicKey : Fixed 32
  signature : Fixed 64
  deriving DecidableEq

structure TransportKeyMaterial where
  ivCs : Fixed 16
  ivSc : Fixed 16
  encryptionKeyCs : Fixed 32
  encryptionKeySc : Fixed 32
  macKeyCs : Fixed 32
  macKeySc : Fixed 32
  deriving DecidableEq

namespace Kex

def cookieBytes : Nat := 16

def lengthOfKey : Nat := 32

/-! ### Negotiation -/

def readNameList (payload : Bytes) : Exec Nat Bytes := do
  let position ← get
  failIf (position > payload.length) (error "SSH Payload missing expected bytes")
  let remaining ← sizeSub payload.length position
  failIf (remaining < uint32Bytes) (error "Expected list length")
  let length ← copyRange payload position uint32Bytes
  let listLength := (decodeUint32 length).toNat
  set (position + uint32Bytes)
  let position ← get
  let remaining ← sizeSub payload.length position
  failIf (remaining < listLength) (error "Expected list")
  let listText ← copyRange payload position listLength
  set (position + listLength)
  return listText

def parseBoolean (payload : Bytes) : Exec Nat Bool := do
  let position ← get
  failIf (position > payload.length) (error "SSH Payload missing expected bytes")
  let remaining ← sizeSub payload.length position
  failIf (remaining < 1) (error "Expected 1 byte")
  let byte ← byteAt payload position
  set (position + 1)
  return byte != 0

def parseKexinit (payload : Bytes) : Except Stop KexInit :=
  evalOn (do
    failIf (payload.length < 1) (error "Payload should not be empty")
    failIf (payload.head? ≠ some Message.kexinit) (error "SSH KEXINIT packet was expected")
    let position ← get
    let remaining ← sizeSub payload.length position
    failIf (remaining < cookieBytes) (error "Payload should contain a cookie")
    let cookie ← copyRange payload position cookieBytes
    set (position + cookieBytes)
    let kexAlgorithms ← readNameList payload
    let hostKeyAlgorithms ← readNameList payload
    let encryptionCsAlgorithms ← readNameList payload
    let encryptionScAlgorithms ← readNameList payload
    let macCsAlgorithms ← readNameList payload
    let macScAlgorithms ← readNameList payload
    let compressionCsAlgorithms ← readNameList payload
    let compressionScAlgorithms ← readNameList payload
    let languagesCs ← readNameList payload
    let languagesSc ← readNameList payload
    let firstKexPacketFollows ← parseBoolean payload
    let position ← get
    let remaining ← sizeSub payload.length position
    failIf (remaining < uint32Bytes) (error "4 reserved bytes expected")
    let reserved ← copyRange payload position uint32Bytes
    let reservedValue := decodeUint32 reserved
    set (position + uint32Bytes)
    failIf (reservedValue ≠ 0) (error "Reserved bytes expected to be equal to 0")
    failIf (payload.length ≠ position + uint32Bytes) (error "Additional bytes not expected")
    return {
      rawPayload := payload
      cookie := Fixed.copy 16 cookie
      kexAlgorithms := kexAlgorithms
      hostKeyAlgorithms := hostKeyAlgorithms
      encryptionCsAlgorithms := encryptionCsAlgorithms
      encryptionScAlgorithms := encryptionScAlgorithms
      macCsAlgorithms := macCsAlgorithms
      macScAlgorithms := macScAlgorithms
      compressionCsAlgorithms := compressionCsAlgorithms
      compressionScAlgorithms := compressionScAlgorithms
      languagesCs := languagesCs
      languagesSc := languagesSc
      firstKexPacketFollows := firstKexPacketFollows }) 1

def appendNameList (payload list : Bytes) : Except Stop Bytes :=
  if list.length > 4294967295 then .error (error "Length doesn't bit into 32 bits")
  else .ok (payload ++ encodeUint32 (UInt32.ofNat list.length) ++ list)

/-- The payload for a cookie, ten name-lists and the flag. -/
def kexinitPayload (k : KexInit) : Except Stop Bytes := do
  let payload := [Message.kexinit] ++ k.cookie.val
  let payload ← appendNameList payload k.kexAlgorithms
  let payload ← appendNameList payload k.hostKeyAlgorithms
  let payload ← appendNameList payload k.encryptionCsAlgorithms
  let payload ← appendNameList payload k.encryptionScAlgorithms
  let payload ← appendNameList payload k.macCsAlgorithms
  let payload ← appendNameList payload k.macScAlgorithms
  let payload ← appendNameList payload k.compressionCsAlgorithms
  let payload ← appendNameList payload k.compressionScAlgorithms
  let payload ← appendNameList payload k.languagesCs
  let payload ← appendNameList payload k.languagesSc
  return payload ++ [if k.firstKexPacketFollows then 1 else 0] ++ encodeUint32 0

/-- The algorithms of this client, before the payload is built. -/
def clientOffer (cookie : Fixed 16) : KexInit where
  rawPayload := []
  cookie := cookie
  kexAlgorithms := ascii "curve25519-sha256"
  hostKeyAlgorithms := ascii "ssh-ed25519"
  encryptionCsAlgorithms := ascii "aes256-ctr"
  encryptionScAlgorithms := ascii "aes256-ctr"
  macCsAlgorithms := ascii "hmac-sha2-256"
  macScAlgorithms := ascii "hmac-sha2-256"
  compressionCsAlgorithms := ascii "none"
  compressionScAlgorithms := ascii "none"
  languagesCs := []
  languagesSc := []
  firstKexPacketFollows := false

def createClientKexinit : Exec Wire KexInit := do
  let cookie ← randombytesBuf cookieBytes
  let result := clientOffer (Fixed.copy 16 cookie)
  let rawPayload ← lift (kexinitPayload result)
  return { result with rawPayload := rawPayload }

def comma : UInt8 := 44

/-- The first name of the client that is also one of the server. -/
def chooseAlgorithm (clientList serverList : Bytes) : Except Stop Bytes :=
  let client := Text.lines comma clientList
  let server := Text.lines comma serverList
  match client.find? fun c => server.any fun s => c == s with
  | some c => .ok c
  | none => .error (error "No mutually supported SSH algorithm")

def negotiate (client server : KexInit) : Except Stop NegotiatedAlgorithms := do
  return {
    kexAlgorithm := ← chooseAlgorithm client.kexAlgorithms server.kexAlgorithms
    hostKeyAlgorithm := ← chooseAlgorithm client.hostKeyAlgorithms server.hostKeyAlgorithms
    encryptionCsAlgorithm :=
      ← chooseAlgorithm client.encryptionCsAlgorithms server.encryptionCsAlgorithms
    encryptionScAlgorithm :=
      ← chooseAlgorithm client.encryptionScAlgorithms server.encryptionScAlgorithms
    macCsAlgorithm := ← chooseAlgorithm client.macCsAlgorithms server.macCsAlgorithms
    macScAlgorithm := ← chooseAlgorithm client.macScAlgorithms server.macScAlgorithms
    compressionCsAlgorithm :=
      ← chooseAlgorithm client.compressionCsAlgorithms server.compressionCsAlgorithms
    compressionScAlgorithm :=
      ← chooseAlgorithm client.compressionScAlgorithms server.compressionScAlgorithms }

/-! ### Key agreement -/

def createCurve25519Keypair (crypto : Crypto) : Exec Wire Curve25519State := do
  let clientPrivateKey ← randombytesBuf lengthOfKey
  let clientPrivateKey := Fixed.copy 32 clientPrivateKey
  match crypto.scalarmultCurve25519Base clientPrivateKey with
  | none => throw (error "Curve25519 algorithm failed to generate keys")
  | some clientPublicKey => return { clientPrivateKey, clientPublicKey }

def createEcdhInitPayload (state : Curve25519State) : Bytes :=
  [Message.kexEcdhInit] ++ encodeUint32 (UInt32.ofNat lengthOfKey) ++ state.clientPublicKey.val

def parseEcdhReply (payload : Bytes) : Except Stop EcdhReply :=
  evalOn (do
    failIf (payload.length < 1) (error "Payload should not be empty")
    failIf (payload.head? ≠ some Message.kexEcdhReply)
      (error "SSH_MSG_KEX_ECDH_REPLY packet was expected")
    let serverHostKey ← readString payload
    let serverPublicKey ← readString payload
    failIf (serverPublicKey.length ≠ 32) (error "Curve25519 server public key must be 32 bytes")
    let signature ← readString payload
    let position ← get
    failIf (position ≠ payload.length) (error "No more bytes expected")
    return {
      serverHostKey := serverHostKey
      serverPublicKey := Fixed.copy 32 serverPublicKey
      signature := signature }) 1

def calculateSharedSecret (crypto : Crypto) (state : Curve25519State)
    (serverPublicKey : Fixed 32) : Except Stop Curve25519State :=
  match crypto.scalarmultCurve25519 state.clientPrivateKey serverPublicKey with
  | none => .error (error "Invalid server public key")
  | some sharedSecret => .ok { state with sharedSecret := sharedSecret }

/-- The bytes behind the leading zeros, with a zero in front when the top bit is set. -/
def positiveMagnitude (value : Bytes) : Bytes :=
  match value.dropWhile (· = 0) with
  | [] => []
  | byte :: rest => if byte &&& 0x80 ≠ 0 then 0 :: byte :: rest else byte :: rest

def appendPositiveMpint (destination : Bytes) (value : Fixed 32) : Except Stop Bytes :=
  appendString destination (positiveMagnitude value.val)

/-- The bytes whose digest is the exchange hash. -/
def exchangeTranscript (clientIdentification serverIdentification : Bytes)
    (clientKexinit serverKexinit : KexInit) (curveState : Curve25519State)
    (ecdhReply : EcdhReply) : Except Stop Bytes := do
  let destination ← appendString [] clientIdentification
  let destination ← appendString destination serverIdentification
  let destination ← appendString destination clientKexinit.rawPayload
  let destination ← appendString destination serverKexinit.rawPayload
  let destination ← appendString destination ecdhReply.serverHostKey
  let destination ← appendString destination curveState.clientPublicKey.val
  let destination ← appendString destination ecdhReply.serverPublicKey.val
  appendPositiveMpint destination curveState.sharedSecret

def calculateExchangeHash (crypto : Crypto) (clientIdentification serverIdentification : Bytes)
    (clientKexinit serverKexinit : KexInit) (curveState : Curve25519State)
    (ecdhReply : EcdhReply) : Except Stop (Fixed 32) := do
  let destination ← exchangeTranscript clientIdentification serverIdentification clientKexinit
    serverKexinit curveState ecdhReply
  return crypto.hashSha256 destination

/-! ### Authentication of the server -/

/-- The two checks compare the same name with the negotiated algorithm: the second one,
for the signature, still tests the name that was read from the host key. -/
def parseEd25519VerificationData (reply : EcdhReply) (negotiatedHostKeyAlgorithm : Bytes) :
    Except Stop Ed25519VerificationData := do
  let (algorithmName, publicKey) ← evalOn (do
    let algorithmName ← readString reply.serverHostKey
    failIf (algorithmName ≠ negotiatedHostKeyAlgorithm ∨ algorithmName ≠ ascii "ssh-ed25519")
      (error "Algorithm is not the negotiated ssh-ed25519.")
    let publicKey ← readString reply.serverHostKey
    failIf (publicKey.length ≠ 32) (error "Ed25519 public key must be 32 bytes")
    let position ← get
    failIf (position ≠ reply.serverHostKey.length)
      (error "Unexpected bytes in Ed25519 host key")
    return (algorithmName, Fixed.copy 32 publicKey)) 0
  evalOn (do
    let algorithmSigName ← readString reply.signature
    failIf (algorithmName ≠ negotiatedHostKeyAlgorithm ∨ algorithmSigName ≠ ascii "ssh-ed25519")
      (error "Algorithm is not the negotiated ssh-ed25519.")
    let signatureBytes ← readString reply.signature
    failIf (signatureBytes.length ≠ 64) (error "Ed25519 signature must be 64 bytes")
    let position ← get
    failIf (position ≠ reply.signature.length) (error "Unexpected bytes in Ed25519 signature")
    return { publicKey := publicKey, signature := Fixed.copy 64 signatureBytes }) 0

def verifyEd25519Signature (crypto : Crypto) (data : Ed25519VerificationData)
    (exchangeHash : Fixed 32) : Except Stop Unit :=
  failIf (!crypto.signVerifyDetached data.signature exchangeHash.val data.publicKey)
    (error "Server Ed25519 signature verification failed")

def calculateHostKeyFingerprint (crypto : Crypto) (serverHostKey : Bytes) : Fixed 32 :=
  crypto.hashSha256 serverHostKey

/-! ### Key derivation -/

/-- The bytes whose digest is the key for a letter. -/
def derivationInput (sharedSecret exchangeHash : Fixed 32) (letter : UInt8)
    (sessionId : Fixed 32) : Except Stop Bytes := do
  let input ← appendPositiveMpint [] sharedSecret
  return input ++ exchangeHash.val ++ [letter] ++ sessionId.val

def deriveKeyMaterial (crypto : Crypto) (sharedSecret exchangeHash : Fixed 32) (letter : UInt8)
    (sessionId : Fixed 32) : Except Stop (Fixed 32) := do
  let input ← derivationInput sharedSecret exchangeHash letter sessionId
  return crypto.hashSha256 input

def deriveTransportKeys (crypto : Crypto) (sharedSecret exchangeHash sessionId : Fixed 32) :
    Except Stop TransportKeyMaterial := do
  let key1 ← deriveKeyMaterial crypto sharedSecret exchangeHash 65 sessionId
  let key2 ← deriveKeyMaterial crypto sharedSecret exchangeHash 66 sessionId
  return {
    ivCs := Fixed.first 16 (by decide) key1
    ivSc := Fixed.first 16 (by decide) key2
    encryptionKeyCs := ← deriveKeyMaterial crypto sharedSecret exchangeHash 67 sessionId
    encryptionKeySc := ← deriveKeyMaterial crypto sharedSecret exchangeHash 68 sessionId
    macKeyCs := ← deriveKeyMaterial crypto sharedSecret exchangeHash 69 sessionId
    macKeySc := ← deriveKeyMaterial crypto sharedSecret exchangeHash 70 sessionId }

end Kex

end SshClient

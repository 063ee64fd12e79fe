import SshClient.Client.World
import SshClient.Kex.Basic
import SshClient.Auth
import SshClient.Transport.Basic

/-!
# Identification, key exchange and authentication

The straight-line part of a run. `performKeyExchange` is cut into the sections that its
source has: the two proposals, the key agreement, the proof of the server, the decision
of the user, and the change to the new keys.
-/

namespace SshClient

open Control Transport

structure IdentificationExchange where
  client : Bytes
  server : Bytes
  deriving DecidableEq, Repr

namespace Client

/-! ### Identification -/

/-- One byte of the version line: the newline ends it and carriage returns are dropped. -/
def readVersionByte (version : Bytes) : Exec Socket (Bytes ⊕ Bytes) := do
  let bytes ← Socket.readExact 1
  let byte ← byteAt bytes 0
  if byte = 10 then return .inr version
  else if byte ≠ 13 then return .inl (version ++ [byte])
  else return .inl version

/-- Every round takes a byte, so the rounds do not run out before the stream does. -/
def readVersion : Exec Socket Bytes := do
  let s ← get
  iterate .fault readVersionByte ((Socket.stream s.reads).length + 1) []

def exchangeIdentification (clientVersion : Bytes) : Exec Socket IdentificationExchange := do
  let serverVersion ← readVersion
  failIf (serverVersion.take 7 ≠ ascii "SSH-2.0")
    (Stop.thrown (ascii "Not SSH-2.0: " ++ serverVersion))
  Socket.writeExact (clientVersion ++ [13, 10])
  return { client := clientVersion, server := serverVersion }

/-! ### Key exchange -/

variable (crypto : Crypto)

def formatSha256Fingerprint (fingerprint : Fixed 32) : Bytes :=
  ascii "SHA256:" ++ crypto.bin2base64NoPadding fingerprint.val

def sendKexinit : Exec Wire KexInit := do
  let payload ← Kex.createClientKexinit
  sendPacket crypto payload.rawPayload
  return payload

def receiveKexinit : Exec Wire KexInit := do
  let payload ← receivePacket crypto
  failIf (payload = []) (error "SSH Packet is empty")
  failIf (payload.head? ≠ some Message.kexinit)
    (error "SSH Packet doesn't contain expected KEX information")
  let serverKexinit ← lift (Kex.parseKexinit payload)
  record (.accepted payload)
  return serverKexinit

def receiveEcdhReply : Exec Wire EcdhReply := do
  let reply ← receivePacket crypto
  failIf (reply = []) (error "Empty SSH reply")
  failIf (reply.head? ≠ some Message.kexEcdhReply) (error "Expected an SSH_MSG_KEX_ECDH_REPLY")
  let ecdhReply ← lift (Kex.parseEcdhReply reply)
  record (.accepted reply)
  return ecdhReply

def verifyServer (data : Ed25519VerificationData) (exchangeHash : Fixed 32) : Exec Wire Unit := do
  lift (Kex.verifyEd25519Signature crypto data exchangeHash)
  record (.signatureVerified data.signature exchangeHash data.publicKey)

/-- The answer of the user, which is empty at the end of the input. -/
def readAnswer : Exec Console Bytes := do
  match ← Console.getline with
  | .line text => return text
  | .ended => return []
  | .failed what => throw (.thrown what)

/-- The known-hosts decision: a known key, a changed key, or a question to the user. -/
def confirmHost (hostname algorithm hostKey : Bytes) : Exec World Unit := do
  let fingerprintText :=
    formatSha256Fingerprint crypto (Kex.calculateHostKeyFingerprint crypto hostKey)
  let w ← get
  let hostStatus ← lift (KnownHosts.check crypto w.hosts hostname algorithm hostKey)
  onWire (record (.hostChecked hostname algorithm hostKey hostStatus))
  match hostStatus with
  | .matched => print (ascii "Server host key matches known host\n")
  | .changed =>
      printError (ascii "WARNING: Server host key has changed!\n")
      printError (ascii "Received fingerprint: " ++ fingerprintText ++ ascii "\n")
      throw (error "Refusing connection due to changed host key")
  | .unknown =>
      print (ascii "Unknown server host key\n")
      print (ascii "Fingerprint: " ++ fingerprintText ++ ascii "\n")
      print (ascii "Do you trust this host key? [yes/no]: ")
      let answer ← onConsole readAnswer
      onWire (record (.answered answer))
      failIf (answer ≠ ascii "yes") (error "Host key was not trusted")
      onHosts (KnownHosts.add crypto hostname algorithm hostKey)
      onWire (record (.hostAdded hostname algorithm hostKey))
      print (ascii "Host key saved\n")

/-- NEWKEYS in both directions, each followed by the keys of its direction. -/
def exchangeNewkeys (keys : TransportKeyMaterial) : Exec Wire Unit := do
  sendPacket crypto [Message.newkeys]
  enableOutgoingEncryption crypto keys.ivCs keys.encryptionKeyCs keys.macKeyCs
  let serverNewkeys ← receivePacket crypto
  failIf (serverNewkeys.length ≠ 1) (error "Expected a packet of length 1 byte")
  failIf (serverNewkeys.head? ≠ some Message.newkeys) (error "Expected a SSH_MSG_NEWKEYS packet")
  record (.accepted serverNewkeys)
  enableIncomingEncryption crypto keys.ivSc keys.encryptionKeySc keys.macKeySc

/-- The exchange hash of the first key exchange is the session id as well. -/
def performKeyExchange (id : IdentificationExchange) (hostname : Bytes) : Exec World Unit := do
  let clientKexinit ← onWire (sendKexinit crypto)
  let serverKexinit ← onWire (receiveKexinit crypto)
  let algorithms ← lift (Kex.negotiate clientKexinit serverKexinit)
  failIf (algorithms.kexAlgorithm ≠ ascii "curve25519-sha256")
    (error "Negotiated algorithm not implemented")
  let keypair ← onWire (Kex.createCurve25519Keypair crypto)
  onWire (sendPacket crypto (Kex.createEcdhInitPayload keypair))
  let ecdhReply ← onWire (receiveEcdhReply crypto)
  let keypair ← lift (Kex.calculateSharedSecret crypto keypair ecdhReply.serverPublicKey)
  let exchangeHash ← lift (Kex.calculateExchangeHash crypto id.client id.server clientKexinit
    serverKexinit keypair ecdhReply)
  let verificationData ← lift
    (Kex.parseEd25519VerificationData ecdhReply algorithms.hostKeyAlgorithm)
  onWire (verifyServer crypto verificationData exchangeHash)
  confirmHost crypto hostname algorithms.hostKeyAlgorithm ecdhReply.serverHostKey
  let transportKeys ← lift
    (Kex.deriveTransportKeys crypto keypair.sharedSecret exchangeHash exchangeHash)
  onWire (exchangeNewkeys crypto transportKeys)

/-- `performKeyExchange` up to the change of the keys. -/
def agreeKeys (id : IdentificationExchange) (hostname : Bytes) :
    Exec World TransportKeyMaterial := do
  let clientKexinit ← onWire (sendKexinit crypto)
  let serverKexinit ← onWire (receiveKexinit crypto)
  let algorithms ← lift (Kex.negotiate clientKexinit serverKexinit)
  failIf (algorithms.kexAlgorithm ≠ ascii "curve25519-sha256")
    (error "Negotiated algorithm not implemented")
  let keypair ← onWire (Kex.createCurve25519Keypair crypto)
  onWire (sendPacket crypto (Kex.createEcdhInitPayload keypair))
  let ecdhReply ← onWire (receiveEcdhReply crypto)
  let keypair ← lift (Kex.calculateSharedSecret crypto keypair ecdhReply.serverPublicKey)
  let exchangeHash ← lift (Kex.calculateExchangeHash crypto id.client id.server clientKexinit
    serverKexinit keypair ecdhReply)
  let verificationData ← lift
    (Kex.parseEd25519VerificationData ecdhReply algorithms.hostKeyAlgorithm)
  onWire (verifyServer crypto verificationData exchangeHash)
  confirmHost crypto hostname algorithms.hostKeyAlgorithm ecdhReply.serverHostKey
  lift (Kex.deriveTransportKeys crypto keypair.sharedSecret exchangeHash exchangeHash)

theorem performKeyExchange_eq (id : IdentificationExchange) (hostname : Bytes) :
    performKeyExchange crypto id hostname =
      agreeKeys crypto id hostname >>= fun keys => onWire (exchangeNewkeys crypto keys) := by
  simp only [performKeyExchange, agreeKeys, bind_assoc]

/-! ### Authentication -/

def authenticateUser (username : Bytes) : Exec World Unit := do
  let payload ← lift Auth.createServiceRequest
  onWire (sendPacket crypto payload)
  let authResponse ← onWire (receivePacket crypto)
  lift (Auth.validateServiceAccept authResponse)
  onWire (record (.accepted authResponse))
  let probe ← lift (Auth.createNoneAuthRequest username)
  onWire (sendPacket crypto probe)
  let refusal ← onWire (receivePacket crypto)
  let _ ← lift (Auth.parseAuthFailure refusal)
  onWire (record (.accepted refusal))
  let password ← onConsole (Terminal.readHiddenInput (ascii "Password: "))
  let authRequest ← lift (Auth.createPasswordAuthRequest username password)
  onWire (sendPacket crypto authRequest)
  let authResponse ← onWire (receivePacket crypto)
  failIf (authResponse = []) (error "Packet contained 0 bytes")
  if authResponse.head? = some Message.userauthSuccess then
    lift (Auth.validateAuthSuccess authResponse)
    onWire (record (.accepted authResponse))
    print (ascii "Authentication Complete\n")
  else if authResponse.head? = some Message.userauthFailure then
    let _ ← lift (Auth.parseAuthFailure authResponse)
    throw (error "Password authentication rejected")
  else throw (error "Unexpected response - authentication")

end Client

end SshClient

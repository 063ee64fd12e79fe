import SshClient.Trace
import SshClient.Common.Encoding

/-!
# Packet framing, encryption and authentication

`sendPacket` and `receivePacket` are programs on a wire. Both change the transport step
by step, in the order of the client, so that a throw leaves exactly what has been done
before it: a packet that cannot be written has moved the outgoing cipher but not the
sequence number, and a packet with a wrong tag has moved the incoming one.
-/

namespace SshClient.Transport

open Control

def packetLengthBytes : Nat := 4
def minPacketSize : Nat := 16
def maxPacketSize : Nat := 35000
def blockSize : Nat := 8
def aesBlockSize : Nat := 16
def minPaddingLength : Nat := 4
def minPayloadBytes : Nat := 1
def paddingLengthBytes : Nat := 1
def macBytes : Nat := 32

/-- The alignment of packets in one direction. -/
def blockSizeFor (active : Bool) : Nat := if active then aesBlockSize else blockSize

def decodePacketLength (lengthBytes : Bytes) : UInt32 :=
  lengthBytes.foldl (fun acc byte => (acc <<< 8) ||| byte.toUInt32) 0

/-- The loop is that of `decodeUint32`. -/
theorem decodePacketLength_eq (lengthBytes : Bytes) :
    decodePacketLength lengthBytes = decodeUint32 lengthBytes := rfl

def validatePacketLength (transport : Transport) (packetLength : UInt32) : Except Stop Unit := do
  failIf (packetLength.toNat < minPacketSize - packetLengthBytes)
    (error "SSH packet length is below minimum")
  failIf (packetLength.toNat + packetLengthBytes > maxPacketSize)
    (error "SSH packet length is above maximum")
  failIf ((packetLength.toNat + packetLengthBytes) %
      blockSizeFor transport.incomingEncryptionActive ≠ 0)
    (error "SSH packet is not aligned")

def validatePacketPadding (packetLength : UInt32) (paddingLength : UInt8) : Except Stop Unit := do
  failIf (paddingLength.toNat < minPaddingLength)
    (error "SSH packet does not have the minimum amount of padding required")
  failIf (paddingLength.toNat + paddingLengthBytes + minPayloadBytes > packetLength.toNat)
    (error "SSH packet does not contain the correct amount of padding")

def calculateHmac (crypto : Crypto) (sequenceNumber : UInt32) (plaintextPacket : Bytes)
    (macKey : Fixed 32) : Except Stop (Fixed 32) :=
  match crypto.authHmacsha256 (encodeUint32 sequenceNumber ++ plaintextPacket) macKey with
  | some result => .ok result
  | none => .error (error "Failed to calculate hmac value")

/-- The texts in which the two directions of `cipherUpdate` differ. -/
structure CipherTexts where
  notSet : String
  tooLarge : String
  failed : String
  unexpectedLength : String

/-- Run bytes through the cipher of one direction. The context has moved also when the
length of the output is then found to be wrong. -/
def cipherUpdate (texts : CipherTexts) (active : Transport → Bool)
    (cipher : Transport → Option Cipher) (install : Transport → Cipher → Transport)
    (update : Cipher → Bytes → Option Bytes) (bytes : Bytes) : Exec Wire Bytes := do
  let w ← get
  failIf (active w.transport ≠ true) (error "Encryption not active")
  match cipher w.transport with
  | none => throw (error texts.notSet)
  | some context =>
      failIf (bytes.length > 2147483647) (error texts.tooLarge)
      match update context bytes with
      | none => throw (error texts.failed)
      | some output =>
          set { w with transport := install w.transport (context.advance bytes.length) }
          failIf (output.length ≠ bytes.length) (error texts.unexpectedLength)
          return output

def encryptOutgoingPacket (crypto : Crypto) : Bytes → Exec Wire Bytes :=
  cipherUpdate ⟨"Outgoing cipher not set", "Packet is too large for OpenSSL",
      "Failed to encrypt the packet", "AES-CTR output length was unexpected"⟩
    outgoingEncryptionActive outgoingCipher
    (fun transport cipher => { transport with outgoingCipher := some cipher })
    crypto.encryptUpdate

def decryptIncomingBytes (crypto : Crypto) : Bytes → Exec Wire Bytes :=
  cipherUpdate ⟨"Incoming cipher not set", "Ciphertext is too large for OpenSSL",
      "Failed to decrypt the packet", "AES-CTR length was unexpected"⟩
    incomingEncryptionActive incomingCipher
    (fun transport cipher => { transport with incomingCipher := some cipher })
    crypto.decryptUpdate

/-- The end of both branches of `receivePacket`: the payload stands between the padding
length and the padding. -/
def extractPayload (packetLength : UInt32) (paddingLength : UInt8) (body : Bytes) (start : Nat) :
    Exec Wire Bytes := do
  lift (validatePacketPadding packetLength paddingLength)
  let withPadding ← sizeSub packetLength.toNat paddingLengthBytes
  let payloadLength ← sizeSub withPadding paddingLength.toNat
  let payload ← copyRange body start payloadLength
  modify fun w => { w with transport :=
    { w.transport with incomingSequence := w.transport.incomingSequence + 1 } }
  return payload

def receivePlaintext : Exec Wire Bytes := do
  let w ← get
  let lengthBytes ← onSocket (Socket.readExact packetLengthBytes)
  let packetLength := decodePacketLength lengthBytes
  lift (validatePacketLength w.transport packetLength)
  let pbody ← onSocket (Socket.readExact packetLength.toNat)
  let paddingLength ← byteAt pbody 0
  extractPayload packetLength paddingLength pbody 1

def receiveEncrypted (crypto : Crypto) : Exec Wire Bytes := do
  let w ← get
  let ciphertext ← onSocket (Socket.readExact aesBlockSize)
  let plaintextBytes ← decryptIncomingBytes crypto ciphertext
  let lengthBytes ← copyRange plaintextBytes 0 packetLengthBytes
  let packetLength := decodePacketLength lengthBytes
  lift (validatePacketLength w.transport packetLength)
  let totalEncryptedBytes := packetLengthBytes + packetLength.toNat
  let remainingBytes ← sizeSub totalEncryptedBytes aesBlockSize
  let remainingCiphertext ← onSocket (Socket.readExact remainingBytes)
  let remainingPlaintextBytes ← decryptIncomingBytes crypto remainingCiphertext
  let plaintextPacket := plaintextBytes ++ remainingPlaintextBytes
  failIf (plaintextPacket.length ≠ totalEncryptedBytes) (error "Packet size is incorrect")
  let serverMac ← onSocket (Socket.readExact macBytes)
  let calculatedMac ← lift (calculateHmac crypto w.transport.incomingSequence plaintextPacket
    w.transport.incomingMacKey)
  failIf (serverMac ≠ calculatedMac.val) (error "SSH packet MAC verification failed")
  modify fun w => { w with
    verified := w.verified ++ [(w.transport.incomingSequence, plaintextPacket)] }
  let paddingLength ← byteAt plaintextPacket packetLengthBytes
  extractPayload packetLength paddingLength plaintextPacket (packetLengthBytes + paddingLengthBytes)

def receivePacket (crypto : Crypto) : Exec Wire Bytes := do
  let w ← get
  let payload ←
    if !w.transport.incomingEncryptionActive then receivePlaintext else receiveEncrypted crypto
  record (.received w.transport payload)
  return payload

def validatePayloadSize (payloadSize : Nat) : Except Stop Unit :=
  failIf (payloadSize < 1) (error "Payload cannot be empty")

def calculatePaddingLength (transport : Transport) (payloadSize : Nat) : Nat :=
  let bSize := blockSizeFor transport.outgoingEncryptionActive
  let base := payloadSize + packetLengthBytes + paddingLengthBytes
  let total := minPaddingLength + base
  let remainder := total % bSize
  minPaddingLength + (bSize - remainder) % bSize

def encodePacketLength (packetLength : UInt32) : Bytes :=
  (List.range packetLengthBytes).map fun i =>
    (packetLength >>> UInt32.ofNat ((packetLengthBytes - 1 - i) * 8)).toUInt8

/-- The loop is that of `encodeUint32`. -/
theorem encodePacketLength_eq (packetLength : UInt32) :
    encodePacketLength packetLength = encodeUint32 packetLength := rfl

def generatePadding (paddingLength : Nat) : Exec Wire Bytes := randombytesBuf paddingLength

/-- The size checks of `sendPacket`, with the padding length they compute. -/
def checkSizes (transport : Transport) (payload : Bytes) : Except Stop Nat := do
  validatePayloadSize payload.length
  let paddingLength := calculatePaddingLength transport payload.length
  let packetLength := paddingLengthBytes + payload.length + paddingLength
  failIf (packetLength + packetLengthBytes > maxPacketSize) (error "Packet size exceeds maximum")
  failIf (paddingLength > 255) (error "Padding size exceeds maximum")
  failIf (packetLength > 4294967295) (error "Packet length exceeds maximum")
  return paddingLength

def sendPacket (crypto : Crypto) (payload : Bytes) : Exec Wire Unit := do
  let w ← get
  record (.sending w.transport payload)
  let paddingLength ← lift (checkSizes w.transport payload)
  let packetLength := paddingLengthBytes + payload.length + paddingLength
  let padding ← generatePadding paddingLength
  let packet := encodePacketLength (UInt32.ofNat packetLength) ++
    (UInt8.ofNat paddingLength :: (payload ++ padding))
  failIf (packet.length ≠ packetLength + packetLengthBytes)
    (error "Internal: packet constructed incorrectly")
  if w.transport.outgoingEncryptionActive then
    let hmac ← lift (calculateHmac crypto w.transport.outgoingSequence packet
      w.transport.outgoingMacKey)
    modify fun w => { w with
      authenticated := w.authenticated ++ [(w.transport.outgoingSequence, packet)] }
    let encryptedPacket ← encryptOutgoingPacket crypto packet
    onSocket (Socket.writeExact (encryptedPacket ++ hmac.val))
  else
    onSocket (Socket.writeExact packet)
  modify fun w => { w with transport :=
    { w.transport with outgoingSequence := w.transport.outgoingSequence + 1 } }
  record (.sent payload)

/-- Install a cipher context and a MAC key for one direction. -/
def enableEncryption (crypto : Crypto) (direction : Direction)
    (install : Transport → Cipher → Fixed 32 → Transport) (iv : Fixed 16)
    (encryptionKey macKey : Fixed 32) : Exec Wire Unit := do
  failIf (!crypto.contextNew direction) (error "Failed to create temporary cipher context")
  failIf (!crypto.cipherInit direction encryptionKey iv) (error "Failed to initialise encryption")
  modify fun w => { w with
    transport := install w.transport { key := encryptionKey, iv := iv } macKey }

def enableOutgoingEncryption (crypto : Crypto) : Fixed 16 → Fixed 32 → Fixed 32 → Exec Wire Unit :=
  enableEncryption crypto .outgoing fun transport cipher macKey => { transport with
    outgoingCipher := some cipher
    outgoingMacKey := macKey
    outgoingEncryptionActive := true }

def enableIncomingEncryption (crypto : Crypto) : Fixed 16 → Fixed 32 → Fixed 32 → Exec Wire Unit :=
  enableEncryption crypto .incoming fun transport cipher macKey => { transport with
    incomingCipher := some cipher
    incomingMacKey := macKey
    incomingEncryptionActive := true }

end SshClient.Transport

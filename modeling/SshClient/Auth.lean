import SshClient.Common.Encoding
import SshClient.Common.Messages

/-!
# User authentication messages

The request for the service, the probe with the method "none", the request with a
password, and the parsers of the three answers.
-/

namespace SshClient

open Control

/-- Details returned by SSH_MSG_USERAUTH_FAILURE. -/
structure AuthFailure where
  availableMethods : Bytes
  partialSuccess : Bool
  deriving DecidableEq, Repr

namespace Auth

/-- SSH_MSG_SERVICE_REQUEST for the "ssh-userauth" service. -/
def createServiceRequest : Except Stop Bytes :=
  appendString [Message.serviceRequest] (ascii "ssh-userauth")

def validateServiceAccept (payload : Bytes) : Except Stop Unit :=
  evalOn (do
    failIf (payload = []) (error "Payload cannot be empty")
    failIf (payload.head? ≠ some Message.serviceAccept)
      (error "SSH_MSG_SERVICE_ACCEPT was expected")
    let serviceName ← readString payload
    failIf (serviceName ≠ ascii "ssh-userauth") (error "String doesn't match ssh-userauth")
    let position ← get
    failIf (position ≠ payload.length) (error "Extra bytes received")) 1

/-- A probe with the method "none", whose refusal lists the methods that are left. -/
def createNoneAuthRequest (username : Bytes) : Except Stop Bytes := do
  let payload ← appendString [Message.userauthRequest] username
  let payload ← appendString payload (ascii "ssh-connection")
  appendString payload (ascii "none")

/-- The methods and the flag behind them, which is the last byte of the payload. -/
def parseAuthFailure (payload : Bytes) : Except Stop AuthFailure :=
  evalOn (do
    failIf (payload = []) (error "SSH_MSG_USERAUTH_FAILURE expected")
    failIf (payload.head? ≠ some Message.userauthFailure)
      (error "SSH_MSG_USERAUTH_FAILURE expected")
    let authenticationMethods ← readString payload
    let position ← get
    let remaining ← sizeSub payload.length position
    failIf (remaining ≠ 1) (error "One byte expected")
    let byte ← byteAt payload position
    set (position + 1)
    let position ← get
    failIf (position ≠ payload.length) (error "No more bytes expected")
    return { availableMethods := authenticationMethods, partialSuccess := byte != 0 }) 1

/-- The zero byte in front of the password says that it is not a change of password. -/
def createPasswordAuthRequest (username password : Bytes) : Except Stop Bytes := do
  let payload ← appendString [Message.userauthRequest] username
  let payload ← appendString payload (ascii "ssh-connection")
  let payload ← appendString payload (ascii "password")
  appendString (payload ++ [0]) password

def validateAuthSuccess (payload : Bytes) : Except Stop Unit :=
  failIf (payload.length ≠ 1 ∨ payload.head? ≠ some Message.userauthSuccess)
    (error "SSH_MSG_USERAUTH_SUCCESS expected")

end Auth

end SshClient

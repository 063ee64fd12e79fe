import SshClient.Basic

/-!
# Message numbers

The numbers of the transport, authentication and connection protocol messages that
the client builds or recognizes.
-/

namespace SshClient.Message

def serviceRequest : UInt8 := 5
def serviceAccept : UInt8 := 6

def kexinit : UInt8 := 20
def newkeys : UInt8 := 21
def kexEcdhInit : UInt8 := 30
def kexEcdhReply : UInt8 := 31

def userauthRequest : UInt8 := 50
def userauthFailure : UInt8 := 51
def userauthSuccess : UInt8 := 52

def globalRequest : UInt8 := 80
def requestFailure : UInt8 := 82

def channelOpen : UInt8 := 90
def channelOpenConfirmation : UInt8 := 91
def channelOpenFailure : UInt8 := 92
def channelWindowAdjust : UInt8 := 93
def channelData : UInt8 := 94
def channelExtendedData : UInt8 := 95
def channelEof : UInt8 := 96
def channelClose : UInt8 := 97
def channelRequest : UInt8 := 98
def channelSuccess : UInt8 := 99
def channelFailure : UInt8 := 100

end SshClient.Message

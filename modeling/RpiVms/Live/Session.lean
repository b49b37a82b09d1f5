import RpiVms.Live.Requests

namespace RpiVms

open Search

structure LiveChannel where
  channelId : Int := 1
  codec : VideoCodec := .h264
  deriving DecidableEq, Repr

def registeredChannel (channels : List LiveChannel) (channelId : Int) : Option LiveChannel :=
  channels.find? (·.channelId = channelId)

structure RequestEnv where
  drawn : SessionId
  codecFmtp : Bytes
  writeOk : Bool

def answer (channels : List LiveChannel) (env : RequestEnv) (request : Bytes)
    (control : RtspControlState) : RtspControlResult × RtspControlState :=
  match registeredChannel channels (requestChannel request) with
  | none => processRtspRequest env.drawn.text request (-1) .h264 [] control
  | some channel =>
      processRtspRequest env.drawn.text request channel.channelId channel.codec env.codecFmtp control

def listedMethods : List Bytes :=
  [ascii "OPTIONS ",ascii "DESCRIBE ",ascii "SETUP ",ascii "PLAY ",ascii "TEARDOWN ",
    ascii "GET_PARAMETER "]

def rejectsLeftover (input : Bytes) : Bool :=
  !input.isEmpty && find headerEnd input != none && !listedMethods.any (startsWithCi input)

-- the sum is a size_t there: 16 KiB + 1 MiB as main leaves the limits, far below 2^64
def overTotal (limits : ParserLimits) (input : Bytes) : Bool :=
  input.length > limits.maxHeaderBytes + limits.maxBodyBytes

end RpiVms

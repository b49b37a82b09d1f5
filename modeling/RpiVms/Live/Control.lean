import RpiVms.Rtsp.Text

namespace RpiVms

open Search

inductive VideoCodec where
  | h264
  | h265
  deriving DecidableEq, Repr

def kPayloadType : Nat := 96

def isHex (b : UInt8) : Bool := isDigit b || (97 ≤ b && b ≤ 102) || (65 ≤ b && b ≤ 70)

structure SessionId where
  text : Bytes
  ne_nil : text ≠ []
  hex : text.all isHex = true
  deriving DecidableEq

def hexDigit (d : Fin 16) : UInt8 := if d < 10 then 48 + d.val.toUInt8 else 87 + d.val.toUInt8

theorem hexDigit_isHex (d : Fin 16) : isHex (hexDigit d) = true := by
  revert d
  decide

-- eight digits, as setw(8) with setfill('0') prints a 32-bit value
def hexField (n : UInt32) : Bytes :=
  [7,6,5,4,3,2,1,0].map fun i => hexDigit (Fin.ofNat 16 (n.toNat / Nat.pow 16 i))

def randomSessionId (first second : UInt32) : SessionId where
  text := hexField first ++ hexField second
  ne_nil := by simp [hexField]
  hex := by simp [hexField,hexDigit_isHex]

def reasonPhrase : Nat → Bytes
  | 200 => ascii "OK"
  | 400 => ascii "Bad Request"
  | 404 => ascii "Not Found"
  | 405 => ascii "Method Not Allowed"
  | 454 => ascii "Session Not Found"
  | 455 => ascii "Method Not Valid in This State"
  | 461 => ascii "Unsupported Transport"
  | _ => ascii "Error"

def statusLine (status : Nat) : Bytes :=
  ascii "RTSP/1.0 " ++ decimal status ++ ascii " " ++ reasonPhrase status

def makeResponse (status : Nat) (cseq : Bytes) (headers : List Bytes) (body : Bytes) : Bytes :=
  statusLine status ++ crlf ++
    (if cseq.isEmpty then [] else ascii "CSeq: " ++ cseq ++ crlf) ++
    ascii "Server: rpi-vms-m3" ++ crlf ++
    headers.flatMap (· ++ crlf) ++
    (if body.isEmpty then [] else ascii "Content-Length: " ++ decimal body.length ++ crlf) ++
    crlf ++ body

def validSessionHeader (header expected : Bytes) : Bool :=
  !expected.isEmpty && (header == expected || startsWithCi header (expected ++ ascii ";"))

def readInterleavedPair (values : Bytes) : Option (Int × Int) :=
  let rtp := readInt values
  let rest := rtp.rest.dropWhile isSpace
  match rest with
  | [] => none
  | separator :: tail =>
      let rtcp := readInt tail
      if !rtp.good || !rtcp.good || separator != 45 || rtp.value < 0 || rtcp.value < 0 ||
          rtp.value > 255 || rtcp.value > 255 || rtp.value == rtcp.value then none
      else some (rtp.value,rtcp.value)

def parseInterleavedChannels (transport : Bytes) : Option (Int × Int) :=
  let lower := lowerCopy transport
  if find (ascii "rtp/avp/tcp") lower = none then none
  else
    match find (ascii "interleaved=") lower with
    | none => some (0,1)
    | some pos => readInterleavedPair (lower.drop (pos + (ascii "interleaved=").length))

def buildSdp (channelId : Int) (codec : VideoCodec) (codecFmtp : Bytes) : Bytes :=
  ascii "v=0\r\n" ++ ascii "o=- 0 0 IN IP4 0.0.0.0\r\n" ++
    ascii "s=RPi VMS channel " ++ toDecimal channelId ++ crlf ++
    ascii "t=0 0\r\n" ++ ascii "a=control:*\r\n" ++
    ascii "m=video 0 RTP/AVP " ++ decimal kPayloadType ++ crlf ++
    ascii "a=rtpmap:" ++ decimal kPayloadType ++ ascii " " ++
    (match codec with | .h265 => ascii "H265" | .h264 => ascii "H264") ++ ascii "/90000\r\n" ++
    (if codecFmtp.isEmpty then []
      else ascii "a=fmtp:" ++ decimal kPayloadType ++ ascii " " ++ codecFmtp ++ crlf) ++
    ascii "a=control:trackID=0\r\n"

def requestPath (requestTarget : Bytes) : Bytes :=
  match find (ascii "://") requestTarget with
  | none => requestTarget
  | some scheme =>
      match find (ascii "/") (requestTarget.drop (scheme + 3)) with
      | none => ascii "/"
      | some slash => requestTarget.drop (scheme + 3 + slash)

def parsePublicChannelId (requestTarget : Bytes) : Int :=
  let path := (requestPath requestTarget).takeWhile fun b => !(b == 63 || b == 35)
  if path.length < 4 || path.take 3 != ascii "/ch" then -1
  else
    let digits := (path.drop 3).takeWhile isDigit
    let after := (path.drop 3).dropWhile isDigit
    if digits.isEmpty || (!after.isEmpty && after.head? != some 47) then -1
    else
      match stoi digits with
      | .ok r => if 1 ≤ r.value && r.value ≤ 4 then r.value else -1
      | .error _ => -1

inductive RtspControlPhase where
  | initial
  | ready
  | playing
  | closed
  deriving DecidableEq, Repr

structure RtspControlState where
  phase : RtspControlPhase := .initial
  sessionId : Bytes := []
  channelId : Int := -1
  rtpChannel : Int := 0
  rtcpChannel : Int := 1
  deriving DecidableEq, Repr

structure RtspControlResult where
  response : Bytes
  startPlay : Bool
  closeSession : Bool
  deriving DecidableEq, Repr

def reply (status : Nat) (cseq : Bytes) (headers : List Bytes) : RtspControlResult :=
  ⟨makeResponse status cseq headers [],false,false⟩

def sessionHeader (request : Bytes) : Bytes :=
  headerValue (messageHeaderPart request) (ascii "Session")

def transportHeader (request : Bytes) : Bytes :=
  headerValue (messageHeaderPart request) (ascii "Transport")

def processDescribe (cseq : Bytes) (channel : Int) (codec : VideoCodec) (codecFmtp : Bytes) :
    RtspControlResult :=
  ⟨makeResponse 200 cseq
    [ascii "Content-Type: application/sdp",ascii "Content-Base: /ch" ++ toDecimal channel ++ ascii "/"]
    (buildSdp channel codec codecFmtp),false,false⟩

def processSetup (drawn request cseq : Bytes) (channel : Int) (state : RtspControlState) :
    RtspControlResult × RtspControlState :=
  if state.phase ≠ .initial then (reply 455 cseq [],state)
  else
    match parseInterleavedChannels (transportHeader request) with
    | none => (reply 461 cseq [],state)
    | some (rtpChannel,rtcpChannel) =>
        (reply 200 cseq
          [ascii "Transport: RTP/AVP/TCP;unicast;interleaved=" ++ toDecimal rtpChannel ++ ascii "-" ++
              toDecimal rtcpChannel,
            ascii "Session: " ++ drawn ++ ascii ";timeout=60"],
          ⟨.ready,drawn,channel,rtpChannel,rtcpChannel⟩)

def processPlay (request cseq : Bytes) (channel : Int) (state : RtspControlState) :
    RtspControlResult × RtspControlState :=
  if state.phase ≠ .ready ∨ state.channelId ≠ channel then (reply 455 cseq [],state)
  else if !validSessionHeader (sessionHeader request) state.sessionId then (reply 454 cseq [],state)
  else
    ({ reply 200 cseq [ascii "Session: " ++ state.sessionId,
        ascii "RTP-Info: url=/ch" ++ toDecimal channel ++ ascii "/trackID=0"] with startPlay := true },
      { state with phase := .playing })

def processGetParameter (request cseq : Bytes) (state : RtspControlState) : RtspControlResult :=
  if !validSessionHeader (sessionHeader request) state.sessionId then reply 454 cseq []
  else reply 200 cseq [ascii "Session: " ++ state.sessionId]

def processTeardown (request cseq : Bytes) (state : RtspControlState) :
    RtspControlResult × RtspControlState :=
  if !validSessionHeader (sessionHeader request) state.sessionId then (reply 454 cseq [],state)
  else
    ({ reply 200 cseq [ascii "Session: " ++ state.sessionId] with closeSession := true },
      { state with phase := .closed })

-- drawn is what random_session_id() returns should this call reach it
def processRtspRequest (drawn request : Bytes) (registeredChannelId : Int)
    (codec : VideoCodec) (codecFmtp : Bytes) (state : RtspControlState) :
    RtspControlResult × RtspControlState :=
  let cseq := cseqFromMessage request
  if cseq.isEmpty then (⟨makeResponse 400 [] [] [],false,true⟩,state)
  else
    let method := rtspMethodFromRequest request
    let channel := parsePublicChannelId (extractRequestTarget request)
    if method = ascii "OPTIONS" then
      (reply 200 cseq [ascii "Public: OPTIONS, DESCRIBE, SETUP, PLAY, TEARDOWN, GET_PARAMETER"],state)
    else if channel < 0 ∨ channel ≠ registeredChannelId then (reply 404 cseq [],state)
    else if method = ascii "DESCRIBE" then (processDescribe cseq channel codec codecFmtp,state)
    else if method = ascii "SETUP" then processSetup drawn request cseq channel state
    else if method = ascii "PLAY" then processPlay request cseq channel state
    else if method = ascii "GET_PARAMETER" then (processGetParameter request cseq state,state)
    else if method = ascii "TEARDOWN" then processTeardown request cseq state
    else
      (reply 405 cseq [ascii "Allow: OPTIONS, DESCRIBE, SETUP, PLAY, TEARDOWN, GET_PARAMETER"],state)

end RpiVms

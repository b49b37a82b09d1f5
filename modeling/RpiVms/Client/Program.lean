import RpiVms.Rtsp.Extract
import Mathlib.Data.List.DropRight

namespace RpiVms

open Search Segments

namespace RtspsClient

structure RtspUrl where
  host : Bytes
  port : Int := 8554
  path : Bytes
  base : Bytes
  deriving DecidableEq, Repr

inductive ClientError where
  | runtime (message : String)
  | stoi (error : StoiError)
  deriving DecidableEq, Repr

def checkUrl (url : RtspUrl) : Except ClientError RtspUrl :=
  if url.host.isEmpty || url.path.isEmpty then .error (.runtime "invalid rtsps URL") else .ok url

-- the port is what follows the last colon
def readHostPort (hostPort path url : Bytes) : Except ClientError RtspUrl :=
  if hostPort.contains 58 then
    match stoi (hostPort.rtakeWhile (· != 58)) with
    | .error e => .error (.stoi e)
    | .ok port => checkUrl ⟨(hostPort.rdropWhile (· != 58)).dropLast,port.value,path,url⟩
  else checkUrl { host := hostPort, path := path, base := url }

def parseRtspsUrl (url : Bytes) : Except ClientError RtspUrl :=
  let scheme := ascii "rtsps://"
  if !scheme.isPrefixOf url then .error (.runtime "URL must start with rtsps://")
  else
    let rest := url.drop scheme.length
    match find [47] rest with
    | none => .error (.runtime "URL must include path, for example /ch1")
    | some pathStart => readHostPort (rest.take pathStart) (rest.drop pathStart) url

structure Response where
  status : Int := 0
  header : Bytes
  body : Bytes
  deriving DecidableEq, Repr

def contentLengthFromHeader (header : Bytes) : Except ClientError Nat :=
  match (segments crlf header).1.find? (startsWithCi · (ascii "Content-Length:")) with
  | none => .ok 0
  | some line =>
      match stoi (line.drop (ascii "Content-Length:").length) with
      | .error e => .error (.stoi e)
      | .ok r => .ok (max 0 r.value).toNat

def responseStatus (header : Bytes) : Int :=
  let version := readWord header
  if version.text.isEmpty then 0 else (readInt version.rest).value

inductive Reading where
  | rtp
  | response (response : Response) (rest : Bytes)
  | more
  deriving DecidableEq, Repr

-- one pass of the loop, up to the SSL_read that `more` asks for
def readOneRtspResponse (buffer : Bytes) : Except ClientError Reading :=
  if buffer.head? = some dollar then .ok .rtp
  else
    match find headerEnd buffer with
    | none => .ok .more
    | some n =>
        let header := buffer.take (n + 4)
        match contentLengthFromHeader header with
        | .error e => .error e
        | .ok bodyLen =>
            if n + 4 + bodyLen ≤ buffer.length then
              .ok (.response ⟨responseStatus header,header,(buffer.drop (n + 4)).take bodyLen⟩
                (buffer.drop (n + 4 + bodyLen)))
            else .ok .more

def findSession (header : Bytes) : Bytes :=
  match (segments crlf header).1.find? (startsWithCi · (ascii "Session:")) with
  | none => []
  | some line =>
      ((line.drop (ascii "Session:").length).dropWhile fun b => b == 32 || b == 9).takeWhile (· != 59)

-- getline stops at each line feed and gives no empty line behind the last one
def getLines (text : Bytes) : List Bytes :=
  let r := segments [10] text
  if r.2.isEmpty then r.1 else r.1 ++ [r.2]

def withoutReturn (line : Bytes) : Bytes :=
  if line.getLast? = some 13 then line.dropLast else line

def scanControls (inVideo : Bool) (sessionControl : Bytes) : List Bytes → Bytes
  | [] => sessionControl
  | line :: rest =>
      let line := withoutReturn line
      if (ascii "m=").isPrefixOf line then
        scanControls ((ascii "m=video").isPrefixOf line) sessionControl rest
      else if (ascii "a=control:").isPrefixOf line then
        let control := line.drop (ascii "a=control:").length
        if inVideo && control != ascii "*" then control
        else if !inVideo && sessionControl.isEmpty && control != ascii "*" then
          scanControls inVideo control rest
        else scanControls inVideo sessionControl rest
      else scanControls inVideo sessionControl rest

def findFirstMediaControl (sdp : Bytes) : Bytes := scanControls false [] (getLines sdp)

def makeControlUrl (base control : Bytes) : Bytes :=
  if control.isEmpty || control == ascii "*" then base
  else if (ascii "rtsp://").isPrefixOf (lowerCopy control) || (ascii "rtsps://").isPrefixOf (lowerCopy control) then
    control
  else if base.getLast? = some 47 || control.head? = some 47 then base ++ control
  else base ++ ascii "/" ++ control

def makeRequest (method url : Bytes) (cseq : Int) (headers : List Bytes) : Bytes :=
  method ++ ascii " " ++ url ++ ascii " RTSP/1.0" ++ crlf ++
    ascii "CSeq: " ++ toDecimal cseq ++ crlf ++
    ascii "User-Agent: rpi-rtsps-test-client/1.0" ++ crlf ++
    headers.flatMap (· ++ crlf) ++ crlf

inductive Label where
  | options
  | describe
  | setup
  | play
  deriving DecidableEq, Repr

def Label.text : Label → String
  | .options => "OPTIONS"
  | .describe => "DESCRIBE"
  | .setup => "SETUP"
  | .play => "PLAY"

-- asking and leaving stand before an ssl_write_all, reading and selecting before an SSL_read
inductive Point where
  | asking (label : Label)
  | checking (label : Label)
  | reading (label : Label)
  | counting
  | selecting
  | leaving
  | finished
  | failed (error : ClientError)
  deriving DecidableEq, Repr

-- the locals of count_rtp_packets; dump is what the dump file holds
structure Counters where
  packets : UInt64 := 0
  bytes : UInt64 := 0
  rtspMessages : UInt64 := 0
  dump : Bytes := []
  deriving DecidableEq, Repr

inductive CountPass where
  | packet (wire rest : Bytes)
  | message (rest : Bytes)
  | wait
  deriving DecidableEq, Repr

def countPass (buffer : Bytes) : Except ClientError CountPass :=
  if 4 ≤ buffer.length && buffer.head? == some dollar then
    let total := 4 + interleavedLength buffer
    if buffer.length < total then .ok .wait
    else .ok (.packet (buffer.take total) (buffer.drop total))
  else
    match find headerEnd buffer with
    | none => .ok .wait
    | some n =>
        match contentLengthFromHeader (buffer.take (n + 4)) with
        | .error e => .error e
        | .ok bodyLen =>
            let total := n + 4 + bodyLen
            if buffer.length < total then .ok .wait else .ok (.message (buffer.drop total))

def Counters.packet (c : Counters) (wire : Bytes) : Counters :=
  { c with
    packets := c.packets + 1
    bytes := c.bytes + UInt64.ofNat (interleavedLength wire)
    dump := c.dump ++ wire }

def countLoop : Nat → Counters → Bytes → Except ClientError (Counters × Bytes)
  | 0,counters,buffer => .ok (counters,buffer)
  | fuel + 1,counters,buffer =>
      match countPass buffer with
      | .error e => .error e
      | .ok .wait => .ok (counters,buffer)
      | .ok (.packet wire rest) => countLoop fuel (counters.packet wire) rest
      | .ok (.message rest) =>
          countLoop fuel { counters with rtspMessages := counters.rtspMessages + 1 } rest

def countRtpPackets (counters : Counters) (buffer : Bytes) : Except ClientError (Counters × Bytes) :=
  countLoop (buffer.length + 1) counters buffer

structure Client where
  url : RtspUrl
  point : Point := .asking .options
  buffer : Bytes := []
  cseq : Int := 1
  setupUrl : Bytes := []
  session : Bytes := []
  counters : Counters := {}
  deriving DecidableEq, Repr

inductive ClientAction where
  | advance
  | receive (chunk : Bytes)
  | timeout
  | deadline
  | lost
  deriving DecidableEq, Repr

namespace Client

variable (c : Client)

def goto (point : Point) : Client := { c with point := point }

def fail (message : String) : Client := c.goto (.failed (.runtime message))

def request : Label → Bytes
  | .options => makeRequest (ascii "OPTIONS") c.url.base c.cseq []
  | .describe => makeRequest (ascii "DESCRIBE") c.url.base c.cseq [ascii "Accept: application/sdp"]
  | .setup =>
      makeRequest (ascii "SETUP") c.setupUrl c.cseq
        [ascii "Transport: RTP/AVP/TCP;unicast;interleaved=0-1"]
  | .play => makeRequest (ascii "PLAY") c.url.base c.cseq [ascii "Session: " ++ c.session]

def teardown : Bytes :=
  makeRequest (ascii "TEARDOWN") c.url.base c.cseq [ascii "Session: " ++ c.session]

-- what main does with an answer that send_request has accepted
def accepted (response : Response) : Label → Client
  | .options => c.goto (.asking .describe)
  | .describe =>
      { c with
        setupUrl := makeControlUrl c.url.base (findFirstMediaControl response.body)
        point := .asking .setup }
  | .setup =>
      let session := findSession response.header
      if session.isEmpty then c.fail "SETUP response has no Session header"
      else { c with session := session, point := .asking .play }
  | .play => c.goto .counting

def answered (label : Label) (response : Response) : Client :=
  if response.status < 200 || response.status ≥ 300 then c.fail (label.text ++ " failed")
  else c.accepted response label

def check (label : Label) : Client :=
  match readOneRtspResponse c.buffer with
  | .error e => c.goto (.failed e)
  | .ok .rtp => c.fail ("unexpected RTP data while waiting for " ++ label.text)
  | .ok (.response response rest) => { c with buffer := rest }.answered label response
  | .ok .more => c.goto (.reading label)

def count : Client :=
  match countRtpPackets c.counters c.buffer with
  | .error e => c.goto (.failed e)
  | .ok (counters,rest) => { c with counters := counters, buffer := rest, point := .selecting }

def step : ClientAction → Option (Bytes × Client)
  | .advance =>
      match c.point with
      | .asking label => some (c.request label,{ c with cseq := c.cseq + 1, point := .checking label })
      | .checking label => some ([],c.check label)
      | .counting => some ([],c.count)
      | .leaving => some (c.teardown,{ c with cseq := c.cseq + 1, point := .finished })
      | _ => none
  | .receive chunk =>
      match c.point with
      | .reading label => some ([],{ c with buffer := c.buffer ++ chunk, point := .checking label })
      | .selecting => some ([],{ c with buffer := c.buffer ++ chunk, point := .counting })
      | _ => none
  | .timeout =>
      match c.point with
      | .selecting => some ([],c.goto .counting)
      | _ => none
  | .deadline =>
      match c.point with
      | .counting => some ([],c.goto .leaving)
      | _ => none
  | .lost =>
      match c.point with
      | .asking _ => some ([],c.fail "SSL_write failed")
      | .leaving => some ([],c.fail "SSL_write failed")
      | .reading _ => some ([],c.fail "SSL_read failed while waiting RTSP response")
      | .selecting => some ([],c.fail "SSL_read failed while receiving RTP")
      | _ => none

end Client

example : findFirstMediaControl (ascii "a=control:*\r\nm=audio 0\r\na=control:a\r\nm=video 0\r\na=control:v\r\n") =
    ascii "v" := by decide +kernel

end RtspsClient

end RpiVms

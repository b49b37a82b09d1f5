import RpiVms.Live.Control

namespace RpiVms

-- std::filesystem's operator/ with a relative right side
def pathJoin (base name : Bytes) : Bytes :=
  if base.isEmpty || base.getLast? == some 47 then base ++ name else base ++ 47 :: name

structure CivilTime where
  year : Nat
  month : Nat
  day : Nat
  hour : Nat
  minute : Nat
  second : Nat
  deriving DecidableEq, Repr

def padded (width n : Nat) : Bytes :=
  List.replicate (width - (decimal n).length) 48 ++ decimal n

-- put_time with %Y%m%dT%H%M%S
def putTime (t : CivilTime) : Bytes :=
  decimal t.year ++ padded 2 t.month ++ padded 2 t.day ++ ascii "T" ++ padded 2 t.hour ++
    padded 2 t.minute ++ padded 2 t.second

structure ChannelIngestConfig where
  outputDir : Bytes
  cameraChannel : Int
  channelId : Int
  codec : VideoCodec := .h264
  reconnectDelayMs : Int := 2000
  deriving DecidableEq, Repr

inductive AttemptResult where
  | stopped
  | pipelineError
  | endOfStream
  deriving DecidableEq, Repr

inductive Thrown where
  | exception (what : Bytes)
  | unknown
  deriving DecidableEq, Repr

inductive ThrownBy where
  | createDirectories
  | pipeline
  | index
  deriving DecidableEq, Repr

-- the local variables of run_attempt
structure Attempt where
  number : Nat
  firstBufferSeen : Bool := false
  result : AttemptResult := .stopped
  receivedEos : Bool := false
  deriving DecidableEq, Repr

inductive IngestPoint where
  | looping
  | locating (attempt : Nat)
  | launching (attempt : Nat)
  | configuring (attempt : Nat)
  | playing (a : Attempt)
  | watching (a : Attempt)
  | signalling (a : Attempt)
  | draining (a : Attempt)
  | closing (a : Attempt)
  | deciding (result : AttemptResult)
  | waiting (remainingMs : Int)
  | returned
  | escaped (e : Thrown)
  deriving DecidableEq, Repr

structure ChannelIngest where
  point : IngestPoint := .looping
  firstBufferSeen : Bool := false
  connectionAttempts : Nat := 0
  reconnects : Nat := 0
  firstBuffers : Nat := 0
  pipelineErrors : Nat := 0
  eosEvents : Nat := 0
  liveFrames : Nat := 0
  liveDrops : Nat := 0
  deriving DecidableEq, Repr

-- an element message with what the call of the recording index throws
inductive ElementMessage where
  | fragmentOpened (location : Bytes) (failure : Option Thrown)
  | fragmentClosed (location : Bytes) (failure : Option Thrown)
  | other
  deriving DecidableEq, Repr

inductive BusMessage where
  | error
  | eos
  | element (message : ElementMessage)
  deriving DecidableEq, Repr

inductive IngestAction where
  | advance
  | locate (now : Int) (failure : Option Thrown)
  | launch (failure : Option Thrown)
  | configure (failure : Option Thrown)
  | play (changed : Bool)
  | watch (late : Bool) (message : Option BusMessage)
  | signal (sent : Bool)
  | drain (expired : Bool) (message : Option BusMessage)
  | buffer
  | handoff
  | overrun
  | formatLocation (utcMs : Int) (collisionIndex : Option Nat)
  deriving DecidableEq, Repr

inductive IngestEvent where
  | connecting (attempt : Nat)
  | createsDirectory (path : Bytes)
  | handsOut (path : Bytes)
  | opened (channelId : Int) (location codec : Bytes)
  | closed (location : Bytes)
  | attemptEnded (result : AttemptResult)
  | reconnecting (reconnect : Nat)
  | threw (source : ThrownBy) (e : Thrown)
  deriving DecidableEq, Repr

def toCodecName : VideoCodec → Bytes
  | .h264 => ascii "h264"
  | .h265 => ascii "h265"

section

variable (gmtime : Int → CivilTime) (config : ChannelIngestConfig)

def buildSegmentPath (segmentStartUtcMs : Int) (collisionIndex : Nat) : Bytes :=
  let utc := gmtime (segmentStartUtcMs.tdiv 1000)
  let milliseconds := (segmentStartUtcMs.tmod 1000).toNat
  pathJoin config.outputDir
    (ascii "ch" ++ toDecimal config.channelId ++ ascii "_" ++ putTime utc ++ ascii "." ++
      padded 3 milliseconds ++ ascii "Z" ++
      (if 0 < collisionIndex then ascii "_" ++ padded 3 collisionIndex else []) ++ ascii ".mp4")

def locationPattern (attempt : Nat) (now : Int) : Bytes :=
  pathJoin config.outputDir
    (ascii "ch" ++ toDecimal config.channelId ++ ascii "_" ++ putTime (gmtime now) ++ ascii "Z" ++
      (if 1 < attempt then ascii "_r" ++ padded 3 (attempt - 1) else []) ++ ascii "_%05d.mp4")

def epoch : Int → CivilTime := fun _ => ⟨1970,1,1,0,0,0⟩

example : buildSegmentPath epoch ⟨ascii "/rec/ch2",1,2,.h264,2000⟩ 7 12 =
    ascii "/rec/ch2/ch2_19700101T000000.007Z_012.mp4" := by
  decide +kernel

namespace ChannelIngest

variable (running : Bool) (w : ChannelIngest)

def goto (point : IngestPoint) : ChannelIngest := { w with point := point }

def throws (source : ThrownBy) (e : Thrown) : List IngestEvent × ChannelIngest :=
  ([.threw source e],w.goto (.escaped e))

def attempted (source : ThrownBy) (failure : Option Thrown) (next : IngestPoint) :
    List IngestEvent × ChannelIngest :=
  match failure with
  | some e => w.throws source e
  | none => ([],w.goto next)

def beginAttempt : List IngestEvent × ChannelIngest :=
  let attempt := w.connectionAttempts + 1
  ([.connecting attempt],
    { w with connectionAttempts := attempt, firstBufferSeen := false, point := .locating attempt })

def makeLocationPattern (attempt : Nat) (now : Int) (failure : Option Thrown) :
    List IngestEvent × ChannelIngest :=
  match failure with
  | some e =>
      ([.createsDirectory config.outputDir,.threw .createDirectories e],w.goto (.escaped e))
  | none =>
      ([.createsDirectory config.outputDir,.handsOut (locationPattern gmtime config attempt now)],
        w.goto (.launching attempt))

def handleElementMessage (message : ElementMessage) (next : IngestPoint) :
    List IngestEvent × ChannelIngest :=
  match message with
  | .fragmentOpened location none =>
      ([.opened config.channelId location (toCodecName config.codec)],w.goto next)
  | .fragmentClosed location none => ([.closed location],w.goto next)
  | .fragmentOpened _ (some e) | .fragmentClosed _ (some e) => w.throws .index e
  | .other => ([],w.goto next)

def pipelineFailed (a : Attempt) : ChannelIngest :=
  { w with
    pipelineErrors := w.pipelineErrors + 1
    point := .watching { a with result := .pipelineError } }

def watch (a : Attempt) (late : Bool) (message : Option BusMessage) :
    List IngestEvent × ChannelIngest :=
  if a.result = .stopped ∧ running = true then
    if !a.firstBufferSeen && late then ([],w.pipelineFailed a)
    else
      match message with
      | none => ([],w)
      | some .error => ([],w.pipelineFailed a)
      | some .eos =>
          ([],{ w with
            eosEvents := w.eosEvents + 1
            point := .watching { a with result := .endOfStream, receivedEos := true } })
      | some (.element m) => w.handleElementMessage config m (.watching a)
  else if a.result = .stopped ∧ a.receivedEos = false then ([],w.goto (.signalling a))
  else ([],w.goto (.closing a))

def drain (a : Attempt) (expired : Bool) (message : Option BusMessage) :
    List IngestEvent × ChannelIngest :=
  if expired then ([],w.goto (.closing a))
  else
    match message with
    | none => ([],w)
    | some (.element m) => w.handleElementMessage config m (.draining a)
    | some _ => ([],w.goto (.closing a))

def close (a : Attempt) : List IngestEvent × ChannelIngest :=
  let result := if running then a.result else .stopped
  ([.attemptEnded result],w.goto (.deciding result))

def decideNext (result : AttemptResult) : List IngestEvent × ChannelIngest :=
  if running = false ∨ result = .stopped then ([],w.goto .returned)
  else
    ([.reconnecting (w.reconnects + 1)],
      { w with reconnects := w.reconnects + 1, point := .waiting config.reconnectDelayMs })

def waitBeforeReconnect (remainingMs : Int) : ChannelIngest :=
  if running then
    if 0 < remainingMs then w.goto (.waiting (remainingMs - min remainingMs 100)) else w.goto .looping
  else w.goto .returned

-- the attempt whose pipeline may call back, and where the worker stands in it
def streaming : Option (Attempt × (Attempt → IngestPoint)) :=
  match w.point with
  | .playing a => some (a,.playing)
  | .watching a => some (a,.watching)
  | .signalling a => some (a,.signalling)
  | .draining a => some (a,.draining)
  | .closing a => some (a,.closing)
  | _ => none

def onIngestBuffer (a : Attempt) (place : Attempt → IngestPoint) : ChannelIngest :=
  if a.firstBufferSeen then w
  else
    { w with
      firstBufferSeen := true
      firstBuffers := if w.firstBufferSeen then w.firstBuffers else w.firstBuffers + 1
      point := place { a with firstBufferSeen := true } }

def callback (a : Attempt) (place : Attempt → IngestPoint) :
    IngestAction → Option (List IngestEvent × ChannelIngest)
  | .buffer => some ([],w.onIngestBuffer a place)
  | .handoff => some ([],{ w with liveFrames := w.liveFrames + 1 })
  | .overrun => some ([],{ w with liveDrops := w.liveDrops + 1 })
  | .formatLocation utcMs (some collisionIndex) =>
      some ([.handsOut (buildSegmentPath gmtime config utcMs collisionIndex)],w)
  | .formatLocation _ none => some ([],w)
  | _ => none

def ownStep (action : IngestAction) : Option (List IngestEvent × ChannelIngest) :=
  match w.point,action with
  | .looping,.advance => some (if running then w.beginAttempt else ([],w.goto .returned))
  | .locating attempt,.locate now failure =>
      some (w.makeLocationPattern gmtime config attempt now failure)
  | .launching attempt,.launch failure => some (w.attempted .pipeline failure (.configuring attempt))
  | .configuring attempt,.configure failure =>
      some (w.attempted .pipeline failure (.playing ⟨attempt,false,.stopped,false⟩))
  | .playing a,.play changed =>
      some ([],if changed then w.goto (.watching a) else w.pipelineFailed a)
  | .watching a,.watch late message => some (w.watch config running a late message)
  | .signalling a,.signal sent => some ([],w.goto (if sent then .draining a else .closing a))
  | .draining a,.drain expired message => some (w.drain config a expired message)
  | .closing a,.advance => some (w.close running a)
  | .deciding result,.advance => some (w.decideNext config running result)
  | .waiting remainingMs,.advance => some ([],w.waitBeforeReconnect running remainingMs)
  | _,_ => none

end ChannelIngest

def isCallback : IngestAction → Bool
  | .buffer | .handoff | .overrun | .formatLocation _ _ => true
  | _ => false

def ChannelIngest.step (running : Bool) (w : ChannelIngest) (action : IngestAction) :
    Option (List IngestEvent × ChannelIngest) :=
  if isCallback action then
    w.streaming.bind fun (a,place) => w.callback gmtime config a place action
  else w.ownStep gmtime config running action

end

end RpiVms

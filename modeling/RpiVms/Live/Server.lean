import RpiVms.Live.Session
import RpiVms.Live.Queue
import RpiVms.Live.Parameters
import RpiVms.Rtsp.Extract
import RpiVms.Library.Runs
import Mathlib.Logic.Function.Basic

namespace RpiVms

open Search Framing

-- what the constructor of LiveRtspServer::Impl lets through
structure LiveRtspServerConfig where
  channels : List LiveChannel
  inRange : ∀ channel ∈ channels, PublicChannel channel.channelId
  distinct : (channels.map (·.channelId)).Nodup
  limits : ParserLimits := {}
  clientQueueFrames : Nat := 30
  clientQueueBytes : Nat := 8 * 1024 * 1024
  rtpMtu : Nat := 1200

inductive SessionPoint where
  | connecting
  | registering
  | activating
  | creating
  | polling
  | parsing
  | storingChannel (closeSession : Bool)
  | storingPlaying (closeSession : Bool)
  | checking
  | popping
  | sending (frame : LiveFrame)
  | disconnecting
  | halting
  | closing
  | deactivating
  | recording
  | finished
  deriving DecidableEq, Repr

-- ClientMediaState and the local variables of run_session; looping is its own connected
structure Session where
  point : SessionPoint := .connecting
  counted : Bool := false
  rtp : RtpState
  queue : BoundedFrameQueue
  playing : Bool := false
  connected : Bool := true
  channelId : Int := -1
  control : RtspControlState := {}
  input : Bytes := []
  looping : Bool := true

inductive SessionAction where
  | connect (established : Bool)
  | poll (ready : Option Bytes)
  | extract (drawn : SessionId) (writeOk : Bool)
  | send (writeOk : Nat → Bool) (now wall : Int)
  | advance

inductive SessionEvent where
  | replied (request : Bytes) (result : RtspControlResult) (control : RtspControlState) (written : Bool)
  | rejected
  | sent (frame : LiveFrame) (result : SendResult)

section

variable (config : LiveRtspServerConfig) (running : Bool) (sets : Int → ParameterSets) (x : Session)

def Session.goto (point : SessionPoint) : Session := { x with point := point }

def Session.afterReply (closeSession : Bool) : Session :=
  if closeSession then { x with looping := false, point := .checking } else x.goto .parsing

def pollStep (ready : Option Bytes) : List SessionEvent × Session :=
  if x.looping && running then
    match ready with
    | none => ([],x.goto .popping)
    | some chunk =>
        -- recv and SSL_read report the end of the stream and an error by a count that is not positive
        if chunk.isEmpty then ([],x.goto .disconnecting)
        else if overTotal config.limits (x.input ++ chunk) then
          ([.rejected],{ x with input := x.input ++ chunk, point := .disconnecting })
        else ([],{ x with input := x.input ++ chunk, point := .parsing })
  else ([],x.goto .disconnecting)

def requestEnv (request : Bytes) (drawn : SessionId) (writeOk : Bool) : RequestEnv where
  drawn := drawn
  codecFmtp :=
    match registeredChannel config.channels (requestChannel request) with
    | none => []
    | some channel => codecFmtp (sets channel.channelId) channel.codec
  writeOk := writeOk

def requestStep (request rest : Bytes) (drawn : SessionId) (writeOk : Bool) :
    List SessionEvent × Session :=
  let (result,control) := answer config.channels (requestEnv config sets request drawn writeOk)
    request x.control
  let y := { x with input := rest, control := control }
  ([.replied request result control writeOk],
    if !writeOk then { y with looping := false, point := .checking }
    else if result.startPlay then y.goto (.storingChannel result.closeSession)
    else y.afterReply result.closeSession)

-- `none` is an extract call that never returns
def extractStep (drawn : SessionId) (writeOk : Bool) : Option (List SessionEvent × Session) :=
  match extractOneRtspMessage config.limits x.input with
  | none => none
  | some (.wait rest) => some ([],{ x with input := rest, point := .checking })
  | some (.unit unit rest) =>
      if unit.head? = some dollar then some ([],{ x with input := rest })
      else some (requestStep config sets x unit rest drawn writeOk)

def checkStep : List SessionEvent × Session :=
  if rejectsLeftover x.input then ([.rejected],x.goto .disconnecting) else ([],x.goto .popping)

def popStep : Session :=
  if x.playing then
    match x.queue.tryPop with
    | (some frame,queue) => { x with queue := queue, point := .sending frame }
    | (none,queue) => { x with queue := queue, point := .polling }
  else x.goto .polling

def sendCall (frame : LiveFrame) (writeOk : Nat → Bool) (now wall : Int) : SendCall :=
  ⟨frame.frame,sets frame.frame.channelId,x.control.rtpChannel,x.control.rtcpChannel,writeOk,now,wall⟩

def sendStep (frame : LiveFrame) (writeOk : Nat → Bool) (now wall : Int) :
    List SessionEvent × Session :=
  let result := sendFrame config.rtpMtu x.rtp (sendCall sets x frame writeOk now wall)
  (if holdsBack x.rtp frame.frame then [] else [.sent frame result],
    { x with
      rtp := result.media
      point := if result.outcome = .sent then .polling else .disconnecting })

def sessionStep : SessionAction → Option (List SessionEvent × Session)
  | .connect established =>
      match x.point with
      | .connecting => some ([],x.goto (if established then .registering else .disconnecting))
      | _ => none
  | .poll ready =>
      match x.point with
      | .polling => some (pollStep config running x ready)
      | _ => none
  | .extract drawn writeOk =>
      match x.point with
      | .parsing => extractStep config sets x drawn writeOk
      | _ => none
  | .send writeOk now wall =>
      match x.point with
      | .sending frame => some (sendStep config sets x frame writeOk now wall)
      | _ => none
  | .advance =>
      match x.point with
      | .registering => some ([],x.goto .activating)
      | .activating => some ([],x.goto .creating)
      | .creating => some ([],{ x with counted := true, point := .polling })
      | .storingChannel closeSession =>
          some ([],{ x with channelId := x.control.channelId, point := .storingPlaying closeSession })
      | .storingPlaying closeSession => some ([],{ x with playing := true }.afterReply closeSession)
      | .checking => some (checkStep x)
      | .popping => some ([],popStep x)
      | .disconnecting => some ([],{ x with connected := false, point := .halting })
      | .halting => some ([],{ x with playing := false, point := .closing })
      | .closing =>
          some ([],{ x with
            queue := x.queue.close
            point := if x.counted then .deactivating else .finished })
      | .deactivating => some ([],x.goto .recording)
      | .recording => some ([],x.goto .finished)
      | _ => none

end

inductive Probe where
  | connected
  | playing
  | channelId
  deriving DecidableEq, Repr

inductive CallPhase where
  | locking
  | scanning (rest chosen : List Nat) (probe : Probe)
  | counting (rest : List Nat)
  | pushing (before client : Nat) (rest : List Nat)
  | recounting (before client : Nat) (rest : List Nat)
  deriving DecidableEq, Repr

structure FrameCall where
  frame : LiveFrame
  phase : CallPhase

structure LiveRtspServerStats where
  sessionsCreated : Nat := 0
  sessionsClosed : Nat := 0
  activeClients : Nat := 0
  firstRtpTransmissions : Nat := 0
  queueDrops : Nat := 0
  writeFailures : Nat := 0
  deriving DecidableEq, Repr

-- a client is the position of its session in sessions; passed counts the on_frame calls
structure Server where
  running : Bool := true
  sessions : List Session := []
  clients : List Nat := []
  clientsMutex : Option Int := none
  calls : Int → Option FrameCall := fun _ => none
  parameterSets : Int → ParameterSets := fun _ => {}
  passed : Nat := 0
  stats : LiveRtspServerStats := {}

inductive ServerAction where
  | accept (sequence : UInt16) (ssrc timestampOrigin : UInt32)
  | session (client : Nat) (action : SessionAction)
  | onFrame (view : OwnedLiveFrame)
  | frameCall (channelId : Int)
  | stop

inductive ServerEvent where
  | passed (frame : LiveFrame)
  | chosen (client : Nat) (frame : LiveFrame)
  | queued (client : Nat) (frame : LiveFrame)
  | session (client : Nat) (event : SessionEvent)

def newSession (config : LiveRtspServerConfig) (sequence : UInt16) (ssrc timestampOrigin : UInt32) :
    Session where
  rtp := { sequence := sequence, ssrc := ssrc, timestampOrigin := timestampOrigin }
  queue := { maxFrames := config.clientQueueFrames, maxBytes := config.clientQueueBytes }

def acceptsFrame (config : LiveRtspServerConfig) (view : OwnedLiveFrame) : Bool :=
  !view.data.isEmpty &&
    match registeredChannel config.channels view.channelId with
    | none => false
    | some channel => channel.codec == view.codec

def writeFailed : SessionEvent → Bool
  | .sent _ result => result.outcome = .writeFailed
  | _ => false

def sessionStats (x y : Session) (events : List SessionEvent) (stats : LiveRtspServerStats) :
    LiveRtspServerStats :=
  match x.point with
  | .activating => { stats with activeClients := stats.activeClients + 1 }
  | .creating => { stats with sessionsCreated := stats.sessionsCreated + 1 }
  | .sending _ =>
      { stats with
        firstRtpTransmissions := stats.firstRtpTransmissions +
          (if y.rtp.firstRtpSent && !x.rtp.firstRtpSent then 1 else 0)
        writeFailures := stats.writeFailures + (if events.any writeFailed then 1 else 0) }
  | .deactivating => { stats with activeClients := stats.activeClients - 1 }
  | .recording => { stats with sessionsClosed := stats.sessionsClosed + 1 }
  | _ => stats

namespace Server

variable (config : LiveRtspServerConfig) (s : Server)

def setCall (channelId : Int) (call : Option FrameCall) : Server :=
  { s with calls := Function.update s.calls channelId call }

def setSession (client : Nat) (x : Session) : Server :=
  { s with sessions := s.sessions.set client x }

def expired (client : Nat) : Bool :=
  match s.sessions[client]? with
  | none => true
  | some x => x.point = .finished

def drops (client : Nat) : Nat :=
  match s.sessions[client]? with
  | none => 0
  | some x => x.queue.drops

def probes (client : Nat) (channelId : Int) : Probe → Bool
  | .connected => (s.sessions[client]?.map (·.connected)).getD false
  | .playing => (s.sessions[client]?.map (·.playing)).getD false
  | .channelId => s.sessions[client]?.map (·.channelId) = some channelId

def accept (sequence : UInt16) (ssrc timestampOrigin : UInt32) : Option (List ServerEvent × Server) :=
  -- with a limit of 0 the constructor of the queue throws outside the try block of run_session
  if config.clientQueueFrames = 0 ∨ config.clientQueueBytes = 0 then none
  else some ([],{ s with sessions := s.sessions ++ [newSession config sequence ssrc timestampOrigin] })

def stepSession (client : Nat) (action : SessionAction) : Option (List ServerEvent × Server) :=
  match s.sessions[client]? with
  | none => none
  | some x =>
      if x.point = .registering ∧ s.clientsMutex ≠ none then none
      else
        (sessionStep config s.running s.parameterSets x action).map fun (events,y) =>
          (events.map (.session client),
            { s.setSession client y with
              clients := if x.point = .registering then s.clients ++ [client] else s.clients
              stats := sessionStats x y events s.stats })

def onFrame (view : OwnedLiveFrame) : Option (List ServerEvent × Server) :=
  match s.calls view.channelId with
  | some _ => none
  | none =>
      let frame : LiveFrame := ⟨s.passed,view⟩
      if acceptsFrame config view then
        some ([.passed frame],
          { s.setCall view.channelId (some ⟨frame,.locking⟩) with
            passed := s.passed + 1
            parameterSets := Function.update s.parameterSets view.channelId
              (updateParameterSets (s.parameterSets view.channelId) view) })
      else some ([.passed frame],{ s with passed := s.passed + 1 })

def probe (channelId : Int) (frame : LiveFrame) (client : Nat) (rest chosen : List Nat) (p : Probe) :
    List ServerEvent × Server :=
  if s.probes client channelId p then
    match p with
    | .connected => ([],s.setCall channelId (some ⟨frame,.scanning (client :: rest) chosen .playing⟩))
    | .playing => ([],s.setCall channelId (some ⟨frame,.scanning (client :: rest) chosen .channelId⟩))
    | .channelId =>
        ([.chosen client frame],
          s.setCall channelId (some ⟨frame,.scanning rest (chosen ++ [client]) .connected⟩))
  else ([],s.setCall channelId (some ⟨frame,.scanning rest chosen .connected⟩))

def push (channelId : Int) (frame : LiveFrame) (before client : Nat) (rest : List Nat) :
    List ServerEvent × Server :=
  let t := s.setCall channelId (some ⟨frame,.recounting before client rest⟩)
  match s.sessions[client]? with
  | none => ([],t)
  | some x =>
      (if x.queue.accepts frame then [.queued client frame] else [],
        t.setSession client { x with queue := (x.queue.push (some frame)).2 })

def stepCall (channelId : Int) : Option (List ServerEvent × Server) :=
  match s.calls channelId with
  | none => none
  | some ⟨frame,.locking⟩ =>
      if s.clientsMutex ≠ none then none
      else
        let clients := s.clients.filter fun client => !s.expired client
        some ([],
          { s.setCall channelId (some ⟨frame,.scanning clients [] .connected⟩) with
            clients := clients
            clientsMutex := some channelId })
  | some ⟨frame,.scanning [] chosen _⟩ =>
      some ([],{ s.setCall channelId (some ⟨frame,.counting chosen⟩) with clientsMutex := none })
  | some ⟨frame,.scanning (client :: rest) chosen p⟩ =>
      some (s.probe channelId frame client rest chosen p)
  | some ⟨_,.counting []⟩ => some ([],s.setCall channelId none)
  | some ⟨frame,.counting (client :: rest)⟩ =>
      some ([],s.setCall channelId (some ⟨frame,.pushing (s.drops client) client rest⟩))
  | some ⟨frame,.pushing before client rest⟩ => some (s.push channelId frame before client rest)
  | some ⟨frame,.recounting before client rest⟩ =>
      some ([],
        { s.setCall channelId (some ⟨frame,.counting rest⟩) with
          stats := { s.stats with queueDrops := s.stats.queueDrops + (s.drops client - before) } })

def step : ServerAction → Option (List ServerEvent × Server)
  | .accept sequence ssrc timestampOrigin => s.accept config sequence ssrc timestampOrigin
  | .session client action => s.stepSession config client action
  | .onFrame view => s.onFrame config view
  | .frameCall channelId => s.stepCall channelId
  | .stop => some ([],{ s with running := false })

end Server

def serverRun (config : LiveRtspServerConfig) (actions : List ServerAction) :
    List ServerEvent × Server :=
  Runs.run (Server.step config) ([],{}) actions

end RpiVms

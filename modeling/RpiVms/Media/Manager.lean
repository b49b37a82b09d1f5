import RpiVms.Library.Runs
import RpiVms.Media.Ingest

namespace RpiVms

structure ChannelWorker where
  config : ChannelIngestConfig
  ingest : ChannelIngest := {}
  failed : Bool := false
  error : Bytes := []
  deriving DecidableEq, Repr

structure ChannelManager where
  workers : List ChannelWorker
  running : Bool := true
  starting : Bool := true
  started : Nat := 0
  deriving DecidableEq, Repr

inductive ManagerAction where
  | start
  | worker (i : Nat) (action : IngestAction)
  | stop
  deriving DecidableEq, Repr

structure WorkerEvent where
  worker : Nat
  event : IngestEvent
  deriving DecidableEq, Repr

def Thrown.text : Thrown → Bytes
  | .exception what => what
  | .unknown => ascii "unknown"

def ChannelWorker.step (gmtime : Int → CivilTime) (running : Bool) (w : ChannelWorker)
    (action : IngestAction) : Option (List IngestEvent × ChannelWorker) :=
  match w.ingest.point with
  | .escaped e =>
      -- the catch clauses of the thread
      if w.failed = false ∧ action = .advance then some ([],{ w with failed := true, error := e.text })
      else none
  | _ =>
      (w.ingest.step gmtime w.config running action).map fun (events,ingest) =>
        (events,{ w with ingest := ingest })

namespace ChannelManager

variable (gmtime : Int → CivilTime) (channelStartDelayMs : Int) (m : ChannelManager)

def start : Option ChannelManager :=
  if m.starting then
    if m.workers.length ≤ m.started then some { m with starting := false }
    else if 0 < m.started ∧ 0 < channelStartDelayMs ∧ m.running = false then
      some { m with starting := false }
    else some { m with started := m.started + 1 }
  else none

def stepWorker (i : Nat) (action : IngestAction) : Option (List WorkerEvent × ChannelManager) :=
  match m.workers[i]? with
  | none => none
  | some w =>
      if i < m.started then
        (w.step gmtime m.running action).map fun (events,w') =>
          (events.map (⟨i,·⟩),{ m with workers := m.workers.set i w' })
      else none

def step : ManagerAction → Option (List WorkerEvent × ChannelManager)
  | .start => (m.start channelStartDelayMs).map ([],·)
  | .worker i action => m.stepWorker gmtime i action
  | .stop => some ([],{ m with running := false })

end ChannelManager

def newManager (configs : List ChannelIngestConfig) : ChannelManager where
  workers := configs.map fun config => ⟨config,{},false,[]⟩

end RpiVms

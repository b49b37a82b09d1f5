import RpiVms.Media.Moves

namespace RpiVms

open Runs

def IngestPoint.ended : IngestPoint → Bool
  | .returned | .escaped _ => true
  | _ => false

section

variable {config : ChannelIngestConfig} {running : Bool} {w t : ChannelIngest} {action : IngestAction}
  {ev : List IngestEvent} {a b : Attempt} {place : Attempt → IngestPoint}

end

section

variable {gmtime : Int → CivilTime} {delay : Int} {m m' : ChannelManager} {h ev : List WorkerEvent}
  {i : Nat} {w : ChannelWorker} {a : ManagerAction}

end

def connecting : List ManagerAction :=
  .start :: [.advance,.locate 0 none,.launch none,.configure none,.play true].map (.worker 0)

def reconnecting : List ManagerAction :=
  (.watch false none :: List.replicate 7 .advance).map (.worker 0)

end RpiVms

import RpiVms.Live.Server
import RpiVms.Live.RtpStream

namespace RpiVms

open Search Framing

theorem sendFrame_held {mtu : Nat} {media : RtpState} {call : SendCall}
    (h : holdsBack media call.frame = true) : sendFrame mtu media call = ⟨media,[],[],[],.sent⟩ := by
  simp [sendFrame,h]

namespace Session

def inFlight (x : Session) : List LiveFrame :=
  match x.point with
  | .sending frame => [frame]
  | _ => []

def pipeline (x : Session) : List LiveFrame := x.inFlight ++ x.queue.frames

def storing (x : Session) : Bool :=
  match x.point with
  | .storingChannel _ => true
  | .storingPlaying _ => true
  | _ => false

def registered (x : Session) : Bool :=
  match x.point with
  | .connecting => false
  | .registering => false
  | _ => true

def Winding (x : Session) : Prop :=
  match x.point with
  | .storingChannel closeSession => closeSession = true
  | .storingPlaying closeSession => closeSession = true
  | .checking | .popping | .polling => x.looping = false
  | .sending frame => x.looping = false ∧ holdsBack x.rtp frame.frame = true
  | .connecting | .registering | .activating | .creating | .parsing => False
  | _ => True

end Session

structure Calm (x y : Session) : Prop where
  control : y.control = x.control
  channelId : y.channelId = x.channelId
  playing : y.playing = true → x.playing = true
  storing : y.storing = false

structure SameMedia (x y : Session) : Prop where
  rtp : y.rtp = x.rtp
  queue : y.queue = x.queue
  inFlight : y.inFlight = x.inFlight

inductive SessionMove (x : Session) : List SessionEvent → Session → Prop
  | quiet {y : Session} : Calm x y → SameMedia x y → SessionMove x [] y
  | rejected {y : Session} : Calm x y → SameMedia x y → SessionMove x [.rejected] y
  | replied {y : Session} (id : SessionId) (request : Bytes) (codec : VideoCodec) (fmtp : Bytes)
      (result : RtspControlResult) (control : RtspControlState) (written : Bool) :
      Handled id.text request codec fmtp x.control result control → y.control = control →
      SameMedia x y → y.channelId = x.channelId → y.playing = x.playing →
      (y.storing = true → result.startPlay = true ∧ written = true) →
      (result.closeSession = true → y.Winding) →
      SessionMove x [.replied request result control written] y
  | stored {y : Session} : x.storing = true → SameMedia x y → y.control = x.control →
      y.channelId = x.channelId ∨ y.channelId = x.control.channelId → SessionMove x [] y
  | popped {y : Session} (f : LiveFrame) : Calm x y → y.rtp = x.rtp → x.inFlight = [] →
      x.queue.frames = f :: y.queue.frames → y.queue.closed = x.queue.closed → y.inFlight = [f] →
      SessionMove x [] y
  | heldBack {y : Session} (f : LiveFrame) : Calm x y → y.rtp = x.rtp → y.queue = x.queue →
      x.inFlight = [f] → holdsBack x.rtp f.frame = true → y.inFlight = [] → SessionMove x [] y
  | sent {y : Session} (f : LiveFrame) (result : SendResult) : Calm x y →
      y.rtp.waitingForKeyframe = false → y.queue = x.queue → x.inFlight = [f] →
      holdsBack x.rtp f.frame = false → y.inFlight = [] → SessionMove x [.sent f result] y
  | closed {y : Session} : Calm x y → y.rtp = x.rtp → x.inFlight = [] → y.queue = x.queue.close →
      y.inFlight = [] → SessionMove x [] y

structure SessionStep (x : Session) (events : List SessionEvent) (y : Session) : Prop where
  move : SessionMove x events y
  registered : y.registered = true ∨ x.point = .connecting

section

variable {config : LiveRtspServerConfig} {running : Bool} {sets : Int → ParameterSets} {x y : Session}
  {events : List SessionEvent}

theorem pollStep_move {ready : Option Bytes} (hx : x.inFlight = []) :
    SessionStep x (pollStep config running x ready).1 (pollStep config running x ready).2 := by
  unfold pollStep
  split
  · cases ready with
    | none => exact ⟨.quiet ⟨rfl,rfl,id,rfl⟩ ⟨rfl,rfl,hx.symm⟩,.inl rfl⟩
    | some chunk =>
      simp only
      split
      · exact ⟨.quiet ⟨rfl,rfl,id,rfl⟩ ⟨rfl,rfl,hx.symm⟩,.inl rfl⟩
      · split
        · exact ⟨.rejected ⟨rfl,rfl,id,rfl⟩ ⟨rfl,rfl,hx.symm⟩,.inl rfl⟩
        · exact ⟨.quiet ⟨rfl,rfl,id,rfl⟩ ⟨rfl,rfl,hx.symm⟩,.inl rfl⟩
  · exact ⟨.quiet ⟨rfl,rfl,id,rfl⟩ ⟨rfl,rfl,hx.symm⟩,.inl rfl⟩

theorem answer_handled (channels : List LiveChannel) (env : RequestEnv) (request : Bytes)
    (control : RtspControlState) :
    ∃ codec fmtp, Handled env.drawn.text request codec fmtp control
      (answer channels env request control).1 (answer channels env request control).2 := by
  unfold answer
  split
  · exact ⟨_,_,process_handled _ _ _ _ _ _⟩
  · exact ⟨_,_,process_handled _ _ _ _ _ _⟩

theorem requestStep_move {request rest : Bytes} {drawn : SessionId} {writeOk : Bool}
    (hx : x.inFlight = []) :
    SessionStep x (requestStep config sets x request rest drawn writeOk).1
      (requestStep config sets x request rest drawn writeOk).2 := by
  obtain ⟨codec,fmtp,hh⟩ := answer_handled config.channels
    (requestEnv config sets request drawn writeOk) request x.control
  unfold requestStep
  generalize answer config.channels (requestEnv config sets request drawn writeOk) request
    x.control = r at hh
  simp only
  split
  · exact ⟨.replied _ request codec fmtp _ _ _ hh rfl ⟨rfl,rfl,hx.symm⟩ rfl rfl nofun fun _ => rfl,
      .inl rfl⟩
  · rename_i hw
    split
    · rename_i hs
      exact ⟨.replied _ request codec fmtp _ _ _ hh rfl ⟨rfl,rfl,hx.symm⟩ rfl rfl
        (fun _ => ⟨hs,by simpa using hw⟩) id,.inl rfl⟩
    · unfold Session.afterReply
      split
      · exact ⟨.replied _ request codec fmtp _ _ _ hh rfl ⟨rfl,rfl,hx.symm⟩ rfl rfl nofun
          fun _ => rfl,.inl rfl⟩
      · rename_i hclose
        exact ⟨.replied _ request codec fmtp _ _ _ hh rfl ⟨rfl,rfl,hx.symm⟩ rfl rfl nofun
          fun hc => absurd hc hclose,.inl rfl⟩

theorem extractStep_move {drawn : SessionId} {writeOk : Bool} (hp : x.point = .parsing)
    (h : extractStep config sets x drawn writeOk = some (events,y)) : SessionStep x events y := by
  have hx : x.inFlight = [] := by simp [Session.inFlight,hp]
  unfold extractStep at h
  split at h
  · cases h
  · cases h
    exact ⟨.quiet ⟨rfl,rfl,id,rfl⟩ ⟨rfl,rfl,hx.symm⟩,.inl rfl⟩
  · rename_i unit rest _
    split at h
    · cases h
      exact ⟨.quiet ⟨rfl,rfl,id,by simp [Session.storing,hp]⟩ ⟨rfl,rfl,rfl⟩,
        .inl (by simp [Session.registered,hp])⟩
    · have hm := @requestStep_move config sets x unit rest drawn writeOk hx
      rwa [Option.some.inj h] at hm

theorem checkStep_move (hx : x.inFlight = []) : SessionStep x (checkStep x).1 (checkStep x).2 := by
  unfold checkStep
  split
  · exact ⟨.rejected ⟨rfl,rfl,id,rfl⟩ ⟨rfl,rfl,hx.symm⟩,.inl rfl⟩
  · exact ⟨.quiet ⟨rfl,rfl,id,rfl⟩ ⟨rfl,rfl,hx.symm⟩,.inl rfl⟩

theorem popStep_move (hx : x.inFlight = []) : SessionStep x [] (popStep x) := by
  unfold popStep
  split
  · split
    · rename_i f queue hq
      obtain ⟨hf,hc⟩ := BoundedFrameQueue.tryPop_some hq
      exact ⟨.popped f ⟨rfl,rfl,id,rfl⟩ rfl hx hf hc rfl,.inl rfl⟩
    · rename_i queue hq
      obtain ⟨-,rfl⟩ := BoundedFrameQueue.tryPop_none hq
      exact ⟨.quiet ⟨rfl,rfl,id,rfl⟩ ⟨rfl,rfl,hx.symm⟩,.inl rfl⟩
  · exact ⟨.quiet ⟨rfl,rfl,id,rfl⟩ ⟨rfl,rfl,hx.symm⟩,.inl rfl⟩

theorem sendStep_move {f : LiveFrame} {writeOk : Nat → Bool} {now wall : Int}
    (hp : x.point = .sending f) :
    SessionStep x (sendStep config sets x f writeOk now wall).1
      (sendStep config sets x f writeOk now wall).2 := by
  have hx : x.inFlight = [f] := by simp [Session.inFlight,hp]
  unfold sendStep
  simp only
  split
  · rename_i hb
    rw [sendFrame_held hb]
    exact ⟨.heldBack f ⟨rfl,rfl,id,rfl⟩ rfl rfl hx hb rfl,.inl rfl⟩
  · rename_i hb
    have hb' : holdsBack x.rtp f.frame = false := by simpa using hb
    have ho := @sendFrame_opens x.rtp (sendCall sets x f writeOk now wall) config.rtpMtu hb'
    generalize sendFrame config.rtpMtu x.rtp (sendCall sets x f writeOk now wall) = result at ho
    split
    · exact ⟨.sent f result ⟨rfl,rfl,id,rfl⟩ ho rfl hx hb' rfl,.inl rfl⟩
    · exact ⟨.sent f result ⟨rfl,rfl,id,rfl⟩ ho rfl hx hb' rfl,.inl rfl⟩

theorem afterReply_stored {closeSession : Bool} (hx : x.inFlight = []) (hs : x.storing = true) :
    SessionStep x [] ({ x with playing := true }.afterReply closeSession) := by
  unfold Session.afterReply
  split
  · exact ⟨.stored hs ⟨rfl,rfl,hx.symm⟩ rfl (.inl rfl),.inl rfl⟩
  · exact ⟨.stored hs ⟨rfl,rfl,hx.symm⟩ rfl (.inl rfl),.inl rfl⟩

theorem advance_move (h : sessionStep config running sets x .advance = some (events,y)) :
    SessionStep x events y := by
  have idle (point : SessionPoint) (hp : x.point = point)
      (hi : (x.goto point).inFlight = []) : x.inFlight = [] := by
    rwa [show x.goto point = x by simp [Session.goto,← hp]] at hi
  cases hp : x.point with
  | registering | activating | creating | disconnecting | deactivating | recording =>
    simp only [sessionStep,hp] at h
    cases h
    exact ⟨.quiet ⟨rfl,rfl,id,rfl⟩ ⟨rfl,rfl,(idle _ hp rfl).symm⟩,.inl rfl⟩
  | halting =>
    simp only [sessionStep,hp] at h
    cases h
    exact ⟨.quiet ⟨rfl,rfl,nofun,rfl⟩ ⟨rfl,rfl,(idle _ hp rfl).symm⟩,.inl rfl⟩
  | storingChannel closeSession =>
    simp only [sessionStep,hp] at h
    cases h
    exact ⟨.stored (by simp [Session.storing,hp]) ⟨rfl,rfl,(idle _ hp rfl).symm⟩ rfl (.inr rfl),.inl rfl⟩
  | storingPlaying closeSession =>
    simp only [sessionStep,hp] at h
    cases h
    exact afterReply_stored (idle _ hp rfl) (by simp [Session.storing,hp])
  | checking =>
    simp only [sessionStep,hp] at h
    have hm := checkStep_move (idle _ hp rfl)
    rwa [Option.some.inj h] at hm
  | popping =>
    simp only [sessionStep,hp] at h
    cases h
    exact popStep_move (idle _ hp rfl)
  | closing =>
    simp only [sessionStep,hp] at h
    cases h
    split
    · exact ⟨.closed ⟨rfl,rfl,id,rfl⟩ rfl (idle _ hp rfl) rfl rfl,.inl rfl⟩
    · exact ⟨.closed ⟨rfl,rfl,id,rfl⟩ rfl (idle _ hp rfl) rfl rfl,.inl rfl⟩
  | connecting | polling | parsing | sending frame | finished =>
    simp [sessionStep,hp] at h

theorem sessionStep_move {action : SessionAction}
    (h : sessionStep config running sets x action = some (events,y)) : SessionStep x events y := by
  cases action with
  | connect established =>
    simp only [sessionStep] at h
    split at h
    · rename_i hp
      cases h
      have hx : x.inFlight = [] := by simp [Session.inFlight,hp]
      cases established <;> exact ⟨.quiet ⟨rfl,rfl,id,rfl⟩ ⟨rfl,rfl,hx.symm⟩,.inr hp⟩
    · cases h
  | poll ready =>
    simp only [sessionStep] at h
    split at h
    · rename_i hp
      have hm := @pollStep_move config running x ready (by simp [Session.inFlight,hp])
      rwa [Option.some.inj h] at hm
    · cases h
  | extract drawn writeOk =>
    simp only [sessionStep] at h
    split at h
    · rename_i hp
      exact extractStep_move hp h
    · cases h
  | send writeOk now wall =>
    simp only [sessionStep] at h
    split at h
    · rename_i hp
      have hm := @sendStep_move config sets x _ writeOk now wall hp
      rwa [Option.some.inj h] at hm
    · cases h
  | advance => exact advance_move h

end

structure Core where
  sessions : List Session
  clients : List Nat
  calls : Int → Option FrameCall
  passed : Nat

def Server.core (s : Server) : Core := ⟨s.sessions,s.clients,s.calls,s.passed⟩

namespace Core

def setCall (k : Core) (channelId : Int) (call : Option FrameCall) : Core :=
  { k with calls := Function.update k.calls channelId call }

def setSession (k : Core) (client : Nat) (x : Session) : Core :=
  { k with sessions := k.sessions.set client x }

end Core

inductive Onward (k : Core) : CallPhase → CallPhase → List Nat → Prop
  | lock (clients : List Nat) : clients.Sublist k.clients →
      Onward k .locking (.scanning clients [] .connected) clients
  | unlock (chosen : List Nat) (p : Probe) :
      Onward k (.scanning [] chosen p) (.counting chosen) k.clients
  | probe (c : Nat) (rest chosen : List Nat) (p q : Probe) :
      (q = .channelId → ∃ x, k.sessions[c]? = some x ∧ x.playing = true) →
      Onward k (.scanning (c :: rest) chosen p) (.scanning (c :: rest) chosen q) k.clients
  | skip (c : Nat) (rest chosen : List Nat) (p : Probe) :
      Onward k (.scanning (c :: rest) chosen p) (.scanning rest chosen .connected) k.clients
  | count (before c : Nat) (rest : List Nat) :
      Onward k (.counting (c :: rest)) (.pushing before c rest) k.clients
  | miss (before c : Nat) (rest : List Nat) :
      Onward k (.pushing before c rest) (.recounting before c rest) k.clients
  | recount (before c : Nat) (rest : List Nat) :
      Onward k (.recounting before c rest) (.counting rest) k.clients

inductive CoreMove (config : LiveRtspServerConfig) (k : Core) :
    ServerAction → List ServerEvent → Core → Prop
  | idle : CoreMove config k .stop [] k
  | accepted (sequence : UInt16) (ssrc timestampOrigin : UInt32) :
      CoreMove config k (.accept sequence ssrc timestampOrigin) []
        { k with sessions := k.sessions ++ [newSession config sequence ssrc timestampOrigin] }
  | session {c : Nat} {x y : Session} {action : SessionAction} {running : Bool}
      {sets : Int → ParameterSets} {events : List SessionEvent} {clients : List Nat} :
      k.sessions[c]? = some x → sessionStep config running sets x action = some (events,y) →
      clients = (if x.point = .registering then k.clients ++ [c] else k.clients) →
      CoreMove config k (.session c action) (events.map (.session c))
        { k.setSession c y with clients := clients }
  | ignored (view : OwnedLiveFrame) :
      CoreMove config k (.onFrame view) [.passed ⟨k.passed,view⟩] { k with passed := k.passed + 1 }
  | passed (view : OwnedLiveFrame) : acceptsFrame config view = true →
      k.calls view.channelId = none →
      CoreMove config k (.onFrame view) [.passed ⟨k.passed,view⟩]
        { k.setCall view.channelId (some ⟨⟨k.passed,view⟩,.locking⟩) with passed := k.passed + 1 }
  | onward {ch : Int} {f : LiveFrame} {p q : CallPhase} {clients : List Nat} :
      k.calls ch = some ⟨f,p⟩ → Onward k p q clients →
      CoreMove config k (.frameCall ch) [] { k.setCall ch (some ⟨f,q⟩) with clients := clients }
  | chose {ch : Int} {f : LiveFrame} {c : Nat} {x : Session} {rest chosen : List Nat} :
      k.calls ch = some ⟨f,.scanning (c :: rest) chosen .channelId⟩ → k.sessions[c]? = some x →
      x.channelId = ch →
      CoreMove config k (.frameCall ch) [.chosen c f]
        (k.setCall ch (some ⟨f,.scanning rest (chosen ++ [c]) .connected⟩))
  | returned {ch : Int} {f : LiveFrame} : k.calls ch = some ⟨f,.counting []⟩ →
      CoreMove config k (.frameCall ch) [] (k.setCall ch none)
  | pushed {ch : Int} {f : LiveFrame} {before c : Nat} {x : Session} {rest : List Nat} :
      k.calls ch = some ⟨f,.pushing before c rest⟩ → k.sessions[c]? = some x →
      CoreMove config k (.frameCall ch) (if x.queue.accepts f then [.queued c f] else [])
        ((k.setCall ch (some ⟨f,.recounting before c rest⟩)).setSession c
          { x with queue := (x.queue.push (some f)).2 })

section

variable {config : LiveRtspServerConfig} {s t : Server} {events : List ServerEvent}

theorem stepSession_move {c : Nat} {action : SessionAction}
    (h : s.stepSession config c action = some (events,t)) :
    CoreMove config s.core (.session c action) events t.core := by
  unfold Server.stepSession at h
  split at h
  · cases h
  · rename_i x hx
    split at h
    · cases h
    · obtain ⟨⟨es,y⟩,hy,he⟩ := Option.map_eq_some_iff.mp h
      cases he
      exact .session hx hy rfl

theorem onFrame_move {view : OwnedLiveFrame} (h : s.onFrame config view = some (events,t)) :
    CoreMove config s.core (.onFrame view) events t.core := by
  unfold Server.onFrame at h
  split at h
  · cases h
  · rename_i hc
    simp only at h
    split at h
    · rename_i ha
      cases h
      exact .passed view ha hc
    · cases h
      exact .ignored view

theorem probe_move {ch : Int} {f : LiveFrame} {c : Nat} {rest chosen : List Nat} {p : Probe}
    (hc : s.calls ch = some ⟨f,.scanning (c :: rest) chosen p⟩) :
    CoreMove config s.core (.frameCall ch) (s.probe ch f c rest chosen p).1
      (s.probe ch f c rest chosen p).2.core := by
  have hcore : s.core.calls ch = some ⟨f,.scanning (c :: rest) chosen p⟩ := hc
  unfold Server.probe
  split
  · rename_i hp
    cases p with
    | connected => exact .onward hcore (.probe c rest chosen _ .playing nofun)
    | playing =>
      refine .onward hcore (.probe c rest chosen _ .channelId fun _ => ?_)
      simp only [Server.probes] at hp
      cases hx : s.sessions[c]? with
      | none => simp [hx] at hp
      | some x => exact ⟨x,hx,by simpa [hx] using hp⟩
    | channelId =>
      simp only [Server.probes,decide_eq_true_eq] at hp
      obtain ⟨x,hx,hi⟩ := Option.map_eq_some_iff.mp hp
      exact .chose hcore hx hi
  · exact .onward hcore (.skip c rest chosen p)

theorem push_move {ch : Int} {f : LiveFrame} {before c : Nat} {rest : List Nat}
    (hc : s.calls ch = some ⟨f,.pushing before c rest⟩) :
    CoreMove config s.core (.frameCall ch) (s.push ch f before c rest).1
      (s.push ch f before c rest).2.core := by
  have hcore : s.core.calls ch = some ⟨f,.pushing before c rest⟩ := hc
  unfold Server.push
  simp only
  split
  · exact .onward hcore (.miss before c rest)
  · rename_i x hx
    exact .pushed hcore hx

theorem stepCall_move {ch : Int} (h : s.stepCall ch = some (events,t)) :
    CoreMove config s.core (.frameCall ch) events t.core := by
  unfold Server.stepCall at h
  split at h
  · cases h
  · rename_i f hc
    split at h
    · cases h
    · cases h
      exact .onward hc (.lock _ List.filter_sublist)
  · rename_i f chosen p hc
    cases h
    exact .onward hc (.unlock chosen p)
  · rename_i f c rest chosen p hc
    have hm := @probe_move config s ch f c rest chosen p hc
    rwa [Option.some.inj h] at hm
  · rename_i f hc
    cases h
    exact .returned hc
  · rename_i f c rest hc
    cases h
    exact .onward hc (.count _ c rest)
  · rename_i f before c rest hc
    have hm := @push_move config s ch f before c rest hc
    rwa [Option.some.inj h] at hm
  · rename_i f before c rest hc
    cases h
    exact .onward hc (.recount before c rest)

theorem step_move {action : ServerAction} (h : s.step config action = some (events,t)) :
    CoreMove config s.core action events t.core := by
  cases action with
  | accept sequence ssrc timestampOrigin =>
    simp only [Server.step,Server.accept] at h
    split at h
    · cases h
    · cases h
      exact .accepted sequence ssrc timestampOrigin
  | session c action => exact stepSession_move h
  | onFrame view => exact onFrame_move h
  | frameCall ch => exact stepCall_move h
  | stop =>
    cases h
    exact .idle

end

end RpiVms

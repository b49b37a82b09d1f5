import RpiVms.Live.Isolation

namespace RpiVms

open Runs

-- the connection is destroyed where run_session leaves its try block
def Session.hungUp (x : Session) : Bool :=
  match x.point with
  | .disconnecting | .halting | .closing | .deactivating | .recording | .finished => true
  | _ => false

section

variable {config : LiveRtspServerConfig} {s t : Server} {a : ServerAction} {ev : List ServerEvent} {c : Nat}
  {x : Session}

theorem step_running (hs : s.step config a = some (ev,t)) (ha : a ≠ .stop) : t.running = s.running := by
  cases a with
  | accept sequence ssrc timestampOrigin =>
    simp only [Server.step,Server.accept] at hs
    split at hs <;> cases hs
    rfl
  | session client action =>
    simp only [Server.step,Server.stepSession] at hs
    split at hs
    · cases hs
    · split at hs
      · cases hs
      · obtain ⟨r,-,he⟩ := Option.map_eq_some_iff.mp hs
        cases he
        rfl
  | onFrame view =>
    simp only [Server.step,Server.onFrame] at hs
    split at hs
    · cases hs
    · split at hs <;> cases hs <;> rfl
  | frameCall channelId => exact (stepCall_rest hs).1
  | stop => exact absurd rfl ha

theorem stepSession_own {action : SessionAction} (hs : s.step config (.session c action) = some (ev,t))
    (hx : s.sessions[c]? = some x) :
    ∃ events y, sessionStep config s.running s.parameterSets x action = some (events,y) ∧
      ev = events.map (.session c) ∧ t.sessions[c]? = some y ∧ t.parameterSets = s.parameterSets := by
  simp only [Server.step,Server.stepSession,hx] at hs
  split at hs
  · cases hs
  · obtain ⟨⟨events,y⟩,hstep,he⟩ := Option.map_eq_some_iff.mp hs
    cases he
    exact ⟨events,y,hstep,rfl,List.getElem?_set_self (List.getElem?_eq_some_iff.mp hx).1,rfl⟩

theorem step_beside (hs : s.step config a = some (ev,t)) (ha : ∀ action, a ≠ .session c action)
    (hx : s.sessions[c]? = some x) :
    (∀ e, .session c e ∉ ev) ∧ ∃ queue, t.sessions[c]? = some { x with queue := queue } := by
  have hlen : c < t.sessions.length :=
    (List.getElem?_eq_some_iff.mp hx).1.trans_le (sessions_length (step_move hs))
  obtain ⟨y,hy⟩ : ∃ y, t.sessions[c]? = some y := ⟨_,List.getElem?_eq_getElem hlen⟩
  have hchange := session_change (step_move hs) hy
  cases hchange with
  | kept hx' hsilent _ =>
    obtain rfl := Option.some.inj (hx.symm.trans hx')
    exact ⟨hsilent,x.queue,hy⟩
  | added sequence ssrc timestampOrigin hc =>
    have := (List.getElem?_eq_some_iff.mp hx).1
    exact absurd hc (Nat.ne_of_lt this)
  | stepped => exact absurd rfl (ha _)
  | pushed hcall hx' =>
    obtain rfl := Option.some.inj (hx.symm.trans hx')
    exact ⟨queued_silent,_,hy⟩

theorem accept_sessions {sequence : UInt16} {ssrc timestampOrigin : UInt32}
    (hs : s.step config (.accept sequence ssrc timestampOrigin) = some (ev,t)) :
    t.sessions = s.sessions ++ [newSession config sequence ssrc timestampOrigin] := by
  simp only [Server.step,Server.accept] at hs
  split at hs <;> cases hs
  rfl

theorem session_sessions {action : SessionAction} (hs : s.step config (.session c action) = some (ev,t)) :
    ∃ x y events, s.sessions[c]? = some x ∧ sessionStep config s.running s.parameterSets x action = some (events,y) ∧
      t.sessions = s.sessions.set c y := by
  simp only [Server.step,Server.stepSession] at hs
  split at hs
  · cases hs
  · rename_i x hx
    split at hs
    · cases hs
    · obtain ⟨⟨events,y⟩,hstep,he⟩ := Option.map_eq_some_iff.mp hs
      cases he
      exact ⟨x,y,events,hx,hstep,rfl⟩

theorem frame_sessions (hs : s.step config a = some (ev,t)) (ha : (∃ view, a = .onFrame view) ∨ ∃ ch, a = .frameCall ch) :
    t.sessions.length = s.sessions.length ∧
      ∀ (c : Nat) (y : Session), t.sessions[c]? = some y →
        ∃ (x : Session) (queue : BoundedFrameQueue), s.sessions[c]? = some x ∧ y = { x with queue := queue } := by
  constructor
  · rcases ha with ⟨view,rfl⟩ | ⟨ch,rfl⟩
    · simp only [Server.step,Server.onFrame] at hs
      split at hs
      · cases hs
      · split at hs <;> cases hs <;> rfl
    · exact (stepCall_rest hs).2.2.2
  · intro c y hy
    cases session_change (step_move hs) hy with
    | kept hx _ _ => exact ⟨y,y.queue,hx,rfl⟩
    | added => rcases ha with ⟨_,h⟩ | ⟨_,h⟩ <;> cases h
    | stepped => rcases ha with ⟨_,h⟩ | ⟨_,h⟩ <;> cases h
    | pushed _ hx => exact ⟨_,_,hx,rfl⟩

theorem finished_no_step {running : Bool} {sets : Int → ParameterSets} {action : SessionAction}
    {r : List SessionEvent × Session} (hs : sessionStep config running sets x action = some r) : x.point ≠ .finished := by
  intro hp
  cases action <;> simp only [sessionStep,hp] at hs <;> cases hs

theorem hungUp_stays {running : Bool} {sets : Int → ParameterSets} {action : SessionAction} {events : List SessionEvent}
    {y : Session} (hs : sessionStep config running sets x action = some (events,y)) (hx : x.hungUp = true) :
    y.hungUp = true := by
  cases hp : x.point with
  | disconnecting | halting | deactivating | recording =>
    cases action <;> simp only [sessionStep,hp] at hs <;> cases hs
    rfl
  | closing =>
    cases action <;> simp only [sessionStep,hp] at hs <;> cases hs
    cases x.counted <;> rfl
  | finished => exact absurd hp (finished_no_step hs)
  | connecting | registering | activating | creating | polling | parsing | storingChannel | storingPlaying | checking
  | popping | sending => simp [Session.hungUp,hp] at hx

end

inductive Transport where
  | rtsp
  | rtsps
  deriving DecidableEq, Repr

inductive LoopPoint where
  | beginning
  | testing
  | selecting
  | accepting
  | holding (client : Nat)
  | exited
  deriving DecidableEq, Repr

-- a thread of listener_threads_; what it is called with it reads itself, when it begins
structure AcceptLoop where
  point : LoopPoint := .beginning
  listenerFd : Option Nat := none
  context : Option Nat := none
  deriving DecidableEq, Repr

-- where start, stop or the destructor stand; failed is the catch block of start
inductive CallerPoint where
  | idle
  | initializing
  | opening (transport : Transport)
  | spawning (transport : Transport)
  | closing (transport : Transport) (failed : Bool)
  | clearing (transport : Transport) (failed : Bool)
  | unwinding
  | joining (transport : Transport)
  | swapping
  | joiningSessions (rest : List Nat)
  | freeing
  deriving DecidableEq, Repr

inductive File where
  | listening
  | stream
  deriving DecidableEq, Repr

structure Connection where
  fd : Nat
  context : Option Nat
  deriving DecidableEq, Repr

inductive Fault where
  | closedTwice (fd : Nat)
  | setOfNoDescriptor
  | contextUsedAfterFree (context : Nat)
  deriving DecidableEq, Repr

inductive LifeEvent where
  | fault (fault : Fault)
  | tlsFailed
  | listenFailed
  | stopped
  deriving DecidableEq, Repr

-- the descriptors and TLS contexts of the process beside the server; -1 and nullptr are none
structure Life where
  running : Bool := true
  started : Bool := false
  caller : CallerPoint := .idle
  listenerFd : Transport → Option Nat := fun _ => none
  loops : Transport → Option AcceptLoop := fun _ => none
  tlsContext : Option Nat := none
  created : Nat := 0
  freed : List Nat := []
  files : Nat → Option File := fun _ => none
  sessionThreads : List Nat := []
  connections : List Connection := []
  server : Server := { running := false }

inductive LoopAction where
  | advance
  | select (ready : Bool)
  | accept (client : Option Nat)
  | spawn (sequence : UInt16) (ssrc timestampOrigin : UInt32)

inductive LifeAction where
  | start
  | stop
  | loadTls (loaded : Bool)
  | listen (fd : Option Nat)
  | caller
  | loop (transport : Transport) (action : LoopAction)
  | session (client : Nat) (action : SessionAction)
  | onFrame (view : OwnedLiveFrame)
  | frameCall (channelId : Int)
  | signal

namespace CallerPoint

def afterOpening : Transport → CallerPoint
  | .rtsp => .opening .rtsps
  | .rtsps => .spawning .rtsp

def afterSpawning : Transport → CallerPoint
  | .rtsp => .spawning .rtsps
  | .rtsps => .idle

def afterClosing (failed : Bool) : Transport → CallerPoint
  | .rtsp => .closing .rtsps failed
  | .rtsps => if failed then .unwinding else .joining .rtsp

def afterJoining : Transport → CallerPoint
  | .rtsp => .joining .rtsps
  | .rtsps => .swapping

end CallerPoint

namespace Life

variable (config : LiveRtspServerConfig) (ports : Transport → Int) (l : Life)

-- run_session reads running_ and started_ together
def synced : Life := { l with server := { l.server with running := l.running && l.started } }

def setLoop (transport : Transport) (loop : Option AcceptLoop) : Life :=
  { l with loops := Function.update l.loops transport loop }

def liveContext (context : Nat) : Bool := context < l.created && !l.freed.contains context

def close (fd : Nat) : List LifeEvent × Life :=
  (if l.files fd = none then [.fault (.closedTwice fd)] else [],{ l with files := Function.update l.files fd none })

def start : Option (List LifeEvent × Life) :=
  if l.caller ≠ .idle then none
  else if l.started then some ([],l)
  else some ([],{ l with started := true, caller := .initializing }.synced)

def stop : Option (List LifeEvent × Life) :=
  if l.caller ≠ .idle then none
  else if l.started then some ([],{ l with started := false, caller := .closing .rtsp false }.synced)
  else some ([],l)

-- a context that could not be loaded is freed at once
def initializeTls (loaded : Bool) : Option (List LifeEvent × Life) :=
  if l.caller ≠ .initializing then none
  else if ports .rtsps ≤ 0 then some ([],{ l with caller := .opening .rtsp })
  else if loaded then
    some ([],{ l with tlsContext := some l.created, created := l.created + 1, caller := .opening .rtsp })
  else some ([.tlsFailed],{ l with tlsContext := none, caller := .idle })

def openListener (fd : Option Nat) : Option (List LifeEvent × Life) :=
  match l.caller with
  | .opening t =>
      if ports t ≤ 0 then some ([],{ l with caller := .afterOpening t })
      else
        match fd with
        | none => some ([],{ l with caller := .closing .rtsp true })
        | some fd =>
            if l.files fd ≠ none then none
            else
              some ([],{ l with
                files := Function.update l.files fd (some .listening)
                listenerFd := Function.update l.listenerFd t (some fd)
                caller := .afterOpening t })
  | _ => none

def callerStep : Option (List LifeEvent × Life) :=
  match l.caller with
  | .spawning t =>
      let spawned := if l.listenerFd t = none then l else l.setLoop t (some {})
      some ([],{ spawned with caller := .afterSpawning t })
  | .closing t failed =>
      match l.listenerFd t with
      | none => some ([],{ l with caller := .afterClosing failed t })
      | some fd =>
          let (events,closed) := l.close fd
          some (events,{ closed with caller := .clearing t failed })
  | .clearing t failed =>
      some ([],{ l with listenerFd := Function.update l.listenerFd t none, caller := .afterClosing failed t })
  | .unwinding => some ([.listenFailed],{ l with started := false, caller := .idle }.synced)
  | .joining t =>
      match l.loops t with
      | none => some ([],{ l with caller := .afterJoining t })
      | some loop =>
          if loop.point = .exited then some ([],{ l.setLoop t none with caller := .afterJoining t }) else none
  | .swapping => some ([],{ l with sessionThreads := [], caller := .joiningSessions l.sessionThreads })
  | .joiningSessions [] => some ([],{ l with caller := .freeing })
  | .joiningSessions (client :: rest) =>
      if l.server.expired client then some ([],{ l with caller := .joiningSessions rest }) else none
  | .freeing =>
      match l.tlsContext with
      | none => some ([.stopped],{ l with caller := .idle })
      | some context =>
          some ([.stopped],{ l with freed := context :: l.freed, tlsContext := none, caller := .idle })
  | _ => none

-- select and accept may meet a number that stop has closed and the process has opened again
def loopStep (t : Transport) (loop : AcceptLoop) : LoopAction → Option (List LifeEvent × Life)
  | .advance =>
      match loop.point with
      | .beginning =>
          some ([],l.setLoop t (some
            { point := .testing
              listenerFd := l.listenerFd t
              context := if t = .rtsps then l.tlsContext else none }))
      | .testing =>
          some ([],l.setLoop t (some
            { loop with point := if l.running && l.started then .selecting else .exited }))
      | _ => none
  | .select ready =>
      match loop.point with
      | .selecting =>
          match loop.listenerFd with
          | none => some ([.fault .setOfNoDescriptor],l.setLoop t (some { loop with point := .testing }))
          | some fd =>
              let found := ready && (l.files fd).isSome
              some ([],l.setLoop t (some { loop with point := if found then .accepting else .testing }))
      | _ => none
  | .accept client =>
      match loop.point with
      | .accepting =>
          match client with
          | none => some ([],l.setLoop t (some { loop with point := .testing }))
          | some client =>
              if loop.listenerFd.bind l.files = some .listening ∧ l.files client = none then
                some ([],{ l.setLoop t (some { loop with point := .holding client }) with
                  files := Function.update l.files client (some .stream) })
              else none
      | _ => none
  | .spawn sequence ssrc timestampOrigin =>
      match loop.point with
      | .holding client =>
          (l.server.step config (.accept sequence ssrc timestampOrigin)).map fun (_,server) =>
            ([],{ l.setLoop t (some { loop with point := .testing }) with
              server := server
              connections := l.connections ++ [⟨client,loop.context⟩]
              sessionThreads := l.sessionThreads ++ [l.server.sessions.length] })
      | _ => none

-- the connection of a session is made with the context that the accept loop has passed on
def usesContext (x : Session) (connection : Connection) : List LifeEvent :=
  match connection.context with
  | none => []
  | some context =>
      if x.point = .connecting ∧ l.liveContext context = false then [.fault (.contextUsedAfterFree context)] else []

-- its descriptor is closed by the destructor, or by the catch block if it was never established
def leaves (x y : Session) (connection : Connection) : List LifeEvent × Life :=
  if y.hungUp && !x.hungUp then l.close connection.fd else ([],l)

def sessionThread (client : Nat) (action : SessionAction) : Option (List LifeEvent × Life) :=
  match l.server.sessions[client]?,l.connections[client]? with
  | some x,some connection =>
      (l.server.step config (.session client action)).bind fun (_,server) =>
        server.sessions[client]?.map fun y =>
          let (closed,after) := l.leaves x y connection
          (l.usesContext x connection ++ closed,{ after with server := server })
  | _,_ => none

def step : LifeAction → Option (List LifeEvent × Life)
  | .start => l.start
  | .stop => l.stop
  | .loadTls loaded => l.initializeTls ports loaded
  | .listen fd => l.openListener ports fd
  | .caller => l.callerStep
  | .loop t action => (l.loops t).bind fun loop => l.loopStep config t loop action
  | .session client action => l.sessionThread config client action
  | .onFrame view => (l.server.step config (.onFrame view)).map fun (_,server) => ([],{ l with server := server })
  | .frameCall ch => (l.server.step config (.frameCall ch)).map fun (_,server) => ([],{ l with server := server })
  | .signal => some ([],{ l with running := false }.synced)

end Life

inductive LifeMove (config : LiveRtspServerConfig) (ports : Transport → Int) (l : Life) :
    LifeAction → List LifeEvent → Life → Prop
  | startedAlready : l.caller = .idle → l.started = true → LifeMove config ports l .start [] l
  | starts : l.caller = .idle → l.started = false →
      LifeMove config ports l .start [] { l with started := true, caller := .initializing }.synced
  | stoppedAlready : l.caller = .idle → l.started = false → LifeMove config ports l .stop [] l
  | stops : l.caller = .idle → l.started = true →
      LifeMove config ports l .stop [] { l with started := false, caller := .closing .rtsp false }.synced
  | needsNoTls {loaded : Bool} : l.caller = .initializing → ports .rtsps ≤ 0 →
      LifeMove config ports l (.loadTls loaded) [] { l with caller := .opening .rtsp }
  | loads : l.caller = .initializing → 0 < ports .rtsps →
      LifeMove config ports l (.loadTls true) []
        { l with tlsContext := some l.created, created := l.created + 1, caller := .opening .rtsp }
  | loadFails : l.caller = .initializing → 0 < ports .rtsps →
      LifeMove config ports l (.loadTls false) [.tlsFailed] { l with tlsContext := none, caller := .idle }
  | needsNoPort {t : Transport} {fd : Option Nat} : l.caller = .opening t → ports t ≤ 0 →
      LifeMove config ports l (.listen fd) [] { l with caller := .afterOpening t }
  | opens {t : Transport} {fd : Nat} : l.caller = .opening t → 0 < ports t → l.files fd = none →
      LifeMove config ports l (.listen (some fd)) []
        { l with
          files := Function.update l.files fd (some .listening)
          listenerFd := Function.update l.listenerFd t (some fd)
          caller := .afterOpening t }
  | openFails {t : Transport} : l.caller = .opening t → 0 < ports t →
      LifeMove config ports l (.listen none) [] { l with caller := .closing .rtsp true }
  | spawnsLoop {t : Transport} {fd : Nat} : l.caller = .spawning t → l.listenerFd t = some fd →
      LifeMove config ports l .caller [] { l.setLoop t (some {}) with caller := .afterSpawning t }
  | spawnsNone {t : Transport} : l.caller = .spawning t → l.listenerFd t = none →
      LifeMove config ports l .caller [] { l with caller := .afterSpawning t }
  | closes {t : Transport} {failed : Bool} {fd : Nat} : l.caller = .closing t failed → l.listenerFd t = some fd →
      LifeMove config ports l .caller (l.close fd).1 { (l.close fd).2 with caller := .clearing t failed }
  | closesNone {t : Transport} {failed : Bool} : l.caller = .closing t failed → l.listenerFd t = none →
      LifeMove config ports l .caller [] { l with caller := .afterClosing failed t }
  | clears {t : Transport} {failed : Bool} : l.caller = .clearing t failed →
      LifeMove config ports l .caller []
        { l with listenerFd := Function.update l.listenerFd t none, caller := .afterClosing failed t }
  | unwinds : l.caller = .unwinding →
      LifeMove config ports l .caller [.listenFailed] { l with started := false, caller := .idle }.synced
  | joins {t : Transport} {loop : AcceptLoop} : l.caller = .joining t → l.loops t = some loop → loop.point = .exited →
      LifeMove config ports l .caller [] { l.setLoop t none with caller := .afterJoining t }
  | joinsNone {t : Transport} : l.caller = .joining t → l.loops t = none →
      LifeMove config ports l .caller [] { l with caller := .afterJoining t }
  | swaps : l.caller = .swapping →
      LifeMove config ports l .caller [] { l with sessionThreads := [], caller := .joiningSessions l.sessionThreads }
  | joinsSession {c : Nat} {rest : List Nat} : l.caller = .joiningSessions (c :: rest) → l.server.expired c = true →
      LifeMove config ports l .caller [] { l with caller := .joiningSessions rest }
  | joinedAll : l.caller = .joiningSessions [] → LifeMove config ports l .caller [] { l with caller := .freeing }
  | frees {context : Nat} : l.caller = .freeing → l.tlsContext = some context →
      LifeMove config ports l .caller [.stopped]
        { l with freed := context :: l.freed, tlsContext := none, caller := .idle }
  | freesNone : l.caller = .freeing → l.tlsContext = none →
      LifeMove config ports l .caller [.stopped] { l with caller := .idle }
  | begins {t : Transport} {loop : AcceptLoop} : l.loops t = some loop → loop.point = .beginning →
      LifeMove config ports l (.loop t .advance) []
        (l.setLoop t (some
          { point := .testing, listenerFd := l.listenerFd t, context := if t = .rtsps then l.tlsContext else none }))
  | tests {t : Transport} {loop : AcceptLoop} : l.loops t = some loop → loop.point = .testing →
      LifeMove config ports l (.loop t .advance) []
        (l.setLoop t (some { loop with point := if l.running && l.started then .selecting else .exited }))
  | selectsNone {t : Transport} {loop : AcceptLoop} {ready : Bool} : l.loops t = some loop → loop.point = .selecting →
      loop.listenerFd = none →
      LifeMove config ports l (.loop t (.select ready)) [.fault .setOfNoDescriptor]
        (l.setLoop t (some { loop with point := .testing }))
  | selects {t : Transport} {loop : AcceptLoop} {ready : Bool} {fd : Nat} : l.loops t = some loop →
      loop.point = .selecting → loop.listenerFd = some fd →
      LifeMove config ports l (.loop t (.select ready)) []
        (l.setLoop t (some
          { loop with point := if ready && (l.files fd).isSome then .accepting else .testing }))
  | acceptsNone {t : Transport} {loop : AcceptLoop} : l.loops t = some loop → loop.point = .accepting →
      LifeMove config ports l (.loop t (.accept none)) [] (l.setLoop t (some { loop with point := .testing }))
  | accepts {t : Transport} {loop : AcceptLoop} {client : Nat} : l.loops t = some loop → loop.point = .accepting →
      loop.listenerFd.bind l.files = some .listening → l.files client = none →
      LifeMove config ports l (.loop t (.accept (some client))) []
        { l.setLoop t (some { loop with point := .holding client }) with
          files := Function.update l.files client (some .stream) }
  | spawnsSession {t : Transport} {loop : AcceptLoop} {client : Nat} {sequence : UInt16} {ssrc timestampOrigin : UInt32}
      {ev : List ServerEvent} {server : Server} : l.loops t = some loop → loop.point = .holding client →
      l.server.step config (.accept sequence ssrc timestampOrigin) = some (ev,server) →
      LifeMove config ports l (.loop t (.spawn sequence ssrc timestampOrigin)) []
        { l.setLoop t (some { loop with point := .testing }) with
          server := server
          connections := l.connections ++ [⟨client,loop.context⟩]
          sessionThreads := l.sessionThreads ++ [l.server.sessions.length] }
  | session {c : Nat} {action : SessionAction} {x y : Session} {connection : Connection} {ev : List ServerEvent}
      {server : Server} : l.server.sessions[c]? = some x → l.connections[c]? = some connection →
      l.server.step config (.session c action) = some (ev,server) → server.sessions[c]? = some y →
      LifeMove config ports l (.session c action) (l.usesContext x connection ++ (l.leaves x y connection).1)
        { (l.leaves x y connection).2 with server := server }
  | frame {a : ServerAction} {action : LifeAction} {ev : List ServerEvent} {server : Server} :
      (∃ view, a = .onFrame view ∧ action = .onFrame view) ∨ (∃ ch, a = .frameCall ch ∧ action = .frameCall ch) →
      l.server.step config a = some (ev,server) → LifeMove config ports l action [] { l with server := server }
  | signal : LifeMove config ports l .signal [] { l with running := false }.synced

section

variable {config : LiveRtspServerConfig} {ports : Transport → Int} {l l' : Life} {ev : List LifeEvent}

theorem lifeCaller_move (hs : l.callerStep = some (ev,l')) : LifeMove config ports l .caller ev l' := by
  unfold Life.callerStep at hs
  split at hs
  · rename_i t hcaller
    cases hfd : l.listenerFd t with
    | none =>
      simp only [hfd,if_true] at hs
      cases hs
      exact .spawnsNone hcaller hfd
    | some fd =>
      simp only [hfd,reduceCtorEq,if_false] at hs
      cases hs
      exact .spawnsLoop hcaller hfd
  · rename_i t failed hcaller
    split at hs <;> cases hs
    · exact .closesNone hcaller (by assumption)
    · exact .closes hcaller (by assumption)
  · cases hs
    exact .clears (by assumption)
  · cases hs
    exact .unwinds (by assumption)
  · rename_i t hcaller
    split at hs
    · cases hs
      exact .joinsNone hcaller (by assumption)
    · split at hs <;> cases hs
      exact .joins hcaller (by assumption) (by assumption)
  · cases hs
    exact .swaps (by assumption)
  · cases hs
    exact .joinedAll (by assumption)
  · rename_i client rest hcaller
    split at hs <;> cases hs
    exact .joinsSession hcaller (by assumption)
  · rename_i hcaller
    split at hs <;> cases hs
    · exact .freesNone hcaller (by assumption)
    · exact .frees hcaller (by assumption)
  · cases hs

theorem acceptLoop_move {t : Transport} {loop : AcceptLoop} {a : LoopAction} (hl : l.loops t = some loop)
    (hs : l.loopStep config t loop a = some (ev,l')) : LifeMove config ports l (.loop t a) ev l' := by
  cases a with
  | advance =>
    simp only [Life.loopStep] at hs
    split at hs <;> cases hs
    · exact .begins hl (by assumption)
    · exact .tests hl (by assumption)
  | select ready =>
    simp only [Life.loopStep] at hs
    split at hs
    · split at hs <;> cases hs
      · exact .selectsNone hl (by assumption) (by assumption)
      · exact .selects hl (by assumption) (by assumption)
    · cases hs
  | accept client =>
    simp only [Life.loopStep] at hs
    split at hs
    · split at hs
      · cases hs
        exact .acceptsNone hl (by assumption)
      · split at hs <;> cases hs
        rename_i hfiles
        exact .accepts hl (by assumption) hfiles.1 hfiles.2
    · cases hs
  | spawn sequence ssrc timestampOrigin =>
    simp only [Life.loopStep] at hs
    split at hs
    · obtain ⟨r,hstep,he⟩ := Option.map_eq_some_iff.mp hs
      cases he
      exact .spawnsSession hl (by assumption) hstep
    · cases hs

theorem sessionThread_move {c : Nat} {a : SessionAction} (hs : l.sessionThread config c a = some (ev,l')) :
    LifeMove config ports l (.session c a) ev l' := by
  unfold Life.sessionThread at hs
  split at hs
  · obtain ⟨r,hstep,hs⟩ := Option.bind_eq_some_iff.mp hs
    obtain ⟨y,hy,he⟩ := Option.map_eq_some_iff.mp hs
    cases he
    exact .session (by assumption) (by assumption) hstep hy
  · cases hs

theorem life_move {a : LifeAction} (hs : l.step config ports a = some (ev,l')) : LifeMove config ports l a ev l' := by
  cases a with
  | start =>
    simp only [Life.step,Life.start] at hs
    split at hs
    · cases hs
    · rename_i hidle
      have hidle' : l.caller = .idle := by simpa using hidle
      split at hs <;> cases hs
      · exact .startedAlready hidle' (by assumption)
      · exact .starts hidle' (by simpa using ‹¬l.started = true›)
  | stop =>
    simp only [Life.step,Life.stop] at hs
    split at hs
    · cases hs
    · rename_i hidle
      have hidle' : l.caller = .idle := by simpa using hidle
      split at hs <;> cases hs
      · exact .stops hidle' (by assumption)
      · exact .stoppedAlready hidle' (by simpa using ‹¬l.started = true›)
  | loadTls loaded =>
    simp only [Life.step,Life.initializeTls] at hs
    split at hs
    · cases hs
    · rename_i hinit
      have hinit' : l.caller = .initializing := by simpa using hinit
      split at hs
      · cases hs
        exact .needsNoTls hinit' (by assumption)
      · rename_i hport
        split at hs <;> cases hs
        · rename_i hloaded
          rw [hloaded]
          exact .loads hinit' (by omega)
        · rename_i hloaded
          rw [Bool.eq_false_of_not_eq_true hloaded]
          exact .loadFails hinit' (by omega)
  | listen fd =>
    simp only [Life.step,Life.openListener] at hs
    split at hs
    · rename_i t hopening
      split at hs
      · cases hs
        exact .needsNoPort hopening (by assumption)
      · rename_i hport
        split at hs
        · cases hs
          exact .openFails hopening (by omega)
        · split at hs <;> cases hs
          exact .opens hopening (by omega) (by simpa using ‹¬l.files _ ≠ none›)
    · cases hs
  | caller => exact lifeCaller_move hs
  | loop t action =>
    obtain ⟨loop,hl,hs⟩ := Option.bind_eq_some_iff.mp hs
    exact acceptLoop_move hl hs
  | session c action => exact sessionThread_move hs
  | onFrame view =>
    obtain ⟨r,hstep,he⟩ := Option.map_eq_some_iff.mp hs
    cases he
    exact .frame (.inl ⟨view,rfl,rfl⟩) hstep
  | frameCall ch =>
    obtain ⟨r,hstep,he⟩ := Option.map_eq_some_iff.mp hs
    cases he
    exact .frame (.inr ⟨ch,rfl,rfl⟩) hstep
  | signal =>
    cases hs
    exact .signal

end

def lifeRun (config : LiveRtspServerConfig) (ports : Transport → Int) (actions : List LifeAction) :
    List LifeEvent × Life :=
  run (Life.step config ports) ([],{}) actions

end RpiVms

import RpiVms.Live.Descriptors

namespace RpiVms

open Runs

def Session.toFinish (x : Session) : Nat :=
  match x.point with
  | .finished => 0
  | .recording => 1
  | .deactivating => 2
  | .closing => 3
  | .halting => 4
  | .disconnecting => 5
  | .polling => 6
  | .sending _ => 7
  | .popping => 8
  | .checking => 9
  | .parsing => 3 * x.input.length + 10
  | .storingPlaying _ => 3 * x.input.length + 11
  | .storingChannel _ => 3 * x.input.length + 12
  | .creating => 7
  | .activating => 8
  | .registering => 9
  | .connecting => 10

section

variable {config : LiveRtspServerConfig} {sets : Int → ParameterSets} {x y : Session} {events : List SessionEvent}

theorem extract_shortens {limits : ParserLimits} {buffer m rest : Bytes}
    (h : extractOneRtspMessage limits buffer = some (.unit m rest)) : rest.length < buffer.length := by
  obtain ⟨dropped,rfl⟩ := extract_conserves h
  have hpos : 0 < m.length := by
    rcases extract_isUnit h with ⟨channel,hi,lo,payload,rfl,-⟩ | ⟨header,body,rfl,hm⟩
    · simp
    · have := hm.long
      simp only [List.length_append]
      omega
  simp only [List.length_append]
  omega

theorem extract_nearer {drawn : SessionId} {writeOk : Bool} (hp : x.point = .parsing)
    (hs : extractStep config sets x drawn writeOk = some (events,y)) : y.toFinish < x.toFinish := by
  unfold extractStep at hs
  split at hs
  · cases hs
  · cases hs
    simp only [Session.toFinish,hp]
    omega
  · rename_i unit rest hunit
    have hless := extract_shortens hunit
    split at hs
    · cases hs
      simp only [Session.toFinish,hp]
      omega
    · simp only [requestStep] at hs
      obtain ⟨-,rfl⟩ := Prod.mk.inj (Option.some.inj hs)
      split
      · simp only [Session.toFinish,hp]
        omega
      · split
        · simp only [Session.toFinish,Session.goto,hp]
          omega
        · unfold Session.afterReply
          split
          · simp only [Session.toFinish,hp]
            omega
          · simp only [Session.toFinish,Session.goto,hp]
            omega

theorem sendStep_point (config : LiveRtspServerConfig) (sets : Int → ParameterSets) (x : Session) (f : LiveFrame)
    (writeOk : Nat → Bool) (now wall : Int) :
    (sendStep config sets x f writeOk now wall).2.point = .polling ∨
      (sendStep config sets x f writeOk now wall).2.point = .disconnecting := by
  simp only [sendStep]
  split <;> simp

theorem session_nearer {action : SessionAction} (hs : sessionStep config false sets x action = some (events,y)) :
    y.toFinish < x.toFinish := by
  cases hp : x.point with
  | connecting =>
    cases action <;> simp only [sessionStep,hp] at hs <;> cases hs
    rename_i established
    cases established <;> simp [Session.toFinish,Session.goto,hp]
  | polling =>
    cases action <;> simp only [sessionStep,hp,pollStep,Bool.and_false] at hs <;> cases hs
    simp [Session.toFinish,Session.goto,hp]
  | parsing =>
    cases action <;> simp only [sessionStep,hp] at hs <;> try cases hs
    exact extract_nearer hp hs
  | storingPlaying closeSession =>
    cases action <;> simp only [sessionStep,hp] at hs <;> cases hs
    cases closeSession <;> simp [Session.toFinish,Session.afterReply,Session.goto,hp]
  | checking =>
    cases action <;> simp only [sessionStep,hp,checkStep] at hs <;> try cases hs
    split at hs <;> cases hs <;> simp [Session.toFinish,Session.goto,hp]
  | popping =>
    cases action <;> simp only [sessionStep,hp] at hs <;> cases hs
    unfold popStep
    split
    · split <;> simp [Session.toFinish,hp]
    · simp [Session.toFinish,Session.goto,hp]
  | sending f =>
    cases action with
    | send writeOk now wall =>
      have hpoint := sendStep_point config sets x f writeOk now wall
      simp only [sessionStep,hp,Option.some.injEq] at hs
      rw [hs] at hpoint
      rcases hpoint with hy | hy <;> simp [Session.toFinish,hp,show y.point = _ from hy]
    | connect | poll | extract | advance =>
      simp only [sessionStep,hp] at hs
      cases hs
  | closing =>
    cases action <;> simp only [sessionStep,hp] at hs <;> cases hs
    cases hc : x.counted <;> simp [Session.toFinish,hp]
  | registering | activating | creating | storingChannel closeSession | disconnecting | halting | deactivating
  | recording =>
    cases action <;> simp only [sessionStep,hp] at hs <;> cases hs
    simp [Session.toFinish,Session.goto,hp]
  | finished => exact absurd hp (finished_no_step hs)

end

def LoopPoint.toExit : LoopPoint → Nat
  | .exited => 0
  | .testing => 1
  | .beginning => 2
  | .holding _ => 13
  | .accepting => 14
  | .selecting => 15

def AcceptLoop.toExit (loop : Option AcceptLoop) : Nat := (loop.map (·.point.toExit)).getD 0

def CallerPoint.toIdle : CallerPoint → Nat
  | .closing .rtsp _ => 10
  | .clearing .rtsp _ => 9
  | .closing .rtsps _ => 8
  | .clearing .rtsps _ => 7
  | .joining .rtsp => 6
  | .joining .rtsps => 5
  | .swapping => 4
  | .joiningSessions rest => rest.length + 3
  | .freeing => 1
  | _ => 0

def Life.toReturn (l : Life) : Nat :=
  l.caller.toIdle + l.sessionThreads.length + (AcceptLoop.toExit (l.loops .rtsp) + AcceptLoop.toExit (l.loops .rtsps)) +
    (l.server.sessions.map (·.toFinish)).sum

def LifeAction.awaited : LifeAction → Bool
  | .caller | .loop _ _ | .session _ _ => true
  | _ => false

section

variable {config : LiveRtspServerConfig} {ports : Transport → Int} {l l' : Life} {a : LifeAction} {ev : List LifeEvent}
  {t : Transport} {loop : AcceptLoop}

theorem toReturn_setLoop (hl : l.loops t = some loop) (next : AcceptLoop) :
    (l.setLoop t (some next)).toReturn + loop.point.toExit = l.toReturn + next.point.toExit := by
  cases t <;> simp [Life.toReturn,Life.setLoop,AcceptLoop.toExit,hl] <;> omega

theorem loop_nearer (hl : l.loops t = some loop) {next : AcceptLoop} (h : next.point.toExit < loop.point.toExit) :
    (l.setLoop t (some next)).toReturn + 1 ≤ l.toReturn := by
  have := toReturn_setLoop hl next
  omega

theorem sum_set (xs : List Session) {c : Nat} {x y : Session} (hx : xs[c]? = some x) (h : y.toFinish < x.toFinish) :
    ((xs.set c y).map (·.toFinish)).sum + 1 ≤ (xs.map (·.toFinish)).sum := by
  induction xs generalizing c with
  | nil => simp at hx
  | cons z zs ih =>
    cases c with
    | zero =>
      obtain rfl : z = x := by simpa using hx
      simp only [List.set_cons_zero,List.map_cons,List.sum_cons]
      omega
    | succ c =>
      have := ih (by simpa using hx)
      simp only [List.set_cons_succ,List.map_cons,List.sum_cons]
      omega

theorem frames_sum {s t : Server} (hlen : t.sessions.length = s.sessions.length)
    (hback : ∀ (c : Nat) (y : Session), t.sessions[c]? = some y →
      ∃ (x : Session) (queue : BoundedFrameQueue), s.sessions[c]? = some x ∧ y = { x with queue := queue }) :
    t.sessions.map (·.toFinish) = s.sessions.map (·.toFinish) := by
  refine List.ext_getElem? fun c => ?_
  rw [List.getElem?_map,List.getElem?_map]
  cases hy : t.sessions[c]? with
  | none =>
    have hout : s.sessions[c]? = none := by
      rw [List.getElem?_eq_none_iff] at hy ⊢
      omega
    rw [hout]
  | some y =>
    obtain ⟨x,queue,hx,rfl⟩ := hback c y hy
    rw [hx]
    rfl

theorem caller_nearer (hloops : ∀ t, AcceptLoop.toExit (l'.loops t) = AcceptLoop.toExit (l.loops t))
    (hsessions : l'.server.sessions = l.server.sessions)
    (h : l'.caller.toIdle + l'.sessionThreads.length + 1 ≤ l.caller.toIdle + l.sessionThreads.length) :
    l'.toReturn + 1 ≤ l.toReturn := by
  simp only [Life.toReturn,hloops,hsessions]
  omega

theorem stop_nearer (hs : Sound l) (hstop : l.caller.stops = true) (hm : LifeMove config ports l a ev l') :
    l'.caller = .idle ∨ l'.caller.stops = true ∧ l'.toReturn + (if a.awaited then 1 else 0) ≤ l.toReturn := by
  have hst := hs.controlled.stops hstop
  cases hm with
  | startedAlready hcaller _ | starts hcaller _ | stoppedAlready hcaller _ | stops hcaller _ | needsNoTls hcaller _
  | loads hcaller _ | loadFails hcaller _ | needsNoPort hcaller _ | opens hcaller _ _ | openFails hcaller _
  | spawnsLoop hcaller _ | spawnsNone hcaller _ | unwinds hcaller => simp [hcaller] at hstop
  | frees | freesNone => exact .inl rfl
  | @closes t failed fd hcaller _ | @closesNone t failed hcaller _ | @clears t failed hcaller =>
    obtain rfl : failed = false := by cases failed <;> simp_all
    refine .inr ⟨by cases t <;> rfl,caller_nearer (fun _ => rfl) rfl ?_⟩
    rw [hcaller]
    cases t <;> simp only [CallerPoint.toIdle,CallerPoint.afterClosing,Life.close,Bool.false_eq_true,if_false] <;> omega
  | @joins t loop hcaller hl hp =>
    refine .inr ⟨by cases t <;> rfl,caller_nearer (fun t' => ?_) rfl ?_⟩
    · by_cases he : t' = t
      · subst he
        simp [Life.setLoop,AcceptLoop.toExit,hl,hp,LoopPoint.toExit]
      · simp [Life.setLoop,he]
    · rw [hcaller]
      cases t <;> simp only [CallerPoint.toIdle,CallerPoint.afterJoining,Life.setLoop] <;> omega
  | @joinsNone t hcaller hl =>
    refine .inr ⟨by cases t <;> rfl,caller_nearer (fun _ => rfl) rfl ?_⟩
    rw [hcaller]
    cases t <;> simp only [CallerPoint.toIdle,CallerPoint.afterJoining] <;> omega
  | swaps hcaller | joinsSession hcaller _ | joinedAll hcaller =>
    refine .inr ⟨rfl,caller_nearer (fun _ => rfl) rfl ?_⟩
    rw [hcaller]
    simp only [CallerPoint.toIdle,List.length_nil,List.length_cons]
    omega
  | begins hl hp | selectsNone hl hp _ | acceptsNone hl hp | accepts hl hp _ _ =>
    exact .inr ⟨hstop,loop_nearer hl (by simp [hp,LoopPoint.toExit])⟩
  | tests hl hp => exact .inr ⟨hstop,loop_nearer hl (by simp [hp,hst,LoopPoint.toExit])⟩
  | @selects t loop ready fd hl hp _ =>
    exact .inr ⟨hstop,loop_nearer hl (by cases ready && (l.files fd).isSome <;> simp [hp,LoopPoint.toExit])⟩
  | @spawnsSession t loop client sequence ssrc timestampOrigin _ server hl hp hstep =>
    refine .inr ⟨hstop,?_⟩
    have hmoved := toReturn_setLoop hl { loop with point := .testing }
    have hnew : (newSession config sequence ssrc timestampOrigin).toFinish = 10 := rfl
    simp only [Life.toReturn,Life.setLoop,accept_sessions hstep,hp,LoopPoint.toExit,List.map_append,List.sum_append,
      List.length_append,List.map_cons,List.map_nil,List.sum_cons,List.sum_nil,List.length_cons,List.length_nil,hnew,
      LifeAction.awaited,if_true] at hmoved ⊢
    omega
  | @session c action x y connection _ server hx hconn hstep hy =>
    obtain ⟨x',y',events,hx',hsession,hsessions⟩ := session_sessions hstep
    rw [hs.controlled.synced,hst,Bool.and_false] at hsession
    have hless := sum_set l.server.sessions hx' (session_nearer hsession)
    have hkept : ∀ files, ({ l with files := files, server := server } : Life).toReturn + 1 ≤ l.toReturn := by
      intro files
      simp only [Life.toReturn,hsessions]
      omega
    unfold Life.leaves
    split
    · exact .inr ⟨hstop,hkept _⟩
    · exact .inr ⟨hstop,hkept l.files⟩
  | @frame call _ _ server haction hstep =>
    obtain ⟨hlen,hback⟩ := frame_sessions hstep (frame_action haction)
    have hother : a.awaited = false := by rcases haction with ⟨_,-,rfl⟩ | ⟨_,-,rfl⟩ <;> rfl
    refine .inr ⟨hstop,?_⟩
    simp only [Life.toReturn,frames_sum hlen hback,hother,Bool.false_eq_true,if_false]
    exact le_refl _
  | signal => exact .inr ⟨hstop,le_refl _⟩

def Session.blocked (config : LiveRtspServerConfig) (s : Server) (x : Session) : Prop :=
  x.point = .parsing ∧ extractOneRtspMessage config.limits x.input = none ∨
    x.point = .registering ∧ s.clientsMutex ≠ none

theorem session_goes_on {s : Server} {c : Nat} {x : Session} (hx : s.sessions[c]? = some x) (hp : x.point ≠ .finished)
    (hfree : ¬ x.blocked config s) : ∃ action, s.step config (.session c action) ≠ none := by
  have hmutex : ¬ (x.point = .registering ∧ s.clientsMutex ≠ none) := fun hb => hfree (.inr hb)
  have henabled : ∀ action, sessionStep config s.running s.parameterSets x action ≠ none →
      ∃ action, s.step config (.session c action) ≠ none := by
    intro action hstep
    refine ⟨action,?_⟩
    simp only [Server.step,Server.stepSession,hx,if_neg hmutex]
    simpa using hstep
  cases hpoint : x.point with
  | connecting => exact henabled (.connect true) (by simp [sessionStep,hpoint])
  | polling => exact henabled (.poll none) (by simp [sessionStep,hpoint])
  | parsing =>
    refine henabled (.extract (randomSessionId 0 0) true) ?_
    simp only [sessionStep,hpoint,extractStep]
    split
    · rename_i hnone
      exact absurd (.inl ⟨hpoint,hnone⟩) hfree
    · simp
    · split <;> simp
  | sending f => exact henabled (.send (fun _ => true) 0 0) (by simp [sessionStep,hpoint])
  | finished => exact absurd hpoint hp
  | registering | activating | creating | storingChannel | storingPlaying | checking | popping | disconnecting | halting
  | closing | deactivating | recording => exact henabled .advance (by simp [sessionStep,hpoint])

theorem loop_goes_on (hl : l.loops t = some loop) (hp : loop.point ≠ .exited)
    (hqueue : config.clientQueueFrames ≠ 0 ∧ config.clientQueueBytes ≠ 0) :
    ∃ action, l.step config ports (.loop t action) ≠ none := by
  cases hpoint : loop.point with
  | beginning => exact ⟨.advance,by simp [Life.step,hl,Life.loopStep,hpoint]⟩
  | testing => exact ⟨.advance,by simp [Life.step,hl,Life.loopStep,hpoint]⟩
  | selecting =>
    refine ⟨.select false,?_⟩
    cases hfd : loop.listenerFd <;> simp [Life.step,hl,Life.loopStep,hpoint,hfd]
  | accepting => exact ⟨.accept none,by simp [Life.step,hl,Life.loopStep,hpoint]⟩
  | holding client =>
    refine ⟨.spawn 0 0 0,?_⟩
    simp [Life.step,hl,Life.loopStep,hpoint,Server.step,Server.accept,hqueue]
  | exited => exact absurd hpoint hp

theorem thread_goes_on (hs : Sound l) {c : Nat} {action : SessionAction}
    (hstep : l.server.step config (.session c action) ≠ none) : l.step config ports (.session c action) ≠ none := by
  obtain ⟨⟨ev,server⟩,hserver⟩ := Option.ne_none_iff_exists'.mp hstep
  obtain ⟨x,y,events,hx,-,hsessions⟩ := session_sessions hserver
  have hlt : c < l.server.sessions.length := (List.getElem?_eq_some_iff.mp hx).1
  have hy : server.sessions[c]? = some y := by rw [hsessions,List.getElem?_set_self hlt]
  obtain ⟨connection,hconn⟩ : ∃ connection, l.connections[c]? = some connection :=
    ⟨_,List.getElem?_eq_getElem (by rw [hs.accounted.paired]; exact hlt)⟩
  simp [Life.step,Life.sessionThread,hx,hconn,hserver,hy]

theorem stop_goes_on (hs : Sound l) (hstop : l.caller.stops = true)
    (hqueue : config.clientQueueFrames ≠ 0 ∧ config.clientQueueBytes ≠ 0) :
    (∃ a, a.awaited = true ∧ l.step config ports a ≠ none) ∨
      ∃ x ∈ l.server.sessions, x.blocked config l.server := by
  cases hcaller : l.caller with
  | idle | initializing | opening | spawning | unwinding => simp [hcaller] at hstop
  | closing t failed =>
    refine .inl ⟨.caller,rfl,?_⟩
    cases hfd : l.listenerFd t <;> simp [Life.step,Life.callerStep,hcaller,hfd]
  | clearing | swapping => exact .inl ⟨.caller,rfl,by simp [Life.step,Life.callerStep,hcaller]⟩
  | freeing =>
    refine .inl ⟨.caller,rfl,?_⟩
    cases htls : l.tlsContext <;> simp [Life.step,Life.callerStep,hcaller,htls]
  | joining t =>
    cases hl : l.loops t with
    | none => exact .inl ⟨.caller,rfl,by simp [Life.step,Life.callerStep,hcaller,hl]⟩
    | some loop =>
      by_cases hp : loop.point = .exited
      · exact .inl ⟨.caller,rfl,by simp [Life.step,Life.callerStep,hcaller,hl,hp]⟩
      · obtain ⟨action,haction⟩ := @loop_goes_on config ports l t loop hl hp hqueue
        exact .inl ⟨.loop t action,rfl,haction⟩
  | joiningSessions rest =>
    cases rest with
    | nil => exact .inl ⟨.caller,rfl,by simp [Life.step,Life.callerStep,hcaller]⟩
    | cons c rest =>
      by_cases hexp : l.server.expired c = true
      · exact .inl ⟨.caller,rfl,by simp [Life.step,Life.callerStep,hcaller,hexp]⟩
      · cases hx : l.server.sessions[c]? with
        | none => simp [Server.expired,hx] at hexp
        | some x =>
          by_cases hblocked : x.blocked config l.server
          · exact .inr ⟨x,List.mem_of_getElem? hx,hblocked⟩
          · have hp : x.point ≠ .finished := by simpa [Server.expired,hx] using hexp
            obtain ⟨action,haction⟩ := session_goes_on hx hp hblocked
            exact .inl ⟨.session c action,rfl,thread_goes_on hs haction⟩

theorem stop_returns (actions : List LifeAction) (hstop : (lifeRun config ports actions).2.caller.stops = true)
    (hqueue : config.clientQueueFrames ≠ 0 ∧ config.clientQueueBytes ≠ 0) :
    ((∃ a, a.awaited = true ∧ (lifeRun config ports actions).2.step config ports a ≠ none) ∨
      ∃ x ∈ (lifeRun config ports actions).2.server.sessions, x.blocked config (lifeRun config ports actions).2.server) ∧
    ∀ more, (lifeRun config ports actions).2.toReturn <
        taken (Life.step config ports) LifeAction.awaited (lifeRun config ports actions).2 more →
      ∃ pre post, more = pre ++ post ∧ (lifeRun config ports (actions ++ pre)).2.caller = .idle := by
  obtain ⟨hs,-⟩ := lifeRun_sound config ports actions
  refine ⟨stop_goes_on hs hstop hqueue,fun more hmore => ?_⟩
  obtain ⟨pre,post,hsplit,hidle⟩ := @reaches_by_rank _ _ _ (Life.step config ports)
    (fun l => Sound l ∧ l.caller.stops = true) (fun l => l.caller = .idle) Life.toReturn LifeAction.awaited (fun _ => true)
    (fun l a ev l' hp _ hstep => (stop_nearer hp.1 hp.2 (life_move hstep)).imp id fun hkept =>
      ⟨⟨(hp.1.step hstep).1,hkept.1⟩,hkept.2⟩)
    (lifeRun config ports actions).1 (lifeRun config ports actions).2 more ⟨hs,hstop⟩ (fun _ _ => rfl) hmore
  refine ⟨pre,post,hsplit,?_⟩
  rw [lifeRun,run_append]
  exact hidle

end

theorem stop_returns_holding :
    (lifeRun (oneChannel 30) (fun _ => 8554) (restarted.take 18 ++ [.stop])).2.toReturn = 25 ∧
    ∀ more, 25 < taken (Life.step (oneChannel 30) fun _ => 8554) LifeAction.awaited
        (lifeRun (oneChannel 30) (fun _ => 8554) (restarted.take 18 ++ [.stop])).2 more →
      ∃ pre post, more = pre ++ post ∧
        (lifeRun (oneChannel 30) (fun _ => 8554) (restarted.take 18 ++ [.stop] ++ pre)).2.caller = .idle := by
  have hrank : (lifeRun (oneChannel 30) (fun _ => 8554) (restarted.take 18 ++ [.stop])).2.toReturn = 25 := by decide +kernel
  refine ⟨hrank,fun more hmore => ?_⟩
  exact (@stop_returns (oneChannel 30) (fun _ => 8554) _ (by decide +kernel) (by decide)).2 more (by rwa [hrank])

end RpiVms

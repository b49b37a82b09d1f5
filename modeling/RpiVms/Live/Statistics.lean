import RpiVms.Library.Attribution
import RpiVms.Live.Booking
import RpiVms.Live.Delivery

namespace RpiVms

open Attribution

-- inside the try block, once the connection stands; nothing between the two counters of a new session throws
def SessionPoint.mayThrow : SessionPoint → Bool
  | .registering | .polling | .parsing | .storingChannel _ | .storingPlaying _ | .checking | .popping
  | .sending _ => true
  | _ => false

-- how far send_frame had come when something in it threw: which of its writes had succeeded
structure SendReached where
  writeOk : Nat → Bool
  now : Int
  wall : Int

inductive LiveAction where
  | act (action : ServerAction)
  | throws (client : Nat) (reached : Option SendReached)

-- the catch block of run_session; what the local variables had become is lost
def Session.thrown (config : LiveRtspServerConfig) (sets : Int → ParameterSets) (x : Session)
    (reached : Option SendReached) : Session :=
  match x.point,reached with
  | .sending frame,some r => (sendStep config sets x frame r.writeOk r.now r.wall).2.goto .disconnecting
  | _,_ => x.goto .disconnecting

namespace Server

variable (config : LiveRtspServerConfig) (s : Server)

def throwIn (client : Nat) (reached : Option SendReached) : Option (List ServerEvent × Server) :=
  match s.sessions[client]? with
  | none => none
  | some x =>
      let y := x.thrown config s.parameterSets reached
      if x.point.mayThrow then
        some ([],{ s.setSession client y with stats := sessionStats x y [] s.stats })
      else none

def liveStep : LiveAction → Option (List ServerEvent × Server)
  | .act action => s.step config action
  | .throws client reached => s.throwIn config client reached

end Server

def liveRun (config : LiveRtspServerConfig) (actions : List LiveAction) : List ServerEvent × Server :=
  Runs.run (Server.liveStep config) ([],{}) actions

theorem liveRun_act (config : LiveRtspServerConfig) (actions : List ServerAction) :
    liveRun config (actions.map .act) = serverRun config actions :=
  List.foldl_map

structure LeftBy (x y : Session) : Prop where
  point : y.point = .disconnecting
  channelId : y.channelId = x.channelId
  control : y.control = x.control
  queue : y.queue = x.queue

theorem thrown_left (config : LiveRtspServerConfig) (sets : Int → ParameterSets) (x : Session)
    (reached : Option SendReached) : LeftBy x (x.thrown config sets reached) := by
  unfold Session.thrown
  split <;> exact ⟨rfl,rfl,rfl,rfl⟩

theorem thrown_books {config : LiveRtspServerConfig} {sets : Int → ParameterSets} {x : Session}
    {reached : Option SendReached} (h : x.point.mayThrow = true) : Booking x (x.thrown config sets reached) := by
  cases hp : x.point with
  | registering =>
    unfold Session.thrown
    rw [hp]
    exact .begun (.inr hp) (.inr rfl) ⟨rfl,rfl⟩
  | sending frame =>
    unfold Session.thrown
    rw [hp]
    cases reached with
    | none => exact .sent frame hp (.inr rfl) rfl id
    | some r => exact .sent frame hp (.inr rfl) rfl fun hfirst => sendFrame_first hfirst
  | polling | parsing | storingChannel _ | storingPlaying _ | checking | popping =>
    unfold Session.thrown
    rw [hp]
    exact .served (Session.stage_at hp) (by simp [Session.inFlight,hp]) (.inr rfl) ⟨rfl,rfl⟩
  | connecting | activating | creating | disconnecting | halting | closing | deactivating | recording | finished =>
    simp [hp,SessionPoint.mayThrow] at h

structure Fixed (x : Session) : Prop where
  stored : x.channelId = -1 ∨ x.channelId = x.control.channelId ∧ x.control.phase ≠ .initial
  storing : x.storing = true → x.control.phase ≠ .initial

section

variable {x y : Session} {events : List SessionEvent}

theorem Fixed.calm (hx : Fixed x) (hc : Calm x y) : Fixed y where
  stored := by
    rw [hc.channelId,hc.control]
    exact hx.stored
  storing := fun hs => by
    rw [hc.storing] at hs
    cases hs

theorem Fixed.move (hx : Fixed x) (hm : SessionMove x events y) : Fixed y := by
  cases hm with
  | quiet hc _ | rejected hc _ | popped _ hc _ _ _ _ _ | heldBack _ hc _ _ _ _ _ | sent _ _ hc _ _ _ _ _
  | closed hc _ _ _ _ => exact hx.calm hc
  | replied id request codec fmtp result control written hh hcontrol _ hch _ hst _ =>
    subst hcontrol
    have frozen := handled_frozen hh
    refine ⟨?_,fun hs => ?_⟩
    · rw [hch]
      rcases hx.stored with hs | ⟨hs,hp⟩
      · exact .inl hs
      · exact .inr ⟨hs.trans (frozen hp).1.symm,(frozen hp).2⟩
    · have hready := (@handled_play _ _ _ _ _ _ _ 0 hh (hst hs).1).1
      exact (frozen (by simp [hready])).2
  | stored hs _ hcontrol hch =>
    have hphase := hx.storing hs
    refine ⟨?_,fun _ => by rwa [hcontrol]⟩
    rw [hcontrol]
    rcases hch with hch | hch
    · rw [hch]
      exact hx.stored
    · exact .inr ⟨hch,hphase⟩

theorem Fixed.channel_kept (hx : Fixed x) (hm : SessionMove x events y) (hch : x.channelId ≠ -1) :
    y.channelId = x.channelId := by
  cases hm with
  | quiet hc _ | rejected hc _ | popped _ hc _ _ _ _ _ | heldBack _ hc _ _ _ _ _ | sent _ _ hc _ _ _ _ _
  | closed hc _ _ _ _ => exact hc.channelId
  | replied _ _ _ _ _ _ _ _ _ _ h _ _ _ => exact h
  | stored _ _ _ h =>
    rcases h with h | h
    · exact h
    · exact h.trans (hx.stored.resolve_left hch).1.symm

end

def CallPhase.held : CallPhase → List Nat
  | .recounting _ client rest => client :: rest
  | p => p.chosen

structure SoleChannel (k : Core) : Prop where
  fixed : ∀ (c : Nat) (x : Session), k.sessions[c]? = some x → Fixed x
  called : ∀ ch call, k.calls ch = some call → PublicChannel ch
  held : ∀ ch call, k.calls ch = some call → ∀ c ∈ call.phase.held,
    ∃ x, k.sessions[c]? = some x ∧ x.channelId = ch

section

variable {config : LiveRtspServerConfig} {k k' : Core} {a : ServerAction} {ev : List ServerEvent}

theorem accepted_public {view : OwnedLiveFrame} (h : acceptsFrame config view = true) :
    PublicChannel view.channelId := by
  obtain ⟨channel,hr,-⟩ := acceptsFrame_codec h
  have hid : channel.channelId = view.channelId := by simpa using List.find?_some hr
  rw [← hid]
  exact config.inRange channel (List.mem_of_find?_eq_some hr)

theorem Onward.held {p q : CallPhase} {clients : List Nat} (ho : Onward k p q clients) {c : Nat}
    (hc : c ∈ q.held) : c ∈ p.held := by
  cases ho with
  | lock _ _ => exact absurd hc List.not_mem_nil
  | recount _ _ _ => exact List.mem_cons_of_mem _ hc
  | _ => exact hc

theorem SoleChannel.session_kept (hi : SoleChannel k) (hm : CoreMove config k a ev k') {c : Nat} {x : Session}
    (hx : k.sessions[c]? = some x) (hch : x.channelId ≠ -1) :
    ∃ y, k'.sessions[c]? = some y ∧ y.channelId = x.channelId := by
  have hlen := (List.getElem?_eq_some_iff.mp hx).1
  cases hm with
  | idle | ignored _ | passed _ _ _ | onward _ _ | chose _ _ _ | returned _ => exact ⟨x,hx,rfl⟩
  | accepted _ _ _ => exact ⟨x,by rw [List.getElem?_append_left hlen]; exact hx,rfl⟩
  | @session d x' y action running sets events clients hd hstep _ =>
    by_cases hdc : d = c
    · subst hdc
      obtain rfl : x' = x := by simpa [hd] using hx
      exact ⟨y,by simp [Core.setSession,hlen],(hi.fixed d x' hd).channel_kept (sessionStep_move hstep).move hch⟩
    · exact ⟨x,by rw [← hx]; exact List.getElem?_set_ne hdc,rfl⟩
  | @pushed ch f before d x' rest _ hd =>
    by_cases hdc : d = c
    · subst hdc
      obtain rfl : x' = x := by simpa [hd] using hx
      exact ⟨{ x' with queue := (x'.queue.push (some f)).2 },by simp [Core.setSession,Core.setCall,hlen],rfl⟩
    · exact ⟨x,by rw [← hx]; exact List.getElem?_set_ne hdc,rfl⟩

theorem SoleChannel.step_fixed (hi : SoleChannel k) (hm : CoreMove config k a ev k') {c : Nat} {x : Session}
    (hx : k'.sessions[c]? = some x) : Fixed x := by
  cases session_change hm hx with
  | kept hx _ _ => exact hi.fixed c x hx
  | added _ _ _ _ => exact ⟨.inl rfl,by simp [newSession,Session.storing]⟩
  | stepped hx hstep => exact (hi.fixed c _ hx).move (sessionStep_move hstep).move
  | @pushed ch f before x' rest _ hx' =>
    obtain ⟨hstored,hstoring⟩ := hi.fixed c x' hx'
    exact ⟨hstored,hstoring⟩

theorem SoleChannel.step_called (hi : SoleChannel k) (hm : CoreMove config k a ev k') {ch : Int}
    {call : FrameCall} (hcall : k'.calls ch = some call) :
    PublicChannel ch ∧ ∀ c ∈ call.phase.held, ∃ x, k.sessions[c]? = some x ∧ x.channelId = ch := by
  have hold (h : k.calls ch = some call) := And.intro (hi.called ch call h) (hi.held ch call h)
  cases hm with
  | idle | accepted _ _ _ | session _ _ _ | ignored _ => exact hold hcall
  | passed view ha _ =>
    rcases update_some hcall with ⟨rfl,hv⟩ | ⟨-,hother⟩
    · cases hv
      exact ⟨accepted_public ha,by simp [CallPhase.held,CallPhase.chosen]⟩
    · exact hold hother
  | onward hcall' ho =>
    rcases update_some hcall with ⟨rfl,hv⟩ | ⟨-,hother⟩
    · cases hv
      exact ⟨hi.called _ _ hcall',fun c hc => hi.held _ _ hcall' c (ho.held hc)⟩
    · exact hold hother
  | @chose ch' f c x rest chosen hcall' hx hch =>
    rcases update_some hcall with ⟨rfl,hv⟩ | ⟨-,hother⟩
    · cases hv
      refine ⟨hi.called _ _ hcall',fun d hd => ?_⟩
      rcases List.mem_append.mp hd with hd | hd
      · exact hi.held _ _ hcall' d hd
      · obtain rfl := List.mem_singleton.mp hd
        exact ⟨x,hx,hch⟩
    · exact hold hother
  | returned _ =>
    rcases update_some hcall with ⟨-,hv⟩ | ⟨-,hother⟩
    · cases hv
    · exact hold hother
  | pushed hcall' _ =>
    rcases update_some hcall with ⟨rfl,hv⟩ | ⟨-,hother⟩
    · cases hv
      exact ⟨hi.called _ _ hcall',fun c hc => hi.held _ _ hcall' c hc⟩
    · exact hold hother

theorem SoleChannel.step (hi : SoleChannel k) (hm : CoreMove config k a ev k') : SoleChannel k' := by
  refine ⟨fun c x hx => hi.step_fixed hm hx,fun ch call h => (hi.step_called hm h).1,fun ch call h c hc => ?_⟩
  obtain ⟨hpublic,hheld⟩ := hi.step_called hm h
  obtain ⟨x,hx,rfl⟩ := hheld c hc
  refine hi.session_kept hm hx ?_
  have := hpublic.1
  omega

theorem SoleChannel.threw (hi : SoleChannel k) {c : Nat} {x y : Session} (hx : k.sessions[c]? = some x)
    (hy : LeftBy x y) : SoleChannel (k.setSession c y) := by
  refine ⟨fun d z hz => ?_,hi.called,fun ch call h d hd => ?_⟩
  · rcases getElem?_set_some hz with ⟨rfl,rfl⟩ | ⟨-,hz⟩
    · refine ⟨?_,by simp [Session.storing,hy.point]⟩
      rw [hy.channelId,hy.control]
      exact (hi.fixed c x hx).stored
    · exact hi.fixed d z hz
  · obtain ⟨z,hz,hch⟩ := hi.held ch call h d hd
    have hlen := (List.getElem?_eq_some_iff.mp hx).1
    by_cases hcd : c = d
    · subst hcd
      obtain rfl : x = z := Option.some.inj (hx.symm.trans hz)
      exact ⟨y,by simp [Core.setSession,hlen],hy.channelId.trans hch⟩
    · exact ⟨z,by rw [← hz]; exact List.getElem?_set_ne hcd,hch⟩

end

section

variable {config : LiveRtspServerConfig} {s t : Server} {a : LiveAction} {ev : List ServerEvent}

theorem throwIn_some {c : Nat} {reached : Option SendReached} (h : s.throwIn config c reached = some (ev,t)) :
    ∃ x y, s.sessions[c]? = some x ∧ x.point.mayThrow = true ∧ y = x.thrown config s.parameterSets reached ∧
      t = { s.setSession c y with stats := sessionStats x y [] s.stats } := by
  unfold Server.throwIn at h
  split at h
  · cases h
  · rename_i x hx
    dsimp only at h
    split at h
    · rename_i hp
      cases h
      exact ⟨x,_,hx,hp,rfl,rfl⟩
    · cases h

theorem SoleChannel.liveStep (hi : SoleChannel s.core) (h : s.liveStep config a = some (ev,t)) :
    SoleChannel t.core := by
  cases a with
  | act action => exact hi.step (step_move h)
  | throws client reached =>
    obtain ⟨x,y,hx,-,rfl,rfl⟩ := throwIn_some h
    exact hi.threw hx (thrown_left config _ x reached)

end

def workOf : Option FrameCall → Work
  | some ⟨_,.pushing before client _⟩ => .read before client
  | some ⟨_,.recounting before client _⟩ => .bumped before client
  | _ => .idle

def Server.account (s : Server) : Account Int where
  counters := s.sessions.map (·.queue.drops)
  credited := s.stats.queueDrops
  work := fun ch => workOf (s.calls ch)

def publicChannels : Finset Int := {1,2,3,4}

section

variable {s t : Server} {ch : Int} {c : Nat} {x : Session}

theorem workOf_subject {call : Option FrameCall} (h : (workOf call).subject = some c) :
    ∃ made, call = some made ∧ c ∈ made.phase.held := by
  unfold workOf at h
  split at h
  · cases h
    exact ⟨_,rfl,List.mem_cons_self⟩
  · cases h
    exact ⟨_,rfl,List.mem_cons_self⟩
  · cases h

theorem account_setCall (s : Server) (ch : Int) (call : Option FrameCall) :
    (s.setCall ch call).account = { s.account with work := Function.update s.account.work ch (workOf call) } := by
  unfold Server.account Server.setCall
  congr 1
  funext l
  exact Function.apply_update (fun _ => workOf) s.calls ch call l

theorem account_work {call : FrameCall} (h : s.calls ch = some call) : s.account.work ch = workOf (some call) :=
  congrArg workOf h

theorem account_idle {call : Option FrameCall} (h : s.account.work ch = workOf call) :
    (s.setCall ch call).account = s.account := by
  rw [account_setCall,← h,Function.update_eq_self]

theorem account_setSession (s : Server) (c : Nat) (y : Session) :
    (s.setSession c y).account = { s.account with counters := s.account.counters.set c y.queue.drops } := by
  unfold Server.account Server.setSession
  rw [List.map_set]

theorem account_counter (hx : s.sessions[c]? = some x) : s.account.counters[c]? = some x.queue.drops := by
  simp [Server.account,hx]

theorem account_undropped (hx : s.sessions[c]? = some x) {y : Session} (h : y.queue.drops = x.queue.drops) :
    (s.setSession c y).account = s.account := by
  have hc := account_counter hx
  obtain ⟨hlen,hget⟩ := List.getElem?_eq_some_iff.mp hc
  rw [account_setSession,h,← hget,List.set_getElem_self]

theorem drops_some (hx : s.sessions[c]? = some x) : s.drops c = x.queue.drops := by
  simp [Server.drops,hx]

theorem mem_publicChannels (h : PublicChannel ch) : ch ∈ publicChannels := by
  obtain ⟨hlow,hhigh⟩ := h
  simp only [publicChannels,Finset.mem_insert,Finset.mem_singleton]
  omega

end

theorem push_drops_le (q : BoundedFrameQueue) (f : LiveFrame) : q.drops ≤ (q.push (some f)).2.drops := by
  have hroom (frames : List LiveFrame) (bytes drops : Nat) :
      drops ≤ (dropOldest q.maxFrames q.maxBytes f.size frames bytes drops).2.2 := by
    induction frames generalizing bytes drops with
    | nil => exact Nat.le_refl _
    | cons front rest ih =>
      unfold dropOldest
      split
      · exact Nat.le_trans (Nat.le_succ _) (ih _ _)
      · exact Nat.le_refl _
  unfold BoundedFrameQueue.push
  dsimp only
  split
  · exact Nat.le_refl _
  · split
    · exact Nat.le_succ _
    · exact hroom q.frames q.bytes q.drops

section

variable {config : LiveRtspServerConfig} {s t : Server} {ch : Int} {c : Nat} {x : Session} {ev : List ServerEvent}

theorem SoleChannel.alone (hi : SoleChannel s.core) {call : FrameCall} (hcall : s.calls ch = some call)
    (hc : c ∈ call.phase.held) : ∀ l ≠ ch, (s.account.work l).subject ≠ some c := by
  intro l hl hsubject
  obtain ⟨made,hmade,hheld⟩ := workOf_subject hsubject
  obtain ⟨x,hx,hch⟩ := hi.held ch call hcall c hc
  obtain ⟨y,hy,hl'⟩ := hi.held l made hmade c hheld
  obtain rfl : x = y := Option.some.inj (hx.symm.trans hy)
  exact hl (hl'.symm.trans hch)

theorem probe_account {f : LiveFrame} {rest chosen : List Nat} {p : Probe}
    (hcall : s.calls ch = some ⟨f,.scanning (c :: rest) chosen p⟩) :
    (s.probe ch f c rest chosen p).2.account = s.account := by
  unfold Server.probe
  split
  · cases p <;> exact account_idle ((account_work hcall).trans rfl)
  · exact account_idle ((account_work hcall).trans rfl)

theorem push_account (hi : SoleChannel s.core) {f : LiveFrame} {before : Nat} {rest : List Nat}
    (hcall : s.calls ch = some ⟨f,.pushing before c rest⟩) :
    Move publicChannels s.account (s.push ch f before c rest).2.account := by
  have hheld : c ∈ (CallPhase.pushing before c rest).held := List.mem_cons_self
  obtain ⟨x,hx,-⟩ := hi.held ch _ hcall c hheld
  have hx' : s.sessions[c]? = some x := hx
  unfold Server.push
  simp only [hx',account_setSession,account_setCall]
  exact .bumped ch before c x.queue.drops _ (account_work hcall) (account_counter hx') (push_drops_le x.queue f)
    (hi.alone hcall hheld)

theorem stepCall_account (hi : SoleChannel s.core) (h : s.stepCall ch = some (ev,t)) :
    Move publicChannels s.account t.account := by
  have hkept {u : Server} (call : Option FrameCall) (hwork : s.account.work ch = workOf call)
      (hu : u.account = (s.setCall ch call).account) : Move publicChannels s.account u.account := by
    rw [hu,account_idle hwork]
    exact .kept
  unfold Server.stepCall at h
  split at h
  · cases h
  · rename_i f hc
    split at h
    · cases h
    · cases h
      exact hkept (some ⟨f,.scanning _ [] .connected⟩) ((account_work hc).trans rfl) rfl
  · rename_i f chosen p hc
    cases h
    exact hkept (some ⟨f,.counting chosen⟩) ((account_work hc).trans rfl) rfl
  · rename_i f c rest chosen p hc
    have hu := probe_account hc
    rw [Option.some.inj h] at hu
    rw [show t.account = s.account from hu]
    exact .kept
  · rename_i f hc
    cases h
    exact hkept none ((account_work hc).trans rfl) rfl
  · rename_i f c rest hc
    cases h
    obtain ⟨x,hx,-⟩ := hi.held ch _ hc c List.mem_cons_self
    have hx' : s.sessions[c]? = some x := hx
    rw [account_setCall,workOf,drops_some hx']
    exact .read ch c _ (mem_publicChannels (hi.called ch _ hc)) (account_work hc) (account_counter hx')
  · rename_i f before c rest hc
    have hm := push_account hi hc
    rwa [Option.some.inj h] at hm
  · rename_i f before c rest hc
    cases h
    obtain ⟨x,hx,-⟩ := hi.held ch _ hc c List.mem_cons_self
    have hx' : s.sessions[c]? = some x := hx
    show Move publicChannels s.account
      { (s.setCall ch (some ⟨f,.counting rest⟩)).account with
        credited := s.account.credited + (s.drops c - before) }
    rw [account_setCall,drops_some hx']
    exact .credited ch before c x.queue.drops (account_work hc) (account_counter hx')

end

inductive LiveMove (s t : Server) : Prop
  | kept : t.sessions = s.sessions → t.calls = s.calls → t.stats = s.stats → LiveMove s t
  | accepted (config : LiveRtspServerConfig) (sequence : UInt16) (ssrc timestampOrigin : UInt32) :
      t.sessions = s.sessions ++ [newSession config sequence ssrc timestampOrigin] → t.calls = s.calls →
      t.stats = s.stats → LiveMove s t
  | session (c : Nat) (x y : Session) (events : List SessionEvent) : s.sessions[c]? = some x → Booking x y →
      y.queue.drops = x.queue.drops → t.sessions = s.sessions.set c y → t.calls = s.calls →
      t.stats = sessionStats x y events s.stats → LiveMove s t
  | called : Move publicChannels s.account t.account →
      (t.sessions = s.sessions ∨ ∃ c x queue, s.sessions[c]? = some x ∧
        t.sessions = s.sessions.set c { x with queue := queue }) →
      t.stats = { s.stats with queueDrops := t.stats.queueDrops } → LiveMove s t

section

variable {config : LiveRtspServerConfig} {s t : Server} {a : LiveAction} {ev : List ServerEvent}

theorem stepSession_live {c : Nat} {action : SessionAction} (h : s.stepSession config c action = some (ev,t)) :
    LiveMove s t := by
  unfold Server.stepSession at h
  split at h
  · cases h
  · rename_i x hx
    split at h
    · cases h
    · obtain ⟨⟨events,y⟩,hy,he⟩ := Option.map_eq_some_iff.mp h
      cases he
      obtain ⟨hb,hdrops⟩ := sessionStep_books hy
      exact .session c x y events hx hb hdrops rfl rfl rfl

theorem onFrame_live {view : OwnedLiveFrame} (h : s.onFrame config view = some (ev,t)) : LiveMove s t := by
  unfold Server.onFrame at h
  split at h
  · cases h
  · rename_i hc
    dsimp only at h
    split at h
    · cases h
      have hwork : s.account.work view.channelId = workOf (some ⟨⟨s.passed,view⟩,.locking⟩) :=
        (congrArg workOf hc).trans rfl
      refine .called ?_ (.inl rfl) rfl
      show Move publicChannels s.account (s.setCall view.channelId (some ⟨⟨s.passed,view⟩,.locking⟩)).account
      rw [account_idle hwork]
      exact .kept
    · cases h
      exact .kept rfl rfl rfl

theorem stepCall_sessions (config : LiveRtspServerConfig) {ch : Int} (h : s.stepCall ch = some (ev,t)) :
    t.sessions = s.sessions ∨
      ∃ c x queue, s.sessions[c]? = some x ∧ t.sessions = s.sessions.set c { x with queue := queue } := by
  have hm : CoreMove config s.core (.frameCall ch) ev t.core := stepCall_move h
  generalize hk : t.core = k at hm
  have ht : t.sessions = k.sessions := by rw [← hk]; rfl
  rw [ht]
  cases hm with
  | onward _ _ | chose _ _ _ | returned _ => exact .inl rfl
  | @pushed ch f before c x rest _ hx => exact .inr ⟨c,x,_,hx,rfl⟩

theorem stepCall_stats {ch : Int} (h : s.stepCall ch = some (ev,t)) :
    t.stats = { s.stats with queueDrops := t.stats.queueDrops } := by
  unfold Server.stepCall at h
  split at h
  · cases h
  · split at h
    · cases h
    · cases h
      rfl
  · cases h
    rfl
  · rename_i f c rest chosen p _
    have hstats : (s.probe ch f c rest chosen p).2.stats = s.stats := by
      unfold Server.probe
      split
      · cases p <;> rfl
      · rfl
    rw [Option.some.inj h] at hstats
    rw [show t.stats = s.stats from hstats]
  · cases h
    rfl
  · cases h
    rfl
  · rename_i f before c rest _
    have hstats : (s.push ch f before c rest).2.stats = s.stats := by
      unfold Server.push
      dsimp only
      split <;> rfl
    rw [Option.some.inj h] at hstats
    rw [show t.stats = s.stats from hstats]
  · cases h
    rfl

theorem liveStep_move (hi : SoleChannel s.core) (h : s.liveStep config a = some (ev,t)) : LiveMove s t := by
  cases a with
  | throws client reached =>
    obtain ⟨x,y,hx,hp,rfl,rfl⟩ := throwIn_some h
    have hdrops := congrArg BoundedFrameQueue.drops (thrown_left config s.parameterSets x reached).queue
    exact .session client x _ [] hx (thrown_books hp) hdrops rfl rfl rfl
  | act action =>
    cases action with
    | accept sequence ssrc timestampOrigin =>
      simp only [Server.liveStep,Server.step,Server.accept] at h
      split at h
      · cases h
      · cases h
        exact .accepted config sequence ssrc timestampOrigin rfl rfl rfl
    | session c action => exact stepSession_live h
    | onFrame view => exact onFrame_live h
    | frameCall ch =>
      exact .called (stepCall_account hi h) (stepCall_sessions config h) (stepCall_stats h)
    | stop =>
      cases h
      exact .kept rfl rfl rfl

end

def Server.total (s : Server) (share : Session → Nat) : Nat := (s.sessions.map share).sum

structure SharedOut (s : Server) : Prop where
  booked : ∀ (c : Nat) (x : Session), s.sessions[c]? = some x → Booked x
  active : s.stats.activeClients = s.total Session.active
  created : s.stats.sessionsCreated = s.total (·.counted.toNat)
  closed : s.stats.sessionsClosed = s.total Session.closings
  first : s.stats.firstRtpTransmissions = s.total Session.firsts

section

variable {s t : Server} {c : Nat} {x y : Session}

theorem newSession_booked (config : LiveRtspServerConfig) (sequence : UInt16) (ssrc timestampOrigin : UInt32) :
    Booked (newSession config sequence ssrc timestampOrigin) :=
  ⟨fun _ => rfl,by simp [newSession,Session.stage,SessionPoint.stage],by simp [newSession]⟩

theorem total_set (hx : s.sessions[c]? = some x) (ht : t.sessions = s.sessions.set c y) (share : Session → Nat) :
    t.total share + share x = s.total share + share y := by
  rw [Server.total,Server.total,ht]
  exact sum_map_set hx share y

theorem share_le_total (hx : s.sessions[c]? = some x) (share : Session → Nat) : share x ≤ s.total share :=
  List.le_sum_of_mem (List.mem_map_of_mem (List.mem_of_getElem? hx))

theorem SharedOut.appended (hi : SharedOut s) (hy : Booked y) (ht : t.sessions = s.sessions ++ [y])
    (hstats : t.stats = s.stats) (hactive : y.active = 0) (hcounted : y.counted = false)
    (hclosings : y.closings = 0) (hfirsts : y.firsts = 0) : SharedOut t := by
  have htotal (share : Session → Nat) : t.total share = s.total share + share y := by
    rw [Server.total,Server.total,ht,List.map_append,List.sum_append]
    rfl
  refine ⟨fun d z hz => ?_,?_,?_,?_,?_⟩
  · rw [ht,List.getElem?_append] at hz
    split at hz
    · exact hi.booked d z hz
    · rw [List.getElem?_singleton] at hz
      split at hz
      · cases hz
        exact hy
      · cases hz
  · rw [hstats,htotal,hactive]
    exact hi.active
  · rw [hstats,htotal,hcounted]
    exact hi.created
  · rw [hstats,htotal,hclosings]
    exact hi.closed
  · rw [hstats,htotal,hfirsts]
    exact hi.first

theorem SharedOut.changed (hi : SharedOut s) (hx : s.sessions[c]? = some x) (hy : Booked y)
    (ht : t.sessions = s.sessions.set c y) (he : Entered x y s.stats t.stats) : SharedOut t := by
  refine ⟨fun d z hz => ?_,?_,?_,?_,?_⟩
  · rw [ht] at hz
    rcases getElem?_set_some hz with ⟨rfl,rfl⟩ | ⟨-,hz⟩
    · exact hy
    · exact hi.booked d z hz
  · have := total_set hx ht Session.active
    have := he.active
    have := hi.active
    omega
  · have := total_set hx ht (·.counted.toNat)
    have := he.created
    have := hi.created
    omega
  · have := total_set hx ht Session.closings
    have := he.closed
    have := hi.closed
    omega
  · have := total_set hx ht Session.firsts
    have := he.first
    have := hi.first
    omega

theorem SharedOut.queued (hi : SharedOut s) (hx : s.sessions[c]? = some x) {queue : BoundedFrameQueue}
    (ht : t.sessions = s.sessions.set c { x with queue := queue })
    (hstats : t.stats = { s.stats with queueDrops := t.stats.queueDrops }) : SharedOut t := by
  obtain ⟨hearly,hserved,hfirst⟩ := hi.booked c x hx
  have hy : Booked { x with queue := queue } := ⟨hearly,hserved,hfirst⟩
  refine hi.changed hx hy ht ?_
  rw [hstats]
  exact ⟨rfl,rfl,rfl,rfl⟩

theorem SharedOut.same (hi : SharedOut s) (ht : t.sessions = s.sessions)
    (hstats : t.stats = { s.stats with queueDrops := t.stats.queueDrops }) : SharedOut t := by
  have htotal (share : Session → Nat) : t.total share = s.total share := by rw [Server.total,Server.total,ht]
  refine ⟨?_,?_,?_,?_,?_⟩
  · rw [ht]
    exact hi.booked
  · rw [htotal,hstats]
    exact hi.active
  · rw [htotal,hstats]
    exact hi.created
  · rw [htotal,hstats]
    exact hi.closed
  · rw [htotal,hstats]
    exact hi.first

theorem LiveMove.shared (hm : LiveMove s t) (hi : SharedOut s) : SharedOut t := by
  cases hm with
  | kept hsessions _ hstats => exact hi.same hsessions (by rw [hstats])
  | accepted config sequence ssrc timestampOrigin hsessions _ hstats =>
    exact hi.appended (newSession_booked config sequence ssrc timestampOrigin) hsessions hstats rfl rfl rfl rfl
  | session c x y events hx hb _ hsessions _ hstats =>
    have hbooked := hi.booked c x hx
    refine hi.changed hx (hb.booked hbooked) hsessions ?_
    rw [hstats]
    refine hb.entered hbooked ?_
    rw [hi.active]
    exact share_le_total hx Session.active
  | called _ hsessions hstats =>
    rcases hsessions with hsessions | ⟨c,x,queue,hx,hsessions⟩
    · exact hi.same hsessions hstats
    · exact hi.queued hx hsessions hstats

theorem LiveMove.account (hm : LiveMove s t) : Move publicChannels s.account t.account := by
  cases hm with
  | kept hsessions hcalls hstats =>
    have hsame : t.account = s.account := by rw [Server.account,Server.account,hsessions,hcalls,hstats]
    rw [hsame]
    exact .kept
  | accepted config sequence ssrc timestampOrigin hsessions hcalls hstats =>
    have hnew : t.account = { s.account with counters := s.account.counters ++ [0] } := by
      rw [Server.account,Server.account,hsessions,hcalls,hstats,List.map_append]
      rfl
    rw [hnew]
    exact .opened
  | session c x y events hx hb hdrops hsessions hcalls hstats =>
    have hcredit : t.stats.queueDrops = s.stats.queueDrops := by
      rw [hstats]
      unfold sessionStats
      split <;> rfl
    have hsame : t.account = (s.setSession c y).account := by
      rw [Server.account,Server.account,hsessions,hcalls,hcredit]
      rfl
    rw [hsame,account_undropped hx hdrops]
    exact .kept
  | called hmove _ _ => exact hmove

end

structure StatisticsInv (s : Server) : Prop where
  sole : SoleChannel s.core
  balanced : Balanced publicChannels s.account
  shared : SharedOut s

theorem statistics_run (config : LiveRtspServerConfig) (actions : List LiveAction) :
    StatisticsInv (liveRun config actions).2 := by
  refine @Runs.run_keeps _ _ _ (Server.liveStep config) (fun _ s => StatisticsInv s) ?_ ([],{}) actions ?_
  · intro _ s a ev t hi h
    have hm := liveStep_move hi.sole h
    exact ⟨hi.sole.liveStep h,hm.account.balanced hi.balanced,hm.shared hi.shared⟩
  · refine ⟨⟨by simp [Server.core],by simp [Server.core],by simp [Server.core]⟩,⟨fun _ _ => rfl,?_,?_,?_⟩,
      ⟨by simp,rfl,rfl,rfl,rfl⟩⟩
    · simp [Server.account,workOf]
    · simp [Server.account,workOf]
    · simp [Server.account,workOf,Work.due]

structure Settled (s : Server) : Prop where
  calls : ∀ ch, s.calls ch = none
  sessions : ∀ x ∈ s.sessions, x.point ≠ .creating ∧ x.point ≠ .recording

theorem Booked.settled {x : Session} (hx : Booked x) (h : x.point ≠ .creating ∧ x.point ≠ .recording) :
    x.counted.toNat = x.closings + x.active := by
  have hstage : x.stage ≠ .creating ∧ x.stage ≠ .recording := by
    unfold Session.stage
    cases hp : x.point <;> simp_all [SessionPoint.stage]
  unfold Session.closings Session.active
  cases hs : x.stage with
  | starting => simp [hx.early (.inl hs)]
  | serving => simp [hx.served (.inl hs)]
  | deactivating => simp [hx.served (.inr (.inl hs))]
  | leaving | finished => simp
  | creating => exact absurd hs hstage.1
  | recording => exact absurd hs hstage.2

theorem live_statistics_exact (config : LiveRtspServerConfig) (actions : List LiveAction)
    (h : Settled (liveRun config actions).2) :
    (liveRun config actions).2.stats.queueDrops =
        ((liveRun config actions).2.sessions.map (·.queue.drops)).sum ∧
      (liveRun config actions).2.stats.sessionsCreated =
        (liveRun config actions).2.stats.sessionsClosed + (liveRun config actions).2.stats.activeClients ∧
      (liveRun config actions).2.stats.firstRtpTransmissions ≤ (liveRun config actions).2.stats.sessionsCreated := by
  have hi := statistics_run config actions
  generalize (liveRun config actions).2 = s at h hi ⊢
  have hbooked {x : Session} (hx : x ∈ s.sessions) : Booked x := by
    obtain ⟨c,hc⟩ := List.mem_iff_getElem?.mp hx
    exact hi.shared.booked c x hc
  refine ⟨hi.balanced.settled fun ch => congrArg workOf (h.calls ch),?_,?_⟩
  · rw [hi.shared.created,hi.shared.closed,hi.shared.active,Server.total,Server.total,Server.total,← List.sum_map_add]
    exact congrArg List.sum (List.map_congr_left fun x hx => (hbooked hx).settled (h.sessions x hx))
  · rw [hi.shared.first,hi.shared.created,Server.total,Server.total]
    refine List.sum_le_sum fun x hx => ?_
    have hfirst := (hbooked hx).first
    unfold Session.firsts
    cases hf : x.rtp.firstRtpSent with
    | false => exact Nat.zero_le _
    | true => rw [hfirst hf]

theorem settled_of_public {s : Server} (hi : StatisticsInv s)
    (hcalls : ([1,2,3,4].all fun ch => (s.calls ch).isNone) = true)
    (hsessions : (s.sessions.all fun x => decide (x.point ≠ .creating ∧ x.point ≠ .recording)) = true) :
    Settled s := by
  refine ⟨fun ch => ?_,fun x hx => of_decide_eq_true (List.all_eq_true.mp hsessions x hx)⟩
  cases hc : s.calls ch with
  | none => rfl
  | some call =>
    obtain ⟨hlow,hhigh⟩ := hi.sole.called ch call hc
    have hmem : ch ∈ [1,2,3,4] := by
      simp only [List.mem_cons,List.not_mem_nil,or_false]
      omega
    have := List.all_eq_true.mp hcalls ch hmem
    simp [hc] at this

def mixedRun : List LiveAction :=
  (joining ++ passing true ++ passing true ++ sending ++ passing true ++ passing false).map .act ++
    [.throws 0 none,.act advance,.act advance,.act advance,.act advance,.act advance,.act (.accept 0 2 0),
      .act (.session 1 (.connect true)),.act (.session 1 .advance),.act (.session 1 .advance),
      .act (.session 1 .advance),.act (.accept 0 3 0),.act (.session 2 (.connect false))]

theorem mixed_run_statistics :
    Settled (liveRun (oneChannel 1) mixedRun).2 ∧
      (liveRun (oneChannel 1) mixedRun).2.stats = ⟨2,1,1,1,2,0⟩ ∧
      ((liveRun (oneChannel 1) mixedRun).2.sessions.map (·.queue.drops)).sum = 2 := by
  have hrun : ([1,2,3,4].all fun ch => ((liveRun (oneChannel 1) mixedRun).2.calls ch).isNone) = true ∧
      ((liveRun (oneChannel 1) mixedRun).2.sessions.all fun x =>
        decide (x.point ≠ .creating ∧ x.point ≠ .recording)) = true ∧
      (liveRun (oneChannel 1) mixedRun).2.stats = ⟨2,1,1,1,2,0⟩ := by
    decide +kernel
  have hsettled := settled_of_public (statistics_run (oneChannel 1) mixedRun) hrun.1 hrun.2.1
  refine ⟨hsettled,hrun.2.2,?_⟩
  rw [← (live_statistics_exact (oneChannel 1) mixedRun hsettled).1,hrun.2.2]

end RpiVms

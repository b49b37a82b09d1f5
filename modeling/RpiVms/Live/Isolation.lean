import RpiVms.Live.Delivery
import RpiVms.Library.Views

namespace RpiVms

open Search Runs Views

inductive Toward where
  | entering
  | looking (probe : Probe)
  | chosen
  deriving DecidableEq, Repr

def CallPhase.toward (b : Nat) : CallPhase → Option Toward
  | .locking => some .entering
  | .scanning [] chosen _ => if b ∈ chosen then some .chosen else none
  | .scanning (client :: rest) chosen p =>
      if b ∈ chosen then some .chosen
      else if b = client then some (.looking p)
      else if b ∈ rest then some (.looking .connected)
      else none
  | p => if b ∈ p.chosen then some .chosen else none

structure Business where
  channelId : Int
  frame : LiveFrame
  toward : Toward
  deriving DecidableEq, Repr

def Server.business (config : LiveRtspServerConfig) (b : Nat) (s : Server) : List Business :=
  config.channels.filterMap fun channel =>
    (s.calls channel.channelId).bind fun call =>
      (call.phase.toward b).map fun toward => ⟨channel.channelId,call.frame,toward⟩

namespace Session

def ready (x : Session) : Toward → Bool
  | .entering | .looking .connected => x.connected && x.playing
  | .looking .playing => x.playing
  | .looking .channelId | .chosen => true

def due (x : Session) (business : List Business) : List LiveFrame :=
  business.filterMap fun e =>
    if x.channelId = e.channelId ∧ x.ready e.toward = true then some e.frame else none

def pushed (x : Session) (f : LiveFrame) : Session := { x with queue := (x.queue.push (some f)).2 }

def pushAll (x : Session) (frames : List LiveFrame) : Session := frames.foldl pushed x

end Session

inductive Seen where
  | accepted (sequence : UInt16) (ssrc timestampOrigin : UInt32)
  | own (action : SessionAction) (business : List Business)
  | passed (view : OwnedLiveFrame)
  | stopped

def seenBy (config : LiveRtspServerConfig) (b : Nat) (s : Server) : ServerAction → List Seen
  | .accept sequence ssrc timestampOrigin =>
      if s.sessions.length = b then [.accepted sequence ssrc timestampOrigin] else []
  | .session client action => if client = b then [.own action (s.business config b)] else []
  | .onFrame view => [.passed view]
  | .frameCall _ => []
  | .stop => [.stopped]

structure Observation where
  session : Session
  events : List SessionEvent

def ownEvent (b : Nat) : ServerEvent → Option SessionEvent
  | .session client e => if client = b then some e else none
  | _ => none

def observation (b : Nat) (a : ServerAction) (events : List ServerEvent) (t : Server) :
    List Observation :=
  match a with
  | .session client _ =>
      if client = b then
        t.sessions[b]?.toList.map fun y => ⟨y,events.filterMap (ownEvent b)⟩
      else []
  | _ => []

structure Lone where
  running : Bool := true
  parameterSets : Int → ParameterSets := fun _ => {}
  passed : Nat := 0
  session : Option Session := none
  coming : List LiveFrame := []

namespace Lone

variable (config : LiveRtspServerConfig) (m : Lone)

def passFrame (view : OwnedLiveFrame) : Lone :=
  if acceptsFrame config view then
    { m with
      passed := m.passed + 1
      parameterSets := Function.update m.parameterSets view.channelId
        (updateParameterSets (m.parameterSets view.channelId) view)
      coming := m.coming ++
        match m.session with
        | none => []
        | some x =>
            if x.channelId = view.channelId ∧ x.ready .entering = true then [⟨m.passed,view⟩] else [] }
  else { m with passed := m.passed + 1 }

def ownStep (action : SessionAction) (business : List Business) : List Observation × Lone :=
  match m.session with
  | none => ([],m)
  | some base =>
      let x := base.pushAll (m.coming.take (m.coming.length - (base.due business).length))
      match sessionStep config m.running m.parameterSets x action with
      | none => ([],m)
      | some (events,y) => ([⟨y,events⟩],{ m with session := some y, coming := y.due business })

def step : Seen → List Observation × Lone
  | .accepted sequence ssrc timestampOrigin =>
      ([],{ m with session := some (newSession config sequence ssrc timestampOrigin), coming := [] })
  | .own action business => m.ownStep config action business
  | .passed view => ([],m.passFrame config view)
  | .stopped => ([],{ m with running := false })

end Lone

namespace Session

variable {x : Session} {f : LiveFrame} {frames : List LiveFrame}

theorem pushAll_flags : (x.pushAll frames).connected = x.connected ∧
    (x.pushAll frames).playing = x.playing ∧ (x.pushAll frames).channelId = x.channelId := by
  induction frames generalizing x with
  | nil => exact ⟨rfl,rfl,rfl⟩
  | cons g frames ih => exact @ih (x.pushed g)

theorem ready_congr {y : Session} (hc : y.connected = x.connected) (hp : y.playing = x.playing)
    (w : Toward) : y.ready w = x.ready w := by
  rcases w with _ | ⟨_ | _ | _⟩ | _ <;> simp [ready,hc,hp]

theorem due_pushAll (business : List Business) : (x.pushAll frames).due business = x.due business := by
  obtain ⟨hc,hp,hi⟩ := @pushAll_flags x frames
  unfold due
  simp only [hi,ready_congr hc hp]

end Session

def Server.dueOf (s : Server) (b : Nat) (x : Session) : Option LiveFrame :=
  (s.calls x.channelId).bind fun call =>
    if (call.phase.toward b).any x.ready then some call.frame else none

theorem filterMap_key {γ δ : Type} {key : γ → Int} {G : Int → Option δ} {k : Int}
    (hG : ∀ i, i ≠ k → G i = none) (l : List γ) (hl : (l.map key).Nodup) :
    l.filterMap (fun c => G (key c)) = if k ∈ l.map key then (G k).toList else [] := by
  induction l with
  | nil => rfl
  | cons c l ih =>
    obtain ⟨hc,hl⟩ := List.nodup_cons.mp hl
    have ih := ih hl
    by_cases hk : key c = k
    · rw [hk] at hc
      rw [if_neg hc] at ih
      rw [List.filterMap_cons,ih,hk]
      cases hv : G k <;> simp [hk]
    · rw [List.filterMap_cons,hG _ hk,ih]
      simp [Ne.symm hk]

section

variable {config : LiveRtspServerConfig} {s t : Server} {h ev : List ServerEvent} {b : Nat}
  {x : Session}

theorem call_registered (hi : DeliveryInv config h s.core) {ch : Int} {call : FrameCall}
    (hc : s.calls ch = some call) : ∃ channel ∈ config.channels, channel.channelId = ch := by
  have hcall := hi.call ch call hc
  obtain ⟨channel,hr,-⟩ := acceptsFrame_codec hcall.accepted
  rw [hcall.channel] at hr
  exact ⟨channel,List.mem_of_find?_eq_some hr,by simpa using List.find?_some hr⟩

theorem call_channel (hi : DeliveryInv config h s.core) {ch : Int} {call : FrameCall}
    (hc : s.calls ch = some call) : ch ≠ -1 := by
  obtain ⟨channel,hm,rfl⟩ := call_registered hi hc
  have := config.inRange channel hm
  intro he
  rw [he] at this
  exact absurd this (by decide)

theorem due_business (hi : DeliveryInv config h s.core) :
    x.due (s.business config b) = (s.dueOf b x).toList := by
  let G : Int → Option LiveFrame := fun ch => (s.calls ch).bind fun call =>
    (call.phase.toward b).bind fun w =>
      if x.channelId = ch ∧ x.ready w = true then some call.frame else none
  have hG : ∀ ch, ch ≠ x.channelId → G ch = none := by
    intro ch hne
    simp [G,Ne.symm hne]
  have hdue : x.due (s.business config b) =
      config.channels.filterMap fun channel => G channel.channelId := by
    rw [Session.due,Server.business,List.filterMap_filterMap]
    refine List.filterMap_congr fun channel _ => ?_
    simp only [G]
    cases s.calls channel.channelId with
    | none => rfl
    | some call => cases hw : call.phase.toward b <;> simp [hw]
  have hself : G x.channelId = s.dueOf b x := by
    simp only [G,Server.dueOf]
    cases s.calls x.channelId with
    | none => rfl
    | some call => cases hw : call.phase.toward b <;> simp [hw]
  rw [hdue,filterMap_key hG _ config.distinct]
  split
  · rw [hself]
  · rename_i hk
    cases hc : s.calls x.channelId with
    | none => simp [Server.dueOf,hc]
    | some call =>
      obtain ⟨channel,hm,hid⟩ := call_registered hi hc
      exact absurd (List.mem_map.mpr ⟨channel,hm,hid⟩) hk

end

namespace Session

def joined (x : Session) : Bool :=
  match x.point with
  | .activating | .creating | .polling | .parsing | .storingChannel _ | .storingPlaying _
  | .checking | .popping | .sending _ => true
  | _ => false

def gone (x : Session) : Bool :=
  match x.point with
  | .closing | .deactivating | .recording | .finished => true
  | _ => false

end Session

structure Attached (b : Nat) (h : List ServerEvent) (s : Server) (x : Session) : Prop where
  joined : x.joined = true → b ∈ s.clients
  playing : x.playing = true → b ∈ s.clients
  gone : x.gone = true → x.playing = false
  settled : ∀ f, .chosen b f ∈ h → x.channelId ≠ -1

structure PointMove (x y : Session) : Prop where
  joined : y.joined = true → x.joined = true ∨ x.point = .registering
  playing : y.playing = true → x.playing = true ∨ x.joined = true
  gone : y.gone = true → y.playing = false ∨ x.gone = true ∧ y.playing = x.playing

section

variable {config : LiveRtspServerConfig} {running : Bool} {sets : Int → ParameterSets}
  {x y : Session} {action : SessionAction} {events : List SessionEvent}

theorem PointMove.stays (hx : x.joined = true) (hg : y.gone = false) : PointMove x y :=
  ⟨fun _ => .inl hx,fun _ => .inr hx,fun h => absurd h (by simp [hg])⟩

theorem PointMove.leaves (hj : y.joined = false) (hg : y.gone = false) (hp : y.playing = x.playing) :
    PointMove x y :=
  ⟨fun h => absurd h (by simp [hj]),fun h => .inl (hp ▸ h),fun h => absurd h (by simp [hg])⟩

theorem PointMove.ends (hx : x.gone = true) (hj : y.joined = false) (hp : y.playing = x.playing) :
    PointMove x y :=
  ⟨fun h => absurd h (by simp [hj]),fun h => .inl (hp ▸ h),fun _ => .inr ⟨hx,hp⟩⟩

theorem pollStep_points {ready : Option Bytes} (hx : x.joined = true) :
    PointMove x (pollStep config running x ready).2 := by
  unfold pollStep
  split
  · cases ready with
    | none => exact .stays hx rfl
    | some chunk =>
      simp only
      split
      · exact .leaves rfl rfl rfl
      · split
        · exact .leaves rfl rfl rfl
        · exact .stays hx rfl
  · exact .leaves rfl rfl rfl

theorem requestStep_points {request rest : Bytes} {drawn : SessionId} {writeOk : Bool}
    (hx : x.joined = true) :
    PointMove x (requestStep config sets x request rest drawn writeOk).2 := by
  unfold requestStep
  generalize answer config.channels (requestEnv config sets request drawn writeOk) request
    x.control = r
  simp only
  split
  · exact .stays hx rfl
  · split
    · exact .stays hx rfl
    · unfold Session.afterReply
      split <;> exact .stays hx rfl

theorem extractStep_points {drawn : SessionId} {writeOk : Bool} (hp : x.point = .parsing)
    (h : extractStep config sets x drawn writeOk = some (events,y)) : PointMove x y := by
  have hx : x.joined = true := by simp [Session.joined,hp]
  unfold extractStep at h
  split at h
  · cases h
  · cases h
    exact .stays hx rfl
  · rename_i unit rest _
    split at h
    · cases h
      exact .stays hx (by simp [Session.gone,hp])
    · have hm := @requestStep_points config sets x unit rest drawn writeOk hx
      rwa [Option.some.inj h] at hm

theorem advance_points (h : sessionStep config running sets x .advance = some (events,y)) :
    PointMove x y := by
  cases hp : x.point with
  | registering =>
    simp only [sessionStep,hp] at h
    cases h
    exact ⟨fun _ => .inr hp,.inl,fun hg => by cases hg⟩
  | activating | creating =>
    simp only [sessionStep,hp] at h
    cases h
    exact .stays (by simp [Session.joined,hp]) rfl
  | storingChannel closeSession =>
    simp only [sessionStep,hp] at h
    cases h
    exact .stays (by simp [Session.joined,hp]) rfl
  | storingPlaying closeSession =>
    simp only [sessionStep,hp] at h
    cases h
    have hx : x.joined = true := by simp [Session.joined,hp]
    unfold Session.afterReply
    split <;> exact .stays hx rfl
  | checking =>
    simp only [sessionStep,hp,checkStep] at h
    have hx : x.joined = true := by simp [Session.joined,hp]
    split at h
    · cases h
      exact .leaves rfl rfl rfl
    · cases h
      exact .stays hx rfl
  | popping =>
    simp only [sessionStep,hp] at h
    cases h
    have hx : x.joined = true := by simp [Session.joined,hp]
    unfold popStep
    split
    · split <;> exact .stays hx rfl
    · exact .stays hx rfl
  | disconnecting =>
    simp only [sessionStep,hp] at h
    cases h
    exact .leaves rfl rfl rfl
  | halting =>
    simp only [sessionStep,hp] at h
    cases h
    exact ⟨fun hj => absurd hj Bool.false_ne_true,fun hy => absurd hy Bool.false_ne_true,
      fun _ => .inl rfl⟩
  | closing =>
    simp only [sessionStep,hp] at h
    cases h
    have hx : x.gone = true := by simp [Session.gone,hp]
    split <;> exact .ends hx rfl rfl
  | deactivating | recording =>
    simp only [sessionStep,hp] at h
    cases h
    exact .ends (by simp [Session.gone,hp]) rfl rfl
  | connecting | polling | parsing | sending frame | finished =>
    simp [sessionStep,hp] at h

theorem sessionStep_points (h : sessionStep config running sets x action = some (events,y)) :
    PointMove x y := by
  cases action with
  | connect established =>
    simp only [sessionStep] at h
    split at h
    · cases h
      cases established <;> exact .leaves rfl rfl rfl
    · cases h
  | poll ready =>
    simp only [sessionStep] at h
    split at h
    · rename_i hp
      have hm := @pollStep_points config running x ready (by simp [Session.joined,hp])
      rwa [Option.some.inj h] at hm
    · cases h
  | extract drawn writeOk =>
    simp only [sessionStep] at h
    split at h
    · rename_i hp
      exact extractStep_points hp h
    · cases h
  | send writeOk now wall =>
    simp only [sessionStep] at h
    split at h
    · rename_i hp
      have hx : x.joined = true := by simp [Session.joined,hp]
      cases h
      split <;> exact .stays hx rfl
    · cases h
  | advance => exact advance_points h

end

section

variable {config : LiveRtspServerConfig} {s t : Server} {h ev : List ServerEvent} {a : ServerAction}
  {b : Nat} {x y : Session}

theorem Attached.unexpired (hx : Attached b h s x) (hs : s.sessions[b]? = some x)
    (hl : x.joined = true ∨ x.playing = true) : s.expired b = false := by
  simp only [Server.expired,hs]
  by_contra hc
  have hp : x.point = .finished := by simpa using hc
  rcases hl with hl | hl
  · simp [Session.joined,hp] at hl
  · rw [hx.gone (by simp [Session.gone,hp])] at hl
    cases hl

theorem clients_kept (hs : s.step config a = some (ev,t)) {c : Nat} (hc : c ∈ s.clients)
    (he : s.expired c = false) : c ∈ t.clients := by
  cases a with
  | accept sequence ssrc timestampOrigin =>
    simp only [Server.step,Server.accept] at hs
    split at hs
    · cases hs
    · cases hs
      exact hc
  | session client action =>
    simp only [Server.step,Server.stepSession] at hs
    split at hs
    · cases hs
    · split at hs
      · cases hs
      · obtain ⟨⟨es,z⟩,-,heq⟩ := Option.map_eq_some_iff.mp hs
        cases heq
        simp only
        split
        · exact List.mem_append_left _ hc
        · exact hc
  | onFrame view =>
    simp only [Server.step,Server.onFrame] at hs
    split at hs
    · cases hs
    · split at hs <;> cases hs <;> exact hc
  | frameCall ch =>
    simp only [Server.step,Server.stepCall] at hs
    split at hs
    · cases hs
    · split at hs
      · cases hs
      · cases hs
        simp [hc,he]
    · cases hs
      exact hc
    · simp only [Server.probe] at hs
      split at hs
      · split at hs <;> cases hs <;> exact hc
      · cases hs
        exact hc
    · cases hs
      exact hc
    · cases hs
      exact hc
    · simp only [Server.push] at hs
      split at hs <;> cases hs <;> exact hc
    · cases hs
      exact hc
  | stop =>
    cases hs
    exact hc

theorem registering_listed {action : SessionAction}
    (hs : s.step config (.session b action) = some (ev,t)) (hx : s.sessions[b]? = some x)
    (hp : x.point = .registering) : b ∈ t.clients := by
  simp only [Server.step,Server.stepSession,hx] at hs
  split at hs
  · cases hs
  · obtain ⟨⟨es,z⟩,-,heq⟩ := Option.map_eq_some_iff.mp hs
    cases heq
    simp

theorem chosen_event {k k' : Core} (hm : CoreMove config k a ev k') {f : LiveFrame}
    (he : .chosen b f ∈ ev) :
    ∃ ch call x, k.calls ch = some call ∧ k.sessions[b]? = some x ∧ x.channelId = ch ∧
      k'.sessions = k.sessions := by
  cases hm with
  | chose hcall hx hch =>
    simp only [List.mem_singleton,ServerEvent.chosen.injEq] at he
    obtain ⟨rfl,rfl⟩ := he
    exact ⟨_,_,_,hcall,hx,hch,rfl⟩
  | pushed hcall hx => split at he <;> simp at he
  | _ => simp at he

theorem channel_settled (hc : ControlInv b h x) {events : List SessionEvent}
    (hm : SessionMove x events y) (hne : x.channelId ≠ -1) : y.channelId = x.channelId := by
  cases hm with
  | quiet hq _ | rejected hq _ => exact hq.channelId
  | replied _ _ _ _ _ _ _ _ _ _ hch _ _ _ => exact hch
  | stored _ _ _ hch =>
    rcases hch with hch | hch
    · exact hch
    · rcases hc.stored with hs | ⟨hs,-⟩
      · exact absurd hs hne
      · exact hch.trans hs.symm
  | popped _ hq _ _ _ _ _ | heldBack _ hq _ _ _ _ _ | sent _ _ hq _ _ _ _ _ | closed hq _ _ _ _ =>
    exact hq.channelId

theorem Attached.listed (ha : Attached b h s x) (hx : s.sessions[b]? = some x)
    (hs : s.step config a = some (ev,t)) (hl : x.joined = true ∨ x.playing = true) : b ∈ t.clients := by
  refine clients_kept hs ?_ (ha.unexpired hx hl)
  rcases hl with hl | hl
  · exact ha.joined hl
  · exact ha.playing hl

theorem attached_step (hd : DeliveryInv config h s.core)
    (hi : ∀ x, s.sessions[b]? = some x → Attached b h s x)
    (hs : s.step config a = some (ev,t)) (hy : t.sessions[b]? = some y) : Attached b (h ++ ev) t y := by
  have hm := step_move hs
  have hfresh (hev : ∀ f, .chosen b f ∉ ev) (hold : ∀ f, .chosen b f ∈ h → y.channelId ≠ -1) :
      ∀ f, .chosen b f ∈ h ++ ev → y.channelId ≠ -1 := by
    intro f hf
    rcases List.mem_append.mp hf with hf | hf
    · exact hold f hf
    · exact absurd hf (hev f)
  have hsession := session_change hm hy
  cases hsession with
  | kept hx hev _ =>
    have ha := hi y hx
    refine ⟨fun hj => ha.listed hx hs (.inl hj),fun hp => ha.listed hx hs (.inr hp),ha.gone,fun f hf => ?_⟩
    rcases List.mem_append.mp hf with hf | hf
    · exact ha.settled f hf
    · obtain ⟨ch,call,x',hcall,hx',hch,-⟩ := chosen_event hm hf
      obtain rfl := Option.some.inj (hx'.symm.trans hx)
      rw [hch]
      exact call_channel hd hcall
  | added sequence ssrc timestampOrigin hlen =>
    refine ⟨nofun,nofun,nofun,fun f hf => ?_⟩
    rw [List.append_nil] at hf
    obtain ⟨e,he,hplay⟩ := (hd.cause hf).2.2
    unfold PlayReply at hplay
    split at hplay
    · obtain ⟨rfl,-⟩ := hplay
      exact absurd (hd.known _ _ he) (by omega)
    · exact hplay.elim
  | @stepped x _ action running sets events hx hstep =>
    have ha := hi x hx
    have hp := sessionStep_points hstep
    have listed := ha.listed hx hs
    refine ⟨fun hj => ?_,fun hpl => ?_,fun hg => ?_,hfresh (by simp) fun f hf => ?_⟩
    · rcases hp.joined hj with hj | hreg
      · exact listed (.inl hj)
      · exact registering_listed hs hx hreg
    · rcases hp.playing hpl with hpl | hj
      · exact listed (.inr hpl)
      · exact listed (.inl hj)
    · rcases hp.gone hg with hq | ⟨hg,heq⟩
      · exact hq
      · rw [heq,ha.gone hg]
    · have hne := ha.settled f hf
      rw [channel_settled (hd.session b x hx).control (sessionStep_move hstep).move hne]
      exact hne
  | @pushed ch f before x rest hcall hx =>
    have ha := hi x hx
    refine ⟨fun hj => ha.listed hx hs (.inl hj),fun hp => ha.listed hx hs (.inr hp),ha.gone,
      hfresh (fun g hg => ?_) ha.settled⟩
    split at hg <;> simp at hg

theorem chosen_channel (hd : DeliveryInv config h s.core) (ha : Attached b h s x)
    (hx : s.sessions[b]? = some x) {ch : Int} {call : FrameCall} (hc : s.calls ch = some call)
    (hb : b ∈ call.phase.chosen) : x.channelId = ch := by
  have hcall := hd.call ch call hc
  have hchosen := hcall.chosen b hb
  have hcontrol := (hd.session b x hx).control
  rcases hcontrol.stored with hs | ⟨hs,-⟩
  · exact absurd hs (ha.settled _ hchosen)
  · rw [hs,(hcontrol.played_channel (hd.cause hchosen).2.2).1]
    exact hcall.channel

theorem toward_scanning {rest chosen : List Nat} (hb : b ∉ chosen) :
    (CallPhase.scanning rest chosen .connected).toward b =
      if b ∈ rest then some (.looking .connected) else none := by
  cases rest with
  | nil => simp [CallPhase.toward,hb]
  | cons c rest =>
    by_cases hc : b = c
    · subst hc
      simp [CallPhase.toward,hb]
    · simp [CallPhase.toward,hb,hc]

theorem toward_scanning_chosen {rest chosen : List Nat} {p : Probe} (hb : b ∈ chosen) :
    (CallPhase.scanning rest chosen p).toward b = some .chosen := by
  cases rest <;> simp [CallPhase.toward,hb]

theorem toward_past {c : Nat} {rest chosen : List Nat} {p : Probe} (hc : b ≠ c) :
    (CallPhase.scanning (c :: rest) chosen p).toward b =
      (CallPhase.scanning rest chosen .connected).toward b := by
  by_cases hb : b ∈ chosen
  · rw [toward_scanning_chosen hb,toward_scanning_chosen hb]
  · rw [toward_scanning hb]
    simp [CallPhase.toward,hb,hc]

structure Steady (b : Nat) (x : Session) (s t : Server) : Prop where
  session : t.sessions[b]? = some x
  due : t.dueOf b x = s.dueOf b x

theorem dueOf_setCall {ch : Int} {f : LiveFrame} {p q : CallPhase} {r : Server}
    (hr : r.calls = Function.update s.calls ch (some ⟨f,q⟩)) (hc : s.calls ch = some ⟨f,p⟩)
    (hw : ch = x.channelId → (q.toward b).any x.ready = (p.toward b).any x.ready) :
    r.dueOf b x = s.dueOf b x := by
  unfold Server.dueOf
  rw [hr]
  by_cases hch : ch = x.channelId
  · subst hch
    rw [Function.update_self,hc]
    simp only [Option.bind_some,hw rfl]
  · rw [Function.update_of_ne (Ne.symm hch)]

theorem toward_head {rest chosen : List Nat} {p : Probe} (hb : b ∉ chosen) :
    (CallPhase.scanning (b :: rest) chosen p).toward b = some (.looking p) := by
  simp [CallPhase.toward,hb]

theorem toward_skipped {rest chosen : List Nat} (hb : b ∉ rest ++ chosen) :
    (CallPhase.scanning rest chosen .connected).toward b = none := by
  rw [List.mem_append,not_or] at hb
  rw [toward_scanning hb.2,if_neg hb.1]

theorem probe_steady {ch : Int} {f : LiveFrame} {c : Nat} {rest chosen : List Nat} {p : Probe}
    (hx : s.sessions[b]? = some x) (hc : s.calls ch = some ⟨f,.scanning (c :: rest) chosen p⟩)
    (hn : (c :: rest ++ chosen).Nodup) : Steady b x s (s.probe ch f c rest chosen p).2 := by
  by_cases hb : b = c
  · subst hb
    have hout : b ∉ rest ++ chosen := (List.nodup_cons.mp hn).1
    have hchosen : b ∉ chosen := fun hm => hout (List.mem_append_right _ hm)
    unfold Server.probe
    split
    · rename_i hprobe
      cases p with
      | connected =>
        have hconnected : x.connected = true := by simpa [Server.probes,hx] using hprobe
        refine ⟨hx,dueOf_setCall rfl hc fun _ => ?_⟩
        rw [toward_head hchosen,toward_head hchosen]
        simp [Session.ready,hconnected]
      | playing =>
        have hplaying : x.playing = true := by simpa [Server.probes,hx] using hprobe
        refine ⟨hx,dueOf_setCall rfl hc fun _ => ?_⟩
        rw [toward_head hchosen,toward_head hchosen]
        simp [Session.ready,hplaying]
      | channelId =>
        refine ⟨hx,dueOf_setCall rfl hc fun _ => ?_⟩
        rw [toward_head hchosen,toward_scanning_chosen (by simp)]
        rfl
    · rename_i hprobe
      refine ⟨hx,dueOf_setCall rfl hc fun hch => ?_⟩
      rw [toward_head hchosen,toward_skipped hout]
      cases p with
      | connected =>
        have hconnected : x.connected = false := by simpa [Server.probes,hx] using hprobe
        simp [Session.ready,hconnected]
      | playing =>
        have hplaying : x.playing = false := by simpa [Server.probes,hx] using hprobe
        simp [Session.ready,hplaying]
      | channelId => simp [Server.probes,hx,hch] at hprobe
  · unfold Server.probe
    split
    · cases p with
      | connected | playing =>
        refine ⟨hx,dueOf_setCall rfl hc fun _ => ?_⟩
        rw [toward_past hb,toward_past hb]
      | channelId =>
        refine ⟨hx,dueOf_setCall rfl hc fun _ => ?_⟩
        rw [toward_past hb]
        by_cases hm : b ∈ chosen
        · rw [toward_scanning_chosen hm,toward_scanning_chosen (List.mem_append_left _ hm)]
        · rw [toward_scanning hm,toward_scanning (by simp [hm,hb])]
    · refine ⟨hx,dueOf_setCall rfl hc fun _ => ?_⟩
      rw [toward_past hb]

theorem lock_steady {ch : Int} {f : LiveFrame} (ha : Attached b h s x) (hx : s.sessions[b]? = some x)
    (hc : s.calls ch = some ⟨f,.locking⟩) {r : Server}
    (hr : r.calls = Function.update s.calls ch
      (some ⟨f,.scanning (s.clients.filter fun client => !s.expired client) [] .connected⟩)) :
    r.dueOf b x = s.dueOf b x := by
  refine dueOf_setCall hr hc fun _ => ?_
  rw [toward_scanning (by simp)]
  cases hp : x.playing with
  | false =>
    split <;> simp [CallPhase.toward,Session.ready,hp]
  | true =>
    rw [if_pos (by simp [ha.playing hp,ha.unexpired hx (.inr hp)])]
    rfl

theorem push_due {ch : Int} {f : LiveFrame} {before c : Nat} {rest : List Nat}
    (ha : Attached b h s x) (hd : DeliveryInv config h s.core) (hx : s.sessions[b]? = some x)
    (hc : s.calls ch = some ⟨f,.pushing before c rest⟩) (hn : (c :: rest).Nodup) :
    Steady b x s (s.push ch f before c rest).2 ∨
      ∃ f', s.dueOf b x = some f' ∧ (s.push ch f before c rest).2.sessions[b]? = some (x.pushed f') ∧
        (s.push ch f before c rest).2.dueOf b x = none := by
  have hsame (hb : b ≠ c) : ((CallPhase.recounting before c rest).toward b).any x.ready =
      ((CallPhase.pushing before c rest).toward b).any x.ready := by
    by_cases hm : b ∈ rest <;> simp [CallPhase.toward,CallPhase.chosen,hb,hm]
  by_cases hb : b = c
  · subst hb
    have hch : x.channelId = ch := chosen_channel hd ha hx hc (by simp [CallPhase.chosen])
    have hrest : b ∉ rest := (List.nodup_cons.mp hn).1
    refine .inr ⟨f,?_,?_,?_⟩
    · simp [Server.dueOf,hch,hc,CallPhase.toward,CallPhase.chosen,Session.ready]
    · have hlt := (List.getElem?_eq_some_iff.mp hx).1
      simp only [Server.push,hx,Server.setSession,Server.setCall]
      rw [List.getElem?_set_self hlt]
      rfl
    · simp [Server.push,hx,Server.dueOf,Server.setSession,Server.setCall,hch,CallPhase.toward,
        CallPhase.chosen,hrest]
  · left
    unfold Server.push
    simp only
    split
    · exact ⟨hx,dueOf_setCall rfl hc fun _ => hsame hb⟩
    · refine ⟨?_,dueOf_setCall rfl hc fun _ => hsame hb⟩
      simp only [Server.setSession,Server.setCall]
      rw [List.getElem?_set_ne (Ne.symm hb)]
      exact hx

theorem stepCall_due (hd : DeliveryInv config h s.core) (ha : Attached b h s x)
    (hx : s.sessions[b]? = some x) {ch : Int} (hs : s.stepCall ch = some (ev,t)) :
    Steady b x s t ∨
      ∃ f, s.dueOf b x = some f ∧ t.sessions[b]? = some (x.pushed f) ∧ t.dueOf b x = none := by
  unfold Server.stepCall at hs
  split at hs
  · cases hs
  · rename_i f hc
    split at hs
    · cases hs
    · cases hs
      exact .inl ⟨hx,lock_steady ha hx hc rfl⟩
  · rename_i f chosen p hc
    cases hs
    refine .inl ⟨hx,dueOf_setCall rfl hc fun _ => ?_⟩
    rfl
  · rename_i f c rest chosen p hc
    have hsteady := probe_steady hx hc (hd.call ch _ hc).listed
    rw [Option.some.inj hs] at hsteady
    exact .inl hsteady
  · rename_i f hc
    cases hs
    refine .inl ⟨hx,?_⟩
    unfold Server.dueOf Server.setCall
    by_cases hch : x.channelId = ch
    · simp [hch,hc,CallPhase.toward,CallPhase.chosen]
    · simp [Function.update_of_ne hch]
  · rename_i f c rest hc
    cases hs
    exact .inl ⟨hx,dueOf_setCall rfl hc fun _ => rfl⟩
  · rename_i f before c rest hc
    have hn : (c :: rest).Nodup := (hd.call ch _ hc).listed
    have hpush := push_due ha hd hx hc hn
    rwa [Option.some.inj hs] at hpush
  · rename_i f before c rest hc
    cases hs
    exact .inl ⟨hx,dueOf_setCall rfl hc fun _ => rfl⟩

end

structure Sim (b : Nat) (s : Server) (m : Lone) : Prop where
  running : m.running = s.running
  sets : m.parameterSets = s.parameterSets
  passed : m.passed = s.passed
  absent : s.sessions[b]? = none → m.session = none
  present : ∀ x, s.sessions[b]? = some x → ∃ base k, m.session = some base ∧
    x = base.pushAll (m.coming.take k) ∧ (s.dueOf b x).toList = m.coming.drop k

structure Isolated (config : LiveRtspServerConfig) (b : Nat) (s : Server) (m : Lone) : Prop where
  history : ∃ h, DeliveryInv config h s.core ∧ ∀ x, s.sessions[b]? = some x → Attached b h s x
  sim : Sim b s m

section

variable {config : LiveRtspServerConfig} {s t : Server} {ev : List ServerEvent} {b : Nat}
  {m : Lone} {x : Session}

theorem dueOf_flags {y : Session} (hc : y.connected = x.connected) (hp : y.playing = x.playing)
    (hi : y.channelId = x.channelId) : s.dueOf b y = s.dueOf b x := by
  have hready : y.ready = x.ready := funext fun w => Session.ready_congr hc hp w
  simp only [Server.dueOf,hi,hready]

theorem Sim.congr (hi : Sim b s m) (hr : t.running = s.running)
    (hp : t.parameterSets = s.parameterSets) (hn : t.passed = s.passed)
    (hsession : t.sessions[b]? = s.sessions[b]?)
    (hdue : ∀ x, s.sessions[b]? = some x → t.dueOf b x = s.dueOf b x) : Sim b t m where
  running := hi.running.trans hr.symm
  sets := hi.sets.trans hp.symm
  passed := hi.passed.trans hn.symm
  absent := fun h => hi.absent (hsession ▸ h)
  present := fun x hx => by
    rw [hsession] at hx
    rw [hdue x hx]
    exact hi.present x hx

theorem stepCall_rest {ch : Int} (hs : s.stepCall ch = some (ev,t)) :
    t.running = s.running ∧ t.parameterSets = s.parameterSets ∧ t.passed = s.passed ∧
      t.sessions.length = s.sessions.length := by
  unfold Server.stepCall at hs
  split at hs
  · cases hs
  · split at hs
    · cases hs
    · cases hs
      exact ⟨rfl,rfl,rfl,rfl⟩
  · cases hs
    exact ⟨rfl,rfl,rfl,rfl⟩
  · simp only [Server.probe] at hs
    split at hs
    · split at hs <;> cases hs <;> exact ⟨rfl,rfl,rfl,rfl⟩
    · cases hs
      exact ⟨rfl,rfl,rfl,rfl⟩
  · cases hs
    exact ⟨rfl,rfl,rfl,rfl⟩
  · cases hs
    exact ⟨rfl,rfl,rfl,rfl⟩
  · simp only [Server.push] at hs
    split at hs
    · cases hs
      exact ⟨rfl,rfl,rfl,rfl⟩
    · cases hs
      exact ⟨rfl,rfl,rfl,List.length_set⟩
  · cases hs
    exact ⟨rfl,rfl,rfl,rfl⟩

theorem pushAll_succ {base : Session} {coming : List LiveFrame} {k : Nat} {f : LiveFrame}
    (hdrop : coming.drop k = [f]) :
    base.pushAll (coming.take (k + 1)) = (base.pushAll (coming.take k)).pushed f ∧
      coming.drop (k + 1) = [] := by
  have htake : coming.take (k + 1) = coming.take k ++ [f] := by
    rw [List.take_add,hdrop]
    rfl
  refine ⟨by rw [htake,Session.pushAll,List.foldl_append]; rfl,?_⟩
  rw [← List.drop_drop,hdrop]
  rfl

theorem sim_frameCall (hi : Isolated config b s m) {ch : Int} (hs : s.stepCall ch = some (ev,t)) :
    Sim b t m := by
  obtain ⟨h,hd,ha⟩ := hi.history
  obtain ⟨hr,hp,hn,hlen⟩ := stepCall_rest hs
  cases hx : s.sessions[b]? with
  | none =>
    have ht : t.sessions[b]? = none := by
      rw [List.getElem?_eq_none_iff] at hx ⊢
      omega
    exact hi.sim.congr hr hp hn (ht.trans hx.symm) fun x hx' => by rw [hx] at hx'; cases hx'
  | some x =>
    rcases stepCall_due hd (ha x hx) hx hs with hsteady | ⟨f,hdue,hsession,hdone⟩
    · refine hi.sim.congr hr hp hn (hsteady.session.trans hx.symm) fun x' hx' => ?_
      obtain rfl := Option.some.inj (hx.symm.trans hx')
      exact hsteady.due
    · refine ⟨hi.sim.running.trans hr.symm,hi.sim.sets.trans hp.symm,hi.sim.passed.trans hn.symm,
        fun hnone => ?_,fun y hy => ?_⟩
      · rw [hsession] at hnone
        cases hnone
      · obtain rfl := Option.some.inj (hsession.symm.trans hy)
        obtain ⟨base,k,hbase,rfl,hcoming⟩ := hi.sim.present x hx
        rw [hdue] at hcoming
        obtain ⟨hpush,hdrop⟩ := @pushAll_succ base m.coming k f hcoming.symm
        refine ⟨base,k + 1,hbase,hpush.symm,?_⟩
        have hflags : t.dueOf b ((base.pushAll (m.coming.take k)).pushed f) =
            t.dueOf b (base.pushAll (m.coming.take k)) := dueOf_flags rfl rfl rfl
        rw [hdrop,hflags,hdone]
        rfl

theorem sim_otherSession {c : Nat} {action : SessionAction} (hi : Sim b s m) (hc : c ≠ b)
    (hs : s.stepSession config c action = some (ev,t)) : Sim b t m := by
  unfold Server.stepSession at hs
  split at hs
  · cases hs
  · split at hs
    · cases hs
    · obtain ⟨⟨es,y⟩,-,heq⟩ := Option.map_eq_some_iff.mp hs
      cases heq
      exact hi.congr rfl rfl rfl (List.getElem?_set_ne hc) fun x _ => rfl

theorem sim_own {action : SessionAction} (hi : Isolated config b s m)
    (hs : s.stepSession config b action = some (ev,t)) :
    Sim b t (m.ownStep config action (s.business config b)).2 ∧
      observation b (.session b action) ev t =
        (m.ownStep config action (s.business config b)).1 := by
  obtain ⟨h,hd,-⟩ := hi.history
  unfold Server.stepSession at hs
  split at hs
  · cases hs
  · rename_i x hx
    split at hs
    · cases hs
    · obtain ⟨⟨es,y⟩,hstep,heq⟩ := Option.map_eq_some_iff.mp hs
      cases heq
      obtain ⟨base,k,hbase,hxb,hcoming⟩ := hi.sim.present x hx
      have hdue : base.due (s.business config b) = m.coming.drop k := by
        rw [← hcoming,← due_business hd,hxb,Session.due_pushAll]
      have htake : m.coming.take (m.coming.length - (base.due (s.business config b)).length) =
          m.coming.take k := by
        rw [hdue,List.length_drop]
        by_cases hk : k ≤ m.coming.length
        · congr 1
          omega
        · rw [List.take_of_length_le (by omega),List.take_of_length_le (by omega)]
      have hlt := (List.getElem?_eq_some_iff.mp hx).1
      have hown : m.ownStep config action (s.business config b) =
          ([⟨y,es⟩],{ m with session := some y, coming := y.due (s.business config b) }) := by
        simp only [Lone.ownStep,hbase,htake,← hxb,hi.sim.running,hi.sim.sets,hstep]
      have hevents : (es.map (ServerEvent.session b)).filterMap (ownEvent b) = es := by
        rw [List.filterMap_map]
        simp [Function.comp_def,ownEvent]
      have hget : (s.sessions.set b y)[b]? = some y := List.getElem?_set_self hlt
      rw [hown]
      refine ⟨⟨hi.sim.running,hi.sim.sets,hi.sim.passed,fun hnone => ?_,fun z hz => ?_⟩,?_⟩
      · exact absurd (hget.symm.trans hnone) (Option.some_ne_none y)
      · obtain rfl : y = z := Option.some.inj (hget.symm.trans hz)
        refine ⟨y,0,rfl,rfl,?_⟩
        rw [List.drop_zero,due_business hd]
        rfl
      · simp only [observation,if_true,hevents,Server.setSession,hget]
        rfl

theorem dueOf_entered {ch : Int} {f : LiveFrame} {r : Server}
    (hr : r.calls = Function.update s.calls ch (some ⟨f,.locking⟩)) :
    r.dueOf b x = if x.channelId = ch then if x.ready .entering then some f else none
      else s.dueOf b x := by
  unfold Server.dueOf
  rw [hr]
  by_cases hch : x.channelId = ch
  · rw [hch,Function.update_self,if_pos rfl]
    rfl
  · rw [Function.update_of_ne hch,if_neg hch]

theorem sim_onFrame {view : OwnedLiveFrame} (hi : Sim b s m)
    (hs : s.onFrame config view = some (ev,t)) : Sim b t (m.passFrame config view) := by
  unfold Server.onFrame at hs
  split at hs
  · cases hs
  · rename_i hidle
    simp only at hs
    split at hs
    · rename_i hv
      cases hs
      simp only [Lone.passFrame,hv,if_true]
      refine ⟨hi.running,by rw [hi.sets],by rw [hi.passed],hi.absent,fun x hx => ?_⟩
      obtain ⟨base,k,hbase,hxb,hcoming⟩ := hi.present x hx
      obtain ⟨hc,hp,hch⟩ := @Session.pushAll_flags base (m.coming.take k)
      rw [← hxb] at hc hp hch
      simp only [hbase,← hch,← Session.ready_congr hc hp,hi.passed]
      rw [dueOf_entered rfl]
      by_cases he : x.channelId = view.channelId
      · -- the channel was idle, so nothing was on its way
        have hnone : m.coming.drop k = [] := by
          rw [← hcoming,Server.dueOf,he,hidle]
          rfl
        have hk : m.coming.length ≤ k := List.drop_eq_nil_iff.mp hnone
        refine ⟨base,m.coming.length,rfl,?_,?_⟩
        · rw [List.take_left,hxb,List.take_of_length_le hk]
        · rw [List.drop_left,if_pos he]
          by_cases hready : x.ready .entering = true <;> simp [he,hready]
      · refine ⟨base,k,rfl,?_,?_⟩
        · rw [if_neg (fun hw => he hw.1),List.append_nil,hxb]
        · rw [if_neg he,if_neg (fun hw => he hw.1),List.append_nil,hcoming]
    · rename_i hv
      cases hs
      simp only [Lone.passFrame,hv,Bool.false_eq_true,if_false]
      exact ⟨hi.running,hi.sets,by rw [hi.passed],hi.absent,hi.present⟩

theorem sim_accept {sequence : UInt16} {ssrc origin : UInt32} (hi : Isolated config b s m)
    (hs : s.accept config sequence ssrc origin = some (ev,t)) :
    Sim b t (replay (Lone.step config) m (seenBy config b s (.accept sequence ssrc origin))).2 := by
  obtain ⟨h,hd,-⟩ := hi.history
  unfold Server.accept at hs
  split at hs
  · cases hs
  · cases hs
    by_cases hb : s.sessions.length = b
    · have hget : (s.sessions ++ [newSession config sequence ssrc origin])[b]? =
          some (newSession config sequence ssrc origin) := by
        rw [← hb]
        exact List.getElem?_concat_length
      have hdue : s.dueOf b (newSession config sequence ssrc origin) = none := by
        cases hc : s.calls (-1) with
        | none => simp only [Server.dueOf,newSession,hc,Option.bind_none]
        | some call => exact absurd rfl (call_channel hd hc)
      simp only [seenBy,if_pos hb,replay,Lone.step]
      refine ⟨hi.sim.running,hi.sim.sets,hi.sim.passed,fun hnone => ?_,fun x hx => ?_⟩
      · exact absurd (hget.symm.trans hnone) (Option.some_ne_none _)
      · obtain rfl := Option.some.inj (hget.symm.trans hx)
        exact ⟨_,0,rfl,rfl,congrArg Option.toList hdue⟩
    · simp only [seenBy,if_neg hb,replay]
      refine hi.sim.congr rfl rfl rfl ?_ fun _ _ => rfl
      show (s.sessions ++ [newSession config sequence ssrc origin])[b]? = s.sessions[b]?
      grind

theorem lone_replays (config : LiveRtspServerConfig) (b : Nat) :
    Replays (Server.step config) (seenBy config b) (observation b) (Lone.step config)
      (Isolated config b) where
  next := by
    intro s m a events t hi hs
    obtain ⟨h,hd,ha⟩ := hi.history
    have hhistory : ∃ h, DeliveryInv config h t.core ∧
        ∀ x, t.sessions[b]? = some x → Attached b h t x :=
      ⟨h ++ events,delivery_step hd (step_move hs),fun x hx => attached_step hd ha hs hx⟩
    cases a with
    | accept sequence ssrc origin =>
      refine ⟨⟨hhistory,sim_accept hi hs⟩,?_⟩
      simp only [seenBy]
      split <;> rfl
    | session c action =>
      by_cases hc : c = b
      · subst hc
        obtain ⟨hsim,hout⟩ := sim_own hi hs
        simp only [seenBy,if_true,replay,Lone.step,List.append_nil]
        exact ⟨⟨hhistory,hsim⟩,hout⟩
      · simp only [seenBy,if_neg hc,replay,observation]
        exact ⟨⟨hhistory,sim_otherSession hi.sim hc hs⟩,trivial⟩
    | onFrame view => exact ⟨⟨hhistory,sim_onFrame hi.sim hs⟩,rfl⟩
    | frameCall ch => exact ⟨⟨hhistory,sim_frameCall hi hs⟩,rfl⟩
    | stop =>
      cases hs
      exact ⟨⟨hhistory,⟨rfl,hi.sim.sets,hi.sim.passed,hi.sim.absent,hi.sim.present⟩⟩,rfl⟩

theorem isolated_start : Isolated config b {} {} where
  history := ⟨[],delivery_start,fun x hx => by simp at hx⟩
  sim := ⟨rfl,rfl,rfl,fun _ => rfl,fun x hx => by simp at hx⟩

end

theorem other_clients_do_not_matter (config : LiveRtspServerConfig) (b b' : Nat)
    (actions actions' : List ServerAction)
    (h : trace (Server.step config) (seenBy config b) {} actions =
      trace (Server.step config) (seenBy config b') {} actions') :
    observed (Server.step config) (observation b) {} actions =
      observed (Server.step config) (observation b') {} actions' := by
  rw [(lone_replays config b).observed_eq isolated_start actions,
    (lone_replays config b').observed_eq isolated_start actions',h]

def SessionAction.same : SessionAction → SessionAction → Bool
  | .connect ok,.connect ok' => ok == ok'
  | .advance,.advance => true
  | .poll ready,.poll ready' => ready == ready'
  | .extract drawn ok,.extract drawn' ok' => drawn == drawn' && ok == ok'
  | _,_ => false

def Seen.same : Seen → Seen → Bool
  | .accepted sequence ssrc origin,.accepted sequence' ssrc' origin' =>
      sequence == sequence' && ssrc == ssrc' && origin == origin'
  | .own action business,.own action' business' => action.same action' && business == business'
  | .passed view,.passed view' => view == view'
  | .stopped,.stopped => true
  | _,_ => false

theorem SessionAction.eq_of_same {a a' : SessionAction} (h : a.same a' = true) : a = a' := by
  cases a <;> cases a' <;> simp_all [SessionAction.same]

theorem Seen.eq_of_same {e e' : Seen} (h : e.same e' = true) : e = e' := by
  cases e <;> cases e' <;> simp_all [Seen.same]
  exact SessionAction.eq_of_same h.1

def asClient (c : Nat) : ServerAction → ServerAction
  | .session _ action => .session c action
  | a => a

def takingOne : List ServerAction :=
  [.session 0 (.poll none),advance]

def besideStalled : List ServerAction :=
  joining ++ joining.map (asClient 1) ++ passing true ++ List.replicate 9 (.frameCall 1) ++
    takingOne.map (asClient 1)

theorem stalled_client_does_not_matter :
    trace (Server.step (oneChannel 30)) (seenBy (oneChannel 30) 0) {}
        (joining ++ passing true ++ takingOne) =
      trace (Server.step (oneChannel 30)) (seenBy (oneChannel 30) 1) {} besideStalled ∧
    ((observed (Server.step (oneChannel 30)) (observation 1) {} besideStalled).map fun o =>
      o.session.queue.frames.length).reverse.take 2 = [0,1] ∧
    observed (Server.step (oneChannel 30)) (observation 0) {}
        (joining ++ passing true ++ takingOne) =
      observed (Server.step (oneChannel 30)) (observation 1) {} besideStalled := by
  have hseen : List.Forall₂ (fun e e' => Seen.same e e' = true)
      (trace (Server.step (oneChannel 30)) (seenBy (oneChannel 30) 0) {}
        (joining ++ passing true ++ takingOne))
      (trace (Server.step (oneChannel 30)) (seenBy (oneChannel 30) 1) {} besideStalled) := by
    decide +kernel
  have heq := List.forall₂_eq_eq_eq ▸ hseen.imp fun _ _ => Seen.eq_of_same
  exact ⟨heq,by decide +kernel,other_clients_do_not_matter _ 0 1 _ _ heq⟩

end RpiVms

import RpiVms.Live.Changes
import Mathlib.Data.List.Sort

namespace RpiVms

open Search Runs

def Cause (config : LiveRtspServerConfig) (pre : List ServerEvent) : ServerEvent → Prop
  | .passed f => ∀ g, .passed g ∈ pre → g.serial < f.serial
  | .chosen c f => .passed f ∈ pre ∧ acceptsFrame config f.frame = true ∧
      Played c f.frame.channelId pre
  | .queued c f => .chosen c f ∈ pre
  | .session c (.sent f _) => .chosen c f ∈ pre ∧ (∀ g ∈ sentFrames c pre, g.serial < f.serial) ∧
      (sentFrames c pre = [] → f.frame.keyFrame = true)
  | .session c (.replied _ result control _) => result.startPlay = true → SetUp c control.channelId pre
  | .session _ .rejected => True

structure CallInv (config : LiveRtspServerConfig) (ch : Int) (h : List ServerEvent) (k : Core)
    (call : FrameCall) : Prop where
  channel : call.frame.frame.channelId = ch
  passed : .passed call.frame ∈ h
  accepted : acceptsFrame config call.frame.frame = true
  chosen : ∀ c ∈ call.phase.chosen, .chosen c call.frame ∈ h
  listed : call.phase.listed.Nodup
  probed : ∀ c, call.phase.probing = some c → ∃ d, Played c d h
  ahead : ∀ c x, k.sessions[c]? = some x → call.phase.Pending c →
    ∀ g ∈ lineOf c h x, g.frame.channelId = ch → g.serial < call.frame.serial

structure ClientInv (c : Nat) (h : List ServerEvent) (k : Core) (x : Session) : Prop where
  control : ControlInv c h x
  gate : GateShut c h x
  ordered : (lineOf c h x).Pairwise (·.serial < ·.serial)
  taken : ∀ f ∈ lineOf c h x, .chosen c f ∈ h
  unlisted : x.registered = false → c ∉ k.clients

structure DeliveryInv (config : LiveRtspServerConfig) (h : List ServerEvent) (k : Core) : Prop where
  history : Justified (Cause config) h
  known : ∀ c e, .session c e ∈ h → c < k.sessions.length
  fresh : ∀ f, .passed f ∈ h → f.serial < k.passed
  clients : k.clients.Nodup ∧ ∀ c ∈ k.clients, c < k.sessions.length
  session : ∀ c x, k.sessions[c]? = some x → ClientInv c h k x
  call : ∀ ch call, k.calls ch = some call → CallInv config ch h k call

section

variable {config : LiveRtspServerConfig} {h ev : List ServerEvent} {k k' : Core} {a : ServerAction}
  {c : Nat}

theorem DeliveryInv.cause (hi : DeliveryInv config h k) {f : LiveFrame} (he : .chosen c f ∈ h) :
    .passed f ∈ h ∧ acceptsFrame config f.frame = true ∧ Played c f.frame.channelId h := by
  obtain ⟨pre,post,rfl⟩ := List.append_of_mem he
  obtain ⟨hp,ha,hplay⟩ := hi.history pre _ post rfl
  exact ⟨List.mem_append_left _ hp,ha,hplay.mono⟩

theorem DeliveryInv.unsent (hi : DeliveryInv config h k) (hc : k.sessions.length ≤ c) :
    sentFrames c h = [] :=
  sentFrames_unknown fun e he => absurd (hi.known c e he) (by omega)

theorem lineOf_kept {x : Session} (hev : ∀ e, .session c e ∉ ev) :
    lineOf c (h ++ ev) x = lineOf c h x := by
  rw [lineOf,lineOf,sentFrames_silent hev]

theorem lineOf_pushed {x : Session} {f : LiveFrame} :
    (lineOf c (h ++ if x.queue.accepts f then [ServerEvent.queued c f] else [])
      { x with queue := (x.queue.push (some f)).2 }).Sublist (lineOf c h x ++ [f]) := by
  rw [lineOf_kept queued_silent,lineOf,lineOf,List.append_assoc]
  exact List.Sublist.append_left push_line _

theorem line_mem (hi : DeliveryInv config h k) {y : Session} (hs : SessionChange config k c a ev y)
    {g : LiveFrame} (hg : g ∈ lineOf c (h ++ ev) y) :
    (∃ x, k.sessions[c]? = some x ∧ g ∈ lineOf c h x) ∨
      ∃ ch before rest, k.calls ch = some ⟨g,.pushing before c rest⟩ ∧ .queued c g ∈ ev := by
  cases hs with
  | kept hx hev _ =>
    rw [lineOf_kept hev] at hg
    exact .inl ⟨y,hx,hg⟩
  | added _ _ _ hc =>
    rw [List.append_nil,lineOf,hi.unsent hc.ge] at hg
    exact absurd hg List.not_mem_nil
  | stepped hx hstep => exact .inl ⟨_,hx,(session_line (sessionStep_move hstep).move).subset hg⟩
  | @pushed ch f before x rest hcall hx =>
    cases ha : x.queue.accepts f with
    | false =>
      rw [lineOf_kept queued_silent,lineOf,push_refused_line ha] at hg
      exact .inl ⟨x,hx,hg⟩
    | true =>
      rcases List.mem_append.mp (lineOf_pushed.subset hg) with hg | hg
      · exact .inl ⟨x,hx,hg⟩
      · obtain rfl := List.mem_singleton.mp hg
        exact .inr ⟨ch,before,rest,hcall,by simp⟩

theorem DeliveryInv.one_channel (hi : DeliveryInv config h k) {x : Session}
    (hx : k.sessions[c]? = some x) {f g : LiveFrame} (hf : .chosen c f ∈ h) (hg : .chosen c g ∈ h) :
    g.frame.channelId = f.frame.channelId := by
  have hcontrol := (hi.session c x hx).control
  exact (hcontrol.played_channel (hi.cause hg).2.2).1.symm.trans
    (hcontrol.played_channel (hi.cause hf).2.2).1

theorem DeliveryInv.behind (hi : DeliveryInv config h k) {ch : Int} {f : LiveFrame} {before : Nat}
    {rest : List Nat} {x : Session} (hcall : k.calls ch = some ⟨f,.pushing before c rest⟩)
    (hx : k.sessions[c]? = some x) : ∀ g ∈ lineOf c h x, g.serial < f.serial := by
  intro g hg
  have hc := hi.call ch _ hcall
  have hchosen := hc.chosen c List.mem_cons_self
  refine hc.ahead c x hx List.mem_cons_self g hg ?_
  rw [hi.one_channel hx hchosen ((hi.session c x hx).taken g hg)]
  exact hc.channel

theorem client_ordered (hi : DeliveryInv config h k) {y : Session}
    (hs : SessionChange config k c a ev y) : (lineOf c (h ++ ev) y).Pairwise (·.serial < ·.serial) := by
  cases hs with
  | kept hx hev _ =>
    rw [lineOf_kept hev]
    exact (hi.session c y hx).ordered
  | added _ _ _ hc =>
    rw [List.append_nil,lineOf,hi.unsent hc.ge]
    exact List.Pairwise.nil
  | stepped hx hstep => exact (hi.session c _ hx).ordered.sublist (session_line (sessionStep_move hstep).move)
  | @pushed ch f before x rest hcall hx =>
    refine List.Pairwise.sublist lineOf_pushed (List.pairwise_append.mpr ⟨?_,?_,?_⟩)
    · exact (hi.session c x hx).ordered
    · exact List.pairwise_singleton _ _
    · intro g hg b hb
      obtain rfl := List.mem_singleton.mp hb
      exact hi.behind hcall hx g hg

theorem client_taken (hi : DeliveryInv config h k) {y : Session}
    (hs : SessionChange config k c a ev y) : ∀ f ∈ lineOf c (h ++ ev) y, .chosen c f ∈ h ++ ev := by
  intro f hf
  refine List.mem_append_left ev ?_
  rcases line_mem hi hs hf with ⟨x,hx,hf⟩ | ⟨ch,before,rest,hcall,-⟩
  · exact (hi.session c x hx).taken f hf
  · exact (hi.call ch _ hcall).chosen c List.mem_cons_self

theorem client_control (hi : DeliveryInv config h k) {y : Session}
    (hs : SessionChange config k c a ev y) : ControlInv c (h ++ ev) y := by
  cases hs with
  | kept hx hev _ => exact (hi.session c y hx).control.mono fun _ _ _ _ => hev _
  | added sequence ssrc timestampOrigin hc =>
    rw [List.append_nil]
    refine ⟨fun _ _ _ _ he => ?_,.inl rfl,nofun,nofun,nofun⟩
    exact absurd (hi.known c _ he) (by omega)
  | stepped hx hstep => exact (hi.session c _ hx).control.move (sessionStep_move hstep).move
  | @pushed ch f before x rest hcall hx =>
    obtain ⟨hb,hst,hr,hs,hp⟩ := (hi.session c x hx).control.mono fun _ _ _ _ => queued_silent _
    exact ⟨hb,hst,hr,hs,hp⟩

theorem client_gate (hi : DeliveryInv config h k) {y : Session}
    (hs : SessionChange config k c a ev y) : GateShut c (h ++ ev) y := by
  have silent {x : Session} (hx : GateShut c h x) (hev : ∀ e, .session c e ∉ ev) :
      GateShut c (h ++ ev) x := by
    rwa [GateShut,sentFrames_silent hev]
  cases hs with
  | kept hx hev _ => exact silent (hi.session c y hx).gate hev
  | added sequence ssrc timestampOrigin hc =>
    rw [List.append_nil,GateShut,hi.unsent hc.ge]
    exact ⟨fun _ => rfl,fun _ => rfl⟩
  | stepped hx hstep => exact session_gate (hi.session c _ hx).gate (sessionStep_move hstep).move
  | @pushed ch f before x rest hcall hx => exact silent (hi.session c x hx).gate queued_silent

theorem client_unlisted (hi : DeliveryInv config h k) (hm : CoreMove config k a ev k') {x : Session}
    (hx : k'.sessions[c]? = some x) (hr : x.registered = false) : c ∉ k'.clients := by
  have old (hx : k.sessions[c]? = some x) : c ∉ k.clients := (hi.session c x hx).unlisted hr
  cases hm with
  | idle | ignored _ | passed _ _ _ | chose _ _ _ | returned _ => exact old hx
  | accepted _ _ _ =>
    rw [List.getElem?_append] at hx
    split at hx
    · exact old hx
    · rename_i hlen
      exact fun hmem => hlen (hi.clients.2 c hmem)
  | @session d x' y action running sets events clients hd hstep hcl =>
    subst hcl
    rcases getElem?_set_some hx with ⟨rfl,rfl⟩ | ⟨hne,hx⟩
    · rcases (sessionStep_move hstep).registered with hreg | hp
      · rw [hr] at hreg
        cases hreg
      · have hun : x'.registered = false := by simp [Session.registered,hp]
        simpa [hp] using (hi.session d x' hd).unlisted hun
    · dsimp only
      split
      · simpa using ⟨old hx,Ne.symm hne⟩
      · exact old hx
  | onward _ ho => exact fun hmem => old hx (ho.sublist.subset hmem)
  | @pushed ch f before d x' rest _ hd =>
    rcases getElem?_set_some hx with ⟨rfl,rfl⟩ | ⟨-,hx⟩
    · exact (hi.session d x' hd).unlisted hr
    · exact old hx

theorem sessions_length (hm : CoreMove config k a ev k') : k.sessions.length ≤ k'.sessions.length := by
  cases hm with
  | accepted _ _ _ => simp
  | session _ _ _ => simp [Core.setSession]
  | pushed _ _ => simp [Core.setSession,Core.setCall]
  | _ => exact Nat.le_refl _

theorem clients_step (hi : DeliveryInv config h k) (hm : CoreMove config k a ev k') :
    k'.clients.Nodup ∧ ∀ c ∈ k'.clients, c < k'.sessions.length := by
  obtain ⟨hnodup,hbound⟩ := hi.clients
  have hlen := sessions_length hm
  have bound : ∀ c ∈ k.clients, c < k'.sessions.length := fun c hc => (hbound c hc).trans_le hlen
  cases hm with
  | idle | accepted _ _ _ | ignored _ | passed _ _ _ | chose _ _ _ | returned _ | pushed _ _ =>
    exact ⟨hnodup,bound⟩
  | @session d x' y action running sets events clients hd hstep hcl =>
    subst hcl
    split
    · rename_i hp
      have hun : x'.registered = false := by simp [Session.registered,hp]
      have hnew : d ∉ k.clients := (hi.session d x' hd).unlisted hun
      refine ⟨List.nodup_append.mpr ⟨hnodup,List.pairwise_singleton _ d,?_⟩,fun c hc => ?_⟩
      · intro c hc e he heq
        rw [heq,List.mem_singleton.mp he] at hc
        exact hnew hc
      rcases List.mem_append.mp hc with hc | hc
      · exact bound c hc
      · obtain rfl := List.mem_singleton.mp hc
        exact (List.getElem?_eq_some_iff.mp hd).1.trans_le hlen
    · exact ⟨hnodup,bound⟩
  | onward _ ho => exact ⟨ho.sublist.nodup hnodup,fun c hc => bound c (ho.sublist.subset hc)⟩

theorem known_step (hi : DeliveryInv config h k) (hm : CoreMove config k a ev k') :
    ∀ c e, .session c e ∈ h ++ ev → c < k'.sessions.length := by
  intro c e he
  have hlen := sessions_length hm
  rcases List.mem_append.mp he with he | he
  · exact (hi.known c e he).trans_le hlen
  · cases hm with
    | session hd _ _ =>
      obtain ⟨e',-,heq⟩ := List.mem_map.mp he
      cases heq
      exact (List.getElem?_eq_some_iff.mp hd).1.trans_le hlen
    | pushed _ _ => exact absurd he (by split <;> simp)
    | _ => simp at he

theorem fresh_step (hi : DeliveryInv config h k) (hm : CoreMove config k a ev k') :
    ∀ f, .passed f ∈ h ++ ev → f.serial < k'.passed := by
  intro f hf
  rcases List.mem_append.mp hf with hf | hf
  · have hold := hi.fresh f hf
    cases hm with
    | ignored _ => exact hold.trans (Nat.lt_succ_self _)
    | passed _ _ _ => exact hold.trans (Nat.lt_succ_self _)
    | _ => exact hold
  · cases hm with
    | ignored _ | passed _ _ _ =>
      obtain rfl := ServerEvent.passed.inj (List.mem_singleton.mp hf)
      exact Nat.lt_succ_self _
    | pushed _ _ => exact absurd hf (by split <;> simp)
    | _ => simp at hf

theorem call_ahead (hi : DeliveryInv config h k) (hm : CoreMove config k a ev k') {ch : Int}
    {call : FrameCall} (hc : CallChange config k ch ev call) {x : Session}
    (hx : k'.sessions[c]? = some x) (hpend : call.phase.Pending c) {g : LiveFrame}
    (hg : g ∈ lineOf c (h ++ ev) x) (hgc : g.frame.channelId = ch) : g.serial < call.frame.serial := by
  rcases line_mem hi (session_change hm hx) hg with ⟨x',hx',hl⟩ | ⟨ch',before,rest,hcall,hev⟩
  · cases hc with
    | kept hold _ => exact (hi.call ch _ hold).ahead c x' hx' hpend g hl hgc
    | called view _ _ =>
      have hchosen := (hi.session c x' hx').taken g hl
      exact hi.fresh g (hi.cause hchosen).1
    | onward hold ho => exact (hi.call ch _ hold).ahead c x' hx' (ho.pending hpend) g hl hgc
    | chose hold => exact (hi.call ch _ hold).ahead c x' hx' trivial g hl hgc
    | pushed hold _ =>
      exact (hi.call ch _ hold).ahead c x' hx' (List.mem_cons_of_mem _ hpend) g hl hgc
  · obtain rfl : ch' = ch := (hi.call ch' _ hcall).channel.symm.trans hgc
    cases hc with
    | kept hold hne => exact absurd hgc (hne c g hev)
    | called view _ _ => simp at hev
    | onward hold ho => simp at hev
    | chose hold => simp at hev
    | pushed hold hsame =>
      obtain rfl := hsame c g hev
      rw [hcall] at hold
      cases hold
      exact absurd hpend (List.nodup_cons.mp (hi.call ch' _ hcall).listed).1

theorem call_step (hi : DeliveryInv config h k) (hm : CoreMove config k a ev k') {ch : Int}
    {call : FrameCall} (hcall : k'.calls ch = some call) : CallInv config ch (h ++ ev) k' call := by
  have hc := call_change (fun ch call h => (hi.call ch call h).channel) hm hcall
  have ahead : ∀ c x, k'.sessions[c]? = some x → call.phase.Pending c →
      ∀ g ∈ lineOf c (h ++ ev) x, g.frame.channelId = ch → g.serial < call.frame.serial :=
    fun c x hx hpend g hg hgc => call_ahead hi hm hc hx hpend hg hgc
  cases hc with
  | kept hold _ =>
    have ho := hi.call ch _ hold
    refine ⟨ho.channel,List.mem_append_left _ ho.passed,ho.accepted,?_,ho.listed,?_,ahead⟩
    · exact fun c hc => List.mem_append_left _ (ho.chosen c hc)
    · exact fun c hc => (ho.probed c hc).imp fun _ => Played.mono
  | called view ha hch => exact ⟨hch,by simp,ha,nofun,List.nodup_nil,nofun,ahead⟩
  | onward hold honward =>
    have ho := hi.call ch _ hold
    refine ⟨ho.channel,List.mem_append_left _ ho.passed,ho.accepted,?_,?_,?_,ahead⟩
    · exact fun c hc => List.mem_append_left _ (ho.chosen c (honward.chosen hc))
    · exact honward.listed hi.clients.1 ho.listed
    · intro c hc
      obtain ⟨x,hx,hplay⟩ := honward.probing hc
      exact ⟨_,((hi.session c x hx).control.playing hplay).mono⟩
  | @chose f c rest chosen hold =>
    have ho := hi.call ch _ hold
    refine ⟨ho.channel,List.mem_append_left _ ho.passed,ho.accepted,?_,?_,?_,ahead⟩
    · intro d hd
      rcases List.mem_append.mp hd with hd | hd
      · exact List.mem_append_left _ (ho.chosen d hd)
      · obtain rfl := List.mem_singleton.mp hd
        simp
    · have hperm : (rest ++ (chosen ++ [c])).Perm (c :: rest ++ chosen) := by
        rw [← List.append_assoc]
        exact List.perm_append_comm
      exact hperm.nodup_iff.mpr ho.listed
    · intro d hd
      cases rest <;> cases hd
  | pushed hold _ =>
    have ho := hi.call ch _ hold
    refine ⟨ho.channel,List.mem_append_left _ ho.passed,ho.accepted,?_,?_,nofun,ahead⟩
    · exact fun d hd => List.mem_append_left _ (ho.chosen d (List.mem_cons_of_mem _ hd))
    · exact (List.nodup_cons.mp ho.listed).2

theorem chosen_cause (hi : DeliveryInv config h k) {ch : Int} {f : LiveFrame} {rest chosen : List Nat}
    {x : Session} (hcall : k.calls ch = some ⟨f,.scanning (c :: rest) chosen .channelId⟩)
    (hx : k.sessions[c]? = some x) (hch : x.channelId = ch) : Cause config h (.chosen c f) := by
  have hc := hi.call ch _ hcall
  refine ⟨hc.passed,hc.accepted,?_⟩
  obtain ⟨d,hplay⟩ := hc.probed c rfl
  have hcontrol := (hi.session c x hx).control
  have hd : x.control.channelId = d := (hcontrol.played_channel hplay).1
  have hreg : x.channelId ≠ -1 := by
    have ha := hc.accepted
    rw [acceptsFrame,hc.channel] at ha
    intro hneg
    cases hr : registeredChannel config.channels ch with
    | none => simp [hr] at ha
    | some channel =>
      have hrange := config.inRange channel (List.mem_of_find?_eq_some hr)
      have hid : channel.channelId = ch := by simpa using List.find?_some hr
      rw [hid,← hch,hneg] at hrange
      exact absurd hrange.1 (by decide)
  have hsame : x.channelId = x.control.channelId := (hcontrol.stored.resolve_left hreg).1
  rw [hc.channel,← hch,hsame,hd]
  exact hplay

theorem sent_cause (hi : DeliveryInv config h k) {x : Session} (hx : k.sessions[c]? = some x)
    {f : LiveFrame} {result : SendResult} (hf : x.inFlight = [f])
    (hb : holdsBack x.rtp f.frame = false) : Cause config h (.session c (.sent f result)) := by
  have hc := hi.session c x hx
  have hline : lineOf c h x = sentFrames c h ++ f :: x.queue.frames := by
    rw [lineOf,Session.pipeline,hf,List.singleton_append]
  have hord := hc.ordered
  rw [hline] at hord
  refine ⟨hc.taken f (by simp [hline]),fun g hg => ?_,fun hnone => ?_⟩
  · exact (List.pairwise_append.mp hord).2.2 g hg f List.mem_cons_self
  · simpa [holdsBack,hc.gate.mpr hnone] using hb

theorem session_history (hi : DeliveryInv config h k) {x y : Session} {events : List SessionEvent}
    (hx : k.sessions[c]? = some x) (hm : SessionMove x events y) :
    Justified (Cause config) (h ++ events.map (.session c)) := by
  cases hm with
  | quiet _ _ | stored _ _ _ _ | popped _ _ _ _ _ _ _ | heldBack _ _ _ _ _ _ _ | closed _ _ _ _ _ =>
    simpa using hi.history
  | rejected _ _ => exact justified_snoc hi.history trivial
  | replied id request codec fmtp result control written hh _ _ _ _ _ _ =>
    refine justified_snoc hi.history fun hs => ?_
    obtain ⟨hready,hch,-⟩ := @handled_play id request fmtp codec x.control control result c hh hs
    rw [hch]
    exact (hi.session c x hx).control.ready hready
  | sent f result _ _ _ hf hb _ => exact justified_snoc hi.history (sent_cause hi hx hf hb)

theorem history_step (hi : DeliveryInv config h k) (hm : CoreMove config k a ev k') :
    Justified (Cause config) (h ++ ev) := by
  cases hm with
  | idle | accepted _ _ _ | onward _ _ | returned _ => simpa using hi.history
  | session hx hstep _ => exact session_history hi hx (sessionStep_move hstep).move
  | ignored _ | passed _ _ _ => exact justified_snoc hi.history fun g hg => hi.fresh g hg
  | chose hcall hx hch => exact justified_snoc hi.history (chosen_cause hi hcall hx hch)
  | pushed hcall _ =>
    split
    · exact justified_snoc hi.history ((hi.call _ _ hcall).chosen _ List.mem_cons_self)
    · simpa using hi.history

theorem delivery_step (hi : DeliveryInv config h k) (hm : CoreMove config k a ev k') :
    DeliveryInv config (h ++ ev) k' where
  history := history_step hi hm
  known := known_step hi hm
  fresh := fresh_step hi hm
  clients := clients_step hi hm
  session := fun _ _ hx =>
    have hs := session_change hm hx
    ⟨client_control hi hs,client_gate hi hs,client_ordered hi hs,client_taken hi hs,
      client_unlisted hi hm hx⟩
  call := fun _ _ hcall => call_step hi hm hcall

theorem delivery_start : DeliveryInv config [] ({} : Server).core where
  history := justified_nil
  known := fun _ _ he => absurd he List.not_mem_nil
  fresh := fun _ he => absurd he List.not_mem_nil
  clients := ⟨List.nodup_nil,fun _ hc => absurd hc List.not_mem_nil⟩
  session := fun c x hx => by simp [Server.core] at hx
  call := fun ch call hcall => by simp [Server.core] at hcall

theorem conditioned_run {P : List ServerEvent → Server → ServerAction → Prop}
    {Inv : List ServerEvent → Core → Prop} {actions : List ServerAction}
    (hp : Along (Server.step config) P ([],{}) actions) (hstart : Inv [] ({} : Server).core)
    (hstep : ∀ h s a ev k', DeliveryInv config h s.core → Inv h s.core → P h s a →
      CoreMove config s.core a ev k' → Inv (h ++ ev) k') :
    Inv (serverRun config actions).1 (serverRun config actions).2.core := by
  have hi := @run_keeps_along _ _ _ (Server.step config) P
    (fun h s => DeliveryInv config h s.core ∧ Inv h s.core)
    (fun h s a ev _ ⟨hd,hi⟩ hq heq =>
      ⟨delivery_step hd (step_move heq),hstep h s a ev _ hd hi hq (step_move heq)⟩)
    ([],{}) actions hp ⟨delivery_start,hstart⟩
  exact hi.2

theorem delivery_run (config : LiveRtspServerConfig) (actions : List ServerAction) :
    DeliveryInv config (serverRun config actions).1 (serverRun config actions).2.core :=
  @run_keeps _ _ _ (Server.step config) (fun h s => DeliveryInv config h s.core)
    (fun _ _ _ _ _ hi heq => delivery_step hi (step_move heq)) ([],{}) actions delivery_start

end

structure Delivered (config : LiveRtspServerConfig) (c : Nat) (ch : Int) (h : List ServerEvent) :
    Prop where
  inOrder : (sentFrames c h).Sublist (passedFrames ch h)
  once : (sentFrames c h).Nodup
  matching : ∀ f ∈ sentFrames c h, f.frame.channelId = ch ∧
    ∃ channel, registeredChannel config.channels ch = some channel ∧ f.frame.codec = channel.codec
  keyFirst : ∀ f, (sentFrames c h).head? = some f → f.frame.keyFrame = true
  afterPlay : ∀ pre f result post, h = pre ++ .session c (.sent f result) :: post →
    ∃ a play b d, pre = a ++ play :: (b ++ .chosen c f :: d) ∧ PlayReply c ch play ∧ SetUp c ch a

section

variable {config : LiveRtspServerConfig} {h : List ServerEvent} {c : Nat} {ch : Int}

theorem sent_increasing (hj : Justified (Cause config) h) :
    (sentFrames c h).Pairwise (·.serial < ·.serial) := by
  refine hj.pairwise fun pre e f hc he g hg => ?_
  obtain ⟨result,rfl⟩ := sentFrame_some he
  exact hc.2.1 g hg

theorem passed_increasing (hj : Justified (Cause config) h) :
    (passedFrames ch h).Pairwise (·.serial < ·.serial) := by
  refine hj.pairwise fun pre e f hc he g hg => ?_
  obtain ⟨rfl,-⟩ := passedFrame_some he
  exact hc g (mem_passedFrames.mp hg).1

theorem first_key (hj : Justified (Cause config) h) {f : LiveFrame}
    (hf : (sentFrames c h).head? = some f) : f.frame.keyFrame = true := by
  refine @Justified.first _ _ _ h (sentFrame c) (·.frame.keyFrame = true) hj ?_ f hf
  intro pre e g hc he hnone
  obtain ⟨result,rfl⟩ := sentFrame_some he
  exact hc.2.2 hnone

theorem increasing_nodup {l : List LiveFrame} (hl : l.Pairwise (·.serial < ·.serial)) : l.Nodup :=
  hl.imp fun hlt heq => absurd hlt (by rw [heq]; exact lt_irrefl _)

theorem increasing_sublist {l m : List LiveFrame} (hl : l.Pairwise (·.serial < ·.serial))
    (hm : m.Pairwise (·.serial < ·.serial)) (hsub : l ⊆ m) : l.Sublist m := by
  have : Std.Antisymm (fun f g : LiveFrame => f.serial < g.serial) := ⟨fun _ _ h k => absurd h (by omega)⟩
  exact List.sublist_of_subperm_of_pairwise (List.subperm_of_subset (increasing_nodup hl) hsub) hl hm

theorem acceptsFrame_codec {view : OwnedLiveFrame} (ha : acceptsFrame config view = true) :
    ∃ channel, registeredChannel config.channels view.channelId = some channel ∧
      view.codec = channel.codec := by
  simp only [acceptsFrame,Bool.and_eq_true] at ha
  split at ha
  · simp at ha
  · rename_i channel hr
    exact ⟨channel,hr,(eq_of_beq ha.2).symm⟩

theorem taken_after_play (hj : Justified (Cause config) h) {pre post : List ServerEvent} {f : LiveFrame}
    {result : SendResult} (he : h = pre ++ .session c (.sent f result) :: post) :
    ∃ a play b d, pre = a ++ play :: (b ++ .chosen c f :: d) ∧
      PlayReply c f.frame.channelId play ∧ SetUp c f.frame.channelId a := by
  obtain ⟨before,d,hpre⟩ := List.append_of_mem (hj pre _ post he).1
  have hbefore : h = before ++ .chosen c f :: (d ++ .session c (.sent f result) :: post) := by
    rw [he,hpre]
    simp
  obtain ⟨play,hmem,hplay⟩ := (hj before _ _ hbefore).2.2
  obtain ⟨a,b,hab⟩ := List.append_of_mem hmem
  refine ⟨a,play,b,d,by rw [hpre,hab]; simp,hplay,?_⟩
  have hcause := hj a play (b ++ .chosen c f :: (d ++ .session c (.sent f result) :: post)) (by
    rw [hbefore,hab]
    simp)
  unfold PlayReply at hplay
  split at hplay
  · obtain ⟨rfl,-,-,-,-,hch,hs,-⟩ := hplay
    rw [← hch]
    exact hcause hs
  · exact hplay.elim

end

section

variable {config : LiveRtspServerConfig} {h : List ServerEvent} {k : Core} {c : Nat}

theorem unknown_unset (hi : DeliveryInv config h k) (hc : k.sessions.length ≤ c) (ch : Int) :
    ¬SetUp c ch h := by
  rintro ⟨e,he,hs⟩
  unfold SetUpReply at hs
  split at hs
  · obtain ⟨rfl,-⟩ := hs
    exact absurd (hi.known _ _ he) (by omega)
  · exact hs.elim

theorem unknown_delivered (hi : DeliveryInv config h k) (hc : k.sessions.length ≤ c) (ch : Int) :
    Delivered config c ch h := by
  have hnone := hi.unsent hc
  refine ⟨?_,?_,?_,?_,?_⟩
  · simp [hnone]
  · simp [hnone]
  · simp [hnone]
  · simp [hnone]
  · intro pre f result post he
    exact absurd (hi.known c (.sent f result) (by simp [he])) (by omega)

theorem sent_channel (hi : DeliveryInv config h k) {x : Session} (hx : k.sessions[c]? = some x)
    {f : LiveFrame} (hf : f ∈ sentFrames c h) :
    x.control.channelId = f.frame.channelId ∧ .passed f ∈ h ∧ acceptsFrame config f.frame = true := by
  have hc := hi.session c x hx
  obtain ⟨hp,ha,hplay⟩ := hi.cause (hc.taken f (List.mem_append_left _ hf))
  exact ⟨(hc.control.played_channel hplay).1,hp,ha⟩

theorem session_delivered (hi : DeliveryInv config h k) {x : Session} (hx : k.sessions[c]? = some x) :
    Delivered config c x.control.channelId h := by
  have hj := hi.history
  refine ⟨?_,?_,?_,?_,?_⟩
  · refine increasing_sublist (sent_increasing hj) (passed_increasing hj) fun f hf => ?_
    obtain ⟨hch,hp,-⟩ := sent_channel hi hx hf
    exact mem_passedFrames.mpr ⟨hp,hch.symm⟩
  · exact increasing_nodup (sent_increasing hj)
  · intro f hf
    obtain ⟨hch,-,ha⟩ := sent_channel hi hx hf
    rw [hch]
    exact ⟨rfl,acceptsFrame_codec ha⟩
  · exact fun f hf => first_key hj hf
  · intro pre f result post he
    have hf : f ∈ sentFrames c h := mem_sentFrames.mpr ⟨result,by simp [he]⟩
    rw [(sent_channel hi hx hf).1]
    exact taken_after_play hj he

end

theorem client_gets_its_channel (config : LiveRtspServerConfig) (actions : List ServerAction)
    (c : Nat) :
    ∃ ch, (∀ d, SetUp c d (serverRun config actions).1 → d = ch) ∧
      Delivered config c ch (serverRun config actions).1 := by
  have hi := delivery_run config actions
  cases hx : (serverRun config actions).2.core.sessions[c]? with
  | none =>
    have hc := List.getElem?_eq_none_iff.mp hx
    exact ⟨0,fun d hd => absurd hd (unknown_unset hi hc d),unknown_delivered hi hc 0⟩
  | some x =>
    have hcontrol := (hi.session c x hx).control
    exact ⟨x.control.channelId,fun d hd => (hcontrol.setUp_channel hd).1.symm,session_delivered hi hx⟩

def oneChannel (clientQueueFrames : Nat) : LiveRtspServerConfig where
  channels := [⟨1,.h264⟩]
  inRange := by decide
  distinct := by decide
  clientQueueFrames := clientQueueFrames

def advance : ServerAction := .session 0 .advance

def extract : ServerAction := .session 0 (.extract (randomSessionId 1 2) true)

def joining : List ServerAction :=
  [.accept 0 1 0,.session 0 (.connect true),advance,advance,advance,
    .session 0 (.poll (some (ascii "SETUP /ch1 RTSP/1.0\r\nCSeq: 1\r\nTransport: RTP/AVP/TCP\r\n\r\n" ++
      ascii "PLAY /ch1 RTSP/1.0\r\nCSeq: 2\r\nSession: 0000000100000002\r\n\r\n"))),
    extract,extract,advance,advance,extract,advance,advance]

def passing (keyFrame : Bool) : List ServerAction :=
  .onFrame ⟨[0,0,1,0x65],0,0,keyFrame,1,.h264⟩ :: List.replicate 9 (.frameCall 1)

def sending : List ServerAction :=
  [.session 0 (.poll none),advance,.session 0 (.send (fun _ => true) 1 1)]

example : (sentFrames 0 (serverRun (oneChannel 1)
    (passing true ++ joining ++ passing false ++ sending ++ passing true ++ sending)).1).map
      (·.serial) = [2] := by
  decide +kernel

end RpiVms

import RpiVms.Live.Delivery
import RpiVms.Library.Gate
import Mathlib.Data.List.Infix

namespace RpiVms

open Search Runs Gate

def queuedFrame (c : Nat) : ServerEvent → Option LiveFrame
  | .queued d f => if d = c then some f else none
  | _ => none

def queuedFrames (c : Nat) (h : List ServerEvent) : List LiveFrame := h.filterMap (queuedFrame c)

def Precedes (h : List ServerEvent) (p f : LiveFrame) : Prop :=
  [p,f] <:+: passedFrames f.frame.channelId h

instance (h : List ServerEvent) (p f : LiveFrame) : Decidable (Precedes h p f) :=
  inferInstanceAs (Decidable (_ <:+: _))

def NoGap (c : Nat) (h : List ServerEvent) : Prop :=
  ∀ f ∈ sentFrames c h, f.frame.keyFrame = false → ∃ p ∈ sentFrames c h, Precedes h p f

instance (c : Nat) (h : List ServerEvent) : Decidable (NoGap c h) :=
  inferInstanceAs (Decidable (∀ f ∈ sentFrames c h, _))

def isKey (f : LiveFrame) : Bool := f.frame.keyFrame

def waits (x : Session) (frames : List LiveFrame) : Bool :=
  x.rtp.waitingForKeyframe && frames.all (!isKey ·)

def comesNext (c : Nat) (h : List ServerEvent) (x : Session) (f : LiveFrame) : Bool :=
  isKey f || (queuedFrames c h).getLast?.any (fun p => decide (Precedes h p f)) ||
    waits x (x.inFlight ++ x.queue.kept f)

def resumesAtKey (x : Session) (f : LiveFrame) : Bool :=
  x.queue.kept f == x.queue.frames || (x.queue.kept f ++ [f]).head?.any isKey || waits x x.inFlight

def queuesGapless (h : List ServerEvent) (s : Server) : ServerAction → Bool
  | .frameCall ch =>
      match s.calls ch with
      | some ⟨f,.pushing _ c _⟩ =>
          match s.sessions[c]? with
          | none => true
          | some x => !x.queue.accepts f || (comesNext c h x f && resumesAtKey x f)
      | _ => true
  | _ => true

structure GapInv (c : Nat) (h : List ServerEvent) (x : Session) : Prop where
  passes : Passes isKey (Precedes h) x.rtp.waitingForKeyframe (sentFrames c h).getLast? x.pipeline
  latest : x.queue.closed = false →
    lineOf c h x = [] ∨ (lineOf c h x).getLast? = (queuedFrames c h).getLast?

section

variable {c : Nat} {h g : List ServerEvent} {x y : Session} {f : LiveFrame}

theorem Precedes.mono {p : LiveFrame} (hp : Precedes h p f) : Precedes (h ++ g) p f := by
  rw [Precedes,passedFrames_append]
  exact hp.trans (List.prefix_append _ _).isInfix

theorem queuedFrames_append : queuedFrames c (h ++ g) = queuedFrames c h ++ queuedFrames c g :=
  List.filterMap_append

theorem queuedFrames_unknown (hg : ∀ f, .queued c f ∉ g) : queuedFrames c g = [] := by
  rw [queuedFrames,List.filterMap_eq_nil_iff]
  intro e he
  unfold queuedFrame
  split
  · split
    · rename_i hd
      exact absurd (hd ▸ he) (hg _)
    · rfl
  · rfl

theorem NoGap.mono (hn : NoGap c h) (hs : sentFrames c (h ++ g) = sentFrames c h) : NoGap c (h ++ g) := by
  intro f hf hk
  rw [hs] at hf ⊢
  obtain ⟨p,hp,hpre⟩ := hn f hf hk
  exact ⟨p,hp,hpre.mono⟩

theorem GapInv.same (hi : GapInv c h x) (hs : sentFrames c (h ++ g) = sentFrames c h)
    (hq : ∀ f, .queued c f ∉ g) (hw : y.rtp.waitingForKeyframe = x.rtp.waitingForKeyframe)
    (hp : y.pipeline = x.pipeline) (hc : y.queue.closed = x.queue.closed) : GapInv c (h ++ g) y where
  passes := by
    rw [hs,hw,hp]
    exact passes_mono (fun _ _ => Precedes.mono) hi.passes
  latest := fun ho => by
    rw [lineOf,hs,hp,queuedFrames_append,queuedFrames_unknown hq,List.append_nil]
    exact hi.latest (hc ▸ ho)

theorem getLast?_tail {α : Type} {a : α} {l m : List α} (h : (a :: l).getLast? = m.getLast?) :
    l = [] ∨ l.getLast? = m.getLast? := by
  cases l with
  | nil => exact .inl rfl
  | cons b l => exact .inr (by rwa [List.getLast?_cons_cons] at h)

theorem GapInv.held (hi : GapInv c h x) (hg : GateShut c h x) (hr : y.rtp = x.rtp)
    (hq : y.queue = x.queue) (hp : x.pipeline = f :: y.pipeline) (hb : holdsBack x.rtp f.frame = true) :
    GapInv c h y := by
  have hgate : (x.rtp.waitingForKeyframe && !isKey f) = true := hb
  have hnone : sentFrames c h = [] := hg.mp (Bool.and_eq_true_iff.mp hb).1
  obtain ⟨hpass,hlast⟩ := hi
  rw [hp] at hpass
  refine ⟨?_,fun ho => ?_⟩
  · rw [hr]
    exact (passes_held hgate).mp hpass
  · rw [hq] at ho
    have hline := (hlast ho).resolve_left (by simp [lineOf,hp])
    rw [lineOf,hnone,List.nil_append] at hline ⊢
    rw [hp] at hline
    exact getLast?_tail hline

theorem GapInv.goes (hi : GapInv c h x) {result : SendResult} (hw : y.rtp.waitingForKeyframe = false)
    (hq : y.queue = x.queue) (hp : x.pipeline = f :: y.pipeline)
    (hb : holdsBack x.rtp f.frame = false) :
    GapInv c (h ++ [.session c (.sent f result)]) y := by
  have hgate : (x.rtp.waitingForKeyframe && !isKey f) = false := hb
  obtain ⟨hpass,hlast⟩ := hi
  rw [hp] at hpass
  refine ⟨?_,fun ho => ?_⟩
  · rw [sentFrames_sent,List.getLast?_concat,hw]
    exact passes_mono (fun _ _ => Precedes.mono) ((passes_through hgate).mp hpass).2
  · rw [hq] at ho
    have hqueued : queuedFrames c [.session c (.sent f result)] = [] := rfl
    rw [lineOf,sentFrames_sent,queuedFrames_append,hqueued,List.append_nil,List.append_assoc,
      List.singleton_append,← hp]
    exact hlast ho

theorem GapInv.move {events : List SessionEvent} (hi : GapInv c h x) (hg : GateShut c h x)
    (hm : SessionMove x events y) : GapInv c (h ++ events.map (.session c)) y := by
  have hq : ∀ f, .queued c f ∉ events.map (ServerEvent.session c) := by simp
  cases hm with
  | quiet _ hs | rejected _ hs | stored _ hs _ _ =>
    exact hi.same (sentFrames_session c _ h (by simp)) hq (by rw [hs.rtp]) hs.pipeline (by rw [hs.queue])
  | replied id request codec fmtp result control written _ _ hs _ _ _ _ =>
    exact hi.same (sentFrames_session c _ h (by simp)) hq (by rw [hs.rtp]) hs.pipeline (by rw [hs.queue])
  | popped f _ hr hx hfr hcl hy =>
    refine hi.same (sentFrames_session c _ h (by simp)) hq (by rw [hr]) ?_ hcl
    rw [Session.pipeline,Session.pipeline,hx,hy,hfr]
    rfl
  | heldBack f _ hr hqu hx hb hy =>
    rw [List.map_nil,List.append_nil]
    refine hi.held hg hr hqu ?_ hb
    rw [Session.pipeline,Session.pipeline,hx,hy,hqu]
    rfl
  | sent f result _ hw hqu hx hb hy =>
    refine hi.goes hw hqu ?_ hb
    rw [Session.pipeline,Session.pipeline,hx,hy,hqu]
    rfl
  | closed _ hr hx hqu hy =>
    refine ⟨?_,fun ho => ?_⟩
    · rw [Session.pipeline,hy,hqu]
      trivial
    · rw [hqu] at ho
      cases ho

theorem NoGap.move {events : List SessionEvent} (hn : NoGap c h) (hi : GapInv c h x)
    (hm : SessionMove x events y) : NoGap c (h ++ events.map (.session c)) := by
  cases hm with
  | sent f result _ hw hqu hx hb hy =>
    have hgate : (x.rtp.waitingForKeyframe && !isKey f) = false := hb
    have hpass := hi.passes
    rw [Session.pipeline,hx,List.singleton_append] at hpass
    rw [NoGap,List.map_singleton,sentFrames_sent]
    intro g hg hk
    rcases List.mem_append.mp hg with hg | hg
    · obtain ⟨p,hp,hpre⟩ := hn g hg hk
      exact ⟨p,List.mem_append_left _ hp,hpre.mono⟩
    · obtain rfl := List.mem_singleton.mp hg
      rcases ((passes_through hgate).mp hpass).1 with hkey | ⟨p,hp,hpre⟩
      · rw [isKey,hk] at hkey
        cases hkey
      · exact ⟨p,List.mem_append_left _ (List.mem_of_getLast? hp),hpre.mono⟩
  | _ => exact hn.mono (sentFrames_session c _ h (by simp))

theorem waits_iff {frames : List LiveFrame} :
    waits x frames = true ↔ x.rtp.waitingForKeyframe = true ∧ ∀ g ∈ frames, isKey g = false := by
  simp [waits]

theorem kept_passes (hi : GapInv c h x) (hr : resumesAtKey x f = true) :
    Passes isKey (Precedes h) x.rtp.waitingForKeyframe (sentFrames c h).getLast?
      (x.inFlight ++ x.queue.kept f) := by
  obtain ⟨dropped,hdrop⟩ := x.queue.kept_suffix f
  have hpass := hi.passes
  rw [Session.pipeline,← hdrop,← List.append_assoc] at hpass
  simp only [resumesAtKey,Bool.or_eq_true,beq_iff_eq] at hr
  rcases hr with (hall | hkey) | hwait
  · rw [hall]
    exact hi.passes
  · refine passes_resume hpass fun z hz => ?_
    rw [List.head?_append,Option.mem_def.mp hz] at hkey
    exact hkey
  · obtain ⟨hshut,hnone⟩ := waits_iff.mp hwait
    rw [hshut] at hpass ⊢
    exact passes_closed hpass hnone

theorem lineOf_nil (hl : lineOf c h x = []) : sentFrames c h = [] ∧ x.inFlight = [] ∧ x.queue.frames = [] := by
  simpa [lineOf,Session.pipeline] using hl

theorem latest_kept (hi : GapInv c h x) (hg : GateShut c h x) (ho : x.queue.closed = false)
    (hr : resumesAtKey x f = true) (hk : isKey f = false) {p : LiveFrame}
    (hp : (queuedFrames c h).getLast? = some p) :
    waits x (x.inFlight ++ x.queue.kept f) = true ∨
      ((sentFrames c h).getLast?.toList ++ (x.inFlight ++ x.queue.kept f)).getLast? = some p := by
  obtain ⟨dropped,hdrop⟩ := x.queue.kept_suffix f
  rcases hi.latest ho with hnil | hlast
  · obtain ⟨hs,hf,hq⟩ := lineOf_nil hnil
    have hkept : x.queue.kept f = [] := by
      rw [hq] at hdrop
      exact (List.append_eq_nil_iff.mp hdrop).2
    exact .inl (waits_iff.mpr ⟨hg.mpr hs,by simp [hf,hkept]⟩)
  · rw [hp,lineOf,Session.pipeline,← hdrop] at hlast
    cases hkept : x.queue.kept f with
    | cons z zs =>
      rw [hkept] at hlast
      right
      simpa [List.getLast?_append] using hlast
    | nil =>
      simp only [resumesAtKey,hkept,Bool.or_eq_true,beq_iff_eq] at hr
      rcases hr with (hall | hkey) | hwait
      · right
        have hlast' : (sentFrames c h).getLast?.toList.getLast? = (sentFrames c h).getLast? := by
          cases (sentFrames c h).getLast? <;> rfl
        rw [hdrop,← hall,List.append_nil,List.getLast?_append] at hlast
        rw [List.append_nil,List.getLast?_append,hlast',hlast]
      · rw [List.nil_append,List.head?_cons,Option.any_some,hk] at hkey
        cases hkey
      · rw [List.append_nil]
        exact .inl hwait

theorem GapInv.push (hi : GapInv c h x) (hg : GateShut c h x) (ha : x.queue.accepts f = true)
    (hn : comesNext c h x f = true) (hr : resumesAtKey x f = true) :
    GapInv c (h ++ [.queued c f]) { x with queue := (x.queue.push (some f)).2 } := by
  obtain ⟨hframes,hclosed⟩ := BoundedFrameQueue.push_accepted ha
  have hpipe : ({ x with queue := (x.queue.push (some f)).2 } : Session).pipeline =
      x.inFlight ++ x.queue.kept f ++ [f] := by
    rw [Session.pipeline,hframes,← List.append_assoc]
    rfl
  have hsent : sentFrames c (h ++ [.queued c f]) = sentFrames c h := sentFrames_silent (by simp)
  have hopen : x.queue.closed = false := by
    simp only [BoundedFrameQueue.accepts,Bool.and_eq_true,Bool.not_eq_true'] at ha
    exact ha.1
  have hkept := kept_passes hi hr
  refine ⟨?_,fun _ => .inr ?_⟩
  · rw [hpipe,hsent]
    refine passes_mono (fun _ _ => Precedes.mono) ?_
    cases hk : isKey f with
    | true => exact passes_key_end hkept hk
    | false =>
      have wait (hw : waits x (x.inFlight ++ x.queue.kept f) = true) :
          Passes isKey (Precedes h) x.rtp.waitingForKeyframe (sentFrames c h).getLast?
            (x.inFlight ++ x.queue.kept f ++ [f]) := by
        obtain ⟨hshut,hnone⟩ := waits_iff.mp hw
        rw [hshut]
        exact passes_held_end hnone hk
      simp only [comesNext,hk,Bool.false_or,Bool.or_eq_true] at hn
      rcases hn with hn | hw
      · cases hp : (queuedFrames c h).getLast? with
        | none => simp [hp] at hn
        | some p =>
          rw [hp,Option.any_some,decide_eq_true_eq] at hn
          rcases latest_kept hi hg hopen hr hk hp with hw | hlast
          · exact wait hw
          · exact passes_next hkept hlast hn
      · exact wait hw
  · rw [lineOf,hsent,hpipe,queuedFrames_append]
    simp [queuedFrames,queuedFrame]

end

section

variable {config : LiveRtspServerConfig} {h ev : List ServerEvent} {s : Server} {k' : Core}
  {a : ServerAction} {c : Nat} {x : Session}

theorem gapless_push {ch : Int} {f : LiveFrame} {before : Nat} {rest : List Nat}
    (hp : queuesGapless h s (.frameCall ch) = true)
    (hcall : s.core.calls ch = some ⟨f,.pushing before c rest⟩) (hx : s.core.sessions[c]? = some x)
    (ha : x.queue.accepts f = true) : comesNext c h x f = true ∧ resumesAtKey x f = true := by
  have hcall' : s.calls ch = some ⟨f,.pushing before c rest⟩ := hcall
  have hx' : s.sessions[c]? = some x := hx
  simp only [queuesGapless,hcall',hx',ha,Bool.not_true,Bool.false_or,Bool.and_eq_true] at hp
  exact hp

structure GaplessInv (h : List ServerEvent) (k : Core) : Prop where
  noGap : ∀ c, NoGap c h
  session : ∀ c x, k.sessions[c]? = some x → GapInv c h x

theorem gapless_session (hd : DeliveryInv config h s.core) (hi : GaplessInv h s.core)
    (hp : queuesGapless h s a = true) (hm : CoreMove config s.core a ev k')
    (hx : k'.sessions[c]? = some x) : GapInv c (h ++ ev) x := by
  cases session_change hm hx with
  | kept hx hev hq =>
    exact (hi.session c x hx).same (sentFrames_silent hev) hq rfl rfl rfl
  | added sequence ssrc timestampOrigin hlen =>
    rw [List.append_nil]
    have hline : lineOf c h (newSession config sequence ssrc timestampOrigin) = [] := by
      rw [lineOf,hd.unsent hlen.ge]
      rfl
    exact ⟨trivial,fun _ => .inl hline⟩
  | stepped hx hstep =>
    exact (hi.session c _ hx).move (hd.session c _ hx).gate (sessionStep_move hstep).move
  | @pushed ch f before x' rest hcall hx' =>
    cases ha : x'.queue.accepts f with
    | false =>
      refine (hi.session c x' hx').same ?_ (by simp) rfl (push_refused_line ha)
        (BoundedFrameQueue.push_refused ha).2
      simp
    | true =>
      obtain ⟨hn,hr⟩ := gapless_push hp hcall hx' ha
      simpa using (hi.session c x' hx').push (hd.session c x' hx').gate ha hn hr

theorem gapless_noGap (hi : GaplessInv h s.core) (hm : CoreMove config s.core a ev k') :
    NoGap c (h ++ ev) := by
  have silent (hev : ∀ e, .session c e ∉ ev) : NoGap c (h ++ ev) :=
    (hi.noGap c).mono (sentFrames_silent hev)
  cases hm with
  | @session d x y action running sets events clients hx hstep _ =>
    by_cases hd : d = c
    · subst hd
      exact (hi.noGap d).move (hi.session d x hx) (sessionStep_move hstep).move
    · exact silent (other_session hd)
  | pushed _ _ => exact silent queued_silent
  | _ => exact silent (by simp)

end

theorem no_gap_when_queued_in_turn (config : LiveRtspServerConfig) (actions : List ServerAction)
    (hp : Along (Server.step config) (fun h s a => queuesGapless h s a = true) ([],{}) actions)
    (c : Nat) : NoGap c (serverRun config actions).1 := by
  have hi : GaplessInv (serverRun config actions).1 (serverRun config actions).2.core := by
    refine conditioned_run hp ⟨fun _ f hf => absurd hf List.not_mem_nil,fun _ _ hx => ?_⟩ ?_
    · simp [Server.core] at hx
    · intro h s a ev k' hd hi hq hm
      exact ⟨fun _ => gapless_noGap hi hm,fun _ _ hx => gapless_session hd hi hq hm hx⟩
  exact hi.noGap c

def pacedRun : List ServerAction :=
  joining ++ passing true ++ sending ++ passing false ++ passing true ++ sending ++ passing false ++ sending

theorem no_gap_in_paced_run :
    Along (Server.step (oneChannel 1)) (fun h s a => queuesGapless h s a = true) ([],{}) pacedRun ∧
    (sentFrames 0 (serverRun (oneChannel 1) pacedRun).1).map (·.serial) = [0,2,3] ∧
    NoGap 0 (serverRun (oneChannel 1) pacedRun).1 := by
  have hrun : Along (Server.step (oneChannel 1)) (fun h s a => queuesGapless h s a = true) ([],{})
      pacedRun ∧ (sentFrames 0 (serverRun (oneChannel 1) pacedRun).1).map (·.serial) = [0,2,3] := by
    decide +kernel
  exact ⟨hrun.1,hrun.2,no_gap_when_queued_in_turn _ _ hrun.1 0⟩

theorem delta_sent_after_drop :
    ¬NoGap 0 (serverRun (oneChannel 1)
      (joining ++ passing true ++ sending ++ passing false ++ passing false ++ sending)).1 := by
  decide +kernel

end RpiVms

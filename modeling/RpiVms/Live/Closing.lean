import RpiVms.Live.Delivery

namespace RpiVms

open Search Runs

def closingReply (c : Nat) : ServerEvent → Bool
  | .session d (.replied _ result _ written) => d = c && result.closeSession && written
  | _ => false

def hasClosed (c : Nat) (h : List ServerEvent) : Bool := h.any (closingReply c)

-- no bytes on the connection; of a write that fails a part may have gone out
def silent : SessionEvent → Bool
  | .sent _ result => result.rtp.isEmpty && result.rtcp.isEmpty && result.outcome != .writeFailed
  | _ => false

def SilentOnceClosed (h : List ServerEvent) : Prop :=
  ∀ c pre e post, h = pre ++ .session c e :: post → hasClosed c pre = true → silent e = true

def nothingToSend (x : Session) : Bool :=
  !x.playing ||
    match x.queue.frames with
    | [] => true
    | f :: _ => holdsBack x.rtp f.frame

def windsDown (x : Session) : Bool :=
  match x.point with
  | .checking => !rejectsLeftover x.input
  | .popping => nothingToSend x
  | _ => true

def closesQuietly (h : List ServerEvent) (s : Server) : ServerAction → Bool
  | .session c _ =>
      match s.sessions[c]? with
      | none => true
      | some x => !hasClosed c h || windsDown x
  | _ => true

section

variable {config : LiveRtspServerConfig} {running : Bool} {sets : Int → ParameterSets} {x y : Session}
  {action : SessionAction} {events : List SessionEvent}

theorem popping_winds (hl : x.looping = false) (hn : nothingToSend x = true) :
    (popStep x).Winding := by
  unfold popStep
  split
  · rename_i hplay
    split
    · rename_i f queue hq
      have hf := (BoundedFrameQueue.tryPop_some hq).1
      simp only [nothingToSend,hplay,hf,Bool.not_true,Bool.false_or] at hn
      exact ⟨hl,hn⟩
    · exact hl
  · exact hl

theorem sending_winds {f : LiveFrame} {writeOk : Nat → Bool} {now wall : Int} (hl : x.looping = false)
    (hb : holdsBack x.rtp f.frame = true) :
    (sendStep config sets x f writeOk now wall).1 = [] ∧
      (sendStep config sets x f writeOk now wall).2.Winding := by
  unfold sendStep
  rw [sendFrame_held hb]
  exact ⟨if_pos hb,hl⟩

theorem winding_step (hw : x.Winding) (hq : windsDown x = true)
    (h : sessionStep config running sets x action = some (events,y)) : events = [] ∧ y.Winding := by
  unfold Session.Winding at hw
  cases hp : x.point with
  | connecting | registering | activating | creating | parsing => simp [hp] at hw
  | polling =>
    simp only [hp] at hw
    cases action <;> simp [sessionStep,hp] at h
    rename_i ready
    simp only [pollStep,hw,Bool.false_and,Bool.false_eq_true,if_false] at h
    cases h
    exact ⟨rfl,trivial⟩
  | storingChannel closeSession =>
    simp only [hp] at hw
    cases action <;> simp [sessionStep,hp] at h
    obtain ⟨rfl,rfl⟩ := h
    exact ⟨rfl,hw⟩
  | storingPlaying closeSession =>
    simp only [hp] at hw
    subst hw
    cases action <;> simp [sessionStep,hp] at h
    obtain ⟨rfl,rfl⟩ := h
    exact ⟨rfl,rfl⟩
  | checking =>
    simp only [hp] at hw
    simp only [windsDown,hp,Bool.not_eq_true'] at hq
    cases action <;> simp [sessionStep,hp] at h
    simp only [checkStep,hq,Bool.false_eq_true,if_false] at h
    cases h
    exact ⟨rfl,hw⟩
  | popping =>
    simp only [hp] at hw
    simp only [windsDown,hp] at hq
    cases action <;> simp [sessionStep,hp] at h
    obtain ⟨rfl,rfl⟩ := h
    exact ⟨rfl,popping_winds hw hq⟩
  | sending f =>
    simp only [hp] at hw
    cases action <;> simp [sessionStep,hp] at h
    rename_i writeOk now wall
    have hs := @sending_winds config sets x f writeOk now wall hw.1 hw.2
    rwa [h] at hs
  | disconnecting | halting | deactivating | recording =>
    cases action <;> simp [sessionStep,hp] at h
    obtain ⟨rfl,rfl⟩ := h
    exact ⟨rfl,trivial⟩
  | closing =>
    cases action <;> simp [sessionStep,hp] at h
    obtain ⟨rfl,rfl⟩ := h
    refine ⟨rfl,?_⟩
    cases hc : x.counted <;> simp [Session.Winding]
  | finished => cases action <;> simp [sessionStep,hp] at h

end

section

variable {c d : Nat} {h g ev : List ServerEvent}

theorem hasClosed_append : hasClosed c (h ++ g) = (hasClosed c h || hasClosed c g) := List.any_append

theorem hasClosed_silent (hg : ∀ e, .session c e ∉ g) : hasClosed c g = false := by
  rw [hasClosed,List.any_eq_false]
  intro e he
  unfold closingReply
  split
  · rename_i d request result control written
    have hd : d ≠ c := fun hd => hg _ (hd ▸ he)
    simp [hd]
  · simp

theorem move_events {x y : Session} {events : List SessionEvent} (hm : SessionMove x events y) :
    events = [] ∨ ∃ e, events = [e] := by
  cases hm with
  | rejected _ _ => exact .inr ⟨_,rfl⟩
  | replied _ _ _ _ _ _ _ _ _ _ _ _ _ _ => exact .inr ⟨_,rfl⟩
  | sent _ _ _ _ _ _ _ _ => exact .inr ⟨_,rfl⟩
  | _ => exact .inl rfl

theorem move_closes {x y : Session} {events : List SessionEvent} (hm : SessionMove x events y)
    (hc : hasClosed c (events.map (.session c)) = true) : y.Winding := by
  cases hm with
  | replied id request codec fmtp result control written _ _ _ _ _ _ hw =>
    simp only [hasClosed,List.map_singleton,List.any_cons,List.any_nil,closingReply,Bool.or_false,
      Bool.and_eq_true] at hc
    exact hw hc.1.2
  | _ => simp [hasClosed,closingReply] at hc

def Unclosed (pre : List ServerEvent) : ServerEvent → Prop
  | .session c _ => hasClosed c pre = false
  | _ => True

structure ClosingInv (h : List ServerEvent) (k : Core) : Prop where
  history : Justified Unclosed h
  winding : ∀ c x, k.sessions[c]? = some x → hasClosed c h = true → x.Winding

variable {config : LiveRtspServerConfig} {s t : Server} {k k' : Core} {a : ServerAction}

theorem closing_session (hi : ClosingInv h s.core) (hp : closesQuietly h s a = true)
    {action : SessionAction} {running : Bool} {sets : Int → ParameterSets} {x y : Session}
    {events : List SessionEvent} (ha : a = .session c action) (hx : s.core.sessions[c]? = some x)
    (hstep : sessionStep config running sets x action = some (events,y)) (hc : hasClosed c h = true) :
    events = [] ∧ y.Winding := by
  subst ha
  have hx' : s.sessions[c]? = some x := hx
  simp only [closesQuietly,hx',hc,Bool.not_true,Bool.false_or] at hp
  exact winding_step (hi.winding c x hx hc) hp hstep

theorem closing_history (hi : ClosingInv h s.core) (hp : closesQuietly h s a = true)
    (hm : CoreMove config s.core a ev k') : Justified Unclosed (h ++ ev) := by
  cases hm with
  | @session c x y action running sets events clients hx hstep _ =>
    cases hc : hasClosed c h with
    | true =>
      obtain ⟨rfl,-⟩ := closing_session hi hp rfl hx hstep hc
      simpa using hi.history
    | false =>
      rcases move_events (sessionStep_move hstep).move with rfl | ⟨e,rfl⟩
      · simpa using hi.history
      · exact justified_snoc hi.history hc
  | idle | accepted _ _ _ | onward _ _ | returned _ => simpa using hi.history
  | ignored _ | passed _ _ _ | chose _ _ _ => exact justified_snoc hi.history trivial
  | pushed _ _ =>
    split
    · exact justified_snoc hi.history trivial
    · simpa using hi.history

theorem closing_winding (hd : DeliveryInv config h s.core) (hi : ClosingInv h s.core)
    (hp : closesQuietly h s a = true) (hm : CoreMove config s.core a ev k') {x : Session}
    (hx : k'.sessions[c]? = some x) (hc : hasClosed c (h ++ ev) = true) : x.Winding := by
  have old (hev : ∀ e, .session c e ∉ ev) : hasClosed c h = true := by
    rwa [hasClosed_append,hasClosed_silent hev,Bool.or_false] at hc
  cases session_change hm hx with
  | kept hx hev _ => exact hi.winding c x hx (old hev)
  | added _ _ _ hlen =>
    have hnone := @hasClosed_silent c h fun e he => absurd (hd.known c e he) (by omega)
    rw [List.append_nil,hnone] at hc
    cases hc
  | stepped hx hstep =>
    cases hc' : hasClosed c h with
    | true => exact (closing_session hi hp rfl hx hstep hc').2
    | false =>
      rw [hasClosed_append,hc',Bool.false_or] at hc
      exact move_closes (sessionStep_move hstep).move hc
  | @pushed ch f before x' rest hcall hx' => exact hi.winding c x' hx' (old queued_silent)

end

theorem silent_once_closed (config : LiveRtspServerConfig) (actions : List ServerAction)
    (hp : Along (Server.step config) (fun h s a => closesQuietly h s a = true) ([],{}) actions) :
    SilentOnceClosed (serverRun config actions).1 := by
  have hi : ClosingInv (serverRun config actions).1 (serverRun config actions).2.core := by
    refine conditioned_run hp ⟨justified_nil,fun _ _ _ hc => by simp [hasClosed] at hc⟩ ?_
    intro h s a ev k' hd hi hq hm
    exact ⟨closing_history hi hq hm,fun _ _ hx hc => closing_winding hd hi hq hm hx hc⟩
  intro c pre e post he hc
  have hopen : hasClosed c pre = false := hi.history pre _ post he
  rw [hopen] at hc
  cases hc

def teardown : List ServerAction :=
  [.session 0 (.poll (some (ascii
      "TEARDOWN /ch1 RTSP/1.0\r\nCSeq: 3\r\nSession: 0000000100000002\r\n\r\n"))),
    extract,advance,advance,.session 0 (.send (fun _ => true) 1 1)]

def tornDown : List ServerAction :=
  joining ++ passing true ++ sending ++ teardown ++ passing true ++ sending

theorem silent_once_torn_down :
    Along (Server.step (oneChannel 30)) (fun h s a => closesQuietly h s a = true) ([],{}) tornDown ∧
    hasClosed 0 (serverRun (oneChannel 30) tornDown).1 = true ∧
    SilentOnceClosed (serverRun (oneChannel 30) tornDown).1 := by
  have hrun : Along (Server.step (oneChannel 30)) (fun h s a => closesQuietly h s a = true) ([],{})
      tornDown ∧ hasClosed 0 (serverRun (oneChannel 30) tornDown).1 = true := by decide +kernel
  exact ⟨hrun.1,hrun.2,silent_once_closed _ _ hrun.1⟩

def isWrite (c : Nat) : ServerEvent → Bool
  | .session d e => d = c && !silent e
  | _ => false

theorem not_silent {h : List ServerEvent} {c n : Nat} (hw : (h[n]?.map (isWrite c)) = some true)
    (hc : hasClosed c (h.take n) = true) : ¬SilentOnceClosed h := by
  intro hs
  obtain ⟨e,he,hd⟩ := Option.map_eq_some_iff.mp hw
  obtain ⟨hn,he⟩ := List.getElem?_eq_some_iff.mp he
  cases e with
  | session d e' =>
    simp only [isWrite,Bool.and_eq_true,decide_eq_true_eq,Bool.not_eq_true'] at hd
    obtain ⟨rfl,hloud⟩ := hd
    have hsplit : h = h.take n ++ .session d e' :: h.drop (n + 1) := by
      rw [← he,List.cons_getElem_drop_succ,List.take_append_drop]
    rw [hs d _ e' _ hsplit hc] at hloud
    cases hloud
  | _ => cases hd

theorem frame_follows_teardown :
    ¬SilentOnceClosed (serverRun (oneChannel 30) (joining ++ passing true ++ teardown)).1 := by
  have hlast : ((serverRun (oneChannel 30) (joining ++ passing true ++ teardown)).1[6]?.map
      (isWrite 0)) = some true ∧
      hasClosed 0 ((serverRun (oneChannel 30) (joining ++ passing true ++ teardown)).1.take 6) = true := by
    decide +kernel
  exact not_silent hlast.1 hlast.2

end RpiVms

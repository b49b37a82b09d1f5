import RpiVms.Live.Moves

namespace RpiVms

open Search

def sentFrame (c : Nat) : ServerEvent → Option LiveFrame
  | .session d (.sent f _) => if d = c then some f else none
  | _ => none

def sentFrames (c : Nat) (h : List ServerEvent) : List LiveFrame := h.filterMap (sentFrame c)

def passedFrame (ch : Int) : ServerEvent → Option LiveFrame
  | .passed f => if f.frame.channelId = ch then some f else none
  | _ => none

def passedFrames (ch : Int) (h : List ServerEvent) : List LiveFrame := h.filterMap (passedFrame ch)

def SetUpReply (c : Nat) (ch : Int) : ServerEvent → Prop
  | .session d (.replied request result control _) =>
      d = c ∧ rtspMethodFromRequest request = ascii "SETUP" ∧ requestChannel request = ch ∧
        rtspStatusCode result.response = 200 ∧ control.phase = .ready ∧ control.channelId = ch
  | _ => False

def PlayReply (c : Nat) (ch : Int) : ServerEvent → Prop
  | .session d (.replied request result control written) =>
      d = c ∧ rtspMethodFromRequest request = ascii "PLAY" ∧ requestChannel request = ch ∧
        rtspStatusCode result.response = 200 ∧ control.phase = .playing ∧ control.channelId = ch ∧
        result.startPlay = true ∧ written = true
  | _ => False

def SetUp (c : Nat) (ch : Int) (h : List ServerEvent) : Prop := ∃ e ∈ h, SetUpReply c ch e

def Played (c : Nat) (ch : Int) (h : List ServerEvent) : Prop := ∃ e ∈ h, PlayReply c ch e

section

variable {c d : Nat} {ch : Int} {h g : List ServerEvent} {f : LiveFrame}

theorem sentFrames_append : sentFrames c (h ++ g) = sentFrames c h ++ sentFrames c g :=
  List.filterMap_append

theorem passedFrames_append : passedFrames ch (h ++ g) = passedFrames ch h ++ passedFrames ch g :=
  List.filterMap_append

theorem sentFrame_some {e : ServerEvent} (he : sentFrame c e = some f) :
    ∃ result, e = .session c (.sent f result) := by
  unfold sentFrame at he
  split at he
  · split at he
    · cases he
      rename_i hd
      exact ⟨_,by rw [hd]⟩
    · cases he
  · cases he

theorem passedFrame_some {e : ServerEvent} (he : passedFrame ch e = some f) :
    e = .passed f ∧ f.frame.channelId = ch := by
  unfold passedFrame at he
  split at he
  · split at he
    · cases he
      rename_i hd
      exact ⟨rfl,hd⟩
    · cases he
  · cases he

theorem mem_sentFrames : f ∈ sentFrames c h ↔ ∃ result, .session c (.sent f result) ∈ h := by
  rw [sentFrames,List.mem_filterMap]
  constructor
  · rintro ⟨e,he,hf⟩
    obtain ⟨result,rfl⟩ := sentFrame_some hf
    exact ⟨result,he⟩
  · rintro ⟨result,he⟩
    exact ⟨_,he,by simp [sentFrame]⟩

theorem mem_passedFrames : f ∈ passedFrames ch h ↔ .passed f ∈ h ∧ f.frame.channelId = ch := by
  rw [passedFrames,List.mem_filterMap]
  constructor
  · rintro ⟨e,he,hf⟩
    obtain ⟨rfl,hd⟩ := passedFrame_some hf
    exact ⟨he,hd⟩
  · rintro ⟨he,hd⟩
    exact ⟨_,he,by simp [passedFrame,hd]⟩

theorem sentFrames_unknown (hg : ∀ e, .session c e ∉ g) : sentFrames c g = [] := by
  rw [List.eq_nil_iff_forall_not_mem]
  intro f hf
  obtain ⟨result,he⟩ := mem_sentFrames.mp hf
  exact hg _ he

theorem sentFrames_silent (hg : ∀ e, .session c e ∉ g) : sentFrames c (h ++ g) = sentFrames c h := by
  rw [sentFrames_append,sentFrames_unknown hg,List.append_nil]

theorem other_session {events : List SessionEvent} (hd : d ≠ c) :
    ∀ e, .session c e ∉ events.map (ServerEvent.session d) := by
  intro e he
  obtain ⟨e',-,heq⟩ := List.mem_map.mp he
  cases heq
  exact hd rfl

theorem queued_silent {b : Bool} : ∀ e, .session c e ∉ (if b then [ServerEvent.queued d f] else []) := by
  intro e he
  cases b <;> simp at he

theorem SetUp.mono (hs : SetUp c ch h) : SetUp c ch (h ++ g) := by
  obtain ⟨e,he,hr⟩ := hs
  exact ⟨e,List.mem_append_left g he,hr⟩

theorem Played.mono (hs : Played c ch h) : Played c ch (h ++ g) := by
  obtain ⟨e,he,hr⟩ := hs
  exact ⟨e,List.mem_append_left g he,hr⟩

end

section

variable {id : SessionId} {request fmtp : Bytes} {codec : VideoCodec} {state after : RtspControlState}
  {result : RtspControlResult}

theorem handled_frozen (hh : Handled id.text request codec fmtp state result after)
    (hp : state.phase ≠ .initial) : after.channelId = state.channelId ∧ after.phase ≠ .initial := by
  cases hh with
  | setup _ _ _ hi _ _ => exact absurd hi hp
  | played _ hr _ _ => exact ⟨rfl,nofun⟩
  | torn _ => exact ⟨rfl,nofun⟩
  | _ => exact ⟨rfl,hp⟩

theorem handled_ready {c : Nat} {written : Bool}
    (hh : Handled id.text request codec fmtp state result after) (hp : after.phase = .ready) :
    after = state ∨ SetUpReply c after.channelId (.session c (.replied request result after written)) := by
  cases hh with
  | setup _ _ hm _ _ _ => exact .inr ⟨rfl,hm,rfl,response_status (by decide),rfl,rfl⟩
  | played _ _ _ _ => cases hp
  | torn _ => cases hp
  | _ => exact .inl rfl

theorem handled_play {c : Nat} (hh : Handled id.text request codec fmtp state result after)
    (hs : result.startPlay = true) :
    state.phase = .ready ∧ after.channelId = state.channelId ∧
      PlayReply c after.channelId (.session c (.replied request result after true)) := by
  cases hh with
  | played hm hr hc _ => exact ⟨hr,rfl,rfl,hm,hc.symm,response_status (by decide),rfl,rfl,rfl,rfl⟩
  | _ => cases hs

end

structure ControlInv (c : Nat) (h : List ServerEvent) (x : Session) : Prop where
  bound : ∀ request result control written,
    .session c (.replied request result control written) ∈ h → control.phase ≠ .initial →
      x.control.channelId = control.channelId ∧ x.control.phase ≠ .initial
  stored : x.channelId = -1 ∨ x.channelId = x.control.channelId ∧ x.control.phase ≠ .initial
  ready : x.control.phase = .ready → SetUp c x.control.channelId h
  storing : x.storing = true → Played c x.control.channelId h
  playing : x.playing = true → Played c x.control.channelId h

section

variable {c : Nat} {h g : List ServerEvent} {x y : Session} {events : List SessionEvent}

theorem ControlInv.played_channel (hi : ControlInv c h x) {ch : Int} (hp : Played c ch h) :
    x.control.channelId = ch ∧ x.control.phase ≠ .initial := by
  obtain ⟨e,he,hr⟩ := hp
  unfold PlayReply at hr
  split at hr
  · obtain ⟨rfl,-,-,-,hph,rfl,-,-⟩ := hr
    exact hi.bound _ _ _ _ he (by simp [hph])
  · exact hr.elim

theorem ControlInv.setUp_channel (hi : ControlInv c h x) {ch : Int} (hs : SetUp c ch h) :
    x.control.channelId = ch ∧ x.control.phase ≠ .initial := by
  obtain ⟨e,he,hr⟩ := hs
  unfold SetUpReply at hr
  split at hr
  · obtain ⟨rfl,-,-,-,hph,rfl⟩ := hr
    exact hi.bound _ _ _ _ he (by simp [hph])
  · exact hr.elim

theorem ControlInv.mono (hi : ControlInv c h x)
    (hg : ∀ request result control written, .session c (.replied request result control written) ∉ g) :
    ControlInv c (h ++ g) x where
  bound := fun request result control written he hp => by
    rcases List.mem_append.mp he with he | he
    · exact hi.bound request result control written he hp
    · exact absurd he (hg request result control written)
  stored := hi.stored
  ready := fun hp => (hi.ready hp).mono
  storing := fun hs => (hi.storing hs).mono
  playing := fun hp => (hi.playing hp).mono

theorem ControlInv.calm (hi : ControlInv c h x) (hc : Calm x y) : ControlInv c h y where
  bound := by rw [hc.control]; exact hi.bound
  stored := by rw [hc.channelId,hc.control]; exact hi.stored
  ready := by rw [hc.control]; exact hi.ready
  storing := fun hs => by rw [hc.storing] at hs; cases hs
  playing := fun hp => by rw [hc.control]; exact hi.playing (hc.playing hp)

theorem ControlInv.stores (hi : ControlInv c h x) (hs : x.storing = true) (hc : y.control = x.control)
    (hch : y.channelId = x.channelId ∨ y.channelId = x.control.channelId) : ControlInv c h y where
  bound := by rw [hc]; exact hi.bound
  stored := by
    rw [hc]
    rcases hch with hch | hch
    · rw [hch]
      exact hi.stored
    · exact .inr ⟨hch,(hi.played_channel (hi.storing hs)).2⟩
  ready := by rw [hc]; exact hi.ready
  storing := fun _ => by rw [hc]; exact hi.storing hs
  playing := fun _ => by rw [hc]; exact hi.storing hs

theorem ControlInv.replies (hi : ControlInv c h x) {id : SessionId} {request fmtp : Bytes}
    {codec : VideoCodec} {result : RtspControlResult} {written : Bool}
    (hh : Handled id.text request codec fmtp x.control result y.control)
    (hch : y.channelId = x.channelId) (hpl : y.playing = x.playing)
    (hst : y.storing = true → result.startPlay = true ∧ written = true) :
    ControlInv c (h ++ [.session c (.replied request result y.control written)]) y := by
  have frozen := handled_frozen hh
  refine ⟨?_,?_,?_,?_,?_⟩
  · intro request' result' control' written' he hp
    rcases List.mem_append.mp he with he | he
    · obtain ⟨hb,hn⟩ := hi.bound _ _ _ _ he hp
      exact ⟨(frozen hn).1.trans hb,(frozen hn).2⟩
    · simp only [List.mem_singleton,ServerEvent.session.injEq,SessionEvent.replied.injEq,true_and] at he
      obtain ⟨-,-,rfl,-⟩ := he
      exact ⟨rfl,hp⟩
  · rw [hch]
    rcases hi.stored with hs | ⟨hs,hn⟩
    · exact .inl hs
    · exact .inr ⟨hs.trans (frozen hn).1.symm,(frozen hn).2⟩
  · intro hp
    rcases @handled_ready id request fmtp codec x.control y.control result c written hh hp with hsame | hr
    · rw [hsame] at hp ⊢
      exact (hi.ready hp).mono
    · exact ⟨_,by simp,hr⟩
  · intro hs
    obtain ⟨hplay,rfl⟩ := hst hs
    exact ⟨_,by simp,(handled_play hh hplay).2.2⟩
  · intro hp
    have hold := hi.playing (hpl ▸ hp)
    rw [(frozen (hi.played_channel hold).2).1]
    exact hold.mono

theorem ControlInv.move (hi : ControlInv c h x) (hm : SessionMove x events y) :
    ControlInv c (h ++ events.map (.session c)) y := by
  cases hm with
  | quiet hc _ => simpa using hi.calm hc
  | rejected hc _ => exact (hi.calm hc).mono (by simp)
  | replied id request codec fmtp result control written hh hcontrol _ hch hpl hst _ =>
    subst hcontrol
    exact hi.replies hh hch hpl hst
  | stored hs _ hc hch => simpa using hi.stores hs hc hch
  | popped f hc _ _ _ _ _ => simpa using hi.calm hc
  | heldBack f hc _ _ _ _ _ => simpa using hi.calm hc
  | sent f result hc _ _ _ _ _ => exact (hi.calm hc).mono (by simp)
  | closed hc _ _ _ _ => simpa using hi.calm hc

end

end RpiVms

import RpiVms.Live.History

namespace RpiVms

def lineOf (c : Nat) (h : List ServerEvent) (x : Session) : List LiveFrame :=
  sentFrames c h ++ x.pipeline

def GateShut (c : Nat) (h : List ServerEvent) (x : Session) : Prop :=
  x.rtp.waitingForKeyframe = true ↔ sentFrames c h = []

section

variable {c : Nat} {h : List ServerEvent} {x y : Session} {events : List SessionEvent}

theorem SameMedia.pipeline (hs : SameMedia x y) : y.pipeline = x.pipeline := by
  rw [Session.pipeline,Session.pipeline,hs.inFlight,hs.queue]

theorem sentFrames_session (c : Nat) (events : List SessionEvent) (h : List ServerEvent)
    (hn : ∀ f result, .sent f result ∉ events) :
    sentFrames c (h ++ events.map (.session c)) = sentFrames c h := by
  rw [sentFrames_append]
  convert List.append_nil _
  rw [List.eq_nil_iff_forall_not_mem]
  intro f hf
  obtain ⟨result,he⟩ := mem_sentFrames.mp hf
  obtain ⟨e,hm,heq⟩ := List.mem_map.mp he
  cases heq
  exact hn f result hm

theorem sentFrames_sent (c : Nat) (f : LiveFrame) (result : SendResult) (h : List ServerEvent) :
    sentFrames c (h ++ [.session c (.sent f result)]) = sentFrames c h ++ [f] := by
  rw [sentFrames_append]
  simp [sentFrames,sentFrame]

theorem session_line (hm : SessionMove x events y) :
    (lineOf c (h ++ events.map (.session c)) y).Sublist (lineOf c h x) := by
  unfold lineOf
  cases hm with
  | quiet _ hs | rejected _ hs | stored _ hs _ _ =>
    rw [sentFrames_session c _ h (by simp),hs.pipeline]
  | replied id request codec fmtp result control written _ _ hs _ _ _ _ =>
    rw [sentFrames_session c _ h (by simp),hs.pipeline]
  | popped f _ _ hx hq _ hy =>
    rw [sentFrames_session c _ h (by simp),Session.pipeline,Session.pipeline,hx,hy,hq]
    exact List.Sublist.refl _
  | heldBack f _ _ hq hx _ hy =>
    rw [sentFrames_session c _ h (by simp),Session.pipeline,Session.pipeline,hx,hy,hq]
    exact List.Sublist.append_left (List.sublist_cons_self f _) _
  | sent f result _ _ hq hx _ hy =>
    rw [List.map_singleton,sentFrames_sent,Session.pipeline,Session.pipeline,hx,hy,hq]
    simp
  | closed _ _ hx hq hy =>
    rw [sentFrames_session c _ h (by simp),Session.pipeline,hy,hq]
    simp [BoundedFrameQueue.close]

theorem session_gate (hg : GateShut c h x) (hm : SessionMove x events y) :
    GateShut c (h ++ events.map (.session c)) y := by
  unfold GateShut at hg ⊢
  cases hm with
  | quiet _ hs | rejected _ hs | stored _ hs _ _ =>
    rwa [sentFrames_session c _ h (by simp),hs.rtp]
  | replied id request codec fmtp result control written _ _ hs _ _ _ _ =>
    rwa [sentFrames_session c _ h (by simp),hs.rtp]
  | popped f _ hr _ _ _ _ => rwa [sentFrames_session c _ h (by simp),hr]
  | heldBack f _ hr _ _ _ _ => rwa [sentFrames_session c _ h (by simp),hr]
  | sent f result _ hw _ _ _ _ =>
    rw [List.map_singleton,sentFrames_sent,hw]
    simp
  | closed _ hr _ _ _ => rwa [sentFrames_session c _ h (by simp),hr]

theorem push_line {f : LiveFrame} :
    ({ x with queue := (x.queue.push (some f)).2 } : Session).pipeline.Sublist (x.pipeline ++ [f]) := by
  have hx : ({ x with queue := (x.queue.push (some f)).2 } : Session).inFlight = x.inFlight := rfl
  rw [Session.pipeline,Session.pipeline,hx,List.append_assoc]
  refine List.Sublist.append_left ?_ _
  cases ha : x.queue.accepts f with
  | false =>
    rw [(BoundedFrameQueue.push_refused ha).1]
    exact List.sublist_append_left _ _
  | true =>
    rw [(BoundedFrameQueue.push_accepted ha).1]
    exact (x.queue.kept_suffix f).sublist.append_right _

theorem push_refused_line {f : LiveFrame} (ha : x.queue.accepts f = false) :
    ({ x with queue := (x.queue.push (some f)).2 } : Session).pipeline = x.pipeline := by
  have hx : ({ x with queue := (x.queue.push (some f)).2 } : Session).inFlight = x.inFlight := rfl
  rw [Session.pipeline,Session.pipeline,hx,(BoundedFrameQueue.push_refused ha).1]

end

inductive SessionChange (config : LiveRtspServerConfig) (k : Core) (c : Nat) :
    ServerAction → List ServerEvent → Session → Prop
  | kept {a : ServerAction} {ev : List ServerEvent} {x : Session} : k.sessions[c]? = some x →
      (∀ e, .session c e ∉ ev) → (∀ f, .queued c f ∉ ev) → SessionChange config k c a ev x
  | added (sequence : UInt16) (ssrc timestampOrigin : UInt32) : c = k.sessions.length →
      SessionChange config k c (.accept sequence ssrc timestampOrigin) []
        (newSession config sequence ssrc timestampOrigin)
  | stepped {x y : Session} {action : SessionAction} {running : Bool} {sets : Int → ParameterSets}
      {events : List SessionEvent} : k.sessions[c]? = some x →
      sessionStep config running sets x action = some (events,y) →
      SessionChange config k c (.session c action) (events.map (.session c)) y
  | pushed {ch : Int} {f : LiveFrame} {before : Nat} {x : Session} {rest : List Nat} :
      k.calls ch = some ⟨f,.pushing before c rest⟩ → k.sessions[c]? = some x →
      SessionChange config k c (.frameCall ch) (if x.queue.accepts f then [.queued c f] else [])
        { x with queue := (x.queue.push (some f)).2 }

inductive CallChange (config : LiveRtspServerConfig) (k : Core) (ch : Int) :
    List ServerEvent → FrameCall → Prop
  | kept {ev : List ServerEvent} {call : FrameCall} : k.calls ch = some call →
      (∀ c f, .queued c f ∈ ev → f.frame.channelId ≠ ch) → CallChange config k ch ev call
  | called (view : OwnedLiveFrame) : acceptsFrame config view = true → view.channelId = ch →
      CallChange config k ch [.passed ⟨k.passed,view⟩] ⟨⟨k.passed,view⟩,.locking⟩
  | onward {f : LiveFrame} {p q : CallPhase} {clients : List Nat} : k.calls ch = some ⟨f,p⟩ →
      Onward k p q clients → CallChange config k ch [] ⟨f,q⟩
  | chose {f : LiveFrame} {c : Nat} {rest chosen : List Nat} :
      k.calls ch = some ⟨f,.scanning (c :: rest) chosen .channelId⟩ →
      CallChange config k ch [.chosen c f] ⟨f,.scanning rest (chosen ++ [c]) .connected⟩
  | pushed {f : LiveFrame} {before c : Nat} {ev : List ServerEvent} {rest : List Nat} :
      k.calls ch = some ⟨f,.pushing before c rest⟩ →
      (∀ d g, .queued d g ∈ ev → d = c) →
      CallChange config k ch ev ⟨f,.recounting before c rest⟩

section

variable {config : LiveRtspServerConfig} {k k' : Core} {a : ServerAction} {ev : List ServerEvent}

theorem getElem?_set_some {α : Type} {l : List α} {i j : Nat} {a b : α}
    (h : (l.set i a)[j]? = some b) : (i = j ∧ b = a) ∨ (i ≠ j ∧ l[j]? = some b) := by
  rw [List.getElem?_set] at h
  split at h
  · split at h
    · exact .inl ⟨‹_›,(Option.some.inj h).symm⟩
    · cases h
  · exact .inr ⟨‹_›,h⟩

theorem session_change {c : Nat} {x : Session} (hm : CoreMove config k a ev k')
    (hx : k'.sessions[c]? = some x) : SessionChange config k c a ev x := by
  cases hm with
  | idle => exact .kept hx (by simp) (by simp)
  | accepted sequence ssrc timestampOrigin =>
    rw [List.getElem?_append] at hx
    split at hx
    · exact .kept hx (by simp) (by simp)
    · rename_i hlen
      rw [List.getElem?_singleton] at hx
      split at hx
      · cases hx
        exact .added sequence ssrc timestampOrigin (by omega)
      · cases hx
  | session hd hs _ =>
    rcases getElem?_set_some hx with ⟨rfl,rfl⟩ | ⟨hne,hx⟩
    · exact .stepped hd hs
    · exact .kept hx (other_session hne) (by simp)
  | ignored view => exact .kept hx (by simp) (by simp)
  | passed view _ _ => exact .kept hx (by simp) (by simp)
  | onward _ _ => exact .kept hx (by simp) (by simp)
  | chose _ _ _ => exact .kept hx (by simp) (by simp)
  | returned _ => exact .kept hx (by simp) (by simp)
  | @pushed ch f before d x' rest hcall hd =>
    rcases getElem?_set_some hx with ⟨rfl,rfl⟩ | ⟨hne,hx⟩
    · exact .pushed hcall hd
    · refine .kept hx queued_silent fun g hg => ?_
      split at hg <;> simp at hg
      exact hne hg.1.symm

theorem update_some {calls : Int → Option FrameCall} {a b : Int} {v : Option FrameCall}
    {call : FrameCall} (h : Function.update calls a v b = some call) :
    (b = a ∧ v = some call) ∨ (b ≠ a ∧ calls b = some call) := by
  rw [Function.update_apply] at h
  split at h
  · exact .inl ⟨‹_›,h⟩
  · exact .inr ⟨‹_›,h⟩

theorem call_change {ch : Int} {call : FrameCall}
    (hch : ∀ ch call, k.calls ch = some call → call.frame.frame.channelId = ch)
    (hm : CoreMove config k a ev k') (hcall : k'.calls ch = some call) :
    CallChange config k ch ev call := by
  cases hm with
  | idle => exact .kept hcall (by simp)
  | accepted _ _ _ => exact .kept hcall (by simp)
  | session _ _ _ => exact .kept hcall (by simp)
  | ignored view => exact .kept hcall (by simp)
  | passed view ha _ =>
    rcases update_some hcall with ⟨rfl,hv⟩ | ⟨-,hold⟩
    · cases hv
      exact .called view ha rfl
    · exact .kept hold (by simp)
  | onward hold ho =>
    rcases update_some hcall with ⟨rfl,hv⟩ | ⟨-,hother⟩
    · cases hv
      exact .onward hold ho
    · exact .kept hother (by simp)
  | chose hold _ _ =>
    rcases update_some hcall with ⟨rfl,hv⟩ | ⟨-,hother⟩
    · cases hv
      exact .chose hold
    · exact .kept hother (by simp)
  | returned hold =>
    rcases update_some hcall with ⟨rfl,hv⟩ | ⟨-,hother⟩
    · cases hv
    · exact .kept hother (by simp)
  | @pushed ch' f before c x rest hold hx =>
    have hq : ∀ d g, .queued d g ∈ (if x.queue.accepts f then [ServerEvent.queued c f] else []) →
        d = c ∧ g = f := by
      intro d g hm
      split at hm <;> simp at hm
      exact hm
    rcases update_some hcall with ⟨rfl,hv⟩ | ⟨hne,hother⟩
    · cases hv
      exact .pushed hold fun d g hm => (hq d g hm).1
    · refine .kept hother fun d g hm heq => hne ?_
      rw [(hq d g hm).2] at heq
      exact heq.symm.trans (hch _ _ hold)

end

namespace CallPhase

def chosen : CallPhase → List Nat
  | .locking => []
  | .scanning _ chosen _ => chosen
  | .counting rest => rest
  | .pushing _ client rest => client :: rest
  | .recounting _ _ rest => rest

def Pending (c : Nat) : CallPhase → Prop
  | .locking => True
  | .scanning _ _ _ => True
  | p => c ∈ p.chosen

def listed : CallPhase → List Nat
  | .scanning rest chosen _ => rest ++ chosen
  | p => p.chosen

def probing : CallPhase → Option Nat
  | .scanning (client :: _) _ .channelId => some client
  | _ => none

end CallPhase

section

variable {k : Core} {p q : CallPhase} {clients : List Nat}

theorem Onward.pending (ho : Onward k p q clients) {c : Nat} (hc : q.Pending c) : p.Pending c := by
  cases ho with
  | lock _ _ => trivial
  | unlock _ _ => trivial
  | probe _ _ _ _ _ _ => trivial
  | skip _ _ _ _ => trivial
  | count _ _ _ => exact hc
  | miss _ _ _ => exact List.mem_cons_of_mem _ hc
  | recount _ _ _ => exact hc

theorem Onward.chosen (ho : Onward k p q clients) {c : Nat} (hc : c ∈ q.chosen) : c ∈ p.chosen := by
  cases ho with
  | lock _ _ => exact absurd hc List.not_mem_nil
  | miss _ _ _ => exact List.mem_cons_of_mem _ hc
  | _ => exact hc

theorem Onward.sublist (ho : Onward k p q clients) : clients.Sublist k.clients := by
  cases ho with
  | lock _ hs => exact hs
  | _ => exact List.Sublist.refl _

theorem Onward.listed (ho : Onward k p q clients) (hk : k.clients.Nodup) (hp : p.listed.Nodup) :
    q.listed.Nodup := by
  cases ho with
  | lock _ hs => simpa [CallPhase.listed] using hs.nodup hk
  | skip c rest chosen _ => exact (List.sublist_cons_self c (rest ++ chosen)).nodup hp
  | miss _ c rest => exact (List.sublist_cons_self c rest).nodup hp
  | _ => exact hp

theorem Onward.probing (ho : Onward k p q clients) {c : Nat} (hq : q.probing = some c) :
    ∃ x, k.sessions[c]? = some x ∧ x.playing = true := by
  cases ho with
  | probe d rest chosen _ r hplay =>
    cases r with
    | channelId =>
      cases hq
      exact hplay rfl
    | _ => cases hq
  | lock _ _ => cases clients <;> cases hq
  | skip _ rest _ _ => cases rest <;> cases hq
  | _ => cases hq

end

end RpiVms

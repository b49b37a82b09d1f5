import RpiVms.Client.Safety
import RpiVms.Library.Descent

namespace RpiVms

open Search Segments Framing Runs

namespace RtspsClient

section

variable {config : LiveRtspServerConfig} {url : RtspUrl} {channel : LiveChannel} {c : Nat} {units : List Bytes}
  {id : SessionId} {label : Label} {d : Dialogue} {x y : Session} {sets : Int → ParameterSets}
  {action : ServeAction} {act : SessionAction} {events : List SessionEvent}

end

section

variable {config : LiveRtspServerConfig} {c : Nat} {d t : Dialogue} {a : DialogueAction} {ev : List ServerEvent}

end

section

variable (config : LiveRtspServerConfig) (c : Nat) (d : Dialogue) (schedule : Nat → DialogueAction)

def dialogueAt (n : Nat) : List ServerEvent × Dialogue := runTo (Dialogue.step config c) ([],d) schedule n

def takes (n : Nat) (ev : List ServerEvent) (t : Dialogue) : Prop :=
  (dialogueAt config c d schedule n).2.step config c (schedule n) = some (ev,t)

-- the session can take a step, or would have to wait for clients_mutex_
def SessionReady : Prop :=
  (∃ action, d.step config c (.serve action) ≠ none) ∨ d.server.clientsMutex ≠ none

end

section

variable {config : LiveRtspServerConfig} {url : RtspUrl} {channel : LiveChannel} {c : Nat} {d : Dialogue}
  {h ev : List ServerEvent} {t : Dialogue} {m : ℕ ×ₗ ℕ} {schedule : Nat → DialogueAction} {n N : Nat}

theorem Holds.reached (hi : Holds url channel c h d (toLex (0,0))) :
    d.client.counts = true ∨ d.client.point = .finished := by
  obtain ⟨x,-,hexchange⟩ := hi.session
  generalize hm : (toLex (0,0) : ℕ ×ₗ ℕ) = m at hexchange
  cases hexchange with
  | asking h => simp at hm
  | asked h => simp at hm
  | answered h => simp at hm
  | counting h => exact .inl (by rcases h.point with hp | hp | hp <;> simp [Client.counts,hp])
  | finished hp _ _ => exact .inr hp

theorem serve_enabled {x : Session} {action : ServeAction} {act : SessionAction} (hx : d.server.sessions[c]? = some x)
    (hfree : ¬ (x.point = .registering ∧ d.server.clientsMutex ≠ none)) (ha : d.sessionAction action = some act)
    (hstep : sessionStep config d.server.running d.server.parameterSets x act ≠ none) :
    SessionReady config c d := by
  refine .inl ⟨action,?_⟩
  simp only [Dialogue.step,ha,Option.bind_some,Server.step,Server.stepSession,hx,if_neg hfree]
  simpa using hstep

theorem Asked.extracts {units : List Bytes} {id : SessionId} {label : Label} {x : Session}
    (h : Asked url channel.channelId units id label d.client x d.toServer d.toClient) (hf : Fitting config url channel) :
    extractOneRtspMessage config.limits x.input ≠ none := by
  by_cases hall : x.input = label.request url.base id.text
  · have hmessage := h.message hf (min config.limits.maxBodyBytes intMax)
    have hunit := whole_unit config.limits [] (.inr ⟨_,[],(List.append_nil _).symm,hmessage⟩)
    rw [List.append_nil] at hunit
    simp [hall,hunit]
  · simp [(h.cut hf hall).1]

theorem Asked.ready {units : List Bytes} {id : SessionId} {label : Label} {x : Session}
    (h : Asked url channel.channelId units id label d.client x d.toServer d.toClient) (hf : Fitting config url channel)
    (hx : d.server.sessions[c]? = some x) : SessionReady config c d := by
  by_cases hmutex : x.point = .registering ∧ d.server.clientsMutex ≠ none
  · exact .inr hmutex.2
  have henabled {action : ServeAction} {act : SessionAction} := @serve_enabled config c d x action act hx hmutex
  have ha := h.serving.attends
  cases hp : x.point with
  | connecting => exact @henabled .connect _ rfl (by simp [sessionStep,hp])
  | polling => exact @henabled (.poll 0) _ rfl (by simp [sessionStep,hp])
  | parsing =>
    refine @henabled (.extract 0 0 true) _ rfl ?_
    simp only [sessionStep,hp,extractStep]
    split
    · rename_i hnone
      exact absurd hnone (h.extracts hf)
    · simp
    · split <;> simp
  | sending f => exact @henabled (.send none 0 0) _ rfl (by simp [sessionStep,hp])
  | registering | activating | creating | storingChannel | storingPlaying | checking | popping =>
    exact @henabled .advance _ rfl (by simp [sessionStep,hp])
  | disconnecting | halting | closing | deactivating | recording | finished =>
    rw [hp] at ha
    exact ha.elim

def Over (c : Nat) (d : Dialogue) : Prop :=
  d.client.point = .finished ∧ d.server.sessions[c]?.map (·.point) = some .finished ∧ d.server.clientsMutex = none

theorem Over.client (h : Over c d) (action : ClientAction) : d.step config c (.client action) = none := by
  cases action <;> simp [Dialogue.step,Client.step,h.1]

theorem Over.session (h : Over c d) : ¬ SessionReady config c d := by
  obtain ⟨x,hx,hp⟩ := Option.map_eq_some_iff.mp h.2.1
  rintro (⟨action,hstep⟩ | hmutex)
  · obtain ⟨⟨ev,t⟩,hs⟩ := Option.ne_none_iff_exists'.mp hstep
    obtain ⟨act,events,y,-,hsession,-⟩ := serve_session hs hx
    cases act <;> simp [sessionStep,hp] at hsession
  · exact hmutex h.2.2

end

end RtspsClient

end RpiVms

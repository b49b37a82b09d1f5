import RpiVms.Client.Stages

namespace RpiVms

open Search Segments Framing Runs

section

variable {c : Nat} {ev : List ServerEvent}

theorem mediaUnits_append (h g : List ServerEvent) : mediaUnits c (h ++ g) = mediaUnits c h ++ mediaUnits c g :=
  List.flatMap_append

theorem media_silent (h : ∀ e, .session c e ∉ ev) : mediaUnits c ev = [] := by
  refine List.flatMap_eq_nil_iff.mpr fun e he => ?_
  cases e with
  | session client e =>
    have hne : client ≠ c := fun hc => h e (hc ▸ he)
    simp [ServerEvent.mediaTo,hne]
  | passed | chosen | queued => rfl

theorem media_own (events : List SessionEvent) :
    mediaUnits c (events.map (.session c)) = events.flatMap (·.media) := by
  simp [mediaUnits,List.flatMap_map,ServerEvent.mediaTo]

theorem written_own (events : List SessionEvent) :
    (events.map (ServerEvent.session c)).flatMap (·.writtenTo c) = events.flatMap (·.written) := by
  simp [List.flatMap_map,ServerEvent.writtenTo]

end

namespace RtspsClient

def ModerateAction : DialogueAction → Prop
  | .elsewhere (.onFrame view) => view.data.length ≤ 2 ^ 28
  | _ => True

structure Holds (url : RtspUrl) (channel : LiveChannel) (c : Nat) (h : List ServerEvent) (d : Dialogue)
    (m : ℕ ×ₗ ℕ) : Prop where
  running : d.server.running = true
  sets : ∀ ch, Moderate (d.server.parameterSets ch)
  frames : d.client.point ≠ .finished → ∀ u ∈ mediaUnits c h, IsFrame u
  session : ∃ x, d.server.sessions[c]? = some x ∧
    Exchange url channel.channelId (mediaUnits c h) d.client x d.toServer d.toClient m

section

variable {config : LiveRtspServerConfig} {url : RtspUrl} {channel : LiveChannel} {c : Nat} {h ev : List ServerEvent}
  {d t : Dialogue} {m : ℕ ×ₗ ℕ}

theorem moderate_step {s s' : Server} {a : ServerAction} (hsets : ∀ ch, Moderate (s.parameterSets ch))
    (ha : ModerateAction (.elsewhere a)) (hs : s.step config a = some (ev,s')) :
    ∀ ch, Moderate (s'.parameterSets ch) := by
  cases a with
  | accept sequence ssrc timestampOrigin =>
    simp only [Server.step,Server.accept] at hs
    split at hs <;> cases hs
    exact hsets
  | session client action =>
    simp only [Server.step,Server.stepSession] at hs
    split at hs
    · cases hs
    · split at hs
      · cases hs
      · obtain ⟨r,-,he⟩ := Option.map_eq_some_iff.mp hs
        cases he
        exact hsets
  | onFrame view =>
    simp only [Server.step,Server.onFrame] at hs
    split at hs
    · cases hs
    · split at hs <;> cases hs
      · intro ch
        by_cases hch : ch = view.channelId
        · subst hch
          simpa using moderate_update (hsets view.channelId) ha
        · simpa [Function.update_of_ne hch] using hsets ch
      · exact hsets
  | frameCall channelId =>
    rw [(stepCall_rest hs).2.1]
    exact hsets
  | stop =>
    cases hs
    exact hsets

theorem Holds.elsewhere {a : ServerAction} (hi : Holds url channel c h d m) (hmod : ModerateAction (.elsewhere a))
    (hs : d.step config c (.elsewhere a) = some (ev,t)) : Holds url channel c (h ++ ev) t m := by
  simp only [Dialogue.step] at hs
  split at hs
  · rename_i hbeside
    obtain ⟨⟨events,server⟩,hstep,he⟩ := Option.map_eq_some_iff.mp hs
    cases he
    obtain ⟨x,hx,hexchange⟩ := hi.session
    obtain ⟨hsilent,queue,hy⟩ := step_beside hstep (beside_other hbeside) hx
    have hmedia : mediaUnits c (h ++ events) = mediaUnits c h := by
      rw [mediaUnits_append,media_silent hsilent,List.append_nil]
    refine ⟨?_,moderate_step hi.sets hmod hstep,?_,?_⟩
    · rw [step_running hstep (by rintro rfl; simp [beside] at hbeside)]
      exact hi.running
    · rw [hmedia]
      exact hi.frames
    · rw [hmedia]
      exact ⟨_,hy,hexchange.queued queue⟩
  · cases hs

theorem serve_session {a : ServeAction} {x : Session} (hs : d.step config c (.serve a) = some (ev,t))
    (hx : d.server.sessions[c]? = some x) :
    ∃ act events y, d.sessionAction a = some act ∧
      sessionStep config d.server.running d.server.parameterSets x act = some (events,y) ∧
      ev = events.map (.session c) ∧ t.server.sessions[c]? = some y ∧ t.server.running = d.server.running ∧
      t.server.parameterSets = d.server.parameterSets ∧ t.client = d.client ∧ t.toServer = d.unread a ∧
      t.toClient = d.toClient ++ events.flatMap (·.written) := by
  obtain ⟨act,hact,hs⟩ := Option.bind_eq_some_iff.mp hs
  obtain ⟨⟨events,server⟩,hstep,he⟩ := Option.map_eq_some_iff.mp hs
  cases he
  obtain ⟨events,y,hsession,rfl,hy,hsets⟩ := stepSession_own hstep hx
  exact ⟨act,events,y,hact,hsession,rfl,hy,step_running hstep (by simp),hsets,rfl,rfl,by rw [written_own]⟩

theorem Holds.serve {a : ServeAction} (hi : Holds url channel c h d m) (hf : Fitting config url channel)
    (hs : d.step config c (.serve a) = some (ev,t)) :
    ∃ m', Holds url channel c (h ++ ev) t m' ∧ m' ≤ m ∧ (d.client.point ≠ .finished → Moves (.serve a) ev → m' < m) := by
  obtain ⟨x,hx,hexchange⟩ := hi.session
  obtain ⟨act,events,y,hact,hsession,rfl,hy,hrun,hsets,hclient,hserver,hbytes⟩ := serve_session hs hx
  rw [hi.running] at hsession hrun
  have hmoderate : ∀ ch, Moderate (t.server.parameterSets ch) := by
    rw [hsets]
    exact hi.sets
  by_cases hopen : d.client.point = .finished
  · refine ⟨m,⟨hrun,hmoderate,fun hn => absurd (by rw [hclient]; exact hopen) hn,y,hy,?_⟩,le_refl _,
      fun hn => absurd hopen hn⟩
    rw [mediaUnits_append,hclient]
    exact hexchange.left hopen y _ _ _
  · obtain ⟨hframes,m',hkept,hle,hless⟩ := hexchange.serve_step hf hi.sets hopen hact hsession
    refine ⟨m',⟨hrun,hmoderate,fun _ u hu => ?_,y,hy,?_⟩,hle,fun _ hmoves => hless c hmoves⟩
    · rw [mediaUnits_append,media_own] at hu
      exact (List.mem_append.mp hu).elim (hi.frames hopen u) (hframes u)
    · rw [mediaUnits_append,media_own,hclient,hserver,hbytes]
      exact hkept

theorem Holds.client {a : ClientAction} (hi : Holds url channel c h d m)
    (hs : d.step config c (.client a) = some (ev,t)) :
    ∃ m', Holds url channel c (h ++ ev) t m' ∧ (m' < m ∨ m = toLex (0,0) ∧ m' = m) := by
  simp only [Dialogue.step] at hs
  split at hs
  · rename_i hmay
    obtain ⟨⟨out,client⟩,hstep,he⟩ := Option.map_eq_some_iff.mp hs
    cases he
    obtain ⟨x,hx,hexchange⟩ := hi.session
    have hopen : d.client.point ≠ .finished := fun hfin => by
      cases a <;> simp only [Client.step,hfin] at hstep <;> cases hstep
    obtain ⟨m',hnear,hm⟩ := hexchange.client_step (hi.frames hopen) hx hmay hstep
    rw [List.append_nil]
    exact ⟨m',⟨hi.running,hi.sets,fun _ => hi.frames hopen,x,hx,hnear⟩,hm⟩
  · cases hs

theorem Holds.step {a : DialogueAction} (hi : Holds url channel c h d m) (hf : Fitting config url channel)
    (hmod : ModerateAction a) (hs : d.step config c a = some (ev,t)) :
    ∃ m', Holds url channel c (h ++ ev) t m' ∧ m' ≤ m ∧ (Moves a ev → m' < m ∨ m = toLex (0,0)) := by
  cases a with
  | elsewhere a => exact ⟨m,hi.elsewhere hmod hs,le_refl _,fun hmoves => hmoves.elim⟩
  | serve a =>
    obtain ⟨m',hkept,hle,hless⟩ := hi.serve hf hs
    refine ⟨m',hkept,hle,fun hmoves => ?_⟩
    by_cases hopen : d.client.point = .finished
    · obtain ⟨x,-,hexchange⟩ := hi.session
      exact .inr (hexchange.of_finished hopen).1
    · exact .inl (hless hopen hmoves)
  | client a =>
    obtain ⟨m',hkept,hless | ⟨hm,heq⟩⟩ := hi.client hs
    · exact ⟨m',hkept,hless.le,fun _ => .inl hless⟩
    · exact ⟨m',hkept,heq.le,fun _ => .inr hm⟩

structure Begins (config : LiveRtspServerConfig) (url : RtspUrl) (c : Nat) (d : Dialogue) : Prop where
  running : d.server.running = true
  sets : ∀ ch, Moderate (d.server.parameterSets ch)
  accepted : ∃ sequence ssrc timestampOrigin,
    d.server.sessions[c]? = some (newSession config sequence ssrc timestampOrigin)
  client : d.client = { url := url }
  sent : d.toServer = []
  received : d.toClient = []

theorem Begins.holds (hb : Begins config url c d) : Holds url channel c [] d (toLex (12,0)) := by
  obtain ⟨sequence,ssrc,timestampOrigin,hx⟩ := hb.accepted
  refine ⟨hb.running,hb.sets,by simp [mediaUnits],_,hx,?_⟩
  refine @Exchange.asking _ _ _ _ _ _ _ (randomSessionId 0 0) .options ⟨?_,⟨?_,?_,by simp,by simp,?_,rfl⟩,?_,?_,rfl,hb.sent,hb.received,rfl⟩
  all_goals try rw [hb.client]
  · rfl
  · exact ⟨rfl,rfl,trivial,fun _ => ⟨rfl,rfl,rfl⟩⟩

def Client.counts (client : Client) : Bool :=
  match client.point with
  | .counting | .selecting | .leaving => true
  | _ => false

theorem Holds.counting (hi : Holds url channel c h d m) (hc : d.client.counts = true) :
    ∃ id x counted waiting, d.server.sessions[c]? = some x ∧
      Counting channel.channelId (mediaUnits c h) id d.client x d.toServer d.toClient counted waiting := by
  obtain ⟨x,hx,hexchange⟩ := hi.session
  unfold Client.counts at hc
  cases hexchange with
  | asking h => simp [h.point] at hc
  | asked h => rcases h.point with hp | hp <;> simp [hp] at hc
  | answered h => rcases h.point with hp | hp <;> simp [hp] at hc
  | counting h => exact ⟨_,x,_,_,hx,h⟩
  | finished hp _ _ => simp [hp] at hc

theorem Holds.counters (hi : Holds url channel c h d m) (hc : d.client.counts = true ∨ d.client.point = .finished) :
    ∃ counted waiting, mediaUnits c h = counted ++ waiting ∧ d.client.counters = counted.foldl Counters.packet {} ∧
      (d.client.counts = true → d.client.buffer ++ d.toClient = waiting.flatten) := by
  rcases hc with hc | hfin
  · obtain ⟨id,x,counted,waiting,-,hcounting⟩ := hi.counting hc
    exact ⟨counted,waiting,hcounting.split,hcounting.counters,fun _ => hcounting.stream⟩
  · obtain ⟨x,-,hexchange⟩ := hi.session
    obtain ⟨-,counted,waiting,hsplit,hcounters⟩ := hexchange.of_finished hfin
    exact ⟨counted,waiting,hsplit,hcounters,fun hc => by simp [Client.counts,hfin] at hc⟩

end

end RtspsClient

end RpiVms

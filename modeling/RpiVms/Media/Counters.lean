import RpiVms.Media.Moves

namespace RpiVms

open Runs

-- an on_ingest_buffer call that has set the attempt's flag: before the channel's flag, and before the counter
inductive ProbePoint where
  | flagging
  | counting
  deriving DecidableEq, Repr

-- the probe runs on the pipeline's thread, one atomic operation after another
structure ProbedIngest where
  ingest : ChannelIngest := {}
  probes : List ProbePoint := []
  deriving DecidableEq, Repr

inductive ProbedAction where
  | worker (running : Bool) (action : IngestAction)
  | enter
  | flag (i : Nat)
  | count (i : Nat)
  deriving DecidableEq, Repr

namespace ProbedIngest

variable (gmtime : Int → CivilTime) (config : ChannelIngestConfig) (p : ProbedIngest)

-- gst_element_set_state(GST_STATE_NULL) waits for the callbacks, so none outlives its attempt
def workerStep (running : Bool) (action : IngestAction) : Option (List IngestEvent × ProbedIngest) :=
  if action = .buffer then none
  else
    match p.ingest.step gmtime config running action with
    | none => none
    | some (events,t) =>
        if t.streaming.isSome || p.probes.isEmpty then some (events,{ p with ingest := t }) else none

def enterProbe : Option ProbedIngest :=
  match p.ingest.streaming with
  | none => none
  | some (a,place) =>
      if a.firstBufferSeen then some p
      else
        some { ingest := p.ingest.goto (place { a with firstBufferSeen := true }), probes := p.probes ++ [.flagging] }

def flagProbe (i : Nat) : Option ProbedIngest :=
  match p.probes[i]? with
  | some .flagging =>
      if p.ingest.firstBufferSeen then some { p with probes := p.probes.eraseIdx i }
      else
        some { ingest := { p.ingest with firstBufferSeen := true }, probes := p.probes.set i .counting }
  | _ => none

def countProbe (i : Nat) : Option ProbedIngest :=
  match p.probes[i]? with
  | some .counting =>
      some { ingest := { p.ingest with firstBuffers := p.ingest.firstBuffers + 1 }, probes := p.probes.eraseIdx i }
  | _ => none

def step : ProbedAction → Option (List IngestEvent × ProbedIngest)
  | .worker running action => p.workerStep gmtime config running action
  | .enter => p.enterProbe.map ([],·)
  | .flag i => (p.flagProbe i).map ([],·)
  | .count i => (p.countProbe i).map ([],·)

end ProbedIngest

def ChannelIngest.failures (w : ChannelIngest) : Nat := w.pipelineErrors + w.eosEvents

def CountedAt (attempts reconnects failures : Nat) : IngestPoint → Prop
  | .looping | .waiting _ => attempts = reconnects ∧ failures = reconnects
  | .locating _ | .launching _ | .configuring _ => attempts = reconnects + 1 ∧ failures = reconnects
  | .playing a => a.result = .stopped ∧ attempts = reconnects + 1 ∧ failures = reconnects
  | .watching a | .signalling a | .draining a | .closing a =>
      attempts = reconnects + 1 ∧ failures = if a.result = .stopped then reconnects else attempts
  | .deciding result =>
      attempts = reconnects + 1 ∧ reconnects ≤ failures ∧ failures ≤ attempts ∧
        (result ≠ .stopped → failures = attempts)
  | .returned | .escaped _ => reconnects ≤ failures ∧ failures ≤ attempts ∧ attempts ≤ reconnects + 1

def IngestPoint.unseen : IngestPoint → Nat
  | .locating _ | .launching _ | .configuring _ => 1
  | .playing a | .watching a | .signalling a | .draining a | .closing a => if a.firstBufferSeen then 0 else 1
  | _ => 0

def Follows (p q : IngestPoint) : Prop :=
  (∀ attempts reconnects failures, CountedAt attempts reconnects failures p → CountedAt attempts reconnects failures q) ∧
    q.unseen ≤ p.unseen

section

variable {attempts reconnects failures : Nat} {point : IngestPoint}

theorem counted_bounds (h : CountedAt attempts reconnects failures point) :
    reconnects ≤ failures ∧ failures ≤ attempts ∧ attempts ≤ reconnects + 1 := by
  cases point with
  | looping | waiting | locating | launching | configuring | playing | deciding | returned | escaped =>
    simp only [CountedAt] at h
    omega
  | watching a | signalling a | draining a | closing a =>
    simp only [CountedAt] at h
    split at h <;> omega

theorem follows_returned (point : IngestPoint) : Follows point .returned :=
  ⟨fun _ _ _ h => counted_bounds h,Nat.zero_le _⟩

theorem follows_escaped (point : IngestPoint) (e : Thrown) : Follows point (.escaped e) :=
  ⟨fun _ _ _ h => counted_bounds h,Nat.zero_le _⟩

end

def Counts (n : Nat) (w : ChannelIngest) : Prop :=
  CountedAt w.connectionAttempts w.reconnects w.failures w.point ∧
    w.firstBuffers + n + w.point.unseen ≤ w.connectionAttempts

section

variable {gmtime : Int → CivilTime} {config : ChannelIngestConfig} {running : Bool} {w t : ChannelIngest}
  {action : IngestAction} {ev : List IngestEvent} {a : Attempt} {n : Nat} {point next : IngestPoint}

theorem counts_goto (h : Counts n w) (hp : w.point = point) (hf : Follows point next) : Counts n (w.goto next) := by
  obtain ⟨ht,hb⟩ := h
  rw [hp] at ht hb
  exact ⟨hf.1 _ _ _ ht,Nat.le_trans (Nat.add_le_add_left hf.2 _) hb⟩

theorem counts_attempted {source : ThrownBy} {failure : Option Thrown} (h : Counts n w)
    (hp : w.point = point) (hf : Follows point next) : Counts n (w.attempted source failure next).2 := by
  cases failure with
  | none => exact counts_goto h hp hf
  | some e => exact counts_goto h rfl (follows_escaped _ e)

theorem counts_element (m : ElementMessage) (h : Counts n w) (hp : w.point = point) (hf : Follows point next) :
    Counts n (w.handleElementMessage config m next).2 := by
  rcases @handleElementMessage_cases config w m next with ⟨ev,-,he⟩ | ⟨e,he⟩
  · rw [he]
    exact counts_goto h hp hf
  · rw [he]
    exact counts_goto h rfl (follows_escaped _ e)

theorem counts_failed {b : Attempt} (h : Counts n w)
    (hp : w.point = .playing a ∨ w.point = .watching a ∧ a.result = .stopped) (hr : b.result ≠ .stopped)
    (hb : b.firstBufferSeen = a.firstBufferSeen) (ht : t.point = .watching b)
    (hattempts : t.connectionAttempts = w.connectionAttempts) (hreconnects : t.reconnects = w.reconnects)
    (hbuffers : t.firstBuffers = w.firstBuffers) (hfailures : t.failures = w.failures + 1) : Counts n t := by
  unfold Counts at h ⊢
  rw [ht,hattempts,hreconnects,hbuffers,hfailures]
  rcases hp with hp | ⟨hp,hs⟩
  · simp only [hp,CountedAt,IngestPoint.unseen,hb,if_neg hr] at h ⊢
    omega
  · simp only [hp,CountedAt,IngestPoint.unseen,hb,if_neg hr,if_pos hs] at h ⊢
    omega

theorem counts_watch {late : Bool} {message : Option BusMessage} (h : Counts n w) (hp : w.point = .watching a) :
    Counts n (w.watch config running a late message).2 := by
  unfold ChannelIngest.watch
  split
  · rename_i hw
    have hfail : Counts n (w.pipelineFailed a) :=
      counts_failed (b := { a with result := .pipelineError }) h (.inr ⟨hp,hw.1⟩) (by simp) rfl rfl rfl rfl rfl
        (Nat.add_right_comm w.pipelineErrors 1 w.eosEvents)
    split
    · exact hfail
    · split
      · exact h
      · exact hfail
      · exact counts_failed (b := { a with result := .endOfStream, receivedEos := true }) h (.inr ⟨hp,hw.1⟩)
          (by simp) rfl rfl rfl rfl rfl rfl
      · exact counts_element _ h hp ⟨fun _ _ _ ht => ht,Nat.le_refl _⟩
  · split
    · exact counts_goto h hp ⟨fun _ _ _ ht => ht,Nat.le_refl _⟩
    · exact counts_goto h hp ⟨fun _ _ _ ht => ht,Nat.le_refl _⟩

theorem counts_drain {expired : Bool} {message : Option BusMessage} (h : Counts n w) (hp : w.point = .draining a) :
    Counts n (w.drain config a expired message).2 := by
  have hclose : Counts n (w.goto (.closing a)) :=
    counts_goto h hp ⟨fun _ _ _ ht => ht,Nat.le_refl _⟩
  unfold ChannelIngest.drain
  split
  · exact hclose
  · split
    · exact h
    · exact counts_element _ h hp ⟨fun _ _ _ ht => ht,Nat.le_refl _⟩
    · exact hclose

theorem follows_deciding (a : Attempt) (running : Bool) :
    Follows (.closing a) (.deciding (if running then a.result else .stopped)) := by
  refine ⟨fun attempts reconnects failures h => ?_,Nat.zero_le _⟩
  have hb := counted_bounds h
  simp only [CountedAt] at h ⊢
  refine ⟨h.1,hb.1,hb.2.1,fun hr => ?_⟩
  cases running with
  | false => exact absurd rfl hr
  | true =>
    rw [h.2]
    exact if_neg hr

theorem counts_decideNext {result : AttemptResult} (h : Counts n w) (hp : w.point = .deciding result) :
    Counts n (w.decideNext config running result).2 := by
  unfold ChannelIngest.decideNext
  split
  · exact counts_goto h rfl (follows_returned _)
  · rename_i hn
    rw [not_or] at hn
    obtain ⟨ht,hb⟩ := h
    rw [hp] at ht hb
    have hf := ht.2.2.2 hn.2
    refine ⟨⟨ht.1,hf.trans ht.1⟩,hb⟩

theorem counts_own (hs : w.ownStep gmtime config running action = some (ev,t)) (h : Counts n w) : Counts n t := by
  unfold ChannelIngest.ownStep at hs
  split at hs
  · rename_i hp
    cases running with
    | false =>
      cases hs
      exact counts_goto h rfl (follows_returned _)
    | true =>
      cases hs
      obtain ⟨ht,hb⟩ := h
      rw [hp] at ht hb
      exact ⟨⟨congrArg (· + 1) ht.1,ht.2⟩,Nat.succ_le_succ hb⟩
  · rename_i attempt now failure hp
    cases failure with
    | none =>
      cases hs
      exact counts_goto h hp ⟨fun _ _ _ ht => ht,Nat.le_refl _⟩
    | some e =>
      cases hs
      exact counts_goto h rfl (follows_escaped _ e)
  · rename_i attempt failure hp
    obtain rfl := (congrArg Prod.snd (Option.some.inj hs)).symm
    exact counts_attempted h hp ⟨fun _ _ _ ht => ht,Nat.le_refl _⟩
  · rename_i attempt failure hp
    obtain rfl := (congrArg Prod.snd (Option.some.inj hs)).symm
    exact counts_attempted h hp ⟨fun _ _ _ ht => ⟨rfl,ht⟩,Nat.le_refl _⟩
  · rename_i a changed hp
    cases changed with
    | true =>
      cases hs
      refine counts_goto h hp ⟨fun _ _ _ ht => ⟨ht.2.1,?_⟩,Nat.le_refl _⟩
      rw [if_pos ht.1,ht.2.2]
    | false =>
      cases hs
      exact counts_failed (b := { a with result := .pipelineError }) h (.inl hp) (by simp) rfl rfl rfl rfl rfl
        (Nat.add_right_comm w.pipelineErrors 1 w.eosEvents)
  · rename_i a late message hp
    obtain rfl := (congrArg Prod.snd (Option.some.inj hs)).symm
    exact counts_watch h hp
  · rename_i a sent hp
    cases sent with
    | true =>
      cases hs
      exact counts_goto h hp ⟨fun _ _ _ ht => ht,Nat.le_refl _⟩
    | false =>
      cases hs
      exact counts_goto h hp ⟨fun _ _ _ ht => ht,Nat.le_refl _⟩
  · rename_i a expired message hp
    obtain rfl := (congrArg Prod.snd (Option.some.inj hs)).symm
    exact counts_drain h hp
  · rename_i a hp
    cases hs
    exact counts_goto h hp (follows_deciding a running)
  · rename_i result hp
    obtain rfl := (congrArg Prod.snd (Option.some.inj hs)).symm
    exact counts_decideNext h hp
  · rename_i ms hp
    cases hs
    unfold ChannelIngest.waitBeforeReconnect
    split
    · split
      · exact counts_goto h hp ⟨fun _ _ _ ht => ht,Nat.le_refl _⟩
      · exact counts_goto h hp ⟨fun _ _ _ ht => ht,Nat.le_refl _⟩
    · exact counts_goto h rfl (follows_returned _)
  · cases hs

theorem counts_callback {place : Attempt → IngestPoint} (hb : action ≠ .buffer)
    (hs : w.callback gmtime config a place action = some (ev,t)) (h : Counts n w) : Counts n t := by
  unfold ChannelIngest.callback at hs
  split at hs <;> cases hs
  · exact absurd rfl hb
  · exact h
  · exact h
  · exact h
  · exact h

theorem counts_worker (hb : action ≠ .buffer) (hs : w.step gmtime config running action = some (ev,t))
    (h : Counts n w) : Counts n t := by
  unfold ChannelIngest.step at hs
  split at hs
  · obtain ⟨⟨a,place⟩,-,hs⟩ := Option.bind_eq_some_iff.mp hs
    exact counts_callback hb hs h
  · exact counts_own hs h

theorem counts_seen {place : Attempt → IngestPoint} (hw : w.streaming = some (a,place))
    (ha : a.firstBufferSeen = false) (h : Counts n w) :
    Counts (n + 1) (w.goto (place { a with firstBufferSeen := true })) := by
  obtain ⟨ht,hb⟩ := h
  unfold ChannelIngest.streaming at hw
  split at hw <;> cases hw <;> rename_i hp <;> rw [hp] at ht hb <;>
    simp only [IngestPoint.unseen,ha,Bool.false_eq_true,if_false] at hb <;> exact ⟨ht,hb⟩

end

section

variable {gmtime : Int → CivilTime} {config : ChannelIngestConfig} {p q : ProbedIngest} {i : Nat}

theorem counts_mono {m n : Nat} {w : ChannelIngest} (hmn : m ≤ n) (h : Counts n w) : Counts m w :=
  ⟨h.1,by have := h.2; omega⟩

theorem enterProbe_counts (hs : p.enterProbe = some q) (h : Counts p.probes.length p.ingest) :
    Counts q.probes.length q.ingest := by
  unfold ProbedIngest.enterProbe at hs
  split at hs
  · cases hs
  · rename_i a place hw
    cases ha : a.firstBufferSeen with
    | true =>
      rw [if_pos ha] at hs
      cases hs
      exact h
    | false =>
      rw [if_neg (by simp [ha])] at hs
      cases hs
      rw [List.length_append,List.length_singleton]
      exact counts_seen hw ha h

theorem probe_at {point : ProbePoint} (h : p.probes[i]? = some point) :
    (p.probes.eraseIdx i).length + 1 = p.probes.length := by
  have hi : i < p.probes.length := (List.getElem?_eq_some_iff.mp h).1
  rw [List.length_eraseIdx_of_lt hi]
  omega

theorem flagProbe_counts (hs : p.flagProbe i = some q) (h : Counts p.probes.length p.ingest) :
    Counts q.probes.length q.ingest := by
  unfold ProbedIngest.flagProbe at hs
  split at hs
  · rename_i hi
    have hlen := probe_at hi
    split at hs
    · cases hs
      exact counts_mono (Nat.le_of_succ_le (Nat.le_of_eq hlen)) h
    · cases hs
      rw [List.length_set]
      exact h
  · cases hs

theorem countProbe_counts (hs : p.countProbe i = some q) (h : Counts p.probes.length p.ingest) :
    Counts q.probes.length q.ingest := by
  unfold ProbedIngest.countProbe at hs
  split at hs
  · rename_i hi
    have hlen := probe_at hi
    cases hs
    obtain ⟨ht,hb⟩ := h
    refine ⟨ht,?_⟩
    simp only at hb ⊢
    omega
  · cases hs

theorem probed_counts {action : ProbedAction} {ev : List IngestEvent}
    (hs : p.step gmtime config action = some (ev,q)) (h : Counts p.probes.length p.ingest) :
    Counts q.probes.length q.ingest := by
  cases action with
  | worker running action =>
    simp only [ProbedIngest.step,ProbedIngest.workerStep] at hs
    split at hs
    · cases hs
    · rename_i hb
      split at hs
      · cases hs
      · rename_i events t hw
        split at hs
        · cases hs
          exact counts_worker hb hw h
        · cases hs
  | enter =>
    obtain ⟨q',hq,he⟩ := Option.map_eq_some_iff.mp hs
    cases he
    exact enterProbe_counts hq h
  | flag i =>
    obtain ⟨q',hq,he⟩ := Option.map_eq_some_iff.mp hs
    cases he
    exact flagProbe_counts hq h
  | count i =>
    obtain ⟨q',hq,he⟩ := Option.map_eq_some_iff.mp hs
    cases he
    exact countProbe_counts hq h

theorem counts_bounds {n : Nat} {w : ChannelIngest} (h : Counts n w) :
    (w.connectionAttempts = w.reconnects ∨ w.connectionAttempts = w.reconnects + 1) ∧
      w.reconnects ≤ w.pipelineErrors + w.eosEvents ∧ w.pipelineErrors + w.eosEvents ≤ w.connectionAttempts ∧
      w.firstBuffers ≤ w.connectionAttempts := by
  obtain ⟨ht,hb⟩ := h
  obtain ⟨hlow,hhigh,hopen⟩ := counted_bounds ht
  refine ⟨?_,hlow,hhigh,by omega⟩
  omega

theorem probe_uninterrupted {w : ChannelIngest} {a : Attempt} {place : Attempt → IngestPoint}
    (hw : w.streaming = some (a,place)) :
    (run (ProbedIngest.step gmtime config) ([],⟨w,[]⟩) [.enter,.flag 0,.count 0]).2 = ⟨w.onIngestBuffer a place,[]⟩ := by
  cases ha : a.firstBufferSeen with
  | true =>
    simp [run,next,ProbedIngest.step,ProbedIngest.enterProbe,ProbedIngest.flagProbe,ProbedIngest.countProbe,hw,ha,
      ChannelIngest.onIngestBuffer]
  | false =>
    cases hf : w.firstBufferSeen <;>
    simp [run,next,ProbedIngest.step,ProbedIngest.enterProbe,ProbedIngest.flagProbe,ProbedIngest.countProbe,hw,ha,hf,
      ChannelIngest.onIngestBuffer,ChannelIngest.goto]

end

theorem ingest_counters_consistent (gmtime : Int → CivilTime) (config : ChannelIngestConfig)
    (actions : List ProbedAction) :
    let w := (run (ProbedIngest.step gmtime config) ([],{}) actions).2.ingest
    (w.connectionAttempts = w.reconnects ∨ w.connectionAttempts = w.reconnects + 1) ∧
      w.reconnects ≤ w.pipelineErrors + w.eosEvents ∧ w.pipelineErrors + w.eosEvents ≤ w.connectionAttempts ∧
      w.firstBuffers ≤ w.connectionAttempts := by
  intro w
  have hstart : Counts ([] : List ProbePoint).length {} := ⟨⟨rfl,rfl⟩,Nat.le_refl 0⟩
  exact counts_bounds (@run_keeps _ _ _ (ProbedIngest.step gmtime config)
    (fun _ p => Counts p.probes.length p.ingest) (fun _ _ _ _ _ h hs => probed_counts hs h) ([],{}) actions hstart)

end RpiVms

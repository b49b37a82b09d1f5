import RpiVms.Media.Manager

namespace RpiVms

open Runs

def IngestPoint.preparing : IngestPoint → Bool
  | .locating _ | .launching _ | .configuring _ => true
  | _ => false

def IngestPoint.mayThrow : IngestPoint → Bool
  | .locating _ | .launching _ | .configuring _ | .draining _ => true
  | .watching a => a.result == .stopped
  | _ => false

def IngestPoint.inAttempt : IngestPoint → Bool
  | .locating _ | .launching _ | .configuring _ | .playing _ | .watching _ | .signalling _ | .draining _
  | .closing _ => true
  | _ => false

def IngestEvent.writes : IngestEvent → Bool
  | .createsDirectory _ | .handsOut _ => true
  | _ => false

def NoThrow (ev : List IngestEvent) : Prop := ∀ source e, .threw source e ∉ ev

inductive IngestMove (config : ChannelIngestConfig) (running : Bool) (w : ChannelIngest) :
    IngestAction → List IngestEvent → ChannelIngest → Prop
  | callback {action ev t a b place} (called : isCallback action = true)
      (streams : w.streaming = some (a,place)) (result : b.result = a.result)
      (point : t.point = place b) (attempts : t.connectionAttempts = w.connectionAttempts)
      (quiet : NoThrow ev) : IngestMove config running w action ev t
  | begins (stands : w.point = .looping) (runs : running = true) :
      IngestMove config running w .advance [.connecting (w.connectionAttempts + 1)]
        { w with
          connectionAttempts := w.connectionAttempts + 1
          firstBufferSeen := false
          point := .locating (w.connectionAttempts + 1) }
  | returns (stops : running = false ∨ w.point = .deciding .stopped) :
      IngestMove config running w .advance [] (w.goto .returned)
  | prepares {action ev next} (stands : w.point.preparing = true)
      (goes : next.preparing = true ∨ ∃ a, next = .playing a) (quiet : NoThrow ev) :
      IngestMove config running w action ev (w.goto next)
  | throws {action ev source e} (stands : w.point.mayThrow = true) (mem : .threw source e ∈ ev)
      (only : ∀ source' e', .threw source' e' ∈ ev → e' = e) :
      IngestMove config running w action ev (w.goto (.escaped e))
  | watches {action ev a} (stands : w.point = .playing a ∨
        w.point = .watching a ∧ a.result = .stopped ∧ running = true) (quiet : NoThrow ev) :
      IngestMove config running w action ev (w.goto (.watching a))
  | fails {action t a b} (stands : w.point = .playing a ∨
        w.point = .watching a ∧ a.result = .stopped ∧ running = true)
      (point : t.point = .watching b) (failed : b.result ≠ .stopped) :
      IngestMove config running w action [] t
  | leaves {action a next} (stands : w.point = .watching a)
      (finished : ¬(a.result = .stopped ∧ running = true)) (goes : next = .signalling a ∨ next = .closing a)
      (kept : next = .signalling a → a.result = .stopped) :
      IngestMove config running w action [] (w.goto next)
  | drains {action ev a next} (stands : w.point = .signalling a ∨ w.point = .draining a)
      (goes : next = .draining a ∨ next = .closing a) (quiet : NoThrow ev) :
      IngestMove config running w action ev (w.goto next)
  | closes {a} (stands : w.point = .closing a) :
      IngestMove config running w .advance [.attemptEnded (if running then a.result else .stopped)]
        (w.goto (.deciding (if running then a.result else .stopped)))
  | reconnects {result} (stands : w.point = .deciding result) (runs : running = true)
      (failed : result ≠ .stopped) :
      IngestMove config running w .advance [.reconnecting (w.reconnects + 1)]
        { w with reconnects := w.reconnects + 1, point := .waiting config.reconnectDelayMs }
  | waits {ms} (stands : w.point = .waiting ms) (runs : running = true) :
      IngestMove config running w .advance []
        (w.goto (if 0 < ms then .waiting (ms - min ms 100) else .looping))

section

variable {gmtime : Int → CivilTime} {config : ChannelIngestConfig} {running : Bool}
  {w t : ChannelIngest} {action : IngestAction} {ev : List IngestEvent} {a : Attempt}

theorem noThrow_nil : NoThrow [] := fun _ _ h => absurd h List.not_mem_nil

theorem callback_move {place : Attempt → IngestPoint} (hc : isCallback action = true)
    (hw : w.streaming = some (a,place)) (hs : w.callback gmtime config a place action = some (ev,t)) :
    IngestMove config running w action ev t := by
  have hpoint : w.point = place a := by
    unfold ChannelIngest.streaming at hw
    split at hw <;> cases hw <;> assumption
  unfold ChannelIngest.callback at hs
  split at hs <;> cases hs
  · unfold ChannelIngest.onIngestBuffer
    split
    · exact .callback hc hw rfl hpoint rfl noThrow_nil
    · exact .callback (b := { a with firstBufferSeen := true }) hc hw rfl rfl rfl noThrow_nil
  · exact .callback hc hw rfl hpoint rfl noThrow_nil
  · exact .callback hc hw rfl hpoint rfl noThrow_nil
  · exact .callback hc hw rfl hpoint rfl (by simp [NoThrow])
  · exact .callback hc hw rfl hpoint rfl noThrow_nil

theorem handleElementMessage_cases (m : ElementMessage) (next : IngestPoint) :
    (∃ ev, NoThrow ev ∧ w.handleElementMessage config m next = (ev,w.goto next)) ∨
      ∃ e, w.handleElementMessage config m next = ([.threw .index e],w.goto (.escaped e)) := by
  rcases m with ⟨location,_ | e⟩ | ⟨location,_ | e⟩ | _
  · exact .inl ⟨_,by simp [NoThrow],rfl⟩
  · exact .inr ⟨e,rfl⟩
  · exact .inl ⟨_,by simp [NoThrow],rfl⟩
  · exact .inr ⟨e,rfl⟩
  · exact .inl ⟨_,noThrow_nil,rfl⟩

theorem watch_move {late : Bool} {message : Option BusMessage} (hp : w.point = .watching a) :
    IngestMove config running w action (w.watch config running a late message).1
      (w.watch config running a late message).2 := by
  have hself : w.goto (.watching a) = w := by rw [← hp]; rfl
  unfold ChannelIngest.watch
  split
  · rename_i hw
    have hat : w.point = .playing a ∨ w.point = .watching a ∧ a.result = .stopped ∧ running = true :=
      .inr ⟨hp,hw⟩
    split
    · exact .fails hat rfl (by simp)
    · split
      · have := @IngestMove.watches config running w action [] a hat noThrow_nil
        rwa [hself] at this
      · exact .fails hat rfl (by simp)
      · exact .fails hat rfl (by simp)
      · rename_i m
        rcases @handleElementMessage_cases config w m (.watching a) with ⟨ev,hq,he⟩ | ⟨e,he⟩
        · rw [he]
          exact .watches hat hq
        · rw [he]
          exact .throws (by simp [hp,hw.1,IngestPoint.mayThrow]) (List.mem_singleton_self _) (by simp)
  · rename_i hover
    split
    · rename_i hstop
      exact .leaves hp hover (.inl rfl) fun _ => hstop.1
    · exact .leaves hp hover (.inr rfl) nofun

theorem drain_move {expired : Bool} {message : Option BusMessage} (hp : w.point = .draining a) :
    IngestMove config running w action (w.drain config a expired message).1
      (w.drain config a expired message).2 := by
  have hself : w.goto (.draining a) = w := by rw [← hp]; rfl
  unfold ChannelIngest.drain
  split
  · exact .drains (.inr hp) (.inr rfl) noThrow_nil
  · split
    · have := @IngestMove.drains config running w action [] a (.draining a) (.inr hp) (.inl rfl) noThrow_nil
      rwa [hself] at this
    · rename_i m
      rcases @handleElementMessage_cases config w m (.draining a) with ⟨ev,hq,he⟩ | ⟨e,he⟩
      · rw [he]
        exact .drains (.inr hp) (.inl rfl) hq
      · rw [he]
        exact .throws (by rw [hp]; rfl) (List.mem_singleton_self _) (by simp)
    · exact .drains (.inr hp) (.inr rfl) noThrow_nil

theorem preparing_mayThrow (hp : w.point.preparing = true) : w.point.mayThrow = true := by
  cases h : w.point <;> simp_all [IngestPoint.preparing,IngestPoint.mayThrow]

theorem attempted_move {failure : Option Thrown} {next : IngestPoint} (hp : w.point.preparing = true)
    (hn : next.preparing = true ∨ ∃ a, next = .playing a) :
    IngestMove config running w action (w.attempted .pipeline failure next).1
      (w.attempted .pipeline failure next).2 := by
  cases failure with
  | none => exact .prepares hp hn noThrow_nil
  | some e =>
    have hm := @IngestMove.throws config running w action [.threw .pipeline e] .pipeline e
      (preparing_mayThrow hp) (List.mem_singleton_self _) (by simp)
    exact hm

theorem loop_move (hp : w.point = .looping)
    (hs : (if running then w.beginAttempt else ([],w.goto .returned)) = (ev,t)) :
    IngestMove config running w .advance ev t := by
  by_cases hr : running = true
  · rw [if_pos hr] at hs
    cases hs
    exact .begins hp hr
  · rw [if_neg hr] at hs
    cases hs
    exact .returns (.inl (by simpa using hr))

theorem makeLocationPattern_move {attempt : Nat} {now : Int} {failure : Option Thrown}
    (hp : w.point = .locating attempt) :
    IngestMove config running w action (w.makeLocationPattern gmtime config attempt now failure).1
      (w.makeLocationPattern gmtime config attempt now failure).2 := by
  have hprep : w.point.preparing = true := by rw [hp]; rfl
  cases failure with
  | none => exact .prepares hprep (.inl rfl) (by simp [NoThrow,ChannelIngest.makeLocationPattern])
  | some e =>
    exact @IngestMove.throws config running w action
      [.createsDirectory config.outputDir,.threw .createDirectories e] .createDirectories e
      (preparing_mayThrow hprep) (List.mem_cons_of_mem _ (List.mem_singleton_self _)) (by simp)

theorem decideNext_move {result : AttemptResult} (hp : w.point = .deciding result)
    (hs : w.decideNext config running result = (ev,t)) : IngestMove config running w .advance ev t := by
  unfold ChannelIngest.decideNext at hs
  by_cases hstop : running = false ∨ result = .stopped
  · rw [if_pos hstop] at hs
    cases hs
    exact .returns (hstop.imp_right fun hr : result = .stopped => by rw [hp,hr])
  · rw [if_neg hstop] at hs
    cases hs
    rw [not_or,Bool.not_eq_false] at hstop
    exact .reconnects hp hstop.1 hstop.2

theorem waitBeforeReconnect_move {ms : Int} (hp : w.point = .waiting ms) :
    IngestMove config running w .advance [] (w.waitBeforeReconnect running ms) := by
  unfold ChannelIngest.waitBeforeReconnect
  by_cases hr : running = true
  · have hm := @IngestMove.waits config running w ms hp hr
    rw [if_pos hr]
    split <;> rename_i hms
    · rwa [if_pos hms] at hm
    · rwa [if_neg hms] at hm
  · rw [if_neg hr]
    exact .returns (.inl (by simpa using hr))

theorem ownStep_move (hs : w.ownStep gmtime config running action = some (ev,t)) :
    IngestMove config running w action ev t := by
  unfold ChannelIngest.ownStep at hs
  split at hs
  · rename_i hp
    exact loop_move hp (Option.some.inj hs)
  · rename_i attempt now failure hp
    have hm := @makeLocationPattern_move gmtime config running w (.locate now failure) attempt now failure hp
    rwa [Option.some.inj hs] at hm
  · rename_i attempt failure hp
    have hm := @attempted_move config running w (.launch failure) failure (.configuring attempt)
      (by rw [hp]; rfl) (.inl rfl)
    rwa [Option.some.inj hs] at hm
  · rename_i attempt failure hp
    have hm := @attempted_move config running w (.configure failure) failure
      (.playing ⟨attempt,false,.stopped,false⟩) (by rw [hp]; rfl) (.inr ⟨_,rfl⟩)
    rwa [Option.some.inj hs] at hm
  · rename_i a changed hp
    cases changed with
    | true =>
      cases hs
      exact .watches (.inl hp) noThrow_nil
    | false =>
      cases hs
      exact .fails (.inl hp) rfl (by simp)
  · rename_i a late message hp
    have hm := @watch_move config running w (.watch late message) a late message hp
    rwa [Option.some.inj hs] at hm
  · rename_i a sent hp
    cases sent with
    | true =>
      cases hs
      exact .drains (.inl hp) (.inl rfl) noThrow_nil
    | false =>
      cases hs
      exact .drains (.inl hp) (.inr rfl) noThrow_nil
  · rename_i a expired message hp
    have hm := @drain_move config running w (.drain expired message) a expired message hp
    rwa [Option.some.inj hs] at hm
  · rename_i a hp
    cases hs
    exact .closes hp
  · rename_i result hp
    exact decideNext_move hp (Option.some.inj hs)
  · rename_i ms hp
    cases hs
    exact waitBeforeReconnect_move hp
  · cases hs

theorem ingest_move (hs : w.step gmtime config running action = some (ev,t)) :
    IngestMove config running w action ev t := by
  unfold ChannelIngest.step at hs
  split at hs
  · rename_i hc
    obtain ⟨⟨a,place⟩,hw,hs⟩ := Option.bind_eq_some_iff.mp hs
    exact callback_move hc hw hs
  · exact ownStep_move hs

theorem streaming_in_attempt {r : Attempt × (Attempt → IngestPoint)} (hs : w.streaming = some r) :
    w.point.inAttempt = true := by
  unfold ChannelIngest.streaming at hs
  split at hs
  case h_6 => cases hs
  all_goals
    rename_i hp
    rw [hp]
    rfl

theorem writes_in_attempt (hs : w.step gmtime config running action = some (ev,t)) :
    ∀ e ∈ ev, e.writes = true → w.point.inAttempt = true := by
  intro e he hw
  by_contra hn
  rw [Bool.not_eq_true] at hn
  have hnone : ∀ e ∈ ev, e.writes = false := by
    cases ingest_move hs with
    | callback called streams =>
      rw [streaming_in_attempt streams] at hn
      cases hn
    | prepares stands | throws stands =>
      cases hp : w.point <;>
        simp_all [IngestPoint.preparing,IngestPoint.mayThrow,IngestPoint.inAttempt]
    | watches stands => rcases stands with h | ⟨h,-⟩ <;> rw [h] at hn <;> cases hn
    | drains stands => rcases stands with h | h <;> rw [h] at hn <;> cases hn
    | begins | returns | fails | leaves | closes | reconnects | waits => simp [IngestEvent.writes]
  rw [hnone e he] at hw
  cases hw

theorem attempt_step (hm : IngestMove config running w action ev t) (ht : t.point.inAttempt = true) :
    w.point.inAttempt = true ∨ w.point = .looping ∧ action = .advance ∧ running = true := by
  cases hm with
  | callback called streams => exact .inl (streaming_in_attempt streams)
  | begins stands runs => exact .inr ⟨stands,rfl,runs⟩
  | prepares stands =>
    cases hp : w.point <;> simp_all [IngestPoint.preparing,IngestPoint.inAttempt]
  | watches stands | fails stands => rcases stands with h | ⟨h,-⟩ <;> exact .inl (by rw [h]; rfl)
  | leaves stands | closes stands => exact .inl (by rw [stands]; rfl)
  | drains stands => rcases stands with h | h <;> exact .inl (by rw [h]; rfl)
  | waits =>
    simp only [ChannelIngest.goto] at ht
    split at ht <;> cases ht
  | returns | throws | reconnects => cases ht

end

inductive WorkerMove (running : Bool) (w : ChannelWorker) :
    IngestAction → List IngestEvent → ChannelWorker → Prop
  | fails {e} (stands : w.ingest.point = .escaped e) :
      WorkerMove running w .advance [] { w with failed := true, error := e.text }
  | ingests {action ev t} (stands : ∀ e, w.ingest.point ≠ .escaped e)
      (move : IngestMove w.config running w.ingest action ev t)
      (writes : ∀ e ∈ ev, e.writes = true → w.ingest.point.inAttempt = true) :
      WorkerMove running w action ev { w with ingest := t }

def stepsOf (i : Nat) : ManagerAction → Bool
  | .worker j action => j == i && !isCallback action
  | _ => false

inductive ManagerMove (i : Nat) (w : ChannelWorker) (m : ChannelManager) :
    ManagerAction → List WorkerEvent → ChannelManager → Prop
  | others {a ev m'} (stands : m'.workers[i]? = some w) (runs : m'.running = true → m.running = true)
      (goes : a ≠ .stop → m'.running = m.running) (quiet : ∀ e, ⟨i,e⟩ ∉ ev)
      (foreign : stepsOf i a = false) : ManagerMove i w m a ev m'
  | own {action ev w' m'} (move : WorkerMove m.running w action ev w')
      (stands : m'.workers[i]? = some w') (runs : m'.running = m.running) :
      ManagerMove i w m (.worker i action) (ev.map (⟨i,·⟩)) m'

section

variable {gmtime : Int → CivilTime} {delay : Int} {m m' : ChannelManager} {h ev : List WorkerEvent}
  {i : Nat} {w : ChannelWorker} {a : ManagerAction}

theorem worker_move {running : Bool} {w' : ChannelWorker} {action : IngestAction} {ev : List IngestEvent}
    (hs : w.step gmtime running action = some (ev,w')) : WorkerMove running w action ev w' := by
  unfold ChannelWorker.step at hs
  split at hs
  · rename_i e he
    split at hs
    · rename_i hf
      obtain ⟨-,rfl⟩ := hf
      cases hs
      exact .fails he
    · cases hs
  · rename_i hne
    obtain ⟨⟨events,ingest⟩,hstep,heq⟩ := Option.map_eq_some_iff.mp hs
    cases heq
    exact .ingests (fun e he => hne e he) (ingest_move hstep) (writes_in_attempt hstep)

theorem manager_move (hw : m.workers[i]? = some w) (hs : m.step gmtime delay a = some (ev,m')) :
    ManagerMove i w m a ev m' := by
  cases a with
  | start =>
    obtain ⟨n,hn,heq⟩ := Option.map_eq_some_iff.mp hs
    cases heq
    have hkept : m'.workers = m.workers ∧ m'.running = m.running := by
      unfold ChannelManager.start at hn
      split at hn
      · split at hn
        · cases hn
          exact ⟨rfl,rfl⟩
        · split at hn <;> cases hn <;> exact ⟨rfl,rfl⟩
      · cases hn
    exact .others (hkept.1 ▸ hw) (fun hr => hkept.2 ▸ hr) (fun _ => hkept.2) (by simp) rfl
  | stop =>
    cases hs
    exact .others hw nofun (fun hne => absurd rfl hne) (by simp) rfl
  | worker j action =>
    simp only [ChannelManager.step,ChannelManager.stepWorker] at hs
    split at hs
    · cases hs
    · rename_i v hv
      split at hs
      · obtain ⟨⟨events,v'⟩,hstep,heq⟩ := Option.map_eq_some_iff.mp hs
        cases heq
        by_cases hj : j = i
        · subst hj
          obtain rfl := Option.some.inj (hw.symm.trans hv)
          have hlt := (List.getElem?_eq_some_iff.mp hw).1
          exact .own (worker_move hstep) (List.getElem?_set_self hlt) rfl
        · refine .others ((List.getElem?_set_ne hj).trans hw) id (fun _ => rfl) (fun e he => ?_)
            (by simp [stepsOf,hj])
          obtain ⟨_,-,heq⟩ := List.mem_map.mp he
          exact hj (congrArg WorkerEvent.worker heq)
      · cases hs

theorem workers_length (hs : m.step gmtime delay a = some (ev,m')) :
    m'.workers.length = m.workers.length := by
  cases a with
  | start =>
    obtain ⟨n,hn,heq⟩ := Option.map_eq_some_iff.mp hs
    cases heq
    unfold ChannelManager.start at hn
    split at hn
    · split at hn
      · cases hn
        rfl
      · split at hn <;> cases hn <;> rfl
    · cases hn
  | stop =>
    cases hs
    rfl
  | worker j action =>
    simp only [ChannelManager.step,ChannelManager.stepWorker] at hs
    split at hs
    · cases hs
    · split at hs
      · obtain ⟨r,-,heq⟩ := Option.map_eq_some_iff.mp hs
        cases heq
        exact List.length_set
      · cases hs

end

end RpiVms

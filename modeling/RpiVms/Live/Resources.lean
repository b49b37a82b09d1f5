import RpiVms.Live.Lifecycle

namespace RpiVms

open Runs

namespace CallerPoint

@[simp] def starts : CallerPoint → Bool
  | .initializing | .opening _ | .spawning _ | .closing _ true | .clearing _ true | .unwinding => true
  | _ => false

@[simp] def stops : CallerPoint → Bool
  | .closing _ false | .clearing _ false | .joining _ | .swapping | .joiningSessions _ | .freeing => true
  | _ => false

@[simp] def withoutFd (started : Bool) (t : Transport) : CallerPoint → Bool
  | .idle => !started
  | .opening .rtsps => t = .rtsps
  | .closing .rtsps _ | .clearing .rtsps _ => t = .rtsp
  | .initializing | .opening .rtsp | .unwinding | .joining _ | .swapping | .joiningSessions _ | .freeing => true
  | _ => false

@[simp] def withoutLoop (started : Bool) (t : Transport) : CallerPoint → Bool
  | .idle => !started
  | .spawning .rtsps => t = .rtsps
  | .joining .rtsps => t = .rtsp
  | .initializing | .opening _ | .spawning .rtsp | .closing _ true | .clearing _ true | .unwinding | .swapping
  | .joiningSessions _ | .freeing => true
  | _ => false

@[simp] def withoutThreads (started : Bool) : CallerPoint → Bool
  | .idle => !started
  | .initializing | .opening _ | .closing _ true | .clearing _ true | .unwinding | .joiningSessions _ | .freeing => true
  | _ => false

end CallerPoint

structure Controlled (l : Life) : Prop where
  synced : l.server.running = (l.running && l.started)
  starts : l.caller.starts = true → l.started = true
  stops : l.caller.stops = true → l.started = false
  withoutFd : ∀ t, l.caller.withoutFd l.started t = true → l.listenerFd t = none
  withoutLoop : ∀ t, l.caller.withoutLoop l.started t = true → l.loops t = none
  withoutThreads : l.caller.withoutThreads l.started = true → l.sessionThreads = []

-- a loop that has no descriptor does not get to FD_SET
structure Looping (l : Life) : Prop where
  listens : ∀ t, l.started = true → l.loops t ≠ none → l.listenerFd t ≠ none
  noFd : ∀ t loop, l.loops t = some loop → loop.listenerFd = none →
    loop.point = .beginning ∨ loop.point = .exited ∨ loop.point = .testing ∧ l.started = false

section

variable {config : LiveRtspServerConfig} {ports : Transport → Int} {l l' : Life} {a : LifeAction} {ev : List LifeEvent}
  {t : Transport} {loop : AcceptLoop}

theorem forall_transport {P : Transport → Prop} : (∀ t, P t) ↔ P .rtsp ∧ P .rtsps :=
  ⟨fun h => ⟨h _,h _⟩,fun h t => by cases t <;> simp [h]⟩

theorem controlled_empty : Controlled {} :=
  ⟨rfl,by simp,by simp,by simp,by simp,by simp⟩

theorem withoutThreads_loop {started : Bool} {p : CallerPoint} (h : p.withoutThreads started = true) (t : Transport) :
    p.withoutLoop started t = true := by
  unfold CallerPoint.withoutThreads at h
  split at h <;> simp_all

theorem Controlled.setLoop (h : Controlled l) (hl : l.loops t = some loop) (next : AcceptLoop) :
    Controlled (l.setLoop t (some next)) where
  synced := h.synced
  starts := h.starts
  stops := h.stops
  withoutFd := h.withoutFd
  withoutLoop t' ht' := by
    have hnone := h.withoutLoop t' ht'
    have hne : t' ≠ t := fun he => by simp [he,hl] at hnone
    simpa [Life.setLoop,hne] using hnone
  withoutThreads := h.withoutThreads

theorem Controlled.of_server (h : Controlled l) {server : Server} (hr : server.running = l.server.running)
    (files : Nat → Option File) : Controlled { l with server := server, files := files } :=
  ⟨hr.trans h.synced,h.starts,h.stops,h.withoutFd,h.withoutLoop,h.withoutThreads⟩

theorem Controlled.step (h : Controlled l) (hs : LifeMove config ports l a ev l') : Controlled l' := by
  cases hs with
  | startedAlready | stoppedAlready => exact h
  | starts hc hst | stops hc hst | unwinds hc | needsNoTls hc _ | loads hc _ | loadFails hc _ | openFails hc _ | swaps hc
  | joinsSession hc _ | joinedAll hc | frees hc _ | freesNone hc _ =>
    obtain ⟨hsynced,hstarts,hstops,hfd,hloop,hthreads⟩ := h
    constructor <;> simp_all [Life.synced]
  | @needsNoPort t _ hc _ | @opens t _ hc _ _ =>
    obtain ⟨hsynced,hstarts,hstops,hfd,hloop,hthreads⟩ := h
    cases t <;> constructor <;> simp_all [CallerPoint.afterOpening]
  | @spawnsNone t hc _ | @spawnsLoop t _ hc _ =>
    obtain ⟨hsynced,hstarts,hstops,hfd,hloop,hthreads⟩ := h
    cases t <;> constructor <;> simp_all [CallerPoint.afterSpawning,Life.setLoop]
  | @closes t failed fd hc hlisten =>
    obtain ⟨hsynced,hstarts,hstops,hfd,hloop,hthreads⟩ := h
    cases t <;> cases failed <;> constructor <;> simp_all [Life.close]
  | @closesNone t failed hc _ | @clears t failed hc =>
    obtain ⟨hsynced,hstarts,hstops,hfd,hloop,hthreads⟩ := h
    cases t <;> cases failed <;> constructor <;> simp_all [CallerPoint.afterClosing,forall_transport]
  | @joins t loop hc _ _ | @joinsNone t hc _ =>
    obtain ⟨hsynced,hstarts,hstops,hfd,hloop,hthreads⟩ := h
    cases t <;> constructor <;> simp_all [CallerPoint.afterJoining,Life.setLoop,forall_transport]
  | begins hl _ | tests hl _ | selectsNone hl _ _ | selects hl _ _ | acceptsNone hl _ => exact h.setLoop hl _
  | accepts hl _ _ _ => exact (h.setLoop hl _).of_server rfl _
  | @spawnsSession t loop _ _ _ _ _ _ hl _ hstep =>
    have hkept := (h.setLoop hl { loop with point := .testing }).of_server (step_running hstep (by simp)) l.files
    refine ⟨hkept.synced,hkept.starts,hkept.stops,hkept.withoutFd,hkept.withoutLoop,fun hw => ?_⟩
    have hnone := h.withoutLoop t (withoutThreads_loop hw t)
    rw [hl] at hnone
    cases hnone
  | @session c action x y connection _ server hx hconn hstep hy =>
    have hrun := step_running hstep (by simp)
    unfold Life.leaves
    split
    · exact h.of_server hrun _
    · exact h.of_server hrun l.files
  | @frame a _ _ server haction hstep =>
    have hne : a ≠ .stop := by rcases haction with ⟨_,rfl,_⟩ | ⟨_,rfl,_⟩ <;> simp
    exact h.of_server (step_running hstep hne) l.files
  | signal => exact ⟨rfl,h.starts,h.stops,h.withoutFd,h.withoutLoop,h.withoutThreads⟩

theorem Looping.setLoop (h : Looping l) (hl : l.loops t = some loop) (next : AcceptLoop)
    (hnext : next.listenerFd = none →
      next.point = .beginning ∨ next.point = .exited ∨ next.point = .testing ∧ l.started = false) :
    Looping (l.setLoop t (some next)) where
  listens t' hst hne := by
    refine h.listens t' hst fun hnone => hne ?_
    have hdiff : t' ≠ t := fun he => by simp [he,hl] at hnone
    simpa [Life.setLoop,hdiff] using hnone
  noFd t' loop' hl' := by
    by_cases he : t' = t
    · subst he
      simp only [Life.setLoop,Function.update_self,Option.some.injEq] at hl'
      exact hl' ▸ hnext
    · simp only [Life.setLoop,Function.update_of_ne he] at hl'
      exact h.noFd t' loop' hl'

theorem Looping.step (h : Looping l) (hc : Controlled l) (hs : LifeMove config ports l a ev l') : Looping l' := by
  cases hs with
  | startedAlready | stoppedAlready => exact h
  | starts hcaller hst =>
    have hnone : ∀ t, l.loops t = none := fun t => hc.withoutLoop t (by simp [hcaller,hst])
    exact ⟨fun t _ hne => absurd (hnone t) hne,fun t loop hl => by simp [Life.synced,hnone t] at hl⟩
  | stops hcaller hst =>
    refine ⟨by simp [Life.synced],fun t loop hl hfd => ?_⟩
    rcases h.noFd t loop hl hfd with hp | hp | ⟨hp,-⟩
    · exact .inl hp
    · exact .inr (.inl hp)
    · exact .inr (.inr ⟨hp,rfl⟩)
  | unwinds hcaller =>
    have hnone : ∀ t, l.loops t = none := fun t => hc.withoutLoop t (by simp [hcaller])
    exact ⟨by simp [Life.synced],fun t loop hl => by simp [Life.synced,hnone t] at hl⟩
  | needsNoTls | loads | loadFails | needsNoPort | openFails | spawnsNone | closesNone | closes | joinsNone | swaps
  | joinsSession | joinedAll | frees | freesNone | frame | signal => exact ⟨h.listens,h.noFd⟩
  | @opens t fd hcaller _ _ =>
    have hnone : ∀ t, l.loops t = none := fun t' => hc.withoutLoop t' (by simp [hcaller])
    exact ⟨fun t _ hne => absurd (hnone t) hne,h.noFd⟩
  | @clears t failed hcaller =>
    refine ⟨fun t' hst hne => ?_,h.noFd⟩
    cases failed with
    | false => simp [hc.stops (by simp [hcaller])] at hst
    | true => exact absurd (hc.withoutLoop t' (by simp [hcaller])) hne
  | @spawnsLoop t fd hcaller hfd =>
    constructor
    · intro t' hst hne
      by_cases he : t' = t
      · subst he
        simp [Life.setLoop,hfd]
      · exact h.listens t' hst (by simpa [Life.setLoop,he] using hne)
    · intro t' loop hl hno
      by_cases he : t' = t
      · subst he
        simp only [Life.setLoop,Function.update_self,Option.some.injEq] at hl
        exact .inl (by rw [← hl])
      · exact h.noFd t' loop (by simpa [Life.setLoop,he] using hl) hno
  | @joins t loop hcaller hl hp =>
    have hst : l.started = false := hc.stops (by simp [hcaller])
    refine ⟨fun t' hst' => by simp [Life.setLoop,hst] at hst',fun t' loop' hl' => ?_⟩
    have hne : t' ≠ t := fun he => by simp [Life.setLoop,he] at hl'
    exact h.noFd t' loop' (by simpa [Life.setLoop,hne] using hl')
  | @begins t loop hl hp =>
    refine h.setLoop hl _ fun hfd => .inr (.inr ⟨rfl,?_⟩)
    cases hst : l.started with
    | false => rfl
    | true => exact absurd hfd (h.listens t hst (by simp [hl]))
  | @tests t loop hl hp =>
    refine h.setLoop hl _ fun hfd => ?_
    rcases h.noFd t loop hl hfd with hp' | hp' | ⟨-,hst⟩
    · exact absurd (hp.symm.trans hp') (by simp)
    · exact absurd (hp.symm.trans hp') (by simp)
    · exact .inr (.inl (by simp [hst]))
  | @selectsNone t loop ready hl hp hfd =>
    rcases h.noFd t loop hl hfd with hp' | hp' | ⟨hp',-⟩ <;> exact absurd (hp.symm.trans hp') (by simp)
  | @selects t loop ready fd hl hp hfd => exact h.setLoop hl _ fun hno => by simp [hfd] at hno
  | @acceptsNone t loop hl hp =>
    refine h.setLoop hl _ fun hfd => ?_
    rcases h.noFd t loop hl hfd with hp' | hp' | ⟨hp',-⟩ <;> exact absurd (hp.symm.trans hp') (by simp)
  | @accepts t loop client hl hp hlisten hfree =>
    have hkept := h.setLoop hl { loop with point := .holding client } fun hno => by
      simp [show loop.listenerFd = none from hno] at hlisten
    exact ⟨hkept.listens,hkept.noFd⟩
  | @spawnsSession t loop client _ _ _ _ server hl hp hstep =>
    have hkept := h.setLoop hl { loop with point := .testing } fun hno => by
      rcases h.noFd t loop hl hno with hp' | hp' | ⟨hp',-⟩ <;> exact absurd (hp.symm.trans hp') (by simp)
    exact ⟨hkept.listens,hkept.noFd⟩
  | session =>
    unfold Life.leaves
    split <;> exact ⟨h.listens,h.noFd⟩

end

@[simp] def CallerPoint.joinees : CallerPoint → List Nat
  | .joiningSessions rest => rest
  | _ => []

structure Accounted (l : Life) : Prop where
  paired : l.connections.length = l.server.sessions.length
  threads : ∀ (c : Nat) (x : Session), l.server.sessions[c]? = some x →
    x.point = .finished ∨ c ∈ l.sessionThreads ∨ c ∈ l.caller.joinees

section

variable {config : LiveRtspServerConfig} {ports : Transport → Int} {l l' : Life} {a : LifeAction} {ev : List LifeEvent}
  {t : Transport} {loop : AcceptLoop}

theorem Accounted.of_caller (h : Accounted l) (hj : l.caller.joinees = []) (hc : l'.connections = l.connections)
    (hs : l'.server.sessions = l.server.sessions) (ht : l'.sessionThreads = l.sessionThreads) : Accounted l' where
  paired := by rw [hc,hs]; exact h.paired
  threads c x hx := by
    rw [hs] at hx
    rcases h.threads c x hx with hfin | hmem | hmem
    · exact .inl hfin
    · exact .inr (.inl (ht ▸ hmem))
    · rw [hj] at hmem
      cases hmem

theorem Accounted.of_sessions (h : Accounted l) (hp : l'.connections.length = l'.server.sessions.length)
    (hs : ∀ (c : Nat) (y : Session), l'.server.sessions[c]? = some y → c ∈ l'.sessionThreads ∨
      ∃ x, l.server.sessions[c]? = some x ∧ (x.point = .finished → y.point = .finished))
    (ht : ∀ c ∈ l.sessionThreads, c ∈ l'.sessionThreads) (hcaller : l'.caller = l.caller) : Accounted l' where
  paired := hp
  threads c y hy := by
    rw [hcaller]
    rcases hs c y hy with hmem | ⟨x,hx,hfin⟩
    · exact .inr (.inl hmem)
    · rcases h.threads c x hx with hfin' | hmem | hmem
      · exact .inl (hfin hfin')
      · exact .inr (.inl (ht c hmem))
      · exact .inr (.inr hmem)

theorem frame_action {a : ServerAction} {action : LifeAction}
    (h : (∃ view, a = .onFrame view ∧ action = .onFrame view) ∨ ∃ ch, a = .frameCall ch ∧ action = .frameCall ch) :
    (∃ view, a = .onFrame view) ∨ ∃ ch, a = .frameCall ch :=
  h.imp (fun ⟨view,ha,_⟩ => ⟨view,ha⟩) fun ⟨ch,ha,_⟩ => ⟨ch,ha⟩

theorem Accounted.step (h : Accounted l) (hs : LifeMove config ports l a ev l') : Accounted l' := by
  cases hs with
  | startedAlready | stoppedAlready => exact h
  | starts hc _ | stops hc _ | unwinds hc | needsNoTls hc _ | loads hc _ | loadFails hc _ | openFails hc _
  | frees hc _ | freesNone hc _ | needsNoPort hc _ | opens hc _ _ | spawnsNone hc _ | spawnsLoop hc _ | closes hc _
  | closesNone hc _ | clears hc | joins hc _ _ | joinsNone hc _ => exact h.of_caller (by simp [hc]) rfl rfl rfl
  | swaps hc =>
    refine ⟨h.paired,fun c x hx => ?_⟩
    rcases h.threads c x hx with hfin | hmem | hmem
    · exact .inl hfin
    · exact .inr (.inr hmem)
    · simp [hc] at hmem
  | @joinsSession c rest hc hexp =>
    refine ⟨h.paired,fun c' x hx => ?_⟩
    rcases h.threads c' x hx with hfin | hmem | hmem
    · exact .inl hfin
    · exact .inr (.inl hmem)
    · rw [hc,CallerPoint.joinees,List.mem_cons] at hmem
      rcases hmem with rfl | hmem
      · simp only [Server.expired,hx,decide_eq_true_eq] at hexp
        exact .inl hexp
      · exact .inr (.inr hmem)
  | joinedAll hc => exact ⟨h.paired,fun c x hx => by simpa [hc] using h.threads c x hx⟩
  | begins | tests | selectsNone | selects | acceptsNone | accepts => exact ⟨h.paired,h.threads⟩
  | @spawnsSession t loop client _ _ _ _ server hl hp hstep =>
    have hsessions := accept_sessions hstep
    refine h.of_sessions (by simp [hsessions,h.paired]) (fun c y hy => ?_)
      (fun c hm => List.mem_append_left _ hm) rfl
    simp only [hsessions,List.getElem?_append] at hy
    split at hy
    · exact .inr ⟨y,hy,id⟩
    · rename_i hge
      rw [List.getElem?_singleton] at hy
      split at hy
      · exact .inl (by simp; omega)
      · cases hy
  | @session c action x y connection _ server hx hconn hstep hy =>
    obtain ⟨x',y',events,hx',hsession,hsessions⟩ := session_sessions hstep
    have hkept : Accounted { l with server := server } := by
      refine h.of_sessions (by simp [hsessions,h.paired]) (fun c' y hy => ?_) (fun _ hm => hm) rfl
      simp only [hsessions] at hy
      rcases getElem?_set_some hy with ⟨rfl,rfl⟩ | ⟨hne,hy⟩
      · exact .inr ⟨x',hx',fun hfin => absurd hfin (finished_no_step hsession)⟩
      · exact .inr ⟨y,hy,id⟩
    unfold Life.leaves
    split <;> exact ⟨hkept.paired,hkept.threads⟩
  | @frame a _ _ server haction hstep =>
    obtain ⟨hlen,hback⟩ := frame_sessions hstep (frame_action haction)
    refine h.of_sessions (by rw [hlen]; exact h.paired) (fun c y hy => ?_) (fun _ hm => hm) rfl
    obtain ⟨x,queue,hx,rfl⟩ := hback c y hy
    exact .inr ⟨x,hx,id⟩
  | signal => exact ⟨h.paired,h.threads⟩

theorem Accounted.all_finished (h : Accounted l) (hc : Controlled l) (hw : l.caller.withoutThreads l.started = true)
    (hj : l.caller.joinees = []) {c : Nat} {x : Session} (hx : l.server.sessions[c]? = some x) : x.point = .finished := by
  rcases h.threads c x hx with hfin | hmem | hmem
  · exact hfin
  · rw [hc.withoutThreads hw] at hmem
    cases hmem
  · rw [hj] at hmem
    cases hmem

end

structure Contexted (l : Life) : Prop where
  spent : ∀ k ∈ l.freed, k < l.created
  pointed : ∀ k, l.tlsContext = some k → k < l.created ∧ k ∉ l.freed
  loops : ∀ t loop k, l.loops t = some loop → loop.context = some k → l.tlsContext = some k
  sessions : ∀ (c : Nat) (x : Session) (connection : Connection) (k : Nat), l.server.sessions[c]? = some x →
    l.connections[c]? = some connection → x.point ≠ .finished → connection.context = some k → l.tlsContext = some k

section

variable {config : LiveRtspServerConfig} {ports : Transport → Int} {l l' : Life} {a : LifeAction} {ev : List LifeEvent}
  {t : Transport} {loop : AcceptLoop}

theorem Contexted.setLoop (h : Contexted l) (t : Transport) (next : AcceptLoop)
    (hnext : ∀ k, next.context = some k → l.tlsContext = some k) : Contexted (l.setLoop t (some next)) where
  spent := h.spent
  pointed := h.pointed
  loops t' loop' k hl' hk := by
    by_cases he : t' = t
    · subst he
      simp only [Life.setLoop,Function.update_self,Option.some.injEq] at hl'
      exact hnext k (hl' ▸ hk)
    · simp only [Life.setLoop,Function.update_of_ne he] at hl'
      exact h.loops t' loop' k hl' hk
  sessions := h.sessions

theorem Contexted.goto (h : Contexted l) (hl : l.loops t = some loop) (point : LoopPoint) :
    Contexted (l.setLoop t (some { loop with point := point })) :=
  h.setLoop t _ fun k => h.loops t loop k hl

theorem contexted_unused (hc : Controlled l) (ha : Accounted l)
    (hl : ∀ t, l.caller.withoutLoop l.started t = true) (hw : l.caller.withoutThreads l.started = true)
    (hj : l.caller.joinees = []) (hp : ∀ k, l'.tlsContext = some k → k < l'.created ∧ k ∉ l'.freed)
    (hspent : ∀ k ∈ l'.freed, k < l'.created) (hloops : l'.loops = l.loops) (hserver : l'.server = l.server) :
    Contexted l' where
  spent := hspent
  pointed := hp
  loops t loop k hloop := by
    rw [hloops,hc.withoutLoop t (hl t)] at hloop
    cases hloop
  sessions c x connection k hx _ hn := by
    rw [hserver] at hx
    exact absurd (ha.all_finished hc hw hj hx) hn

theorem Contexted.step (h : Contexted l) (hc : Controlled l) (ha : Accounted l) (hs : LifeMove config ports l a ev l') :
    Contexted l' := by
  cases hs with
  | startedAlready | stoppedAlready => exact h
  | loads hcaller _ =>
    refine contexted_unused hc ha (by simp [hcaller]) (by simp [hcaller]) (by simp [hcaller]) (fun k hk => ?_)
      (fun k hm => (h.spent k hm).trans (Nat.lt_succ_self _)) rfl rfl
    cases hk
    exact ⟨Nat.lt_succ_self _,fun hm => Nat.lt_irrefl _ (h.spent _ hm)⟩
  | loadFails hcaller _ =>
    exact contexted_unused hc ha (by simp [hcaller]) (by simp [hcaller]) (by simp [hcaller]) (by simp) h.spent rfl rfl
  | @frees k hcaller hk =>
    refine contexted_unused hc ha (by simp [hcaller]) (by simp [hcaller]) (by simp [hcaller]) (by simp) (fun j hj => ?_)
      rfl rfl
    rcases List.mem_cons.mp hj with rfl | hj
    · exact (h.pointed j hk).1
    · exact h.spent j hj
  | starts | stops | unwinds | needsNoTls | openFails | freesNone | needsNoPort | opens | spawnsNone | closes
  | closesNone | clears | joinsNone | swaps | joinsSession | joinedAll | signal =>
    exact ⟨h.spent,h.pointed,h.loops,h.sessions⟩
  | @spawnsLoop t fd hcaller hfd =>
    have hkept := h.setLoop t {} (by simp)
    exact ⟨hkept.spent,hkept.pointed,hkept.loops,hkept.sessions⟩
  | @joins t loop hcaller hl hp =>
    refine ⟨h.spent,h.pointed,fun t' loop' k hl' => ?_,h.sessions⟩
    have hne : t' ≠ t := fun he => by simp [Life.setLoop,he] at hl'
    exact h.loops t' loop' k (by simpa [Life.setLoop,hne] using hl')
  | @begins t loop hl hp =>
    refine h.setLoop t _ fun k hk => ?_
    split at hk
    · exact hk
    · cases hk
  | tests hl _ | selectsNone hl _ _ | selects hl _ _ | acceptsNone hl _ => exact h.goto hl _
  | @accepts t loop client hl _ _ _ =>
    have hkept := h.goto hl (.holding client)
    exact ⟨hkept.spent,hkept.pointed,hkept.loops,hkept.sessions⟩
  | @spawnsSession t loop client _ _ _ _ server hl hp hstep =>
    have hkept := h.goto hl .testing
    refine ⟨hkept.spent,hkept.pointed,hkept.loops,fun c y connection k hy hconn hn hk => ?_⟩
    simp only [accept_sessions hstep,List.getElem?_append,ha.paired] at hy hconn
    split at hy
    · rename_i hlt
      simp only [hlt,if_true] at hconn
      exact h.sessions c y connection k hy hconn hn hk
    · rename_i hge
      simp only [hge,if_false,List.getElem?_singleton] at hconn
      split at hconn <;> cases hconn
      exact h.loops t loop k hl hk
  | @session c action x y connection _ server hx hconn hstep hy =>
    obtain ⟨x',y',events,hx',hsession,hsessions⟩ := session_sessions hstep
    have hkept : Contexted { l with server := server } := by
      refine ⟨h.spent,h.pointed,h.loops,fun c' z conn k hz hconn' hn hk => ?_⟩
      simp only [hsessions] at hz
      rcases getElem?_set_some hz with ⟨rfl,rfl⟩ | ⟨hne,hz⟩
      · exact h.sessions c x' conn k hx' hconn' (finished_no_step hsession) hk
      · exact h.sessions c' z conn k hz hconn' hn hk
    unfold Life.leaves
    split <;> exact ⟨hkept.spent,hkept.pointed,hkept.loops,hkept.sessions⟩
  | @frame a _ _ server haction hstep =>
    refine ⟨h.spent,h.pointed,h.loops,fun c y connection k hy hconn hn hk => ?_⟩
    obtain ⟨x,queue,hx,rfl⟩ := (frame_sessions hstep (frame_action haction)).2 c y hy
    exact h.sessions c x connection k hx hconn hn hk

end

end RpiVms

import RpiVms.Library.Ownership
import RpiVms.Live.Resources

namespace RpiVms

open Runs Ownership

-- who closes a descriptor: close_listeners, an accept loop between accept and emplace_back, a session
inductive Owner where
  | listener (transport : Transport)
  | window (transport : Transport)
  | session (client : Nat)
  deriving DecidableEq, Repr

def Owner.kind : Owner → File
  | .listener _ => .listening
  | .window _ => .stream
  | .session _ => .stream

-- between close and the assignment of -1 the number is not held any more
def CallerPoint.hasClosed (t : Transport) : CallerPoint → Bool
  | .clearing t' _ => t' = t
  | _ => false

def AcceptLoop.client (loop : AcceptLoop) : Option Nat :=
  match loop.point with
  | .holding client => some client
  | _ => none

def connectionFd (x : Session) (connection : Connection) : Option Nat :=
  if x.hungUp then none else some connection.fd

def Life.holds (l : Life) : Owner → Option Nat
  | .listener t => if l.caller.hasClosed t then none else l.listenerFd t
  | .window t => (l.loops t).bind (·.client)
  | .session c =>
      l.server.sessions[c]?.bind fun x => l.connections[c]?.bind fun connection => connectionFd x connection

section

variable {config : LiveRtspServerConfig} {ports : Transport → Int} {l l' : Life} {a : LifeAction} {ev : List LifeEvent}
  {t : Transport} {loop : AcceptLoop}

theorem holds_ext (hlistener : ∀ t, l'.holds (.listener t) = l.holds (.listener t))
    (hwindow : ∀ t, l'.holds (.window t) = l.holds (.window t))
    (hsession : ∀ c, l'.holds (.session c) = l.holds (.session c)) : l'.holds = l.holds := by
  funext o
  cases o with
  | listener t => exact hlistener t
  | window t => exact hwindow t
  | session c => exact hsession c

theorem holds_caller (hfd : l'.listenerFd = l.listenerFd) (hloops : l'.loops = l.loops)
    (hsessions : l'.server.sessions = l.server.sessions) (hconn : l'.connections = l.connections)
    (hclosed : ∀ t, l'.caller.hasClosed t = l.caller.hasClosed t) : l'.holds = l.holds := by
  refine holds_ext (fun t => ?_) (fun t => ?_) fun c => ?_
  · simp only [Life.holds,hclosed,hfd]
  · simp only [Life.holds,hloops]
  · simp only [Life.holds,hsessions,hconn]

theorem holds_setLoop (l : Life) (t : Transport) (next : Option AcceptLoop) :
    (l.setLoop t next).holds = Function.update l.holds (.window t) (next.bind (·.client)) := by
  funext o
  cases o with
  | window t' =>
    by_cases he : t' = t
    · subst he
      simp [Life.holds,Life.setLoop]
    · have hne : Owner.window t' ≠ .window t := by simpa using he
      rw [Function.update_of_ne hne]
      simp [Life.holds,Life.setLoop,he]
  | listener t' | session c => rfl

theorem holds_window (hl : l.loops t = some loop) : l.holds (.window t) = loop.client := by
  simp [Life.holds,hl]

theorem holds_goto (hl : l.loops t = some loop) {next : AcceptLoop} (hclient : next.client = loop.client) :
    (l.setLoop t (some next)).holds = l.holds := by
  rw [holds_setLoop,Option.bind_some,hclient,← holds_window hl,Function.update_eq_self]

theorem afterOpening_open (t t' : Transport) : (CallerPoint.afterOpening t).hasClosed t' = false := by
  cases t <;> rfl

theorem afterSpawning_open (t t' : Transport) : (CallerPoint.afterSpawning t).hasClosed t' = false := by
  cases t <;> rfl

theorem afterClosing_open (failed : Bool) (t t' : Transport) : (CallerPoint.afterClosing failed t).hasClosed t' = false := by
  cases t <;> cases failed <;> rfl

theorem afterJoining_open (t t' : Transport) : (CallerPoint.afterJoining t).hasClosed t' = false := by
  cases t <;> rfl

def Held (l : Life) : Prop := Exact l.files Owner.kind l.holds

theorem held_of_exact {files : Nat → Option File} {holds : Owner → Option Nat} (h : Exact files Owner.kind holds)
    (hfiles : l.files = files) (hholds : l.holds = holds) : Held l := by
  rw [Held,hfiles,hholds]
  exact h

theorem Held.of_holds (h : Held l) (hfiles : l'.files = l.files) (hholds : l'.holds = l.holds) : Held l' :=
  held_of_exact h hfiles hholds

theorem Held.close (h : Held l) {o : Owner} {fd : Nat} (ho : l.holds o = some fd) :
    (l.close fd).1 = [] ∧ Exact (l.close fd).2.files Owner.kind (Function.update l.holds o none) := by
  refine ⟨?_,Exact.release h ho⟩
  simp [Life.close,h.opened o fd ho]

theorem holds_listener {fd : Nat} (hfd : l.listenerFd t = some fd) (hopen : l.caller.hasClosed t = false) :
    l.holds (.listener t) = some fd := by
  simp [Life.holds,hopen,hfd]

theorem Held.closes (h : Held l) {fd : Nat} {failed : Bool} (hcaller : l.caller = .closing t failed)
    (hfd : l.listenerFd t = some fd) :
    (l.close fd).1 = [] ∧ Held { (l.close fd).2 with caller := .clearing t failed } := by
  obtain ⟨hevents,hexact⟩ := h.close (holds_listener hfd (by rw [hcaller]; rfl))
  refine ⟨hevents,held_of_exact hexact rfl ?_⟩
  funext o
  cases o with
  | listener t' =>
    by_cases he : t' = t
    · subst he
      simp [Life.holds,CallerPoint.hasClosed]
    · have hne : Owner.listener t' ≠ .listener t := by simpa using he
      rw [Function.update_of_ne hne]
      simp [Life.holds,CallerPoint.hasClosed,hcaller,Ne.symm he,Life.close]
  | window t' | session c => rfl

theorem Held.opens (h : Held l) {fd : Nat} {caller : CallerPoint} (hno : l.listenerFd t = none) (hfree : l.files fd = none)
    (hopen : ∀ t, l.caller.hasClosed t = false) (hopen' : ∀ t, caller.hasClosed t = false) :
    Held { l with
      files := Function.update l.files fd (some .listening)
      listenerFd := Function.update l.listenerFd t (some fd)
      caller := caller } := by
  have hnone : l.holds (.listener t) = none := by simp [Life.holds,hno]
  refine held_of_exact (Exact.acquire h hfree hnone) rfl ?_
  funext o
  cases o with
  | listener t' =>
    by_cases he : t' = t
    · subst he
      simp [Life.holds,hopen']
    · have hne : Owner.listener t' ≠ .listener t := by simpa using he
      rw [Function.update_of_ne hne]
      simp [Life.holds,hopen,hopen',he]
  | window t' | session c => rfl

theorem Held.clears (h : Held l) {failed : Bool} (hcaller : l.caller = .clearing t failed) :
    Held { l with listenerFd := Function.update l.listenerFd t none, caller := .afterClosing failed t } := by
  refine h.of_holds rfl (holds_ext (fun t' => ?_) (fun _ => rfl) fun _ => rfl)
  by_cases he : t' = t
  · subst he
    simp [Life.holds,hcaller,CallerPoint.hasClosed]
  · have hopen : (CallerPoint.clearing t failed).hasClosed t' = false := by simpa [CallerPoint.hasClosed] using Ne.symm he
    simp only [Life.holds,hcaller,afterClosing_open,hopen,Function.update_of_ne he]

theorem Held.accepts (h : Held l) {client : Nat} (hl : l.loops t = some loop) (hp : loop.point = .accepting)
    (hfree : l.files client = none) :
    Held { l.setLoop t (some { loop with point := .holding client }) with
      files := Function.update l.files client (some .stream) } := by
  have hnone : l.holds (.window t) = none := by rw [holds_window hl,AcceptLoop.client,hp]
  exact held_of_exact (Exact.acquire h hfree hnone) rfl (holds_setLoop l t (some { loop with point := .holding client }))

theorem Held.spawns (h : Held l) (ha : Accounted l) {client : Nat} {sequence : UInt16} {ssrc timestampOrigin : UInt32}
    {ev : List ServerEvent} {server : Server} (hl : l.loops t = some loop) (hp : loop.point = .holding client)
    (hstep : l.server.step config (.accept sequence ssrc timestampOrigin) = some (ev,server)) :
    Held { l.setLoop t (some { loop with point := .testing }) with
      server := server
      connections := l.connections ++ [⟨client,loop.context⟩]
      sessionThreads := l.sessionThreads ++ [l.server.sessions.length] } := by
  have hhas : l.holds (.window t) = some client := by rw [holds_window hl,AcceptLoop.client,hp]
  have hnone : l.holds (.session l.server.sessions.length) = none := by simp [Life.holds]
  refine held_of_exact (Exact.pass h hhas hnone rfl) rfl ?_
  funext o
  cases o with
  | listener t' => rfl
  | window t' =>
    rw [Function.update_of_ne (by simp)]
    exact congrFun (holds_setLoop l t (some { loop with point := .testing })) (.window t')
  | session c =>
    have hsession : (Owner.session c ≠ .window t) := by simp
    by_cases he : c = l.server.sessions.length
    · subst he
      simp [Life.holds,accept_sessions hstep,← ha.paired,connectionFd,newSession,Session.hungUp]
    · have hne : Owner.session c ≠ .session l.server.sessions.length := by simpa using he
      rw [Function.update_of_ne hne,Function.update_of_ne hsession]
      simp only [Life.holds,accept_sessions hstep,List.getElem?_append,ha.paired]
      split
      · rfl
      · rename_i hge
        have hout : l.server.sessions[c]? = none := List.getElem?_eq_none (by omega)
        have hpos : c - l.server.sessions.length ≠ 0 := by omega
        simp [hout,hpos]

theorem holds_session {c : Nat} {x : Session} {connection : Connection} (hx : l.server.sessions[c]? = some x)
    (hconn : l.connections[c]? = some connection) : l.holds (.session c) = connectionFd x connection := by
  simp [Life.holds,hx,hconn]

theorem Held.session (h : Held l) {c : Nat} {action : SessionAction} {x y : Session} {connection : Connection}
    {ev : List ServerEvent} {server : Server} (hx : l.server.sessions[c]? = some x)
    (hconn : l.connections[c]? = some connection) (hstep : l.server.step config (.session c action) = some (ev,server))
    (hy : server.sessions[c]? = some y) :
    (l.leaves x y connection).1 = [] ∧ Held { (l.leaves x y connection).2 with server := server } := by
  obtain ⟨x',y',events,hx',hsession,hsessions⟩ := session_sessions hstep
  obtain rfl := Option.some.inj (hx.symm.trans hx')
  have hsame : y = y' := by
    rw [hsessions,List.getElem?_set_self (List.getElem?_eq_some_iff.mp hx).1] at hy
    exact (Option.some.inj hy).symm
  subst hsame
  have hholds : ∀ files, ({ l with files := files, server := server } : Life).holds =
      Function.update l.holds (.session c) (connectionFd y connection) := by
    intro files
    funext o
    cases o with
    | listener t' | window t' => rfl
    | session c' =>
      by_cases he : c' = c
      · subst he
        simp [Life.holds,hy,hconn]
      · have hne : Owner.session c' ≠ .session c := by simpa using he
        rw [Function.update_of_ne hne]
        simp [Life.holds,hsessions,List.getElem?_set_ne (Ne.symm he)]
  have hold := holds_session hx hconn
  unfold Life.leaves
  split
  · rename_i hleft
    obtain ⟨hyup,hxup⟩ : y.hungUp = true ∧ x.hungUp = false := by simpa using hleft
    rw [connectionFd,hxup] at hold
    obtain ⟨hevents,hexact⟩ := h.close hold
    refine ⟨hevents,held_of_exact hexact rfl ?_⟩
    have hfd : connectionFd y connection = none := by simp [connectionFd,hyup]
    exact hfd ▸ hholds _
  · rename_i hstays
    refine ⟨rfl,h.of_holds rfl ?_⟩
    have hfd : connectionFd y connection = connectionFd x connection := by
      cases hxup : x.hungUp with
      | true => simp [connectionFd,hxup,hungUp_stays hsession hxup]
      | false => simp_all [connectionFd]
    rw [← hfd] at hold
    exact (hholds l.files).trans (by rw [← hold,Function.update_eq_self])

theorem Held.step (h : Held l) (hc : Controlled l) (ha : Accounted l) (hs : LifeMove config ports l a ev l') :
    Held l' ∧ ∀ fd, .fault (.closedTwice fd) ∉ ev := by
  cases hs with
  | startedAlready | stoppedAlready => exact ⟨h,by simp⟩
  | starts hcaller _ | stops hcaller _ | unwinds hcaller | needsNoTls hcaller _ | loads hcaller _ | loadFails hcaller _
  | openFails hcaller _ | swaps hcaller | joinsSession hcaller _ | joinedAll hcaller | frees hcaller _
  | freesNone hcaller _ =>
    exact ⟨h.of_holds rfl (holds_caller rfl rfl rfl rfl fun t => by rw [hcaller]; rfl),by simp⟩
  | needsNoPort hcaller _ =>
    exact ⟨h.of_holds rfl (holds_caller rfl rfl rfl rfl fun t => by rw [hcaller]; exact afterOpening_open _ t),by simp⟩
  | spawnsNone hcaller _ =>
    exact ⟨h.of_holds rfl (holds_caller rfl rfl rfl rfl fun t => by rw [hcaller]; exact afterSpawning_open _ t),by simp⟩
  | closesNone hcaller _ =>
    exact ⟨h.of_holds rfl (holds_caller rfl rfl rfl rfl fun t => by rw [hcaller]; exact afterClosing_open _ _ t),by simp⟩
  | joinsNone hcaller _ =>
    exact ⟨h.of_holds rfl (holds_caller rfl rfl rfl rfl fun t => by rw [hcaller]; exact afterJoining_open _ t),by simp⟩
  | @opens t fd hcaller _ hfree =>
    have hno : l.listenerFd t = none := hc.withoutFd t (by rw [hcaller]; cases t <;> simp)
    exact ⟨h.opens hno hfree (fun t' => by rw [hcaller]; rfl) (afterOpening_open t),by simp⟩
  | @spawnsLoop t fd hcaller hfd =>
    have hno : l.loops t = none := hc.withoutLoop t (by rw [hcaller]; cases t <;> simp)
    have hsame : (l.setLoop t (some {})).holds = l.holds := by
      have hnone : l.holds (.window t) = none := by simp [Life.holds,hno]
      rw [holds_setLoop,Option.bind_some,show ({} : AcceptLoop).client = l.holds (.window t) from hnone.symm,
        Function.update_eq_self]
    have hkept : Held (l.setLoop t (some {})) := h.of_holds rfl hsame
    refine ⟨hkept.of_holds rfl (holds_caller rfl rfl rfl rfl fun t' => ?_),by simp⟩
    show (CallerPoint.afterSpawning t).hasClosed t' = l.caller.hasClosed t'
    rw [hcaller]
    exact afterSpawning_open t t'
  | @closes t failed fd hcaller hfd =>
    obtain ⟨hevents,hkept⟩ := h.closes hcaller hfd
    exact ⟨hkept,by rw [hevents]; simp⟩
  | clears hcaller => exact ⟨h.clears hcaller,by simp⟩
  | @joins t loop hcaller hl hp =>
    have hsame : (l.setLoop t none).holds = l.holds := by
      have hnone : l.holds (.window t) = none := by rw [holds_window hl,AcceptLoop.client,hp]
      rw [holds_setLoop,Option.bind_none,← hnone,Function.update_eq_self]
    have hkept : Held (l.setLoop t none) := h.of_holds rfl hsame
    refine ⟨hkept.of_holds rfl (holds_caller rfl rfl rfl rfl fun t' => ?_),by simp⟩
    show (CallerPoint.afterJoining t).hasClosed t' = l.caller.hasClosed t'
    rw [hcaller]
    exact afterJoining_open t t'
  | begins hl hp | selectsNone hl hp _ | acceptsNone hl hp =>
    exact ⟨h.of_holds rfl (holds_goto hl (by simp [AcceptLoop.client,hp])),by simp⟩
  | tests hl hp => exact ⟨h.of_holds rfl (holds_goto hl (by cases l.running && l.started <;> simp [AcceptLoop.client,hp])),by simp⟩
  | @selects t loop ready fd hl hp _ =>
    exact ⟨h.of_holds rfl (holds_goto hl (by cases ready && (l.files fd).isSome <;> simp [AcceptLoop.client,hp])),by simp⟩
  | accepts hl hp _ hfree => exact ⟨h.accepts hl hp hfree,by simp⟩
  | spawnsSession hl hp hstep => exact ⟨h.spawns ha hl hp hstep,by simp⟩
  | session hx hconn hstep hy =>
    obtain ⟨hevents,hkept⟩ := h.session hx hconn hstep hy
    refine ⟨hkept,fun fd => ?_⟩
    rw [hevents,List.append_nil,Life.usesContext]
    split
    · simp
    · split <;> simp
  | @frame a _ _ server haction hstep =>
    obtain ⟨hlen,hback⟩ := frame_sessions hstep (frame_action haction)
    refine ⟨h.of_holds rfl (holds_ext (fun _ => rfl) (fun _ => rfl) fun c => ?_),by simp⟩
    simp only [Life.holds]
    cases hy : server.sessions[c]? with
    | none =>
      have hout : l.server.sessions[c]? = none := by
        rw [List.getElem?_eq_none_iff] at hy ⊢
        omega
      rw [hout]
    | some y =>
      obtain ⟨x,queue,hx,rfl⟩ := hback c y hy
      rw [hx]
      rfl
  | signal => exact ⟨h.of_holds rfl rfl,by simp⟩

end

structure Sound (l : Life) : Prop where
  controlled : Controlled l
  looping : Looping l
  accounted : Accounted l
  contexted : Contexted l
  held : Held l

section

variable {config : LiveRtspServerConfig} {ports : Transport → Int} {l l' : Life} {a : LifeAction} {ev : List LifeEvent}

theorem sound_empty : Sound {} where
  controlled := controlled_empty
  looping := ⟨by simp,by simp⟩
  accounted := ⟨rfl,by simp⟩
  contexted := ⟨by simp,by simp,by simp,by simp⟩
  held := by
    refine held_of_exact exact_empty rfl ?_
    funext o
    cases o <;> simp [Life.holds,CallerPoint.hasClosed]

theorem Contexted.uses (h : Contexted l) {c : Nat} {x : Session} {connection : Connection}
    (hx : l.server.sessions[c]? = some x) (hconn : l.connections[c]? = some connection) :
    l.usesContext x connection = [] := by
  unfold Life.usesContext
  split
  · rfl
  · rename_i k hk
    split
    · rename_i hused
      obtain ⟨hlt,hlive⟩ := h.pointed k (h.sessions c x connection k hx hconn (by simp [hused.1]) hk)
      simp [Life.liveContext,hlt,hlive] at hused
    · rfl

theorem Sound.step (h : Sound l) (hs : l.step config ports a = some (ev,l')) : Sound l' ∧ ∀ f, .fault f ∉ ev := by
  have hm := life_move hs
  obtain ⟨hheld,hclosed⟩ := h.held.step h.controlled h.accounted hm
  refine ⟨⟨h.controlled.step hm,h.looping.step h.controlled hm,h.accounted.step hm,
    h.contexted.step h.controlled h.accounted hm,hheld⟩,fun f => ?_⟩
  cases f with
  | closedTwice fd => exact hclosed fd
  | setOfNoDescriptor =>
    cases hm with
    | selectsNone hl hp hfd =>
      rcases h.looping.noFd _ _ hl hfd with hp' | hp' | ⟨hp',-⟩ <;> exact absurd (hp.symm.trans hp') (by simp)
    | closes hcaller hfd =>
      rw [(h.held.closes hcaller hfd).1]
      simp
    | session hx hconn hstep hy =>
      rw [(h.held.session hx hconn hstep hy).1,h.contexted.uses hx hconn]
      simp
    | _ => simp
  | contextUsedAfterFree k =>
    cases hm with
    | closes hcaller hfd =>
      rw [(h.held.closes hcaller hfd).1]
      simp
    | session hx hconn hstep hy =>
      rw [(h.held.session hx hconn hstep hy).1,h.contexted.uses hx hconn]
      simp
    | _ => simp

theorem lifeRun_sound (config : LiveRtspServerConfig) (ports : Transport → Int) (actions : List LifeAction) :
    Sound (lifeRun config ports actions).2 ∧ ∀ f, .fault f ∉ (lifeRun config ports actions).1 :=
  @run_keeps _ _ _ (Life.step config ports) (fun h l => Sound l ∧ ∀ f, LifeEvent.fault f ∉ h)
    (fun h l a ev l' hi hs => by
      obtain ⟨hkept,hnone⟩ := hi.1.step hs
      exact ⟨hkept,fun f hf => (List.mem_append.mp hf).elim (hi.2 f) (hnone f)⟩)
    ([],{}) actions ⟨sound_empty,by simp⟩

end

def Life.current (l : Life) : Nat :=
  match l.caller with
  | .initializing => 0
  | .idle => if l.started && l.tlsContext.isSome then 1 else 0
  | _ => if l.tlsContext.isSome then 1 else 0

-- the catch block of start leaves its context behind
structure ContextLedger (ports : Transport → Int) (h : List LifeEvent) (l : Life) : Prop where
  book : l.created = l.freed.length + (if 0 < ports .rtsps then h.count .listenFailed else 0) + l.current
  made : 0 < ports .rtsps → l.caller.starts = true → l.caller ≠ .initializing → l.tlsContext.isSome = true
  plain : ports .rtsps ≤ 0 → l.tlsContext = none
  once : l.freed.Nodup

section

variable {config : LiveRtspServerConfig} {ports : Transport → Int} {h : List LifeEvent} {l l' : Life} {a : LifeAction}
  {ev : List LifeEvent}

theorem ContextLedger.of_eq (hb : ContextLedger ports h l) (hcount : ev.count .listenFailed = 0) (hcreated : l'.created = l.created)
    (hfreed : l'.freed = l.freed) (htls : l'.tlsContext = l.tlsContext) (hcurrent : l'.current = l.current)
    (hmade : 0 < ports .rtsps → l'.caller.starts = true → l'.caller ≠ .initializing → l.tlsContext.isSome = true) :
    ContextLedger ports (h ++ ev) l' where
  book := by rw [hcreated,hfreed,hcurrent,List.count_append,hcount]; exact hb.book
  made := by rw [htls]; exact hmade
  plain := by rw [htls]; exact hb.plain
  once := by rw [hfreed]; exact hb.once

theorem ContextLedger.step (hb : ContextLedger ports h l) (hs : Sound l) (hm : LifeMove config ports l a ev l') :
    ContextLedger ports (h ++ ev) l' := by
  have hstarts := hs.controlled.starts
  have hstops := hs.controlled.stops
  have hmade := hb.made
  cases hm with
  | startedAlready | stoppedAlready =>
    rw [List.append_nil]
    exact hb
  | starts hcaller hst | stops hcaller hst =>
    exact hb.of_eq rfl rfl rfl rfl (by simp [Life.current,Life.synced,hcaller,hst]) (by simp [Life.synced])
  | needsNoTls hcaller hport =>
    refine hb.of_eq rfl rfl rfl rfl (by simp [Life.current,hcaller,hb.plain hport]) fun hpos => ?_
    exact absurd hport (not_le.mpr hpos)
  | loads hcaller hport =>
    have hbook := hb.book
    simp only [Life.current,hcaller] at hbook
    exact ⟨by simp [Life.current,hbook],by simp,fun hle => absurd hport (not_lt.mpr hle),hb.once⟩
  | loadFails hcaller hport =>
    have hbook := hb.book
    simp only [Life.current,hcaller] at hbook
    exact ⟨by simpa [Life.current] using hbook,by simp,fun _ => rfl,hb.once⟩
  | @needsNoPort t _ hcaller _ | @opens t _ hcaller _ _ =>
    rw [hcaller] at hmade
    refine hb.of_eq rfl rfl rfl rfl ?_ fun hpos _ _ => hmade hpos rfl (by simp)
    cases t <;> simp [Life.current,hcaller,CallerPoint.afterOpening]
  | openFails hcaller _ =>
    rw [hcaller] at hmade
    exact hb.of_eq rfl rfl rfl rfl (by simp [Life.current,hcaller]) fun hpos _ _ => hmade hpos rfl (by simp)
  | @spawnsNone t hcaller _ | @spawnsLoop t _ hcaller _ =>
    rw [hcaller] at hmade hstarts
    refine hb.of_eq rfl rfl rfl rfl ?_ fun hpos _ _ => hmade hpos rfl (by simp)
    cases t <;> simp [Life.current,hcaller,CallerPoint.afterSpawning,Life.setLoop,hstarts rfl]
  | @closes t failed fd hcaller hfd =>
    rw [hcaller] at hmade
    rw [(hs.held.closes hcaller hfd).1]
    refine hb.of_eq rfl rfl rfl rfl (by simp [Life.current,hcaller,Life.close]) fun hpos hst _ => hmade hpos ?_ (by simp)
    cases failed <;> simp_all
  | @closesNone t failed hcaller _ | @clears t failed hcaller =>
    rw [hcaller] at hmade
    refine hb.of_eq rfl rfl rfl rfl ?_ fun hpos hst _ => hmade hpos ?_ (by simp)
    · cases t <;> cases failed <;> simp [Life.current,hcaller,CallerPoint.afterClosing]
    · cases t <;> cases failed <;> simp_all [CallerPoint.afterClosing]
  | unwinds hcaller =>
    rw [hcaller] at hmade
    refine ⟨?_,by simp [Life.synced],hb.plain,hb.once⟩
    have hbook := hb.book
    simp only [Life.current,hcaller] at hbook
    by_cases hport : 0 < ports .rtsps
    · simp [Life.current,Life.synced,hbook,hport,hmade hport rfl (by simp)]
      omega
    · simp [Life.current,Life.synced,hbook,hport,hb.plain (by omega)]
  | @joins t loop hcaller _ _ | @joinsNone t hcaller _ =>
    refine hb.of_eq rfl rfl rfl rfl ?_ ?_ <;> cases t <;> simp [Life.current,hcaller,CallerPoint.afterJoining,Life.setLoop]
  | swaps hcaller | joinsSession hcaller _ | joinedAll hcaller =>
    exact hb.of_eq rfl rfl rfl rfl (by simp [Life.current,hcaller]) (by simp)
  | @frees k hcaller hk =>
    rw [hcaller] at hstops
    have hbook := hb.book
    simp only [Life.current,hcaller,hk] at hbook
    refine ⟨?_,by simp,fun _ => rfl,List.nodup_cons.mpr ⟨(hs.contexted.pointed k hk).2,hb.once⟩⟩
    simp [Life.current,hbook]
    omega
  | freesNone hcaller hk => exact hb.of_eq rfl rfl rfl rfl (by simp [Life.current,hcaller,hk]) (by simp)
  | begins | tests | selectsNone | selects | acceptsNone | accepts | spawnsSession | frame | signal =>
    exact hb.of_eq rfl rfl rfl rfl rfl hb.made
  | session hx hconn hstep hy =>
    rw [(hs.held.session hx hconn hstep hy).1,hs.contexted.uses hx hconn]
    unfold Life.leaves
    split <;> exact hb.of_eq rfl rfl rfl rfl rfl hb.made

end

def restarted : List LifeAction := List.flatten [
  [.start,.loadTls true,.listen (some 3),.listen none,.caller,.caller,.caller,.caller],
  [.start,.loadTls true,.listen (some 3),.listen (some 4),.caller,.caller],
  [.loop .rtsps .advance,.loop .rtsps .advance,.loop .rtsps (.select true),.loop .rtsps (.accept (some 5)),
    .loop .rtsps (.spawn 0 0 0)],
  [.session 0 (.connect true),.session 0 .advance,.session 0 .advance,.session 0 .advance],
  [.stop,.caller,.caller,.caller,.caller,.loop .rtsp .advance,.loop .rtsp .advance,.loop .rtsps .advance,.caller,.caller,
    .caller],
  .session 0 (.poll none) :: List.replicate 5 (.session 0 .advance),
  [.caller,.caller,.caller]]

end RpiVms

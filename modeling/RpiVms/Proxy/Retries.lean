import RpiVms.Proxy.Session
import RpiVms.Proxy.UrlMapping

namespace RpiVms

open Search Framing Runs

def digestChallenges (message : Bytes) : Bool :=
  rtspStatusCode message = 401 && (parseDigestChallenge message).valid

def isSent (i : Nat) : ProxyEvent → Bool
  | .sent request => request.origin == i
  | _ => false

def isAnswered (i : Nat) : ProxyEvent → Bool
  | .answered request _ => request.origin == i
  | _ => false

section

variable (config : AppConfig) (limits : ParserLimits) (md5 : Bytes → Bytes)

structure RetryOf (request retry : Upstream) : Prop where
  origin : retry.origin = request.origin
  cseq : cseqFromMessage retry.bytes = cseqFromMessage request.bytes
  authorized : ∃ a : DigestAuthenticator, retry.bytes = (a.authorize config md5 request.bytes).1

structure ChallengesHandled (h : List ProxyEvent) : Prop where
  resent : ∀ pre request message post, h = pre ++ .received request message :: post →
    digestChallenges message = true →
    ∃ retry rest, post = .sent retry :: rest ∧ RetryOf config md5 request retry
  twice : ∀ i, h.countP (isSent i) ≤ 2
  once : ∀ i, h.countP (isAnswered i) ≤ 1

def nextResponse (s : ProxySystem) : ProxyAction → Option Bytes
  | .handle _ _ =>
      if s.session.point = .fromCamera then
        match extractOneRtspMessage limits s.session.cameraBuf with
        | some (.unit message _) => if message.head? = some dollar then none else some message
        | _ => none
      else none
  | _ => none

def challengesAlone (h : List ProxyEvent) (s : ProxySystem) (a : ProxyAction) : Bool :=
  match (nextResponse limits s a).filter digestChallenges,s.outstanding with
  | some _,request :: waiting => waiting.isEmpty && h.countP (isSent request.origin) == 1
  | _,_ => true

inductive ProxyMove (s : ProxySystem) (a : ProxyAction) : List ProxyEvent → ProxySystem → Prop
  | quiet {ev t} (response : nextResponse limits s a = none)
      (events : ∀ e ∈ ev, ∃ toCamera message, e = .interleaved toCamera message)
      (outstanding : t.outstanding = s.outstanding)
      (last : t.session.lastUpstreamRequest = s.session.lastUpstreamRequest)
      (forwarded : t.session.forwarded = s.session.forwarded) : ProxyMove s a ev t
  | forwards {out t} (response : nextResponse limits s a = none) (ne_nil : out ≠ [])
      (outstanding : t.outstanding = s.outstanding ++ [⟨s.session.forwarded,out⟩])
      (last : t.session.lastUpstreamRequest = ⟨s.session.forwarded,out⟩)
      (forwarded : t.session.forwarded = s.session.forwarded + 1) :
      ProxyMove s a [.sent ⟨s.session.forwarded,out⟩] t
  | resends {request waiting message t} {challenged : DigestAuthenticator} {retry : Upstream}
      (response : nextResponse limits s a = some message)
      (challenges : digestChallenges message = true)
      (waits : s.outstanding = request :: waiting)
      (origin : retry.origin = s.session.lastUpstreamRequest.origin)
      (bytes : retry.bytes = (challenged.authorize config md5 s.session.lastUpstreamRequest.bytes).1)
      (ne_nil : s.session.lastUpstreamRequest.bytes ≠ [])
      (outstanding : t.outstanding = waiting ++ [retry])
      (last : t.session.lastUpstreamRequest = retry)
      (forwarded : t.session.forwarded = s.session.forwarded) :
      ProxyMove s a [.received request message,.sent retry] t
  | answers {request waiting message out t} (response : nextResponse limits s a = some message)
      (plain : digestChallenges message = true → s.session.lastUpstreamRequest.bytes = [])
      (waits : s.outstanding = request :: waiting) (outstanding : t.outstanding = waiting)
      (last : t.session.lastUpstreamRequest = s.session.lastUpstreamRequest)
      (forwarded : t.session.forwarded = s.session.forwarded) :
      ProxyMove s a [.received request message,.answered request out] t

end

section

variable {config : AppConfig} {limits : ParserLimits} {md5 : Bytes → Bytes} {s t : ProxySystem}
  {a : ProxyAction} {h ev : List ProxyEvent}

theorem authorize_ne_nil {c : DigestAuthenticator} {request : Bytes} (hr : request ≠ []) :
    (c.authorize config md5 request).1 ≠ [] := by
  have hb (method uri : Bytes) (nc : UInt32) : c.buildAuthorization config md5 method uri nc ≠ [] := by
    intro he
    have := @DigestAuthenticator.build_starts config md5 c method uri nc
    rw [he] at this
    exact absurd this (by decide)
  unfold DigestAuthenticator.authorize
  split
  · exact hr
  · simp only
    split
    · exact hr
    · unfold addAuthorizationHeader
      split
      · exact hr
      · split
        · split <;> simp [hb]
        · simp [hb]

theorem rewriteClientRequest_ne_nil {r : RtspRewriter} {message : Bytes} (hm : message ≠ []) :
    r.rewriteClientRequest message ≠ [] := by
  unfold RtspRewriter.rewriteClientRequest
  split
  · exact hm
  · simp only
    split
    · unfold RtspRewriter.insertTransport
      split <;> simp [crlf]
    · simp [crlf]

theorem afterWrite_keeps (x : RtspProxySession) (written : Bool) :
    (x.afterWrite written).lastUpstreamRequest = x.lastUpstreamRequest ∧
      (x.afterWrite written).forwarded = x.forwarded := by
  unfold RtspProxySession.afterWrite
  split <;> exact ⟨rfl,rfl⟩

theorem forward_sends {x : RtspProxySession} {r : RtspRewriter} {message : Bytes} (hm : message ≠ []) :
    ∃ out, out ≠ [] ∧ (x.forward config md5 r message).lastUpstreamRequest = ⟨x.forwarded,out⟩ ∧
      (x.forward config md5 r message).forwarded = x.forwarded + 1 := by
  refine ⟨(x.upstreamRequest config md5 r message).1,?_,rfl,rfl⟩
  unfold RtspProxySession.upstreamRequest
  simp only
  split
  · exact authorize_ne_nil (rewriteClientRequest_ne_nil hm)
  · exact rewriteClientRequest_ne_nil hm

theorem retries_iff {x : RtspProxySession} {message : Bytes} :
    (x.retries message).isSome ↔
      digestChallenges message = true ∧ x.lastUpstreamRequest.bytes ≠ [] := by
  by_cases hv : (parseDigestChallenge message).valid = true <;>
    simp [RtspProxySession.retries,DigestAuthenticator.updateFromUnauthorized,digestChallenges,hv]

theorem handleClient_move {cameraReady connects written : Bool} (hp : s.session.point = .fromClient cameraReady)
    (hs : s.handleClient config limits md5 cameraReady connects written = some (ev,t)) :
    ProxyMove config limits md5 s (.handle connects written) ev t := by
  have hnone : nextResponse limits s (.handle connects written) = none := by
    simp [nextResponse,hp]
  unfold ProxySystem.handleClient at hs
  split at hs
  · cases hs
  · cases hs
    exact .quiet hnone (by simp) rfl rfl rfl
  · rename_i message rest hx
    simp only at hs
    split at hs
    · split at hs
      · cases hs
        obtain ⟨hl,hf⟩ := afterWrite_keeps { s.session with clientBuf := rest } written
        exact .quiet hnone (by simp) rfl hl hf
      · cases hs
        exact .quiet hnone (by simp) rfl rfl rfl
    · rename_i hd
      have hm : message ≠ [] := by
        obtain ⟨header,body,rfl,hmsg⟩ := extract_message hx hd
        have := hmsg.long
        intro he
        rw [List.append_eq_nil_iff.mp he |>.1] at this
        simp at this
      unfold ProxySystem.handleRequest at hs
      split at hs
      · cases hs
        exact .quiet hnone (by simp) rfl rfl rfl
      · rename_i r _
        split at hs
        · cases hs
          exact .quiet hnone (by simp) rfl rfl rfl
        · obtain ⟨out,hne,hlast,hforwarded⟩ :=
            @forward_sends config md5 { s.session with clientBuf := rest } r message hm
          obtain ⟨hl,hf⟩ := afterWrite_keeps
            (RtspProxySession.forward config md5 { s.session with clientBuf := rest } r message) written
          simp only [hlast,Option.some.injEq,Prod.mk.injEq] at hs
          obtain ⟨rfl,rfl⟩ := hs
          exact .forwards hnone hne rfl (hl.trans hlast) (hf.trans hforwarded)

theorem handleCamera_move {connects written : Bool} (hp : s.session.point = .fromCamera)
    (hs : s.handleCamera config limits md5 written = some (ev,t)) :
    ProxyMove config limits md5 s (.handle connects written) ev t := by
  unfold ProxySystem.handleCamera at hs
  split at hs
  · cases hs
  · rename_i hx
    cases hs
    exact .quiet (by simp [nextResponse,hx]) (by simp) rfl rfl rfl
  · rename_i message rest hx
    simp only at hs
    split at hs
    · rename_i hd
      cases hs
      obtain ⟨hl,hf⟩ := afterWrite_keeps { s.session with cameraBuf := rest } written
      exact .quiet (by simp [nextResponse,hx,hd]) (by simp) rfl hl hf
    · rename_i hd
      have hresponse : nextResponse limits s (.handle connects written) = some message := by
        simp [nextResponse,hp,hx,hd]
      split at hs
      · cases hs
      · rename_i request waiting hwaits
        unfold ProxySystem.handleResponse at hs
        split at hs
        · rename_i challenged hr
          cases hs
          obtain ⟨hl,hf⟩ := afterWrite_keeps
            (RtspProxySession.retry config md5 { s.session with cameraBuf := rest } challenged) written
          obtain ⟨hchallenges,hne⟩ := retries_iff.mp (Option.isSome_iff_exists.mpr ⟨challenged,hr⟩)
          exact .resends hresponse hchallenges hwaits rfl rfl hne rfl hl hf
        · rename_i hr
          cases hs
          obtain ⟨hl,hf⟩ := afterWrite_keeps { s.session with cameraBuf := rest } written
          refine .answers hresponse (fun hchallenges => ?_) hwaits rfl hl hf
          by_contra hne
          exact Option.not_isSome_iff_eq_none.mpr hr (retries_iff.mpr ⟨hchallenges,hne⟩)

theorem proxy_move (hs : s.step config limits md5 a = some (ev,t)) :
    ProxyMove config limits md5 s a ev t := by
  unfold ProxySystem.step at hs
  split at hs
  · cases hs
    exact .quiet rfl (by simp) rfl rfl rfl
  · simp only at hs
    split at hs
    · cases hs
      exact .quiet rfl (by simp) rfl rfl rfl
    · split at hs <;> cases hs <;> exact .quiet rfl (by simp) rfl rfl rfl
  · cases hs
    exact .quiet rfl (by simp) rfl rfl rfl
  · cases hs
    exact .quiet rfl (by simp) rfl rfl rfl
  · cases hs
    exact .quiet rfl (by simp) rfl rfl rfl
  · cases hs
    exact .quiet rfl (by simp) rfl rfl rfl
  · rename_i hp
    exact handleClient_move hp hs
  · rename_i hp
    exact handleCamera_move hp hs
  · cases hs

def sentRequest : ProxyEvent → Option Upstream
  | .sent request => some request
  | _ => none

def receivedFor : ProxyEvent → Option Upstream
  | .received request _ => some request
  | _ => none

theorem camera_answers_in_order (actions : List ProxyAction) :
    (proxyRun config limits md5 actions).1.filterMap sentRequest =
      (proxyRun config limits md5 actions).1.filterMap receivedFor ++
        (proxyRun config limits md5 actions).2.outstanding := by
  refine @run_keeps _ _ _ (ProxySystem.step config limits md5)
    (fun h s => h.filterMap sentRequest = h.filterMap receivedFor ++ s.outstanding) ?_ ([],{}) actions rfl
  intro h s a ev t hi hs
  cases proxy_move hs with
  | quiet response events outstanding =>
    have hnone (f : ProxyEvent → Option Upstream) (hf : ∀ c m, f (.interleaved c m) = none) :
        ev.filterMap f = [] := by
      refine List.filterMap_eq_nil_iff.mpr fun e he => ?_
      obtain ⟨c,m,rfl⟩ := events e he
      exact hf c m
    simp [hnone sentRequest fun _ _ => rfl,hnone receivedFor fun _ _ => rfl,hi,outstanding]
  | forwards response ne_nil outstanding => simp [sentRequest,receivedFor,hi,outstanding]
  | resends response challenges waits origin bytes ne_nil outstanding =>
    simp [List.filterMap_cons,sentRequest,receivedFor,hi,outstanding,waits]
  | answers response plain waits outstanding =>
    simp [List.filterMap_cons,sentRequest,receivedFor,hi,outstanding,waits]

end

structure Tally (forwarded i sent answered underway : Nat) : Prop where
  twice : sent ≤ 2
  single : answered + underway ≤ 1
  known : 0 < underway → 0 < sent
  fresh : forwarded ≤ i → sent = 0 ∧ answered = 0 ∧ underway = 0

namespace Tally

variable {n i sent answered underway r : Nat}

theorem forward (k : Tally n i sent answered underway) :
    Tally (n + 1) i (sent + if n = i then 1 else 0) answered (underway + if n = i then 1 else 0) := by
  obtain ⟨htwice,hsingle,hknown,hfresh⟩ := k
  split <;> constructor <;> omega

theorem resend (k : Tally n i sent answered underway) (hr : r = i → sent = 1)
    (hu : r = i → 0 < underway) :
    Tally n i (sent + if r = i then 1 else 0) answered underway := by
  obtain ⟨htwice,hsingle,hknown,hfresh⟩ := k
  split
  · rename_i he
    have := hr he
    have := hu he
    constructor <;> omega
  · exact ⟨htwice,hsingle,hknown,hfresh⟩

theorem answer (k : Tally n i sent answered (underway + if r = i then 1 else 0)) :
    Tally n i sent (answered + if r = i then 1 else 0) underway := by
  obtain ⟨htwice,hsingle,hknown,hfresh⟩ := k
  by_cases he : r = i
  · rw [if_pos he] at *
    constructor <;> omega
  · rw [if_neg he] at *
    exact ⟨htwice,hsingle,hknown,hfresh⟩

end Tally

def underway (i : Nat) (outstanding : List Upstream) : Nat := outstanding.countP (·.origin == i)

structure ProxyInv (config : AppConfig) (md5 : Bytes → Bytes) (h : List ProxyEvent) (s : ProxySystem) :
    Prop where
  resent : ∀ pre request message post, h = pre ++ .received request message :: post →
    digestChallenges message = true →
    ∃ retry rest, post = .sent retry :: rest ∧ RetryOf config md5 request retry
  tally : ∀ i, Tally s.session.forwarded i (h.countP (isSent i)) (h.countP (isAnswered i))
    (underway i s.outstanding)
  last : ∀ request ∈ s.outstanding.getLast?, s.session.lastUpstreamRequest = request ∧ request.bytes ≠ []

section

variable {config : AppConfig} {limits : ParserLimits} {md5 : Bytes → Bytes} {s t : ProxySystem}
  {a : ProxyAction} {h ev : List ProxyEvent} {i : Nat}

theorem ProxyInv.handled (hi : ProxyInv config md5 h s) : ChallengesHandled config md5 h where
  resent := hi.resent
  twice := fun i => (hi.tally i).twice
  once := fun i => by
    have := (hi.tally i).single
    omega

theorem resent_append (hi : ProxyInv config md5 h s) (hev : ∀ pre request message post,
    ev = pre ++ .received request message :: post → digestChallenges message = true →
    ∃ retry rest, post = .sent retry :: rest ∧ RetryOf config md5 request retry) :
    ∀ pre request message post, h ++ ev = pre ++ .received request message :: post →
      digestChallenges message = true →
      ∃ retry rest, post = .sent retry :: rest ∧ RetryOf config md5 request retry := by
  intro pre request message post he hm
  rcases List.append_eq_append_iff.mp he with ⟨mid,rfl,hright⟩ | ⟨mid,hleft,hright⟩
  · exact hev mid request message post hright hm
  · cases mid with
    | nil => exact hev [] request message post (by simpa using hright.symm) hm
    | cons e mid =>
      obtain ⟨rfl,rfl⟩ := List.cons.inj hright
      obtain ⟨retry,rest,rfl,hretry⟩ := hi.resent pre request message mid hleft hm
      exact ⟨retry,rest ++ ev,rfl,hretry⟩

theorem response_split {pre : List ProxyEvent} {request request' : Upstream} {message message' : Bytes}
    {e : ProxyEvent} {post : List ProxyEvent} (he : ∀ r m, e ≠ .received r m)
    (h : [.received request message,e] = pre ++ .received request' message' :: post) :
    request' = request ∧ message' = message ∧ post = [e] := by
  rcases pre with _ | ⟨d,_ | ⟨d',pre⟩⟩
  · simp at h
    obtain ⟨⟨rfl,rfl⟩,rfl⟩ := h
    exact ⟨rfl,rfl,rfl⟩
  · simp only [List.cons_append,List.nil_append,List.cons.injEq] at h
    exact absurd h.2.1 (he _ _)
  · simp at h

theorem last_nonempty {request : Upstream} {waiting : List Upstream} (hi : ProxyInv config md5 h s)
    (hw : s.outstanding = request :: waiting) :
    s.session.lastUpstreamRequest ∈ s.outstanding.getLast? ∧
      s.session.lastUpstreamRequest.bytes ≠ [] := by
  obtain ⟨r,hr⟩ := Option.isSome_iff_exists.mp (show s.outstanding.getLast?.isSome by simp [hw])
  obtain ⟨hlast,hne⟩ := hi.last r hr
  rw [hlast]
  exact ⟨hr,hne⟩

theorem last_concat {waiting : List Upstream} {request : Upstream}
    (ho : t.outstanding = waiting ++ [request]) (hl : t.session.lastUpstreamRequest = request)
    (hne : request.bytes ≠ []) :
    ∀ r ∈ t.outstanding.getLast?, t.session.lastUpstreamRequest = r ∧ r.bytes ≠ [] := by
  intro r hr
  rw [ho,List.getLast?_concat] at hr
  obtain rfl := Option.some.inj hr
  exact ⟨hl,hne⟩

theorem inv_step (hu : Plain config.cameraUser) (hi : ProxyInv config md5 h s)
    (hc : challengesAlone limits h s a = true) (hm : ProxyMove config limits md5 s a ev t) :
    ProxyInv config md5 (h ++ ev) t := by
  cases hm with
  | quiet response events outstanding last forwarded =>
    have hzero (p : ProxyEvent → Bool) (hp : ∀ c m, p (.interleaved c m) = false) :
        (h ++ ev).countP p = h.countP p := by
      rw [List.countP_append,Nat.add_eq_left,List.countP_eq_zero]
      intro e he
      obtain ⟨c,m,rfl⟩ := events e he
      simp [hp]
    refine ⟨resent_append hi ?_,fun i => ?_,?_⟩
    · intro pre request message post he
      obtain ⟨c,m,hm⟩ := events (.received request message) (by simp [he])
      cases hm
    · rw [hzero (isSent i) fun _ _ => rfl,hzero (isAnswered i) fun _ _ => rfl,outstanding,forwarded]
      exact hi.tally i
    · rw [outstanding,last]
      exact hi.last
  | @forwards out t response ne_nil outstanding last forwarded =>
    refine ⟨resent_append hi ?_,fun i => ?_,last_concat outstanding last ne_nil⟩
    · intro pre request message post he
      have hmem : ProxyEvent.received request message ∈ [ProxyEvent.sent ⟨s.session.forwarded,out⟩] := by
        rw [he]
        simp
      simp at hmem
    · rw [forwarded]
      simpa [List.countP_append,List.countP_cons,isSent,isAnswered,outstanding,underway]
        using (hi.tally i).forward
  | @resends request waiting message t challenged retry response challenges waits origin bytes ne_nil outstanding last forwarded =>
    obtain ⟨rfl,hone⟩ : waiting = [] ∧ h.countP (isSent request.origin) = 1 := by
      simpa [challengesAlone,response,challenges,waits,Option.filter] using hc
    obtain ⟨hlast,hne⟩ := hi.last request (by simp [waits])
    rw [hlast] at origin bytes
    refine ⟨resent_append hi ?_,fun i => ?_,
      last_concat outstanding last (by rw [bytes]; exact authorize_ne_nil hne)⟩
    · intro pre request' message' post he _
      obtain ⟨rfl,rfl,rfl⟩ := response_split (by simp) he
      exact ⟨retry,[],rfl,origin,by rw [bytes]; exact challenged.authorize_cseq hu _,challenged,bytes⟩
    · have hk := hi.tally i
      rw [waits] at hk
      have hsent : request.origin = i → h.countP (isSent i) = 1 := fun he => he ▸ hone
      have hunder : request.origin = i → 0 < underway i [request] := fun he => by simp [underway,he]
      rw [forwarded,outstanding]
      simpa [List.countP_append,List.countP_cons,isSent,isAnswered,underway,origin]
        using hk.resend hsent hunder
  | @answers request waiting message out t response plain waits outstanding last forwarded =>
    refine ⟨resent_append hi ?_,fun i => ?_,fun r hr => ?_⟩
    · intro pre request' message' post he hd
      obtain ⟨rfl,rfl,rfl⟩ := response_split (by simp) he
      exact absurd (plain hd) (last_nonempty hi waits).2
    · have hk := hi.tally i
      rw [waits] at hk
      simp only [underway,List.countP_cons,beq_iff_eq] at hk
      rw [forwarded,outstanding]
      simpa [List.countP_append,List.countP_cons,isSent,isAnswered,underway] using hk.answer
    · rw [last]
      refine hi.last r ?_
      rw [waits,List.getLast?_cons]
      rw [outstanding] at hr
      rw [hr]
      rfl

theorem steps_of_response {request : Upstream} {waiting : List Upstream} {message : Bytes}
    (hr : nextResponse limits s a = some message) (hw : s.outstanding = request :: waiting) :
    ∃ ev t, s.step config limits md5 a = some (ev,t) := by
  cases a with
  | handle connects written =>
    simp only [nextResponse] at hr
    split at hr
    · rename_i hp
      cases hx : extractOneRtspMessage limits s.session.cameraBuf with
      | none => simp [hx] at hr
      | some o =>
        cases o with
        | wait rest => simp [hx] at hr
        | unit m rest =>
          by_cases hd : m.head? = some dollar
          · simp [hx,hd] at hr
          · exact ⟨_,_,by simp [ProxySystem.step,hp,ProxySystem.handleCamera,hx,hd,hw]; rfl⟩
    · cases hr
  | select ready => cases hr
  | read chunk => cases hr

theorem breaks_unless_alone (hi : ProxyInv config md5 h s) (hc : ¬challengesAlone limits h s a = true)
    : ∃ ev t, s.step config limits md5 a = some (ev,t) ∧
      ∀ g, ¬ChallengesHandled config md5 (h ++ ev ++ g) := by
  unfold challengesAlone at hc
  split at hc
  · rename_i message request waiting hf hw
    obtain ⟨hr,hd⟩ := Option.filter_eq_some_iff.mp hf
    obtain ⟨ev,t,hs⟩ := @steps_of_response config limits md5 s a request waiting message hr hw
    refine ⟨ev,t,hs,fun g hg => ?_⟩
    obtain ⟨hlast,hne⟩ := last_nonempty hi hw
    cases proxy_move hs with
    | quiet response | forwards response =>
      rw [hr] at response
      cases response
    | answers response plain =>
      obtain rfl := Option.some.inj (hr.symm.trans response)
      exact hne (plain hd)
    | @resends request' waiting' message' t challenged retry response challenges waits origin =>
      obtain rfl := Option.some.inj (hr.symm.trans response)
      obtain ⟨rfl,rfl⟩ := List.cons.inj (hw.symm.trans waits)
      obtain ⟨retry',rest,hpost,hretry⟩ := hg.resent h request message (.sent retry :: g) (by simp) hd
      obtain rfl := (ProxyEvent.sent.inj (List.cons.inj hpost).1)
      have hsame : s.session.lastUpstreamRequest.origin = request.origin := origin ▸ hretry.origin
      have hk := hi.tally request.origin
      rw [hw] at hk hlast
      rcases List.eq_nil_or_concat waiting with rfl | ⟨front,last,rfl⟩
      · -- the third time the request is sent
        have htwice := hg.twice request.origin
        simp [List.countP_append,isSent,hretry.origin] at htwice
        have hpos := hk.known (by simp [underway])
        simp only [List.isEmpty_nil,Bool.true_and,beq_iff_eq] at hc
        omega
      · -- the request resent is another one
        rw [List.concat_eq_append,← List.cons_append,List.getLast?_concat] at hlast
        have hl : last.origin = request.origin := (Option.some.inj hlast) ▸ hsame
        have hsingle := hk.single
        simp [underway,List.countP_append,hl] at hsingle
        omega
  · exact absurd rfl hc

theorem proxyInv_start : ProxyInv config md5 [] {} where
  resent := by simp
  tally := fun i => ⟨by simp,by simp [underway],by simp [underway],by simp [underway]⟩
  last := by simp

theorem challenges_handled_iff (config : AppConfig) (limits : ParserLimits) (md5 : Bytes → Bytes)
    (hu : Plain config.cameraUser) (actions : List ProxyAction) :
    ChallengesHandled config md5 (proxyRun config limits md5 actions).1 ↔
      Along (ProxySystem.step config limits md5) (fun h s a => challengesAlone limits h s a = true)
        ([],{}) actions := by
  have hstep : ∀ h s a ev t, ProxyInv config md5 h s → challengesAlone limits h s a = true →
      ProxySystem.step config limits md5 s a = some (ev,t) → ProxyInv config md5 (h ++ ev) t :=
    fun _ _ _ _ _ hi hc hs => inv_step hu hi hc (proxy_move hs)
  constructor
  · exact along_of_run hstep (fun _ _ _ hi hc => breaks_unless_alone hi hc) proxyInv_start
  · exact fun hc => (run_keeps_along hstep hc proxyInv_start).handled

def optionsRequest (cseq : Nat) : Bytes :=
  ascii "OPTIONS rtsp://pi/ch1 RTSP/1.0\r\nCSeq: " ++ decimal cseq ++ ascii "\r\n\r\n"

def unauthorized : Bytes :=
  ascii "RTSP/1.0 401 Unauthorized\r\nWWW-Authenticate: Digest realm=\"cam\", nonce=\"7\"\r\n\r\n"

def granted : Bytes := ascii "RTSP/1.0 200 OK\r\n\r\n"

def fromClient (message : Bytes) : List ProxyAction :=
  [.select (some (true,false)),.read (some message),.handle true true,.handle true true]

def fromCamera (message : Bytes) : List ProxyAction :=
  [.select (some (false,true)),.read (some message),.handle true true,.handle true true]

def challengedOnce : List ProxyAction :=
  fromClient (optionsRequest 1) ++ fromCamera unauthorized ++ fromCamera granted ++
    fromClient (optionsRequest 2) ++ fromCamera granted

theorem challenged_once_handled :
    Along (ProxySystem.step labConfig {} id) (fun h s a => challengesAlone {} h s a = true)
      ([],{}) challengedOnce ∧
    (proxyRun labConfig {} id challengedOnce).1.countP (isSent 0) = 2 ∧
    ChallengesHandled labConfig id (proxyRun labConfig {} id challengedOnce).1 := by
  have hrun : Along (ProxySystem.step labConfig {} id) (fun h s a => challengesAlone {} h s a = true)
      ([],{}) challengedOnce ∧
      (proxyRun labConfig {} id challengedOnce).1.countP (isSent 0) = 2 := by decide +kernel
  exact ⟨hrun.1,hrun.2,(challenges_handled_iff labConfig {} id (by decide) challengedOnce).mpr hrun.1⟩

def pipelined : List ProxyAction :=
  fromClient (optionsRequest 1) ++ fromClient (optionsRequest 2) ++ fromCamera unauthorized ++
    fromCamera unauthorized ++ fromCamera granted ++ fromCamera granted

theorem pipelined_request_resent_twice :
    (proxyRun labConfig {} id pipelined).1.countP (isSent 0) = 1 ∧
    (proxyRun labConfig {} id pipelined).1.countP (isSent 1) = 3 ∧
    (proxyRun labConfig {} id pipelined).1.countP (isAnswered 1) = 2 ∧
    ¬ChallengesHandled labConfig id (proxyRun labConfig {} id pipelined).1 := by
  have hrun : (proxyRun labConfig {} id pipelined).1.countP (isSent 0) = 1 ∧
      (proxyRun labConfig {} id pipelined).1.countP (isSent 1) = 3 ∧
      (proxyRun labConfig {} id pipelined).1.countP (isAnswered 1) = 2 := by decide +kernel
  refine ⟨hrun.1,hrun.2.1,hrun.2.2,fun hh => ?_⟩
  have := hh.twice 1
  omega

end

end RpiVms

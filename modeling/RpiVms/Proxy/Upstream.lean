import RpiVms.Proxy.Relay

namespace RpiVms

open Framing Runs

def isFrame (u : Bytes) : Bool := u.head? = some dollar

def requests (taken : List Bytes) : List Bytes := taken.filter (!isFrame ·)

def framesPassed (taken : List Bytes) : List Bytes := (taken.dropWhile isFrame).filter isFrame

def toCamera : ProxyEvent → Option Bytes
  | .interleaved true message => some message
  | _ => none

def ForwardedAs (config : AppConfig) (md5 : Bytes → Bytes) (r : RtspRewriter) (u bytes : Bytes) : Prop :=
  bytes = r.rewriteClientRequest u ∨
    ∃ a : DigestAuthenticator, a.hasChallenge = true ∧
      bytes = (a.authorize config md5 (r.rewriteClientRequest u)).1

structure Upstreamed (config : AppConfig) (md5 : Bytes → Bytes) (asked : List Bytes)
    (h : List ProxyEvent) (x : RtspProxySession) (r : RtspRewriter) : Prop where
  opens : ∃ first, asked.head? = some first ∧ RtspProxySession.openUpstream config {} first = some r
  counted : x.forwarded = asked.length
  last : x.lastUpstreamRequest.origin < x.forwarded
  known : ∀ request, .sent request ∈ h → request.origin < x.forwarded
  firsts : ∀ k u, asked[k]? = some u →
    ∃ bytes, h.find? (isSent k) = some (.sent ⟨k,bytes⟩) ∧ ForwardedAs config md5 r u bytes

structure Asked (config : AppConfig) (md5 : Bytes → Bytes) (asked : List Bytes) (h : List ProxyEvent)
    (x : RtspProxySession) : Prop where
  upstream : ∀ r, x.rewriter = some r → Upstreamed config md5 asked h x r
  alone : x.rewriter = none → (∀ request, .sent request ∉ h) ∧ x.forwarded = 0 ∧
    (x.point = .done ∨ asked = [])

structure ClientRelayed (config : AppConfig) (md5 : Bytes → Bytes) (us : List Bytes) (read : Bytes)
    (h : List ProxyEvent) (s : ProxySystem) (taken : List Bytes) : Prop where
  split : Taken us read taken s.session.clientBuf
  settled : (∃ cameraReady, s.session.point = .fromClient cameraReady) ∨ s.session.point = .done ∨
    ∃ waiting, us = taken ++ waiting ∧ Pending waiting s.session.clientBuf
  frames : h.filterMap toCamera = framesPassed taken
  asked : Asked config md5 (requests taken) h s.session

section

variable {taken : List Bytes} {u : Bytes}

theorem requests_frame (hu : isFrame u = true) :
    requests (taken ++ [u]) = requests taken := by
  simp [requests,hu]

theorem requests_request (hu : isFrame u = false) :
    requests (taken ++ [u]) = requests taken ++ [u] := by
  simp [requests,hu]

theorem dropWhile_frames_nil : taken.dropWhile isFrame = [] ↔ requests taken = [] := by
  simp [requests]

theorem framesPassed_request (hu : isFrame u = false) :
    framesPassed (taken ++ [u]) = framesPassed taken := by
  unfold framesPassed
  rw [List.dropWhile_append]
  split
  · rename_i he
    simp [List.isEmpty_iff.mp he,hu]
  · simp [hu]

theorem framesPassed_alone (hu : isFrame u = true)
    (hnone : requests taken = []) : framesPassed (taken ++ [u]) = framesPassed taken := by
  unfold framesPassed
  rw [List.dropWhile_append,dropWhile_frames_nil.mpr hnone]
  simp [hu]

theorem framesPassed_frame (hu : isFrame u = true)
    (hsome : requests taken ≠ []) : framesPassed (taken ++ [u]) = framesPassed taken ++ [u] := by
  have hne : taken.dropWhile isFrame ≠ [] := fun he => hsome (dropWhile_frames_nil.mp he)
  unfold framesPassed
  rw [List.dropWhile_append,if_neg (by simpa using hne)]
  simp [hu]

end

section

variable {config : AppConfig} {limits : ParserLimits} {md5 : Bytes → Bytes} {s t : ProxySystem}
  {a : ProxyAction} {h ev : List ProxyEvent} {us taken asked : List Bytes} {read : Bytes}
  {x y : RtspProxySession} {r : RtspRewriter}

theorem upstreamRequest_as (x : RtspProxySession) (r : RtspRewriter) (message : Bytes) :
    ForwardedAs config md5 r message (x.upstreamRequest config md5 r message).1 := by
  unfold RtspProxySession.upstreamRequest
  simp only
  split
  · rename_i hc
    exact .inr ⟨x.authenticator,hc,rfl⟩
  · exact .inl rfl

theorem Upstreamed.more (hi : Upstreamed config md5 asked h x r)
    (hev : ∀ request, .sent request ∈ ev → request.origin < x.forwarded)
    (hforwarded : y.forwarded = x.forwarded)
    (hlast : y.lastUpstreamRequest.origin = x.lastUpstreamRequest.origin) :
    Upstreamed config md5 asked (h ++ ev) y r where
  opens := hi.opens
  counted := hforwarded.trans hi.counted
  last := by rw [hlast,hforwarded]; exact hi.last
  known := by
    intro request hmem
    rw [hforwarded]
    rcases List.mem_append.mp hmem with hm | hm
    · exact hi.known request hm
    · exact hev request hm
  firsts := by
    intro k u hk
    obtain ⟨bytes,hfind,has⟩ := hi.firsts k u hk
    exact ⟨bytes,by rw [List.find?_append,hfind]; rfl,has⟩

theorem find_sent_none {n : Nat} (hk : ∀ request, .sent request ∈ h → request.origin < n) :
    h.find? (isSent n) = none := by
  rw [List.find?_eq_none]
  intro e he
  cases e with
  | sent request =>
    have := hk request he
    simp only [isSent,beq_iff_eq]
    omega
  | received _ _ => simp [isSent]
  | answered _ _ => simp [isSent]
  | interleaved _ _ => simp [isSent]

theorem Upstreamed.forward {u bytes : Bytes} (hi : Upstreamed config md5 asked h x r)
    (has : ForwardedAs config md5 r u bytes) (hforwarded : y.forwarded = x.forwarded + 1)
    (hlast : y.lastUpstreamRequest = ⟨x.forwarded,bytes⟩) :
    Upstreamed config md5 (asked ++ [u]) (h ++ [.sent ⟨x.forwarded,bytes⟩]) y r where
  opens := by
    obtain ⟨first,hf,ho⟩ := hi.opens
    exact ⟨first,by simp [hf],ho⟩
  counted := by simp [hforwarded,hi.counted]
  last := by simp [hforwarded,hlast]
  known := by
    intro request hmem
    rw [hforwarded]
    rcases List.mem_append.mp hmem with hm | hm
    · have := hi.known request hm
      omega
    · simp only [List.mem_singleton,ProxyEvent.sent.injEq] at hm
      simp [hm]
  firsts := by
    intro k v hk
    by_cases hlt : k < asked.length
    · rw [List.getElem?_append_left hlt] at hk
      obtain ⟨b,hfind,hb⟩ := hi.firsts k v hk
      exact ⟨b,by rw [List.find?_append,hfind]; rfl,hb⟩
    · have hlen := (List.getElem?_eq_some_iff.mp hk).1
      have he : k = x.forwarded := by
        rw [hi.counted]
        simp only [List.length_append,List.length_singleton] at hlen
        omega
      subst he
      rw [hi.counted,List.getElem?_concat_length] at hk
      cases hk
      refine ⟨bytes,?_,has⟩
      rw [List.find?_append,find_sent_none hi.known]
      simp [isSent]

theorem Upstreamed.first {u bytes : Bytes} (hnone : ∀ request, .sent request ∉ h)
    (hx : x.forwarded = 0) (ho : RtspProxySession.openUpstream config {} u = some r)
    (has : ForwardedAs config md5 r u bytes) (hforwarded : y.forwarded = x.forwarded + 1)
    (hlast : y.lastUpstreamRequest = ⟨x.forwarded,bytes⟩) :
    Upstreamed config md5 [u] (h ++ [.sent ⟨x.forwarded,bytes⟩]) y r where
  opens := ⟨u,rfl,ho⟩
  counted := by simp [hforwarded,hx]
  last := by simp [hforwarded,hlast]
  known := by
    intro request hmem
    rcases List.mem_append.mp hmem with hm | hm
    · exact absurd hm (hnone request)
    · simp only [List.mem_singleton,ProxyEvent.sent.injEq] at hm
      simp [hm,hforwarded]
  firsts := by
    intro k v hk
    obtain ⟨rfl,rfl⟩ : k = 0 ∧ u = v := by
      rw [List.getElem?_singleton] at hk
      split at hk
      · rename_i h0
        exact ⟨h0,Option.some.inj hk⟩
      · cases hk
    refine ⟨bytes,?_,has⟩
    rw [List.find?_append,find_sent_none (fun request hm => absurd hm (hnone request))]
    simp [isSent,hx]

theorem Asked.keeps (hi : Asked config md5 asked h x) (hd : x.point ≠ .done)
    (hsent : ∀ request, .sent request ∈ ev →
      request.origin = x.lastUpstreamRequest.origin ∧ x.rewriter.isSome)
    (hr : y.rewriter = x.rewriter) (hforwarded : y.forwarded = x.forwarded)
    (hlast : y.lastUpstreamRequest.origin = x.lastUpstreamRequest.origin) :
    Asked config md5 asked (h ++ ev) y where
  upstream := by
    intro r hy
    have hup := hi.upstream r (hr.symm.trans hy)
    refine hup.more (fun request hm => ?_) hforwarded hlast
    rw [(hsent request hm).1]
    exact hup.last
  alone := by
    intro hy
    have hnone := hr.symm.trans hy
    obtain ⟨hno,hzero,hrest⟩ := hi.alone hnone
    refine ⟨fun request hm => ?_,hforwarded.trans hzero,.inr (hrest.resolve_left hd)⟩
    rcases List.mem_append.mp hm with hm | hm
    · exact hno request hm
    · have := (hsent request hm).2
      rw [hnone] at this
      cases this

theorem opens_of_alone {message : Bytes} (hr : x.rewriter = none)
    (ho : x.openUpstream config message = some r) :
    RtspProxySession.openUpstream config {} message = some r := by
  unfold RtspProxySession.openUpstream at ho ⊢
  rw [hr] at ho
  exact ho

theorem Asked.forwards {message bytes : Bytes} (hi : Asked config md5 asked h x) (hd : x.point ≠ .done)
    (ho : x.openUpstream config message = some r) (has : ForwardedAs config md5 r message bytes)
    (hr : y.rewriter = some r) (hforwarded : y.forwarded = x.forwarded + 1)
    (hlast : y.lastUpstreamRequest = ⟨x.forwarded,bytes⟩) :
    Asked config md5 (asked ++ [message]) (h ++ [.sent ⟨x.forwarded,bytes⟩]) y where
  upstream := by
    intro r' hr'
    obtain rfl : r = r' := Option.some.inj (hr.symm.trans hr')
    rcases openUpstream_keeps ho with hnone | hsome
    · obtain ⟨hno,hzero,hrest⟩ := hi.alone hnone
      rw [hrest.resolve_left hd,List.nil_append]
      exact .first hno hzero (opens_of_alone hnone ho) has hforwarded hlast
    · exact (hi.upstream r hsome).forward has hforwarded hlast
  alone := by
    intro hnone
    rw [hr] at hnone
    cases hnone

theorem ClientRelayed.beside (hi : ClientRelayed config md5 us read h s taken)
    (hp : (∀ cameraReady, s.session.point ≠ .fromClient cameraReady) ∧ s.session.point ≠ .done)
    (hframes : ev.filterMap toCamera = [])
    (hbuf : t.session.clientBuf = s.session.clientBuf)
    (hasked : Asked config md5 (requests taken) (h ++ ev) t.session) :
    ClientRelayed config md5 us read (h ++ ev) t taken where
  split := by rw [hbuf]; exact hi.split
  settled := by
    rw [hbuf]
    rcases hi.settled with ⟨c,hc⟩ | hd | hs
    · exact absurd hc (hp.1 c)
    · exact absurd hd hp.2
    · exact .inr (.inr hs)
  frames := by rw [List.filterMap_append,hframes,List.append_nil,hi.frames]
  asked := hasked

theorem write_point_client {written cameraReady : Bool} {p : ProxyPoint}
    (hp : p = .fromClient cameraReady) :
    (∃ c, (if written then p else .done) = .fromClient c) ∨ (if written then p else .done) = .done := by
  cases written <;> simp [hp]

theorem asked_of_connected (hi : Asked config md5 asked h x) (hr : x.rewriter.isSome) :
    asked ≠ [] := by
  obtain ⟨r,hr⟩ := Option.isSome_iff_exists.mp hr
  obtain ⟨first,hf,-⟩ := (hi.upstream r hr).opens
  intro he
  simp [he] at hf

theorem ClientRelayed.step
    (hus : ∀ u ∈ us, IsUnit limits.maxHeaderBytes (min limits.maxBodyBytes intMax) u)
    (hc : Connected s.session) (hi : ClientRelayed config md5 us read h s taken)
    (hm : RelayMove config limits md5 s a ev t) (hread : read ++ s.clientChunk a <+: us.flatten) :
    ∃ taken, ClientRelayed config md5 us (read ++ s.clientChunk a) (h ++ ev) t taken := by
  cases hm with
  | turns hrests hclient _ _ =>
    have hp : (∀ c, s.session.point ≠ .fromClient c) ∧ s.session.point ≠ .done := by
      refine ⟨fun c he => ?_,fun he => ?_⟩ <;> simp [he,ProxyPoint.rests] at hrests
    rw [hclient,List.append_nil]
    exact ⟨taken,hi.beside hp rfl rfl (hi.asked.keeps hp.2 (by simp) rfl rfl rfl)⟩
  | @clientRead _ chunk hp =>
    have hchunk : s.clientChunk (.read (some chunk)) = chunk := by simp [ProxySystem.clientChunk,hp]
    obtain ⟨hsplit,hwaiting⟩ := hi.split
    rw [hchunk]
    exact ⟨taken,⟨⟨by simp [hsplit],hwaiting⟩,.inl ⟨_,rfl⟩,by simpa using hi.frames,
      hi.asked.keeps (by simp [hp]) (by simp) rfl rfl rfl⟩⟩
  | @cameraRead chunk hp =>
    have hchunk : s.clientChunk (.read (some chunk)) = [] := by simp [ProxySystem.clientChunk,hp]
    rw [hchunk,List.append_nil]
    exact ⟨taken,hi.beside (by simp [hp]) rfl rfl (hi.asked.keeps (by simp [hp]) (by simp) rfl rfl rfl)⟩
  | clientWaits hp hx =>
    rw [ProxySystem.clientChunk_handle,List.append_nil] at hread ⊢
    obtain ⟨rfl,hwaiting⟩ := hi.split.waits (extract_frames limits) hus hread hx
    exact ⟨taken,⟨hi.split,.inr (.inr hwaiting),by simpa using hi.frames,
      hi.asked.keeps (by simp [hp]) (by simp) rfl rfl rfl⟩⟩
  | @clientFrame _ _ written message _ hp hx hd hr =>
    rw [ProxySystem.clientChunk_handle,List.append_nil] at hread ⊢
    have hframe : isFrame message = true := by simp [isFrame,hd]
    have hpassed := framesPassed_frame hframe (asked_of_connected hi.asked hr)
    refine ⟨taken ++ [message],⟨?_,?_,?_,?_⟩⟩
    · simpa using hi.split.next (extract_frames limits) hus hread hx
    · simpa [or_assoc] using Or.inl (write_point_client hp)
    · simp [hi.frames,hpassed,toCamera]
    · rw [requests_frame hframe]
      exact hi.asked.keeps (by simp [hp]) (by simp) (by simp) (by simp) (by simp)
  | @frameDropped _ _ _ message _ hp hx hd hr =>
    rw [ProxySystem.clientChunk_handle,List.append_nil] at hread ⊢
    have hframe : isFrame message = true := by simp [isFrame,hd]
    have hnone := (hi.asked.alone hr).2.2.resolve_left (by simp [hp])
    refine ⟨taken ++ [message],⟨?_,.inl ⟨_,hp⟩,?_,?_⟩⟩
    · exact hi.split.next (extract_frames limits) hus hread hx
    · simp [hi.frames,framesPassed_alone hframe hnone]
    · rw [requests_frame hframe]
      exact hi.asked.keeps (by simp [hp]) (by simp) rfl rfl rfl
  | @refused _ _ _ message _ hp hx hd hr =>
    rw [ProxySystem.clientChunk_handle,List.append_nil] at hread ⊢
    have hframe : isFrame message = false := by simp [isFrame,hd]
    obtain ⟨hno,hzero,-⟩ := hi.asked.alone hr
    refine ⟨taken ++ [message],⟨?_,.inr (.inl rfl),?_,⟨fun r hsome => ?_,fun _ => ?_⟩⟩⟩
    · exact hi.split.next (extract_frames limits) hus hread hx
    · simp [hi.frames,framesPassed_request hframe]
    · cases hr.symm.trans hsome
    · exact ⟨by simpa using hno,hzero,.inl rfl⟩
  | @forwarded _ _ _ message _ r hp hx hd ho =>
    rw [ProxySystem.clientChunk_handle,List.append_nil] at hread ⊢
    have hframe : isFrame message = false := by simp [isFrame,hd]
    refine ⟨taken ++ [message],⟨?_,?_,?_,?_⟩⟩
    · simpa [RtspProxySession.forward] using hi.split.next (extract_frames limits) hus hread hx
    · simpa [RtspProxySession.forward,or_assoc] using Or.inl (write_point_client hp)
    · simp [hi.frames,framesPassed_request hframe,toCamera]
    · rw [requests_request hframe]
      exact hi.asked.forwards (by simp [hp]) ho (upstreamRequest_as s.session r message)
        (by simp [RtspProxySession.forward]) (by simp [RtspProxySession.forward])
        (by simp [RtspProxySession.forward,RtspProxySession.upstreamRequest])
  | cameraWaits hp _ =>
    rw [ProxySystem.clientChunk_handle,List.append_nil]
    exact ⟨taken,hi.beside (by simp [hp]) rfl rfl (hi.asked.keeps (by simp [hp]) (by simp) rfl rfl rfl)⟩
  | cameraFrame hp _ _ =>
    rw [ProxySystem.clientChunk_handle,List.append_nil]
    exact ⟨taken,hi.beside (by simp [hp]) rfl (by simp)
      (hi.asked.keeps (by simp [hp]) (by simp) (by simp) (by simp) (by simp))⟩
  | resent hp _ _ _ _ =>
    have hr := hc.listens (by simp [hp,ProxyPoint.upstream])
    rw [ProxySystem.clientChunk_handle,List.append_nil]
    refine ⟨taken,hi.beside (by simp [hp]) rfl (by simp [RtspProxySession.retry])
      (hi.asked.keeps (by simp [hp]) ?_ ?_ ?_ ?_)⟩
    · simp [RtspProxySession.retry,hr]
    all_goals simp [RtspProxySession.retry]
  | answered hp _ _ _ _ =>
    rw [ProxySystem.clientChunk_handle,List.append_nil]
    exact ⟨taken,hi.beside (by simp [hp]) rfl (by simp)
      (hi.asked.keeps (by simp [hp]) (by simp) (by simp) (by simp) (by simp))⟩

end

end RpiVms

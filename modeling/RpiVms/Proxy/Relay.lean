import RpiVms.Proxy.Retries

namespace RpiVms

open Framing Runs

def ProxyPoint.upstream : ProxyPoint → Bool
  | .readingClient cameraReady | .fromClient cameraReady => cameraReady
  | .readingCamera | .fromCamera => true
  | _ => false

def ProxyPoint.rests : ProxyPoint → Bool
  | .selecting | .readingClient _ | .readingCamera => true
  | _ => false

namespace ProxySystem

variable (s : ProxySystem)

def clientChunk : ProxyAction → Bytes
  | .read (some chunk) => match s.session.point with
    | .readingClient _ => chunk
    | _ => []
  | _ => []

def cameraChunk : ProxyAction → Bytes
  | .read (some chunk) => if s.session.point = .readingCamera then chunk else []
  | _ => []

@[simp] theorem clientChunk_handle (connects written : Bool) :
    s.clientChunk (.handle connects written) = [] := rfl

@[simp] theorem cameraChunk_handle (connects written : Bool) :
    s.cameraChunk (.handle connects written) = [] := rfl

end ProxySystem

section

variable (config : AppConfig) (limits : ParserLimits) (md5 : Bytes → Bytes)

inductive RelayMove (s : ProxySystem) : ProxyAction → List ProxyEvent → ProxySystem → Prop
  | turns {a p} (rests : s.session.point.rests = true) (client : s.clientChunk a = [])
      (camera : s.cameraChunk a = []) (connected : p.upstream = true → s.session.rewriter.isSome) :
      RelayMove s a [] (s.goto p)
  | clientRead {cameraReady chunk} (at_point : s.session.point = .readingClient cameraReady) :
      RelayMove s (.read (some chunk)) [] { s with session := { s.session with
        clientBuf := s.session.clientBuf ++ chunk, point := .fromClient cameraReady } }
  | cameraRead {chunk} (at_point : s.session.point = .readingCamera) :
      RelayMove s (.read (some chunk)) [] { s with session := { s.session with
        cameraBuf := s.session.cameraBuf ++ chunk, point := .fromCamera } }
  | clientWaits {cameraReady connects written rest} (at_point : s.session.point = .fromClient cameraReady)
      (extracts : extractOneRtspMessage limits s.session.clientBuf = some (.wait rest)) :
      RelayMove s (.handle connects written) [] { s with session := { s.session with
        clientBuf := rest, point := if cameraReady then .readingCamera else .selecting } }
  | clientFrame {cameraReady connects written message rest}
      (at_point : s.session.point = .fromClient cameraReady)
      (extracts : extractOneRtspMessage limits s.session.clientBuf = some (.unit message rest))
      (frame : message.head? = some dollar) (connected : s.session.rewriter.isSome) :
      RelayMove s (.handle connects written) [.interleaved true message]
        { s with session := ({ s.session with clientBuf := rest }).afterWrite written }
  | frameDropped {cameraReady connects written message rest}
      (at_point : s.session.point = .fromClient cameraReady)
      (extracts : extractOneRtspMessage limits s.session.clientBuf = some (.unit message rest))
      (frame : message.head? = some dollar) (alone : s.session.rewriter = none) :
      RelayMove s (.handle connects written) []
        { s with session := { s.session with clientBuf := rest } }
  | refused {cameraReady connects written message rest}
      (at_point : s.session.point = .fromClient cameraReady)
      (extracts : extractOneRtspMessage limits s.session.clientBuf = some (.unit message rest))
      (request : message.head? ≠ some dollar) (alone : s.session.rewriter = none) :
      RelayMove s (.handle connects written) []
        { s with session := { s.session with clientBuf := rest, point := .done } }
  | forwarded {cameraReady connects written message rest r}
      (at_point : s.session.point = .fromClient cameraReady)
      (extracts : extractOneRtspMessage limits s.session.clientBuf = some (.unit message rest))
      (request : message.head? ≠ some dollar)
      (opens : s.session.openUpstream config message = some r) :
      RelayMove s (.handle connects written)
        [.sent ⟨s.session.forwarded,(s.session.upstreamRequest config md5 r message).1⟩]
        { session := (({ s.session with clientBuf := rest }).forward config md5 r message).afterWrite written
          outstanding := s.outstanding ++
            [⟨s.session.forwarded,(s.session.upstreamRequest config md5 r message).1⟩] }
  | cameraWaits {connects written rest} (at_point : s.session.point = .fromCamera)
      (extracts : extractOneRtspMessage limits s.session.cameraBuf = some (.wait rest)) :
      RelayMove s (.handle connects written) [] { s with session := { s.session with
        cameraBuf := rest, point := .selecting } }
  | cameraFrame {connects written message rest} (at_point : s.session.point = .fromCamera)
      (extracts : extractOneRtspMessage limits s.session.cameraBuf = some (.unit message rest))
      (frame : message.head? = some dollar) :
      RelayMove s (.handle connects written) [.interleaved false message]
        { s with session := ({ s.session with cameraBuf := rest }).afterWrite written }
  | resent {connects written message rest request waiting challenged}
      (at_point : s.session.point = .fromCamera)
      (extracts : extractOneRtspMessage limits s.session.cameraBuf = some (.unit message rest))
      (response : message.head? ≠ some dollar) (waits : s.outstanding = request :: waiting)
      (retries : s.session.retries message = some challenged) :
      RelayMove s (.handle connects written)
        [.received request message,.sent (s.session.retry config md5 challenged).lastUpstreamRequest]
        { session := (({ s.session with cameraBuf := rest }).retry config md5 challenged).afterWrite written
          outstanding := waiting ++ [(s.session.retry config md5 challenged).lastUpstreamRequest] }
  | answered {connects written message rest request waiting} (at_point : s.session.point = .fromCamera)
      (extracts : extractOneRtspMessage limits s.session.cameraBuf = some (.unit message rest))
      (response : message.head? ≠ some dollar) (waits : s.outstanding = request :: waiting)
      (plain : s.session.retries message = none) :
      RelayMove s (.handle connects written)
        [.received request message,.answered request (s.session.rewriteResponse message)]
        { session := ({ s.session with cameraBuf := rest }).afterWrite written, outstanding := waiting }

end

section

variable {config : AppConfig} {limits : ParserLimits} {md5 : Bytes → Bytes} {s t : ProxySystem}
  {a : ProxyAction} {h ev : List ProxyEvent}

@[simp] theorem afterWrite_eq (x : RtspProxySession) (written : Bool) :
    x.afterWrite written = { x with point := if written then x.point else .done } := by
  unfold RtspProxySession.afterWrite
  split <;> rfl

theorem openUpstream_keeps {x : RtspProxySession} {message : Bytes} {r : RtspRewriter}
    (hx : x.openUpstream config message = some r) : x.rewriter = none ∨ x.rewriter = some r := by
  unfold RtspProxySession.openUpstream at hx
  split at hx
  · rename_i hr
    exact .inr (hr.trans hx)
  · exact .inl (by assumption)

structure Connected (x : RtspProxySession) : Prop where
  listens : x.point.upstream = true → x.rewriter.isSome
  asked : x.rewriter.isSome → x.lastUpstreamRequest.bytes ≠ []

theorem message_ne_nil {buf message rest : Bytes}
    (hx : extractOneRtspMessage limits buf = some (.unit message rest))
    (hd : message.head? ≠ some dollar) : message ≠ [] := by
  obtain ⟨header,body,rfl,hmsg⟩ := extract_message hx hd
  have := hmsg.long
  intro he
  rw [(List.append_eq_nil_iff.mp he).1] at this
  simp at this

theorem retry_ne_nil {x : RtspProxySession} {message : Bytes} {challenged : DigestAuthenticator}
    (hr : x.retries message = some challenged) :
    (x.retry config md5 challenged).lastUpstreamRequest.bytes ≠ [] :=
  authorize_ne_nil (retries_iff.mp (Option.isSome_iff_exists.mpr ⟨challenged,hr⟩)).2

theorem upstreamRequest_ne_nil {x : RtspProxySession} {r : RtspRewriter} {message : Bytes}
    (hm : message ≠ []) : (x.upstreamRequest config md5 r message).1 ≠ [] := by
  unfold RtspProxySession.upstreamRequest
  simp only
  split
  · exact authorize_ne_nil (rewriteClientRequest_ne_nil hm)
  · exact rewriteClientRequest_ne_nil hm

theorem Connected.step (hc : Connected s.session) (hm : RelayMove config limits md5 s a ev t) :
    Connected t.session := by
  cases hm with
  | turns _ _ _ hup => exact ⟨hup,hc.asked⟩
  | clientRead hp => exact ⟨fun hu => hc.listens (by simpa [hp,ProxyPoint.upstream] using hu),hc.asked⟩
  | cameraRead hp => exact ⟨fun _ => hc.listens (by simp [hp,ProxyPoint.upstream]),hc.asked⟩
  | @clientWaits cameraReady _ _ _ hp _ =>
    refine ⟨fun hu => hc.listens ?_,hc.asked⟩
    cases cameraReady <;> simp_all [ProxyPoint.upstream]
  | clientFrame hp _ _ hr => exact ⟨fun _ => by simpa using hr,by simpa using hc.asked⟩
  | frameDropped hp _ _ hr => exact ⟨hc.listens,hc.asked⟩
  | refused hp _ _ hr => exact ⟨by simp [ProxyPoint.upstream],hc.asked⟩
  | forwarded hp hx hd ho =>
    refine ⟨fun _ => by simp [RtspProxySession.forward],fun _ => ?_⟩
    simpa [RtspProxySession.forward] using
      upstreamRequest_ne_nil (message_ne_nil hx hd)
  | cameraWaits hp _ => exact ⟨by simp [ProxyPoint.upstream],hc.asked⟩
  | cameraFrame hp _ _ =>
    have hr := hc.listens (by simp [hp,ProxyPoint.upstream])
    exact ⟨fun _ => by simpa using hr,by simpa using hc.asked⟩
  | resent hp _ _ _ hretries =>
    have hr := hc.listens (by simp [hp,ProxyPoint.upstream])
    refine ⟨fun _ => by simpa [RtspProxySession.retry] using hr,fun _ => ?_⟩
    simpa [RtspProxySession.retry] using @retry_ne_nil config md5 _ _ _ hretries
  | answered hp _ _ _ _ =>
    have hr := hc.listens (by simp [hp,ProxyPoint.upstream])
    exact ⟨fun _ => by simpa using hr,by simpa using hc.asked⟩

def cameraUnit : ProxyEvent → Option Bytes
  | .received _ message => some message
  | .interleaved false message => some message
  | _ => none

def toClient : ProxyEvent → Option Bytes
  | .answered _ out => some out
  | .interleaved false message => some message
  | _ => none

def RtspProxySession.relayed (x : RtspProxySession) (unit : Bytes) : Option Bytes :=
  if unit.head? = some dollar then some unit
  else if digestChallenges unit then none
  else some (x.rewriteResponse unit)

structure CameraRelayed (us : List Bytes) (read : Bytes) (h : List ProxyEvent) (s : ProxySystem) :
    Prop where
  connected : Connected s.session
  taken : read <+: us.flatten → Taken us read (h.filterMap cameraUnit) s.session.cameraBuf
  settled : read <+: us.flatten → s.session.point = .fromCamera ∨ s.session.point = .done ∨
    ∃ waiting, us = h.filterMap cameraUnit ++ waiting ∧ Pending waiting s.session.cameraBuf
  silent : s.session.rewriter = none → h.filterMap cameraUnit = []
  relays : h.filterMap toClient = (h.filterMap cameraUnit).filterMap s.session.relayed

variable {us : List Bytes} {read : Bytes}

theorem relayed_of_rewriter {x y : RtspProxySession} (h : y.rewriter = x.rewriter) :
    y.relayed = x.relayed := by
  funext u
  simp [RtspProxySession.relayed,RtspProxySession.rewriteResponse,h]

theorem CameraRelayed.beside (hi : CameraRelayed us read h s) (hc : Connected t.session)
    (hp : s.session.point ≠ .fromCamera ∧ s.session.point ≠ .done)
    (hunits : ev.filterMap cameraUnit = []) (hout : ev.filterMap toClient = [])
    (hbuf : t.session.cameraBuf = s.session.cameraBuf)
    (hr : s.session.rewriter = none ∨ t.session.rewriter = s.session.rewriter) :
    CameraRelayed us read (h ++ ev) t where
  connected := hc
  taken := fun hread => by simpa [hunits,hbuf] using hi.taken hread
  settled := fun hread => by
    have hs := ((hi.settled hread).resolve_left hp.1).resolve_left hp.2
    exact .inr (.inr (by simpa [hunits,hbuf] using hs))
  silent := fun hnone => by
    have hsame : s.session.rewriter = none := by
      rcases hr with hr | hr
      · exact hr
      · rw [← hr,hnone]
    simpa [hunits] using hi.silent hsame
  relays := by
    rw [List.filterMap_append,List.filterMap_append,hunits,hout,List.append_nil,List.append_nil]
    rcases hr with hr | hr
    · rw [hi.relays,hi.silent hr,List.filterMap_nil,List.filterMap_nil]
    · rw [hi.relays,relayed_of_rewriter hr]

theorem CameraRelayed.takes {message rest : Bytes}
    (hus : ∀ u ∈ us, IsUnit limits.maxHeaderBytes (min limits.maxBodyBytes intMax) u)
    (hi : CameraRelayed us read h s) (hc : Connected t.session) (hr : s.session.rewriter.isSome)
    (hx : extractOneRtspMessage limits s.session.cameraBuf = some (.unit message rest))
    (hunits : ev.filterMap cameraUnit = [message])
    (hout : ev.filterMap toClient = (s.session.relayed message).toList)
    (hbuf : t.session.cameraBuf = rest) (hsame : t.session.rewriter = s.session.rewriter)
    (hp : t.session.point = .fromCamera ∨ t.session.point = .done) :
    CameraRelayed us read (h ++ ev) t where
  connected := hc
  taken := fun hread => by
    simpa [hunits,hbuf] using (hi.taken hread).next (extract_frames limits) hus hread hx
  settled := fun _ => by
    rcases hp with hp | hp
    · exact .inl hp
    · exact .inr (.inl hp)
  silent := fun hnone => by
    rw [← hsame,hnone] at hr
    cases hr
  relays := by
    rw [List.filterMap_append,List.filterMap_append,hunits,hout,hi.relays,relayed_of_rewriter hsame,
      List.filterMap_append]
    rfl

theorem write_point {written : Bool} {p : ProxyPoint} (hp : p = .fromCamera) :
    (if written then p else .done) = .fromCamera ∨ (if written then p else .done) = .done := by
  cases written <;> simp [hp]

theorem CameraRelayed.step
    (hus : ∀ u ∈ us, IsUnit limits.maxHeaderBytes (min limits.maxBodyBytes intMax) u)
    (hi : CameraRelayed us read h s) (hm : RelayMove config limits md5 s a ev t) :
    CameraRelayed us (read ++ s.cameraChunk a) (h ++ ev) t := by
  have hc := hi.connected.step hm
  cases hm with
  | turns hrests _ hcamera _ =>
    have hp : s.session.point ≠ .fromCamera ∧ s.session.point ≠ .done := by
      constructor <;> intro he <;> simp [he,ProxyPoint.rests] at hrests
    rw [hcamera,List.append_nil]
    exact hi.beside hc hp rfl rfl rfl (.inr rfl)
  | @clientRead _ chunk hp =>
    have hchunk : s.cameraChunk (.read (some chunk)) = [] := by simp [ProxySystem.cameraChunk,hp]
    rw [hchunk,List.append_nil]
    exact hi.beside hc (by simp [hp]) rfl rfl rfl (.inr rfl)
  | @cameraRead chunk hp =>
    have hchunk : s.cameraChunk (.read (some chunk)) = chunk := by simp [ProxySystem.cameraChunk,hp]
    rw [hchunk,List.append_nil]
    refine ⟨hc,fun hread => ?_,fun _ => .inl rfl,hi.silent,hi.relays⟩
    obtain ⟨hsplit,hwaiting⟩ := hi.taken ((List.prefix_append read chunk).trans hread)
    exact ⟨by simp [hsplit],hwaiting⟩
  | clientWaits hp _ =>
    rw [ProxySystem.cameraChunk_handle,List.append_nil]
    exact hi.beside hc (by simp [hp]) rfl rfl rfl (.inr rfl)
  | clientFrame hp _ _ _ =>
    rw [ProxySystem.cameraChunk_handle,List.append_nil]
    exact hi.beside hc (by simp [hp]) rfl rfl (by simp) (.inr (by simp))
  | frameDropped hp _ _ _ =>
    rw [ProxySystem.cameraChunk_handle,List.append_nil]
    exact hi.beside hc (by simp [hp]) rfl rfl rfl (.inr rfl)
  | refused hp _ _ _ =>
    rw [ProxySystem.cameraChunk_handle,List.append_nil]
    exact hi.beside hc (by simp [hp]) rfl rfl rfl (.inr rfl)
  | forwarded hp _ _ ho =>
    rw [ProxySystem.cameraChunk_handle,List.append_nil]
    refine hi.beside hc (by simp [hp]) rfl rfl (by simp [RtspProxySession.forward]) ?_
    simpa [RtspProxySession.forward,eq_comm] using openUpstream_keeps ho
  | cameraWaits hp hx =>
    rw [ProxySystem.cameraChunk_handle,List.append_nil,List.append_nil]
    refine ⟨hc,fun hread => ?_,fun hread => ?_,hi.silent,hi.relays⟩
    · obtain ⟨rfl,-⟩ := (hi.taken hread).waits (extract_frames limits) hus hread hx
      exact hi.taken hread
    · obtain ⟨rfl,hwaiting⟩ := (hi.taken hread).waits (extract_frames limits) hus hread hx
      exact .inr (.inr hwaiting)
  | @cameraFrame _ written message _ hp hx hd =>
    have hr := hi.connected.listens (by simp [hp,ProxyPoint.upstream])
    have hout : s.session.relayed message = some message := by simp [RtspProxySession.relayed,hd]
    rw [ProxySystem.cameraChunk_handle,List.append_nil]
    exact hi.takes hus hc hr hx rfl (by rw [hout]; rfl) (by simp) (by simp)
      (by simpa using write_point hp)
  | @resent _ written message _ request _ challenged hp hx hd _ hretries =>
    have hr := hi.connected.listens (by simp [hp,ProxyPoint.upstream])
    have hchallenges := (retries_iff.mp (Option.isSome_iff_exists.mpr ⟨challenged,hretries⟩)).1
    have hout : s.session.relayed message = none := by
      simp [RtspProxySession.relayed,hd,hchallenges]
    rw [ProxySystem.cameraChunk_handle,List.append_nil]
    exact hi.takes hus hc hr hx rfl (by rw [hout]; rfl) (by simp [RtspProxySession.retry])
      (by simp [RtspProxySession.retry]) (by simpa [RtspProxySession.retry] using write_point hp)
  | @answered _ written message _ request _ hp hx hd _ hplain =>
    have hr := hi.connected.listens (by simp [hp,ProxyPoint.upstream])
    have hchallenges : digestChallenges message = false := by
      by_contra hne
      have := retries_iff.mpr ⟨by simpa using hne,hi.connected.asked hr⟩
      rw [hplain] at this
      cases this
    have hout : s.session.relayed message = some (s.session.rewriteResponse message) := by
      simp [RtspProxySession.relayed,hd,hchallenges]
    rw [ProxySystem.cameraChunk_handle,List.append_nil]
    exact hi.takes hus hc hr hx rfl (by rw [hout]; rfl) (by simp) (by simp)
      (by simpa using write_point hp)

end

end RpiVms

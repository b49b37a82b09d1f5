import RpiVms.Library.Runs
import RpiVms.Proxy.Digest

namespace RpiVms

open Framing

-- a message for the camera and the number of the client request it stands for
structure Upstream where
  origin : Nat
  bytes : Bytes
  deriving DecidableEq, Repr

inductive ProxyPoint where
  | selecting
  | readingClient (cameraReady : Bool)
  | fromClient (cameraReady : Bool)
  | readingCamera
  | fromCamera
  | done
  deriving DecidableEq, Repr

-- channel, rewriter and camera_fd are set together: no rewriter stands for a channel below 0
structure RtspProxySession where
  point : ProxyPoint := .selecting
  clientBuf : Bytes := []
  cameraBuf : Bytes := []
  rewriter : Option RtspRewriter := none
  authenticator : DigestAuthenticator := {}
  lastUpstreamRequest : Upstream := ⟨0,[]⟩
  forwarded : Nat := 0
  deriving DecidableEq

inductive ProxyAction where
  | select (ready : Option (Bool × Bool))
  | read (chunk : Option Bytes)
  | handle (connects written : Bool)

inductive ProxyEvent where
  | sent (request : Upstream)
  | received (request : Upstream) (message : Bytes)
  | answered (request : Upstream) (out : Bytes)
  | interleaved (toCamera : Bool) (message : Bytes)
  deriving DecidableEq

-- the session and its camera, which answers what it was sent in order
structure ProxySystem where
  session : RtspProxySession := {}
  outstanding : List Upstream := []
  deriving DecidableEq

section

variable (config : AppConfig) (limits : ParserLimits) (md5 : Bytes → Bytes)

namespace RtspProxySession

variable (s : RtspProxySession)

def afterWrite (written : Bool) : RtspProxySession := if written then s else { s with point := .done }

def openUpstream (message : Bytes) : Option RtspRewriter :=
  match s.rewriter with
  | some r => some r
  | none =>
      let target := extractRequestTarget message
      let channel := parseChannelFromRequestTarget target config.channels
      if channel < 0 then none
      else some ⟨config,channel,extractPublicBaseFromTarget target channel⟩

def upstreamRequest (r : RtspRewriter) (message : Bytes) : Bytes × DigestAuthenticator :=
  let out := r.rewriteClientRequest message
  if s.authenticator.hasChallenge then s.authenticator.authorize config md5 out
  else (out,s.authenticator)

def forward (r : RtspRewriter) (message : Bytes) : RtspProxySession :=
  let (out,authenticator) := s.upstreamRequest config md5 r message
  { s with
    rewriter := some r
    authenticator := authenticator
    lastUpstreamRequest := ⟨s.forwarded,out⟩
    forwarded := s.forwarded + 1 }

def retries (message : Bytes) : Option DigestAuthenticator :=
  if rtspStatusCode message = 401 && !s.lastUpstreamRequest.bytes.isEmpty then
    s.authenticator.updateFromUnauthorized message
  else none

def retry (challenged : DigestAuthenticator) : RtspProxySession :=
  let (retry,authenticator) := challenged.authorize config md5 s.lastUpstreamRequest.bytes
  { s with
    authenticator := authenticator
    lastUpstreamRequest := ⟨s.lastUpstreamRequest.origin,retry⟩ }

def rewriteResponse (message : Bytes) : Bytes :=
  match s.rewriter with
  | none => message
  | some r => r.rewriteCameraResponse message

end RtspProxySession

namespace ProxySystem

variable (s : ProxySystem)

def handleRequest (message : Bytes) (connects written : Bool) (session : RtspProxySession) :
    List ProxyEvent × ProxySystem :=
  match session.openUpstream config message with
  | none => ([],{ s with session := { session with point := .done } })
  | some r =>
      if session.rewriter.isNone && !connects then
        ([],{ s with session := { session with point := .done } })
      else
        let forwarded := session.forward config md5 r message
        ([.sent forwarded.lastUpstreamRequest],
          { session := forwarded.afterWrite written
            outstanding := s.outstanding ++ [forwarded.lastUpstreamRequest] })

def handleClient (cameraReady connects written : Bool) : Option (List ProxyEvent × ProxySystem) :=
  match extractOneRtspMessage limits s.session.clientBuf with
  | none => none
  | some (.wait rest) =>
      let point := if cameraReady then .readingCamera else .selecting
      some ([],{ s with session := { s.session with clientBuf := rest, point := point } })
  | some (.unit message rest) =>
      let session := { s.session with clientBuf := rest }
      if message.head? = some dollar then
        if session.rewriter.isSome then
          some ([.interleaved true message],{ s with session := session.afterWrite written })
        else some ([],{ s with session := session })
      else some (s.handleRequest config md5 message connects written session)

def handleResponse (message : Bytes) (written : Bool) (session : RtspProxySession) (request : Upstream)
    (waiting : List Upstream) : List ProxyEvent × ProxySystem :=
  match session.retries message with
  | some challenged =>
      let retried := session.retry config md5 challenged
      ([.received request message,.sent retried.lastUpstreamRequest],
        { session := retried.afterWrite written
          outstanding := waiting ++ [retried.lastUpstreamRequest] })
  | none =>
      ([.received request message,.answered request (session.rewriteResponse message)],
        { session := session.afterWrite written, outstanding := waiting })

def handleCamera (written : Bool) : Option (List ProxyEvent × ProxySystem) :=
  match extractOneRtspMessage limits s.session.cameraBuf with
  | none => none
  | some (.wait rest) =>
      some ([],{ s with session := { s.session with cameraBuf := rest, point := .selecting } })
  | some (.unit message rest) =>
      let session := { s.session with cameraBuf := rest }
      if message.head? = some dollar then
        some ([.interleaved false message],{ s with session := session.afterWrite written })
      else
        match s.outstanding with
        | [] => none
        | request :: waiting => some (handleResponse config md5 message written session request waiting)

def goto (point : ProxyPoint) : ProxySystem := { s with session := { s.session with point := point } }

def step (action : ProxyAction) : Option (List ProxyEvent × ProxySystem) :=
  match s.session.point,action with
  -- running_ has become false or select failed
  | .selecting,.select none => some ([],s.goto .done)
  | .selecting,.select (some (client,camera)) =>
      let cameraReady := camera && s.session.rewriter.isSome
      if client then some ([],s.goto (.readingClient cameraReady))
      else if cameraReady then some ([],s.goto .readingCamera)
      else some ([],s)
  | .readingClient _,.read none | .readingCamera,.read none => some ([],s.goto .done)
  | .readingClient cameraReady,.read (some chunk) =>
      some ([],{ s with session := { s.session with
        clientBuf := s.session.clientBuf ++ chunk, point := .fromClient cameraReady } })
  | .readingCamera,.read (some chunk) =>
      some ([],{ s with session := { s.session with
        cameraBuf := s.session.cameraBuf ++ chunk, point := .fromCamera } })
  | .fromClient cameraReady,.handle connects written =>
      s.handleClient config limits md5 cameraReady connects written
  | .fromCamera,.handle _ written => s.handleCamera config limits md5 written
  | _,_ => none

end ProxySystem

def proxyRun (actions : List ProxyAction) : List ProxyEvent × ProxySystem :=
  Runs.run (ProxySystem.step config limits md5) ([],{}) actions

end

end RpiVms

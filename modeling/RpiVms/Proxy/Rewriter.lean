import RpiVms.Library.Replace
import RpiVms.Rtsp.Units

namespace RpiVms

open Search Segments Replace

structure AppConfig where
  cameraHost : Bytes
  cameraPort : Int := 554
  cameraUser : Bytes := ascii "admin"
  cameraPassword : Bytes
  cameraPathTemplate : Bytes := ascii "/\x7bchannel\x7d/profile2/media.smp"
  channels : Int := 4
  deriving DecidableEq, Repr

structure RtspRewriter where
  config : AppConfig
  channel : Int
  publicBase : Bytes
  deriving DecidableEq, Repr

def parseChannelFromRequestTarget (target : Bytes) (maxChannels : Int) : Int :=
  match find (ascii "/ch") (lowerCopy target) with
  | none => -1
  | some pos =>
      match target[pos + 3]? with
      | none => -1
      | some d =>
          if !isDigit d then -1
          else
            let channel : Int := d.toNat - 48
            if channel < 0 || maxChannels ≤ channel then -1 else channel

def extractPublicBaseFromTarget (target : Bytes) (channel : Int) : Bytes :=
  let key := ascii "/ch" ++ toDecimal channel
  match find (lowerCopy key) (lowerCopy target) with
  | none => key
  | some pos => target.take (pos + key.length)

namespace RtspRewriter

def makeCameraPath (r : RtspRewriter) (channel : Int) : Bytes :=
  replaceAll (ascii "\x7bchannel\x7d") (toDecimal channel) r.config.cameraPathTemplate

def upstreamBase (r : RtspRewriter) : Bytes :=
  ascii "rtsp://" ++ r.config.cameraHost ++ ascii ":" ++ toDecimal r.config.cameraPort ++
    r.makeCameraPath r.channel

def transportLine : Bytes := ascii "Transport: RTP/AVP/TCP;unicast;interleaved=0-1"

def isTransport (line : Bytes) : Bool := startsWithCi line (ascii "Transport:")

def targetSuffix (target : Bytes) : Bytes :=
  match find (ascii "/ch") (lowerCopy target) with
  | none => []
  | some chPos => target.drop (chPos + 4)

def rewriteRequestLine (r : RtspRewriter) (first : Bytes) : Bytes :=
  let method := readWord first
  let target := readWord method.rest
  let version := readWord target.rest
  if method.text.isEmpty || target.text.isEmpty || version.text.isEmpty then first
  else method.text ++ 32 :: (r.upstreamBase ++ targetSuffix target.text) ++ 32 :: version.text

def rewriteLine (r : RtspRewriter) (line : Bytes) : Bytes :=
  if line.isEmpty then []
  else if isTransport line then transportLine
  else replaceAll r.publicBase r.upstreamBase line

def insertTransport (out : Bytes) : Bytes :=
  match find headerEnd out with
  | none => out
  | some headerEnd => out.take (headerEnd + 2) ++ transportLine ++ crlf ++ out.drop (headerEnd + 2)

def rewriteClientRequest (r : RtspRewriter) (message : Bytes) : Bytes :=
  match find crlf message with
  | none => message
  | some firstEol =>
      let first := message.take firstEol
      let lines := splitLinesKeepEmpty (message.drop (firstEol + 2))
      let out := r.rewriteRequestLine first ++ crlf ++ lines.flatMap (r.rewriteLine · ++ crlf)
      if !lines.any isTransport && lowerCopy (readWord first).text == ascii "setup" then
        insertTransport out
      else out

def patchContentLength (header : Bytes) (size : Nat) : Bytes :=
  match find (ascii "content-length:") (lowerCopy header) with
  | none => header
  | some pos =>
      match find crlf (header.drop pos) with
      | none => header
      | some k => header.take pos ++ ascii "Content-Length: " ++ decimal size ++ header.drop (pos + k)

def rewriteCameraResponse (r : RtspRewriter) (message : Bytes) : Bytes :=
  if message.head? == some dollar then message
  else
    match find headerEnd message with
    | none => replaceAll r.upstreamBase r.publicBase message
    | some n =>
        let header := replaceAll r.upstreamBase r.publicBase (message.take (n + 4))
        let body := replaceAll r.upstreamBase r.publicBase (message.drop (n + 4))
        patchContentLength header body.length ++ body

end RtspRewriter

structure Token (s : Bytes) : Prop where
  ne_nil : s ≠ []
  solid : ∀ b ∈ s, isSpace b = false

instance (s : Bytes) : Decidable (Token s) :=
  decidable_of_iff ((!s.isEmpty && s.all (!isSpace ·)) = true)
    ⟨fun h => by simp at h; exact ⟨h.1,h.2⟩,fun h => by simpa using ⟨h.ne_nil,h.solid⟩⟩

theorem readWord_token {w : Bytes} (h : Token w) (rest : Bytes) :
    readWord (w ++ 32 :: rest) = ⟨w,32 :: rest⟩ := by
  obtain ⟨b,t,rfl⟩ := List.exists_cons_of_ne_nil h.ne_nil
  have hd : (b :: t ++ 32 :: rest).dropWhile isSpace = b :: t ++ 32 :: rest := by
    rw [List.cons_append,List.dropWhile_cons_of_neg (by simp [h.solid b (by simp)])]
  have hall : ∀ x ∈ b :: t, (!isSpace x) = true := fun x hx => by simp [h.solid x hx]
  simp only [readWord,hd,List.takeWhile_append_of_pos hall,List.dropWhile_append_of_pos hall]
  simp [isSpace]

theorem readWord_last {w : Bytes} (h : Token w) : readWord w = ⟨w,[]⟩ := by
  obtain ⟨b,t,rfl⟩ := List.exists_cons_of_ne_nil h.ne_nil
  have hall : ∀ x ∈ b :: t, (!isSpace x) = true := fun x hx => by simp [h.solid x hx]
  have hd : (b :: t).dropWhile isSpace = b :: t :=
    List.dropWhile_cons_of_neg (by simp [h.solid b (by simp)])
  simp only [readWord,hd,List.takeWhile_eq_self_iff.mpr hall,List.dropWhile_eq_nil_iff.mpr hall]

theorem readWord_space (s : Bytes) : readWord (32 :: s) = readWord s := by
  simp [readWord,isSpace]

def requestLine (method target version : Bytes) : Bytes :=
  method ++ 32 :: target ++ 32 :: version

namespace RtspRewriter

theorem rewrite_requestLine (r : RtspRewriter) {method target version : Bytes} (hm : Token method)
    (ht : Token target) (hv : Token version) :
    r.rewriteRequestLine (requestLine method target version) =
      requestLine method (r.upstreamBase ++ targetSuffix target) version := by
  have hfirst : requestLine method target version = method ++ 32 :: (target ++ 32 :: version) := by
    simp [requestLine]
  simp only [rewriteRequestLine,hfirst,readWord_token hm,readWord_space,readWord_token ht,
    readWord_last hv]
  simp [hm.ne_nil,ht.ne_nil,hv.ne_nil,requestLine]

end RtspRewriter

end RpiVms

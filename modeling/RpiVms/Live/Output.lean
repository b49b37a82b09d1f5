import RpiVms.Live.ControlRuns
import RpiVms.Live.RtpStream

namespace RpiVms

open Search Segments Framing

inductive MediaPacket : Bytes → Prop
  | rtp {codec : VideoCodec} {nalUnits : List Bytes} {sequence next : UInt16}
      {timestamp ssrc : UInt32} {mtu : Nat} {packets : List RtpPacket} {packet : RtpPacket} :
      16 ≤ mtu → mtu ≤ 65535 →
      packetizeAccessUnit codec nalUnits sequence timestamp ssrc mtu = .ok (packets,next) →
      packet ∈ packets → MediaPacket packet.bytes
  | report (media : RtpState) (timestamp : UInt32) (wall : Int) :
      MediaPacket (makeRtcpSenderReport media timestamp wall)

inductive ServerWrite where
  | response (call : ControlCall) (state : RtspControlState)
  | media (channel : Int) (packet : Bytes)

def responseTo (call : ControlCall) (state : RtspControlState) : Bytes :=
  (controlStep state call).result.response

def ServerWrite.bytes : ServerWrite → Except String Bytes
  | .response call state => .ok (responseTo call state)
  | .media channel packet => interleaved channel packet

def ServerWrite.Allowed : ServerWrite → Prop
  | .response _ _ => True
  | .media channel packet => 0 ≤ channel ∧ channel ≤ 255 ∧ MediaPacket packet

def Fits (maxHeader maxBody : Nat) : ServerWrite → Prop
  | .response call state =>
      (messageHeaderPart (responseTo call state)).length ≤ maxHeader ∧
      (messageBody (responseTo call state)).length ≤ maxBody
  | .media _ _ => True

structure Intact (call : ControlCall) (state : RtspControlState) : Prop where
  cseq : cseqFromMessage call.request ≠ [] →
    cseqFromMessage (responseTo call state) = cseqFromMessage call.request
  lines : ∃ status headers,
    ReplyLines call.drawn.text call.request call.codec call.codecFmtp state status headers
      (messageBody (responseTo call state)) ∧
    splitLinesKeepEmpty (messageHeaderPart (responseTo call state)) =
      responseLines status (cseqFromMessage call.request) headers
        (messageBody (responseTo call state)) ++ [[]]

theorem packet_fits {packet : Bytes} (h : MediaPacket packet) : packet.length ≤ 65535 := by
  cases h with
  | rtp _ hm hp hmem => exact (packetize_size hp _ hmem).trans hm
  | report media timestamp wall =>
    simp [makeRtcpSenderReport,appendU16_eq,appendU32_eq]

theorem interleaved_frame (channel : Int) {packet : Bytes} (h : packet.length ≤ 65535) :
    ∃ wire, interleaved channel packet = .ok wire ∧ IsFrame wire := by
  unfold interleaved
  rw [if_neg (by omega)]
  refine ⟨_,rfl,UInt8.ofInt channel,_,_,packet,rfl,?_⟩
  simp [Nat.shiftRight_eq_div_pow]
  omega

theorem cseq_plain (request : Bytes) : Plain (cseqFromMessage request) := headerValue_plain _ _

structure ResponseShape (call : ControlCall) (state : RtspControlState) (status : Nat)
    (headers : List Bytes) (body : Bytes) : Prop where
  made : responseTo call state = makeResponse status (cseqFromMessage call.request) headers body
  lines : ReplyLines call.drawn.text call.request call.codec call.codecFmtp state status headers body
  header : messageHeaderPart (responseTo call state) =
    headerBlock (responseLines status (cseqFromMessage call.request) headers body)
  rest : messageBody (responseTo call state) = body

theorem response_shape (call : ControlCall) (state : RtspControlState) :
    ∃ status headers body, ResponseShape call state status headers body := by
  have hh := process_handled call.drawn.text call.request call.codec call.codecFmtp state
    call.registeredChannelId
  obtain ⟨status,headers,body,hl,hr⟩ := handled_response hh
  have hr : responseTo call state =
      makeResponse status (cseqFromMessage call.request) headers body := hr
  have hhead : messageHeaderPart (responseTo call state) =
      headerBlock (responseLines status (cseqFromMessage call.request) headers body) := by
    rw [hr]
    exact response_headerPart (cseq_plain _) hl.plain
  refine ⟨status,headers,body,hr,hl,hhead,?_⟩
  rw [messageBody,hhead,hr,makeResponse_lines,List.drop_left]

theorem response_intact (call : ControlCall) (state : RtspControlState) : Intact call state := by
  obtain ⟨status,headers,body,h⟩ := response_shape call state
  have hc := cseq_plain call.request
  refine ⟨fun hne => ?_,status,headers,h.rest.symm ▸ h.lines,?_⟩
  · rw [h.made]
    exact response_cseq hc hne h.lines.plain (fun b hb => headerValue_ends _ _ (.inl hb))
      fun b hb => headerValue_ends _ _ (.inr hb)
  · rw [h.rest,h.made]
    exact response_lines hc h.lines.plain

theorem response_unit {maxHeader maxBody : Nat} {call : ControlCall} {state : RtspControlState}
    (hf : Fits maxHeader maxBody (.response call state)) :
    IsUnit maxHeader maxBody (responseTo call state) := by
  obtain ⟨status,headers,body,h⟩ := response_shape call state
  obtain ⟨hh,hb⟩ := hf
  rw [h.header] at hh
  rw [h.rest] at hb
  refine .inr ⟨_,body,?_,response_message (cseq_plain _) h.lines.plain hh hb⟩
  rw [h.made,makeResponse_lines]

theorem write_unit {maxHeader maxBody : Nat} {w : ServerWrite} (ha : w.Allowed)
    (hf : Fits maxHeader maxBody w) : ∃ out, w.bytes = .ok out ∧ IsUnit maxHeader maxBody out := by
  cases w with
  | response call state => exact ⟨_,rfl,response_unit hf⟩
  | media channel packet =>
    obtain ⟨wire,hw,hu⟩ := interleaved_frame channel (packet_fits ha.2.2)
    exact ⟨wire,hw,.inl hu⟩

theorem writes_units {maxHeader maxBody : Nat} (writes : List ServerWrite)
    (ha : ∀ w ∈ writes, w.Allowed) (hf : ∀ w ∈ writes, Fits maxHeader maxBody w) :
    ∃ outs, writes.mapM ServerWrite.bytes = .ok outs ∧ ∀ out ∈ outs, IsUnit maxHeader maxBody out := by
  induction writes with
  | nil => exact ⟨[],rfl,by simp⟩
  | cons w ws ih =>
    obtain ⟨out,hw,hu⟩ := write_unit (ha w (by simp)) (hf w (by simp))
    obtain ⟨outs,hws,hus⟩ := ih (fun x hx => ha x (by simp [hx])) fun x hx => hf x (by simp [hx])
    refine ⟨out :: outs,?_,?_⟩
    · rw [List.mapM_cons,hw,hws]
      rfl
    · simp only [List.mem_cons,forall_eq_or_imp]
      exact ⟨hu,hus⟩

theorem server_output_unambiguous (limits : ParserLimits) (writes : List ServerWrite)
    (ha : ∀ w ∈ writes, w.Allowed)
    (hf : ∀ w ∈ writes, Fits limits.maxHeaderBytes (min limits.maxBodyBytes intMax) w) :
    ∃ outs, writes.mapM ServerWrite.bytes = .ok outs ∧
      drain (extractOneRtspMessage limits) outs.flatten = some (outs,[]) ∧
      ∀ call state, .response call state ∈ writes → Intact call state := by
  obtain ⟨outs,hb,hu⟩ := writes_units writes ha hf
  have hd := drain_units (extract_frames limits) outs [] hu (extract_nil limits)
  rw [List.append_nil] at hd
  exact ⟨outs,hb,hd,fun call state _ => response_intact call state⟩

def describeRequest : Bytes := ascii "DESCRIBE /ch1 RTSP/1.0\r\nCSeq: 7\r\n\r\n"

def describeCall (codecFmtp : Bytes) : ControlCall :=
  ⟨describeRequest,1,.h264,codecFmtp,randomSessionId 1 2⟩

theorem describe_then_media :
    ∃ outs, [ServerWrite.response (describeCall (ascii "packetization-mode=1")) {},
        .media 0 (makeRtpPacket [0x65,13,10] true 9 90000 7),
        .media 1 (makeRtcpSenderReport { sequence := 9, ssrc := 7, timestampOrigin := 0 } 90000 0)].mapM
          ServerWrite.bytes = .ok outs ∧
      drain (extractOneRtspMessage {}) outs.flatten = some (outs,[]) ∧
      ∀ call state, .response call state ∈
        [ServerWrite.response (describeCall (ascii "packetization-mode=1")) {},
          .media 0 (makeRtpPacket [0x65,13,10] true 9 90000 7),
          .media 1 (makeRtcpSenderReport { sequence := 9, ssrc := 7, timestampOrigin := 0 } 90000 0)] →
        Intact call state := by
  refine server_output_unambiguous {} _ ?_ ?_
  · have hp : packetizeAccessUnit .h264 [[0x65,13,10]] 9 90000 7 1200 =
        .ok ([⟨makeRtpPacket [0x65,13,10] true 9 90000 7,true⟩],10) := by decide
    simp only [List.mem_cons,List.not_mem_nil,or_false,forall_eq_or_imp,forall_eq]
    refine ⟨trivial,⟨by decide,by decide,?_⟩,⟨by decide,by decide,.report _ _ _⟩⟩
    exact .rtp (by decide) (by decide) hp (List.mem_singleton_self _)
  · simp only [List.mem_cons,List.not_mem_nil,or_false,forall_eq_or_imp,forall_eq]
    exact ⟨⟨by decide +kernel,by decide +kernel⟩,trivial,trivial⟩

def describeHeaders : List Bytes :=
  [ascii "Content-Type: application/sdp",ascii "Content-Base: /ch1/"]

theorem describe_response (codecFmtp : Bytes) :
    responseTo (describeCall codecFmtp) {} =
      makeResponse 200 (ascii "7") describeHeaders (buildSdp 1 .h264 codecFmtp) := by
  have hc : cseqFromMessage describeRequest = ascii "7" := by decide
  have hm : rtspMethodFromRequest describeRequest = ascii "DESCRIBE" := by decide
  have ht : parsePublicChannelId (extractRequestTarget describeRequest) = 1 := by decide
  simp only [responseTo,controlStep,processRtspRequest,describeCall,hc,hm,ht]
  rw [if_neg (by decide),if_neg (by decide),if_neg (by decide),if_pos trivial]
  rfl

theorem sdp_length (channelId : Int) (codec : VideoCodec) {codecFmtp : Bytes} (h : codecFmtp ≠ []) :
    (buildSdp channelId codec codecFmtp).length + 1 =
      codecFmtp.length + (buildSdp channelId codec [0]).length := by
  have he : codecFmtp.isEmpty = false := by simpa using h
  obtain ⟨front,hfront⟩ : ∃ front : Bytes, ∀ fmtp : Bytes, fmtp.isEmpty = false →
      buildSdp channelId codec fmtp = front ++
        (ascii "a=fmtp:" ++ decimal kPayloadType ++ ascii " " ++ fmtp ++ crlf) ++ ascii "a=control:trackID=0\r\n" :=
    ⟨_,fun fmtp hf => by delta buildSdp; rw [hf]; rfl⟩
  rw [hfront _ he,hfront [0] rfl]
  simp only [List.length_append,List.length_singleton]
  omega

theorem describe_header_fits {body : Bytes} (hl : body.length = 2147483797) :
    (headerBlock (responseLines 200 (ascii "7") describeHeaders body)).length ≤ 16 * 1024 := by
  have hne : body.isEmpty = false := by
    rw [List.isEmpty_eq_false_iff]
    intro he
    rw [he] at hl
    cases hl
  have hlines : responseLines 200 (ascii "7") describeHeaders body =
      [statusLine 200,ascii "CSeq: " ++ ascii "7",ascii "Server: rpi-vms-m3",
        ascii "Content-Type: application/sdp",ascii "Content-Base: /ch1/",
        ascii "Content-Length: " ++ decimal 2147483797] := by
    unfold responseLines
    rw [hne,hl]
    rfl
  rw [hlines]
  decide +kernel

theorem describe_huge {codecFmtp : Bytes} (hl : codecFmtp.length = 2147483648) :
    Fits (16 * 1024) 4294967296 (.response (describeCall codecFmtp) {}) ∧
    drain (extractOneRtspMessage ⟨16 * 1024,4294967296⟩) (responseTo (describeCall codecFmtp) {}) ≠
      some ([responseTo (describeCall codecFmtp) {}],[]) := by
  have hne : codecFmtp ≠ [] := by
    intro he
    rw [he] at hl
    cases hl
  have hone : (buildSdp 1 .h264 [0]).length = 150 := by decide +kernel
  have hbody : (buildSdp 1 .h264 codecFmtp).length = 2147483797 := by
    have := sdp_length 1 .h264 hne
    omega
  have hc : Plain (ascii "7") := by decide
  have hh : ∀ l ∈ describeHeaders, PlainHeader l := by
    simp only [describeHeaders,List.mem_cons,List.not_mem_nil,or_false,forall_eq_or_imp,forall_eq]
    exact ⟨⟨by decide,by decide,by decide⟩,⟨by decide,by decide,by decide⟩⟩
  have hr := describe_response codecFmtp
  have hfit := describe_header_fits hbody
  have hm : IsMessage (16 * 1024) 4294967296
      (headerBlock (responseLines 200 (ascii "7") describeHeaders (buildSdp 1 .h264 codecFmtp)))
      (buildSdp 1 .h264 codecFmtp) := response_message hc hh hfit (by omega)
  generalize buildSdp 1 .h264 codecFmtp = body at hbody hr hfit hm
  have hhead : messageHeaderPart (makeResponse 200 (ascii "7") describeHeaders body) =
      headerBlock (responseLines 200 (ascii "7") describeHeaders body) := response_headerPart hc hh
  rw [← hr] at hhead
  rw [makeResponse_lines] at hr
  refine ⟨⟨?_,?_⟩,fun hd => ?_⟩
  · rw [hhead]
    exact hfit
  · rw [messageBody,hhead,hr,List.drop_left,hbody]
    omega
  · obtain ⟨b,hb⟩ := drain_head hd
    rw [hr] at hb
    exact oversize_not_returned hm (by rw [hbody]; decide) b hb

theorem sdp_over_int_not_returned :
    Fits (16 * 1024) 4294967296 (.response (describeCall (List.replicate 2147483648 65)) {}) ∧
    drain (extractOneRtspMessage ⟨16 * 1024,4294967296⟩)
        (responseTo (describeCall (List.replicate 2147483648 65)) {}) ≠
      some ([responseTo (describeCall (List.replicate 2147483648 65)) {}],[]) :=
  describe_huge List.length_replicate

end RpiVms

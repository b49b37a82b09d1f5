import RpiVms.Client.Exchanges

namespace RpiVms

open Search Segments Framing

theorem registered_channel {channels : List LiveChannel} {id : Int} {channel : LiveChannel}
    (h : registeredChannel channels id = some channel) : channel ∈ channels ∧ channel.channelId = id :=
  ⟨List.mem_of_find?_eq_some h,by simpa using List.find?_some h⟩

namespace RtspsClient

structure Fitting (config : LiveRtspServerConfig) (url : RtspUrl) (channel : LiveChannel) : Prop where
  parsed : parseRtspsUrl url.base = .ok url
  solid : ∀ b ∈ url.base, isSpace b = false
  registered : registeredChannel config.channels (parsePublicChannelId url.base) = some channel
  header : url.base.length + 128 ≤ config.limits.maxHeaderBytes
  mtu : 16 ≤ config.rtpMtu ∧ config.rtpMtu ≤ 65535

section

variable {config : LiveRtspServerConfig} {url : RtspUrl} {channel : LiveChannel}

theorem Fitting.channelId (h : Fitting config url channel) : parsePublicChannelId url.base = channel.channelId :=
  (registered_channel h.registered).2.symm

theorem Fitting.publicChannel (h : Fitting config url channel) : PublicChannel channel.channelId :=
  config.inRange channel (registered_channel h.registered).1

theorem Fitting.token (h : Fitting config url channel) : Token url.base := by
  obtain ⟨-,rest,htext,-⟩ := parseRtspsUrl_shape h.parsed
  exact ⟨by simp [htext,ascii],h.solid⟩

end

namespace Label

def number : Label → Nat
  | .options => 1
  | .describe => 2
  | .setup => 3
  | .play => 4

def target (base : Bytes) : Label → Bytes
  | .setup => trackUrl base
  | _ => base

def headers (session : Bytes) : Label → List Bytes
  | .options => []
  | .describe => [ascii "Accept: application/sdp"]
  | .setup => [ascii "Transport: RTP/AVP/TCP;unicast;interleaved=0-1"]
  | .play => [ascii "Session: " ++ session]

def request (base session : Bytes) (label : Label) : Bytes :=
  makeRequest (ascii label.text) (label.target base) label.number (label.headers session)

def before (session : Bytes) (channelId : Int) : Label → RtspControlState
  | .play => ⟨.ready,session,channelId,0,1⟩
  | _ => {}

def after (session : Bytes) (channelId : Int) : Label → RtspControlState
  | .setup => ⟨.ready,session,channelId,0,1⟩
  | .play => ⟨.playing,session,channelId,0,1⟩
  | _ => {}

theorem method (label : Label) : ascii label.text ∈ clientMethods := by
  cases label <;> decide +kernel

theorem headers_plain (id : SessionId) (label : Label) : ∀ h ∈ label.headers id.text, PlainHeader h := by
  have hsession : PlainHeader (ascii "Session: " ++ id.text) :=
    plainHeader_append (by decide) (by decide) (by decide) (plain_of_not_mem (id.not_mem (by decide)))
  cases label with
  | options => simp [headers]
  | describe =>
    simp only [headers,List.mem_singleton,forall_eq]
    exact ⟨by decide,by decide,by decide⟩
  | setup =>
    simp only [headers,List.mem_singleton,forall_eq]
    exact ⟨by decide,by decide,by decide⟩
  | play => simpa [headers] using hsession

end Label

section

variable {config : LiveRtspServerConfig} {url : RtspUrl} {channel : LiveChannel}

theorem target_token (h : Fitting config url channel) (label : Label) : Token (label.target url.base) := by
  obtain ⟨tail,htrack,-,hspace,-⟩ := trackUrl_suffix url.base
  have hsetup : Token (trackUrl url.base) := by
    rw [htrack]
    refine ⟨by simp [h.token.ne_nil],fun b hb => ?_⟩
    rcases List.mem_append.mp hb with hb | hb
    · exact h.solid b hb
    · exact hspace b hb
  cases label with
  | setup => exact hsetup
  | options => exact h.token
  | describe => exact h.token
  | play => exact h.token

theorem target_channel (h : Fitting config url channel) (label : Label) :
    parsePublicChannelId (label.target url.base) = channel.channelId := by
  have hbase := h.channelId
  have htrack := trackUrl_channel h.parsed (hbase ▸ h.publicChannel)
  cases label with
  | setup => exact htrack.trans hbase
  | options => exact hbase
  | describe => exact hbase
  | play => exact hbase

theorem request_asks (h : Fitting config url channel) (id : SessionId) (label : Label) :
    Asks (label.request url.base id.text) (ascii label.text) (label.target url.base) label.number :=
  makeRequest_asks label.method (target_token h label) (label.headers_plain id)

theorem request_length (base session : Bytes) (label : Label) (hs : session.length ≤ 16) :
    (label.request base session).length ≤ base.length + 128 := by
  obtain ⟨tail,htrack,hshort,-⟩ := trackUrl_suffix base
  have hlen : ∀ (method target : Bytes) (cseq : Nat) (headers : List Bytes),
      (makeRequest method target cseq headers).length = method.length + target.length +
        (decimal cseq).length + (headers.flatMap (· ++ crlf)).length + 61 := by
    intro method target cseq headers
    have hdecimal : toDecimal cseq = decimal cseq := by simp [toDecimal]
    simp only [makeRequest,hdecimal,List.length_append,show (ascii " ").length = 1 from rfl,
      show (ascii " RTSP/1.0").length = 9 from rfl,show (ascii "CSeq: ").length = 6 from rfl,
      show (ascii "User-Agent: rpi-rtsps-test-client/1.0").length = 37 from rfl,show crlf.length = 2 from rfl]
    omega
  rw [Label.request,hlen]
  cases label with
  | options =>
    have hfixed : (ascii Label.options.text).length + (decimal Label.options.number).length ≤ 12 := by decide
    simp only [Label.target,Label.headers,List.flatMap_nil,List.length_nil]
    omega
  | describe =>
    have hfixed : (ascii Label.describe.text).length + (decimal Label.describe.number).length +
        ([ascii "Accept: application/sdp"].flatMap (· ++ crlf)).length ≤ 60 := by decide
    simp only [Label.target,Label.headers]
    omega
  | setup =>
    have hfixed : (ascii Label.setup.text).length + (decimal Label.setup.number).length +
        ([ascii "Transport: RTP/AVP/TCP;unicast;interleaved=0-1"].flatMap (· ++ crlf)).length ≤ 56 := by decide
    simp only [Label.target,Label.headers,htrack,List.length_append]
    omega
  | play =>
    have hfixed : (ascii Label.play.text).length + (decimal Label.play.number).length ≤ 12 := by decide
    have hheader : ((Label.play.headers session).flatMap (· ++ crlf)).length ≤ 30 := by
      simp only [Label.headers,List.flatMap_cons,List.flatMap_nil,List.append_nil,List.length_append,
        show (ascii "Session: ").length = 9 from rfl,show crlf.length = 2 from rfl]
      omega
    simp only [Label.target]
    omega

end

section

variable {cseq body : Bytes} {headers : List Bytes}

theorem responseStatus_ok : responseStatus (headerBlock (responseLines 200 cseq headers body)) = 200 := by
  have hline : statusLine 200 = ascii "RTSP/1.0" ++ 32 :: (ascii "200" ++ 32 :: ascii "OK") := rfl
  have hopens : ∃ rest, headerBlock (responseLines 200 cseq headers body) =
      ascii "RTSP/1.0" ++ 32 :: (ascii "200" ++ 32 :: rest) := by
    rw [responseLines,headerBlock_cons,hline]
    exact ⟨_,by simp only [List.append_assoc,List.cons_append]; rfl⟩
  obtain ⟨rest,hrest⟩ := hopens
  have hscan : scanNumeral (32 :: (ascii "200" ++ 32 :: rest)) = ⟨false,ascii "200",32 :: rest⟩ := by
    refine (@scanNumeral_blank [32] _ (by decide +kernel)).trans ?_
    exact @scanNumeral_digits_append (ascii "200") (32 :: rest) (by decide) (by decide) fun b hb => by
      cases hb
      rfl
  have hvalue : (readInt (32 :: (ascii "200" ++ 32 :: rest))).value = 200 := by
    simp only [readInt,hscan]
    rfl
  simp only [responseStatus,hrest,readWord_token (show Token (ascii "RTSP/1.0") by decide),hvalue]
  rfl

theorem response_read (hc : Plain cseq) (hh : ∀ h ∈ headers, PlainHeader h) (hb : body.length ≤ intMax) :
    Answer (makeResponse 200 cseq headers body)
      ⟨200,headerBlock (responseLines 200 cseq headers body),body⟩ := by
  have hanswer := answer_message (@response_message 200 cseq body headers _ _ hc hh (Nat.le_refl _) (Nat.le_refl _)) hb
  rwa [← makeResponse_lines,responseStatus_ok] at hanswer

end

theorem sdp_short {channelId : Int} (hc : PublicChannel channelId) (codec : VideoCodec) (codecFmtp : Bytes) :
    (buildSdp channelId codec codecFmtp).length ≤ codecFmtp.length + 200 := by
  obtain ⟨c,rfl⟩ := Int.eq_ofNat_of_zero_le (show 0 ≤ channelId by have := hc.1; omega)
  have hcase : c ∈ [1,2,3,4] := by
    obtain ⟨h1,h4⟩ := hc
    simp only [List.mem_cons,List.not_mem_nil,or_false]
    omega
  have hall : ∀ c ∈ [1,2,3,4], ∀ codec ∈ [VideoCodec.h264,.h265],
      (buildSdp (c : Nat) codec []).length ≤ 200 ∧ (buildSdp (c : Nat) codec [0]).length ≤ 200 := by
    decide +kernel
  obtain ⟨hempty,hone⟩ := hall c hcase codec (by cases codec <;> decide)
  by_cases hf : codecFmtp = []
  · rw [hf]
    exact hempty
  · have := sdp_length c codec hf
    omega

structure Served (label : Label) (id : SessionId) (result : RtspControlResult) (r : Response) : Prop where
  read : Answer result.response r
  status : r.status = 200
  plays : result.startPlay = decide (label = .play)
  stays : result.closeSession = false
  control : label = .describe → findFirstMediaControl r.body = ascii "trackID=0"
  session : label = .setup → findSession r.header = id.text

theorem setup_session (id : SessionId) {cseq : Bytes} (hc : Plain cseq) :
    findSession (headerBlock (responseLines 200 cseq [ascii "Transport: " ++ transportValue 0 1,
      ascii "Session: " ++ id.text ++ ascii ";timeout=60"] [])) = id.text := by
  have hsession : PlainHeader (ascii "Session: " ++ id.text ++ ascii ";timeout=60") := by
    rw [List.append_assoc]
    exact plainHeader_append (by decide) (by decide) (by decide) (plain_append (id.not_mem (by decide)) (by decide))
  have hplain := @responseLines_plain 200 cseq [] [ascii "Transport: " ++ transportValue 0 1,
    ascii "Session: " ++ id.text ++ ascii ";timeout=60"] hc (by simpa using ⟨transportLine_plain 0 1,hsession⟩)
  have hlines : responseLines 200 cseq [ascii "Transport: " ++ transportValue 0 1,
      ascii "Session: " ++ id.text ++ ascii ";timeout=60"] [] ++ [[]] =
      (statusLine 200 :: ((if cseq.isEmpty then [] else [ascii "CSeq: " ++ cseq]) ++ [ascii "Server: rpi-vms-m3",
        ascii "Transport: " ++ transportValue 0 1])) ++
      [ascii "Session: " ++ id.text ++ ascii ";timeout=60",[]] := by
    simp [responseLines]
  have hskip : ∀ l ∈ statusLine 200 :: ((if cseq.isEmpty then [] else [ascii "CSeq: " ++ cseq]) ++
      [ascii "Server: rpi-vms-m3",ascii "Transport: " ++ transportValue 0 1]),
      startsWithCi l (ascii "Session:") = false := by
    intro l hl
    simp only [List.mem_cons,List.mem_append,List.not_mem_nil,or_false] at hl
    rcases hl with rfl | hl | rfl | rfl
    · decide
    · split at hl
      · simp at hl
      · rw [List.mem_singleton.mp hl]
        exact startsWithCi_differs cseq (by decide)
    · decide
    · decide
  have hmatch : startsWithCi (ascii "Session: " ++ id.text ++ ascii ";timeout=60") (ascii "Session:") = true := by
    have := startsWithCi_append (ascii "Session:") (ascii " " ++ id.text ++ ascii ";timeout=60")
    simpa [ascii] using this
  have hdrop : (ascii "Session: " ++ id.text ++ ascii ";timeout=60").drop (ascii "Session:").length =
      32 :: (id.text ++ 59 :: ascii "timeout=60") := by
    rw [List.append_assoc]
    rfl
  have hblank : (32 :: (id.text ++ 59 :: ascii "timeout=60")).dropWhile (fun b => b == 32 || b == 9) =
      id.text ++ 59 :: ascii "timeout=60" := by
    obtain ⟨b,t,ht⟩ := List.exists_cons_of_ne_nil id.ne_nil
    have hb : (b == 32 || b == 9) = false := by
      have hhex := List.all_eq_true.mp id.hex b (by simp [ht])
      rw [Bool.eq_false_iff]
      intro hor
      simp only [Bool.or_eq_true,beq_iff_eq] at hor
      rcases hor with rfl | rfl <;> cases hhex
    rw [ht]
    simp [hb]
  rw [findSession,segments_block _ fun l hl => (hplain l hl).1,hlines,find?_skip_plain hskip,
    List.find?_cons_of_pos (p := fun l => startsWithCi l (ascii "Session:")) hmatch]
  simp only [hdrop,hblank]
  exact takeWhile_token (id.not_mem (by decide))

-- parameter sets small enough for the length of the SDP to be read back by stoi
def Moderate (sets : ParameterSets) : Prop := ∀ kind : ParameterKind, (kind.stored sets).length ≤ 2 ^ 28

theorem codecFmtp_length {sets : ParameterSets} (h : Moderate sets) (codec : VideoCodec) :
    (codecFmtp sets codec).length ≤ 2000000000 := by
  have hencoded : ∀ kind : ParameterKind, (base64Encode (kind.stored sets)).length ≤ 400000000 := by
    intro kind
    rw [base64Encode_encode,BitGroups.encode_length]
    have := h kind
    omega
  cases codec with
  | h264 =>
    have hsps := hencoded .h264Sps
    have hpps := hencoded .h264Pps
    have hnames : (ascii "packetization-mode=1;sprop-parameter-sets=").length + (ascii ",").length ≤ 50 := by decide
    simp only [ParameterKind.stored] at hsps hpps
    simp only [codecFmtp]
    split
    · simp only [List.length_append]
      omega
    · simp
  | h265 =>
    have hvps := hencoded .h265Vps
    have hsps := hencoded .h265Sps
    have hpps := hencoded .h265Pps
    have hnames : (ascii "sprop-vps=").length + (ascii ";sprop-sps=").length + (ascii ";sprop-pps=").length ≤ 50 := by
      decide
    simp only [ParameterKind.stored] at hvps hsps hpps
    simp only [codecFmtp]
    split
    · simp only [List.length_append]
      omega
    · simp

theorem codecFmtp_oneLine (sets : ParameterSets) (codec : VideoCodec) : (10 : UInt8) ∉ codecFmtp sets codec := by
  have hencoded : ∀ data : Bytes, (10 : UInt8) ∉ base64Encode data := fun data =>
    notMem_base64Encode (by decide +kernel) (by decide) data
  cases codec with
  | h264 =>
    simp only [codecFmtp]
    split
    · simp only [List.mem_append,not_or]
      exact ⟨⟨⟨by decide,hencoded _⟩,by decide⟩,hencoded _⟩
    · simp
  | h265 =>
    simp only [codecFmtp]
    split
    · simp only [List.mem_append,not_or]
      exact ⟨⟨⟨⟨⟨by decide,hencoded _⟩,by decide⟩,hencoded _⟩,by decide⟩,hencoded _⟩
    · simp

theorem moderate_update {sets : ParameterSets} (h : Moderate sets) {view : OwnedLiveFrame}
    (hv : view.data.length ≤ 2 ^ 28) : Moderate (updateParameterSets sets view) := by
  intro kind
  rw [kind.update_stored]
  cases hlast : (kind.carriedBy view).getLast? with
  | none => exact h kind
  | some nal =>
    have hmem := List.mem_of_getLast? hlast
    unfold ParameterKind.carriedBy at hmem
    split at hmem
    · exact (splitAccessUnit_length view.data nal (List.mem_of_mem_filter hmem)).trans hv
    · simp at hmem

section

variable {config : LiveRtspServerConfig} {url : RtspUrl} {channel : LiveChannel} {env : RequestEnv}

theorem answer_routed (h : Fitting config url channel) (id : SessionId) (label : Label) (env : RequestEnv)
    (control : RtspControlState) :
    answer config.channels env (label.request url.base id.text) control =
      processRtspRequest env.drawn.text (label.request url.base id.text) channel.channelId channel.codec
        env.codecFmtp control := by
  have hchannel : requestChannel (label.request url.base id.text) = parsePublicChannelId url.base := by
    rw [requestChannel,(request_asks h id label).target,target_channel h,h.channelId]
  rw [answer,hchannel,h.registered]

theorem server_answers (h : Fitting config url channel) (id : SessionId) (label : Label)
    (hid : label = .setup → env.drawn = id) (hline : (10 : UInt8) ∉ env.codecFmtp)
    (hsize : env.codecFmtp.length ≤ 2000000000) :
    ∃ result r, answer config.channels env (label.request url.base id.text)
        (label.before id.text channel.channelId) = (result,label.after id.text channel.channelId) ∧
      Served label id result r := by
  have hasks := request_asks h id label
  have hpub := h.publicChannel
  have hrouted : ¬ (channel.channelId < 0 ∨ channel.channelId ≠ channel.channelId) := by
    have := hpub.1
    simp
    omega
  have hcseq : (decimal label.number).isEmpty = false := by simpa using decimal_ne_nil _
  have hplain : Plain (decimal label.number) := plain_of_not_mem (plain_digits (decimal_all _))
  have hprocess := answer_routed h id label env (label.before id.text channel.channelId)
  simp only [processRtspRequest,hasks.cseq,hasks.method,hasks.target,target_channel h,hcseq,Bool.false_eq_true,
    if_false] at hprocess
  cases label with
  | options =>
    rw [if_pos (by decide)] at hprocess
    refine ⟨_,_,hprocess,⟨response_read hplain ?_ (by decide),rfl,rfl,rfl,by simp,by simp⟩⟩
    simp only [List.mem_singleton,forall_eq]
    exact ⟨by decide,by decide,by decide⟩
  | describe =>
    rw [if_neg (by decide),if_neg hrouted,if_pos (by decide)] at hprocess
    have hbody := sdp_short hpub channel.codec env.codecFmtp
    refine ⟨_,_,hprocess,⟨response_read hplain ?_ (by simp only [intMax]; omega),rfl,rfl,rfl,
      fun _ => sdp_control _ _ hline,by simp⟩⟩
    simp only [List.mem_cons,List.not_mem_nil,or_false,forall_eq_or_imp,forall_eq]
    refine ⟨⟨by decide,by decide,by decide⟩,?_⟩
    rw [List.append_assoc]
    exact plainHeader_append (by decide) (by decide) (by decide) (plain_append (toDecimal_plain _) (by decide))
  | setup =>
    have htransport : transportHeader (Label.setup.request url.base id.text) =
        ascii "RTP/AVP/TCP;unicast;interleaved=0-1" :=
      @makeRequest_field _ _ 3 Label.setup.method (target_token h .setup) (ascii "Transport") _
        ⟨by decide,by decide,by decide⟩ (by decide +kernel) (by decide +kernel) (by decide +kernel)
    have hpair : parseInterleavedChannels (ascii "RTP/AVP/TCP;unicast;interleaved=0-1") = some (0,1) := by
      decide +kernel
    rw [if_neg (by decide),if_neg hrouted,if_neg (by decide),if_pos (by decide),processSetup,
      if_neg (by simp [Label.before]),htransport,hpair] at hprocess
    simp only [hid rfl] at hprocess
    refine ⟨_,_,hprocess,⟨response_read hplain ?_ (by decide),rfl,rfl,rfl,by simp,
      fun _ => setup_session id hplain⟩⟩
    simp only [List.mem_cons,List.not_mem_nil,or_false,forall_eq_or_imp,forall_eq]
    refine ⟨transportLine_plain 0 1,?_⟩
    rw [List.append_assoc]
    exact plainHeader_append (by decide) (by decide) (by decide) (plain_append (id.not_mem (by decide)) (by decide))
  | play =>
    have hsession : sessionHeader (Label.play.request url.base id.text) = id.text :=
      @makeRequest_field _ _ 4 Label.play.method (target_token h .play) (ascii "Session") _
        (Label.headers_plain id .play _ (by simp [Label.headers,ascii])) (by decide +kernel) (by decide +kernel)
        fun b hb => by
          have hhex := List.all_eq_true.mp id.hex b hb
          rw [Bool.eq_false_iff]
          intro ht
          simp only [isTrimmed,Bool.or_eq_true,beq_iff_eq] at ht
          rcases ht with ((rfl | rfl) | rfl) | rfl <;> cases hhex
    have hvalid : validSessionHeader id.text id.text = true := by
      simp [validSessionHeader,id.ne_nil]
    rw [if_neg (by decide),if_neg hrouted,if_neg (by decide),if_neg (by decide),if_pos (by decide),processPlay,
      if_neg (by simp [Label.before]),hsession] at hprocess
    simp only [Label.before,hvalid,Bool.not_true,Bool.false_eq_true,if_false] at hprocess
    refine ⟨_,_,hprocess,⟨response_read hplain ?_ (by decide),rfl,rfl,rfl,by simp,by simp⟩⟩
    simp only [List.mem_cons,List.not_mem_nil,or_false,forall_eq_or_imp,forall_eq]
    refine ⟨Label.headers_plain id .play _ (by simp [Label.headers]),?_⟩
    rw [List.append_assoc]
    exact plainHeader_append (by decide) (by decide) (by decide) (plain_append (toDecimal_plain _) (by decide))

end

end RtspsClient

end RpiVms

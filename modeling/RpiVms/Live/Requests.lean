import RpiVms.Live.Response

namespace RpiVms

open Search Segments

def allowLine : Bytes := ascii "Allow: OPTIONS, DESCRIBE, SETUP, PLAY, TEARDOWN, GET_PARAMETER"

def publicLine : Bytes := ascii "Public: OPTIONS, DESCRIBE, SETUP, PLAY, TEARDOWN, GET_PARAMETER"

def transportValue (rtpChannel rtcpChannel : Int) : Bytes :=
  ascii "RTP/AVP/TCP;unicast;interleaved=" ++ toDecimal rtpChannel ++ ascii "-" ++ toDecimal rtcpChannel

def requestChannel (request : Bytes) : Int := parsePublicChannelId (extractRequestTarget request)

def HasSession (request : Bytes) (state : RtspControlState) : Prop :=
  validSessionHeader (sessionHeader request) state.sessionId = true

def PublicChannel (channel : Int) : Prop := 1 ≤ channel ∧ channel ≤ 4

instance (channel : Int) : Decidable (PublicChannel channel) := inferInstanceAs (Decidable (_ ∧ _))

structure MediaChannels (rtpChannel rtcpChannel : Int) : Prop where
  rtp : 0 ≤ rtpChannel ∧ rtpChannel ≤ 255
  rtcp : 0 ≤ rtcpChannel ∧ rtcpChannel ≤ 255
  distinct : rtpChannel ≠ rtcpChannel

inductive Handled (drawn request : Bytes) (codec : VideoCodec) (codecFmtp : Bytes)
    (state : RtspControlState) : RtspControlResult → RtspControlState → Prop
  | unnumbered : cseqFromMessage request = [] →
      Handled drawn request codec codecFmtp state ⟨makeResponse 400 [] [] [],false,true⟩ state
  | options : Handled drawn request codec codecFmtp state
      (reply 200 (cseqFromMessage request) [publicLine]) state
  | refused (status : Nat) : status ∈ [404,454,455,461] → Handled drawn request codec codecFmtp state
      (reply status (cseqFromMessage request) []) state
  | unknown : Handled drawn request codec codecFmtp state
      (reply 405 (cseqFromMessage request) [allowLine]) state
  | described : PublicChannel (requestChannel request) → Handled drawn request codec codecFmtp state
      (processDescribe (cseqFromMessage request) (requestChannel request) codec codecFmtp) state
  | setup (rtpChannel rtcpChannel : Int) :
      rtspMethodFromRequest request = ascii "SETUP" → state.phase = .initial →
      PublicChannel (requestChannel request) → MediaChannels rtpChannel rtcpChannel →
      Handled drawn request codec codecFmtp state
        (reply 200 (cseqFromMessage request)
          [ascii "Transport: " ++ transportValue rtpChannel rtcpChannel,
            ascii "Session: " ++ drawn ++ ascii ";timeout=60"])
        ⟨.ready,drawn,requestChannel request,rtpChannel,rtcpChannel⟩
  | played : rtspMethodFromRequest request = ascii "PLAY" → state.phase = .ready →
      state.channelId = requestChannel request → HasSession request state →
      Handled drawn request codec codecFmtp state
        { reply 200 (cseqFromMessage request) [ascii "Session: " ++ state.sessionId,
          ascii "RTP-Info: url=/ch" ++ toDecimal (requestChannel request) ++ ascii "/trackID=0"] with
            startPlay := true }
        { state with phase := .playing }
  | kept : HasSession request state → Handled drawn request codec codecFmtp state
      (reply 200 (cseqFromMessage request) [ascii "Session: " ++ state.sessionId]) state
  | torn : HasSession request state → Handled drawn request codec codecFmtp state
      { reply 200 (cseqFromMessage request) [ascii "Session: " ++ state.sessionId] with
          closeSession := true }
      { state with phase := .closed }

-- the status, header lines and body of each response: of the request's text they hold the channel number alone
inductive ReplyLines (drawn request : Bytes) (codec : VideoCodec) (codecFmtp : Bytes)
    (state : RtspControlState) : Nat → List Bytes → Bytes → Prop
  | refused (status : Nat) : status ∈ [400,404,454,455,461] →
      ReplyLines drawn request codec codecFmtp state status [] []
  | options : ReplyLines drawn request codec codecFmtp state 200 [publicLine] []
  | unknown : ReplyLines drawn request codec codecFmtp state 405 [allowLine] []
  | described : PublicChannel (requestChannel request) → ReplyLines drawn request codec codecFmtp state 200
      [ascii "Content-Type: application/sdp",
        ascii "Content-Base: /ch" ++ toDecimal (requestChannel request) ++ ascii "/"]
      (buildSdp (requestChannel request) codec codecFmtp)
  | setup (rtpChannel rtcpChannel : Int) : MediaChannels rtpChannel rtcpChannel →
      ReplyLines drawn request codec codecFmtp state 200
        [ascii "Transport: " ++ transportValue rtpChannel rtcpChannel,
          ascii "Session: " ++ drawn ++ ascii ";timeout=60"] []
  | played : state.channelId = requestChannel request → HasSession request state →
      ReplyLines drawn request codec codecFmtp state 200
        [ascii "Session: " ++ state.sessionId,
          ascii "RTP-Info: url=/ch" ++ toDecimal (requestChannel request) ++ ascii "/trackID=0"] []
  | session : HasSession request state →
      ReplyLines drawn request codec codecFmtp state 200 [ascii "Session: " ++ state.sessionId] []

theorem parsePublicChannelId_range (target : Bytes) :
    parsePublicChannelId target = -1 ∨ PublicChannel (parsePublicChannelId target) := by
  unfold parsePublicChannelId
  simp only
  split
  · exact .inl rfl
  split
  · exact .inl rfl
  cases stoi (((requestPath target).takeWhile fun b => !(b == 63 || b == 35)).drop 3 |>.takeWhile isDigit) with
  | error e => exact .inl rfl
  | ok r =>
    simp only [Bool.and_eq_true,decide_eq_true_eq]
    split
    · rename_i h
      exact .inr h
    · exact .inl rfl

theorem readInterleavedPair_range {values : Bytes} {rtp rtcp : Int}
    (h : readInterleavedPair values = some (rtp,rtcp)) : MediaChannels rtp rtcp := by
  unfold readInterleavedPair at h
  simp only at h
  split at h
  · simp at h
  · split at h
    · simp at h
    · rename_i hc
      simp only [Bool.or_eq_true,Bool.not_eq_true',decide_eq_true_eq,beq_iff_eq,bne_iff_ne,not_or,
        ne_eq,not_not] at hc
      obtain ⟨⟨⟨⟨⟨⟨-,-⟩,h0⟩,h1⟩,h2⟩,h3⟩,h4⟩ := hc
      simp only [Option.some.injEq,Prod.mk.injEq] at h
      obtain ⟨rfl,rfl⟩ := h
      exact ⟨⟨by omega,by omega⟩,⟨by omega,by omega⟩,h4⟩

theorem parseInterleavedChannels_range {transport : Bytes} {rtp rtcp : Int}
    (h : parseInterleavedChannels transport = some (rtp,rtcp)) : MediaChannels rtp rtcp := by
  unfold parseInterleavedChannels at h
  simp only at h
  split at h
  · simp at h
  · split at h
    · simp only [Option.some.injEq,Prod.mk.injEq] at h
      obtain ⟨rfl,rfl⟩ := h
      exact ⟨by omega,by omega,by omega⟩
    · exact readInterleavedPair_range h

section

variable (drawn request : Bytes) (codec : VideoCodec) (codecFmtp : Bytes) (state : RtspControlState)

theorem setup_handled (hm : rtspMethodFromRequest request = ascii "SETUP")
    (hc : PublicChannel (requestChannel request)) :
    Handled drawn request codec codecFmtp state
      (processSetup drawn request (cseqFromMessage request) (requestChannel request) state).1
      (processSetup drawn request (cseqFromMessage request) (requestChannel request) state).2 := by
  unfold processSetup
  split
  · exact .refused 455 (by decide)
  · rename_i hp
    cases ht : parseInterleavedChannels (transportHeader request) with
    | none => exact .refused 461 (by decide)
    | some p =>
      have hset := @Handled.setup drawn request codec codecFmtp state p.1 p.2 hm (by simpa using hp) hc
        (parseInterleavedChannels_range ht)
      have hl : ascii "Transport: " ++ transportValue p.1 p.2 =
          ascii "Transport: RTP/AVP/TCP;unicast;interleaved=" ++ toDecimal p.1 ++ ascii "-" ++
            toDecimal p.2 := by
        simp [transportValue,ascii]
      rwa [hl] at hset

theorem play_handled (hm : rtspMethodFromRequest request = ascii "PLAY") :
    Handled drawn request codec codecFmtp state
      (processPlay request (cseqFromMessage request) (requestChannel request) state).1
      (processPlay request (cseqFromMessage request) (requestChannel request) state).2 := by
  unfold processPlay
  split
  · exact .refused 455 (by decide)
  · rename_i hp
    simp only [not_or,ne_eq,not_not] at hp
    split
    · exact .refused 454 (by decide)
    · rename_i hs
      exact .played hm hp.1 hp.2 (by simpa [HasSession] using hs)

theorem getParameter_handled :
    Handled drawn request codec codecFmtp state
      (processGetParameter request (cseqFromMessage request) state) state := by
  unfold processGetParameter
  split
  · exact .refused 454 (by decide)
  · rename_i hs
    exact .kept (by simpa [HasSession] using hs)

theorem teardown_handled :
    Handled drawn request codec codecFmtp state
      (processTeardown request (cseqFromMessage request) state).1
      (processTeardown request (cseqFromMessage request) state).2 := by
  unfold processTeardown
  split
  · exact .refused 454 (by decide)
  · rename_i hs
    exact .torn (by simpa [HasSession] using hs)

theorem process_handled (registeredChannelId : Int) :
    Handled drawn request codec codecFmtp state
      (processRtspRequest drawn request registeredChannelId codec codecFmtp state).1
      (processRtspRequest drawn request registeredChannelId codec codecFmtp state).2 := by
  unfold processRtspRequest
  simp only
  split
  · rename_i hc
    exact .unnumbered (by simpa using hc)
  split
  · exact .options
  split
  · exact .refused 404 (by decide)
  rename_i hch
  have hc : PublicChannel (requestChannel request) := by
    rcases parsePublicChannelId_range (extractRequestTarget request) with h | h
    · exact absurd (.inl (by omega)) hch
    · exact h
  split
  · exact .described hc
  split
  · rename_i hm
    exact setup_handled drawn request codec codecFmtp state hm hc
  split
  · rename_i hm
    exact play_handled drawn request codec codecFmtp state hm
  split
  · exact getParameter_handled drawn request codec codecFmtp state
  split
  · exact teardown_handled drawn request codec codecFmtp state
  · exact .unknown

end

theorem SessionId.not_mem (id : SessionId) {b : UInt8} (h : isHex b = false) : b ∉ id.text := by
  intro hm
  have := List.all_eq_true.mp id.hex b hm
  simp [h] at this

theorem sessionLine_plain {request : Bytes} {state : RtspControlState} (h : HasSession request state) :
    PlainHeader (ascii "Session: " ++ state.sessionId) :=
  plainHeader_append (by decide) (by decide) (by decide)
    (validSession_plain h (headerValue_plain _ _)).1

theorem transportLine_plain (rtpChannel rtcpChannel : Int) :
    PlainHeader (ascii "Transport: " ++ transportValue rtpChannel rtcpChannel) := by
  refine plainHeader_append (by decide) (by decide) (by decide) (plain_of_not_mem ?_)
  simp only [transportValue,List.mem_append,not_or]
  exact ⟨⟨⟨by decide,toDecimal_plain _⟩,by decide⟩,toDecimal_plain _⟩

section

variable {id : SessionId} {request codecFmtp : Bytes} {codec : VideoCodec}
  {state after : RtspControlState} {result : RtspControlResult}

theorem handled_response (h : Handled id.text request codec codecFmtp state result after) :
    ∃ status headers body, ReplyLines id.text request codec codecFmtp state status headers body ∧
      result.response = makeResponse status (cseqFromMessage request) headers body := by
  cases h with
  | unnumbered hc => exact ⟨400,[],[],.refused 400 (by decide),by rw [hc]⟩
  | options => exact ⟨_,_,_,.options,rfl⟩
  | refused status hs =>
    exact ⟨_,_,_,.refused status ((show [404,454,455,461] ⊆ [400,404,454,455,461] by decide) hs),rfl⟩
  | unknown => exact ⟨_,_,_,.unknown,rfl⟩
  | described hc => exact ⟨_,_,_,.described hc,rfl⟩
  | setup rtpChannel rtcpChannel _ _ _ hm => exact ⟨_,_,_,.setup rtpChannel rtcpChannel hm,rfl⟩
  | played _ _ hc hs => exact ⟨_,_,_,.played hc hs,rfl⟩
  | kept hs => exact ⟨_,_,_,.session hs,rfl⟩
  | torn hs => exact ⟨_,_,_,.session hs,rfl⟩

theorem ReplyLines.plain {status : Nat} {headers : List Bytes} {body : Bytes}
    (h : ReplyLines id.text request codec codecFmtp state status headers body) : ∀ l ∈ headers, PlainHeader l := by
  cases h with
  | refused => simp
  | options | unknown =>
    simp only [List.mem_singleton,forall_eq]
    exact ⟨by decide,by decide,by decide⟩
  | described hc =>
    simp only [List.mem_cons,List.not_mem_nil,or_false,forall_eq_or_imp,forall_eq]
    refine ⟨⟨by decide,by decide,by decide⟩,?_⟩
    rw [List.append_assoc]
    refine plainHeader_append (by decide) (by decide) (by decide) ?_
    exact plain_append (toDecimal_plain _) (by decide)
  | setup rtpChannel rtcpChannel _ =>
    simp only [List.mem_cons,List.not_mem_nil,or_false,forall_eq_or_imp,forall_eq]
    refine ⟨transportLine_plain _ _,?_⟩
    rw [List.append_assoc]
    refine plainHeader_append (by decide) (by decide) (by decide) ?_
    exact plain_append (id.not_mem (by decide)) (by decide)
  | played _ hs =>
    simp only [List.mem_cons,List.not_mem_nil,or_false,forall_eq_or_imp,forall_eq]
    refine ⟨sessionLine_plain hs,?_⟩
    rw [List.append_assoc]
    refine plainHeader_append (by decide) (by decide) (by decide) ?_
    exact plain_append (toDecimal_plain _) (by decide)
  | session hs =>
    simp only [List.mem_singleton,forall_eq]
    exact sessionLine_plain hs

end

end RpiVms

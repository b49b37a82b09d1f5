import RpiVms.Client.Reading
import RpiVms.Live.Output
import RpiVms.Live.Routing
import RpiVms.Live.ParameterHistory
import RpiVms.Proxy.Rewriter

namespace RpiVms

open Search Segments Framing

namespace RtspsClient

def clientMethods : List Bytes :=
  [ascii "OPTIONS",ascii "DESCRIBE",ascii "SETUP",ascii "PLAY",ascii "TEARDOWN"]

def requestLines (method url : Bytes) (cseq : Nat) (headers : List Bytes) : List Bytes :=
  requestLine method url (ascii "RTSP/1.0") :: (ascii "CSeq: " ++ decimal cseq) ::
    ascii "User-Agent: rpi-rtsps-test-client/1.0" :: headers

theorem makeRequest_lines (method url : Bytes) (cseq : Nat) (headers : List Bytes) :
    makeRequest method url cseq headers = headerBlock (requestLines method url cseq headers) := by
  have hdecimal : toDecimal cseq = decimal cseq := by simp [toDecimal]
  have hblank : ascii " " = [32] := rfl
  have hversion : ascii " RTSP/1.0" = 32 :: ascii "RTSP/1.0" := rfl
  simp [makeRequest,requestLines,headerBlock,requestLine,hdecimal,hblank,hversion]

def fieldNames : List Bytes :=
  [ascii "Content-Length:",ascii "session:",ascii "transport:"]

theorem method_lines : ∀ method ∈ clientMethods, Token method ∧ method ++ [32] ∈ messagePrefixes ∧
    (∀ name ∈ ascii "cseq:" :: fieldNames,
      lowerCopy ((method ++ [32]).take name.length) ≠ lowerCopy (name.take (method ++ [32]).length)) := by
  decide +kernel

section

variable {method url : Bytes} {cseq : Nat} {headers : List Bytes}

theorem requestLine_opens (method url version : Bytes) :
    requestLine method url version = method ++ [32] ++ (url ++ 32 :: version) := by
  simp [requestLine]

theorem requestLine_differs (hm : method ∈ clientMethods) {name : Bytes}
    (hn : name ∈ ascii "cseq:" :: fieldNames) :
    startsWithCi (requestLine method url (ascii "RTSP/1.0")) name = false := by
  rw [requestLine_opens]
  exact startsWithCi_differs _ ((method_lines method hm).2.2 name hn)

theorem requestLines_skip (hm : method ∈ clientMethods) {name : Bytes} (hn : name ∈ fieldNames) :
    ∀ l ∈ [requestLine method url (ascii "RTSP/1.0"),ascii "CSeq: " ++ decimal cseq,
      ascii "User-Agent: rpi-rtsps-test-client/1.0"], startsWithCi l name = false := by
  have hfixed : ∀ name ∈ fieldNames, lowerCopy ((ascii "CSeq: ").take name.length) ≠
        lowerCopy (name.take (ascii "CSeq: ").length) ∧
      startsWithCi (ascii "User-Agent: rpi-rtsps-test-client/1.0") name = false := by decide +kernel
  simp only [List.mem_cons,List.not_mem_nil,or_false,forall_eq_or_imp,forall_eq]
  exact ⟨requestLine_differs hm (by simp [hn]),startsWithCi_differs _ (hfixed name hn).1,(hfixed name hn).2⟩

theorem requestLines_plain (hm : method ∈ clientMethods) (hu : Token url)
    (hh : ∀ h ∈ headers, PlainHeader h) : HeaderLines (requestLines method url cseq headers) := by
  have hsolid : ∀ w : Bytes, Token w → (13 : UInt8) ∉ w := fun w hw hmem => by
    have := hw.solid 13 hmem
    cases this
  refine ⟨by simp [requestLines],fun l hl => ?_⟩
  simp only [requestLines,List.mem_cons] at hl
  rcases hl with rfl | rfl | rfl | hl
  · refine ⟨plain_of_not_mem ?_,by simp [requestLine]⟩
    simp only [requestLine,List.mem_append,List.mem_cons,not_or]
    exact ⟨⟨hsolid _ (method_lines method hm).1,by decide,hsolid _ hu⟩,by decide,by decide⟩
  · exact ⟨plain_append (by decide) (plain_of_not_mem (plain_digits (decimal_all _))),by simp [ascii]⟩
  · exact ⟨by decide,by decide⟩
  · exact ⟨(hh l hl).plain,(hh l hl).ne_nil⟩

structure Asks (request method url : Bytes) (cseq : Nat) : Prop where
  cseq : cseqFromMessage request = decimal cseq
  method : rtspMethodFromRequest request = method
  target : extractRequestTarget request = url

theorem makeRequest_asks (hm : method ∈ clientMethods) (hu : Token url)
    (hh : ∀ h ∈ headers, PlainHeader h) : Asks (makeRequest method url cseq headers) method url cseq := by
  have hlines := @requestLines_plain _ _ cseq _ hm hu hh
  have hfirst : getFirstLine (makeRequest method url cseq headers) =
      method ++ 32 :: (url ++ 32 :: ascii "RTSP/1.0") := by
    have hblock := @getFirstLine_block _ (requestLines method url cseq headers).tail
      (hlines.plain _ (List.mem_cons_self ..)).1 []
    rw [List.append_nil] at hblock
    rw [makeRequest_lines]
    exact hblock.trans (by simp [requestLine])
  have hmethod := readWord_token (method_lines method hm).1 (url ++ 32 :: ascii "RTSP/1.0")
  refine ⟨?_,?_,?_⟩
  · have hvalue := @headerValue_block [requestLine method url (ascii "RTSP/1.0")] _ _ (ascii "CSeq") hlines
      (by simpa using requestLine_differs hm (by decide +kernel))
      (@startsWithCi_lower (ascii "CSeq:") _ (32 :: decimal cseq) (by decide +kernel)) []
    rw [cseqFromMessage,makeRequest_lines]
    rw [List.append_nil] at hvalue
    refine hvalue.trans (trimCopy_blank_all fun b hb => ?_)
    exact isDigit_not_trimmed (List.all_eq_true.mp (decimal_all cseq) b hb)
  · rw [rtspMethodFromRequest,hfirst,hmethod]
  · have hne : method.isEmpty = false := by simpa using (method_lines method hm).1.ne_nil
    simp only [extractRequestTarget,hfirst,hmethod,hne,readWord_space,readWord_token hu]
    rfl

theorem makeRequest_message (hm : method ∈ clientMethods) (hu : Token url)
    (hh : ∀ h ∈ headers, PlainHeader h) {maxHeader maxBody : Nat}
    (hfit : (makeRequest method url cseq headers).length ≤ maxHeader) :
    IsMessage maxHeader maxBody (makeRequest method url cseq headers) [] := by
  have hlines := @requestLines_plain _ _ cseq _ hm hu hh
  rw [makeRequest_lines] at hfit ⊢
  have hnone : (splitLinesKeepEmpty (headerBlock (requestLines method url cseq headers))).find?
      (startsWithCi · (ascii "Content-Length:")) = none := by
    rw [splitLines_block _ hlines.allPlain]
    refine List.find?_eq_none.mpr fun l hl => ?_
    simp only [requestLines,List.cons_append,List.mem_cons,List.mem_append,List.not_mem_nil,or_false] at hl
    have hskip := @requestLines_skip _ url cseq hm (ascii "Content-Length:") (by decide +kernel)
    rw [Bool.not_eq_true]
    rcases hl with rfl | rfl | rfl | hl | rfl
    · exact hskip _ (by simp)
    · exact hskip _ (by simp)
    · exact hskip _ (by simp)
    · exact (hh l hl).no_length
    · decide
  refine ⟨start_iff.mpr ⟨method ++ [32],(method_lines method hm).2.1,?_⟩,hlines.find _ [],hlines.long,hfit,?_,
    Nat.zero_le _⟩
  · rw [List.append_nil,requestLines,headerBlock_cons,requestLine_opens,List.append_assoc,List.append_assoc]
    exact List.prefix_append _ _
  · simp [DeclaresBody,contentLengthText,hnone]

theorem makeRequest_field (hm : method ∈ clientMethods) (hu : Token url) {name value : Bytes}
    (hh : PlainHeader (name ++ ascii ": " ++ value)) (hn : lowerCopy name ++ ascii ":" ∈ fieldNames)
    (hlower : lowerCopy (name ++ ascii ":") = lowerCopy (lowerCopy name ++ ascii ":"))
    (hv : ∀ b ∈ value, isTrimmed b = false) :
    headerValue (messageHeaderPart (makeRequest method url cseq [name ++ ascii ": " ++ value])) name =
      value := by
  have hlines := @requestLines_plain _ _ cseq [name ++ ascii ": " ++ value] hm hu (by simpa using hh)
  have hcolon : ascii ": " = ascii ":" ++ [32] := rfl
  have hmatch : startsWithCi (name ++ ascii ": " ++ value) (lowerCopy name ++ ascii ":") = true := by
    have := startsWithCi_lower (32 :: value) hlower
    simpa [hcolon] using this
  have hvalue := @headerValue_block [requestLine method url (ascii "RTSP/1.0"),ascii "CSeq: " ++ decimal cseq,
      ascii "User-Agent: rpi-rtsps-test-client/1.0"] [] _ name hlines (requestLines_skip hm hn) hmatch []
  rw [makeRequest_lines]
  rw [List.append_nil] at hvalue
  refine hvalue.trans ?_
  have hdrop : (name ++ ascii ": " ++ value).drop (name.length + 1) = 32 :: value := by
    rw [List.append_assoc,← List.drop_drop,List.drop_left]
    rfl
  rw [hdrop]
  exact trimCopy_blank_all hv

end

theorem isPrefixOf_differs {p q : Bytes} (t : Bytes) (h : p.take q.length ≠ q.take p.length) :
    p.isPrefixOf (q ++ t) = false := by
  rw [Bool.eq_false_iff,Ne,List.isPrefixOf_iff_prefix]
  intro hp
  have htake := congrArg (List.take q.length) (List.prefix_iff_eq_take.mp hp)
  rw [List.take_take,Nat.min_comm,← List.take_take,List.take_left] at htake
  exact h htake

theorem getLines_crlf {ls : List Bytes} (h : ∀ l ∈ ls, (10 : UInt8) ∉ l) :
    getLines (ls.flatMap (· ++ crlf)) = ls.map (· ++ [13]) := by
  have hclean : ∀ l ∈ ls.map (· ++ [13]), Clean [10] l := by
    intro l hl
    obtain ⟨k,hk,rfl⟩ := List.mem_map.mp hl
    exact find_first (by simpa using h k hk) []
  have hlines := segments_lines (show [(10 : UInt8)] ≠ [] by decide) _ hclean []
  have hcat : ls.flatMap (· ++ crlf) = (ls.map (· ++ [13])).flatMap (· ++ [10]) ++ [] := by
    simp [List.flatMap_map,crlf]
  have hnil : segments [(10 : UInt8)] [] = ([],[]) := rfl
  rw [getLines,hcat,hlines,hnil]
  simp

theorem withoutReturn_line (l : Bytes) : withoutReturn (l ++ [13]) = l := by
  simp [withoutReturn]

section

variable {inVideo : Bool} {sessionControl line : Bytes} {rest : List Bytes}

theorem scanControls_other (hm : (ascii "m=").isPrefixOf line = false)
    (ha : (ascii "a=control:").isPrefixOf line = false) :
    scanControls inVideo sessionControl ((line ++ [13]) :: rest) = scanControls inVideo sessionControl rest := by
  simp only [scanControls,withoutReturn_line,hm,ha,Bool.false_eq_true,if_false]

end

def sdpLines (channelId : Int) (codec : VideoCodec) (codecFmtp : Bytes) : List Bytes :=
  [ascii "v=0",ascii "o=- 0 0 IN IP4 0.0.0.0",ascii "s=RPi VMS channel " ++ toDecimal channelId,
    ascii "t=0 0",ascii "a=control:*",ascii "m=video 0 RTP/AVP " ++ decimal kPayloadType,
    ascii "a=rtpmap:" ++ decimal kPayloadType ++ ascii " " ++
      (match codec with | .h265 => ascii "H265" | .h264 => ascii "H264") ++ ascii "/90000"] ++
    (if codecFmtp.isEmpty then []
      else [ascii "a=fmtp:" ++ decimal kPayloadType ++ ascii " " ++ codecFmtp]) ++
    [ascii "a=control:trackID=0"]

theorem buildSdp_lines (channelId : Int) (codec : VideoCodec) (codecFmtp : Bytes) :
    buildSdp channelId codec codecFmtp = (sdpLines channelId codec codecFmtp).flatMap (· ++ crlf) := by
  have hv : ascii "v=0\r\n" = ascii "v=0" ++ crlf := rfl
  have ho : ascii "o=- 0 0 IN IP4 0.0.0.0\r\n" = ascii "o=- 0 0 IN IP4 0.0.0.0" ++ crlf := rfl
  have ht : ascii "t=0 0\r\n" = ascii "t=0 0" ++ crlf := rfl
  have hc : ascii "a=control:*\r\n" = ascii "a=control:*" ++ crlf := rfl
  have hr : ascii "/90000\r\n" = ascii "/90000" ++ crlf := rfl
  have hk : ascii "a=control:trackID=0\r\n" = ascii "a=control:trackID=0" ++ crlf := rfl
  unfold buildSdp sdpLines
  rw [hv,ho,ht,hc,hr,hk]
  cases codec <;> cases codecFmtp.isEmpty <;> simp

theorem sdp_control (channelId : Int) (codec : VideoCodec) {codecFmtp : Bytes} (hf : (10 : UInt8) ∉ codecFmtp) :
    findFirstMediaControl (buildSdp channelId codec codecFmtp) = ascii "trackID=0" := by
  have hdigits : ∀ ds : Bytes, ds.all isDigit = true → (10 : UInt8) ∉ ds := fun ds hd hm =>
    absurd (List.all_eq_true.mp hd 10 hm) (by decide)
  have hchannel : (10 : UInt8) ∉ toDecimal channelId := by
    unfold toDecimal
    split
    · simpa using hdigits _ (decimal_all _)
    · exact hdigits _ (decimal_all _)
  have hplain : ∀ l ∈ sdpLines channelId codec codecFmtp, (10 : UInt8) ∉ l := by
    intro l hl
    simp only [sdpLines,List.mem_append,List.mem_cons,List.not_mem_nil,or_false] at hl
    rcases hl with ((rfl | rfl | rfl | rfl | rfl | rfl | rfl) | hl) | rfl
    · decide
    · decide
    · simpa using ⟨by decide,hchannel⟩
    · decide
    · decide
    · decide
    · cases codec <;> decide
    · split at hl
      · simp at hl
      · rw [List.mem_singleton.mp hl]
        simp only [List.mem_append,not_or]
        exact ⟨⟨⟨by decide,by decide⟩,by decide⟩,hf⟩
    · decide
  rw [findFirstMediaControl,buildSdp_lines,getLines_crlf hplain]
  have hlast : scanControls true [] [ascii "a=control:trackID=0" ++ [13]] = ascii "trackID=0" := by decide +kernel
  have hvideo : ∀ tail, scanControls false [] ((ascii "m=video 0 RTP/AVP " ++ decimal kPayloadType ++ [13]) :: tail) =
      scanControls true [] tail := fun tail => rfl
  have hstar : ∀ tail, scanControls false [] ((ascii "a=control:*" ++ [13]) :: tail) = scanControls false [] tail :=
    fun tail => rfl
  have hmap : ∀ tail, scanControls true [] ((ascii "a=rtpmap:" ++ decimal kPayloadType ++ ascii " " ++
      (match codec with | .h265 => ascii "H265" | .h264 => ascii "H264") ++ ascii "/90000" ++ [13]) :: tail) =
      scanControls true [] tail := by
    intro tail
    cases codec <;> exact scanControls_other (by decide +kernel) (by decide +kernel)
  have hfmtp : ∀ tail, scanControls true [] ((ascii "a=fmtp:" ++ decimal kPayloadType ++ ascii " " ++ codecFmtp ++ [13]) ::
      tail) = scanControls true [] tail := fun tail =>
    scanControls_other (isPrefixOf_differs _ (by decide +kernel)) (isPrefixOf_differs _ (by decide +kernel))
  simp only [sdpLines,List.cons_append,List.nil_append,List.map_cons]
  rw [scanControls_other (by decide +kernel) (by decide +kernel),
    scanControls_other (by decide +kernel) (by decide +kernel),
    scanControls_other (isPrefixOf_differs _ (by decide +kernel)) (isPrefixOf_differs _ (by decide +kernel)),
    scanControls_other (by decide +kernel) (by decide +kernel),hstar,hvideo,hmap]
  split
  · exact hlast
  · exact (hfmtp _).trans hlast

def trackUrl (url : Bytes) : Bytes := makeControlUrl url (ascii "trackID=0")

theorem trackUrl_suffix (url : Bytes) :
    ∃ tail, trackUrl url = url ++ tail ∧ tail.length ≤ 10 ∧ (∀ b ∈ tail, isSpace b = false) ∧
      (∀ b ∈ tail, opensQuery b = false) ∧ (tail.head? = some 47 ∨ url.getLast? = some 47) := by
  have hshort : trackUrl url = if url.getLast? = some 47 then url ++ ascii "trackID=0"
      else url ++ ascii "/" ++ ascii "trackID=0" := by
    have hempty : ((ascii "trackID=0").isEmpty || ascii "trackID=0" == ascii "*") = false := by decide +kernel
    have hlocal : ((ascii "rtsp://").isPrefixOf (lowerCopy (ascii "trackID=0")) ||
        (ascii "rtsps://").isPrefixOf (lowerCopy (ascii "trackID=0"))) = false := by decide +kernel
    have hhead : ((ascii "trackID=0").head? = some 47) = False := by decide +kernel
    simp only [trackUrl,makeControlUrl,hempty,hlocal,hhead,Bool.false_eq_true,if_false,decide_false,Bool.or_false,
      decide_eq_true_eq]
  rw [hshort]
  split
  · rename_i hl
    exact ⟨_,rfl,by decide +kernel,by decide +kernel,by decide +kernel,.inr hl⟩
  · exact ⟨ascii "/" ++ ascii "trackID=0",by simp,by decide +kernel,by decide +kernel,by decide +kernel,.inl rfl⟩

theorem namesChannel_extended {path tail : Bytes} {c : Nat} (h : NamesChannel path c)
    (ht : tail.head? = some 47 ∨ path.getLast? = some 47) : NamesChannel (path ++ tail) c := by
  obtain ⟨digits,rest,rfl,hne,hd,hv,hr⟩ := h
  refine ⟨digits,rest ++ tail,by simp,hne,hd,hv,.inr ?_⟩
  rcases hr with rfl | hr
  · rcases ht with ht | ht
    · exact ht
    · -- the last byte would be a digit
      rw [List.append_nil,List.getLast?_append_of_ne_nil _ hne] at ht
      exact absurd (List.all_eq_true.mp hd 47 (List.mem_of_getLast? ht)) (by decide)
  · rw [List.head?_append,hr]
    rfl

theorem parseRtspsUrl_shape {text : Bytes} {url : RtspUrl} (h : parseRtspsUrl text = .ok url) :
    url.base = text ∧ ∃ rest, text = ascii "rtsps://" ++ rest ∧ (47 : UInt8) ∈ rest := by
  unfold parseRtspsUrl at h
  simp only at h
  split at h
  · cases h
  rename_i hs
  obtain ⟨rest,rfl⟩ : ascii "rtsps://" <+: text := by
    simpa [List.isPrefixOf_iff_prefix] using hs
  rw [List.drop_left] at h
  split at h
  · cases h
  rename_i n hn
  have hslash : (47 : UInt8) ∈ rest := by
    by_contra hno
    rw [find_singleton_none.mpr hno] at hn
    cases hn
  have hchecked : ∀ u : RtspUrl, checkUrl u = .ok url → url = u := by
    intro u hu
    unfold checkUrl at hu
    split at hu
    · cases hu
    · exact (Except.ok.inj hu).symm
  refine ⟨?_,rest,rfl,hslash⟩
  unfold readHostPort at h
  split at h
  · split at h
    · cases h
    · rw [hchecked _ h]
  · rw [hchecked _ h]

def rtspsScheme : Origin where
  scheme := ascii "rtsps"
  authority := []
  plain := by decide +kernel

theorem parse_rtsps (rest : Bytes) :
    parsePublicChannelId (ascii "rtsps://" ++ rest) = channelOfPath (upToQuery (fromSlash rest)) := by
  have hfind : find schemeMark (ascii "rtsps://" ++ rest) = some 5 := rtspsScheme.find_mark rest
  rw [parse_marked hfind]
  rfl

theorem fromSlash_append {rest : Bytes} (h : (47 : UInt8) ∈ rest) (tail : Bytes) :
    fromSlash (rest ++ tail) = fromSlash rest ++ tail := by
  induction rest with
  | nil => simp at h
  | cons b rest ih =>
    by_cases hb : b = 47
    · subst hb
      rfl
    · have hskip : ∀ s : Bytes, fromSlash (b :: s) = fromSlash s := fun s => by
        simp [fromSlash,hb]
      rw [List.cons_append,hskip,hskip,ih (by simpa [Ne.symm hb] using h)]

theorem fromSlash_last {rest : Bytes} (h : (47 : UInt8) ∈ rest) :
    (fromSlash rest).getLast? = rest.getLast? ∧ fromSlash rest ≠ [] := by
  induction rest with
  | nil => simp at h
  | cons b rest ih =>
    by_cases hb : b = 47
    · subst hb
      exact ⟨rfl,by simp [fromSlash]⟩
    · have hmem : (47 : UInt8) ∈ rest := by simpa [Ne.symm hb] using h
      have hskip : fromSlash (b :: rest) = fromSlash rest := by simp [fromSlash,hb]
      obtain ⟨hlast,hne⟩ := ih hmem
      refine ⟨?_,by rwa [hskip]⟩
      rw [hskip,hlast,List.getLast?_cons_of_ne_nil (List.ne_nil_of_mem hmem)]

theorem trackUrl_channel {text : Bytes} {url : RtspUrl} (h : parseRtspsUrl text = .ok url)
    (hc : PublicChannel (parsePublicChannelId text)) :
    parsePublicChannelId (trackUrl text) = parsePublicChannelId text := by
  obtain ⟨-,rest,rfl,hslash⟩ := parseRtspsUrl_shape h
  obtain ⟨tail,htrack,-,-,hquery,hend⟩ := trackUrl_suffix (ascii "rtsps://" ++ rest)
  rw [htrack,List.append_assoc,parse_rtsps,parse_rtsps,fromSlash_append hslash]
  rw [parse_rtsps] at hc
  obtain ⟨c,hpath⟩ := Int.eq_ofNat_of_zero_le (show 0 ≤ channelOfPath (upToQuery (fromSlash rest)) by
    have := hc.1
    omega)
  have hrange : 1 ≤ c ∧ c ≤ 4 := by
    obtain ⟨h1,h4⟩ := hc
    omega
  by_cases hq : ∀ b ∈ fromSlash rest, (!opensQuery b) = true
  · -- no query: the track is a further part of the path
    have hall : upToQuery (fromSlash rest) = fromSlash rest := List.takeWhile_eq_self_iff.mpr hq
    have htail : upToQuery (fromSlash rest ++ tail) = fromSlash rest ++ tail := by
      refine List.takeWhile_eq_self_iff.mpr fun b hb => ?_
      rcases List.mem_append.mp hb with hb | hb
      · exact hq b hb
      · simp [hquery b hb]
    rw [hall] at hpath
    rw [htail,hall,hpath]
    refine channelOfPath_named hrange (namesChannel_extended (named_of_channelOfPath hpath) (hend.imp_right fun hl => ?_))
    rw [(fromSlash_last hslash).1,← hl,List.getLast?_append_of_ne_nil _ (List.ne_nil_of_mem hslash)]
  · have hcut : upToQuery (fromSlash rest ++ tail) = upToQuery (fromSlash rest) := by
      unfold upToQuery
      rw [List.takeWhile_append,if_neg]
      intro hl
      refine hq (List.takeWhile_eq_self_iff.mp ?_)
      exact (List.takeWhile_prefix _).eq_of_length hl
    rw [hcut]

end RtspsClient

end RpiVms

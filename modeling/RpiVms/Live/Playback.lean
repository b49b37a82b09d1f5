import RpiVms.Live.Depacketize
import RpiVms.Live.Lifecycle
import RpiVms.Live.ParameterHistory

namespace RpiVms

open Reassembly Runs

section

variable {media : RtpState} {r : SendResult} {mtu : Nat} {call : SendCall} {codec : VideoCodec}

theorem SendSpec.unmarked (h : SendSpec media r) (hpart : r.rtp.length < r.packets.length) :
    ∀ p ∈ r.rtp.map framed, rtpMarker p = false := by
  obtain ⟨timestamp,payloads,hm,hlen,hget⟩ := h.packet
  intro p hp
  obtain ⟨i,hi⟩ := List.mem_iff_getElem?.mp hp
  have hlt := (List.getElem?_eq_some_iff.mp hi).1
  simp only [List.length_map] at hlt
  obtain ⟨payload,marker,hpay,rfl⟩ := hget i p hi
  rw [makeRtpPacket_marker]
  rcases hm with hm | ⟨k,hk⟩
  · simp [hm] at hpay
  · have hflag : (payloads.map (·.2))[i]? = some marker := by simp [hpay]
    have hcount := congrArg List.length hk
    simp only [List.length_map,List.length_append,List.length_replicate,List.length_singleton] at hcount
    rw [hk,List.getElem?_append_left (by simp; omega),List.getElem?_replicate,
      if_pos (by omega)] at hflag
    exact (Option.some.inj hflag).symm

theorem numbered_lossless (hm : 16 ≤ mtu) {nals : List Bytes} {timestamp ssrc : UInt32}
    {sequence : UInt16} (h : ∀ nal ∈ nals, nal ≠ [] ∧ CarriedType codec nal) :
    depacketize codec (((numberPackets timestamp ssrc (markedPayloads codec mtu nals) sequence).1.map
      (·.bytes)).map rtpPayload) = some nals := by
  have hpayloads := numberPackets_payloads timestamp ssrc (markedPayloads codec mtu nals) sequence
  rw [markedPayloads_groups] at hpayloads
  obtain ⟨pieces,groups,hreads,hflat,hcarries⟩ := payloads_carry hm nals h
  rw [List.map_map]
  simp only [Function.comp_def]
  rw [hpayloads,depacketize,readPayloads_of_reads hreads,hflat]
  exact reassemble_carried hcarries

theorem sendFrame_packets (hb : holdsBack media call.frame = false) :
    (sendFrame mtu media call).packets = [] ∨ 16 ≤ mtu ∧ ∃ timestamp ssrc sequence,
      (sendFrame mtu media call).packets = (numberPackets timestamp ssrc
        (markedPayloads call.frame.codec mtu (accessUnitNals media call.sets call.frame)) sequence).1 := by
  unfold sendFrame packetizeAccessUnit
  rw [hb]
  by_cases hm : mtu ≤ 15
  · simp [hm]
  · simp only [Bool.false_eq_true,if_false,hm]
    exact .inr ⟨by omega,_,_,_,(sendPackets_kept _ _).2⟩

theorem sendFrame_reads (hb : holdsBack media call.frame = false)
    (hall : (sendFrame mtu media call).rtp.length = (sendFrame mtu media call).packets.length)
    (hne : (sendFrame mtu media call).rtp ≠ [])
    (hc : ∀ nal ∈ accessUnitNals media call.sets call.frame, CarriedType call.frame.codec nal) :
    depacketize call.frame.codec (((sendFrame mtu media call).rtp.map framed).map rtpPayload) =
      some (accessUnitNals media call.sets call.frame) := by
  have hwritten := (sendFrame_spec mtu media call).written
  rw [hall,List.take_length] at hwritten
  rcases @sendFrame_packets media mtu call hb with hnone | ⟨hm,timestamp,ssrc,sequence,hp⟩
  · exact absurd (List.eq_nil_of_length_eq_zero (by rw [hall,hnone]; rfl)) hne
  · rw [hwritten,hp]
    exact numbered_lossless hm fun nal hn => ⟨accessUnitNals_ne_nil media call.sets call.frame nal hn,hc nal hn⟩

end

theorem ParameterKind.carries_type {kind : ParameterKind} {nal : Bytes} (h : kind.carries nal = true) :
    CarriedType kind.codec nal := by
  cases nal with
  | nil => cases h
  | cons first rest =>
    cases kind with
    | h264Sps | h264Pps =>
      have hn : (first &&& 0x1f).toNat = _ := beq_iff_eq.mp h
      exact ⟨UInt8.le_iff_toNat_le.mpr (by simp [hn,nalType]),UInt8.le_iff_toNat_le.mpr (by simp [hn,nalType])⟩
    | h265Vps | h265Sps | h265Pps =>
      obtain ⟨hr,hn⟩ := Bool.and_eq_true_iff.mp h
      have hn : ((first >>> 1) &&& 0x3f).toNat = _ := beq_iff_eq.mp hn
      have hr : 0 < rest.length := List.length_pos_iff.mpr (by simpa using hr)
      exact ⟨UInt8.le_iff_toNat_le.mpr (by simp [hn,nalType]),Nat.succ_le_succ hr⟩

def sentResult (c : Nat) : ServerEvent → Option (LiveFrame × SendResult)
  | .session d (.sent f result) => if d = c then some (f,result) else none
  | _ => none

def rtpReceived (c : Nat) (h : List ServerEvent) : List Bytes :=
  (h.filterMap (sentResult c)).flatMap fun e => e.2.rtp.map framed

def shownFrame (e : LiveFrame × SendResult) : Option LiveFrame :=
  if e.2.rtp ≠ [] ∧ e.2.rtp.length = e.2.packets.length then some e.1 else none

def shownFrames (c : Nat) (h : List ServerEvent) : List LiveFrame :=
  (h.filterMap (sentResult c)).filterMap shownFrame

-- a receiver takes the packets up to a marker for one access unit
def accessUnits (packets : List Bytes) : List (List Bytes) := (groups rtpMarker [] packets).1

structure Shows (config : LiveRtspServerConfig) (h : List ServerEvent) (first : Bool)
    (packets : List Bytes) (f : LiveFrame) : Prop where
  stamped : ∃ timestamp, ∀ p ∈ packets, rtpTimestamp p = timestamp
  reads : ∃ sets : List Bytes, (first = false → sets = []) ∧
    (∀ nal ∈ sets, ∃ kind : ParameterKind, ∃ g ∈ acceptedFrames config f.frame.channelId h,
      nal ∈ kind.carriedBy g.frame) ∧
    ((∀ nal ∈ splitAccessUnit f.frame.data, CarriedType f.frame.codec nal) →
      depacketize f.frame.codec (packets.map rtpPayload) = some (sets ++ splitAccessUnit f.frame.data))

inductive Sends (config : LiveRtspServerConfig) (sets : Int → ParameterSets) (x : Session) :
    List SessionEvent → Session → Prop
  | nothing {events : List SessionEvent} {y : Session} (unsent : ∀ f result, .sent f result ∉ events) (rtp : y.rtp = x.rtp) :
      Sends config sets x events y
  | frame (f : LiveFrame) (writeOk : Nat → Bool) (now wall : Int) (point : x.point = .sending f)
      (passes : holdsBack x.rtp f.frame = false) :
      Sends config sets x (sendStep config sets x f writeOk now wall).1
        (sendStep config sets x f writeOk now wall).2

structure Viewed (config : LiveRtspServerConfig) (c : Nat) (h : List ServerEvent) (s : Server) : Prop where
  counted : (accessUnits (rtpReceived c h)).length = (shownFrames c h).length
  shows : ∀ i packets f, (accessUnits (rtpReceived c h))[i]? = some packets →
    (shownFrames c h)[i]? = some f → Shows config h (i == 0) packets f
  whole : (groups rtpMarker [] (rtpReceived c h)).2 = [] ∨
    ∀ x, s.sessions[c]? = some x → x.hungUp = true
  gate : ∀ x, s.sessions[c]? = some x → x.rtp.waitingForKeyframe = true → shownFrames c h = []

section

variable {config : LiveRtspServerConfig} {running : Bool} {sets : Int → ParameterSets} {x y : Session}
  {action : SessionAction} {events : List SessionEvent} {s t : Server} {a : ServerAction}
  {h ev : List ServerEvent} {c : Nat}

theorem session_sends (hs : sessionStep config running sets x action = some (events,y)) :
    Sends config sets x events y := by
  cases (sessionStep_move hs).move with
  | quiet _ hm => exact .nothing (by simp) hm.rtp
  | rejected _ hm => exact .nothing (by simp) hm.rtp
  | replied _ _ _ _ _ _ _ _ _ hm => exact .nothing (by simp) hm.rtp
  | stored _ hm => exact .nothing (by simp) hm.rtp
  | popped _ _ hr => exact .nothing (by simp) hr
  | heldBack _ _ hr => exact .nothing (by simp) hr
  | closed _ hr => exact .nothing (by simp) hr
  | sent f result _ _ _ hf hb =>
    have hp : x.point = .sending f := by
      unfold Session.inFlight at hf
      split at hf
      · rename_i frame hp
        rw [hp,List.cons.inj hf |>.1]
      · cases hf
    cases action with
    | send writeOk now wall =>
      simp only [sessionStep,hp,Option.some.injEq] at hs
      have hframe := @Sends.frame config sets x f writeOk now wall hp hb
      rwa [hs] at hframe
    | connect | poll | extract | advance => simp [sessionStep,hp] at hs

theorem sentResult_silent (hev : ∀ f result, .session c (.sent f result) ∉ ev) :
    ev.filterMap (sentResult c) = [] := by
  rw [List.filterMap_eq_nil_iff]
  intro e he
  cases e with
  | session d event =>
    cases event with
    | sent f result =>
      have hd : d ≠ c := fun hd => hev f result (hd ▸ he)
      simp [sentResult,hd]
    | replied _ _ _ _ => rfl
    | rejected => rfl
  | passed _ => rfl
  | chosen _ _ => rfl
  | queued _ _ => rfl

theorem Shows.mono {first : Bool} {packets : List Bytes} {f : LiveFrame}
    (hs : Shows config h first packets f) : Shows config (h ++ ev) first packets f := by
  obtain ⟨hstamped,sets,hfirst,hsets,hreads⟩ := hs
  refine ⟨hstamped,sets,hfirst,fun nal hn => ?_,hreads⟩
  obtain ⟨kind,g,hg,hcarried⟩ := hsets nal hn
  exact ⟨kind,g,by rw [acceptedFrames_append]; exact List.mem_append_left _ hg,hcarried⟩

theorem Viewed.quiet (hi : Viewed config c h s) (hev : ∀ f result, .session c (.sent f result) ∉ ev)
    (hwhole : (∀ x, s.sessions[c]? = some x → x.hungUp = true) →
      ∀ y, t.sessions[c]? = some y → y.hungUp = true)
    (hgate : ∀ y, t.sessions[c]? = some y → y.rtp.waitingForKeyframe = true → shownFrames c h = []) :
    Viewed config c (h ++ ev) t := by
  have hsame : (h ++ ev).filterMap (sentResult c) = h.filterMap (sentResult c) := by
    rw [List.filterMap_append,sentResult_silent hev,List.append_nil]
  have hreceived : rtpReceived c (h ++ ev) = rtpReceived c h := by rw [rtpReceived,hsame,rtpReceived]
  have hshown : shownFrames c (h ++ ev) = shownFrames c h := by rw [shownFrames,hsame,shownFrames]
  refine ⟨?_,?_,?_,?_⟩
  · rw [hreceived,hshown]
    exact hi.counted
  · intro i packets f hp hf
    rw [hreceived] at hp
    rw [hshown] at hf
    exact (hi.shows i packets f hp hf).mono
  · rw [hreceived]
    exact hi.whole.imp_right hwhole
  · rw [hshown]
    exact hgate

theorem prepended_carried (hs : Shelved config h s) (ch : Int) (codec : VideoCodec) {nal : Bytes}
    (hn : nal ∈ (parameterSets (s.parameterSets ch) codec).filter (!·.isEmpty)) :
    CarriedType codec nal ∧
      ∃ kind : ParameterKind, ∃ g ∈ acceptedFrames config ch h, nal ∈ kind.carriedBy g.frame := by
  rw [prepended_of (hs ch) (fun kind nal hl =>
    ParameterKind.carries_ne_nil (ParameterKind.carries_lastCarried hl)) codec] at hn
  obtain ⟨kind,hk,hlast⟩ := List.mem_filterMap.mp hn
  have hcodec := ParameterKind.ofCodec_codec codec kind hk
  refine ⟨hcodec ▸ ParameterKind.carries_type (ParameterKind.carries_lastCarried hlast),kind,?_⟩
  obtain ⟨g,hg,hmem⟩ := List.mem_flatMap.mp (List.mem_of_getLast? hlast)
  exact ⟨g,hg,hmem⟩

theorem send_shows (hs : Shelved config h s) {f : LiveFrame} {writeOk : Nat → Bool} {now wall : Int}
    (hb : holdsBack x.rtp f.frame = false) {first : Bool}
    (hfirst : first = false → x.rtp.waitingForKeyframe = false)
    (hall : (sendFrame config.rtpMtu x.rtp (sendCall s.parameterSets x f writeOk now wall)).rtp.length =
      (sendFrame config.rtpMtu x.rtp (sendCall s.parameterSets x f writeOk now wall)).packets.length)
    (hne : (sendFrame config.rtpMtu x.rtp (sendCall s.parameterSets x f writeOk now wall)).rtp ≠ []) :
    Shows config h first
      ((sendFrame config.rtpMtu x.rtp (sendCall s.parameterSets x f writeOk now wall)).rtp.map framed) f := by
  have hspec := sendFrame_spec config.rtpMtu x.rtp (sendCall s.parameterSets x f writeOk now wall)
  obtain ⟨timestamp,hstamp⟩ := hspec.oneTimestamp
  refine ⟨⟨timestamp,by simpa using hstamp⟩,
    if x.rtp.waitingForKeyframe then
      (parameterSets (s.parameterSets f.frame.channelId) f.frame.codec).filter (!·.isEmpty) else [],
    fun hf => if_neg (by simp [hfirst hf]),fun nal hn => ?_,fun hcarried => ?_⟩
  · split at hn
    · exact (prepended_carried hs _ _ hn).2
    · cases hn
  · refine sendFrame_reads hb hall hne fun nal hn => ?_
    rcases List.mem_append.mp hn with hn | hn
    · split at hn
      · exact (prepended_carried hs _ _ hn).1
      · cases hn
    · exact hcarried nal hn

theorem groups_endsOnce {packets : List Bytes} (h : EndsOnce (packets.map rtpMarker)) :
    groups rtpMarker [] packets = ([packets],[]) := by
  obtain ⟨k,hk⟩ := h
  obtain ⟨body,last,rfl,hbody,hlast⟩ := List.map_eq_append_iff.mp hk
  obtain ⟨p,rfl,hp⟩ := List.map_eq_singleton_iff.mp hlast
  refine groups_marked (fun q hq => ?_) hp
  exact (List.mem_replicate.mp (hbody ▸ List.mem_map_of_mem hq)).2

theorem received_groups {media : RtpState} {r : SendResult} (hs : SendSpec media r) :
    r.rtp = [] ∨ (r.rtp.length = r.packets.length ∧ r.rtp ≠ [] ∧
        groups rtpMarker [] (r.rtp.map framed) = ([r.rtp.map framed],[])) ∨
      (r.rtp.length ≠ r.packets.length ∧ r.outcome ≠ .sent ∧
        (groups rtpMarker [] (r.rtp.map framed)).1 = []) := by
  by_cases hall : r.rtp.length = r.packets.length
  · rcases hs.markers hall with hnil | hends
    · exact .inl hnil
    · by_cases hnil : r.rtp = []
      · exact .inl hnil
      · exact .inr (.inl ⟨hall,hnil,groups_endsOnce (by simpa [Function.comp_def] using hends)⟩)
  · have hle : r.rtp.length ≤ r.packets.length := by
      have := congrArg List.length hs.written
      simp only [List.length_map,List.length_take] at this
      omega
    refine .inr (.inr ⟨hall,fun hsent => hall (hs.complete hsent).1,?_⟩)
    rw [groups_unmarked (hs.unmarked (by omega))]

variable {f : LiveFrame} {r : SendResult}

theorem results_snoc : (h ++ [ServerEvent.session c (.sent f r)]).filterMap (sentResult c) =
    h.filterMap (sentResult c) ++ [(f,r)] := by
  simp [sentResult]

theorem shown_snoc : shownFrames c (h ++ [.session c (.sent f r)]) =
    shownFrames c h ++ (shownFrame (f,r)).toList := by
  rw [shownFrames,results_snoc,List.filterMap_append]
  rfl

theorem units_snoc (hopen : (groups rtpMarker [] (rtpReceived c h)).2 = []) :
    groups rtpMarker [] (rtpReceived c (h ++ [.session c (.sent f r)])) =
      (accessUnits (rtpReceived c h) ++ (groups rtpMarker [] (r.rtp.map framed)).1,
        (groups rtpMarker [] (r.rtp.map framed)).2) := by
  have hreceived : rtpReceived c (h ++ [.session c (.sent f r)]) = rtpReceived c h ++ r.rtp.map framed := by
    rw [rtpReceived,results_snoc,List.flatMap_append]
    simp [rtpReceived]
  rw [hreceived,groups_append,hopen]
  rfl

structure Sent (c : Nat) (t : Server) (r : SendResult) (y : Session) : Prop where
  session : t.sessions[c]? = some y
  opened : y.rtp.waitingForKeyframe = false
  fails : r.outcome ≠ .sent → y.hungUp = true

theorem Sent.gate (hy : Sent c t r y) {shown : List LiveFrame} :
    ∀ z, t.sessions[c]? = some z → z.rtp.waitingForKeyframe = true → shown = [] := by
  intro z hz hw
  obtain rfl := Option.some.inj (hy.session.symm.trans hz)
  rw [hy.opened] at hw
  cases hw

theorem Viewed.unseen (hi : Viewed config c h s) (hy : Sent c t r y)
    (hopen : (groups rtpMarker [] (rtpReceived c h)).2 = []) (hnone : shownFrame (f,r) = none)
    (hunit : (groups rtpMarker [] (r.rtp.map framed)).1 = [])
    (hrest : (groups rtpMarker [] (r.rtp.map framed)).2 = [] ∨ r.outcome ≠ .sent) :
    Viewed config c (h ++ [.session c (.sent f r)]) t where
  counted := by
    rw [accessUnits,units_snoc hopen,hunit,shown_snoc,hnone]
    simpa using hi.counted
  shows := by
    intro i packets g hpackets hg
    rw [accessUnits,units_snoc hopen,hunit,List.append_nil] at hpackets
    rw [shown_snoc,hnone,Option.toList_none,List.append_nil] at hg
    exact (hi.shows i packets g hpackets hg).mono
  whole := by
    rw [units_snoc hopen]
    refine hrest.imp_right fun ho z hz => ?_
    obtain rfl := Option.some.inj (hy.session.symm.trans hz)
    exact hy.fails ho
  gate := hy.gate

theorem Viewed.seen (hi : Viewed config c h s) (hy : Sent c t r y)
    (hopen : (groups rtpMarker [] (rtpReceived c h)).2 = []) (hsome : shownFrame (f,r) = some f)
    (hunit : groups rtpMarker [] (r.rtp.map framed) = ([r.rtp.map framed],[]))
    (hshows : Shows config h ((shownFrames c h).length == 0) (r.rtp.map framed) f) :
    Viewed config c (h ++ [.session c (.sent f r)]) t where
  counted := by
    rw [accessUnits,units_snoc hopen,hunit,shown_snoc,hsome]
    simp [hi.counted]
  shows := by
    intro i packets g hpackets hg
    rw [accessUnits,units_snoc hopen,hunit] at hpackets
    rw [shown_snoc,hsome,Option.toList_some] at hg
    by_cases hlt : i < (shownFrames c h).length
    · rw [List.getElem?_append_left (by rw [hi.counted]; exact hlt)] at hpackets
      rw [List.getElem?_append_left hlt] at hg
      exact (hi.shows i packets g hpackets hg).mono
    · have hlast := (List.getElem?_eq_some_iff.mp hg).1
      simp only [List.length_append,List.length_singleton] at hlast
      obtain rfl : i = (shownFrames c h).length := by omega
      rw [List.getElem?_concat_length] at hg
      rw [← hi.counted,List.getElem?_concat_length] at hpackets
      cases hg
      cases hpackets
      exact hshows.mono
  whole := by
    rw [units_snoc hopen,hunit]
    exact .inl rfl
  gate := hy.gate

theorem Viewed.sends (hi : Viewed config c h s) (hs : Shelved config h s) {writeOk : Nat → Bool}
    {now wall : Int} (hx : s.sessions[c]? = some x) (hp : x.point = .sending f)
    (hb : holdsBack x.rtp f.frame = false)
    (hy : t.sessions[c]? = some (sendStep config s.parameterSets x f writeOk now wall).2) :
    Viewed config c (h ++ [.session c (.sent f
      (sendFrame config.rtpMtu x.rtp (sendCall s.parameterSets x f writeOk now wall)))]) t := by
  have hsent : Sent c t (sendFrame config.rtpMtu x.rtp (sendCall s.parameterSets x f writeOk now wall))
      (sendStep config s.parameterSets x f writeOk now wall).2 :=
    ⟨hy,sendFrame_opens config.rtpMtu hb,fun ho => by simp [sendStep,ho,Session.hungUp]⟩
  have hopen : (groups rtpMarker [] (rtpReceived c h)).2 = [] := by
    refine hi.whole.resolve_right fun hall => ?_
    have := hall x hx
    simp [Session.hungUp,hp] at this
  rcases received_groups (sendFrame_spec config.rtpMtu x.rtp (sendCall s.parameterSets x f writeOk now wall)) with
    hnil | ⟨hall,hne,hg⟩ | ⟨hpart,ho,hg⟩
  · exact hi.unseen hsent hopen (by simp [shownFrame,hnil]) (by simp [hnil,groups])
      (.inl (by simp [hnil,groups]))
  · refine hi.seen hsent hopen (if_pos ⟨hne,hall⟩) hg (send_shows hs hb (fun hlater => ?_) hall hne)
    by_contra hw
    have hnone := hi.gate x hx (by simpa using hw)
    simp [hnone] at hlater
  · exact hi.unseen hsent hopen (if_neg fun hc => hpart hc.2) hg (.inr ho)

theorem unknown_unshown (hd : DeliveryInv config h s.core) (hc : s.sessions.length ≤ c) :
    rtpReceived c h = [] ∧ shownFrames c h = [] := by
  have hnone : h.filterMap (sentResult c) = [] :=
    sentResult_silent fun f r he => absurd (hd.known c _ he) (by simpa [Server.core] using hc)
  simp [rtpReceived,shownFrames,hnone]

theorem Viewed.own {action : SessionAction} (hsets : Shelved config h s) (hi : Viewed config c h s)
    (hs : s.step config (.session c action) = some (ev,t)) : Viewed config c (h ++ ev) t := by
  obtain ⟨x,-,-,hx,-,-⟩ := session_sessions hs
  obtain ⟨events,y,hstep,rfl,hy,-⟩ := stepSession_own hs hx
  have hstays := fun hhung => hungUp_stays hstep hhung
  cases session_sends hstep with
  | nothing hunsent hrtp =>
    refine hi.quiet (fun f r he => ?_) (fun hall z hz => ?_) (fun z hz hw => ?_)
    · obtain ⟨e,he,heq⟩ := List.mem_map.mp he
      cases heq
      exact hunsent f r he
    · obtain rfl := Option.some.inj (hy.symm.trans hz)
      exact hstays (hall x hx)
    · obtain rfl := Option.some.inj (hy.symm.trans hz)
      exact hi.gate x hx (hrtp ▸ hw)
  | frame f writeOk now wall hp hb =>
    have hevents : (sendStep config s.parameterSets x f writeOk now wall).1 = [.sent f
        (sendFrame config.rtpMtu x.rtp (sendCall s.parameterSets x f writeOk now wall))] := by
      simp [sendStep,hb]
    rw [hevents]
    exact hi.sends hsets hx hp hb hy

theorem session_event {k k' : Core} {e : SessionEvent} (hm : CoreMove config k a ev k')
    (he : .session c e ∈ ev) : ∃ action, a = .session c action := by
  cases hm with
  | session _ _ _ =>
    obtain ⟨_,-,heq⟩ := List.mem_map.mp he
    cases heq
    exact ⟨_,rfl⟩
  | pushed _ _ => exact absurd he (queued_silent e)
  | _ => simp at he

theorem Viewed.beside (hd : DeliveryInv config h s.core) (hi : Viewed config c h s)
    (hs : s.step config a = some (ev,t)) (ha : ∀ action, a ≠ .session c action) :
    Viewed config c (h ++ ev) t := by
  by_cases hc : c < s.sessions.length
  · have hx := List.getElem?_eq_getElem hc
    obtain ⟨hsilent,queue,hy⟩ := step_beside hs ha hx
    refine hi.quiet (fun f r => hsilent _) (fun hall z hz => ?_) (fun z hz hw => ?_)
    · obtain rfl := Option.some.inj (hy.symm.trans hz)
      exact hall s.sessions[c] hx
    · obtain rfl := Option.some.inj (hy.symm.trans hz)
      exact hi.gate s.sessions[c] hx hw
  · have hnone : ∀ f r, .session c (.sent f r) ∉ ev := fun f r he => by
      obtain ⟨action,rfl⟩ := session_event (step_move hs) he
      exact ha action rfl
    obtain ⟨hreceived,hshown⟩ := unknown_unshown hd (not_lt.mp hc)
    have hsame : (h ++ ev).filterMap (sentResult c) = h.filterMap (sentResult c) := by
      rw [List.filterMap_append,sentResult_silent hnone,List.append_nil]
    rw [rtpReceived] at hreceived
    rw [shownFrames] at hshown
    refine ⟨?_,?_,.inl ?_,fun _ _ _ => ?_⟩ <;>
      simp [rtpReceived,shownFrames,hsame,hreceived,hshown,accessUnits,groups]

theorem sentFrames_results (c : Nat) (h : List ServerEvent) :
    sentFrames c h = (h.filterMap (sentResult c)).map (·.1) := by
  rw [List.map_filterMap]
  refine List.filterMap_congr fun e _ => ?_
  cases e with
  | session d event =>
    cases event with
    | sent f result => by_cases hd : d = c <;> simp [sentFrame,sentResult,hd]
    | replied _ _ _ _ => rfl
    | rejected => rfl
  | passed _ => rfl
  | chosen _ _ => rfl
  | queued _ _ => rfl

example : (shownFrames 0 (serverRun (oneChannel 30)
    (joining ++ passing true ++ sending ++ passing false ++ sending)).1).map (·.serial) = [0,1] := by
  decide +kernel

end

end RpiVms

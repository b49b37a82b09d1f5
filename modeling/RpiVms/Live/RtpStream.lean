import RpiVms.Live.Media

namespace RpiVms

def framed (wire : Bytes) : Bytes := wire.drop 4

def payloadBytes (packets : List Bytes) : Nat := (packets.map fun p => (rtpPayload p).length).sum

def reportPacketCount (report : Bytes) : Nat := BigEndian.decode ((report.drop 20).take 4)

def reportOctetCount (report : Bytes) : Nat := BigEndian.decode ((report.drop 24).take 4)

def writtenPackets (results : List SendResult) : List Bytes :=
  results.flatMap fun r => r.rtp.map framed

theorem interleaved_framed {channel : Int} {packet wire : Bytes}
    (h : interleaved channel packet = .ok wire) : framed wire = packet := by
  unfold interleaved at h
  split at h
  · cases h
  · cases h
    rfl

theorem report_counts (media : RtpState) (rtpTimestamp : UInt32) (wall : Int) :
    reportPacketCount (makeRtcpSenderReport media rtpTimestamp wall) =
      media.packetCount.toNat % 2 ^ 32 ∧
    reportOctetCount (makeRtcpSenderReport media rtpTimestamp wall) =
      media.octetCount.toNat % 2 ^ 32 := by
  simp only [makeRtcpSenderReport,appendU16_eq,appendU32_eq]
  constructor
  · rw [reportPacketCount,List.append_assoc _ _ (BigEndian.encode 4 media.octetCount.toUInt32.toNat),
      List.drop_left' (by simp),List.take_left' (by simp),BigEndian.decode_encode]
    simp
  · rw [reportOctetCount,List.drop_left' (by simp),List.take_of_length_le (by simp),
      BigEndian.decode_encode]
    simp

structure WriteSpec (packets : List RtpPacket) (media : RtpState) (run : WriteRun) : Prop where
  written : run.written.map framed = (packets.take run.written.length).map (·.bytes)
  media_eq : run.media = { media with
    packetCount := media.packetCount + UInt64.ofNat run.written.length
    octetCount := media.octetCount + UInt64.ofNat (payloadBytes (run.written.map framed)) }
  complete : run.outcome = .sent → run.written.length = packets.length

theorem writeSpec_none (packets : List RtpPacket) (media : RtpState) {outcome : SendOutcome}
    (h : outcome = .sent → packets = []) : WriteSpec packets media ⟨media,[],outcome⟩ where
  written := by simp
  media_eq := by simp [payloadBytes]
  complete := fun ho => by simp [h ho]

theorem ofNat_step (c : UInt64) (n m : Nat) :
    c + UInt64.ofNat n + UInt64.ofNat m = c + UInt64.ofNat (n + m) := by
  rw [UInt64.ofNat_add,UInt64.add_assoc]

theorem writePackets_spec (writeOk : Nat → Bool) (channel : Int) (packets : List RtpPacket) (n : Nat)
    (media : RtpState) :
    WriteSpec packets media (writePackets writeOk channel n packets media) := by
  induction packets generalizing n media with
  | nil => exact writeSpec_none [] media fun _ => rfl
  | cons packet rest ih =>
    rw [writePackets]
    split
    · exact writeSpec_none _ media fun h => by cases h
    · rename_i wire hw
      split
      · have hf := interleaved_framed hw
        have hs := ih (n + 1) { media with
          packetCount := media.packetCount + 1
          octetCount := media.octetCount + UInt64.ofNat (packet.bytes.length - 12) }
        generalize writePackets writeOk channel (n + 1) rest { media with
          packetCount := media.packetCount + 1
          octetCount := media.octetCount + UInt64.ofNat (packet.bytes.length - 12) } = run at hs
        refine ⟨?_,?_,?_⟩
        · simp [hs.written,hf]
        · have hone : media.packetCount + 1 = media.packetCount + UInt64.ofNat 1 := rfl
          simp only [hs.media_eq,hone,ofNat_step,List.map_cons,List.length_cons,hf,payloadBytes,
            List.sum_cons,rtpPayload,List.length_drop,Nat.add_comm 1]
        · intro ho
          simpa using hs.complete ho
      · exact writeSpec_none _ media fun h => by cases h

def UnitPackets (media : RtpState) (packets : List RtpPacket) : Prop :=
  ∃ timestamp payloads, packets = (numberPackets timestamp media.ssrc payloads media.sequence).1 ∧
    (payloads = [] ∨ EndsOnce (payloads.map (·.2)))

def ReportsCounts (media : RtpState) (wires : List Bytes) : Prop :=
  ∀ wire ∈ wires, reportPacketCount (framed wire) = media.packetCount.toNat % 2 ^ 32 ∧
    reportOctetCount (framed wire) = media.octetCount.toNat % 2 ^ 32

structure SendSpec (media : RtpState) (r : SendResult) : Prop where
  written : r.rtp.map framed = (r.packets.take r.rtp.length).map (·.bytes)
  numbered : UnitPackets media r.packets
  ssrc : r.media.ssrc = media.ssrc
  packetCount : r.media.packetCount = media.packetCount + UInt64.ofNat r.rtp.length
  octetCount : r.media.octetCount =
    media.octetCount + UInt64.ofNat (payloadBytes (r.rtp.map framed))
  complete : r.outcome = .sent → r.rtp.length = r.packets.length ∧
    r.media.sequence = media.sequence + UInt16.ofNat r.rtp.length
  reports : ReportsCounts r.media r.rtcp

theorem frameTimestamp_media (media : RtpState) (frame : OwnedLiveFrame) :
    ∃ first last, (frameTimestamp media frame).2 =
      { media with firstPtsNs := first, lastTimestamp := last } := by
  unfold frameTimestamp
  split
  · exact ⟨_,_,rfl⟩
  · exact ⟨_,_,rfl⟩

theorem accessUnitNals_ne_nil (media : RtpState) (sets : ParameterSets) (frame : OwnedLiveFrame) :
    ∀ nal ∈ accessUnitNals media sets frame, nal ≠ [] := by
  intro nal hm
  rcases List.mem_append.mp hm with hm | hm
  · split at hm
    · simpa using (List.mem_filter.mp hm).2
    · simp at hm
  · exact splitAccessUnit_ne_nil _ nal hm

section

variable {media sent : RtpState} {call : SendCall} {timestamp : UInt32} {packets : List RtpPacket}
  {run : WriteRun}

structure Prepared (media : RtpState) (packets : List RtpPacket) (sent : RtpState) : Prop where
  unit : UnitPackets media packets
  ssrc : sent.ssrc = media.ssrc
  packetCount : sent.packetCount = media.packetCount
  octetCount : sent.octetCount = media.octetCount
  sequence : sent.sequence = media.sequence + UInt16.ofNat packets.length

theorem sendSpec_of_write (hp : Prepared media packets sent) (hw : WriteSpec packets sent run)
    {outcome : SendOutcome} (ho : outcome = .sent → run.outcome = .sent) {rtcp : List Bytes}
    (hr : ReportsCounts run.media rtcp) (last : Int) (first : Bool) :
    SendSpec media ⟨{ run.media with firstRtpSent := first, lastRtcp := last },packets,run.written,
      rtcp,outcome⟩ := by
  refine ⟨hw.written,hp.unit,?_,?_,?_,fun hs => ⟨hw.complete (ho hs),?_⟩,hr⟩
  · simp [hw.media_eq,hp.ssrc]
  · simp [hw.media_eq,hp.packetCount]
  · simp [hw.media_eq,hp.octetCount]
  · simp [hw.media_eq,hp.sequence,hw.complete (ho hs)]

theorem sendReport_spec (hp : Prepared media packets sent) (hw : WriteSpec packets sent run)
    (hout : run.outcome = .sent) (first : Bool) :
    SendSpec media (sendReport call timestamp packets run.written
      { run.media with firstRtpSent := first }) := by
  have hnone : ReportsCounts run.media [] := by simp [ReportsCounts]
  unfold sendReport
  split
  · split
    · exact sendSpec_of_write hp hw (fun _ => hout) hnone run.media.lastRtcp first
    · rename_i wire hwire
      have hone : ReportsCounts run.media [wire] := by
        simp only [ReportsCounts,List.mem_singleton,forall_eq]
        rw [interleaved_framed hwire]
        exact report_counts _ _ _
      split
      · exact sendSpec_of_write hp hw (fun _ => hout) hone call.now first
      · exact sendSpec_of_write hp hw (fun _ => hout) hnone run.media.lastRtcp first
  · exact sendSpec_of_write hp hw (fun _ => hout) hnone run.media.lastRtcp first

theorem sendPackets_spec (hp : Prepared media packets sent) :
    SendSpec media (sendPackets call timestamp packets sent) := by
  have hw := writePackets_spec call.writeOk call.rtpChannel packets 0 sent
  have hnone (m : RtpState) : ReportsCounts m [] := by simp [ReportsCounts]
  unfold sendPackets
  generalize writePackets call.writeOk call.rtpChannel 0 packets sent = run at hw
  cases hout : run.outcome with
  | sent =>
    simp only [hout]
    split
    · exact sendReport_spec hp hw hout run.media.firstRtpSent
    · exact sendReport_spec hp hw hout true
  | writeFailed =>
    simp only [hout]
    exact sendSpec_of_write hp hw (fun h => by cases h) (hnone _) run.media.lastRtcp
      run.media.firstRtpSent
  | threw message =>
    simp only [hout]
    exact sendSpec_of_write hp hw (fun h => by cases h) (hnone _) run.media.lastRtcp
      run.media.firstRtpSent

end

theorem sendSpec_quiet {media after : RtpState} {outcome : SendOutcome} (hssrc : after.ssrc = media.ssrc)
    (hcount : after.packetCount = media.packetCount ∧ after.octetCount = media.octetCount)
    (hseq : after.sequence = media.sequence) : SendSpec media ⟨after,[],[],[],outcome⟩ where
  written := by simp
  numbered := ⟨0,[],rfl,.inl rfl⟩
  ssrc := hssrc
  packetCount := by simp [hcount.1]
  octetCount := by simp [hcount.2,payloadBytes]
  complete := fun _ => by simp [hseq]
  reports := by simp [ReportsCounts]

theorem sendFrame_spec (mtu : Nat) (media : RtpState) (call : SendCall) :
    SendSpec media (sendFrame mtu media call) := by
  unfold sendFrame
  split
  · exact sendSpec_quiet rfl ⟨rfl,rfl⟩ rfl
  obtain ⟨first,last,hm⟩ := frameTimestamp_media { media with waitingForKeyframe := false } call.frame
  simp only [hm]
  generalize (frameTimestamp { media with waitingForKeyframe := false } call.frame).1 = timestamp
  have hne := accessUnitNals_ne_nil media call.sets call.frame
  generalize accessUnitNals media call.sets call.frame = nals at hne
  unfold packetizeAccessUnit
  by_cases hmtu : mtu ≤ 15
  · rw [if_pos hmtu]
    exact sendSpec_quiet rfl ⟨rfl,rfl⟩ rfl
  · rw [if_neg hmtu]
    simp only
    refine sendPackets_spec ⟨⟨timestamp,markedPayloads call.frame.codec mtu nals,rfl,?_⟩,rfl,rfl,rfl,?_⟩
    · by_cases hn : nals = []
      · exact .inl (by rw [hn]; rfl)
      · exact .inr (markedPayloads_ends _ (by omega) nals hn hne)
    · rw [numberPackets_next,numberPackets_length]

theorem SendSpec.packet {media : RtpState} {r : SendResult} (h : SendSpec media r) :
    ∃ (timestamp : UInt32) (payloads : List (Bytes × Bool)),
      (payloads = [] ∨ EndsOnce (payloads.map (·.2))) ∧ r.packets.length = payloads.length ∧
      ∀ i p, (r.rtp.map framed)[i]? = some p → ∃ payload marker,
        payloads[i]? = some (payload,marker) ∧
        p = makeRtpPacket payload marker (media.sequence + UInt16.ofNat i) timestamp media.ssrc := by
  obtain ⟨timestamp,payloads,hp,hm⟩ := h.numbered
  refine ⟨timestamp,payloads,hm,by rw [hp,numberPackets_length],fun i p hi => ?_⟩
  rw [h.written,List.getElem?_map,Option.map_eq_some_iff] at hi
  obtain ⟨packet,hget,rfl⟩ := hi
  have hi : r.packets[i]? = some packet := by
    rw [List.getElem?_take] at hget
    split at hget
    · exact hget
    · cases hget
  have hlen : i < payloads.length := by
    rw [← numberPackets_length timestamp media.ssrc payloads media.sequence,← hp]
    exact (List.getElem?_eq_some_iff.mp hi).1
  rw [hp,numberPackets_get _ _ _ _ i hlen,Option.some.injEq] at hi
  exact ⟨payloads[i].1,payloads[i].2,List.getElem?_eq_getElem hlen,by rw [← hi]⟩

theorem SendSpec.fields {media : RtpState} {r : SendResult} (h : SendSpec media r) {i : Nat} {p : Bytes}
    (hp : (r.rtp.map framed)[i]? = some p) :
    rtpSequence p = (media.sequence + UInt16.ofNat i).toNat ∧ rtpSsrc p = media.ssrc.toNat := by
  obtain ⟨timestamp,payloads,-,-,hget⟩ := h.packet
  obtain ⟨payload,marker,-,rfl⟩ := hget i p hp
  exact ⟨makeRtpPacket_sequence _ _ _ _ _,makeRtpPacket_ssrc _ _ _ _ _⟩

theorem SendSpec.oneTimestamp {media : RtpState} {r : SendResult} (h : SendSpec media r) :
    ∃ timestamp, ∀ wire ∈ r.rtp, rtpTimestamp (framed wire) = timestamp := by
  obtain ⟨timestamp,payloads,-,-,hget⟩ := h.packet
  refine ⟨timestamp.toNat,fun wire hw => ?_⟩
  obtain ⟨i,hi⟩ := List.mem_iff_getElem?.mp (List.mem_map_of_mem (f := framed) hw)
  obtain ⟨payload,marker,-,hp⟩ := hget i _ hi
  rw [hp,makeRtpPacket_timestamp]

theorem SendSpec.markers {media : RtpState} {r : SendResult} (h : SendSpec media r)
    (hall : r.rtp.length = r.packets.length) :
    r.rtp = [] ∨ EndsOnce (r.rtp.map fun wire => rtpMarker (framed wire)) := by
  obtain ⟨timestamp,payloads,hm,hlen,hget⟩ := h.packet
  have hflags : r.rtp.map (fun wire => rtpMarker (framed wire)) = payloads.map (·.2) := by
    apply List.ext_getElem?
    intro i
    by_cases hi : i < r.rtp.length
    · have hp : (r.rtp.map framed)[i]? = some (framed r.rtp[i]) := by simp [hi]
      obtain ⟨payload,marker,hpay,hpkt⟩ := hget i _ hp
      simp [hi,hpay,hpkt,makeRtpPacket_marker]
    · rw [List.getElem?_eq_none (by simpa using hi),List.getElem?_eq_none (by simp; omega)]
  rcases hm with hm | hm
  · exact .inl (List.eq_nil_of_length_eq_zero (by rw [hall,hlen,hm]; rfl))
  · exact .inr (hflags ▸ hm)

theorem sendRun_specs (mtu : Nat) (calls : List SendCall) (media : RtpState) :
    ∀ r ∈ sendRun mtu media calls, ∃ before, SendSpec before r := by
  induction calls generalizing media with
  | nil => simp [sendRun]
  | cons call calls ih =>
    intro r hr
    rw [sendRun] at hr
    rcases List.mem_cons.mp hr with rfl | hr
    · exact ⟨media,sendFrame_spec mtu media call⟩
    · split at hr
      · exact ih _ r hr
      · simp at hr

theorem writtenPackets_cons (r : SendResult) (rs : List SendResult) :
    writtenPackets (r :: rs) = r.rtp.map framed ++ writtenPackets rs := by
  simp [writtenPackets]

theorem sendRun_fields (mtu : Nat) (calls : List SendCall) (media : RtpState) (i : Nat) (p : Bytes)
    (hp : (writtenPackets (sendRun mtu media calls))[i]? = some p) :
    rtpSequence p = (media.sequence + UInt16.ofNat i).toNat ∧ rtpSsrc p = media.ssrc.toNat := by
  induction calls generalizing media i with
  | nil => simp [sendRun,writtenPackets] at hp
  | cons call calls ih =>
    have hs := sendFrame_spec mtu media call
    rw [sendRun,writtenPackets_cons] at hp
    by_cases hi : i < ((sendFrame mtu media call).rtp.map framed).length
    · rw [List.getElem?_append_left hi] at hp
      exact hs.fields hp
    · rw [List.getElem?_append_right (by omega)] at hp
      split at hp
      · rename_i hsent
        obtain ⟨-,hseq⟩ := hs.complete hsent
        have hrest := ih _ _ hp
        have hsum : UInt16.ofNat (sendFrame mtu media call).rtp.length +
            UInt16.ofNat (i - (sendFrame mtu media call).rtp.length) = UInt16.ofNat i := by
          rw [← UInt16.ofNat_add]
          simp only [List.length_map] at hi
          congr 1
          omega
        rwa [hseq,hs.ssrc,List.length_map,UInt16.add_assoc,hsum] at hrest
      · simp [writtenPackets] at hp

theorem payloadBytes_append (a b : List Bytes) : payloadBytes (a ++ b) = payloadBytes a + payloadBytes b := by
  simp [payloadBytes]

theorem sendRun_counts (mtu : Nat) (calls : List SendCall) (media : RtpState)
    (before : List SendResult) (r : SendResult) (after : List SendResult)
    (h : sendRun mtu media calls = before ++ r :: after) :
    r.media.packetCount =
        media.packetCount + UInt64.ofNat (writtenPackets (before ++ [r])).length ∧
      r.media.octetCount =
        media.octetCount + UInt64.ofNat (payloadBytes (writtenPackets (before ++ [r]))) ∧
      ReportsCounts r.media r.rtcp := by
  induction calls generalizing media before with
  | nil => simp [sendRun] at h
  | cons call calls ih =>
    have hs := sendFrame_spec mtu media call
    rw [sendRun] at h
    cases before with
    | nil =>
      obtain ⟨rfl,-⟩ := List.cons.inj h
      refine ⟨?_,?_,hs.reports⟩
      · simpa [writtenPackets] using hs.packetCount
      · simpa [writtenPackets] using hs.octetCount
    | cons b before =>
      obtain ⟨rfl,hrest⟩ := List.cons.inj h
      split at hrest
      · obtain ⟨hp,ho,hr⟩ := ih _ before hrest
        rw [hs.packetCount,ofNat_step] at hp
        rw [hs.octetCount,ofNat_step] at ho
        rw [List.cons_append,writtenPackets_cons,payloadBytes_append,List.length_append,List.length_map]
        exact ⟨hp,ho,hr⟩
      · simp at hrest

def RtpState.clock (media : RtpState) : UInt32 × Int64 × UInt32 :=
  (media.timestampOrigin,media.firstPtsNs,media.lastTimestamp)

def RtpState.kept (media : RtpState) : (UInt32 × Int64 × UInt32) × Bool := (media.clock,media.waitingForKeyframe)

section

variable {media other : RtpState} {call : SendCall}

theorem frameTimestamp_clock (h : media.clock = other.clock) (frame : OwnedLiveFrame) :
    (frameTimestamp media frame).1 = (frameTimestamp other frame).1 ∧
      (frameTimestamp media frame).2.clock = (frameTimestamp other frame).2.clock := by
  cases media
  cases other
  simp only [RtpState.clock,Prod.mk.injEq] at h
  obtain ⟨rfl,rfl,rfl⟩ := h
  unfold frameTimestamp
  split
  · exact ⟨rfl,rfl⟩
  · exact ⟨rfl,rfl⟩

theorem writePackets_kept (writeOk : Nat → Bool) (channel : Int) (packets : List RtpPacket) (n : Nat)
    (media : RtpState) : (writePackets writeOk channel n packets media).media.kept = media.kept := by
  rw [(writePackets_spec writeOk channel packets n media).media_eq]
  rfl

theorem sendReport_kept (timestamp : UInt32) (packets : List RtpPacket) (rtp : List Bytes) :
    (sendReport call timestamp packets rtp media).media.kept = media.kept ∧
      (sendReport call timestamp packets rtp media).packets = packets := by
  unfold sendReport
  split
  · split
    · exact ⟨rfl,rfl⟩
    · split
      · exact ⟨rfl,rfl⟩
      · exact ⟨rfl,rfl⟩
  · exact ⟨rfl,rfl⟩

theorem sendPackets_kept (timestamp : UInt32) (packets : List RtpPacket) :
    (sendPackets call timestamp packets media).media.kept = media.kept ∧
      (sendPackets call timestamp packets media).packets = packets := by
  have hrun := writePackets_kept call.writeOk call.rtpChannel packets 0 media
  unfold sendPackets
  simp only
  split
  · obtain ⟨hc,hp⟩ := @sendReport_kept (if packets.isEmpty then
        (writePackets call.writeOk call.rtpChannel 0 packets media).media else
        { (writePackets call.writeOk call.rtpChannel 0 packets media).media with firstRtpSent := true })
      call timestamp packets (writePackets call.writeOk call.rtpChannel 0 packets media).written
    refine ⟨hc.trans (Eq.trans ?_ hrun),hp⟩
    split <;> rfl
  · exact ⟨hrun,rfl⟩

theorem numberPackets_stamped (timestamp ssrc : UInt32) (payloads : List (Bytes × Bool)) (sequence : UInt16) :
    ∀ p ∈ (numberPackets timestamp ssrc payloads sequence).1, rtpTimestamp p.bytes = timestamp.toNat := by
  induction payloads generalizing sequence with
  | nil => simp [numberPackets]
  | cons q rest ih =>
    intro p hp
    rcases List.mem_cons.mp hp with rfl | hp
    · exact makeRtpPacket_timestamp ..
    · exact ih _ p hp

theorem sendFrame_stamped (mtu : Nat) (h : holdsBack media call.frame = false) :
    (∀ p ∈ (sendFrame mtu media call).packets,
      rtpTimestamp p.bytes = (frameTimestamp media call.frame).1.toNat) ∧
    (sendFrame mtu media call).media.kept = ((frameTimestamp media call.frame).2.clock,false) := by
  obtain ⟨first,last,hm⟩ := frameTimestamp_media { media with waitingForKeyframe := false } call.frame
  obtain ⟨hstamp,hclock⟩ :=
    @frameTimestamp_clock { media with waitingForKeyframe := false } media rfl call.frame
  rw [hm] at hclock
  simp only [sendFrame,h,Bool.false_eq_true,if_false,hstamp,hm]
  split
  · exact ⟨by simp,Prod.ext hclock rfl⟩
  · rename_i packets next hok
    obtain ⟨hk,hp⟩ := @sendPackets_kept
      { media with
        sequence := next
        firstPtsNs := first
        lastTimestamp := last
        waitingForKeyframe := false }
      call (frameTimestamp media call.frame).1 packets
    refine ⟨?_,hk.trans (Prod.ext hclock rfl)⟩
    rw [hp]
    unfold packetizeAccessUnit at hok
    split at hok
    · cases hok
    · have hpackets : _ = packets := congrArg Prod.fst (Except.ok.inj hok)
      rw [← hpackets]
      exact numberPackets_stamped _ _ _ _

theorem sendFrame_opens (mtu : Nat) (h : holdsBack media call.frame = false) :
    (sendFrame mtu media call).media.waitingForKeyframe = false :=
  congrArg Prod.snd (sendFrame_stamped mtu h).2

end

def sessionSends (mtu : Nat) (sequence : UInt16) (ssrc timestampOrigin : UInt32)
    (calls : List SendCall) : List SendResult :=
  sendRun mtu { sequence := sequence, ssrc := ssrc, timestampOrigin := timestampOrigin } calls

section

variable {mtu : Nat} {sequence : UInt16} {ssrc timestampOrigin : UInt32} {calls : List SendCall}

theorem sessionSends_fields {i : Nat} {p : Bytes}
    (hp : (writtenPackets (sessionSends mtu sequence ssrc timestampOrigin calls))[i]? = some p) :
    rtpSequence p = (sequence.toNat + i) % 2 ^ 16 ∧ rtpSsrc p = ssrc.toNat := by
  obtain ⟨hs,hc⟩ := sendRun_fields mtu calls _ i p hp
  refine ⟨?_,hc⟩
  rw [hs]
  simp

theorem sessionSends_counts {before after : List SendResult} {r : SendResult}
    (h : sessionSends mtu sequence ssrc timestampOrigin calls = before ++ r :: after) :
    r.media.packetCount = UInt64.ofNat (writtenPackets (before ++ [r])).length ∧
      r.media.octetCount = UInt64.ofNat (payloadBytes (writtenPackets (before ++ [r]))) ∧
      ∀ wire ∈ r.rtcp,
        reportPacketCount (framed wire) = (writtenPackets (before ++ [r])).length % 2 ^ 32 ∧
        reportOctetCount (framed wire) = payloadBytes (writtenPackets (before ++ [r])) % 2 ^ 32 := by
  obtain ⟨hp,ho,hr⟩ := sendRun_counts mtu calls _ before r after h
  simp only [UInt64.zero_add] at hp ho
  refine ⟨hp,ho,fun wire hw => ?_⟩
  have hpow : (2 : Nat) ^ 32 ∣ 2 ^ 64 := by decide
  obtain ⟨h1,h2⟩ := hr wire hw
  rw [hp] at h1
  rw [ho] at h2
  rw [UInt64.toNat_ofNat',Nat.mod_mod_of_dvd _ hpow] at h1 h2
  exact ⟨h1,h2⟩

end

theorem rtp_stream_invariant (mtu : Nat) (sequence : UInt16) (ssrc timestampOrigin : UInt32)
    (calls : List SendCall) :
    (∀ i p, (writtenPackets (sessionSends mtu sequence ssrc timestampOrigin calls))[i]? = some p →
      rtpSequence p = (sequence.toNat + i) % 2 ^ 16 ∧ rtpSsrc p = ssrc.toNat) ∧
    (∀ r ∈ sessionSends mtu sequence ssrc timestampOrigin calls,
      (∃ timestamp, ∀ wire ∈ r.rtp, rtpTimestamp (framed wire) = timestamp) ∧
      (r.rtp.length = r.packets.length →
        r.rtp = [] ∨ EndsOnce (r.rtp.map fun wire => rtpMarker (framed wire)))) ∧
    (∀ before r after, sessionSends mtu sequence ssrc timestampOrigin calls = before ++ r :: after →
      r.media.packetCount = UInt64.ofNat (writtenPackets (before ++ [r])).length ∧
      r.media.octetCount = UInt64.ofNat (payloadBytes (writtenPackets (before ++ [r]))) ∧
      ∀ wire ∈ r.rtcp,
        reportPacketCount (framed wire) = (writtenPackets (before ++ [r])).length % 2 ^ 32 ∧
        reportOctetCount (framed wire) = payloadBytes (writtenPackets (before ++ [r])) % 2 ^ 32) := by
  refine ⟨fun i p hp => sessionSends_fields hp,fun r hr => ?_,fun before r after h => sessionSends_counts h⟩
  obtain ⟨m,hs⟩ := sendRun_specs mtu calls _ r hr
  exact ⟨hs.oneTimestamp,hs.markers⟩

end RpiVms

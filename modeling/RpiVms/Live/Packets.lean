import RpiVms.Library.BigEndian
import RpiVms.Live.Control

namespace RpiVms

def appendU16 (output : Bytes) (value : UInt16) : Bytes :=
  output ++ [(value >>> 8).toUInt8,value.toUInt8]

def appendU32 (output : Bytes) (value : UInt32) : Bytes :=
  output ++ [(value >>> 24).toUInt8,(value >>> 16).toUInt8,(value >>> 8).toUInt8,value.toUInt8]

theorem appendU16_eq (output : Bytes) (value : UInt16) :
    appendU16 output value = output ++ BigEndian.encode 2 value.toNat := by
  have h1 : (value >>> 8).toUInt8 = UInt8.ofNat (value.toNat / 256) := by
    apply UInt8.toNat_inj.mp
    simp [Nat.shiftRight_eq_div_pow]
  have h0 : value.toUInt8 = UInt8.ofNat value.toNat := by
    apply UInt8.toNat_inj.mp
    simp
  unfold appendU16
  rw [h1,h0]
  rfl

theorem appendU32_eq (output : Bytes) (value : UInt32) :
    appendU32 output value = output ++ BigEndian.encode 4 value.toNat := by
  have h3 : (value >>> 24).toUInt8 = UInt8.ofNat (value.toNat / 256 / 256 / 256) := by
    apply UInt8.toNat_inj.mp
    simp [Nat.shiftRight_eq_div_pow,Nat.div_div_eq_div_mul]
  have h2 : (value >>> 16).toUInt8 = UInt8.ofNat (value.toNat / 256 / 256) := by
    apply UInt8.toNat_inj.mp
    simp [Nat.shiftRight_eq_div_pow,Nat.div_div_eq_div_mul]
  have h1 : (value >>> 8).toUInt8 = UInt8.ofNat (value.toNat / 256) := by
    apply UInt8.toNat_inj.mp
    simp [Nat.shiftRight_eq_div_pow]
  have h0 : value.toUInt8 = UInt8.ofNat value.toNat := by
    apply UInt8.toNat_inj.mp
    simp
  unfold appendU32
  rw [h3,h2,h1,h0]
  rfl

structure RtpPacket where
  bytes : Bytes
  marker : Bool
  deriving DecidableEq, Repr

def makeRtpPacket (payload : Bytes) (marker : Bool) (sequence : UInt16) (timestamp ssrc : UInt32) :
    Bytes :=
  let packet := [0x80,kPayloadType.toUInt8 ||| (if marker then 0x80 else 0)]
  let packet := appendU16 packet sequence
  let packet := appendU32 packet timestamp
  let packet := appendU32 packet ssrc
  packet ++ payload

def interleaved (channel : Int) (packet : Bytes) : Except String Bytes :=
  if packet.length > 65535 then .error "interleaved RTP packet is too large"
  else .ok (appendU16 [36,UInt8.ofInt channel] (UInt16.ofNat packet.length) ++ packet)

def startCodeSize : Bytes → Nat
  | 0 :: 0 :: 1 :: _ => 3
  | 0 :: 0 :: 0 :: 1 :: _ => 4
  | _ => 0

def untilStart : Bytes → Nat
  | [] => 0
  | b :: rest => if startCodeSize (b :: rest) = 0 then untilStart rest + 1 else 0

def splitAnnexB : Nat → Bytes → List Bytes
  | 0,_ => []
  | _ + 1,[] => []
  | fuel + 1,b :: rest =>
      let startCode := startCodeSize (b :: rest)
      if startCode = 0 then splitAnnexB fuel rest
      else
        let nal := (b :: rest).drop startCode
        let next := untilStart nal
        if next > 0 then nal.take next :: splitAnnexB fuel (nal.drop next)
        else splitAnnexB fuel (nal.drop next)

def readU32 (data : Bytes) : UInt32 :=
  ((data.getD 0 0).toUInt32 <<< 24) ||| ((data.getD 1 0).toUInt32 <<< 16) |||
    ((data.getD 2 0).toUInt32 <<< 8) ||| (data.getD 3 0).toUInt32

-- the NAL units read so far, and what is left of the access unit from pos on
def splitLengthPrefixed : Nat → List Bytes → Bytes → List Bytes × Bytes
  | 0,nalUnits,rest => (nalUnits,rest)
  | fuel + 1,nalUnits,rest =>
      if rest.length < 4 then (nalUnits,rest)
      else
        let length := (readU32 rest).toNat
        if length = 0 ∨ length > rest.length - 4 then ([],rest)
        else splitLengthPrefixed fuel (nalUnits ++ [(rest.drop 4).take length]) (rest.drop (4 + length))

def hasStartCode : Bytes → Bool
  | [] => false
  | b :: rest => startCodeSize (b :: rest) ≠ 0 || hasStartCode rest

def splitAccessUnit (accessUnit : Bytes) : List Bytes :=
  if hasStartCode accessUnit then splitAnnexB accessUnit.length accessUnit
  else
    let (nalUnits,rest) := splitLengthPrefixed accessUnit.length [] accessUnit
    if !nalUnits.isEmpty && rest.isEmpty then nalUnits
    else if !accessUnit.isEmpty then nalUnits ++ [accessUnit]
    else nalUnits

structure Payload where
  bytes : Bytes
  last : Bool
  deriving DecidableEq, Repr

-- the fragmentation loop of both codecs: header is the FU header for first and end
def fragments (chunkLimit : Nat) (header : Bool → Bool → Bytes) : Nat → Bool → Bytes → List Payload
  | 0,_,_ => []
  | fuel + 1,first,rest =>
      if rest.isEmpty then []
      else
        let chunk := min chunkLimit rest.length
        let last := chunk = rest.length
        ⟨header first last ++ rest.take chunk,last⟩ ::
          fragments chunkLimit header fuel false (rest.drop chunk)

def fuBits (first last : Bool) : UInt8 :=
  (if first then 0x80 else 0) ||| (if last then 0x40 else 0)

def fuHeaderH264 (nal : Bytes) (first last : Bool) : Bytes :=
  let header : UInt8 := nal.getD 0 0
  [(header &&& 0xe0) ||| 28,(header &&& 0x1f) ||| fuBits first last]

def fuHeaderH265 (nal : Bytes) (first last : Bool) : Bytes :=
  let header : UInt8 := nal.getD 0 0
  let originalType : UInt8 := (header >>> 1) &&& 0x3f
  let fuHeader0 : UInt8 := (header &&& (0x81 : UInt8)) ||| ((49 : UInt8) <<< (1 : UInt8))
  [fuHeader0,nal.getD 1 0,originalType ||| fuBits first last]

def nalPayloads (codec : VideoCodec) (mtu : Nat) (nal : Bytes) : List Payload :=
  let maxPayload := mtu - 12
  if nal.isEmpty then []
  else if nal.length ≤ maxPayload then [⟨nal,true⟩]
  else
    match codec with
    | .h264 => fragments (maxPayload - 2) (fuHeaderH264 nal) nal.length true (nal.drop 1)
    | .h265 =>
        if nal.length < 3 then []
        else fragments (maxPayload - 3) (fuHeaderH265 nal) nal.length true (nal.drop 2)

def numberPackets (timestamp ssrc : UInt32) : List (Bytes × Bool) → UInt16 → List RtpPacket × UInt16
  | [],sequence => ([],sequence)
  | (payload,marker) :: rest,sequence =>
      let (packets,next) := numberPackets timestamp ssrc rest (sequence + 1)
      (⟨makeRtpPacket payload marker sequence timestamp ssrc,marker⟩ :: packets,next)

def markedPayloads (codec : VideoCodec) (mtu : Nat) : List Bytes → List (Bytes × Bool)
  | [] => []
  | nal :: rest =>
      (nalPayloads codec mtu nal).map (fun p => (p.bytes,p.last && rest.isEmpty)) ++
        markedPayloads codec mtu rest

-- the packets, and the sequence number the call leaves behind
def packetizeAccessUnit (codec : VideoCodec) (nalUnits : List Bytes) (sequence : UInt16)
    (timestamp ssrc : UInt32) (mtu : Nat) : Except String (List RtpPacket × UInt16) :=
  if mtu ≤ 15 then .error "RTP MTU is too small"
  else
    .ok (numberPackets timestamp ssrc (markedPayloads codec mtu nalUnits) sequence)

def rtpMarker (packet : Bytes) : Bool := packet.getD 1 0 &&& 0x80 != 0

def rtpSequence (packet : Bytes) : Nat := BigEndian.decode ((packet.drop 2).take 2)

def rtpTimestamp (packet : Bytes) : Nat := BigEndian.decode ((packet.drop 4).take 4)

def rtpSsrc (packet : Bytes) : Nat := BigEndian.decode ((packet.drop 8).take 4)

def rtpPayload (packet : Bytes) : Bytes := packet.drop 12

section

variable (payload : Bytes) (marker : Bool) (sequence : UInt16) (timestamp ssrc : UInt32)

theorem makeRtpPacket_eq :
    makeRtpPacket payload marker sequence timestamp ssrc =
      [0x80,kPayloadType.toUInt8 ||| (if marker then 0x80 else 0)] ++
        (BigEndian.encode 2 sequence.toNat ++ (BigEndian.encode 4 timestamp.toNat ++
          (BigEndian.encode 4 ssrc.toNat ++ payload))) := by
  simp only [makeRtpPacket,appendU16_eq,appendU32_eq,List.append_assoc]

theorem makeRtpPacket_length :
    (makeRtpPacket payload marker sequence timestamp ssrc).length = 12 + payload.length := by
  rw [makeRtpPacket_eq]
  simp
  omega

theorem makeRtpPacket_marker :
    rtpMarker (makeRtpPacket payload marker sequence timestamp ssrc) = marker := by
  have hbits (m : Bool) :
      (((kPayloadType.toUInt8 ||| (if m then 0x80 else 0)) &&& 0x80 != 0 : Bool)) = m := by
    revert m
    decide
  rw [makeRtpPacket_eq]
  exact hbits marker

theorem makeRtpPacket_sequence :
    rtpSequence (makeRtpPacket payload marker sequence timestamp ssrc) = sequence.toNat := by
  have hs := sequence.toNat_lt
  rw [makeRtpPacket_eq,rtpSequence,List.drop_left' (by rfl),List.take_left' (by simp),
    BigEndian.decode_encode]
  omega

theorem makeRtpPacket_timestamp :
    rtpTimestamp (makeRtpPacket payload marker sequence timestamp ssrc) = timestamp.toNat := by
  have ht := timestamp.toNat_lt
  rw [makeRtpPacket_eq,rtpTimestamp,← List.append_assoc,List.drop_left' (by simp),
    List.take_left' (by simp),BigEndian.decode_encode]
  omega

theorem makeRtpPacket_ssrc :
    rtpSsrc (makeRtpPacket payload marker sequence timestamp ssrc) = ssrc.toNat := by
  have hs := ssrc.toNat_lt
  rw [makeRtpPacket_eq,rtpSsrc,← List.append_assoc,← List.append_assoc,List.drop_left' (by simp),
    List.take_left' (by simp),BigEndian.decode_encode]
  omega

end

theorem numberPackets_length (timestamp ssrc : UInt32) (payloads : List (Bytes × Bool))
    (sequence : UInt16) :
    (numberPackets timestamp ssrc payloads sequence).1.length = payloads.length := by
  induction payloads generalizing sequence with
  | nil => rfl
  | cons p rest ih => simp [numberPackets,ih]

theorem ofNat_succ_add (n : Nat) (sequence : UInt16) :
    sequence + 1 + UInt16.ofNat n = sequence + UInt16.ofNat (n + 1) := by
  rw [UInt16.ofNat_add,UInt16.add_assoc,UInt16.add_comm 1]
  rfl

theorem numberPackets_next (timestamp ssrc : UInt32) (payloads : List (Bytes × Bool))
    (sequence : UInt16) :
    (numberPackets timestamp ssrc payloads sequence).2 =
      sequence + UInt16.ofNat payloads.length := by
  induction payloads generalizing sequence with
  | nil => simp [numberPackets]
  | cons p rest ih =>
    simp only [numberPackets,ih,List.length_cons]
    exact ofNat_succ_add _ _

theorem numberPackets_get (timestamp ssrc : UInt32) (payloads : List (Bytes × Bool))
    (sequence : UInt16) (i : Nat) (h : i < payloads.length) :
    (numberPackets timestamp ssrc payloads sequence).1[i]? =
      some ⟨makeRtpPacket payloads[i].1 payloads[i].2 (sequence + UInt16.ofNat i) timestamp ssrc,
        payloads[i].2⟩ := by
  induction payloads generalizing sequence i with
  | nil => simp at h
  | cons p rest ih =>
    cases i with
    | zero => simp [numberPackets]
    | succ i =>
      have hi : i < rest.length := by simpa using h
      simpa [numberPackets,ofNat_succ_add] using ih (sequence + 1) i hi

def EndsOnce (flags : List Bool) : Prop := ∃ k, flags = List.replicate k false ++ [true]

theorem EndsOnce.cons {flags : List Bool} (h : EndsOnce flags) : EndsOnce (false :: flags) := by
  obtain ⟨k,rfl⟩ := h
  exact ⟨k + 1,rfl⟩

theorem EndsOnce.after {flags : List Bool} (h : EndsOnce flags) (n : Nat) :
    EndsOnce (List.replicate n false ++ flags) := by
  induction n with
  | zero => exact h
  | succ n ih => exact ih.cons

theorem fragments_ends (chunkLimit : Nat) (header : Bool → Bool → Bytes) (hl : 0 < chunkLimit)
    (fuel : Nat) (first : Bool) (rest : Bytes) (hf : rest.length ≤ fuel) (hne : rest ≠ []) :
    EndsOnce ((fragments chunkLimit header fuel first rest).map (·.last)) := by
  induction fuel generalizing first rest with
  | zero => exact absurd (List.eq_nil_of_length_eq_zero (by omega)) hne
  | succ fuel ih =>
    have hpos := List.length_pos_iff.mpr hne
    rw [fragments,if_neg (by simpa using hne)]
    simp only [List.map_cons]
    by_cases hc : min chunkLimit rest.length = rest.length
    · have hnil : rest.drop (min chunkLimit rest.length) = [] := by simp [hc]
      have hempty : fragments chunkLimit header fuel false [] = [] := by
        cases fuel <;> rfl
      rw [hnil,hempty]
      exact ⟨0,by simp [hc]⟩
    · rw [decide_eq_false hc]
      refine (ih false _ (by simp; omega) ?_).cons
      intro hd
      rw [List.drop_eq_nil_iff] at hd
      omega

theorem nalPayloads_ends (codec : VideoCodec) {mtu : Nat} (hm : 16 ≤ mtu) {nal : Bytes}
    (hne : nal ≠ []) : EndsOnce ((nalPayloads codec mtu nal).map (·.last)) := by
  have hpos := List.length_pos_iff.mpr hne
  unfold nalPayloads
  simp only [List.isEmpty_iff,if_neg hne]
  split
  · exact ⟨0,rfl⟩
  · have hrest (n : Nat) (hn : n ≤ 3) : nal.drop n ≠ [] := by
      intro hd
      rw [List.drop_eq_nil_iff] at hd
      omega
    cases codec with
    | h264 =>
      exact fragments_ends _ _ (by omega) _ _ _ (by simp) (hrest 1 (by omega))
    | h265 =>
      simp only
      rw [if_neg (by omega)]
      exact fragments_ends _ _ (by omega) _ _ _ (by simp) (hrest 2 (by omega))

theorem markedPayloads_ends (codec : VideoCodec) {mtu : Nat} (hm : 16 ≤ mtu) (nals : List Bytes)
    (hne : nals ≠ []) (h : ∀ nal ∈ nals, nal ≠ []) :
    EndsOnce ((markedPayloads codec mtu nals).map (·.2)) := by
  induction nals with
  | nil => exact absurd rfl hne
  | cons nal rest ih =>
    have hn := nalPayloads_ends codec hm (h nal (by simp))
    rw [markedPayloads,List.map_append,List.map_map]
    cases rest with
    | nil =>
      have hflag : (fun p : Bytes × Bool => p.2) ∘
          (fun p : Payload => (p.bytes,p.last && ([] : List Bytes).isEmpty)) = (·.last) := by
        funext p
        exact Bool.and_true p.last
      rw [hflag,markedPayloads,List.map_nil,List.append_nil]
      exact hn
    | cons k ks =>
      have hflag : ((nalPayloads codec mtu nal).map
          ((fun p : Bytes × Bool => p.2) ∘ fun p : Payload => (p.bytes,p.last && (k :: ks).isEmpty))) =
          List.replicate (nalPayloads codec mtu nal).length false := by
        refine List.eq_replicate_iff.mpr ⟨by simp,?_⟩
        simp
      rw [hflag]
      exact (ih (by simp) fun x hx => h x (by simp [hx])).after _

theorem splitAnnexB_ne_nil (fuel : Nat) (d : Bytes) : ∀ nal ∈ splitAnnexB fuel d, nal ≠ [] := by
  induction fuel generalizing d with
  | zero => simp [splitAnnexB]
  | succ fuel ih =>
    cases d with
    | nil => simp [splitAnnexB]
    | cons b rest =>
      rw [splitAnnexB]
      simp only
      split
      · exact ih rest
      · split
        · rename_i hn
          intro nal hm
          rcases List.mem_cons.mp hm with rfl | hm
          · intro he
            rcases List.take_eq_nil_iff.mp he with h0 | h0
            · omega
            · rw [h0] at hn
              simp [untilStart] at hn
          · exact ih _ nal hm
        · exact ih _

theorem splitLengthPrefixed_ne_nil (fuel : Nat) (nals : List Bytes) (rest : Bytes)
    (h : ∀ nal ∈ nals, nal ≠ []) : ∀ nal ∈ (splitLengthPrefixed fuel nals rest).1, nal ≠ [] := by
  induction fuel generalizing nals rest with
  | zero => exact h
  | succ fuel ih =>
    rw [splitLengthPrefixed]
    split
    · exact h
    · simp only
      split
      · simp
      · rename_i hlen hlength
        simp only [not_or,not_lt] at hlength
        refine ih _ _ fun nal hm => ?_
        rcases List.mem_append.mp hm with hm | hm
        · exact h nal hm
        · obtain rfl : nal = _ := by simpa using hm
          intro he
          have := congrArg List.length he
          simp only [List.length_take,List.length_drop,List.length_nil] at this
          omega

theorem splitAccessUnit_ne_nil (accessUnit : Bytes) : ∀ nal ∈ splitAccessUnit accessUnit, nal ≠ [] := by
  have hl := splitLengthPrefixed_ne_nil accessUnit.length [] accessUnit (by simp)
  unfold splitAccessUnit
  split
  · exact splitAnnexB_ne_nil _ _
  · simp only
    split
    · exact hl
    · split
      · rename_i hne
        intro nal hm
        rcases List.mem_append.mp hm with hm | hm
        · exact hl nal hm
        · obtain rfl : nal = _ := by simpa using hm
          simpa using hne
      · exact hl

theorem splitAnnexB_length (fuel : Nat) (d : Bytes) : ∀ nal ∈ splitAnnexB fuel d, nal.length ≤ d.length := by
  induction fuel generalizing d with
  | zero => simp [splitAnnexB]
  | succ fuel ih =>
    cases d with
    | nil => simp [splitAnnexB]
    | cons b rest =>
      rw [splitAnnexB]
      simp only
      split
      · intro nal hm
        have := ih rest nal hm
        simp only [List.length_cons]
        omega
      · have hdrop : ∀ n, ∀ nal ∈ splitAnnexB fuel (((b :: rest).drop (startCodeSize (b :: rest))).drop n),
            nal.length ≤ (b :: rest).length := by
          intro n nal hm
          have := ih _ nal hm
          simp only [List.length_drop] at this
          omega
        split
        · intro nal hm
          rcases List.mem_cons.mp hm with rfl | hm
          · simp only [List.length_take,List.length_drop]
            omega
          · exact hdrop _ nal hm
        · exact hdrop _

theorem splitLengthPrefixed_length (fuel : Nat) (nals : List Bytes) (rest : Bytes) {n : Nat} (hr : rest.length ≤ n)
    (h : ∀ nal ∈ nals, nal.length ≤ n) : ∀ nal ∈ (splitLengthPrefixed fuel nals rest).1, nal.length ≤ n := by
  induction fuel generalizing nals rest with
  | zero => exact h
  | succ fuel ih =>
    rw [splitLengthPrefixed]
    split
    · exact h
    · simp only
      split
      · simp
      · refine ih _ _ (by simp only [List.length_drop]; omega) fun nal hm => ?_
        rcases List.mem_append.mp hm with hm | hm
        · exact h nal hm
        · rw [List.mem_singleton.mp hm]
          simp only [List.length_take,List.length_drop]
          omega

theorem splitAccessUnit_length (accessUnit : Bytes) :
    ∀ nal ∈ splitAccessUnit accessUnit, nal.length ≤ accessUnit.length := by
  have hl := splitLengthPrefixed_length accessUnit.length [] accessUnit (Nat.le_refl _) (by simp)
  unfold splitAccessUnit
  split
  · exact splitAnnexB_length _ _
  · simp only
    split
    · exact hl
    · split
      · intro nal hm
        rcases List.mem_append.mp hm with hm | hm
        · exact hl nal hm
        · rw [List.mem_singleton.mp hm]
      · exact hl

theorem fragments_size (chunkLimit : Nat) (header : Bool → Bool → Bytes) (k : Nat)
    (hk : ∀ first last, (header first last).length = k) (fuel : Nat) (first : Bool) (rest : Bytes) :
    ∀ p ∈ fragments chunkLimit header fuel first rest, p.bytes.length ≤ k + chunkLimit := by
  induction fuel generalizing first rest with
  | zero => simp [fragments]
  | succ fuel ih =>
    rw [fragments]
    split
    · simp
    · simp only [List.mem_cons,forall_eq_or_imp]
      refine ⟨?_,ih _ _⟩
      simp only [List.length_append,List.length_take,hk]
      omega

theorem nalPayloads_size (codec : VideoCodec) {mtu : Nat} (hm : 16 ≤ mtu) (nal : Bytes) :
    ∀ p ∈ nalPayloads codec mtu nal, p.bytes.length ≤ mtu - 12 := by
  unfold nalPayloads
  simp only
  split
  · simp
  split
  · rename_i hn
    simpa using hn
  cases codec with
  | h264 =>
    intro p hp
    have := fragments_size _ (fuHeaderH264 nal) 2 (fun _ _ => rfl) _ _ _ p hp
    omega
  | h265 =>
    simp only
    split
    · simp
    · intro p hp
      have := fragments_size _ (fuHeaderH265 nal) 3 (fun _ _ => rfl) _ _ _ p hp
      omega

theorem markedPayloads_size (codec : VideoCodec) {mtu : Nat} (hm : 16 ≤ mtu) (nals : List Bytes) :
    ∀ p ∈ markedPayloads codec mtu nals, p.1.length ≤ mtu - 12 := by
  induction nals with
  | nil => simp [markedPayloads]
  | cons nal rest ih =>
    intro p hp
    rcases List.mem_append.mp hp with hp | hp
    · obtain ⟨q,hq,rfl⟩ := List.mem_map.mp hp
      exact nalPayloads_size codec hm nal q hq
    · exact ih p hp

theorem packetize_size {codec : VideoCodec} {nalUnits : List Bytes} {sequence next : UInt16}
    {timestamp ssrc : UInt32} {mtu : Nat} {packets : List RtpPacket}
    (h : packetizeAccessUnit codec nalUnits sequence timestamp ssrc mtu = .ok (packets,next)) :
    ∀ packet ∈ packets, packet.bytes.length ≤ mtu := by
  unfold packetizeAccessUnit at h
  split at h
  · cases h
  · rename_i hm
    have hp : (numberPackets timestamp ssrc (markedPayloads codec mtu nalUnits) sequence).1 =
        packets := congrArg Prod.fst (Except.ok.inj h)
    subst hp
    intro packet hmem
    obtain ⟨i,hi⟩ := List.mem_iff_getElem?.mp hmem
    have hlen := (List.getElem?_eq_some_iff.mp hi).1
    rw [numberPackets_length] at hlen
    rw [numberPackets_get _ _ _ _ i hlen,Option.some.injEq] at hi
    have := markedPayloads_size codec (by omega) nalUnits _ (List.getElem_mem hlen)
    rw [← hi,makeRtpPacket_length]
    omega

end RpiVms

import Mathlib.Data.List.Forall2
import RpiVms.Library.Reassembly
import RpiVms.Live.Packets

namespace RpiVms

open Reassembly

-- the RTP payload format for H.264: single NAL unit packets and FU-A
def readH264 : Bytes → Option (Piece UInt8)
  | [] => none
  | header :: rest =>
      let nalType := header &&& 0x1f
      if 1 ≤ nalType ∧ nalType ≤ 23 then some (.single (header :: rest))
      else if nalType = 28 then
        match rest with
        | [] => none
        | fu :: data =>
            some (.fragment [(header &&& 0xe0) ||| (fu &&& 0x1f)] (fu &&& 0x80 != 0) (fu &&& 0x40 != 0) data)
      else none

-- the RTP payload format for H.265: single NAL unit packets and FUs
def readH265 : Bytes → Option (Piece UInt8)
  | header :: second :: rest =>
      let nalType := (header >>> 1) &&& 0x3f
      if nalType ≤ 47 then some (.single (header :: second :: rest))
      else if nalType = 49 then
        match rest with
        | [] => none
        | fu :: data =>
            some (.fragment [(header &&& 0x81) ||| ((fu &&& (0x3f : UInt8)) <<< (1 : UInt8)),second] (fu &&& 0x80 != 0)
              (fu &&& 0x40 != 0) data)
      else none
  | _ => none

def readPayload : VideoCodec → Bytes → Option (Piece UInt8)
  | .h264 => readH264
  | .h265 => readH265

def readPayloads (codec : VideoCodec) : List Bytes → Option (List (Piece UInt8))
  | [] => some []
  | p :: rest => do
      let piece ← readPayload codec p
      let pieces ← readPayloads codec rest
      return piece :: pieces

def depacketize (codec : VideoCodec) (payloads : List Bytes) : Option (List Bytes) := do
  let pieces ← readPayloads codec payloads
  reassemble none pieces

def fuFlags (codec : VideoCodec) (payload : Bytes) : Option (Bool × Bool) := do
  let piece ← readPayload codec payload
  piece.flags

def CarriedType : VideoCodec → Bytes → Prop
  | .h264,nal => 1 ≤ nal.getD 0 0 &&& 0x1f ∧ nal.getD 0 0 &&& 0x1f ≤ 23
  | .h265,nal => (nal.getD 0 0 >>> 1) &&& 0x3f ≤ 47 ∧ 2 ≤ nal.length

instance (codec : VideoCodec) (nal : Bytes) : Decidable (CarriedType codec nal) :=
  match codec with
  | .h264 => inferInstanceAs (Decidable (_ ∧ _))
  | .h265 => inferInstanceAs (Decidable (_ ∧ _))

def UnitPayloads (codec : VideoCodec) (mtu : Nat) (nal : Bytes) (payloads : List Bytes) : Prop :=
  if nal.length ≤ mtu - 12 then payloads = [nal] else Flagged (payloads.map (fuFlags codec))

def Reads (codec : VideoCodec) (payload : Bytes) (piece : Piece UInt8) : Prop :=
  readPayload codec payload = some piece

section

variable {codec : VideoCodec}

theorem forall_byte {P : UInt8 → Prop} (h : ∀ n < 256, P (UInt8.ofNat n)) (b : UInt8) : P b := by
  have := h b.toNat b.toNat_lt
  rwa [UInt8.ofNat_toNat] at this

theorem fuHeaderH264_bits (header : UInt8) (first last : Bool) :
    let indicator : UInt8 := (header &&& 0xe0) ||| 28
    let fu : UInt8 := (header &&& 0x1f) ||| fuBits first last
    indicator &&& 0x1f = 28 ∧ (indicator &&& 0xe0) ||| (fu &&& 0x1f) = header ∧
    (fu &&& 0x80 != 0) = first ∧ (fu &&& 0x40 != 0) = last := by
  revert header
  refine forall_byte ?_
  cases first <;> cases last <;> decide +kernel

theorem fuHeaderH265_bits (header : UInt8) (first last : Bool) :
    let indicator : UInt8 := (header &&& (0x81 : UInt8)) ||| ((49 : UInt8) <<< (1 : UInt8))
    let fu : UInt8 := ((header >>> 1) &&& 0x3f) ||| fuBits first last
    (indicator >>> 1) &&& 0x3f = 49 ∧
    (indicator &&& 0x81) ||| ((fu &&& (0x3f : UInt8)) <<< (1 : UInt8)) = header ∧
    (fu &&& 0x80 != 0) = first ∧ (fu &&& 0x40 != 0) = last := by
  revert header
  refine forall_byte ?_
  cases first <;> cases last <;> decide +kernel

theorem reads_fuH264 (header : UInt8) (nal : Bytes) (first last : Bool) (data : Bytes) :
    Reads .h264 (fuHeaderH264 (header :: nal) first last ++ data) (.fragment [header] first last data) := by
  obtain ⟨ht,hh,hf,hl⟩ := fuHeaderH264_bits header first last
  simp only [Reads,readPayload,fuHeaderH264,List.getD_cons_zero,List.cons_append,List.nil_append,readH264]
  rw [ht,hh,hf,hl]
  rfl

theorem reads_fuH265 (header second : UInt8) (nal : Bytes) (first last : Bool) (data : Bytes) :
    Reads .h265 (fuHeaderH265 (header :: second :: nal) first last ++ data)
      (.fragment [header,second] first last data) := by
  obtain ⟨ht,hh,hf,hl⟩ := fuHeaderH265_bits header first last
  simp only [Reads,readPayload,fuHeaderH265,List.getD_cons_zero,List.getD_cons_succ,List.cons_append,
    List.nil_append,readH265]
  rw [ht,hh,hf,hl]
  rfl

theorem reads_single {nal : Bytes} (hne : nal ≠ []) (h : CarriedType codec nal) :
    Reads codec nal (.single nal) := by
  cases codec with
  | h264 =>
    obtain ⟨header,rest,rfl⟩ := List.exists_cons_of_ne_nil hne
    exact if_pos h
  | h265 =>
    obtain ⟨ht,hl⟩ := h
    match nal,hl with
    | header :: second :: rest,_ => exact if_pos ht

theorem fragments_last {header : Bool → Bool → Bytes} {chunkLimit : Nat} {rest : Bytes} (fuel : Nat) (first : Bool)
    (hne : rest ≠ []) (hl : rest.length ≤ chunkLimit) :
    fragments chunkLimit header (fuel + 1) first rest = [⟨header first true ++ rest,true⟩] := by
  have hdone : fragments chunkLimit header fuel false [] = [] := by cases fuel <;> rfl
  rw [fragments,if_neg (by simpa using hne),Nat.min_eq_right hl]
  simp only [List.drop_length,List.take_length,hdone,decide_true]

theorem fragments_more {header : Bool → Bool → Bytes} {chunkLimit : Nat} {rest : Bytes} (fuel : Nat) (first : Bool)
    (hl : chunkLimit < rest.length) :
    fragments chunkLimit header (fuel + 1) first rest =
      ⟨header first false ++ rest.take chunkLimit,false⟩ ::
        fragments chunkLimit header fuel false (rest.drop chunkLimit) := by
  have hne : rest ≠ [] := List.ne_nil_of_length_pos (by omega)
  rw [fragments,if_neg (by simpa using hne),Nat.min_eq_left hl.le]
  simp only [decide_eq_false (Nat.ne_of_lt hl)]

theorem fragments_continue {header : Bool → Bool → Bytes} {head : Bytes} {chunkLimit : Nat}
    (hread : ∀ first last data, Reads codec (header first last ++ data) (.fragment head first last data))
    (hc : 0 < chunkLimit) (fuel : Nat) (rest : Bytes) (hne : rest ≠ []) (hf : rest.length ≤ fuel) :
    ∃ pieces, List.Forall₂ (Reads codec)
        ((fragments chunkLimit header fuel false rest).map (·.bytes)) pieces ∧
      Continues head rest pieces := by
  induction fuel generalizing rest with
  | zero => exact absurd (List.eq_nil_of_length_eq_zero (Nat.le_zero.mp hf)) hne
  | succ fuel ih =>
    by_cases hlast : rest.length ≤ chunkLimit
    · rw [fragments_last fuel false hne hlast]
      exact ⟨_,.cons (hread false true rest) .nil,.last rest⟩
    · have hmore : rest.drop chunkLimit ≠ [] := by
        rw [Ne,List.drop_eq_nil_iff]
        exact hlast
      obtain ⟨pieces,hp,hcont⟩ := ih (rest.drop chunkLimit) hmore (by rw [List.length_drop]; omega)
      rw [fragments_more fuel false (not_le.mp hlast)]
      refine ⟨_,.cons (hread false false (rest.take chunkLimit)) hp,?_⟩
      have := Continues.more (rest.take chunkLimit) hcont
      rwa [List.take_append_drop] at this

theorem fragments_carry {header : Bool → Bool → Bytes} {head : Bytes} {chunkLimit : Nat}
    (hread : ∀ first last data, Reads codec (header first last ++ data) (.fragment head first last data))
    (hc : 0 < chunkLimit) (fuel : Nat) (rest : Bytes) (hlong : chunkLimit < rest.length)
    (hf : rest.length ≤ fuel) :
    ∃ pieces, List.Forall₂ (Reads codec)
        ((fragments chunkLimit header fuel true rest).map (·.bytes)) pieces ∧
      Carries (head ++ rest) pieces ∧ Flagged (pieces.map Piece.flags) := by
  obtain ⟨fuel,rfl⟩ : ∃ k, fuel = k + 1 := ⟨fuel - 1,by omega⟩
  have hmore : rest.drop chunkLimit ≠ [] := by
    rw [Ne,List.drop_eq_nil_iff]
    omega
  obtain ⟨pieces,hp,hcont⟩ :=
    fragments_continue hread hc fuel (rest.drop chunkLimit) hmore (by rw [List.length_drop]; omega)
  rw [fragments_more fuel true hlong]
  refine ⟨_,.cons (hread true false (rest.take chunkLimit)) hp,?_,hcont.flagged _⟩
  have := Carries.fragments head (rest.take chunkLimit) hcont
  rwa [List.take_append_drop] at this

theorem fuFlags_of_reads {payload : Bytes} {piece : Piece UInt8} (h : Reads codec payload piece) :
    fuFlags codec payload = piece.flags := by
  rw [Reads] at h
  simp [fuFlags,h]

theorem map_fuFlags {payloads : List Bytes} {pieces : List (Piece UInt8)}
    (h : List.Forall₂ (Reads codec) payloads pieces) :
    payloads.map (fuFlags codec) = pieces.map Piece.flags := by
  induction h with
  | nil => rfl
  | cons hr _ ih => rw [List.map_cons,List.map_cons,fuFlags_of_reads hr,ih]

theorem nalPayloads_carry {mtu : Nat} (hm : 16 ≤ mtu) {nal : Bytes} (hne : nal ≠ [])
    (ht : CarriedType codec nal) :
    ∃ pieces, List.Forall₂ (Reads codec) ((nalPayloads codec mtu nal).map (·.bytes)) pieces ∧
      Carries nal pieces ∧ UnitPayloads codec mtu nal ((nalPayloads codec mtu nal).map (·.bytes)) := by
  unfold nalPayloads UnitPayloads
  simp only [List.isEmpty_iff,if_neg hne]
  by_cases hshort : nal.length ≤ mtu - 12
  · simp only [if_pos hshort]
    exact ⟨[.single nal],.cons (reads_single hne ht) .nil,.single nal,rfl⟩
  · simp only [if_neg hshort]
    cases codec with
    | h264 =>
      obtain ⟨header,rest,rfl⟩ := List.exists_cons_of_ne_nil hne
      rw [List.length_cons] at hshort
      obtain ⟨pieces,hp,hcarry,hflags⟩ := fragments_carry (reads_fuH264 header rest)
        (by omega : 0 < mtu - 12 - 2) (header :: rest).length rest (by omega) (by simp)
      exact ⟨pieces,hp,hcarry,(map_fuFlags hp).symm ▸ hflags⟩
    | h265 =>
      obtain ⟨-,hl⟩ := ht
      match nal,hl with
      | header :: second :: rest,_ =>
        simp only [List.length_cons] at hshort
        obtain ⟨pieces,hp,hcarry,hflags⟩ := fragments_carry (reads_fuH265 header second rest)
          (by omega : 0 < mtu - 12 - 3) (header :: second :: rest).length rest (by omega)
          (by simp only [List.length_cons]; omega)
        rw [if_neg (by simp only [List.length_cons]; omega)]
        exact ⟨pieces,hp,hcarry,(map_fuFlags hp).symm ▸ hflags⟩

theorem readPayloads_of_reads {payloads : List Bytes} {pieces : List (Piece UInt8)}
    (h : List.Forall₂ (Reads codec) payloads pieces) : readPayloads codec payloads = some pieces := by
  induction h with
  | nil => rfl
  | cons hr _ ih =>
    rw [Reads] at hr
    simp [readPayloads,hr,ih]

theorem markedPayloads_groups (codec : VideoCodec) (mtu : Nat) (nals : List Bytes) :
    (markedPayloads codec mtu nals).map (·.1) =
      (nals.map fun nal => (nalPayloads codec mtu nal).map (·.bytes)).flatten := by
  induction nals with
  | nil => rfl
  | cons nal rest ih =>
    rw [markedPayloads,List.map_append,List.map_map,ih]
    rfl

theorem numberPackets_payloads (timestamp ssrc : UInt32) (payloads : List (Bytes × Bool))
    (sequence : UInt16) :
    (numberPackets timestamp ssrc payloads sequence).1.map (fun p => rtpPayload p.bytes) =
      payloads.map (·.1) := by
  induction payloads generalizing sequence with
  | nil => rfl
  | cons p rest ih =>
    have hp : rtpPayload (makeRtpPacket p.1 p.2 sequence timestamp ssrc) = p.1 := by
      rw [makeRtpPacket_eq,← List.append_assoc,← List.append_assoc,← List.append_assoc]
      exact List.drop_left' (by simp)
    simp only [numberPackets,List.map_cons,hp,ih]

theorem payloads_carry {mtu : Nat} (hm : 16 ≤ mtu) (nals : List Bytes)
    (h : ∀ nal ∈ nals, nal ≠ [] ∧ CarriedType codec nal) :
    ∃ pieces groups, List.Forall₂ (Reads codec)
        ((nals.map fun nal => (nalPayloads codec mtu nal).map (·.bytes)).flatten) pieces ∧
      pieces = groups.flatten ∧ List.Forall₂ Carries nals groups := by
  induction nals with
  | nil => exact ⟨[],[],.nil,rfl,.nil⟩
  | cons nal rest ih =>
    obtain ⟨hne,ht⟩ := h nal (by simp)
    obtain ⟨group,hg,hcarry,-⟩ := nalPayloads_carry hm hne ht
    obtain ⟨pieces,groups,hp,rfl,hgroups⟩ := ih fun x hx => h x (by simp [hx])
    exact ⟨_,group :: groups,List.rel_append hg hp,rfl,.cons hcarry hgroups⟩

theorem payloads_nonempty {payloads : List Bytes} {pieces : List (Piece UInt8)}
    (h : List.Forall₂ (Reads codec) payloads pieces) : ∀ p ∈ payloads, p ≠ [] := by
  induction h with
  | nil => simp
  | cons hr _ ih =>
    rintro p hp rfl
    rcases List.mem_cons.mp hp with rfl | hp
    · cases codec <;> cases hr
    · exact ih [] hp rfl

end

theorem packetization_lossless (codec : VideoCodec) (nals : List Bytes) (sequence : UInt16)
    (timestamp ssrc : UInt32) (mtu : Nat) (hm : 16 ≤ mtu)
    (h : ∀ nal ∈ nals, nal ≠ [] ∧ CarriedType codec nal) :
    ∃ packets next, packetizeAccessUnit codec nals sequence timestamp ssrc mtu = .ok (packets,next) ∧
      depacketize codec (packets.map fun p => rtpPayload p.bytes) = some nals ∧
      (∀ p ∈ packets, 13 ≤ p.bytes.length ∧ p.bytes.length ≤ mtu) ∧
      ∃ groups : List (List Bytes), (packets.map fun p => rtpPayload p.bytes) = groups.flatten ∧
        List.Forall₂ (UnitPayloads codec mtu) nals groups := by
  have hok : packetizeAccessUnit codec nals sequence timestamp ssrc mtu =
      .ok (numberPackets timestamp ssrc (markedPayloads codec mtu nals) sequence) :=
    if_neg (by omega)
  have hpayloads := numberPackets_payloads timestamp ssrc (markedPayloads codec mtu nals) sequence
  rw [markedPayloads_groups] at hpayloads
  obtain ⟨pieces,groups,hreads,hflat,hcarries⟩ := payloads_carry hm nals h
  refine ⟨_,_,hok,?_,fun p hp => ⟨?_,packetize_size hok p hp⟩,_,hpayloads,?_⟩
  · rw [hpayloads,depacketize,readPayloads_of_reads hreads,hflat]
    exact reassemble_carried hcarries
  · have hne := payloads_nonempty hreads (rtpPayload p.bytes)
      (hpayloads ▸ List.mem_map_of_mem hp)
    rw [rtpPayload,Ne,List.drop_eq_nil_iff] at hne
    omega
  · rw [List.forall₂_map_right_iff,List.forall₂_same]
    intro nal hn
    obtain ⟨_,_,_,hunit⟩ := nalPayloads_carry hm (h nal hn).1 (h nal hn).2
    exact hunit

theorem three_fragments_lossless :
    (∀ nal ∈ [[0x65,1,2,3,4,5,6],[0x67,9]], nal ≠ [] ∧ CarriedType .h264 nal) ∧
    ∃ packets next, packetizeAccessUnit .h264 [[0x65,1,2,3,4,5,6],[0x67,9]] 7 90000 1 16 = .ok (packets,next) ∧
      depacketize .h264 (packets.map fun p => rtpPayload p.bytes) = some [[0x65,1,2,3,4,5,6],[0x67,9]] := by
  have hn : ∀ nal ∈ [[0x65,1,2,3,4,5,6],[0x67,9]], nal ≠ [] ∧ CarriedType .h264 nal := by decide
  obtain ⟨packets,next,hok,hback,-⟩ := packetization_lossless .h264 _ 7 90000 1 16 (by decide) hn
  exact ⟨hn,packets,next,hok,hback⟩

end RpiVms

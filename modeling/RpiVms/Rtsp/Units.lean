import RpiVms.Rtsp.Extract
import RpiVms.Rtsp.Numerals

namespace RpiVms

open Search Framing

def IsFrame (u : Bytes) : Prop :=
  ∃ channel hi lo payload, u = dollar :: channel :: hi :: lo :: payload ∧
    payload.length = hi.toNat * 256 + lo.toNat

def contentLengthText (header : Bytes) : Option Bytes :=
  ((splitLinesKeepEmpty header).find? (startsWithCi · (ascii "Content-Length:"))).map fun line =>
    trimCopy (line.drop (ascii "Content-Length:").length)

def DeclaresBody (header : Bytes) (n : Nat) : Prop :=
  match contentLengthText header with
  | none => n = 0
  | some text => text ≠ [] ∧ text.all isDigit = true ∧ digitsValue text = n

structure IsMessage (maxHeader maxBody : Nat) (header body : Bytes) : Prop where
  start : isRtspMessageStartAt (header ++ body) 0 = true
  ends : find headerEnd (header ++ body) = some (header.length - 4)
  long : 4 ≤ header.length
  headerFits : header.length ≤ maxHeader
  declares : DeclaresBody header body.length
  bodyFits : body.length ≤ maxBody

def IsUnit (maxHeader maxBody : Nat) (u : Bytes) : Prop :=
  IsFrame u ∨ ∃ header body, u = header ++ body ∧ IsMessage maxHeader maxBody header body

theorem contentLength_text (header : Bytes) :
    contentLengthFromHeader header =
      match contentLengthText header with
      | none => 0
      | some text =>
          if text.isEmpty || !text.all isDigit then -1
          else match stoi text with
            | .ok r => r.value
            | .error _ => -1 := by
  unfold contentLengthFromHeader contentLengthText
  cases (splitLinesKeepEmpty header).find? (startsWithCi · (ascii "Content-Length:")) <;> rfl

theorem contentLength_declared {header : Bytes} {n : Nat} (h : DeclaresBody header n)
    (hn : n ≤ intMax) : contentLengthFromHeader header = n := by
  rw [contentLength_text]
  unfold DeclaresBody at h
  cases ht : contentLengthText header with
  | none =>
    have hz : n = 0 := by rw [ht] at h; exact h
    simp [hz]
  | some text =>
    rw [ht] at h
    obtain ⟨hne,hd,hv⟩ := h
    have hs := stoi_digits hne hd
    rw [if_pos (by omega)] at hs
    simp [hne,hd,hs,hv]

theorem contentLength_overflow {header : Bytes} {n : Nat} (h : DeclaresBody header n)
    (hn : intMax < n) : contentLengthFromHeader header = -1 := by
  rw [contentLength_text]
  unfold DeclaresBody at h
  cases ht : contentLengthText header with
  | none => rw [ht] at h; simp only at h; omega
  | some text =>
    rw [ht] at h
    obtain ⟨hne,hd,hv⟩ := h
    have hs := stoi_digits hne hd
    rw [if_neg (by omega)] at hs
    simp [hs]

theorem start_iff {s : Bytes} :
    isRtspMessageStartAt s 0 = true ↔ ∃ pre ∈ messagePrefixes, pre <+: s := by
  simp [isRtspMessageStartAt,startsWithAt,List.isPrefixOf_iff_prefix]

theorem prefixes_plain : ∀ pre ∈ messagePrefixes,
    (13 : UInt8) ∉ pre ∧ pre.head? ≠ some dollar ∧ pre ≠ [] := by decide

theorem prefixes_cut : ∀ pre ∈ messagePrefixes, ∀ p ∈ pre.inits, p ≠ pre →
    findNextMessageStart p 1 = none := by decide

theorem start_head {s : Bytes} (h : isRtspMessageStartAt s 0 = true) :
    s.head? ≠ some dollar := by
  obtain ⟨pre,hp,t,rfl⟩ := start_iff.mp h
  obtain ⟨-,hd,hne⟩ := prefixes_plain pre hp
  rwa [List.head?_append_of_ne_nil _ hne]

theorem prefix_before_headerEnd {s pre : Bytes} {n : Nat} (hp : pre ∈ messagePrefixes)
    (hs : pre <+: s) (h : find headerEnd s = some n) : pre.length ≤ n := by
  obtain ⟨-,he,-⟩ := find_eq_some.mp h
  obtain ⟨t,rfl⟩ := hs
  by_contra hc
  rw [List.drop_append_of_le_length (by omega)] at he
  obtain ⟨r,hr⟩ := he
  obtain ⟨b,q,hb⟩ : ∃ b q, pre.drop n = b :: q := by
    cases hd : pre.drop n with
    | nil => rw [List.drop_eq_nil_iff] at hd; omega
    | cons b q => exact ⟨b,q,rfl⟩
  rw [hb] at hr
  have hb13 : b = 13 := (List.cons.inj hr).1.symm
  refine (prefixes_plain pre hp).1 ?_
  rw [← hb13]
  exact List.drop_subset n pre (by simp [hb])

theorem IsMessage.opens {maxHeader maxBody : Nat} {header body : Bytes}
    (h : IsMessage maxHeader maxBody header body) :
    ∃ pre ∈ messagePrefixes, pre <+: header ∧ pre.length ≤ header.length - 4 := by
  obtain ⟨pre,hp,hs⟩ := start_iff.mp h.start
  have hle := prefix_before_headerEnd hp hs h.ends
  exact ⟨pre,hp,List.prefix_of_prefix_length_le hs (List.prefix_append _ _) (by omega),hle⟩

theorem IsMessage.head {maxHeader maxBody : Nat} {header body : Bytes}
    (h : IsMessage maxHeader maxBody header body) (t : Bytes) :
    (header ++ t).head? ≠ some dollar ∧ isRtspMessageStartAt (header ++ t) 0 = true := by
  obtain ⟨pre,hp,hs,-⟩ := h.opens
  have hstart : isRtspMessageStartAt (header ++ t) 0 = true :=
    start_iff.mpr ⟨pre,hp,hs.trans (List.prefix_append _ _)⟩
  exact ⟨start_head hstart,hstart⟩

theorem extractHeaded_message {limits : ParserLimits} {header body : Bytes}
    (h : IsMessage limits.maxHeaderBytes (min limits.maxBodyBytes intMax) header body)
    (t : Bytes) :
    extractHeaded limits (header ++ t) header.length =
      if t.length < body.length then .incomplete (header ++ t)
      else .found (header ++ t.take body.length) (t.drop body.length) := by
  have hfit := h.bodyFits
  have hlen := contentLength_declared h.declares (by omega)
  unfold extractHeaded
  rw [if_neg (by have := h.headerFits; omega)]
  simp only [List.take_left,hlen,Int.toNat_natCast,List.length_append,Nat.add_lt_add_iff_left]
  rw [if_neg (by simp; omega)]
  rw [List.take_length_add_append,List.drop_length_add_append]

theorem iteration_message {limits : ParserLimits} {header body : Bytes}
    (h : IsMessage limits.maxHeaderBytes (min limits.maxBodyBytes intMax) header body)
    {t : Bytes} (hf : find headerEnd (header ++ t) = some (header.length - 4)) :
    extractIteration limits (header ++ t) =
      if t.length < body.length then .incomplete (header ++ t)
      else .found (header ++ t.take body.length) (t.drop body.length) := by
  have hlong := h.long
  rcases iteration_cases limits (header ++ t) with ⟨hd,-⟩ | ⟨-,hs,-⟩ | ⟨-,-,hn,-⟩ | ⟨n,-,-,hn,he⟩
  · exact absurd hd (h.head t).1
  · rw [(h.head t).2] at hs; simp at hs
  · rw [hf] at hn; simp at hn
  · rw [hf] at hn
    simp only [Option.some.injEq] at hn
    rw [he,← hn,Nat.sub_add_cancel hlong]
    exact extractHeaded_message h t

theorem find_headerEnd_of_header {header body : Bytes} (hlong : 4 ≤ header.length)
    (h : find headerEnd (header ++ body) = some (header.length - 4)) (t : Bytes) :
    find headerEnd (header ++ t) = some (header.length - 4) := by
  have hcut := find_of_append (by decide) h (by simp [headerEnd]; omega)
  exact find_append hcut t

theorem iteration_frame {limits : ParserLimits} {channel hi lo : UInt8} {payload t : Bytes}
    (h : payload.length = hi.toNat * 256 + lo.toNat) :
    extractIteration limits (dollar :: channel :: hi :: lo :: t) =
      if t.length < payload.length then .incomplete (dollar :: channel :: hi :: lo :: t)
      else .found (dollar :: channel :: hi :: lo :: t.take payload.length)
        (t.drop payload.length) := by
  have hi : interleavedLength (dollar :: channel :: hi :: lo :: t) = payload.length := by
    simp [interleavedLength,h]
  simp only [extractIteration,List.head?_cons,beq_self_eq_true,if_true,extractInterleaved,hi,
    List.length_cons]
  rw [if_neg (by omega)]
  by_cases hl : t.length < payload.length
  · rw [if_pos (by omega),if_pos hl]
  · rw [if_neg (by omega),if_neg hl,Nat.add_comm 4]
    rfl

theorem iteration_unit (limits : ParserLimits) {u : Bytes} (rest : Bytes)
    (h : IsUnit limits.maxHeaderBytes (min limits.maxBodyBytes intMax) u) :
    extractIteration limits (u ++ rest) = .found u rest := by
  rcases h with ⟨channel,hi,lo,payload,rfl,hl⟩ | ⟨header,body,rfl,hm⟩
  · have hlen : ¬ (payload ++ rest).length < payload.length := by simp
    simp only [List.cons_append]
    rw [iteration_frame hl,if_neg hlen,List.take_left,List.drop_left]
  · have hf := find_headerEnd_of_header hm.long hm.ends (body ++ rest)
    rw [List.append_assoc,iteration_message hm hf]
    simp

theorem unit_ne_nil {maxHeader maxBody : Nat} {u : Bytes} (h : IsUnit maxHeader maxBody u) :
    u ≠ [] := by
  rcases h with ⟨channel,hi,lo,payload,rfl,-⟩ | ⟨header,body,rfl,hm⟩
  · simp
  · have := hm.long
    rintro he
    simp [(List.append_eq_nil_iff.mp he).1] at this

theorem whole_unit (limits : ParserLimits) {u : Bytes} (rest : Bytes)
    (h : IsUnit limits.maxHeaderBytes (min limits.maxBodyBytes intMax) u) :
    extractOneRtspMessage limits (u ++ rest) = some (.unit u rest) :=
  extract_found (by simp [unit_ne_nil h]) (iteration_unit limits rest h)

theorem frame_of_found {buffer m rest : Bytes} (hd : buffer.head? = some dollar)
    (h : extractInterleaved buffer = .found m rest) : IsFrame m := by
  obtain ⟨hk,rfl,-⟩ := interleaved_found h
  rcases buffer with _ | ⟨a,_ | ⟨channel,_ | ⟨hi,_ | ⟨lo,payload⟩⟩⟩⟩
  · simp at hd
  · simp at hk; omega
  · simp at hk; omega
  · simp at hk; omega
  · obtain rfl : a = dollar := by simpa using hd
    have hlen : interleavedLength (dollar :: channel :: hi :: lo :: payload) =
        hi.toNat * 256 + lo.toNat := by simp [interleavedLength]
    rw [hlen] at hk ⊢
    refine ⟨channel,hi,lo,payload.take (hi.toNat * 256 + lo.toNat),?_,?_⟩
    · rw [Nat.add_comm 4]; rfl
    · simp only [List.length_cons] at hk
      simp
      omega

theorem declared_of_contentLength {header : Bytes} (h : 0 ≤ contentLengthFromHeader header) :
    DeclaresBody header (contentLengthFromHeader header).toNat ∧
      (contentLengthFromHeader header).toNat ≤ intMax := by
  rw [contentLength_text] at h ⊢
  unfold DeclaresBody
  cases ht : contentLengthText header with
  | none => exact ⟨rfl,Nat.zero_le _⟩
  | some text =>
    rw [ht] at h
    by_cases hbad : (text.isEmpty || !text.all isDigit) = true
    · simp only [hbad,if_true] at h
      omega
    · simp only [Bool.or_eq_true,Bool.not_eq_true',not_or,Bool.not_eq_false,
        List.isEmpty_iff] at hbad
      have hs := stoi_digits hbad.1 hbad.2
      by_cases hv : digitsValue text ≤ intMax
      · rw [if_pos hv] at hs
        simp [hbad.1,hbad.2,hs,hv]
      · rw [if_neg hv] at hs
        simp [hs] at h

theorem message_of_found {limits : ParserLimits} {buffer m rest : Bytes} {n : Nat}
    (hs : isRtspMessageStartAt buffer 0 = true) (hn : find headerEnd buffer = some n)
    (h : extractHeaded limits buffer (n + 4) = .found m rest) :
    ∃ header body, m = header ++ body ∧
      IsMessage limits.maxHeaderBytes (min limits.maxBodyBytes intMax) header body := by
  have hle := find_le hn
  simp only [headerEnd,List.length_cons,List.length_nil] at hle
  rcases extractHeaded_cases limits buffer (n + 4) with hc | ⟨hk,h0,hb,hc | ⟨hlen,hc⟩⟩ <;>
    rw [hc] at h
  · simp at h
  · simp at h
  simp only [Iteration.found.injEq] at h
  obtain ⟨rfl,-⟩ := h
  obtain ⟨hd,hi⟩ := declared_of_contentLength h0
  generalize hL : (contentLengthFromHeader (buffer.take (n + 4))).toNat = L at *
  have hsplit : buffer.take (n + 4 + L) = buffer.take (n + 4) ++ (buffer.drop (n + 4)).take L :=
    List.take_add
  have hhl : (buffer.take (n + 4)).length = n + 4 := by simp; omega
  have hbl : ((buffer.drop (n + 4)).take L).length = L := by simp; omega
  have hwhole : buffer.take (n + 4 + L) ++ buffer.drop (n + 4 + L) = buffer :=
    List.take_append_drop _ _
  have htl : (buffer.take (n + 4 + L)).length = n + 4 + L := by simp; omega
  refine ⟨_,_,hsplit,?_,?_,by omega,by omega,by rwa [hbl],by omega⟩
  · obtain ⟨pre,hp,hpre⟩ := start_iff.mp hs
    have hbefore := prefix_before_headerEnd hp hpre hn
    rw [← hsplit]
    exact start_iff.mpr ⟨pre,hp,List.prefix_of_prefix_length_le hpre (List.take_prefix _ _) (by omega)⟩
  · rw [← hsplit,hhl,Nat.add_sub_cancel]
    refine find_of_append (by decide) (hwhole.symm ▸ hn) ?_
    simp only [headerEnd,htl,List.length_cons,List.length_nil]
    omega

theorem iteration_found_iff {limits : ParserLimits} {buffer m rest : Bytes} :
    extractIteration limits buffer = .found m rest ↔
      buffer = m ++ rest ∧ IsUnit limits.maxHeaderBytes (min limits.maxBodyBytes intMax) m := by
  constructor
  · intro h
    have hsplit : buffer = m ++ rest := by
      obtain ⟨k,-,-,rfl,rfl⟩ := iteration_found h
      exact (List.take_append_drop k buffer).symm
    refine ⟨hsplit,?_⟩
    rcases iteration_cases limits buffer with
      ⟨hd,he⟩ | ⟨-,-,he | he⟩ | ⟨-,-,-,he | he⟩ | ⟨n,-,hs,hn,he⟩ <;> rw [he] at h
    · exact .inl (frame_of_found hd h)
    · simp at h
    · simp at h
    · simp at h
    · simp at h
    · exact .inr (message_of_found hs hn h)
  · rintro ⟨rfl,hu⟩
    exact iteration_unit limits rest hu

theorem extract_isUnit {limits : ParserLimits} {buffer m rest : Bytes}
    (h : extractOneRtspMessage limits buffer = some (.unit m rest)) :
    IsUnit limits.maxHeaderBytes (min limits.maxBodyBytes intMax) m := by
  refine extract_unit_rec (P := fun _ m _ => IsUnit limits.maxHeaderBytes (min limits.maxBodyBytes intMax) m) ?_ ?_ h
  · exact fun b m b' _ hi => (iteration_found_iff.mp hi).2
  · exact fun b b' m rest _ _ ih => ih

theorem resync_keeps {limits : ParserLimits} {p : Bytes} (hn : findNextMessageStart p 1 = none)
    (hl : p.length ≤ limits.maxHeaderBytes) : resyncMessageBuffer p limits = (false,p) := by
  rcases resync_cases p limits with ⟨next,hs,-⟩ | ⟨-,hgt,-⟩ | ⟨-,-,hr⟩
  · rw [hn] at hs; simp at hs
  · omega
  · exact hr

theorem cut_frame (limits : ParserLimits) {u p : Bytes} (h : IsFrame u) (hp : p <+: u)
    (hne : p ≠ u) (hnil : p ≠ []) : extractIteration limits p = .incomplete p := by
  obtain ⟨channel,hi,lo,payload,rfl,hl⟩ := h
  obtain ⟨t,ht⟩ := hp
  rcases p with _ | ⟨a,_ | ⟨b,_ | ⟨c,_ | ⟨d,p⟩⟩⟩⟩
  · exact absurd rfl hnil
  · obtain rfl : a = dollar := (List.cons.inj ht).1
    simp [extractIteration,extractInterleaved]
  · obtain rfl : a = dollar := (List.cons.inj ht).1
    simp [extractIteration,extractInterleaved]
  · obtain rfl : a = dollar := (List.cons.inj ht).1
    simp [extractIteration,extractInterleaved]
  · simp only [List.cons_append,List.cons.injEq] at ht
    obtain ⟨rfl,rfl,rfl,rfl,rfl⟩ := ht
    have hlt : p.length < (p ++ t).length := by
      have : t ≠ [] := by rintro rfl; simp at hne
      have := List.length_pos_iff.mpr this
      simp; omega
    rw [iteration_frame hl,if_pos hlt]

theorem cut_message (limits : ParserLimits) {header body p : Bytes}
    (h : IsMessage limits.maxHeaderBytes (min limits.maxBodyBytes intMax) header body)
    (hp : p <+: header ++ body) (hne : p ≠ header ++ body) (hnil : p ≠ []) :
    extractIteration limits p = .incomplete p := by
  have hlong := h.long
  have hfits := h.headerFits
  obtain ⟨pre,hmem,hpre,hbefore⟩ := h.opens
  by_cases hlen : header.length ≤ p.length
  · -- the header is complete: only body bytes are missing
    have hh : header <+: p := List.prefix_of_prefix_length_le (List.prefix_append _ _) hp hlen
    obtain ⟨t,rfl⟩ := hh
    have htb : t <+: body := by simpa [List.prefix_append_right_inj] using hp
    have hlt : t.length < body.length := by
      rcases Nat.lt_or_ge t.length body.length with hlt | hge
      · exact hlt
      · exact absurd (by rw [htb.eq_of_length_le hge]) hne
    rw [iteration_message h (find_headerEnd_of_header h.long h.ends t),if_pos hlt]
  · have hnone : find headerEnd p = none :=
      find_prefix_none h.ends hp (by simp [headerEnd]; omega)
    have hhead : p.head? ≠ some dollar := by
      obtain ⟨t,ht⟩ := hp
      have := (h.head body).1
      rwa [← ht,List.head?_append_of_ne_nil _ hnil] at this
    have hkeep : resyncMessageBuffer p limits = (false,p) ∨ isRtspMessageStartAt p 0 = true := by
      by_cases hs : pre.length ≤ p.length
      · right
        exact start_iff.mpr ⟨pre,hmem,List.prefix_of_prefix_length_le
          (hpre.trans (List.prefix_append _ _)) hp hs⟩
      · left
        have hpp : p <+: pre := List.prefix_of_prefix_length_le hp
          (hpre.trans (List.prefix_append _ _)) (by omega)
        refine resync_keeps (prefixes_cut pre hmem p ((List.mem_inits _ _).mpr hpp) ?_) (by omega)
        rintro rfl
        exact hs le_rfl
    unfold extractIteration
    rw [if_neg (by simpa using hhead)]
    rcases hkeep with hr | hs
    · cases hs : isRtspMessageStartAt p 0 with
      | false => simp [hr]
      | true => simp [hnone]; omega
    · simp [hs,hnone]; omega

theorem cut_unit (limits : ParserLimits) {u p : Bytes}
    (h : IsUnit limits.maxHeaderBytes (min limits.maxBodyBytes intMax) u) (hp : p <+: u)
    (hne : p ≠ u) : extractOneRtspMessage limits p = some (.wait p) := by
  by_cases hnil : p = []
  · rw [hnil]; exact extract_nil limits
  apply extract_incomplete hnil
  rcases h with hf | ⟨header,body,rfl,hm⟩
  · exact cut_frame limits hf hp hne hnil
  · exact cut_message limits hm hp hne hnil

section

variable {limits : ParserLimits} {maxHeader maxBody : Nat} {header body : Bytes}

-- stoi is out of range above INT_MAX, so the loop takes the invalid Content-Length branch
theorem oversize_resyncs (h : IsMessage maxHeader maxBody header body) (hb : intMax < body.length) :
    extractIteration limits (header ++ body) =
      .again (resyncMessageBuffer (header ++ body) limits).2 := by
  have hl := h.long
  have hc : contentLengthFromHeader ((header ++ body).take header.length) = -1 := by
    rw [List.take_left]
    exact contentLength_overflow h.declares hb
  rcases iteration_cases limits (header ++ body) with ⟨hd,-⟩ | ⟨-,hn,-⟩ | ⟨-,-,hn,-⟩ | ⟨n,-,-,hn,he⟩
  · exact absurd hd (start_head h.start)
  · rw [h.start] at hn
    simp at hn
  · rw [h.ends] at hn
    simp at hn
  · rw [h.ends,Option.some.injEq] at hn
    rw [he,← hn,Nat.sub_add_cancel hl]
    rcases extractHeaded_cases limits (header ++ body) header.length with hr | ⟨-,h0,-⟩
    · exact hr
    · rw [hc] at h0
      omega

theorem oversize_not_returned (h : IsMessage maxHeader maxBody header body)
    (hb : intMax < body.length) (rest : Bytes) :
    extractOneRtspMessage limits (header ++ body) ≠ some (.unit (header ++ body) rest) := by
  have hl := h.long
  have hne : header ++ body ≠ [] := by
    intro he
    rw [(List.append_eq_nil_iff.mp he).1] at hl
    simp at hl
  rw [extract_again hne (oversize_resyncs h hb)]
  split
  · simp
  · rename_i hsame
    intro hx
    obtain ⟨d,hd⟩ := extract_conserves hx
    rcases resync_shrinks (header ++ body) limits with hr | hr
    · exact hsame hr
    · have := congrArg List.length hd
      simp only [List.length_append] at this hr
      omega

end

theorem extract_frames (limits : ParserLimits) :
    Frames (extractOneRtspMessage limits)
      (IsUnit limits.maxHeaderBytes (min limits.maxBodyBytes intMax)) where
  ne_nil := unit_ne_nil
  whole := fun rest h => whole_unit limits rest h
  cut := fun h hp hne => cut_unit limits h hp hne
  empty := extract_nil limits

theorem framing_ignores_cuts (limits : ParserLimits) (units chunks : List Bytes)
    (hu : ∀ u ∈ units, IsUnit limits.maxHeaderBytes (min limits.maxBodyBytes intMax) u)
    (hc : chunks.flatten = units.flatten) :
    feed (extractOneRtspMessage limits) [] chunks = some (units,[]) :=
  feed_units (extract_frames limits) units chunks hu hc

theorem framing_across_a_cut_method :
    feed (extractOneRtspMessage {}) []
      [ascii "SET",ascii "UP /ch1 RTSP/1.0\r\nContent-Length: 2\r\n\r",ascii "\n$",
        [36,36,1,0],[2,13],[10]] =
      some ([ascii "SETUP /ch1 RTSP/1.0\r\nContent-Length: 2\r\n\r\n$$",[36,1,0,2,13,10]],[]) := by
  refine framing_ignores_cuts {} _ _ ?_ (by decide)
  intro u hu
  rcases List.mem_cons.mp hu with rfl | hu
  · refine .inr ⟨ascii "SETUP /ch1 RTSP/1.0\r\nContent-Length: 2\r\n\r\n",ascii "$$",by decide,?_⟩
    have ht : contentLengthText (ascii "SETUP /ch1 RTSP/1.0\r\nContent-Length: 2\r\n\r\n") =
        some (ascii "2") := by decide
    exact ⟨by decide,by decide,by decide,by decide,by simp only [DeclaresBody,ht]; decide,by decide⟩
  · obtain rfl : u = [36,1,0,2,13,10] := by simpa using hu
    exact .inl ⟨1,0,2,[13,10],rfl,rfl⟩

def hugeHeader : Bytes :=
  ascii "ANNOUNCE /ch1 RTSP/1.0\r\nCSeq: 1\r\nContent-Length: 2147483648\r\n\r\n"

def hugeLimits : ParserLimits := ⟨16 * 1024,2147483648⟩

theorem hugeHeader_message (body : Bytes) (hb : body.length = 2147483648) :
    IsMessage hugeLimits.maxHeaderBytes hugeLimits.maxBodyBytes hugeHeader body where
  start := start_iff.mpr ⟨ascii "ANNOUNCE ",by decide,
    (show ascii "ANNOUNCE " <+: hugeHeader by decide).trans (List.prefix_append _ _)⟩
  ends := find_append (show find headerEnd hugeHeader = some (hugeHeader.length - 4) by decide) body
  long := by decide
  headerFits := by decide
  declares := by
    have ht : contentLengthText hugeHeader = some (ascii "2147483648") := by decide
    simp only [DeclaresBody,ht,hb]
    decide
  bodyFits := by rw [hb]; decide

theorem framing_stops_at_int :
    IsUnit hugeLimits.maxHeaderBytes hugeLimits.maxBodyBytes
      (hugeHeader ++ List.replicate 2147483648 0) ∧
    feed (extractOneRtspMessage hugeLimits) [] [hugeHeader ++ List.replicate 2147483648 0] ≠
      some ([hugeHeader ++ List.replicate 2147483648 0],[]) := by
  have hm := hugeHeader_message (List.replicate 2147483648 0) List.length_replicate
  have hbig : intMax < (List.replicate 2147483648 (0 : UInt8)).length := by
    rw [List.length_replicate]
    decide
  refine ⟨.inr ⟨_,_,rfl,hm⟩,?_⟩
  generalize List.replicate 2147483648 (0 : UInt8) = body at hm hbig
  intro h
  simp only [feed,List.nil_append,Option.bind_eq_some_iff,Option.map_some,Option.some.injEq,
    Prod.mk.injEq,List.append_nil] at h
  obtain ⟨⟨us,rest⟩,hd,rfl,-⟩ := h
  obtain ⟨b,hb⟩ := drain_head hd
  exact oversize_not_returned hm hbig b hb

end RpiVms

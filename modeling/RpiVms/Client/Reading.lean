import RpiVms.Client.Program
import RpiVms.Live.Response
import RpiVms.Live.RtpStream
import RpiVms.Rtsp.Blocks
import RpiVms.Library.Framing

namespace RpiVms

open Search Segments Framing

theorem isTrimmed_space {b : UInt8} (h : isTrimmed b = true) : isSpace b = true := by
  simp only [isTrimmed,Bool.or_eq_true,beq_iff_eq] at h
  rcases h with ((rfl | rfl) | rfl) | rfl <;> decide

theorem scanNumeral_blank {s t : Bytes} (hs : ∀ b ∈ s, isSpace b = true) :
    scanNumeral (s ++ t) = scanNumeral t := by
  unfold scanNumeral
  rw [List.dropWhile_append_of_pos hs]

theorem stoi_trimmed {s : Bytes} (hne : trimCopy s ≠ []) (hd : (trimCopy s).all isDigit = true)
    (hle : digitsValue (trimCopy s) ≤ intMax) :
    ∃ consumed, stoi s = .ok ⟨digitsValue (trimCopy s),consumed⟩ := by
  have hsplit : s = s.takeWhile isTrimmed ++
      (trimCopy s ++ (s.dropWhile isTrimmed).rtakeWhile isTrimmed) := by
    rw [trimCopy,List.rdropWhile_append_rtakeWhile,List.takeWhile_append_dropWhile]
  have htail : ∀ b, ((s.dropWhile isTrimmed).rtakeWhile isTrimmed).head? = some b → isDigit b = false := by
    intro b hb
    have htrim := List.mem_rtakeWhile_imp (List.mem_of_mem_head? hb)
    by_contra hdigit
    rw [Bool.not_eq_false] at hdigit
    rw [isDigit_not_trimmed hdigit] at htrim
    cases htrim
  have hlead : ∀ b ∈ s.takeWhile isTrimmed, isSpace b = true := fun b hb =>
    isTrimmed_space (List.mem_takeWhile_imp hb)
  have hscan : scanNumeral s =
      ⟨false,trimCopy s,(s.dropWhile isTrimmed).rtakeWhile isTrimmed⟩ := by
    conv_lhs => rw [hsplit]
    rw [scanNumeral_blank hlead,scanNumeral_digits_append hne hd htail]
  have hfits : fitsInt (digitsValue (trimCopy s)) = true := (fitsInt_nat _).mpr hle
  refine ⟨s.length - ((s.dropWhile isTrimmed).rtakeWhile isTrimmed).length,?_⟩
  simp [stoi,hscan,hne,Numeral.value,hfits]

theorem segments_header {maxHeader maxBody : Nat} {header body : Bytes}
    (h : IsMessage maxHeader maxBody header body) : (segments crlf header).2 = [] := by
  obtain ⟨first,fields,rfl,hlines,-⟩ := h.block
  rw [segments_block _ hlines.allPlain]

theorem headerValue_block {pre post : List Bytes} {line name : Bytes}
    (h : HeaderLines (pre ++ line :: post))
    (hpre : ∀ l ∈ pre, startsWithCi l (lowerCopy name ++ ascii ":") = false)
    (hline : startsWithCi line (lowerCopy name ++ ascii ":") = true) (body : Bytes) :
    headerValue (messageHeaderPart (headerBlock (pre ++ line :: post) ++ body)) name =
      trimCopy (line.drop (name.length + 1)) := by
  rw [messageHeaderPart_block h.ne_nil h.plain,headerValue,segments_block _ h.allPlain,List.append_assoc,
    find?_skip_plain hpre,List.cons_append,
    List.find?_cons_of_pos (p := fun l => startsWithCi l (lowerCopy name ++ ascii ":")) hline]

namespace RtspsClient

section

variable {maxHeader maxBody : Nat} {header body : Bytes}

theorem client_length (h : IsMessage maxHeader maxBody header body) (hb : body.length ≤ intMax) :
    contentLengthFromHeader header = .ok body.length := by
  have hlines : splitLinesKeepEmpty header = (segments crlf header).1 := by
    simp [splitLinesKeepEmpty,segments_header h]
  have hdeclares := h.declares
  unfold DeclaresBody contentLengthText at hdeclares
  rw [hlines] at hdeclares
  unfold contentLengthFromHeader
  cases hfind : (segments crlf header).1.find? (startsWithCi · (ascii "Content-Length:")) with
  | none =>
    rw [hfind] at hdeclares
    exact congrArg Except.ok (Eq.symm hdeclares)
  | some line =>
    rw [hfind] at hdeclares
    obtain ⟨hne,hd,hv⟩ := hdeclares
    obtain ⟨consumed,hstoi⟩ := stoi_trimmed hne hd (hv ▸ hb)
    rw [hv] at hstoi
    simp only [hstoi]
    exact congrArg Except.ok (by omega)

theorem client_headerEnd (h : IsMessage maxHeader maxBody header body) (t : Bytes) :
    find headerEnd (header ++ t) = some (header.length - 4) :=
  find_headerEnd_of_header h.long h.ends t

theorem reading_message (h : IsMessage maxHeader maxBody header body) (hb : body.length ≤ intMax) (t : Bytes) :
    readOneRtspResponse (header ++ t) =
      if body.length ≤ t.length then
        .ok (.response ⟨responseStatus header,header,t.take body.length⟩ (t.drop body.length))
      else .ok .more := by
  have hlen : header.length - 4 + 4 = header.length := Nat.sub_add_cancel h.long
  unfold readOneRtspResponse
  rw [if_neg (h.head t).1,client_headerEnd h t]
  simp only [hlen,List.take_left,client_length h hb,List.length_append,Nat.add_le_add_iff_left,List.drop_left,
    ← List.drop_drop]

structure Answer (message : Bytes) (r : Response) : Prop where
  whole : ∀ rest, readOneRtspResponse (message ++ rest) = .ok (.response r rest)
  cut : ∀ p, p <+: message → p ≠ message → readOneRtspResponse p = .ok .more

theorem answer_message (h : IsMessage maxHeader maxBody header body) (hb : body.length ≤ intMax) :
    Answer (header ++ body) ⟨responseStatus header,header,body⟩ where
  whole := fun rest => by
    rw [List.append_assoc,reading_message h hb,if_pos (by simp),List.take_left,List.drop_left]
  cut := fun p hp hne => by
    by_cases hl : header.length ≤ p.length
    · obtain ⟨t,rfl⟩ := List.prefix_of_prefix_length_le (List.prefix_append header body) hp hl
      have ht : t <+: body := (List.prefix_append_right_inj header).mp hp
      have hshort : t.length < body.length := by
        refine Nat.lt_of_le_of_ne ht.length_le fun he => hne ?_
        rw [ht.eq_of_length he]
      rw [reading_message h hb,if_neg (by omega)]
    · have hnone : find headerEnd p = none := by
        refine find_prefix_none h.ends hp ?_
        have := h.long
        simp only [headerEnd,List.length_cons,List.length_nil]
        omega
      have hhead : p.head? ≠ some dollar := by
        intro hd
        obtain ⟨q,rfl⟩ := List.head?_eq_some_iff.mp hd
        obtain ⟨s,hs⟩ := hp
        refine (h.head body).1 ?_
        rw [← hs]
        rfl
      unfold readOneRtspResponse
      rw [if_neg hhead,hnone]

end

section

variable {u p : Bytes}

theorem frame_length (h : IsFrame u) (rest : Bytes) : 4 + interleavedLength (u ++ rest) = u.length := by
  obtain ⟨channel,hi,lo,payload,rfl,hl⟩ := h
  simp [interleavedLength,hl]
  omega

theorem count_frame (h : IsFrame u) (rest : Bytes) : countPass (u ++ rest) = .ok (.packet u rest) := by
  have hl := frame_length h rest
  have hdollar : (u ++ rest).head? = some dollar := by
    obtain ⟨channel,hi,lo,payload,rfl,-⟩ := h
    rfl
  unfold countPass
  rw [if_pos (by simp [hdollar]; omega)]
  simp only [hl,List.length_append,List.take_left,List.drop_left]
  rw [if_neg (by omega)]

theorem count_cut (h : IsFrame u) (hp : p <+: u) (hne : p ≠ u) : countPass p = .ok .wait := by
  have hshort : p.length < u.length :=
    Nat.lt_of_le_of_ne hp.length_le fun he => hne (hp.eq_of_length he)
  obtain ⟨t,rfl⟩ := hp
  by_cases hfour : 4 ≤ p.length
  · have hl := frame_length h []
    have hsame : interleavedLength (p ++ t) = interleavedLength p := by
      simp only [interleavedLength,List.getD_eq_getElem?_getD]
      rw [List.getElem?_append_left (by omega),List.getElem?_append_left (by omega)]
    rw [List.append_nil,hsame] at hl
    have hdollar : p.head? = some dollar := by
      obtain ⟨channel,hi,lo,payload,hu,-⟩ := h
      obtain ⟨b,q,rfl⟩ := List.exists_cons_of_length_pos (show 0 < p.length by omega)
      exact congrArg some (List.cons.inj hu).1
    unfold countPass
    rw [if_pos (by simp [hdollar]; omega)]
    simp only [hl]
    rw [if_pos hshort]
  · have hnone : find headerEnd p = none := by
      cases hf : find headerEnd p with
      | none => rfl
      | some n =>
        have := find_le hf
        simp only [headerEnd,List.length_cons,List.length_nil] at this
        omega
    unfold countPass
    rw [if_neg (by simp; omega),hnone]

theorem count_pending {us : List Bytes} (hus : ∀ u ∈ us, IsFrame u) (hp : Pending us p) :
    countPass p = .ok .wait := by
  rcases hp with rfl | ⟨u,vs,rfl,hpre,hne⟩
  · rfl
  · exact count_cut (hus u (by simp)) hpre hne

theorem countLoop_frames (us : List Bytes) (hus : ∀ u ∈ us, IsFrame u) (hp : countPass p = .ok .wait)
    (counters : Counters) (fuel : Nat) (hf : us.length < fuel) :
    countLoop fuel counters (us.flatten ++ p) = .ok (us.foldl Counters.packet counters,p) := by
  induction us generalizing counters fuel with
  | nil =>
    obtain ⟨k,rfl⟩ := Nat.exists_eq_succ_of_ne_zero (Nat.ne_of_gt hf)
    simp [countLoop,hp]
  | cons u us ih =>
    obtain ⟨k,rfl⟩ := Nat.exists_eq_succ_of_ne_zero (Nat.ne_zero_of_lt hf)
    have hu := count_frame (hus u (by simp)) (us.flatten ++ p)
    have hrest := ih (fun v hv => hus v (by simp [hv])) (counters.packet u) k (by simpa using hf)
    simp [countLoop,hu,hrest]

theorem frame_ne_nil (h : IsFrame u) : u ≠ [] := by
  obtain ⟨channel,hi,lo,payload,rfl,-⟩ := h
  simp

theorem countRtpPackets_frames {us : List Bytes} (hus : ∀ u ∈ us, IsFrame u) (hp : countPass p = .ok .wait)
    (counters : Counters) :
    countRtpPackets counters (us.flatten ++ p) = .ok (us.foldl Counters.packet counters,p) := by
  refine countLoop_frames us hus hp counters _ ?_
  have := length_le_flatten frame_ne_nil us hus
  simp only [List.length_append]
  omega

end

end RtspsClient

end RpiVms

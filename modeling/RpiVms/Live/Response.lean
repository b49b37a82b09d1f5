import RpiVms.Live.Control
import RpiVms.Rtsp.Headers
import RpiVms.Rtsp.Units

namespace RpiVms

open Search Segments

theorem validSession_plain {header expected : Bytes} (hv : validSessionHeader header expected = true)
    (hp : Plain header) : Plain expected ∧ expected ≠ [] := by
  simp only [validSessionHeader,Bool.and_eq_true,Bool.or_eq_true,Bool.not_eq_true',
    List.isEmpty_eq_false_iff,beq_iff_eq] at hv
  refine ⟨?_,hv.1⟩
  rcases hv.2 with rfl | hs
  · exact hp
  · obtain ⟨-,he⟩ := startsWithCi_eq hs
    have hl : Plain (lowerCopy (expected ++ ascii ";")) := by
      rw [← he]
      exact (plain_lower _).mpr (hp.infix_of (List.take_prefix _ _).isInfix)
    exact ((plain_lower _).mp hl).infix_of (List.prefix_append _ _).isInfix

def responseLines (status : Nat) (cseq : Bytes) (headers : List Bytes) (body : Bytes) : List Bytes :=
  statusLine status :: ((if cseq.isEmpty then [] else [ascii "CSeq: " ++ cseq]) ++
    [ascii "Server: rpi-vms-m3"] ++ headers ++
    (if body.isEmpty then [] else [ascii "Content-Length: " ++ decimal body.length]))

theorem makeResponse_lines (status : Nat) (cseq : Bytes) (headers : List Bytes) (body : Bytes) :
    makeResponse status cseq headers body =
      headerBlock (responseLines status cseq headers body) ++ body := by
  unfold makeResponse responseLines headerBlock
  cases cseq.isEmpty <;> cases body.isEmpty <;> simp

structure PlainHeader (h : Bytes) : Prop where
  plain : Plain h
  ne_nil : h ≠ []
  no_length : startsWithCi h (ascii "Content-Length:") = false

theorem plainHeader_append {p s : Bytes} (h13 : (13 : UInt8) ∉ p) (hne : p ≠ [])
    (hd : lowerCopy (p.take (ascii "Content-Length:").length) ≠
      lowerCopy ((ascii "Content-Length:").take p.length)) (hs : Plain s) :
    PlainHeader (p ++ s) :=
  ⟨plain_append h13 hs,by simp [hne],startsWithCi_differs s hd⟩

theorem statusLine_plain (status : Nat) : PlainHeader (statusLine status) := by
  have hd := plain_digits (decimal_all status)
  have hr : (13 : UInt8) ∉ reasonPhrase status := by
    unfold reasonPhrase
    split <;> decide
  have hs : (13 : UInt8) ∉ decimal status ++ ascii " " ++ reasonPhrase status := by
    simp only [List.mem_append,not_or]
    exact ⟨⟨hd,by decide⟩,hr⟩
  have he : statusLine status =
      ascii "RTSP/1.0 " ++ (decimal status ++ ascii " " ++ reasonPhrase status) := by
    simp [statusLine]
  rw [he]
  exact plainHeader_append (by decide) (by decide) (by decide) (plain_of_not_mem hs)

section

variable {status : Nat} {cseq body : Bytes} {headers : List Bytes}

theorem responseLines_plain (hc : Plain cseq) (hh : ∀ h ∈ headers, PlainHeader h) :
    ∀ l ∈ responseLines status cseq headers body, Plain l ∧ l ≠ [] := by
  intro l hl
  unfold responseLines at hl
  rcases List.mem_cons.mp hl with rfl | hl
  · exact ⟨(statusLine_plain status).plain,(statusLine_plain status).ne_nil⟩
  simp only [List.append_assoc,List.mem_append] at hl
  rcases hl with hl | hl | hl | hl
  · split at hl
    · simp at hl
    · obtain rfl : l = _ := by simpa using hl
      exact ⟨plain_append (by decide) hc,by simp [ascii]⟩
  · obtain rfl : l = _ := by simpa using hl
    exact ⟨by decide,by decide⟩
  · exact ⟨(hh l hl).plain,(hh l hl).ne_nil⟩
  · split at hl
    · simp at hl
    · obtain rfl : l = _ := by simpa using hl
      exact ⟨plain_append (by decide) (plain_of_not_mem (plain_digits (decimal_all _))),by
        simp [ascii]⟩

theorem response_headerPart (hc : Plain cseq) (hh : ∀ h ∈ headers, PlainHeader h) :
    messageHeaderPart (makeResponse status cseq headers body) =
      headerBlock (responseLines status cseq headers body) := by
  rw [makeResponse_lines]
  exact messageHeaderPart_block (by simp [responseLines]) (responseLines_plain hc hh) body

theorem response_lines (hc : Plain cseq) (hh : ∀ h ∈ headers, PlainHeader h) :
    splitLinesKeepEmpty (messageHeaderPart (makeResponse status cseq headers body)) =
      responseLines status cseq headers body ++ [[]] := by
  rw [response_headerPart hc hh]
  exact splitLines_block _ fun l hl => (responseLines_plain hc hh l hl).1

theorem response_firstLine : getFirstLine (makeResponse status cseq headers body) = statusLine status := by
  rw [makeResponse_lines]
  exact getFirstLine_block (statusLine_plain status).plain body

theorem response_declares (hc : Plain cseq) (hh : ∀ h ∈ headers, PlainHeader h) :
    DeclaresBody (headerBlock (responseLines status cseq headers body)) body.length := by
  have hlines := splitLines_block (responseLines status cseq headers body)
    fun l hl => (responseLines_plain hc hh l hl).1
  have hcs : startsWithCi (ascii "CSeq: " ++ cseq) (ascii "Content-Length:") = false :=
    startsWithCi_differs cseq (by decide)
  have hskip : ∀ l ∈ statusLine status :: ((if cseq.isEmpty then [] else [ascii "CSeq: " ++ cseq]) ++
      [ascii "Server: rpi-vms-m3"] ++ headers), startsWithCi l (ascii "Content-Length:") = false := by
    intro l hl
    rcases List.mem_cons.mp hl with rfl | hl
    · exact (statusLine_plain status).no_length
    simp only [List.append_assoc,List.mem_append] at hl
    rcases hl with hl | hl | hl
    · split at hl
      · simp at hl
      · obtain rfl : l = _ := by simpa using hl
        exact hcs
    · obtain rfl : l = _ := by simpa using hl
      decide
    · exact (hh l hl).no_length
  have hfind : (splitLinesKeepEmpty (headerBlock (responseLines status cseq headers body))).find?
      (startsWithCi · (ascii "Content-Length:")) =
      if body.isEmpty then none else some (ascii "Content-Length: " ++ decimal body.length) := by
    rw [hlines]
    unfold responseLines
    rw [← List.cons_append,List.append_assoc,find?_skip_plain hskip]
    split
    · decide
    · have hm : startsWithCi (ascii "Content-Length:" ++ (ascii " " ++ decimal body.length))
          (ascii "Content-Length:") = true := startsWithCi_append _ _
      rw [← List.append_assoc] at hm
      exact List.find?_cons_of_pos hm
  unfold DeclaresBody contentLengthText
  rw [hfind]
  by_cases hb : body = []
  · simp [hb]
  · have hd := decimal_all body.length
    have hdrop : (ascii "Content-Length: " ++ decimal body.length).drop
        (ascii "Content-Length:").length = 32 :: decimal body.length := rfl
    have hends : ∀ b ∈ decimal body.length, isTrimmed b = false := fun b hb =>
      isDigit_not_trimmed (List.all_eq_true.mp hd b hb)
    have htrim := trimCopy_blank_all hends
    rw [if_neg (by simpa using hb)]
    simp only [Option.map_some,hdrop,htrim]
    exact ⟨decimal_ne_nil _,hd,digitsValue_decimal _⟩

theorem response_message {maxHeader maxBody : Nat} (hc : Plain cseq)
    (hh : ∀ h ∈ headers, PlainHeader h)
    (hmax : (headerBlock (responseLines status cseq headers body)).length ≤ maxHeader)
    (hbody : body.length ≤ maxBody) :
    IsMessage maxHeader maxBody (headerBlock (responseLines status cseq headers body)) body := by
  have hends := find_headerEnd_lines (responseLines status cseq headers body)
    (by simp [responseLines]) (responseLines_plain hc hh) body
  refine ⟨?_,hends,?_,hmax,response_declares hc hh,hbody⟩
  · refine start_iff.mpr ⟨ascii "RTSP/",by decide,?_⟩
    have hs : ascii "RTSP/" <+: statusLine status := by
      simp only [statusLine,List.append_assoc]
      exact (show ascii "RTSP/" <+: ascii "RTSP/1.0 " by decide).trans (List.prefix_append _ _)
    refine hs.trans ?_
    simp only [responseLines,headerBlock,List.flatMap_cons,List.append_assoc]
    exact List.prefix_append _ _
  · simp only [responseLines,headerBlock,crlf,List.flatMap_cons,List.length_append,List.length_cons]
    omega

theorem response_headerValue {name value : Bytes} {pre post : List Bytes} {line : Bytes}
    (hc : Plain cseq) (hh : ∀ h ∈ headers, PlainHeader h)
    (hl : responseLines status cseq headers body = pre ++ line :: post)
    (hpre : ∀ l ∈ pre, startsWithCi l (lowerCopy name ++ ascii ":") = false)
    (hline : startsWithCi line (lowerCopy name ++ ascii ":") = true)
    (hv : trimCopy (line.drop (name.length + 1)) = value) :
    headerValue (messageHeaderPart (makeResponse status cseq headers body)) name = value := by
  unfold headerValue
  rw [response_headerPart hc hh,segments_block _ fun l hl => (responseLines_plain hc hh l hl).1,hl]
  have hfind : (pre ++ line :: post ++ [[]]).find?
      (fun l => startsWithCi l (lowerCopy name ++ ascii ":")) = some line := by
    rw [List.append_assoc,find?_skip_plain hpre,List.cons_append]
    exact List.find?_cons_of_pos hline
  rw [hfind]
  exact hv

theorem response_cseq (hc : Plain cseq) (hne : cseq ≠ []) (hh : ∀ h ∈ headers, PlainHeader h)
    (hfirst : ∀ b, cseq.head? = some b → isTrimmed b = false)
    (hlast : ∀ b, cseq.getLast? = some b → isTrimmed b = false) :
    cseqFromMessage (makeResponse status cseq headers body) = cseq := by
  have hl : responseLines status cseq headers body =
      [statusLine status] ++ (ascii "CSeq: " ++ cseq) :: ([ascii "Server: rpi-vms-m3"] ++ headers ++
        (if body.isEmpty then [] else [ascii "Content-Length: " ++ decimal body.length])) := by
    simp [responseLines,hne]
  have hs : startsWithCi (statusLine status) (lowerCopy (ascii "CSeq") ++ ascii ":") = false := by
    simp only [statusLine,List.append_assoc]
    exact startsWithCi_differs _ (by decide)
  have hm : startsWithCi (ascii "CSeq:" ++ (ascii " " ++ cseq))
      (lowerCopy (ascii "CSeq") ++ ascii ":") = true := startsWithCi_lower _ (by decide)
  refine response_headerValue hc hh hl (by simpa using hs) (by simpa [ascii] using hm) ?_
  exact trimCopy_blank hfirst hlast

def statuses : List Nat := [200,400,404,405,454,455,461]

theorem response_status (hs : status ∈ statuses) :
    rtspStatusCode (makeResponse status cseq headers body) = status := by
  have hall : ∀ s ∈ statuses, (readWord (statusLine s)).text.isEmpty = false ∧
      (readInt (readWord (statusLine s)).rest).value = s := by decide
  unfold rtspStatusCode
  rw [response_firstLine]
  simp [(hall status hs).1,(hall status hs).2]

end

end RpiVms

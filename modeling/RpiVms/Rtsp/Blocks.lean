import RpiVms.Rtsp.Headers
import RpiVms.Rtsp.Units

namespace RpiVms

open Search Segments Framing

theorem extract_message {limits : ParserLimits} {buffer m rest : Bytes}
    (h : extractOneRtspMessage limits buffer = some (.unit m rest)) (hm : m.head? ≠ some dollar) :
    ∃ header body, m = header ++ body ∧
      IsMessage limits.maxHeaderBytes (min limits.maxBodyBytes intMax) header body := by
  rcases extract_isUnit h with ⟨channel,hi,lo,payload,rfl,-⟩ | hx
  · simp at hm
  · exact hx

theorem lines_of_terminated (s : Bytes) :
    ∃ ls, ls ≠ [] ∧ (∀ l ∈ ls, Plain l) ∧ s ++ crlf = ls.flatMap (· ++ crlf) := by
  induction s using segments_induction (show crlf ≠ [] by decide) with
  | last s h => exact ⟨[s],by simp,by simpa [Plain] using h,by simp⟩
  | line s n hn ih =>
    obtain ⟨ls,-,hls,hj⟩ := ih
    refine ⟨s.take n :: ls,by simp,?_,?_⟩
    · intro l hl
      rcases List.mem_cons.mp hl with rfl | hl
      · exact clean_iff_plain.mp (Clean.of_find (by decide) hn)
      · exact hls l hl
    · rw [List.flatMap_cons,← hj,← List.append_assoc,← find_split hn]

structure HeaderLines (ls : List Bytes) : Prop where
  ne_nil : ls ≠ []
  plain : ∀ l ∈ ls, Plain l ∧ l ≠ []

theorem HeaderLines.allPlain {ls : List Bytes} (h : HeaderLines ls) : ∀ l ∈ ls, Plain l :=
  fun l hl => (h.plain l hl).1

theorem HeaderLines.find (ls : List Bytes) (h : HeaderLines ls) (body : Bytes) :
    find headerEnd (headerBlock ls ++ body) = some ((headerBlock ls).length - 4) :=
  find_headerEnd_lines ls h.ne_nil h.plain body

theorem HeaderLines.long {ls : List Bytes} (h : HeaderLines ls) : 4 ≤ (headerBlock ls).length := by
  obtain ⟨l,ls,rfl⟩ := List.exists_cons_of_ne_nil h.ne_nil
  simp [headerBlock,crlf]
  omega

theorem HeaderLines.replace {before old after : List Bytes} {line : Bytes}
    (h : HeaderLines (before ++ old ++ after)) (hp : Plain line) (hne : line ≠ []) :
    HeaderLines (before ++ line :: after) := by
  refine ⟨by simp,fun l hl => ?_⟩
  rcases List.mem_append.mp hl with hl | hl
  · exact h.plain l (by simp [hl])
  · rcases List.mem_cons.mp hl with rfl | hl
    · exact ⟨hp,hne⟩
    · exact h.plain l (by simp [hl])

theorem no_empty_line {a c : List Bytes} {body : Bytes} (ha : a ≠ [])
    (hf : Search.find headerEnd (headerBlock (a ++ [] :: c) ++ body) =
      some ((headerBlock (a ++ [] :: c)).length - 4)) : False := by
  obtain ⟨b,l,rfl⟩ := List.eq_nil_or_concat a |>.resolve_left ha
  have hcat : headerBlock (b.concat l ++ [] :: c) ++ body =
      (b.flatMap (· ++ crlf) ++ l) ++ (headerEnd ++ (c.flatMap (· ++ crlf) ++ crlf ++ body)) := by
    simp [headerBlock,headerEnd,crlf]
  have hlen : (headerBlock (b.concat l ++ [] :: c)).length =
      (b.flatMap (· ++ crlf) ++ l).length + 4 + (c.flatMap (· ++ crlf)).length + 2 := by
    simp [headerBlock,crlf]
    omega
  refine (find_eq_some.mp hf).2.2 (b.flatMap (· ++ crlf) ++ l).length (by omega) ?_
  rw [hcat,List.drop_left]
  exact List.prefix_append _ _

theorem headerLines_of_find {ls : List Bytes} {body : Bytes} (hne : ls ≠ []) (hp : ∀ l ∈ ls, Plain l)
    (hf : Search.find headerEnd (headerBlock ls ++ body) = some ((headerBlock ls).length - 4))
    (hs : ¬ crlf <+: headerBlock ls ++ body) : HeaderLines ls := by
  refine ⟨hne,fun l hl => ⟨hp l hl,?_⟩⟩
  rintro rfl
  obtain ⟨a,c,rfl⟩ := List.append_of_mem hl
  cases a with
  | nil =>
    refine hs ?_
    simp [headerBlock,crlf]
  | cons first a => exact no_empty_line (by simp) hf

theorem block_of_find {s : Bytes} {n : Nat} (h : Search.find headerEnd s = some n)
    (hs : ¬ crlf <+: s) :
    ∃ ls, HeaderLines ls ∧ s = headerBlock ls ++ s.drop (n + 4) ∧ (headerBlock ls).length = n + 4 := by
  have hle := find_le h
  obtain ⟨ls,hne,hls,hj⟩ := lines_of_terminated (s.take n)
  have hblock : headerBlock ls = s.take n ++ headerEnd := by
    rw [headerBlock,← hj,List.append_assoc]
    rfl
  have hsplit : s = headerBlock ls ++ s.drop (n + 4) := by
    rw [hblock]
    exact find_split h
  have hlen : (headerBlock ls).length = n + 4 := by
    rw [hblock,List.length_append,List.length_take]
    simp only [headerEnd,List.length_cons,List.length_nil] at hle ⊢
    omega
  refine ⟨ls,@headerLines_of_find ls (s.drop (n + 4)) hne hls ?_ ?_,hsplit,hlen⟩
  · rw [← hsplit,hlen]
    exact h
  · rwa [← hsplit]

theorem prefix_of_line {pre line t : Bytes} (hpre : (13 : UInt8) ∉ pre) (h : pre <+: line ++ crlf ++ t) :
    pre <+: line := by
  have hline : line <+: line ++ crlf ++ t := by
    rw [List.append_assoc]
    exact List.prefix_append _ _
  refine List.prefix_of_prefix_length_le h hline ?_
  by_contra hc
  obtain ⟨u,hu⟩ := h
  have hg := congrArg (·[line.length]?) hu
  simp only [List.getElem?_append_left (show line.length < pre.length by omega),
    List.append_assoc,List.getElem?_append_right le_rfl,Nat.sub_self,crlf,List.cons_append,
    List.getElem?_cons_zero] at hg
  exact hpre (List.mem_of_getElem? hg)

theorem headerBlock_append (a c : List Bytes) :
    headerBlock (a ++ c) = a.flatMap (· ++ crlf) ++ headerBlock c := by
  simp [headerBlock]

theorem headerBlock_cons (l : Bytes) (c : List Bytes) : headerBlock (l :: c) = l ++ crlf ++ headerBlock c := by
  simp [headerBlock]

theorem cut_at_break {s : Bytes} {p : Nat} (h : crlf <+: s.drop p) :
    s = s.take p ++ crlf ++ s.drop (p + 2) := by
  obtain ⟨t,ht⟩ := h
  have hdrop : s.drop (p + 2) = t := by
    rw [← List.drop_drop,← ht]
    rfl
  rw [hdrop,List.append_assoc,ht,List.take_append_drop]

theorem block_at_break {s : Bytes} {p n : Nat} (h : Search.find headerEnd s = some n)
    (hs : ¬ crlf <+: s) (hp : crlf <+: s.drop p) (hpn : p + 2 ≤ n) (hline : ¬ crlf <+: s.drop (p + 2)) :
    ∃ before line after, HeaderLines (before ++ line :: after) ∧
      s = headerBlock (before ++ line :: after) ++ s.drop (n + 4) ∧
      (before.flatMap (· ++ crlf)).length = p + 2 ∧
      s.drop (p + 2) = headerBlock (line :: after) ++ s.drop (n + 4) := by
  have hle := find_le h
  obtain ⟨before,-,hbefore,hj⟩ := lines_of_terminated (s.take p)
  obtain ⟨ls,hls,hsplit,hlen⟩ := block_of_find (find_drop h hpn) hline
  obtain ⟨line,after,rfl⟩ := List.exists_cons_of_ne_nil hls.ne_nil
  rw [List.drop_drop,show p + 2 + (n - (p + 2) + 4) = n + 4 by omega] at hsplit
  have hcut : s = headerBlock (before ++ line :: after) ++ s.drop (n + 4) := by
    rw [headerBlock_append,← hj,List.append_assoc,← hsplit]
    exact cut_at_break hp
  have hlength : (before.flatMap (· ++ crlf)).length = p + 2 := by
    rw [← hj,List.length_append,List.length_take_of_le (by omega)]
    rfl
  have hblock : (headerBlock (before ++ line :: after)).length = n + 4 := by
    rw [headerBlock_append,List.length_append,hlength,hlen]
    omega
  refine ⟨before,line,after,?_,hcut,hlength,hsplit⟩
  refine @headerLines_of_find _ (s.drop (n + 4)) (by simp) ?_ ?_ ?_
  · intro l hl
    rcases List.mem_append.mp hl with hl | hl
    · exact hbefore l hl
    · exact hls.allPlain l hl
  · rw [← hcut,hblock]
    exact h
  · rwa [← hcut]

theorem startsWithCi_of_prefix {line name t : Bytes} (h13 : (13 : UInt8) ∉ name)
    (hlow : lowerCopy name = name) (h : name <+: lowerCopy (line ++ crlf ++ t)) :
    startsWithCi line name = true := by
  simp only [lowerCopy,List.map_append] at h
  rw [show crlf.map toLower = crlf by decide] at h
  obtain ⟨u,hu⟩ := prefix_of_line h13 h
  have hl : name.length ≤ line.length := by
    have := congrArg List.length hu
    simp only [List.length_append,List.length_map] at this
    omega
  rw [startsWithCi,if_neg (by omega),lowerCopy,List.map_take,← hu,List.take_left,hlow]
  simp

theorem IsMessage.block {maxHeader maxBody : Nat} {header body : Bytes}
    (h : IsMessage maxHeader maxBody header body) :
    ∃ first fields, header = headerBlock (first :: fields) ∧ HeaderLines (first :: fields) ∧
      ∃ pre ∈ messagePrefixes, pre <+: first := by
  have hlong := h.long
  obtain ⟨pre,hpm,hpre,-⟩ := h.opens
  obtain ⟨h13,-,hpne⟩ := prefixes_plain pre hpm
  have hstart : ¬ crlf <+: header ++ body := by
    obtain ⟨b,p,rfl⟩ := List.exists_cons_of_ne_nil hpne
    obtain ⟨t,rfl⟩ := hpre
    intro hc
    exact h13 ((List.cons_prefix_cons.mp hc).1 ▸ List.mem_cons_self)
  obtain ⟨ls,hls,hsplit,hlen⟩ := block_of_find h.ends hstart
  rw [Nat.sub_add_cancel hlong] at hsplit hlen
  rw [List.drop_left] at hsplit
  obtain rfl : header = headerBlock ls := List.append_cancel_right hsplit
  obtain ⟨first,fields,rfl⟩ := List.exists_cons_of_ne_nil hls.ne_nil
  rw [headerBlock_cons] at hpre
  exact ⟨first,fields,rfl,hls,pre,hpm,prefix_of_line h13 hpre⟩

theorem splitLines_after (ls : List Bytes) (h : ∀ l ∈ ls, Plain l) (body : Bytes) :
    splitLinesKeepEmpty (ls.flatMap (· ++ crlf) ++ body) = ls ++ splitLinesKeepEmpty body := by
  have hs := segments_lines (by decide) ls (fun l hl => clean_iff_plain.mpr (h l hl)) body
  simp only [splitLinesKeepEmpty,hs]
  split <;> simp

def isContentLength (line : Bytes) : Bool := startsWithCi line (ascii "Content-Length:")

def contentLengthValue (line : Bytes) : Bytes := trimCopy (line.drop (ascii "Content-Length:").length)

end RpiVms

import RpiVms.Proxy.Rewriter
import RpiVms.Rtsp.Blocks

namespace RpiVms

open Search Segments Replace RtspRewriter

structure CleanUrl (url : Bytes) : Prop where
  ne_nil : url ≠ []
  noCr : (13 : UInt8) ∉ url
  noLf : (10 : UInt8) ∉ url

instance (url : Bytes) : Decidable (CleanUrl url) :=
  decidable_of_iff (url ≠ [] ∧ (13 : UInt8) ∉ url ∧ (10 : UInt8) ∉ url)
    ⟨fun h => ⟨h.1,h.2.1,h.2.2⟩,fun h => ⟨h.1,h.2,h.3⟩⟩

theorem CleanUrl.crlf {url : Bytes} (h : CleanUrl url) : ∀ x ∈ crlf, x ∉ url := by
  simp [RpiVms.crlf,h.noCr,h.noLf]

theorem plain_append_head {a b : Bytes} (ha : Plain a) (hb : Plain b) (hh : b.head? ≠ some 10) :
    Plain (a ++ b) := by
  refine find_eq_none.mpr fun n hn hp => ?_
  by_cases hna : n < a.length
  · rw [List.drop_append_of_le_length (by omega)] at hp
    rcases hd : a.drop n with _ | ⟨x,_ | ⟨y,t⟩⟩
    · rw [List.drop_eq_nil_iff] at hd; omega
    · rw [hd] at hp
      obtain ⟨t,ht⟩ := hp
      simp only [crlf,List.cons_append,List.nil_append,List.cons.injEq] at ht
      exact hh (by rw [← ht.2]; rfl)
    · refine find_eq_none.mp ha n hna ?_
      rw [hd] at hp ⊢
      exact List.prefix_of_prefix_length_le hp (List.prefix_append _ _) (by simp [crlf])
  · rw [List.drop_append,List.drop_eq_nil_of_le (by omega),List.nil_append] at hp
    exact find_eq_none.mp hb (n - a.length) (by rw [List.length_append] at hn; omega) hp

theorem CleanUrl.head {url : Bytes} (h : CleanUrl url) (b : Bytes) : (url ++ b).head? ≠ some 10 := by
  rw [List.head?_append_of_ne_nil _ h.ne_nil]
  exact fun hc => h.noLf (List.mem_of_mem_head? hc)

theorem replaceAll_plain {pat rep l : Bytes} (hrep : CleanUrl rep) (hl : Plain l) :
    Plain (replaceAll pat rep l) := by
  by_cases hpat : pat = []
  · rwa [hpat,replaceAll_nil_pat]
  induction l using replaceAll_induction hpat with
  | none l h => rwa [replaceAll_of_none h]
  | some l n h ih =>
    have hrest := ih (hl.infix_of (List.drop_suffix _ _).isInfix)
    rw [replaceAll_of_some hpat h,List.append_assoc]
    exact plain_append_head (hl.infix_of (List.take_prefix _ _).isInfix)
      (plain_append hrep.noCr hrest) (hrep.head _)

theorem lowerCopy_append (a b : Bytes) : lowerCopy (a ++ b) = lowerCopy a ++ lowerCopy b :=
  List.map_append

theorem isContentLength_take {line t : Bytes} {n : Nat} (h15 : 15 ≤ n) (hn : n ≤ line.length) :
    isContentLength (line.take n ++ t) = isContentLength line := by
  refine startsWithCi_take ?_
  rw [List.take_append_of_le_length (by rw [List.length_take]; exact le_min h15 (h15.trans hn)),
    List.take_take]
  exact congrArg (line.take ·) (Nat.min_eq_left h15)

theorem contentLength_letters {l : Bytes} (h : isContentLength l = true) {n : Nat}
    (hn : n < 15) : l[n]? ≠ some 114 := by
  intro hc
  obtain ⟨-,he⟩ := startsWithCi_eq h
  have hg := congrArg (·[n]?) he
  simp only [lowerCopy,List.getElem?_map] at hg
  rw [List.getElem?_take_of_lt (show n < (ascii "Content-Length:").length from hn),hc,
    ← List.getElem?_map] at hg
  exact absurd (List.mem_of_getElem? hg.symm) (by decide)

theorem startsWithCi_head {line p : Bytes} (hp : p ≠ []) (h : startsWithCi line p = true) :
    line.head?.map toLower = p.head?.map toLower := by
  obtain ⟨hl,he⟩ := startsWithCi_eq h
  have hpos : 0 < p.length := List.length_pos_iff.mpr hp
  have hh := congrArg List.head? he
  simp only [lowerCopy,List.head?_map,List.head?_take,show p.length ≠ 0 by omega,if_false] at hh
  exact hh

theorem contentLength_not_transport {line : Bytes} (h : isContentLength line = true) :
    isTransport line ≠ true := by
  intro ht
  have hc := startsWithCi_head (by decide) h
  rw [startsWithCi_head (by decide) ht] at hc
  exact absurd hc (by decide)

theorem mem_trimCopy {s : Bytes} {b : UInt8} (hb : b ∈ s) (ht : isTrimmed b = false) :
    b ∈ trimCopy s := by
  have keep {t : Bytes} (h : b ∈ t) : b ∈ t.dropWhile isTrimmed := by
    rw [← List.takeWhile_append_dropWhile (p := isTrimmed) (l := t)] at h
    rcases List.mem_append.mp h with h | h
    · have := List.mem_takeWhile_imp h
      simp [ht] at this
    · exact h
  unfold trimCopy List.rdropWhile
  rw [List.mem_reverse]
  exact keep (List.mem_reverse.mpr (keep hb))

theorem upstreamBase_head (r : RtspRewriter) : ∃ t, r.upstreamBase = 114 :: t :=
  ⟨_,rfl⟩

structure Declares (line : Bytes) (n : Int) : Prop where
  ne_nil : contentLengthValue line ≠ []
  digits : (contentLengthValue line).all isDigit = true
  value : (digitsValue (contentLengthValue line) : Int) = n

def headerLines (m : Bytes) : List Bytes := splitLinesKeepEmpty (messageHeaderPart m)

def Framed (m out : Bytes) : Prop :=
  ∃ n, find headerEnd out = some n ∧
    ((∃ line ∈ headerLines m, isContentLength line = true) →
      ∃ line, (headerLines out).find? isContentLength = some line ∧
        Declares line (out.drop (n + 4)).length) ∧
    (contentLengthFromHeader (messageHeaderPart m) = 0 → out.drop (n + 4) = [])

theorem headerLines_block {ls : List Bytes} (h : HeaderLines ls) (body : Bytes) :
    headerLines (headerBlock ls ++ body) = ls ++ [[]] := by
  rw [headerLines,messageHeaderPart_block h.ne_nil h.plain,splitLines_block ls h.allPlain]

theorem messageBody_block {ls : List Bytes} (h : HeaderLines ls) (body : Bytes) :
    messageBody (headerBlock ls ++ body) = body := by
  rw [messageBody,messageHeaderPart_block h.ne_nil h.plain,List.drop_left]

theorem find?_block (p : Bytes → Bool) (ls : List Bytes) (hp : p [] = false) :
    (ls ++ [[]]).find? p = ls.find? p := by
  rw [List.find?_append,List.find?_singleton]
  simp [hp]

theorem framed_block {m : Bytes} {ls : List Bytes} {body : Bytes} (h : HeaderLines ls) :
    Framed m (headerBlock ls ++ body) ↔
      ((∃ line ∈ headerLines m, isContentLength line = true) →
        ∃ line, ls.find? isContentLength = some line ∧ Declares line body.length) ∧
      (contentLengthFromHeader (messageHeaderPart m) = 0 → body = []) := by
  have hbody : (headerBlock ls ++ body).drop ((headerBlock ls).length - 4 + 4) = body := by
    rw [Nat.sub_add_cancel h.long,List.drop_left]
  have hcl := find?_block isContentLength ls rfl
  unfold Framed
  rw [headerLines_block h,hcl,h.find]
  constructor
  · rintro ⟨n,hn,hf⟩
    obtain rfl := Option.some.inj hn
    rwa [hbody] at hf
  · intro hf
    exact ⟨_,rfl,by rwa [hbody]⟩

namespace RtspRewriter

variable (r : RtspRewriter)

def urlPosition (line : Bytes) : Option Nat :=
  if r.publicBase.isEmpty then none else find r.publicBase line

def keepsLabel (line : Bytes) : Bool :=
  (r.urlPosition line).all fun n => decide (15 ≤ n)

def lineGrowth (line : Bytes) : Int :=
  if isTransport line then (transportLine.length : Int) - line.length
  else occurrences r.publicBase line * ((r.upstreamBase.length : Int) - r.publicBase.length)

def lineEnding (body : Bytes) : Int := if (segments crlf body).2.isEmpty then 0 else 2

def linesGrowth : List Bytes → Int
  | [] => 0
  | line :: rest => r.lineGrowth line + linesGrowth rest

def bodyGrowth (body : Bytes) : Int := lineEnding body + r.linesGrowth (splitLinesKeepEmpty body)

def RequestFits (m : Bytes) : Prop :=
  (∀ line ∈ headerLines m, isContentLength line = false) ∨
    ∃ line, (headerLines m).find? (fun l => isContentLength l && r.keepsLabel l) = some line ∧
      r.urlPosition line = none ∧
      Declares line ((messageBody m).length + r.bodyGrowth (messageBody m))

def rewrittenBody (body : Bytes) : Bytes :=
  (splitLinesKeepEmpty body).flatMap (r.rewriteLine · ++ crlf)

theorem rewriteLine_length (line : Bytes) :
    ((r.rewriteLine line).length : Int) = line.length + r.lineGrowth line := by
  unfold rewriteLine lineGrowth
  by_cases he : line = []
  · subst he
    simp [isTransport,startsWithCi,ascii,occurrences,occurrencesLoop]
  · by_cases ht : isTransport line = true
    · simp only [List.isEmpty_iff,he,ht,if_false,if_true]
      omega
    · simp [he,ht,length_replaceAll]

theorem splitLines_length (body : Bytes) :
    (((splitLinesKeepEmpty body).flatMap (· ++ crlf)).length : Int) = body.length + lineEnding body := by
  have hj := congrArg (fun s => (s.length : Int)) (segments_join (show crlf ≠ [] by decide) body)
  simp only [List.length_append,Int.natCast_add] at hj
  cases hr : (segments crlf body).2 with
  | nil =>
    rw [hr] at hj
    simpa [splitLinesKeepEmpty,lineEnding,hr] using hj
  | cons b t =>
    rw [hr] at hj
    have hlen : (crlf.length : Int) = 2 := rfl
    simp only [splitLinesKeepEmpty,lineEnding,hr,List.isEmpty_cons,Bool.false_eq_true,if_false,
      List.flatMap_append,List.flatMap_cons,List.flatMap_nil,List.append_nil,List.length_append,
      Int.natCast_add,hlen]
    rw [← Int.add_assoc,hj]

theorem rewrittenLines_length (ls : List Bytes) :
    ((ls.flatMap (r.rewriteLine · ++ crlf)).length : Int) =
      (ls.flatMap (· ++ crlf)).length + r.linesGrowth ls := by
  induction ls with
  | nil => rfl
  | cons l ls ih =>
    simp only [List.flatMap_cons,List.length_append,Int.natCast_add,ih,rewriteLine_length,linesGrowth]
    omega

theorem rewrittenBody_length (body : Bytes) :
    ((r.rewrittenBody body).length : Int) = body.length + r.bodyGrowth body := by
  rw [rewrittenBody,rewrittenLines_length,splitLines_length,bodyGrowth,Int.add_assoc]

theorem transportLine_header : Plain transportLine ∧ transportLine ≠ [] := by decide +kernel

theorem transportLine_not_contentLength : isContentLength transportLine = false := by decide +kernel

theorem rewriteLine_header (hu : CleanUrl r.upstreamBase) {line : Bytes} (h : Plain line)
    (hne : line ≠ []) : Plain (r.rewriteLine line) ∧ r.rewriteLine line ≠ [] := by
  have he : line.isEmpty = false := by simpa using hne
  unfold rewriteLine
  rw [he]
  by_cases ht : isTransport line = true
  · simp only [ht,Bool.false_eq_true,if_false,if_true]
    exact transportLine_header
  · simp only [ht,Bool.false_eq_true,if_false]
    exact ⟨replaceAll_plain hu h,replaceAll_ne_nil hu.ne_nil hne⟩

theorem rewriteLine_replaced {line : Bytes} (hne : line ≠ []) (ht : isTransport line = false) :
    r.rewriteLine line = replaceAll r.publicBase r.upstreamBase line := by
  simp [rewriteLine,hne,ht]

theorem replaced_of_none {line : Bytes} (h : r.urlPosition line = none) :
    replaceAll r.publicBase r.upstreamBase line = line := by
  unfold urlPosition at h
  split at h
  · rename_i he
    rw [List.isEmpty_iff.mp he,replaceAll_nil_pat]
  · exact replaceAll_of_none h

theorem replaced_of_some {line : Bytes} {n : Nat} (h : r.urlPosition line = some n) :
    n ≤ line.length ∧ ∃ t, replaceAll r.publicBase r.upstreamBase line = line.take n ++ 114 :: t := by
  unfold urlPosition at h
  split at h
  · simp at h
  · rename_i he
    obtain ⟨t,ht⟩ := upstreamBase_head r
    have heq : replaceAll r.publicBase r.upstreamBase line = _ :=
      replaceAll_of_some (fun hc => he (by simp [hc])) h
    rw [ht,List.append_assoc,List.cons_append] at heq
    exact ⟨(find_eq_some.mp h).1.le,_,ht ▸ heq⟩

theorem isContentLength_rewriteLine (line : Bytes) :
    isContentLength (r.rewriteLine line) = (isContentLength line && r.keepsLabel line) := by
  by_cases hne : line = []
  · subst hne
    rfl
  by_cases ht : isTransport line = true
  · have hl : isContentLength line = false := by
      by_contra hc
      exact contentLength_not_transport (by simpa using hc) ht
    have hr : r.rewriteLine line = transportLine := by simp [rewriteLine,hne,ht]
    rw [hl,hr,Bool.false_and,transportLine_not_contentLength]
  rw [rewriteLine_replaced r hne (by simpa using ht)]
  cases hp : r.urlPosition line with
  | none => simp [replaced_of_none r hp,keepsLabel,hp]
  | some n =>
    obtain ⟨hn,t,heq⟩ := replaced_of_some r hp
    rw [heq]
    simp only [keepsLabel,hp,Option.all_some]
    by_cases h15 : 15 ≤ n
    · rw [decide_eq_true h15,Bool.and_true]
      exact isContentLength_take h15 hn
    · rw [decide_eq_false h15,Bool.and_false]
      by_contra hc
      refine contentLength_letters (by simpa using hc) (n := n) (by omega) ?_
      have hl : (line.take n).length = n := by rw [List.length_take]; omega
      rw [List.getElem?_append_right (by omega),hl,Nat.sub_self]
      rfl

theorem declares_rewriteLine {line : Bytes} (hc : isContentLength line = true)
    (hk : r.keepsLabel line = true) (n : Int) :
    Declares (r.rewriteLine line) n ↔ r.urlPosition line = none ∧ Declares line n := by
  have hne : line ≠ [] := by rintro rfl; exact absurd hc (by decide)
  have ht : isTransport line = false := by
    by_contra ht
    exact contentLength_not_transport hc (by simpa using ht)
  rw [rewriteLine_replaced r hne ht]
  cases hp : r.urlPosition line with
  | none => simp [replaced_of_none r hp]
  | some k =>
    obtain ⟨hn,t,heq⟩ := replaced_of_some r hp
    simp only [keepsLabel,hp,Option.all_some,decide_eq_true_eq] at hk
    simp only [reduceCtorEq,false_and,iff_false]
    intro hd
    have hmem : (114 : UInt8) ∈ contentLengthValue (line.take k ++ 114 :: t) := by
      refine mem_trimCopy ?_ (by decide)
      rw [List.drop_append_of_le_length (by rw [List.length_take]; exact le_min hk (hk.trans hn))]
      simp
    rw [heq] at hd
    exact absurd (List.all_eq_true.mp hd.digits 114 hmem) (by decide)

theorem requestLine_token (first : Bytes) : ∀ b ∈ (readWord first).text, isSpace b = false := by
  intro b hb
  simpa using List.mem_takeWhile_imp hb

theorem targetSuffix_subset (target : Bytes) : targetSuffix target ⊆ target := by
  unfold targetSuffix
  split
  · simp
  · exact List.drop_subset _ _

theorem rewriteRequestLine_cases (first : Bytes) :
    r.rewriteRequestLine first = first ∨
      ∃ target version, (∀ b ∈ target, isSpace b = false) ∧ (∀ b ∈ version, isSpace b = false) ∧
        (readWord first).text ≠ [] ∧ r.rewriteRequestLine first =
          requestLine (readWord first).text (r.upstreamBase ++ target) version := by
  unfold rewriteRequestLine
  simp only
  split
  · exact .inl rfl
  · rename_i hne
    simp only [Bool.or_eq_true,List.isEmpty_iff,not_or] at hne
    exact .inr ⟨_,_,fun b hb => requestLine_token _ b (targetSuffix_subset _ hb),
      requestLine_token _,hne.1.1,rfl⟩

theorem rewriteRequestLine_header (hu : CleanUrl r.upstreamBase) {first : Bytes} (h : Plain first)
    (hne : first ≠ []) : Plain (r.rewriteRequestLine first) ∧ r.rewriteRequestLine first ≠ [] := by
  rcases r.rewriteRequestLine_cases first with heq | ⟨target,version,ht,hv,hm,heq⟩
  · rw [heq]
    exact ⟨h,hne⟩
  · have hcr {w : Bytes} (h : ∀ b ∈ w, isSpace b = false) : (13 : UInt8) ∉ w :=
      fun hc => absurd (h 13 hc) (by decide)
    rw [heq]
    refine ⟨plain_of_not_mem ?_,by simp [requestLine]⟩
    simp [requestLine,hcr (requestLine_token first),hu.noCr,hcr ht,hcr hv]

theorem prefixes_head : ∀ pre ∈ messagePrefixes,
    pre ≠ [] ∧ pre.head?.all (fun b => !isSpace b && toLower b != 99) = true := by decide

theorem head_of_start {first pre : Bytes} (hp : pre ∈ messagePrefixes) (hf : pre <+: first) :
    ∃ b, first.head? = some b ∧ isSpace b = false ∧ toLower b ≠ 99 := by
  obtain ⟨hne,hh⟩ := prefixes_head pre hp
  obtain ⟨b,t,rfl⟩ := List.exists_cons_of_ne_nil hne
  obtain ⟨u,rfl⟩ := hf
  simp only [List.head?_cons,Option.all_some,Bool.and_eq_true,Bool.not_eq_true',bne_iff_ne] at hh
  exact ⟨b,rfl,hh⟩

theorem not_contentLength {line : Bytes} {b : UInt8} (h : line.head? = some b)
    (hb : toLower b ≠ 99) : isContentLength line = false := by
  by_contra hc
  have := startsWithCi_head (by decide) (show isContentLength line = true by simpa using hc)
  rw [h,Option.map_some] at this
  exact hb (Option.some.inj this)

theorem requestLine_not_contentLength {first pre : Bytes} (hp : pre ∈ messagePrefixes)
    (hf : pre <+: first) :
    isContentLength first = false ∧ isContentLength (r.rewriteRequestLine first) = false := by
  obtain ⟨b,hb,hs,hc⟩ := head_of_start hp hf
  refine ⟨not_contentLength hb hc,?_⟩
  rcases r.rewriteRequestLine_cases first with heq | ⟨target,version,-,-,hm,heq⟩
  · rw [heq]
    exact not_contentLength hb hc
  · rw [heq]
    refine not_contentLength (b := b) ?_ hc
    obtain ⟨t,rfl⟩ : ∃ t, first = b :: t := by
      rcases first with _ | ⟨x,t⟩
      · simp at hb
      · exact ⟨t,by simpa using hb⟩
    simp [requestLine,readWord,hs]

theorem insertTransport_block {ls : List Bytes} (h : HeaderLines ls) (body : Bytes) :
    insertTransport (headerBlock ls ++ body) = headerBlock (ls ++ [transportLine]) ++ body := by
  have hlong := h.long
  have hcat : headerBlock ls ++ body = ls.flatMap (· ++ crlf) ++ (crlf ++ body) := by
    simp [headerBlock]
  have hlen : (headerBlock ls).length - 4 + 2 = (ls.flatMap (· ++ crlf)).length := by
    simp only [headerBlock,List.length_append,show crlf.length = 2 from rfl] at hlong ⊢
    omega
  simp only [insertTransport,h.find]
  rw [hlen,hcat,List.take_left,List.drop_left]
  simp [headerBlock]

theorem rewriteClientRequest_block (hu : CleanUrl r.upstreamBase) {first : Bytes}
    {fields : List Bytes} (h : HeaderLines (first :: fields)) (body : Bytes) :
    ∃ extra, (extra = [] ∨ extra = [transportLine]) ∧
      HeaderLines (r.rewriteRequestLine first :: fields.map r.rewriteLine ++ extra) ∧
      r.rewriteClientRequest (headerBlock (first :: fields) ++ body) =
        headerBlock (r.rewriteRequestLine first :: fields.map r.rewriteLine ++ extra) ++
          r.rewrittenBody body := by
  have hfirst := h.plain first (by simp)
  have hcat : headerBlock (first :: fields) ++ body =
      first ++ crlf ++ (fields.flatMap (· ++ crlf) ++ (crlf ++ body)) := by
    simp [headerBlock]
  have hfind := find_append (clean_iff_plain.mpr hfirst.1) (fields.flatMap (· ++ crlf) ++ (crlf ++ body))
  have hlines : splitLinesKeepEmpty (fields.flatMap (· ++ crlf) ++ (crlf ++ body)) =
      fields ++ [] :: splitLinesKeepEmpty body := by
    rw [splitLines_after fields fun l hl => (h.plain l (by simp [hl])).1]
    have := splitLines_after [[]] (by decide) body
    simp only [List.flatMap_cons,List.nil_append,List.flatMap_nil,List.append_nil] at this
    rw [this]
    rfl
  have hkeep : HeaderLines (r.rewriteRequestLine first :: fields.map r.rewriteLine) := by
    refine ⟨by simp,fun l hl => ?_⟩
    rcases List.mem_cons.mp hl with rfl | hl
    · exact r.rewriteRequestLine_header hu hfirst.1 hfirst.2
    · obtain ⟨k,hk,rfl⟩ := List.mem_map.mp hl
      obtain ⟨hp,hne⟩ := h.plain k (by simp [hk])
      exact r.rewriteLine_header hu hp hne
  have hout : r.rewriteRequestLine first ++ crlf ++
      (fields ++ [] :: splitLinesKeepEmpty body).flatMap (r.rewriteLine · ++ crlf) =
      headerBlock (r.rewriteRequestLine first :: fields.map r.rewriteLine) ++ r.rewrittenBody body := by
    simp [headerBlock,rewrittenBody,rewriteLine,List.flatMap_map]
  have htake : (first ++ crlf ++ (fields.flatMap (· ++ crlf) ++ (crlf ++ body))).take first.length =
      first := by
    rw [List.append_assoc,List.take_left]
  have hdrop : (first ++ crlf ++ (fields.flatMap (· ++ crlf) ++ (crlf ++ body))).drop
      (first.length + 2) = fields.flatMap (· ++ crlf) ++ (crlf ++ body) :=
    List.drop_left' (by simp [crlf])
  simp only [rewriteClientRequest,hcat,hfind,htake,hdrop,hlines,hout]
  split
  · refine ⟨[transportLine],.inr rfl,⟨by simp,?_⟩,insertTransport_block hkeep _⟩
    intro l hl
    rcases List.mem_append.mp hl with hl | hl
    · exact hkeep.plain l hl
    · obtain rfl := List.mem_singleton.mp hl
      exact transportLine_header
  · exact ⟨[],.inl rfl,by simpa using hkeep,by simp⟩

theorem first_rewritten_contentLength {first pre : Bytes} {fields extra : List Bytes}
    (hp : pre ∈ messagePrefixes) (hf : pre <+: first) (hx : extra = [] ∨ extra = [transportLine]) :
    (r.rewriteRequestLine first :: fields.map r.rewriteLine ++ extra).find? isContentLength =
      ((first :: fields ++ [[]]).find? fun l => isContentLength l && r.keepsLabel l).map
        r.rewriteLine := by
  obtain ⟨hfirst,hline⟩ := r.requestLine_not_contentLength hp hf
  have hextra : extra.find? isContentLength = none := by
    rcases hx with rfl | rfl
    · rfl
    · exact List.find?_cons_of_neg (by simp [transportLine_not_contentLength])
  have hcomp : (isContentLength ∘ r.rewriteLine) = fun l => isContentLength l && r.keepsLabel l :=
    funext fun l => r.isContentLength_rewriteLine l
  rw [find?_block _ _ rfl,List.cons_append,List.find?_cons_of_neg (by simp [hline]),
    List.find?_cons_of_neg (by simp [hfirst]),List.find?_append,hextra,Option.or_none,
    List.find?_map,hcomp]

theorem request_framed_iff (hu : CleanUrl r.upstreamBase) {first pre body : Bytes}
    {fields : List Bytes} (h : HeaderLines (first :: fields)) (hp : pre ∈ messagePrefixes)
    (hf : pre <+: first)
    (hcl : contentLengthFromHeader (headerBlock (first :: fields)) = body.length) :
    Framed (headerBlock (first :: fields) ++ body)
        (r.rewriteClientRequest (headerBlock (first :: fields) ++ body)) ↔
      r.RequestFits (headerBlock (first :: fields) ++ body) := by
  obtain ⟨extra,hx,hk,heq⟩ := r.rewriteClientRequest_block hu h body
  have hempty : contentLengthFromHeader (headerBlock (first :: fields)) = 0 →
      r.rewrittenBody body = [] := by
    intro h0
    obtain rfl : body = [] := List.eq_nil_of_length_eq_zero (by omega)
    rfl
  unfold RequestFits
  rw [heq,framed_block hk,r.first_rewritten_contentLength hp hf hx,headerLines_block h,
    messageBody_block h,messageHeaderPart_block h.ne_nil h.plain,← r.rewrittenBody_length]
  simp only [Option.map_eq_some_iff]
  constructor
  · rintro ⟨hdeclared,-⟩
    by_cases hc : ∃ line ∈ first :: fields ++ [[]], isContentLength line = true
    · obtain ⟨-,⟨line,hline,rfl⟩,hd⟩ := hdeclared hc
      have hsome := List.find?_some hline
      simp only [Bool.and_eq_true] at hsome
      exact .inr ⟨line,hline,(r.declares_rewriteLine hsome.1 hsome.2 _).mp hd⟩
    · left
      intro line hline
      by_contra hcl
      exact hc ⟨line,hline,by simpa using hcl⟩
  · intro hfits
    refine ⟨fun ⟨line,hl,hc⟩ => ?_,hempty⟩
    rcases hfits with hnone | ⟨line,hline,hd⟩
    · rw [hnone line hl] at hc
      simp at hc
    · have hsome := List.find?_some hline
      simp only [Bool.and_eq_true] at hsome
      exact ⟨_,⟨line,hline,rfl⟩,(r.declares_rewriteLine hsome.1 hsome.2 _).mpr hd⟩

def mentionsContentLength (line : Bytes) : Bool :=
  (find (ascii "content-length:") (lowerCopy line)).isSome

def shownLines (m : Bytes) : List Bytes :=
  (headerLines m).map (replaceAll r.upstreamBase r.publicBase)

def ResponseFits (m : Bytes) : Prop :=
  (∀ line ∈ headerLines m, isContentLength line = false) ∨
    (∃ line, (r.shownLines m).find? mentionsContentLength = some line ∧
      isContentLength line = true) ∨
    ∃ line, (r.shownLines m).find? isContentLength = some line ∧
      Declares line ((messageBody m).length +
        occurrences r.upstreamBase (messageBody m) *
          ((r.publicBase.length : Int) - r.upstreamBase.length))

theorem label_lower : lowerCopy (ascii "Content-Length:") = ascii "content-length:" := by decide +kernel

theorem isContentLength_iff_find (line : Bytes) :
    isContentLength line = true ↔ find (ascii "content-length:") (lowerCopy line) = some 0 := by
  constructor
  · intro h
    obtain ⟨hl,he⟩ := startsWithCi_eq h
    refine find_eq_some.mpr ⟨?_,?_,by simp⟩
    · rw [lowerCopy,List.length_map]
      exact Nat.lt_of_lt_of_le (by decide) hl
    · rw [List.drop_zero,← label_lower,← he,lowerCopy,lowerCopy,List.map_take]
      exact List.take_prefix _ _
  · intro h
    have hp := (find_eq_some.mp h).2.1
    rw [List.drop_zero,← label_lower] at hp
    have hl := hp.length_le
    simp only [lowerCopy,List.length_map] at hl
    unfold isContentLength startsWithCi
    rw [if_neg (by omega),beq_iff_eq]
    rw [List.prefix_iff_eq_take] at hp
    simpa only [lowerCopy,List.length_map,← List.map_take] using hp.symm

theorem mentions_of_contentLength {line : Bytes} (h : isContentLength line = true) :
    mentionsContentLength line = true := by
  rw [mentionsContentLength,(isContentLength_iff_find line).mp h]
  rfl

theorem find_label_lines {a : List Bytes} (ha : ∀ x ∈ a, mentionsContentLength x = false)
    (t : Bytes) :
    find (ascii "content-length:") (lowerCopy (a.flatMap (· ++ crlf) ++ t)) =
      (find (ascii "content-length:") (lowerCopy t)).map ((a.flatMap (· ++ crlf)).length + ·) := by
  have hlow : lowerCopy (a.flatMap (· ++ crlf) ++ t) =
      (a.map lowerCopy).flatMap (· ++ crlf) ++ lowerCopy t := by
    simp [lowerCopy,List.map_flatMap,List.flatMap_map,crlf,toLower]
  have hlen : ((a.map lowerCopy).flatMap (· ++ crlf)).length = (a.flatMap (· ++ crlf)).length := by
    simp [lowerCopy,List.flatMap_map,List.length_flatMap]
  rw [hlow,find_past_lines (by decide) (by decide) (by decide +kernel),hlen]
  intro l hl
  obtain ⟨x,hx,rfl⟩ := List.mem_map.mp hl
  simpa [mentionsContentLength] using ha x hx

theorem patchContentLength_block {a c : List Bytes} {l : Bytes} {k : Nat} (hp : Plain l)
    (ha : ∀ x ∈ a, mentionsContentLength x = false)
    (hl : find (ascii "content-length:") (lowerCopy l) = some k) (size : Nat) :
    patchContentLength (headerBlock (a ++ l :: c)) size =
      headerBlock (a ++ (l.take k ++ ascii "Content-Length: " ++ decimal size) :: c) := by
  have hk : k ≤ l.length := by
    have := (find_eq_some.mp hl).1
    rw [lowerCopy,List.length_map] at this
    omega
  have hcat : headerBlock (a ++ l :: c) =
      a.flatMap (· ++ crlf) ++ (l ++ (crlf ++ (c.flatMap (· ++ crlf) ++ crlf))) := by
    simp [headerBlock]
  have htail : (headerBlock (a ++ l :: c)).drop ((a.flatMap (· ++ crlf)).length + k) =
      l.drop k ++ crlf ++ (c.flatMap (· ++ crlf) ++ crlf) := by
    rw [hcat,List.drop_length_add_append,List.drop_append_of_le_length hk,List.append_assoc]
  have hend : find crlf (l.drop k ++ crlf ++ (c.flatMap (· ++ crlf) ++ crlf)) =
      some (l.drop k).length :=
    find_append (clean_iff_plain.mpr (hp.infix_of (List.drop_suffix _ _).isInfix)) _
  have hfind := find_label_lines ha (l ++ (crlf ++ (c.flatMap (· ++ crlf) ++ crlf)))
  rw [← hcat,lowerCopy_append,find_append hl,Option.map_some] at hfind
  simp only [patchContentLength,hfind,htail,hend]
  rw [← List.drop_drop,htail,List.append_assoc (l.drop k),List.drop_left,hcat,
    List.take_length_add_append,List.take_append_of_le_length hk]
  simp [headerBlock]

theorem patchContentLength_none {ls : List Bytes} (h : ∀ x ∈ ls, mentionsContentLength x = false)
    (size : Nat) : patchContentLength (headerBlock ls) size = headerBlock ls := by
  have hnone := find_label_lines h crlf
  rw [show find (ascii "content-length:") (lowerCopy crlf) = none by decide] at hnone
  simp only [patchContentLength,headerBlock,hnone,Option.map_none]

theorem shown_contentLength {line : Bytes} (h : isContentLength line = true) :
    isContentLength (replaceAll r.upstreamBase r.publicBase line) = true := by
  obtain ⟨t,ht⟩ := upstreamBase_head r
  cases hn : find r.upstreamBase line with
  | none => rwa [replaceAll_of_none hn]
  | some n =>
    have hlt := (find_eq_some.mp hn).1
    have h15 : 15 ≤ n := by
      by_contra hc
      refine contentLength_letters h (n := n) (by omega) ?_
      obtain ⟨u,hu⟩ := (find_eq_some.mp hn).2.1
      have := congrArg (·[0]?) hu
      simp only [ht,List.cons_append,List.getElem?_cons_zero,List.getElem?_drop,Nat.add_zero] at this
      exact this.symm
    rwa [replaceAll_of_some (by simp [ht]) hn,List.append_assoc,isContentLength_take h15 hlt.le]

theorem shown_header (hu : CleanUrl r.upstreamBase) (ls : List Bytes) :
    replaceAll r.upstreamBase r.publicBase (headerBlock ls) =
      headerBlock (ls.map (replaceAll r.upstreamBase r.publicBase)) := by
  have hcrlf : replaceAll r.upstreamBase r.publicBase ([] ++ _ ++ []) = _ :=
    replaceAll_sep (by decide) hu.crlf [] []
  simp only [List.nil_append,List.append_nil,replaceAll_nil] at hcrlf
  rw [headerBlock,replaceAll_lines (by decide) hu.crlf,hcrlf]
  rfl

theorem shown_headerLines (hp : CleanUrl r.publicBase) {ls : List Bytes} (h : HeaderLines ls) :
    HeaderLines (ls.map (replaceAll r.upstreamBase r.publicBase)) := by
  refine ⟨by simp [h.ne_nil],fun l hl => ?_⟩
  obtain ⟨k,hk,rfl⟩ := List.mem_map.mp hl
  obtain ⟨hplain,hne⟩ := h.plain k hk
  exact ⟨replaceAll_plain hp hplain,replaceAll_ne_nil hp.ne_nil hne⟩

theorem rewriteCameraResponse_block (hu : CleanUrl r.upstreamBase) {ls : List Bytes}
    (h : HeaderLines ls) (body : Bytes) (hd : (headerBlock ls ++ body).head? ≠ some dollar) :
    r.rewriteCameraResponse (headerBlock ls ++ body) =
      patchContentLength (headerBlock (ls.map (replaceAll r.upstreamBase r.publicBase)))
        (replaceAll r.upstreamBase r.publicBase body).length ++
        replaceAll r.upstreamBase r.publicBase body := by
  have hhead : ((headerBlock ls ++ body).head? == some dollar) = false := by simpa using hd
  simp only [rewriteCameraResponse,hhead,h.find,Bool.false_eq_true,if_false]
  rw [Nat.sub_add_cancel h.long,List.take_left,List.drop_left,r.shown_header hu]

theorem label_blank : ascii "Content-Length: " = ascii "Content-Length:" ++ [32] := by decide

theorem patched_declares (size : Nat) :
    isContentLength (ascii "Content-Length: " ++ decimal size) = true ∧
      Declares (ascii "Content-Length: " ++ decimal size) size := by
  have hcat : ascii "Content-Length: " ++ decimal size =
      ascii "Content-Length:" ++ 32 :: decimal size := by
    rw [label_blank,List.append_assoc,List.singleton_append]
  have hval : contentLengthValue (ascii "Content-Length: " ++ decimal size) = decimal size := by
    rw [contentLengthValue,hcat,List.drop_left]
    exact trimCopy_blank_all fun b hb =>
      isDigit_not_trimmed (List.all_eq_true.mp (decimal_all size) b hb)
  refine ⟨by rw [hcat]; exact startsWithCi_append _ _,?_,?_,?_⟩
  · rw [hval]
    exact decimal_ne_nil size
  · rw [hval]
    exact decimal_all size
  · rw [hval,digitsValue_decimal]

theorem patched_line_plain {l : Bytes} (h : Plain l) (k size : Nat) :
    Plain (l.take k ++ ascii "Content-Length: " ++ decimal size) := by
  rw [List.append_assoc]
  refine plain_append_head (h.infix_of (List.take_prefix _ _).isInfix) (plain_of_not_mem ?_) ?_
  · intro hm
    rcases List.mem_append.mp hm with hm | hm
    · exact absurd hm (by decide)
    · exact plain_digits (decimal_all size) hm
  · rw [List.head?_append_of_ne_nil _ (by decide)]
    decide

theorem patched_inside {l : Bytes} {k : Nat}
    (hl : find (ascii "content-length:") (lowerCopy l) = some (k + 1)) (size : Nat) :
    isContentLength (l.take (k + 1) ++ ascii "Content-Length: " ++ decimal size) = false := by
  rw [Bool.eq_false_iff]
  intro hc
  have hfind := (isContentLength_iff_find _).mp hc
  have hsplit := find_split hl
  have hlow : lowerCopy (l.take (k + 1) ++ ascii "Content-Length: " ++ decimal size) =
      (lowerCopy l).take (k + 1) ++ ascii "content-length:" ++ lowerCopy (32 :: decimal size) := by
    rw [label_blank,List.append_assoc,List.append_assoc,List.singleton_append,lowerCopy_append,
      lowerCopy_append,lowerCopy,List.map_take,List.append_assoc,label_lower]
    rfl
  rw [hlow] at hfind
  have hcut := find_of_append (by decide) hfind (by
    rw [List.length_append]
    omega)
  rw [hsplit,find_append hcut] at hl
  simp at hl

theorem patched_framed_iff {m out : Bytes} {shown : List Bytes} (h : HeaderLines shown)
    (hhas : (∃ line ∈ headerLines m, isContentLength line = true) →
      ∃ line ∈ shown, isContentLength line = true)
    (hempty : contentLengthFromHeader (messageHeaderPart m) = 0 → out = []) :
    Framed m (patchContentLength (headerBlock shown) out.length ++ out) ↔
      (∀ line ∈ headerLines m, isContentLength line = false) ∨
      (∃ line, shown.find? mentionsContentLength = some line ∧ isContentLength line = true) ∨
      ∃ line, shown.find? isContentLength = some line ∧ Declares line out.length := by
  have hunmarked {x : Bytes} (hx : mentionsContentLength x = false) : isContentLength x = false := by
    rw [Bool.eq_false_iff] at hx ⊢
    exact fun hc => hx (mentions_of_contentLength hc)
  have hnone : (¬ ∃ line ∈ headerLines m, isContentLength line = true) ↔
      ∀ line ∈ headerLines m, isContentLength line = false := by
    simp
  cases hm : shown.find? mentionsContentLength with
  | none =>
    have hfree : ∀ x ∈ shown, mentionsContentLength x = false := by
      simpa using List.find?_eq_none.mp hm
    have hno : ¬ ∃ line ∈ headerLines m, isContentLength line = true := by
      intro hc
      obtain ⟨x,hx,hcl⟩ := hhas hc
      rw [hunmarked (hfree x hx)] at hcl
      simp at hcl
    rw [patchContentLength_none hfree,framed_block h]
    exact ⟨fun _ => .inl (hnone.mp hno),fun _ => ⟨fun hc => absurd hc hno,hempty⟩⟩
  | some l =>
    obtain ⟨hl,a,c,rfl,ha⟩ := List.find?_eq_some_iff_append.mp hm
    have hfree : ∀ x ∈ a, mentionsContentLength x = false := by simpa using ha
    obtain ⟨k,hk⟩ := Option.isSome_iff_exists.mp hl
    have hplain := (h.plain l (by simp)).1
    have hpatched : HeaderLines
        (a ++ (l.take k ++ ascii "Content-Length: " ++ decimal out.length) :: c) := by
      rw [← List.singleton_append,← List.append_assoc] at h
      exact h.replace (patched_line_plain hplain k _) (by simp [decimal_ne_nil])
    have hskip (x : Bytes) : (a ++ x :: c).find? isContentLength = (x :: c).find? isContentLength :=
      find?_skip_plain fun y hy => hunmarked (hfree y hy)
    rw [patchContentLength_block hplain hfree hk,framed_block hpatched,hskip,hskip]
    cases k with
    | zero =>
      obtain ⟨hcl,hd⟩ := patched_declares out.length
      have hline : isContentLength l = true := (isContentLength_iff_find l).mpr hk
      rw [List.take_zero,List.nil_append,List.find?_cons_of_pos hcl]
      exact ⟨fun _ => .inr (.inl ⟨l,rfl,hline⟩),fun _ => ⟨fun _ => ⟨_,rfl,hd⟩,hempty⟩⟩
    | succ k =>
      have hline : isContentLength l = false := by
        rw [Bool.eq_false_iff]
        intro hc
        rw [(isContentLength_iff_find l).mp hc] at hk
        simp at hk
      rw [List.find?_cons_of_neg (Bool.eq_false_iff.mp (patched_inside hk _)),
        List.find?_cons_of_neg (Bool.eq_false_iff.mp hline)]
      constructor
      · rintro ⟨hd,-⟩
        by_cases hc : ∃ line ∈ headerLines m, isContentLength line = true
        · exact .inr (.inr (hd hc))
        · exact .inl (hnone.mp hc)
      · rintro (hno | ⟨x,hx,hc⟩ | hd)
        · exact ⟨fun hc => absurd hc (hnone.mpr hno),hempty⟩
        · obtain rfl := Option.some.inj hx
          rw [hline] at hc
          simp at hc
        · exact ⟨fun _ => hd,hempty⟩

theorem response_framed_iff (hu : CleanUrl r.upstreamBase) (hp : CleanUrl r.publicBase)
    {ls : List Bytes} {body : Bytes} (h : HeaderLines ls)
    (hd : (headerBlock ls ++ body).head? ≠ some dollar)
    (hcl : contentLengthFromHeader (headerBlock ls) = body.length) :
    Framed (headerBlock ls ++ body) (r.rewriteCameraResponse (headerBlock ls ++ body)) ↔
      r.ResponseFits (headerBlock ls ++ body) := by
  have hshown := r.shown_headerLines hp h
  have hempty : contentLengthFromHeader (headerBlock ls) = 0 →
      replaceAll r.upstreamBase r.publicBase body = [] := by
    intro h0
    obtain rfl : body = [] := List.eq_nil_of_length_eq_zero (by omega)
    simp
  have hlines : r.shownLines (headerBlock ls ++ body) =
      ls.map (replaceAll r.upstreamBase r.publicBase) ++ [[]] := by
    simp [shownLines,headerLines_block h]
  have hhas : (∃ line ∈ ls ++ [[]], isContentLength line = true) →
      ∃ line ∈ ls.map (replaceAll r.upstreamBase r.publicBase), isContentLength line = true := by
    rintro ⟨line,hl,hc⟩
    rcases List.mem_append.mp hl with hl | hl
    · exact ⟨_,List.mem_map_of_mem hl,r.shown_contentLength hc⟩
    · obtain rfl := List.mem_singleton.mp hl
      exact absurd hc (by decide)
  unfold ResponseFits
  rw [r.rewriteCameraResponse_block hu h body hd,hlines,messageBody_block h,
    find?_block _ _ rfl,find?_block _ _ rfl,← length_replaceAll]
  refine patched_framed_iff hshown ?_ ?_
  · rw [headerLines_block h]
    exact hhas
  · rw [messageHeaderPart_block h.ne_nil h.plain]
    exact hempty

end RtspRewriter

theorem rewritten_framed_iff (r : RtspRewriter) (hu : CleanUrl r.upstreamBase)
    {limits : ParserLimits} {buffer m rest : Bytes}
    (h : extractOneRtspMessage limits buffer = some (.unit m rest)) (hm : m.head? ≠ some dollar) :
    (Framed m (r.rewriteClientRequest m) ↔ r.RequestFits m) ∧
      (CleanUrl r.publicBase → (Framed m (r.rewriteCameraResponse m) ↔ r.ResponseFits m)) := by
  obtain ⟨header,body,rfl,hmsg⟩ := extract_message h hm
  obtain ⟨first,fields,rfl,hlines,pre,hpre,hfirst⟩ := hmsg.block
  have hcl := contentLength_declared hmsg.declares (hmsg.bodyFits.trans (Nat.min_le_right _ _))
  exact ⟨r.request_framed_iff hu hlines hpre hfirst hcl,
    fun hp => r.response_framed_iff hu hp hlines hm hcl⟩

def labRewriter : RtspRewriter where
  config :=
    { cameraHost := ascii "cam", cameraPassword := []
      cameraPathTemplate := ascii "/\x7bchannel\x7d" }
  channel := 0
  publicBase := ascii "/ch0"

def endedRequest : Bytes :=
  ascii "GET_PARAMETER /ch0 RTSP/1.0\r\nContent-Length: 4\r\n\r\nok\r\n"

def listedResponse : Bytes := ascii "RTSP/1.0 200 OK\r\nContent-Length: 16\r\n\r\nrtsp://cam:554/0"

theorem lab_messages_framed :
    Framed endedRequest (labRewriter.rewriteClientRequest endedRequest) ∧
    Framed listedResponse (labRewriter.rewriteCameraResponse listedResponse) := by
  have hrequest : extractOneRtspMessage {} endedRequest = some (.unit endedRequest []) := by decide +kernel
  have hresponse : extractOneRtspMessage {} listedResponse = some (.unit listedResponse []) := by decide +kernel
  constructor
  · refine (rewritten_framed_iff labRewriter (by decide +kernel) hrequest (by decide)).1.mpr (.inr ?_)
    exact ⟨ascii "Content-Length: 4",by decide +kernel,by decide +kernel,by decide,by decide,by decide⟩
  · refine ((rewritten_framed_iff labRewriter (by decide +kernel) hresponse (by decide)).2 (by decide +kernel)).mpr ?_
    exact .inr (.inl ⟨ascii "Content-Length: 16",by decide +kernel,by decide +kernel⟩)

theorem not_framed_of_value {m out : Bytes} (line : Bytes) (n : Nat) (hn : find headerEnd out = some n)
    (hm : ∃ l ∈ headerLines m, isContentLength l = true)
    (hl : (headerLines out).find? isContentLength = some line)
    (hv : digitsValue (contentLengthValue line) ≠ (out.drop (n + 4)).length) : ¬ Framed m out := by
  rintro ⟨n',hn',hd,-⟩
  obtain rfl := Option.some.inj (hn.symm.trans hn')
  obtain ⟨line',hl',hdecl⟩ := hd hm
  obtain rfl := Option.some.inj (hl.symm.trans hl')
  exact hv (Int.natCast_inj.mp hdecl.value)

def bareRequest : Bytes := ascii "GET_PARAMETER /ch0 RTSP/1.0\r\nContent-Length: 2\r\n\r\nok"

def notedResponse : Bytes :=
  ascii "RTSP/1.0 200 OK\r\nX: content-length:\r\nContent-Length: 16\r\n\r\nrtsp://cam:554/0"

theorem rewriting_breaks_framing :
    extractOneRtspMessage {} bareRequest = some (.unit bareRequest []) ∧
    ¬ Framed bareRequest (labRewriter.rewriteClientRequest bareRequest) ∧
    extractOneRtspMessage {} notedResponse = some (.unit notedResponse []) ∧
    ¬ Framed notedResponse (labRewriter.rewriteCameraResponse notedResponse) := by
  have hrequest : labRewriter.rewriteClientRequest bareRequest =
      ascii "GET_PARAMETER rtsp://cam:554/0 RTSP/1.0\r\nContent-Length: 2\r\n\r\nok\r\n" := by
    decide +kernel
  have hresponse : labRewriter.rewriteCameraResponse notedResponse =
      ascii "RTSP/1.0 200 OK\r\nX: Content-Length: 4\r\nContent-Length: 16\r\n\r\n/ch0" := by
    decide +kernel
  refine ⟨by decide +kernel,?_,by decide +kernel,?_⟩
  · rw [hrequest]
    exact not_framed_of_value (ascii "Content-Length: 2") 58 (by decide +kernel)
      ⟨ascii "Content-Length: 2",by decide +kernel,by decide⟩ (by decide +kernel) (by decide +kernel)
  · rw [hresponse]
    exact not_framed_of_value (ascii "Content-Length: 16") 57 (by decide +kernel)
      ⟨ascii "Content-Length: 16",by decide +kernel,by decide⟩ (by decide +kernel) (by decide +kernel)

end RpiVms

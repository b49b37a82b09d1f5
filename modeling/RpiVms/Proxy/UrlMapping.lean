import RpiVms.Proxy.Rewriter
import RpiVms.Rtsp.Headers

namespace RpiVms

open Search Replace RtspRewriter

def chKey : Bytes := ascii "/ch"

theorem digit_key {d : UInt8} (h : isDigit d = true) :
    toDecimal ((d.toNat : Int) - 48) = [d] ∧ toLower d = d := by
  have hd : 48 ≤ d.toNat ∧ d.toNat ≤ 57 := by
    simpa [isDigit,UInt8.le_iff_toNat_le] using h
  obtain ⟨k,hk⟩ : ∃ k : Fin 10, d = 48 + k.val.toUInt8 := by
    refine ⟨⟨d.toNat - 48,by omega⟩,UInt8.toNat_inj.mp ?_⟩
    simp
    omega
  subst hk
  revert k
  decide

structure HasChannel (target : Bytes) (pos : Nat) (d : UInt8) : Prop where
  found : find chKey (lowerCopy target) = some pos
  digit : isDigit d = true
  there : target[pos + 3]? = some d

section

variable {target : Bytes} {pos : Nat} {d : UInt8} {maxChannels : Int}

theorem channel_of_parse (h : 0 ≤ parseChannelFromRequestTarget target maxChannels) :
    ∃ pos d, HasChannel target pos d ∧
      parseChannelFromRequestTarget target maxChannels = (d.toNat : Int) - 48 := by
  unfold parseChannelFromRequestTarget at h ⊢
  split at h
  · simp at h
  · rename_i pos hpos
    split at h
    · simp at h
    · rename_i d hd
      split at h
      · simp at h
      · rename_i hdig
        simp only [Bool.not_eq_true',Bool.not_eq_false] at hdig
        refine ⟨pos,d,⟨hpos,hdig,hd⟩,?_⟩
        simp only [hdig,Bool.not_true,Bool.false_eq_true,if_false] at h ⊢
        split at h
        · simp at h
        · rename_i hr
          rw [if_neg hr]

theorem HasChannel.long (h : HasChannel target pos d) : pos + 4 ≤ target.length := by
  have := (List.getElem?_eq_some_iff.mp h.there).1
  omega

theorem HasChannel.key (h : HasChannel target pos d) :
    chKey ++ [d] <+: (lowerCopy target).drop pos := by
  obtain ⟨t,ht⟩ := (find_eq_some.mp h.found).2.1
  have hd : (lowerCopy target)[pos + 3]? = some d := by
    rw [lowerCopy,List.getElem?_map,h.there,Option.map_some,(digit_key h.digit).2]
  rw [← List.getElem?_drop,← ht,List.getElem?_append_right (by decide),
    show 3 - chKey.length = 0 by decide] at hd
  rw [← ht]
  rcases t with _ | ⟨a,t⟩
  · simp at hd
  · simp only [List.getElem?_cons_zero,Option.some.injEq] at hd
    exact ⟨t,by simp [hd]⟩

theorem HasChannel.publicBase (h : HasChannel target pos d) :
    extractPublicBaseFromTarget target ((d.toNat : Int) - 48) = target.take (pos + 4) := by
  obtain ⟨hdec,hlow⟩ := digit_key h.digit
  have hkey : lowerCopy (chKey ++ [d]) = chKey ++ [d] := by
    rw [lowerCopy,List.map_append,List.map_singleton,hlow]
    congr 1
  have hfind : find (lowerCopy (ascii "/ch" ++ [d])) (lowerCopy target) = some pos := by
    rw [show ascii "/ch" = chKey from rfl,hkey]
    exact find_extend h.found h.key
  simp only [extractPublicBaseFromTarget,hdec,hfind]
  rfl

theorem HasChannel.suffix (h : HasChannel target pos d) (s : Bytes) :
    targetSuffix (target.take (pos + 4) ++ s) = s := by
  have hlong := h.long
  have hlen : (target.take (pos + 4)).length = pos + 4 := by
    rw [List.length_take]; omega
  have hcut : find chKey (lowerCopy (target.take (pos + 4))) = some pos := by
    refine find_of_append (t := lowerCopy (target.drop (pos + 4))) (by decide) ?_ ?_
    · rw [lowerCopy,lowerCopy,← List.map_append,List.take_append_drop]
      exact h.found
    · rw [lowerCopy,List.length_map,hlen]
      exact Nat.add_le_add_left (by decide) pos
  have hfind : find (ascii "/ch") (lowerCopy (target.take (pos + 4) ++ s)) = some pos := by
    rw [lowerCopy,List.map_append]
    exact find_append hcut _
  simp only [targetSuffix,hfind]
  exact List.drop_left' hlen

end

theorem requestLine_plain {method target version : Bytes} (hm : Token method)
    (ht : ∀ b ∈ target, isSpace b = false) (hv : Token version) :
    (13 : UInt8) ∉ requestLine method target version := by
  have hcr {w : Bytes} (h : ∀ b ∈ w, isSpace b = false) : (13 : UInt8) ∉ w :=
    fun hc => absurd (h 13 hc) (by decide)
  simp [requestLine,hcr hm.solid,hcr ht,hcr hv.solid]

theorem getFirstLine_plain {l : Bytes} (h : Plain l) (t : Bytes) :
    getFirstLine (l ++ crlf ++ t) = l := by
  simp only [getFirstLine,find_append (clean_iff_plain.mpr h) t]
  simp

theorem insertTransport_after {l : Bytes} (h : Plain l) (t : Bytes) :
    ∃ t', insertTransport (l ++ crlf ++ t) = l ++ crlf ++ t' := by
  unfold insertTransport
  cases hn : find headerEnd (l ++ crlf ++ t) with
  | none => exact ⟨t,rfl⟩
  | some n =>
    have hle : l.length ≤ n := by
      by_contra hc
      exact no_headerEnd_before h (by omega) (find_eq_some.mp hn).2.1
    obtain ⟨k,rfl⟩ : ∃ k, n = l.length + k := ⟨n - l.length,by omega⟩
    have htake : (l ++ crlf ++ t).take (l.length + k + 2) = l ++ crlf ++ t.take k := by
      have : l.length + k + 2 = (l ++ crlf).length + k := by simp [crlf]; omega
      rw [this,List.take_length_add_append]
    simp only [htake]
    exact ⟨t.take k ++ transportLine ++ crlf ++ (l ++ crlf ++ t).drop (l.length + k + 2),
      by simp only [List.append_assoc]⟩

theorem extractRequestTarget_line {method target version : Bytes} (hm : Token method)
    (ht : Token target) (hv : Token version) (t : Bytes) :
    extractRequestTarget (requestLine method target version ++ crlf ++ t) = target := by
  have hp := plain_of_not_mem (requestLine_plain hm ht.solid hv)
  have hline : requestLine method target version = method ++ 32 :: (target ++ 32 :: version) := by
    simp [requestLine]
  simp only [extractRequestTarget,getFirstLine_plain hp]
  simp only [hline,readWord_token hm,readWord_space,readWord_token ht]
  simp [hm.ne_nil]

def RtspRewriter.sentRequest (r : RtspRewriter) (method url version rest : Bytes) : Bytes :=
  r.rewriteClientRequest (requestLine method url version ++ crlf ++ rest)

theorem sentRequest_line (r : RtspRewriter) {method url version : Bytes} (hm : Token method)
    (hu : Token url) (hv : Token version) (rest : Bytes) :
    ∃ t, let out := requestLine method (r.upstreamBase ++ targetSuffix url) version ++ crlf ++ t
      r.sentRequest method url version rest = out ∨
        r.sentRequest method url version rest = insertTransport out := by
  have hp := plain_of_not_mem (requestLine_plain hm hu.solid hv)
  have hfind := find_append (clean_iff_plain.mpr hp) rest
  unfold sentRequest rewriteClientRequest
  simp only [hfind]
  have hfirst : (requestLine method url version ++ crlf ++ rest).take
      (requestLine method url version).length = requestLine method url version := by
    rw [List.append_assoc,List.take_left]
  rw [hfirst,rewrite_requestLine r hm hu hv]
  split
  · exact ⟨_,.inr rfl⟩
  · exact ⟨_,.inl rfl⟩

theorem HasChannel.base_token {target : Bytes} {pos : Nat} {d : UInt8}
    (h : HasChannel target pos d) (ht : ∀ b ∈ target, isSpace b = false) {s : Bytes}
    (hs : ∀ b ∈ s, isSpace b = false) : Token (target.take (pos + 4) ++ s) where
  ne_nil := by
    have hlong := h.long
    have : (target.take (pos + 4)).length = pos + 4 := by
      rw [List.length_take]; omega
    intro he
    rw [(List.append_eq_nil_iff.mp he).1] at this
    simp at this
  solid := by
    intro b hb
    rcases List.mem_append.mp hb with hb | hb
    · exact ht b (List.take_subset _ _ hb)
    · exact hs b hb

theorem shown_line (r : RtspRewriter) {message pre label s post : Bytes} {n : Nat}
    (hd : message.head? ≠ some dollar) (hend : find headerEnd message = some n)
    (hbody : message.drop (n + 4) = pre ++ crlf ++ (label ++ r.upstreamBase ++ s) ++ crlf ++ post)
    (hclean : ∀ x ∈ crlf, x ∉ r.upstreamBase)
    (hfirst : find r.upstreamBase (label ++ r.upstreamBase ++ s) = some label.length)
    (honce : find r.upstreamBase s = none) :
    ∃ front back, r.rewriteCameraResponse message =
      front ++ crlf ++ (label ++ r.publicBase ++ s) ++ crlf ++ back := by
  have hne : r.upstreamBase ≠ [] := by simp [upstreamBase,ascii]
  have hline : replaceAll r.upstreamBase r.publicBase (label ++ r.upstreamBase ++ s) = label ++ r.publicBase ++ s := by
    rw [replaceAll_of_some hne hfirst,← List.length_append,List.drop_left,replaceAll_of_none honce,
      List.append_assoc label,List.take_left]
  refine ⟨patchContentLength (replaceAll r.upstreamBase r.publicBase (message.take (n + 4)))
      (replaceAll r.upstreamBase r.publicBase (message.drop (n + 4))).length ++
    replaceAll r.upstreamBase r.publicBase pre,replaceAll r.upstreamBase r.publicBase post,?_⟩
  unfold rewriteCameraResponse
  rw [if_neg (by simpa using hd),hend]
  simp only
  rw [hbody,replaceAll_sep (by decide) hclean,replaceAll_sep (by decide) hclean,hline]
  simp only [List.append_assoc]

theorem url_mapping_round_trips (config : AppConfig) (target : Bytes) (maxChannels : Int)
    (method version s : Bytes) (hm : Token method) (hv : Token version)
    (ht : ∀ b ∈ target, isSpace b = false) (hs : ∀ b ∈ s, isSpace b = false)
    (hn : 0 ≤ parseChannelFromRequestTarget target maxChannels) :
    let n := parseChannelFromRequestTarget target maxChannels
    let base := extractPublicBaseFromTarget target n
    let r : RtspRewriter := ⟨config,n,base⟩
    r.rewriteRequestLine (requestLine method (base ++ s) version) =
      requestLine method (r.upstreamBase ++ s) version ∧
    (∀ rest, ∃ t, let out := requestLine method (r.upstreamBase ++ s) version ++ crlf ++ t
      r.sentRequest method (base ++ s) version rest = out ∨
        r.sentRequest method (base ++ s) version rest = insertTransport out) ∧
    ((∀ b ∈ r.upstreamBase, isSpace b = false) → ∀ rest,
      extractRequestTarget (r.sentRequest method (base ++ s) version rest) = r.upstreamBase ++ s) ∧
    ∀ message i pre label post, message.head? ≠ some dollar → find headerEnd message = some i →
      message.drop (i + 4) = pre ++ crlf ++ (label ++ r.upstreamBase ++ s) ++ crlf ++ post →
      (∀ x ∈ crlf, x ∉ r.upstreamBase) → find r.upstreamBase (label ++ r.upstreamBase ++ s) = some label.length →
      find r.upstreamBase s = none →
      ∃ front back url, r.rewriteCameraResponse message = front ++ crlf ++ (label ++ url) ++ crlf ++ back ∧
        url = base ++ s ∧
        r.rewriteRequestLine (requestLine method url version) = requestLine method (r.upstreamBase ++ s) version := by
  intro n base r
  obtain ⟨pos,d,hc,hd⟩ := channel_of_parse hn
  have hbase : base = target.take (pos + 4) := by
    simp only [base,n,hd]
    exact hc.publicBase
  have hsuffix : targetSuffix (base ++ s) = s := hbase ▸ hc.suffix s
  have hb : Token (base ++ s) := hbase ▸ hc.base_token ht hs
  have hline := rewrite_requestLine r hm hb hv
  have hsent := sentRequest_line r hm hb hv
  rw [hsuffix] at hline hsent
  refine ⟨hline,hsent,?_,?_⟩
  · intro hup rest
    have hu : Token (r.upstreamBase ++ s) := by
      refine ⟨by simp [upstreamBase,ascii],fun b hb => ?_⟩
      rcases List.mem_append.mp hb with hb | hb
      · exact hup b hb
      · exact hs b hb
    have hp := plain_of_not_mem (requestLine_plain hm hu.solid hv)
    obtain ⟨t,ht⟩ := hsent rest
    obtain ⟨t',ht'⟩ := insertTransport_after hp t
    simp only [ht'] at ht
    rcases ht with ht | ht <;> rw [ht,extractRequestTarget_line hm hu hv]
  · intro message i pre label post hd hend hbody hclean hfirst honce
    obtain ⟨front,back,hshown⟩ := shown_line r hd hend hbody hclean hfirst honce
    exact ⟨front,back,base ++ s,by rw [hshown,List.append_assoc label],rfl,hline⟩

def labConfig : AppConfig := { cameraHost := ascii "10.0.0.5", cameraPassword := ascii "pw" }

theorem track_of_second_channel_round_trips :
    (RtspRewriter.mk labConfig 2 (ascii "rtsp://pi:8554/CH2")).rewriteRequestLine
      (ascii "SETUP rtsp://pi:8554/CH2/ch7/trackID=1 RTSP/1.0") =
        ascii "SETUP rtsp://10.0.0.5:554/2/profile2/media.smp/ch7/trackID=1 RTSP/1.0" :=
  (url_mapping_round_trips labConfig (ascii "rtsp://pi:8554/CH2/live") 4 (ascii "SETUP")
    (ascii "RTSP/1.0") (ascii "/ch7/trackID=1") (by decide +kernel) (by decide +kernel)
    (by decide +kernel) (by decide +kernel) (by decide +kernel)).1

end RpiVms

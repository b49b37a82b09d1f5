import RpiVms.Rtsp.Progress

namespace RpiVms

open Search Framing

-- what the caller of extract_one_rtsp_message sees: the result, the message and the buffer
def outputs : Outcome UInt8 → Bool × Bytes × Bytes
  | .unit message rest => (true,message,rest)
  | .wait rest => (false,[],rest)

def retainedBound (limits : ParserLimits) (b : Bytes) : Nat :=
  if b.head? = some dollar then 65538 else limits.maxHeaderBytes + limits.maxBodyBytes

structure OpenHeader (limits : ParserLimits) (b : Bytes) : Prop where
  starts : isRtspMessageStartAt b 0 = true
  unended : find headerEnd b = none
  long : limits.maxHeaderBytes < b.length

structure Overhang (limits : ParserLimits) (buffer : Bytes) (p r : Nat) : Prop where
  reached : PassedOver limits buffer p
  header : OpenHeader limits (buffer.drop p)
  behind : p < r
  starts : isMessageStart (buffer.drop r) = true
  next : ∀ q, p < q → q < r → isMessageStart (buffer.drop q) = false
  exceeds : retainedBound limits (buffer.drop r) < (buffer.drop r).length

section

variable {limits : ParserLimits} {buffer b b' : Bytes} {maxHeader maxBody : Nat}

theorem IsUnit.mono {m n : Nat} {u : Bytes} (h : IsUnit maxHeader m u) (hn : m ≤ n) : IsUnit maxHeader n u := by
  rcases h with hf | ⟨header,body,rfl,hm⟩
  · exact .inl hf
  · exact .inr ⟨header,body,rfl,{ hm with bodyFits := hm.bodyFits.trans hn }⟩

theorem interleaved_incomplete (hd : b.head? = some dollar) (h : extractInterleaved b = .incomplete b') :
    b' = b ∧ b.length ≤ retainedBound limits b := by
  have hi := (b.getD 2 0).toNat_lt
  have lo := (b.getD 3 0).toNat_lt
  rw [retainedBound,if_pos hd]
  unfold extractInterleaved interleavedLength at h
  split at h
  · cases h
    exact ⟨rfl,by omega⟩
  · dsimp only at h
    split at h
    · cases h
      exact ⟨rfl,by omega⟩
    · cases h

theorem headed_incomplete {k : Nat} (hd : b.head? ≠ some dollar) (h : extractHeaded limits b k = .incomplete b') :
    b' = b ∧ b.length ≤ retainedBound limits b := by
  rw [retainedBound,if_neg hd]
  unfold extractHeaded at h
  dsimp only at h
  split at h
  · cases h
  split at h
  · cases h
  · rename_i hk hbody
    simp only [Bool.or_eq_true,decide_eq_true_eq,not_or,not_lt] at hbody
    split at h
    · cases h
      exact ⟨rfl,by omega⟩
    · cases h

theorem iteration_incomplete (h : extractIteration limits b = .incomplete b') :
    b' = [] ∨ (b' = b ∧ b.length ≤ retainedBound limits b) ∨
      (OpenHeader limits b ∧ ∃ next, findNextMessageStart b 1 = some next ∧ b' = b.drop next) := by
  by_cases hd : b.head? = some dollar
  · simp only [extractIteration,hd,beq_self_eq_true,if_true] at h
    exact .inr (.inl (interleaved_incomplete hd h))
  have hshort (hl : b.length ≤ limits.maxHeaderBytes) : b.length ≤ retainedBound limits b := by
    rw [retainedBound,if_neg hd]
    omega
  unfold extractIteration at h
  rw [if_neg (by simpa using hd)] at h
  cases hs : isRtspMessageStartAt b 0 with
  | false =>
    simp only [hs,Bool.not_false,if_true] at h
    rcases resync_cases b limits with ⟨next,-,hr⟩ | ⟨-,-,hr⟩ | ⟨-,hl,hr⟩ <;> rw [hr] at h <;> cases h
    · exact .inl rfl
    · exact .inr (.inl ⟨rfl,hshort hl⟩)
  | true =>
    simp only [hs,Bool.not_true,Bool.false_eq_true,if_false] at h
    cases hf : find headerEnd b with
    | some n =>
      rw [hf] at h
      exact .inr (.inl (headed_incomplete hd h))
    | none =>
      rw [hf] at h
      simp only at h
      split at h
      · rename_i hl
        cases h
        rcases resync_cases b limits with ⟨next,hn,hr⟩ | ⟨-,-,hr⟩ | ⟨-,hle,-⟩
        · exact .inr (.inr ⟨⟨hs,hf,hl⟩,next,hn,by rw [hr]⟩)
        · exact .inl (by rw [hr])
        · omega
      · rename_i hl
        cases h
        exact .inr (.inl ⟨rfl,hshort (by omega)⟩)

theorem iteration_incomplete_suffix (h : extractIteration limits b = .incomplete b') : b' <:+ b := by
  rcases iteration_incomplete h with rfl | ⟨rfl,-⟩ | ⟨-,next,-,rfl⟩
  · exact List.nil_suffix
  · exact List.suffix_refl b'
  · exact List.drop_suffix next b

theorem extract_suffix {rest : Bytes} (h : extractOneRtspMessage limits buffer = some (.wait rest)) :
    rest <:+ buffer := by
  refine extract_wait_rec (P := fun b rest => rest <:+ b) (List.suffix_refl []) ?_ ?_ h
  · exact fun b b' _ hi => iteration_incomplete_suffix hi
  · intro b b' rest _ hi ih
    have hs := resync_suffix b limits
    rw [← iteration_again hi] at hs
    exact ih.trans hs

theorem OpenHeader.iteration (h : OpenHeader limits b) :
    extractIteration limits b = .incomplete (resyncMessageBuffer b limits).2 := by
  simp [extractIteration,start_head h.starts,h.starts,h.unended,h.long]

theorem Overhang.lift {next p r : Nat} (h : Overhang limits (b.drop next) p r)
    (ha : extractIteration limits b = .again (b.drop next)) (hn : findNextMessageStart b 1 = some next) :
    Overhang limits b (next + p) (next + r) := by
  have hdrop (q : Nat) : (b.drop next).drop q = b.drop (next + q) := by rw [List.drop_drop]
  refine ⟨h.reached.lift ha hn,hdrop p ▸ h.header,by have := h.behind; omega,hdrop r ▸ h.starts,?_,hdrop r ▸ h.exceeds⟩
  intro q hpq hqr
  have hq := h.next (q - next) (by omega) (by omega)
  rwa [hdrop,Nat.add_sub_cancel' (by omega)] at hq

theorem overhang_of_wait {rest : Bytes} (h : extractOneRtspMessage limits buffer = some (.wait rest))
    (hl : retainedBound limits rest < rest.length) : ∃ p r, Overhang limits buffer p r := by
  refine extract_wait_rec (P := fun b rest => retainedBound limits rest < rest.length →
    ∃ p r, Overhang limits b p r) (fun hl => by simp at hl) ?_ ?_ h hl
  · intro b b' _ hi hl
    rcases iteration_incomplete hi with rfl | ⟨rfl,hle⟩ | ⟨hopen,next,hn,rfl⟩
    · simp at hl
    · omega
    · obtain ⟨h1,-,hs,hskip⟩ := findNextMessageStart_some hn
      exact ⟨0,next,fun q hq => absurd hq (Nat.not_lt_zero q),hopen,h1,hs,fun q hq hlt => hskip q hq hlt,hl⟩
  · intro b b' rest hne hi ih hl
    obtain ⟨p,q,ho⟩ := ih hl
    have hb := iteration_again hi
    rcases resync_cases b limits with ⟨next,hn,hs⟩ | ⟨-,-,hs⟩ | ⟨-,-,hs⟩ <;> rw [hs] at hb <;> subst hb
    · exact ⟨_,_,ho.lift hi hn⟩
    · have := ho.header.long
      simp at this
    · exact ⟨p,q,ho⟩

theorem Overhang.wait {p r : Nat} (h : Overhang limits buffer p r) :
    extractOneRtspMessage limits buffer = some (.wait (buffer.drop r)) := by
  have hr : r < buffer.length := by
    have := h.exceeds
    rw [List.length_drop] at this
    omega
  have hp := h.behind
  have hstart : isMessageStart (buffer.drop p) = true := by
    rw [isMessageStart,h.header.starts,Bool.or_true]
  have hn : findNextMessageStart (buffer.drop p) 1 = some (r - p) := by
    rw [findNextMessageStart,Option.map_eq_some_iff]
    refine ⟨r - p - 1,findSuffix_eq_some.mpr ⟨?_,?_,?_⟩,by omega⟩
    · simp only [List.length_drop]
      omega
    · rw [List.drop_drop,List.drop_drop,show p + (1 + (r - p - 1)) = r by omega]
      exact h.starts
    · intro q hq
      rw [List.drop_drop,List.drop_drop]
      exact h.next _ (by omega) (by omega)
  have hlong := h.header.long
  have hne : buffer.drop p ≠ [] := List.ne_nil_of_length_pos (by omega)
  have hdrop : (buffer.drop p).drop (r - p) = buffer.drop r := by
    rw [List.drop_drop,Nat.add_sub_cancel' hp.le]
  rw [extract_passes h.reached (by omega) hstart]
  refine extract_incomplete hne ?_
  rw [h.header.iteration,resync_lands hn,hdrop]

end

theorem extraction_sound (limits : ParserLimits) (buffer : Bytes) (outcome : Outcome UInt8)
    (h : extractOneRtspMessage limits buffer = some outcome) :
    (∀ message rest, outputs outcome = (true,message,rest) →
      ∃ dropped, buffer = dropped ++ message ++ rest ∧
        IsUnit limits.maxHeaderBytes limits.maxBodyBytes message ∧
        ∀ u t, buffer = u ++ t → IsUnit limits.maxHeaderBytes (min limits.maxBodyBytes intMax) u → dropped = []) ∧
    (∀ message rest, outputs outcome = (false,message,rest) → message = [] ∧ rest <:+ buffer) := by
  cases outcome with
  | unit m b =>
    refine ⟨fun message rest ho => ?_,fun message rest ho => (by cases ho)⟩
    cases ho
    obtain ⟨dropped,hd⟩ := extract_conserves h
    refine ⟨dropped,hd,(extract_isUnit h).mono (Nat.min_le_left _ _),fun u t ht hu => ?_⟩
    rw [ht,whole_unit limits t hu,Option.some.injEq] at h
    cases h
    rw [ht,List.append_assoc] at hd
    have := congrArg List.length hd
    simp only [List.length_append] at this
    exact List.eq_nil_of_length_eq_zero (by omega)
  | wait b =>
    refine ⟨fun message rest ho => (by cases ho),fun message rest ho => ?_⟩
    cases ho
    exact ⟨rfl,extract_suffix h⟩

theorem smuggled_conserved :
    ∃ dropped, smuggled = dropped ++ ascii "PLAY /ch1 RTSP/1.0\r\nCSeq: 1\r\n\r\n" ++ [] ∧
      IsUnit 16384 1048576 (ascii "PLAY /ch1 RTSP/1.0\r\nCSeq: 1\r\n\r\n") := by
  have hx : extractOneRtspMessage {} smuggled =
      some (.unit (ascii "PLAY /ch1 RTSP/1.0\r\nCSeq: 1\r\n\r\n") []) := by decide
  obtain ⟨dropped,hd,hu,-⟩ := (extraction_sound {} smuggled _ hx).1 _ _ rfl
  exact ⟨dropped,hd,hu⟩

theorem not_start_of_head {b : UInt8} (hd : b ≠ dollar) (hp : ∀ pre ∈ messagePrefixes, pre.head? ≠ some b)
    (t : Bytes) : isMessageStart (b :: t) = false := by
  rw [isMessageStart,Bool.or_eq_false_iff]
  refine ⟨by simpa using hd,?_⟩
  rw [Bool.eq_false_iff]
  intro hs
  obtain ⟨pre,hm,r,hr⟩ := start_iff.mp hs
  cases pre with
  | nil => exact (prefixes_plain [] hm).2.2 rfl
  | cons c pre =>
    obtain ⟨rfl,-⟩ := List.cons.inj hr
    exact hp _ hm rfl

theorem not_start_of_plain {w t : Bytes} {k : Nat} (hw : ∀ x ∈ w, x = 0 ∨ x = 10 ∨ x = 13) (hk : k < w.length) :
    isMessageStart ((w ++ t).drop k) = false := by
  rw [List.drop_append_of_le_length hk.le,List.drop_eq_getElem_cons hk,List.cons_append]
  rcases hw _ (List.getElem_mem hk) with hx | hx | hx <;> rw [hx]
  · exact not_start_of_head (by decide) (by decide) _
  · exact not_start_of_head (by decide) (by decide) _
  · exact not_start_of_head (by decide) (by decide) _

theorem isMessageStart_headed {s : Bytes} {n : Nat} (h : find headerEnd s = some n) (t : Bytes)
    (hs : isMessageStart (s ++ t) = true) : isMessageStart s = true := by
  have hle := find_le h
  rw [isMessageStart,Bool.or_eq_true] at hs ⊢
  rcases hs with hd | hs
  · left
    have hne : s ≠ [] := by
      rintro rfl
      simp [headerEnd] at hle
    rwa [List.head?_append_of_ne_nil _ hne] at hd
  · obtain ⟨pre,hm,hp⟩ := start_iff.mp hs
    have hshort := prefix_before_headerEnd hm hp (find_append h t)
    exact .inr (start_iff.mpr ⟨pre,hm,List.prefix_of_prefix_length_le hp (List.prefix_append _ _) (by omega)⟩)

theorem hugeHeader_starts : ∀ q < hugeHeader.length - 3,
    find headerEnd (hugeHeader.drop q) = some (hugeHeader.length - 4 - q) ∧
    (isMessageStart (hugeHeader.drop q) = true → isRtspMessageStartAt (hugeHeader.drop q) 0 = true ∧
      contentLengthFromHeader (hugeHeader.drop q) = -1) := by decide +kernel

theorem huge_passedOver (body t : Bytes) (hz : ∀ x ∈ body, x = 0) :
    PassedOver hugeLimits (hugeHeader ++ (body ++ t)) (hugeHeader.length + body.length) := by
  have hlen : hugeHeader.length = 63 := by decide
  intro q hq hs
  by_cases hin : q < hugeHeader.length - 3
  · obtain ⟨hf,hstart⟩ := hugeHeader_starts q hin
    rw [List.drop_append_of_le_length (by omega)] at hs ⊢
    obtain ⟨hr,hc⟩ := hstart (isMessageStart_headed hf _ hs)
    obtain ⟨pre,hm,hp⟩ := start_iff.mp hr
    refine ⟨_,start_iff.mpr ⟨pre,hm,hp.trans (List.prefix_append _ _)⟩,find_append hf _,.inr (.inl ?_)⟩
    rw [List.take_left' (by rw [List.length_drop]; omega),hc]
    decide
  · -- the last bytes of the header and the zeros of the body start nothing
    have hend : ∀ x ∈ hugeHeader.drop 60, x = 0 ∨ x = 10 ∨ x = 13 := by decide +kernel
    have hplain : ∀ x ∈ hugeHeader.drop 60 ++ body, x = 0 ∨ x = 10 ∨ x = 13 := by
      intro x hx
      rcases List.mem_append.mp hx with hx | hx
      · exact hend x hx
      · exact .inl (hz x hx)
    have hsplit : hugeHeader ++ (body ++ t) = hugeHeader.take 60 ++ ((hugeHeader.drop 60 ++ body) ++ t) := by
      rw [List.append_assoc,← List.append_assoc (hugeHeader.take 60),List.take_append_drop]
    have hcut : (hugeHeader.take 60).length = 60 := by decide
    rw [hsplit,List.drop_append,hcut,List.drop_eq_nil_of_le (by omega),List.nil_append] at hs
    have hk : q - 60 < (hugeHeader.drop 60 ++ body).length := by
      rw [List.length_append,List.length_drop]
      omega
    rw [not_start_of_plain hplain hk] at hs
    cases hs

theorem body_over_int_dropped :
    IsUnit hugeLimits.maxHeaderBytes hugeLimits.maxBodyBytes (hugeHeader ++ List.replicate 2147483648 0) ∧
    extractOneRtspMessage hugeLimits (hugeHeader ++ (List.replicate 2147483648 0 ++ [36,0,0,0])) =
      some (.unit [36,0,0,0] []) := by
  have hm := hugeHeader_message (List.replicate 2147483648 0) List.length_replicate
  have hp := huge_passedOver (List.replicate 2147483648 0) [36,0,0,0] (fun x hx => (List.mem_replicate.mp hx).2)
  refine ⟨.inr ⟨_,_,rfl,hm⟩,?_⟩
  generalize List.replicate 2147483648 (0 : UInt8) = body at hp
  have hdrop : (hugeHeader ++ (body ++ [36,0,0,0])).drop (hugeHeader.length + body.length) = [36,0,0,0] := by
    rw [← List.append_assoc]
    exact List.drop_left' (List.length_append ..)
  rw [extract_passes hp (by simp) (by rw [hdrop]; decide),hdrop]
  decide

theorem retained_within_limits_iff (limits : ParserLimits) (buffer : Bytes) :
    (∀ rest, extractOneRtspMessage limits buffer = some (.wait rest) →
      rest.length ≤ if rest.head? = some dollar then 65538 else limits.maxHeaderBytes + limits.maxBodyBytes) ↔
    ¬ ∃ p r, Overhang limits buffer p r := by
  constructor
  · rintro h ⟨p,r,ho⟩
    exact absurd (h _ ho.wait) (not_le.mpr ho.exceeds)
  · intro h rest hw
    refine not_lt.mp fun hl => h (overhang_of_wait hw hl)

def openHeaders : Bytes := (List.replicate 10 (ascii "PLAY ")).flatten

theorem open_headers_retained :
    extractOneRtspMessage ⟨16,16⟩ openHeaders = some (.wait (openHeaders.drop 5)) ∧
      (openHeaders.drop 5).head? ≠ some dollar ∧ (openHeaders.drop 5).length = 45 := by
  decide +kernel

end RpiVms

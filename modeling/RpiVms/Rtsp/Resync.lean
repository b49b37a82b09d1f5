import RpiVms.Rtsp.Units

namespace RpiVms

open Search Framing

inductive Calls (limits : ParserLimits) (stream : Bytes) : Bytes → Prop
  | start : Calls limits stream stream
  | next {b m rest} : Calls limits stream b →
      extractOneRtspMessage limits b = some (.unit m rest) → Calls limits stream rest

def AfterCrlf (stream b : Bytes) : Prop := ∃ pre, stream = pre ++ crlf ++ b

def StartsOnLine (limits : ParserLimits) (stream : Bytes) : Prop :=
  ∀ b m rest, Calls limits stream b → extractOneRtspMessage limits b = some (.unit m rest) →
    b = m ++ rest ∨ AfterCrlf stream (m ++ rest)

def HeaderRefused (limits : ParserLimits) (b : Bytes) : Prop :=
  ∃ n, isRtspMessageStartAt b 0 = true ∧ find headerEnd b = some n ∧
    (limits.maxHeaderBytes < n + 4 ∨ contentLengthFromHeader (b.take (n + 4)) < 0 ∨
      limits.maxBodyBytes < (contentLengthFromHeader (b.take (n + 4))).toNat)

def PassedOver (limits : ParserLimits) (buffer : Bytes) (p : Nat) : Prop :=
  ∀ q, q < p → isMessageStart (buffer.drop q) = true → HeaderRefused limits (buffer.drop q)

-- u is the first whole message behind e: it stands at p, and every recognised start from e up to p is refused
structure MessageAt (limits : ParserLimits) (stream : Bytes) (e p : Nat) (u : Bytes) : Prop where
  behind : e ≤ p
  stands : u <+: stream.drop p
  whole : IsUnit limits.maxHeaderBytes (min limits.maxBodyBytes intMax) u
  refused : ∀ q, e ≤ q → q < p → isMessageStart (stream.drop q) = true → HeaderRefused limits (stream.drop q)

inductive MessageEnds (limits : ParserLimits) (stream : Bytes) : Nat → Prop
  | start : MessageEnds limits stream 0
  | next {e p u} : MessageEnds limits stream e → MessageAt limits stream e p u →
      MessageEnds limits stream (p + u.length)

structure Hidden (limits : ParserLimits) (stream : Bytes) (e p : Nat) (u : Bytes) : Prop where
  begins : MessageEnds limits stream e
  first : MessageAt limits stream e p u
  inside : e < p
  offLine : ¬ crlf <:+ stream.take p

def Refused (limits : ParserLimits) (b : Bytes) : Prop := isMessageStart b = false ∨ HeaderRefused limits b

theorem resync_lands {limits : ParserLimits} {b : Bytes} {next : Nat}
    (h : findNextMessageStart b 1 = some next) :
    resyncMessageBuffer b limits = (true,b.drop next) := by
  simp [resyncMessageBuffer,h]

theorem iteration_of_refused {limits : ParserLimits} {b : Bytes} {next : Nat}
    (h : Refused limits b) (hn : findNextMessageStart b 1 = some next) :
    extractIteration limits b = .again (b.drop next) := by
  rcases h with hs | ⟨n,hs,hf,hbad⟩
  · simp only [isMessageStart,Bool.or_eq_false_iff] at hs
    simp [extractIteration,hs.1,hs.2,resync_lands hn]
  · have hd := start_head hs
    have hx : extractIteration limits b = extractHeaded limits b (n + 4) := by
      simp [extractIteration,hd,hs,hf]
    rw [hx]
    rcases extractHeaded_cases limits b (n + 4) with hr | ⟨h1,h2,h3,-⟩
    · rw [hr,resync_lands hn]
    · omega

theorem refused_of_again {limits : ParserLimits} {b b' : Bytes}
    (h : extractIteration limits b = .again b') : Refused limits b := by
  rcases iteration_cases limits b with ⟨-,he⟩ | ⟨hd,hs,-⟩ | ⟨-,-,-,he | he⟩ | ⟨n,-,hs,hf,he⟩
  · rw [he] at h
    unfold extractInterleaved at h
    split at h
    · simp at h
    · dsimp only at h; split at h <;> simp at h
  · exact .inl (by simp [isMessageStart,hd,hs])
  · rw [he] at h; simp at h
  · rw [he] at h; simp at h
  · refine .inr ⟨n,hs,hf,?_⟩
    by_contra hc
    simp only [not_or,not_lt] at hc
    rw [he] at h
    unfold extractHeaded at h
    rw [if_neg (by omega)] at h
    dsimp only at h
    rw [if_neg (by simp; omega)] at h
    split at h <;> simp at h

theorem again_shorter {limits : ParserLimits} {b b' : Bytes}
    (h : extractIteration limits b = .again b') (hne : b' ≠ b) : b'.length < b.length := by
  have hb := iteration_again h
  rcases resync_shrinks b limits with hr | hr
  · exact absurd (hb.trans hr) hne
  · rwa [hb]

section

variable {limits : ParserLimits} {stream buffer b m rest u : Bytes} {e p next : Nat}

theorem findNextMessageStart_le (hp : 1 ≤ p) (hlt : p < buffer.length)
    (hs : isMessageStart (buffer.drop p) = true) :
    ∃ next, findNextMessageStart buffer 1 = some next ∧ next ≤ p := by
  cases hn : findNextMessageStart buffer 1 with
  | none =>
    rw [findNextMessageStart,Option.map_eq_none_iff,findSuffix_eq_none] at hn
    have := hn (p - 1) (by rw [List.length_drop]; omega)
    rw [List.drop_drop,Nat.add_comm,Nat.sub_add_cancel hp,hs] at this
    cases this
  | some next =>
    refine ⟨next,rfl,Nat.le_of_not_lt fun hlt' => ?_⟩
    rw [(findNextMessageStart_some hn).2.2.2 p hp hlt'] at hs
    cases hs

theorem PassedOver.drop (h : PassedOver limits buffer p) (next : Nat) :
    PassedOver limits (buffer.drop next) (p - next) := by
  intro q hq hs
  rw [List.drop_drop] at hs ⊢
  exact h _ (by omega) hs

theorem PassedOver.refused (h : PassedOver limits buffer p) (hp : 0 < p) : Refused limits buffer := by
  cases hs : isMessageStart buffer with
  | false => exact .inl hs
  | true => exact .inr (h 0 hp hs)

theorem extract_passes (h : PassedOver limits buffer p) (hlt : p < buffer.length)
    (hs : isMessageStart (buffer.drop p) = true) :
    extractOneRtspMessage limits buffer = extractOneRtspMessage limits (buffer.drop p) := by
  induction hl : buffer.length using Nat.strongRecOn generalizing buffer p with
  | ind n ih =>
    by_cases hp : p = 0
    · rw [hp,List.drop_zero]
    · obtain ⟨next,hn,hle⟩ := findNextMessageStart_le (by omega) hlt hs
      obtain ⟨h1,hnext,-⟩ := findNextMessageStart_some hn
      have hshort : (buffer.drop next).length < buffer.length := by
        rw [List.length_drop]
        omega
      have hne : buffer ≠ [] := List.ne_nil_of_length_pos (by omega)
      have hdrop : (buffer.drop next).drop (p - next) = buffer.drop p := by
        rw [List.drop_drop]
        congr 1
        omega
      rw [extract_again hne (iteration_of_refused (h.refused (by omega)) hn),
        if_neg (fun he => absurd (congrArg List.length he) hshort.ne),
        ih _ (hl ▸ hshort) (h.drop next) (by rw [List.length_drop]; omega) (hdrop.symm ▸ hs) rfl,hdrop]

theorem PassedOver.lift (h : PassedOver limits (b.drop next) p)
    (ha : extractIteration limits b = .again (b.drop next)) (hn : findNextMessageStart b 1 = some next) :
    PassedOver limits b (next + p) := by
  obtain ⟨-,-,-,hskip⟩ := findNextMessageStart_some hn
  intro q hq hs
  by_cases hnext : next ≤ q
  · have hbefore := h (q - next) (by omega)
    rw [List.drop_drop,Nat.add_sub_cancel' hnext] at hbefore
    exact hbefore hs
  · by_cases h0 : q = 0
    · subst h0
      rcases refused_of_again ha with hno | hyes
      · rw [List.drop_zero,hno] at hs
        cases hs
      · exact hyes
    · rw [hskip q (by omega) (by omega)] at hs
      cases hs

theorem unit_starts (hu : IsUnit limits.maxHeaderBytes (min limits.maxBodyBytes intMax) u) (rest : Bytes) :
    isMessageStart (u ++ rest) = true := by
  have hfound := iteration_unit limits rest hu
  rw [← Bool.not_eq_false]
  intro hs
  simp only [isMessageStart,Bool.or_eq_false_iff] at hs
  simp only [extractIteration,hs.1,hs.2,Bool.false_eq_true,if_false,Bool.not_false,if_true] at hfound
  split at hfound <;> cases hfound

theorem extract_unit_iff : extractOneRtspMessage limits buffer = some (.unit m rest) ↔
    ∃ p, PassedOver limits buffer p ∧ buffer.drop p = m ++ rest ∧
      IsUnit limits.maxHeaderBytes (min limits.maxBodyBytes intMax) m := by
  constructor
  · intro h
    refine extract_unit_rec (P := fun b m rest => ∃ p, PassedOver limits b p ∧ b.drop p = m ++ rest ∧
      IsUnit limits.maxHeaderBytes (min limits.maxBodyBytes intMax) m) ?_ ?_ h
    · intro b m b' _ hi
      obtain ⟨hb,hu⟩ := iteration_found_iff.mp hi
      exact ⟨0,fun q hq => absurd hq (Nat.not_lt_zero q),hb,hu⟩
    · rintro b b' m rest - hi ⟨p,hp,hd,hu⟩
      have hb := iteration_again hi
      rcases resync_cases b limits with ⟨next,hn,hr⟩ | ⟨-,-,hr⟩ | ⟨-,-,hr⟩ <;> rw [hr] at hb <;> subst hb
      · exact ⟨next + p,hp.lift hi hn,by rw [← List.drop_drop,hd],hu⟩
      · rw [List.drop_nil] at hd
        exact absurd (List.append_eq_nil_iff.mp hd.symm).1 (unit_ne_nil hu)
      · exact ⟨p,hp,hd,hu⟩
  · rintro ⟨p,hp,hd,hu⟩
    have hlt : p < buffer.length := by
      rw [← not_le,← List.drop_eq_nil_iff,hd]
      simp [unit_ne_nil hu]
    rw [extract_passes hp hlt (by rw [hd]; exact unit_starts hu rest),hd]
    exact whole_unit limits rest hu

theorem MessageAt.splits (h : MessageAt limits stream e p u) :
    stream.drop p = u ++ stream.drop (p + u.length) := by
  obtain ⟨t,ht⟩ := h.stands
  rw [← List.drop_drop,← ht,List.drop_left]

theorem MessageAt.lt (h : MessageAt limits stream e p u) : p < stream.length := by
  rw [← not_le,← List.drop_eq_nil_iff,h.splits]
  simp [unit_ne_nil h.whole]

theorem messageAt_iff : extractOneRtspMessage limits (stream.drop e) = some (.unit u rest) ↔
    ∃ p, MessageAt limits stream e p u ∧ rest = stream.drop (p + u.length) := by
  rw [extract_unit_iff]
  constructor
  · rintro ⟨k,hk,hd,hu⟩
    rw [List.drop_drop] at hd
    refine ⟨e + k,⟨by omega,⟨rest,hd.symm⟩,hu,fun q hq hlt hs => ?_⟩,by rw [← List.drop_drop,hd,List.drop_left]⟩
    have hpast := hk (q - e) (by omega)
    rw [List.drop_drop,Nat.add_sub_cancel' hq] at hpast
    exact hpast hs
  · rintro ⟨p,hp,rfl⟩
    have hle := hp.behind
    refine ⟨p - e,fun q hq hs => ?_,?_,hp.whole⟩
    · rw [List.drop_drop] at hs ⊢
      exact hp.refused _ (by omega) (by omega) hs
    · rw [List.drop_drop,Nat.add_sub_cancel' hle]
      exact hp.splits

theorem calls_iff : Calls limits stream b ↔ ∃ e, MessageEnds limits stream e ∧ b = stream.drop e := by
  constructor
  · intro h
    induction h with
    | start => exact ⟨0,.start,rfl⟩
    | next _ hx ih =>
      obtain ⟨e,he,rfl⟩ := ih
      obtain ⟨p,hp,rfl⟩ := messageAt_iff.mp hx
      exact ⟨_,he.next hp,rfl⟩
  · rintro ⟨e,he,rfl⟩
    induction he with
    | start => exact .start
    | next _ hp ih => exact ih.next (messageAt_iff.mpr ⟨_,hp,rfl⟩)

theorem afterCrlf_iff (hp : p ≤ stream.length) : AfterCrlf stream (stream.drop p) ↔ crlf <:+ stream.take p := by
  constructor
  · rintro ⟨pre,he⟩
    have hlen := congrArg List.length he
    simp only [List.length_append,List.length_drop] at hlen
    refine ⟨pre,?_⟩
    rw [he,List.take_left' (by rw [List.length_append]; omega)]
  · rintro ⟨pre,he⟩
    exact ⟨pre,by rw [he,List.take_append_drop]⟩

end

theorem requests_start_on_lines_iff (limits : ParserLimits) (stream : Bytes) :
    StartsOnLine limits stream ↔ ¬ ∃ e p u, Hidden limits stream e p u := by
  constructor
  · rintro h ⟨e,p,u,hh⟩
    have hsplit := hh.first.splits
    have hcall := calls_iff.mpr ⟨e,hh.begins,rfl⟩
    rcases h _ u _ hcall (messageAt_iff.mpr ⟨p,hh.first,rfl⟩) with hs | hs
    · rw [← hsplit] at hs
      have hlen := congrArg List.length hs
      rw [List.length_drop,List.length_drop] at hlen
      have := hh.inside
      have := hh.first.lt
      omega
    · rw [← hsplit] at hs
      exact hh.offLine ((afterCrlf_iff hh.first.lt.le).mp hs)
  · intro h b m rest hc hx
    obtain ⟨e,he,rfl⟩ := calls_iff.mp hc
    obtain ⟨p,hp,rfl⟩ := messageAt_iff.mp hx
    rw [← hp.splits]
    rcases hp.behind.eq_or_lt with rfl | hlt
    · exact .inl rfl
    · right
      rw [afterCrlf_iff hp.lt.le]
      by_contra hoff
      exact h ⟨e,p,m,he,hp,hlt,hoff⟩

def smuggled : Bytes := ascii "XPLAY /ch1 RTSP/1.0\r\nCSeq: 1\r\n\r\n"

theorem smuggled_request_returned :
    dollar ∉ smuggled ∧
    extractOneRtspMessage {} smuggled =
      some (.unit (ascii "PLAY /ch1 RTSP/1.0\r\nCSeq: 1\r\n\r\n") []) ∧
    ¬ StartsOnLine {} smuggled := by
  have hx : extractOneRtspMessage {} smuggled =
      some (.unit (ascii "PLAY /ch1 RTSP/1.0\r\nCSeq: 1\r\n\r\n") []) := by decide
  refine ⟨by decide,hx,?_⟩
  intro h
  rcases h _ _ _ .start hx with he | ⟨pre,he⟩
  · exact absurd he (by decide)
  · have hl := congrArg List.length he
    have h1 : smuggled.length = 32 := by decide
    have h2 : (ascii "PLAY /ch1 RTSP/1.0\r\nCSeq: 1\r\n\r\n").length = 31 := by decide
    simp only [List.length_append,h1,h2,crlf,List.length_cons,List.length_nil] at hl
    omega

end RpiVms

import RpiVms.Rtsp.Resync

namespace RpiVms

open Search Framing

inductive Looks (limits : ParserLimits) (buffer : Bytes) : Bytes → Prop
  | start : Looks limits buffer buffer
  | again {b b'} : Looks limits buffer b → b ≠ [] → extractIteration limits b = .again b' →
      Looks limits buffer b'

def Returns (limits : ParserLimits) (buffer : Bytes) : Prop :=
  ∃ fuel r, extractLoop limits fuel buffer = some r

def Shrinks (limits : ParserLimits) (buffer : Bytes) : Prop :=
  ∀ b b', Looks limits buffer b → b ≠ [] → extractIteration limits b = .again b' →
    b'.length < b.length

structure DeadEnd (limits : ParserLimits) (buffer : Bytes) (p : Nat) : Prop where
  refused : HeaderRefused limits (buffer.drop p)
  short : (buffer.drop p).length ≤ limits.maxHeaderBytes
  last : ∀ q, p < q → q < buffer.length → isMessageStart (buffer.drop q) = false
  before : ∀ q, q < p → isMessageStart (buffer.drop q) = true → HeaderRefused limits (buffer.drop q)

section

variable {limits : ParserLimits} {buffer b b' : Bytes} {p : Nat}

theorem HeaderRefused.starts (h : HeaderRefused limits b) : isMessageStart b = true := by
  obtain ⟨n,hs,-,-⟩ := h
  simp [isMessageStart,hs]

theorem HeaderRefused.ne_nil (h : HeaderRefused limits b) : b ≠ [] := by
  obtain ⟨n,-,hf,-⟩ := h
  rintro rfl
  simp [find,findSuffix] at hf

theorem DeadEnd.lt (h : DeadEnd limits buffer p) : p < buffer.length := by
  have hne := h.refused.ne_nil
  rw [Ne,List.drop_eq_nil_iff] at hne
  omega

theorem DeadEnd.ne_nil (h : DeadEnd limits buffer p) : buffer ≠ [] := by
  rintro rfl
  exact absurd h.lt (Nat.not_lt_zero p)

theorem DeadEnd.stuck (h : DeadEnd limits buffer 0) : extractIteration limits buffer = .again buffer := by
  have hnone : findNextMessageStart buffer 1 = none := by
    cases hn : findNextMessageStart buffer 1 with
    | none => rfl
    | some next =>
      obtain ⟨h1,hlt,hs,-⟩ := findNextMessageStart_some hn
      rw [h.last next h1 hlt] at hs
      cases hs
  have hkeep := resync_keeps hnone h.short
  obtain ⟨n,hs,hf,hbad⟩ := h.refused
  rw [List.drop_zero] at hs hf hbad
  have hx : extractIteration limits buffer = extractHeaded limits buffer (n + 4) := by
    simp [extractIteration,start_head hs,hs,hf]
  rw [hx]
  rcases extractHeaded_cases limits buffer (n + 4) with hr | ⟨h1,h2,h3,-⟩
  · rw [hr,hkeep]
  · omega

theorem DeadEnd.never_returns (h : DeadEnd limits buffer p) : extractOneRtspMessage limits buffer = none := by
  have hlast : DeadEnd limits (buffer.drop p) 0 := by
    refine ⟨h.refused,h.short,fun q hq hlt => ?_,fun q hq => absurd hq (Nat.not_lt_zero q)⟩
    rw [List.length_drop] at hlt
    rw [List.drop_drop]
    exact h.last _ (by omega) (by omega)
  rw [extract_passes h.before h.lt h.refused.starts,extract_again hlast.ne_nil hlast.stuck,if_pos rfl]

theorem deadEnd_of_stuck (h : extractIteration limits b = .again b) : DeadEnd limits b 0 := by
  have hb := iteration_again h
  rcases resync_cases b limits with ⟨next,hn,hr⟩ | ⟨-,hl,hr⟩ | ⟨hn,hl,hr⟩
  · obtain ⟨h1,hlt,-⟩ := findNextMessageStart_some hn
    have := congrArg List.length (hb.trans (congrArg Prod.snd hr))
    rw [List.length_drop] at this
    omega
  · have := congrArg List.length (hb.trans (congrArg Prod.snd hr))
    simp only [List.length_nil] at this
    omega
  · refine ⟨?_,by simpa using hl,fun q hq hlt => ?_,fun q hq => absurd hq (Nat.not_lt_zero q)⟩
    · rw [List.drop_zero]
      rcases refused_of_again h with hs | hs
      · simp only [isMessageStart,Bool.or_eq_false_iff] at hs
        simp [extractIteration,hs.1,hs.2,hr] at h
      · exact hs
    · cases hs : isMessageStart (b.drop q) with
      | false => rfl
      | true =>
        obtain ⟨next,hsome,-⟩ := findNextMessageStart_le hq hlt hs
        rw [hn] at hsome
        cases hsome

theorem DeadEnd.lift (h : DeadEnd limits b' p) (ha : extractIteration limits b = .again b') :
    ∃ q, DeadEnd limits b q := by
  have hb := iteration_again ha
  rcases resync_cases b limits with ⟨next,hn,hr⟩ | ⟨-,-,hr⟩ | ⟨-,-,hr⟩ <;> rw [hr] at hb <;> subst hb
  · have hdrop (q : Nat) : (b.drop next).drop q = b.drop (next + q) := by
      rw [List.drop_drop]
    refine ⟨next + p,?_,?_,?_,PassedOver.lift h.before ha hn⟩
    · rw [← hdrop]
      exact h.refused
    · rw [← hdrop]
      exact h.short
    · intro q hq hlt
      have hl := h.last (q - next) (by omega) (by rw [List.length_drop]; omega)
      rwa [hdrop,Nat.add_sub_cancel' (by omega)] at hl
  · exact absurd rfl h.ne_nil
  · exact ⟨p,h⟩

theorem deadEnd_of_look (hv : Looks limits buffer b) (h : ∃ p, DeadEnd limits b p) :
    ∃ p, DeadEnd limits buffer p := by
  induction hv with
  | start => exact h
  | again _ _ ha ih =>
    obtain ⟨p,hp⟩ := h
    exact ih (hp.lift ha)

theorem deadEnd_of_none (h : extractOneRtspMessage limits buffer = none) :
    ∃ p, DeadEnd limits buffer p := by
  induction hl : buffer.length using Nat.strongRecOn generalizing buffer with
  | ind n ih =>
    by_cases hne : buffer = []
    · rw [hne,extract_nil] at h
      cases h
    cases hi : extractIteration limits buffer with
    | incomplete b =>
      rw [extract_incomplete hne hi] at h
      cases h
    | found m b =>
      rw [extract_found hne hi] at h
      cases h
    | again b =>
      rw [extract_again hne hi] at h
      split at h
      · rename_i hb
        exact ⟨0,deadEnd_of_stuck (hb ▸ hi)⟩
      · rename_i hb
        obtain ⟨p,hp⟩ := ih b.length (by rw [← hl]; exact again_shorter hi hb) h rfl
        exact hp.lift hi

end

theorem parser_returns_iff (limits : ParserLimits) (buffer : Bytes) :
    Returns limits buffer ∧ Shrinks limits buffer ↔ ¬ ∃ p, DeadEnd limits buffer p := by
  constructor
  · rintro ⟨⟨fuel,r,hr⟩,-⟩ ⟨p,hp⟩
    have hnone := (extract_none_iff limits buffer).mp hp.never_returns fuel
    rw [hr] at hnone
    cases hnone
  · intro h
    refine ⟨?_,fun b b' hv hne ha => ?_⟩
    · cases hx : extractOneRtspMessage limits buffer with
      | none => exact absurd (deadEnd_of_none hx) h
      | some r => exact ⟨_,r,hx⟩
    · by_cases hb : b' = b
      · subst hb
        exact absurd (deadEnd_of_look hv ⟨0,deadEnd_of_stuck ha⟩) h
      · exact again_shorter ha hb

def negativeLength : Bytes := ascii "OPTIONS /ch1 RTSP/1.0\r\nCSeq: 1\r\nContent-Length: -1\r\n\r\n"

theorem negative_length_never_returns :
    ¬ (Returns {} negativeLength ∧ Shrinks {} negativeLength) ∧
      ∀ fuel, extractLoop {} fuel negativeLength = none := by
  have hx : extractOneRtspMessage {} negativeLength = none := by decide +kernel
  have hnone := (extract_none_iff {} negativeLength).mp hx
  refine ⟨?_,hnone⟩
  rintro ⟨⟨fuel,r,hr⟩,-⟩
  rw [hnone fuel] at hr
  cases hr

end RpiVms

import RpiVms.Rtsp.Text
import RpiVms.Library.Framing

namespace RpiVms

open Search Framing

structure ParserLimits where
  maxHeaderBytes : Nat := 16 * 1024
  maxBodyBytes : Nat := 1024 * 1024
  deriving DecidableEq, Repr

def dollar : UInt8 := 36

def messagePrefixes : List Bytes :=
  [ascii "RTSP/",ascii "OPTIONS ",ascii "DESCRIBE ",ascii "SETUP ",ascii "PLAY ",ascii "PAUSE ",
    ascii "TEARDOWN ",ascii "GET_PARAMETER ",ascii "SET_PARAMETER ",ascii "ANNOUNCE ",
    ascii "RECORD "]

def startsWithAt (s : Bytes) (pos : Nat) (pre : Bytes) : Bool :=
  pos ≤ s.length && pre.isPrefixOf (s.drop pos)

def isRtspMessageStartAt (s : Bytes) (pos : Nat) : Bool :=
  messagePrefixes.any (startsWithAt s pos)

def isMessageStart (s : Bytes) : Bool := s.head? == some dollar || isRtspMessageStartAt s 0

def findNextMessageStart (buffer : Bytes) (start : Nat) : Option Nat :=
  (findSuffix isMessageStart (buffer.drop start)).map (· + start)

def resyncMessageBuffer (buffer : Bytes) (limits : ParserLimits) : Bool × Bytes :=
  match findNextMessageStart buffer 1 with
  | some next => (true,buffer.drop next)
  | none => (false,if buffer.length > limits.maxHeaderBytes then [] else buffer)

inductive Iteration where
  | incomplete (buffer : Bytes)
  | found (message buffer : Bytes)
  | again (buffer : Bytes)
  deriving DecidableEq, Repr

def interleavedLength (buffer : Bytes) : Nat :=
  (buffer.getD 2 0).toNat * 256 + (buffer.getD 3 0).toNat

def extractInterleaved (buffer : Bytes) : Iteration :=
  if buffer.length < 4 then .incomplete buffer
  else
    let total := 4 + interleavedLength buffer
    if buffer.length < total then .incomplete buffer
    else .found (buffer.take total) (buffer.drop total)

def extractHeaded (limits : ParserLimits) (buffer : Bytes) (headerBytes : Nat) : Iteration :=
  if headerBytes > limits.maxHeaderBytes then .again (resyncMessageBuffer buffer limits).2
  else
    let bodyLen := contentLengthFromHeader (buffer.take headerBytes)
    if bodyLen < 0 || bodyLen.toNat > limits.maxBodyBytes then
      .again (resyncMessageBuffer buffer limits).2
    else
      let total := headerBytes + bodyLen.toNat
      if buffer.length < total then .incomplete buffer
      else .found (buffer.take total) (buffer.drop total)

def extractIteration (limits : ParserLimits) (buffer : Bytes) : Iteration :=
  if buffer.head? == some dollar then extractInterleaved buffer
  else if !isRtspMessageStartAt buffer 0 then
    match resyncMessageBuffer buffer limits with
    | (true,b) => .again b
    | (false,b) => .incomplete b
  else
    match find headerEnd buffer with
    | none =>
        if buffer.length > limits.maxHeaderBytes then
          .incomplete (resyncMessageBuffer buffer limits).2
        else .incomplete buffer
    | some n => extractHeaded limits buffer (n + 4)

def extractLoop (limits : ParserLimits) : Nat → Bytes → Option (Outcome UInt8)
  | 0, _ => none
  | fuel + 1, buffer =>
      if buffer.isEmpty then some (.wait [])
      else
        match extractIteration limits buffer with
        | .incomplete b => some (.wait b)
        | .found message b => some (.unit message b)
        | .again b => extractLoop limits fuel b

-- `none` is a call that never returns: an iteration that leaves the buffer as it was repeats
def extractOneRtspMessage (limits : ParserLimits) (buffer : Bytes) : Option (Outcome UInt8) :=
  extractLoop limits (buffer.length + 1) buffer

theorem findNextMessageStart_some {buffer : Bytes} {next : Nat}
    (h : findNextMessageStart buffer 1 = some next) :
    1 ≤ next ∧ next < buffer.length ∧ isMessageStart (buffer.drop next) = true ∧
      ∀ m, 1 ≤ m → m < next → isMessageStart (buffer.drop m) = false := by
  simp only [findNextMessageStart,Option.map_eq_some_iff] at h
  obtain ⟨n,hn,rfl⟩ := h
  obtain ⟨hlt,hs,hm⟩ := findSuffix_eq_some.mp hn
  rw [List.length_drop] at hlt
  rw [List.drop_drop] at hs
  refine ⟨by omega,by omega,by rwa [Nat.add_comm],?_⟩
  intro m h1 hmn
  have := hm (m - 1) (by omega)
  rwa [List.drop_drop,Nat.add_comm,Nat.sub_add_cancel h1] at this

theorem resync_cases (buffer : Bytes) (limits : ParserLimits) :
    (∃ next, findNextMessageStart buffer 1 = some next ∧
      resyncMessageBuffer buffer limits = (true,buffer.drop next)) ∨
    (findNextMessageStart buffer 1 = none ∧ limits.maxHeaderBytes < buffer.length ∧
      resyncMessageBuffer buffer limits = (false,[])) ∨
    (findNextMessageStart buffer 1 = none ∧ buffer.length ≤ limits.maxHeaderBytes ∧
      resyncMessageBuffer buffer limits = (false,buffer)) := by
  unfold resyncMessageBuffer
  cases h : findNextMessageStart buffer 1 with
  | some next => exact .inl ⟨next,rfl,rfl⟩
  | none =>
    by_cases hl : limits.maxHeaderBytes < buffer.length
    · exact .inr (.inl ⟨rfl,hl,by simp [hl]⟩)
    · exact .inr (.inr ⟨rfl,by omega,by simp [hl]⟩)

theorem resync_shrinks (buffer : Bytes) (limits : ParserLimits) :
    (resyncMessageBuffer buffer limits).2 = buffer ∨
      (resyncMessageBuffer buffer limits).2.length < buffer.length := by
  rcases resync_cases buffer limits with ⟨next,hn,hr⟩ | ⟨-,hl,hr⟩ | ⟨-,-,hr⟩
  · obtain ⟨h1,hlt,-⟩ := findNextMessageStart_some hn
    right
    rw [hr,List.length_drop]
    omega
  · right
    rw [hr]
    exact Nat.lt_of_le_of_lt (Nat.zero_le _) hl
  · left
    rw [hr]

theorem resync_suffix (buffer : Bytes) (limits : ParserLimits) :
    (resyncMessageBuffer buffer limits).2 <:+ buffer := by
  rcases resync_cases buffer limits with ⟨next,-,hr⟩ | ⟨-,-,hr⟩ | ⟨-,-,hr⟩
  · rw [hr]; exact List.drop_suffix _ _
  · rw [hr]; exact List.nil_suffix
  · rw [hr]

theorem iteration_cases (limits : ParserLimits) (buffer : Bytes) :
    (buffer.head? = some dollar ∧ extractIteration limits buffer = extractInterleaved buffer) ∨
    (buffer.head? ≠ some dollar ∧ isRtspMessageStartAt buffer 0 = false ∧
      (extractIteration limits buffer = .again (resyncMessageBuffer buffer limits).2 ∨
        extractIteration limits buffer = .incomplete (resyncMessageBuffer buffer limits).2)) ∨
    (buffer.head? ≠ some dollar ∧ isRtspMessageStartAt buffer 0 = true ∧
      find headerEnd buffer = none ∧
      (extractIteration limits buffer = .incomplete (resyncMessageBuffer buffer limits).2 ∨
        extractIteration limits buffer = .incomplete buffer)) ∨
    (∃ n, buffer.head? ≠ some dollar ∧ isRtspMessageStartAt buffer 0 = true ∧
      find headerEnd buffer = some n ∧
      extractIteration limits buffer = extractHeaded limits buffer (n + 4)) := by
  unfold extractIteration
  by_cases hd : buffer.head? = some dollar
  · exact .inl ⟨hd,by simp [hd]⟩
  rw [if_neg (by simpa using hd)]
  cases hs : isRtspMessageStartAt buffer 0 with
  | false =>
    refine .inr (.inl ⟨hd,rfl,?_⟩)
    rcases resyncMessageBuffer buffer limits with ⟨_ | _,b⟩
    · exact .inr rfl
    · exact .inl rfl
  | true =>
    cases hf : find headerEnd buffer with
    | none =>
      refine .inr (.inr (.inl ⟨hd,rfl,rfl,?_⟩))
      by_cases hl : limits.maxHeaderBytes < buffer.length
      · exact .inl (by simp [hl])
      · exact .inr (by simp [hl])
    | some n => exact .inr (.inr (.inr ⟨n,hd,rfl,rfl,by simp⟩))

theorem extractHeaded_cases (limits : ParserLimits) (buffer : Bytes) (k : Nat) :
    extractHeaded limits buffer k = .again (resyncMessageBuffer buffer limits).2 ∨
    (k ≤ limits.maxHeaderBytes ∧ 0 ≤ contentLengthFromHeader (buffer.take k) ∧
      (contentLengthFromHeader (buffer.take k)).toNat ≤ limits.maxBodyBytes ∧
      (extractHeaded limits buffer k = .incomplete buffer ∨
        (k + (contentLengthFromHeader (buffer.take k)).toNat ≤ buffer.length ∧
          extractHeaded limits buffer k =
            .found (buffer.take (k + (contentLengthFromHeader (buffer.take k)).toNat))
              (buffer.drop (k + (contentLengthFromHeader (buffer.take k)).toNat))))) := by
  unfold extractHeaded
  dsimp only
  split
  · exact .inl rfl
  rename_i hk
  split
  · exact .inl rfl
  rename_i hb
  simp only [Bool.or_eq_true,decide_eq_true_eq,not_or,not_lt] at hb
  refine .inr ⟨by omega,by omega,by omega,?_⟩
  split
  · exact .inl rfl
  · exact .inr ⟨by omega,rfl⟩

theorem iteration_again {limits : ParserLimits} {buffer b : Bytes}
    (h : extractIteration limits buffer = .again b) :
    b = (resyncMessageBuffer buffer limits).2 := by
  rcases iteration_cases limits buffer with ⟨-,he⟩ | ⟨-,-,he | he⟩ | ⟨-,-,-,he | he⟩ | ⟨n,-,-,-,he⟩
  · rw [he] at h
    unfold extractInterleaved at h
    split at h
    · simp at h
    · dsimp only at h; split at h <;> simp at h
  · rw [he] at h; simpa using h.symm
  · rw [he] at h; simp at h
  · rw [he] at h; simp at h
  · rw [he] at h; simp at h
  · rw [he] at h
    rcases extractHeaded_cases limits buffer (n + 4) with hc | ⟨-,-,-,hc | ⟨-,hc⟩⟩ <;> rw [hc] at h
    · simpa using h.symm
    · simp at h
    · simp at h

theorem interleaved_found {buffer m b : Bytes} (h : extractInterleaved buffer = .found m b) :
    4 + interleavedLength buffer ≤ buffer.length ∧
      m = buffer.take (4 + interleavedLength buffer) ∧
      b = buffer.drop (4 + interleavedLength buffer) := by
  unfold extractInterleaved at h
  split at h
  · simp at h
  · dsimp only at h
    split at h
    · simp at h
    · simp only [Iteration.found.injEq] at h
      exact ⟨by omega,h.1.symm,h.2.symm⟩

theorem iteration_found {limits : ParserLimits} {buffer m b : Bytes}
    (h : extractIteration limits buffer = .found m b) :
    ∃ k, 4 ≤ k ∧ k ≤ buffer.length ∧ m = buffer.take k ∧ b = buffer.drop k := by
  rcases iteration_cases limits buffer with ⟨-,he⟩ | ⟨-,-,he | he⟩ | ⟨-,-,-,he | he⟩ | ⟨n,-,-,-,he⟩
  · rw [he] at h
    obtain ⟨hk,hm,hb⟩ := interleaved_found h
    exact ⟨_,by omega,hk,hm,hb⟩
  · rw [he] at h; simp at h
  · rw [he] at h; simp at h
  · rw [he] at h; simp at h
  · rw [he] at h; simp at h
  · rw [he] at h
    rcases extractHeaded_cases limits buffer (n + 4) with hc | ⟨-,-,-,hc | ⟨hk,hc⟩⟩ <;> rw [hc] at h
    · simp at h
    · simp at h
    · simp only [Iteration.found.injEq] at h
      exact ⟨_,by omega,hk,h.1.symm,h.2.symm⟩

theorem extractLoop_stuck {limits : ParserLimits} {buffer : Bytes} (hne : buffer ≠ [])
    (h : extractIteration limits buffer = .again buffer) (fuel : Nat) :
    extractLoop limits fuel buffer = none := by
  induction fuel with
  | zero => rfl
  | succ fuel ih => simp [extractLoop,hne,h,ih]

theorem extractLoop_stable (limits : ParserLimits) (buffer : Bytes) (f g : Nat)
    (hf : buffer.length < f) (hg : buffer.length < g) :
    extractLoop limits f buffer = extractLoop limits g buffer := by
  induction f generalizing g buffer with
  | zero => omega
  | succ f ih =>
    obtain ⟨g,rfl⟩ : ∃ k, g = k + 1 := ⟨g - 1,by omega⟩
    by_cases hne : buffer = []
    · simp [extractLoop,hne]
    · cases hi : extractIteration limits buffer with
      | incomplete b => simp [extractLoop,hne,hi]
      | found m b => simp [extractLoop,hne,hi]
      | again b =>
        have hb := iteration_again hi
        rcases resync_shrinks buffer limits with hr | hr
        · rw [hr] at hb
          subst hb
          rw [extractLoop_stuck hne hi,extractLoop_stuck hne hi]
        · have hs := ih b g (by rw [hb]; omega) (by rw [hb]; omega)
          simp [extractLoop,hne,hi,hs]

theorem extract_nil (limits : ParserLimits) : extractOneRtspMessage limits [] = some (.wait []) := rfl

theorem extract_incomplete {limits : ParserLimits} {buffer b : Bytes} (hne : buffer ≠ [])
    (h : extractIteration limits buffer = .incomplete b) :
    extractOneRtspMessage limits buffer = some (.wait b) := by
  simp [extractOneRtspMessage,extractLoop,hne,h]

theorem extract_found {limits : ParserLimits} {buffer m b : Bytes} (hne : buffer ≠ [])
    (h : extractIteration limits buffer = .found m b) :
    extractOneRtspMessage limits buffer = some (.unit m b) := by
  simp [extractOneRtspMessage,extractLoop,hne,h]

theorem extract_again {limits : ParserLimits} {buffer b : Bytes} (hne : buffer ≠ [])
    (h : extractIteration limits buffer = .again b) :
    extractOneRtspMessage limits buffer =
      if b = buffer then none else extractOneRtspMessage limits b := by
  have hb := iteration_again h
  split
  · rename_i he
    subst he
    exact extractLoop_stuck hne h _
  · rename_i hn
    rcases resync_shrinks buffer limits with hr | hr
    · exact absurd (hb.trans hr) hn
    · have hl : b.length < buffer.length := by rw [hb]; exact hr
      have hs := extractLoop_stable limits b buffer.length (b.length + 1) hl (by omega)
      simp [extractOneRtspMessage,extractLoop,hne,h,hs]

theorem extractLoop_mono {limits : ParserLimits} {buffer : Bytes} {r : Outcome UInt8} {f g : Nat}
    (hfg : f ≤ g) (h : extractLoop limits f buffer = some r) :
    extractLoop limits g buffer = some r := by
  induction f generalizing g buffer with
  | zero => simp [extractLoop] at h
  | succ f ih =>
    obtain ⟨g,rfl⟩ : ∃ k, g = k + 1 := ⟨g - 1,by omega⟩
    simp only [extractLoop] at h ⊢
    split at h
    · rename_i he; rw [if_pos he]; exact h
    · rename_i he
      rw [if_neg he]
      cases hi : extractIteration limits buffer with
      | incomplete b => rw [hi] at h; exact h
      | found m b => rw [hi] at h; exact h
      | again b => rw [hi] at h; exact ih (by omega) h

theorem extract_rec {limits : ParserLimits} {P : Bytes → Outcome UInt8 → Prop} (hnil : P [] (.wait []))
    (hwait : ∀ b b', b ≠ [] → extractIteration limits b = .incomplete b' → P b (.wait b'))
    (hunit : ∀ b m b', b ≠ [] → extractIteration limits b = .found m b' → P b (.unit m b'))
    (hagain : ∀ b b' r, b ≠ [] → extractIteration limits b = .again b' → P b' r → P b r)
    {buffer : Bytes} {r : Outcome UInt8} (h : extractOneRtspMessage limits buffer = some r) : P buffer r := by
  induction hl : buffer.length using Nat.strongRecOn generalizing buffer with
  | ind n ih =>
    by_cases hne : buffer = []
    · rw [hne,extract_nil,Option.some.injEq] at h
      rw [hne,← h]
      exact hnil
    cases hi : extractIteration limits buffer with
    | incomplete b =>
      rw [extract_incomplete hne hi,Option.some.injEq] at h
      exact h ▸ hwait buffer b hne hi
    | found m b =>
      rw [extract_found hne hi,Option.some.injEq] at h
      exact h ▸ hunit buffer m b hne hi
    | again b =>
      rw [extract_again hne hi] at h
      split at h
      · cases h
      · rename_i hb
        have hshort : b.length < buffer.length := by
          rcases resync_shrinks buffer limits with hr | hr
          · exact absurd ((iteration_again hi).trans hr) hb
          · rwa [iteration_again hi]
        exact hagain buffer b r hne hi (ih b.length (hl ▸ hshort) h rfl)

theorem extract_unit_rec {limits : ParserLimits} {P : Bytes → Bytes → Bytes → Prop}
    (hunit : ∀ b m b', b ≠ [] → extractIteration limits b = .found m b' → P b m b')
    (hagain : ∀ b b' m rest, b ≠ [] → extractIteration limits b = .again b' → P b' m rest → P b m rest)
    {buffer m rest : Bytes} (h : extractOneRtspMessage limits buffer = some (.unit m rest)) : P buffer m rest := by
  refine extract_rec (P := fun b r => ∀ m rest, r = .unit m rest → P b m rest) ?_ ?_ ?_ ?_ h m rest rfl
  · intro m rest hr
    cases hr
  · intro b b' _ _ m rest hr
    cases hr
  · intro b m' b' hne hi m rest hr
    cases hr
    exact hunit b m' b' hne hi
  · exact fun b b' r hne hi ih m rest hr => hagain b b' m rest hne hi (ih m rest hr)

theorem extract_wait_rec {limits : ParserLimits} {P : Bytes → Bytes → Prop} (hnil : P [] [])
    (hwait : ∀ b b', b ≠ [] → extractIteration limits b = .incomplete b' → P b b')
    (hagain : ∀ b b' rest, b ≠ [] → extractIteration limits b = .again b' → P b' rest → P b rest)
    {buffer rest : Bytes} (h : extractOneRtspMessage limits buffer = some (.wait rest)) : P buffer rest := by
  refine extract_rec (P := fun b r => ∀ rest, r = .wait rest → P b rest) ?_ ?_ ?_ ?_ h rest rfl
  · intro rest hr
    cases hr
    exact hnil
  · intro b b' hne hi rest hr
    cases hr
    exact hwait b b' hne hi
  · intro b m b' _ _ rest hr
    cases hr
  · exact fun b b' r hne hi ih rest hr => hagain b b' rest hne hi (ih rest hr)

theorem extract_conserves {limits : ParserLimits} {buffer m rest : Bytes}
    (h : extractOneRtspMessage limits buffer = some (.unit m rest)) :
    ∃ dropped, buffer = dropped ++ m ++ rest := by
  refine extract_unit_rec (P := fun b m rest => ∃ dropped, b = dropped ++ m ++ rest) ?_ ?_ h
  · intro b m b' _ hi
    obtain ⟨k,-,-,rfl,rfl⟩ := iteration_found hi
    exact ⟨[],by simp⟩
  · rintro b b' m rest _ hi ⟨d,hd⟩
    obtain ⟨t,ht⟩ := iteration_again hi ▸ resync_suffix b limits
    exact ⟨t ++ d,by rw [← ht,hd]; simp⟩

theorem extract_none_iff (limits : ParserLimits) (buffer : Bytes) :
    extractOneRtspMessage limits buffer = none ↔ ∀ fuel, extractLoop limits fuel buffer = none := by
  constructor
  · intro h fuel
    by_contra hc
    obtain ⟨r,hr⟩ := Option.ne_none_iff_exists'.mp hc
    have hmax := extractLoop_mono (le_max_left fuel (buffer.length + 1)) hr
    rw [extractLoop_stable limits buffer _ (buffer.length + 1) (by omega) (by omega)] at hmax
    exact absurd (h.symm.trans hmax) (by simp)
  · intro h
    exact h _

end RpiVms

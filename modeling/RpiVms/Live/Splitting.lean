import RpiVms.Library.Sublists
import RpiVms.Live.AccessUnits

namespace RpiVms

open Sublists

inductive StartCode where
  | three
  | four
  deriving DecidableEq, Repr

def StartCode.bytes : StartCode → Bytes
  | .three => [0,0,1]
  | .four => [0,0,0,1]

def annexB (units : List (StartCode × Bytes)) : Bytes := units.flatMap fun u => u.1.bytes ++ u.2

section

variable {units : List (StartCode × Bytes)} {d : Bytes}

theorem StartCode.untilStart_bytes (code : StartCode) (d : Bytes) : untilStart (code.bytes ++ d) = 0 := by
  cases code <;> rfl

theorem StartCode.annexBNals_bytes (code : StartCode) (d : Bytes) :
    annexBNals (code.bytes ++ d) = nalsAfterStart d := by
  cases code with
  | three => exact (annexBNals_three (quiet_nil _)).2
  | four => exact (annexBNals_four (quiet_nil _)).2

theorem untilStart_annexB (units : List (StartCode × Bytes)) : untilStart (annexB units) = 0 := by
  cases units with
  | nil => rfl
  | cons u units =>
    rw [annexB,List.flatMap_cons,List.append_assoc]
    exact u.1.untilStart_bytes _

theorem annexBNals_annexB (units : List (StartCode × Bytes))
    (h : ∀ u ∈ units, u.2 ≠ [] ∧ ¬ [0,0,1] <:+: u.2 ∧ u.2.getLast? ≠ some 0) :
    annexBNals (annexB units) = units.map (·.2) := by
  induction units with
  | nil => rfl
  | cons u units ih =>
    obtain ⟨hne,hfree,hends⟩ := h u (by simp)
    have hrest := ih fun x hx => h x (by simp [hx])
    rw [annexB,List.flatMap_cons,List.append_assoc,u.1.annexBNals_bytes]
    change nalsAfterStart (u.2 ++ annexB units) = _
    rw [nalsAfterStart_quiet (quiet_of_free hfree hends _) hne,untilStart_annexB,List.take_zero,
      List.append_nil,List.drop_zero,hrest,List.map_cons]

theorem hasStartCode_iff_within (d : Bytes) : hasStartCode d = true ↔ [0,0,1] <:+: d := by
  induction d with
  | nil => simp [hasStartCode]
  | cons b rest ih =>
    rw [hasStartCode,Bool.or_eq_true,decide_eq_true_iff,ih,List.infix_cons_iff]
    rcases startCode_cases (b :: rest) with h0 | ⟨hp,hs⟩ | ⟨hp,hs⟩
    · rw [h0]
      refine or_congr_left (iff_of_false (fun h => h rfl) fun hp => ?_)
      rw [startCodeSize_three hp] at h0
      cases h0
    · exact or_congr_left (iff_of_true (by omega) hp)
    · -- a four-byte code holds the three-byte one
      have hin : [0,0,1] <:+: rest := (List.cons_prefix_cons.mp hp).2.isInfix
      exact iff_of_true (.inr hin) (.inr hin)

end

theorem annexB_splits (leading : Bytes) (units : List (StartCode × Bytes)) (hne : units ≠ [])
    (hunits : ∀ u ∈ units, u.2 ≠ [] ∧ ¬ [0,0,1] <:+: u.2 ∧ u.2.getLast? ≠ some 0)
    (hfree : ¬ [0,0,1] <:+: leading) (hends : leading.getLast? ≠ some 0) :
    splitAccessUnit (leading ++ annexB units) = units.map (·.2) := by
  have hquiet := quiet_of_free hfree hends (annexB units)
  have hstart : hasStartCode (leading ++ annexB units) = true := by
    obtain ⟨u,rest,rfl⟩ := List.exists_cons_of_ne_nil hne
    rw [hasStartCode_iff,untilStart_quiet hquiet,untilStart_annexB,List.length_append]
    have hpos := List.length_pos_iff.mpr (hunits u (by simp)).1
    simp only [annexB,List.flatMap_cons,List.length_append]
    omega
  rw [splitAccessUnit,if_pos hstart]
  exact (annexBNals_quiet hquiet).trans (annexBNals_annexB units hunits)

theorem parameter_sets_and_slice_split :
    splitAccessUnit ([9] ++ annexB [(.four,[0x67,0,0,2]),(.three,[0x68,7]),(.three,[0x65,0,0,3])]) =
      [[0x67,0,0,2],[0x68,7],[0x65,0,0,3]] :=
  annexB_splits [9] [(.four,[0x67,0,0,2]),(.three,[0x68,7]),(.three,[0x65,0,0,3])]
    (by decide) (by decide) (by decide) (by decide)

section

variable {d tail : Bytes} {units : List Bytes}

theorem splitAnnexB_slices (fuel : Nat) (d : Bytes) : Slices d (splitAnnexB fuel d) := by
  induction fuel generalizing d with
  | zero => exact .nil d
  | succ fuel ih =>
    cases d with
    | nil => exact .nil []
    | cons b rest =>
      simp only [splitAnnexB]
      split
      · exact (ih rest).after [b]
      · generalize startCodeSize (b :: rest) = code
        generalize hnal : (b :: rest).drop code = nal
        have hd : b :: rest = (b :: rest).take code ++ nal := by rw [← hnal,List.take_append_drop]
        have hs := ih (nal.drop (untilStart nal))
        rw [hd]
        split
        · have := Slices.cons ((b :: rest).take code) (nal.take (untilStart nal)) hs
          rwa [List.take_append_drop] at this
        · have := (hs.after (nal.take (untilStart nal))).after ((b :: rest).take code)
          rwa [List.take_append_drop] at this

theorem lengthField_of_read {a b c e : UInt8} {v : Bytes}
    (h : v.length = a.toNat * 2 ^ 24 + b.toNat * 2 ^ 16 + c.toNat * 2 ^ 8 + e.toNat) :
    lengthField v = [a,b,c,e] := by
  have ha := a.toNat_lt
  have hb := b.toNat_lt
  have hc := c.toNat_lt
  have he := e.toNat_lt
  have hshort : v.length < 2 ^ 32 := by omega
  obtain ⟨a',b',c',e',hf,hn⟩ := lengthField_bytes hshort
  have ha' := a'.toNat_lt
  have hb' := b'.toNat_lt
  have hc' := c'.toNat_lt
  have he' := e'.toNat_lt
  have byte {x y : UInt8} (hx : x.toNat = y.toNat) : x = y := UInt8.toNat_inj.mp hx
  obtain rfl : a' = a := byte (by omega)
  obtain rfl : b' = b := byte (by omega)
  obtain rfl : c' = c := byte (by omega)
  obtain rfl : e' = e := byte (by omega)
  exact hf

theorem lengthPrefixed_front (hd : 4 ≤ d.length) (hzero : (readU32 d).toNat ≠ 0)
    (hlong : (readU32 d).toNat ≤ d.length - 4) :
    ∃ u rest, d = lengthPrefixed u ++ rest ∧ u ≠ [] ∧ u.length < 2 ^ 32 ∧ rest.length < d.length := by
  obtain ⟨a,b,c,e,y,rfl⟩ : ∃ a b c e y, d = a :: b :: c :: e :: y := by
    rcases d with _ | ⟨a,_ | ⟨b,_ | ⟨c,_ | ⟨e,y⟩⟩⟩⟩ <;> first
      | exact ⟨a,b,c,e,y,rfl⟩
      | exact absurd hd (by simp)
  have hread := readU32_bytes a b c e y
  have hshort := (readU32 (a :: b :: c :: e :: y)).toNat_lt
  simp only [List.length_cons] at hlong
  generalize (readU32 (a :: b :: c :: e :: y)).toNat = n at hread hzero hlong hshort
  have hlen : (y.take n).length = n := List.length_take_of_le hlong
  refine ⟨y.take n,y.drop n,?_,List.ne_nil_of_length_pos (by omega),by omega,?_⟩
  · rw [lengthPrefixed,lengthField_of_read (hlen.trans hread),List.append_assoc,List.take_append_drop]
    rfl
  · simp only [List.length_drop,List.length_cons]
    omega

theorem splitLengthPrefixed_cases (fuel : Nat) (nals : List Bytes) (d : Bytes) (hf : d.length ≤ fuel) :
    (∃ rest, rest ≠ [] ∧ splitLengthPrefixed fuel nals d = ([],rest)) ∨
    ∃ units tail, (∀ u ∈ units, u ≠ [] ∧ u.length < 2 ^ 32) ∧ tail.length < 4 ∧
      d = units.flatMap lengthPrefixed ++ tail ∧
      splitLengthPrefixed fuel nals d = (nals ++ units,tail) := by
  induction fuel generalizing nals d with
  | zero =>
    obtain rfl := List.eq_nil_of_length_eq_zero (Nat.le_zero.mp hf)
    exact .inr ⟨[],[],by simp,by decide,rfl,by simp [splitLengthPrefixed]⟩
  | succ fuel ih =>
    by_cases hend : d.length < 4
    · exact .inr ⟨[],d,by simp,hend,rfl,by simp [splitLengthPrefixed,hend]⟩
    by_cases hbad : (readU32 d).toNat = 0 ∨ (readU32 d).toNat > d.length - 4
    · refine .inl ⟨d,List.ne_nil_of_length_pos (by omega),?_⟩
      rw [splitLengthPrefixed,if_neg hend]
      exact if_pos hbad
    · rw [not_or] at hbad
      obtain ⟨u,rest,rfl,hne,hshort,hless⟩ := lengthPrefixed_front (by omega) hbad.1 (by omega)
      rw [splitLengthPrefixed_unit hne hshort nals fuel rest]
      rcases ih (nals ++ [u]) rest (by omega) with hstop | ⟨units,tail,hu,ht,rfl,hr⟩
      · exact .inl hstop
      · refine .inr ⟨u :: units,tail,?_,ht,?_,?_⟩
        · rintro v (_ | ⟨_,hv⟩)
          · exact ⟨hne,hshort⟩
          · exact hu v hv
        · rw [List.flatMap_cons,List.append_assoc]
        · rw [hr,List.append_assoc]
          rfl

theorem lengthPrefixed_slices (h : Slices tail []) (units : List Bytes) :
    Slices (units.flatMap lengthPrefixed ++ tail) units := by
  induction units with
  | nil => exact h
  | cons u units ih =>
    rw [List.flatMap_cons,lengthPrefixed,List.append_assoc,List.append_assoc]
    exact .cons (lengthField u) u ih

end

def StrayTail (d : Bytes) : Prop :=
  ¬ [0,0,1] <:+: d ∧ ∃ units tail, units ≠ [] ∧ (∀ u ∈ units, u ≠ [] ∧ u.length < 2 ^ 32) ∧
    tail ≠ [] ∧ tail.length < 4 ∧ d = units.flatMap lengthPrefixed ++ tail

structure SplitsIn (d : Bytes) (nals : List Bytes) : Prop where
  nonempty : ∀ nal ∈ nals, nal ≠ []
  slices : Slices d nals
  length_le : nals.flatten.length ≤ d.length
  found : d ≠ [] → ¬ [0,0,1] <:+: d → nals ≠ []

section

variable {d : Bytes}

theorem SplitsIn.whole (h : d ≠ []) : SplitsIn d [d] := by
  refine ⟨by simpa using h,.whole d,by simp,by simp⟩

theorem splitAccessUnit_started (h : [0,0,1] <:+: d) : SplitsIn d (splitAccessUnit d) := by
  rw [splitAccessUnit,if_pos ((hasStartCode_iff_within d).mpr h)]
  have hs := splitAnnexB_slices d.length d
  exact ⟨splitAnnexB_ne_nil d.length d,hs,hs.length_le,fun _ hf => absurd h hf⟩

theorem splitAccessUnit_stray (h : StrayTail d) :
    ∃ units, units ≠ [] ∧ splitAccessUnit d = units ++ [d] := by
  obtain ⟨hfree,units,tail,hne,hu,ht,hl,heq⟩ := h
  have hread := splitLengthPrefixed_units units [] d.length tail hu hl
    (by rw [heq,List.length_append]; omega)
  rw [← heq] at hread
  have hd : d ≠ [] := by
    rw [heq]
    exact List.append_ne_nil_of_right_ne_nil _ ht
  refine ⟨units,hne,?_⟩
  rw [splitAccessUnit,if_neg (fun hs => hfree ((hasStartCode_iff_within d).mp hs)),hread]
  simp [ht,hd]

theorem splitAccessUnit_prefixed (hfree : ¬ [0,0,1] <:+: d) (h : ¬ StrayTail d) :
    SplitsIn d (splitAccessUnit d) := by
  rw [splitAccessUnit,if_neg (fun hs => hfree ((hasStartCode_iff_within d).mp hs))]
  by_cases hd : d = []
  · subst hd
    exact ⟨by simp [splitLengthPrefixed],.nil [],Nat.zero_le _,fun hn => absurd rfl hn⟩
  rcases splitLengthPrefixed_cases d.length [] d le_rfl with
    ⟨rest,hr,he⟩ | ⟨units,tail,hu,hl,heq,he⟩
  · rw [he]
    simpa [hd] using SplitsIn.whole hd
  · rw [he]
    simp only [List.nil_append]
    by_cases hunits : units = []
    · subst hunits
      simpa [hd] using SplitsIn.whole hd
    · obtain rfl : tail = [] := by
        by_contra ht
        exact h ⟨hfree,units,tail,hunits,hu,ht,hl,heq⟩
      rw [if_pos (by simpa using hunits)]
      have hs : Slices d units := heq ▸ lengthPrefixed_slices (.nil []) units
      exact ⟨fun u hm => (hu u hm).1,hs,hs.length_le,fun _ _ => hunits⟩

end

theorem split_in_place_iff (d : Bytes) : SplitsIn d (splitAccessUnit d) ↔ ¬ StrayTail d := by
  constructor
  · intro h hstray
    obtain ⟨units,hne,heq⟩ := splitAccessUnit_stray hstray
    obtain ⟨u,us,rfl⟩ := List.exists_cons_of_ne_nil hne
    have hu := List.length_pos_iff.mpr (h.nonempty u (by simp [heq]))
    have htotal := h.length_le
    rw [heq] at htotal
    simp only [List.cons_append,List.flatten_cons,List.flatten_append,List.flatten_nil,List.append_nil,
      List.length_append] at htotal
    omega
  · intro h
    by_cases hs : [0,0,1] <:+: d
    · exact splitAccessUnit_started hs
    · exact splitAccessUnit_prefixed hs h

theorem stray_byte_sends_twice :
    splitAccessUnit [0,0,0,2,0xaa,0xbb,7] = [[0xaa,0xbb],[0,0,0,2,0xaa,0xbb,7]] ∧
      ¬ SplitsIn [0,0,0,2,0xaa,0xbb,7] (splitAccessUnit [0,0,0,2,0xaa,0xbb,7]) := by
  refine ⟨by decide,fun h => ?_⟩
  have := h.length_le
  revert this
  decide

end RpiVms

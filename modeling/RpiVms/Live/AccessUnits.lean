import RpiVms.Live.Packets

namespace RpiVms

def annexBNals (d : Bytes) : List Bytes := splitAnnexB d.length d

def nalsAfterStart (d : Bytes) : List Bytes :=
  (if untilStart d > 0 then [d.take (untilStart d)] else []) ++ annexBNals (d.drop (untilStart d))

theorem startCodeSize_three {d : Bytes} (h : [0,0,1] <+: d) : startCodeSize d = 3 := by
  obtain ⟨t,rfl⟩ := h
  rfl

theorem startCodeSize_four {d : Bytes} (h : [0,0,0,1] <+: d) : startCodeSize d = 4 := by
  obtain ⟨t,rfl⟩ := h
  rfl

theorem startCode_cases (d : Bytes) :
    startCodeSize d = 0 ∨ ([0,0,1] <+: d ∧ startCodeSize d = 3) ∨
      ([0,0,0,1] <+: d ∧ startCodeSize d = 4) := by
  unfold startCodeSize
  split
  · rename_i t
    exact .inr (.inl ⟨⟨t,rfl⟩,rfl⟩)
  · rename_i t
    exact .inr (.inr ⟨⟨t,rfl⟩,rfl⟩)
  · exact .inl rfl

def Quiet (w y : Bytes) : Prop := ∀ i < w.length, startCodeSize ((w ++ y).drop i) = 0

section

variable {w y d : Bytes}

theorem quiet_nil (y : Bytes) : Quiet [] y := fun i hi => absurd hi (Nat.not_lt_zero i)

theorem Quiet.cons {b : UInt8} (h : Quiet w y) (hb : startCodeSize (b :: (w ++ y)) = 0) :
    Quiet (b :: w) y := by
  intro i hi
  cases i with
  | zero => exact hb
  | succ i => exact h i (by simpa using hi)

theorem Quiet.tail {b : UInt8} (h : Quiet (b :: w) y) : Quiet w y := by
  intro i hi
  exact h (i + 1) (by simpa using hi)

theorem Quiet.drop (h : Quiet w y) (n : Nat) : Quiet (w.drop n) y := by
  intro i hi
  rw [List.length_drop] at hi
  have := h (n + i) (by omega)
  rwa [← List.drop_drop,List.drop_append_of_le_length (by omega)] at this

theorem untilStart_quiet (h : Quiet w y) : untilStart (w ++ y) = w.length + untilStart y := by
  induction w with
  | nil => simp
  | cons b w ih =>
    have h0 : startCodeSize (b :: (w ++ y)) = 0 := h 0 (by simp)
    rw [List.cons_append,untilStart,if_pos h0,ih h.tail,List.length_cons]
    omega

theorem untilStart_start (h : startCodeSize d ≠ 0) : untilStart d = 0 := by
  cases d with
  | nil => rfl
  | cons b rest => rw [untilStart,if_neg h]

theorem splitAnnexB_fuel (d : Bytes) (f g : Nat) (hf : d.length ≤ f) (hg : d.length ≤ g) :
    splitAnnexB f d = splitAnnexB g d := by
  induction f generalizing g d with
  | zero =>
    obtain rfl := List.eq_nil_of_length_eq_zero (Nat.le_zero.mp hf)
    cases g <;> rfl
  | succ f ih =>
    cases d with
    | nil => cases g <;> rfl
    | cons b rest =>
      rw [List.length_cons] at hf hg
      obtain ⟨g,rfl⟩ : ∃ k, g = k + 1 := ⟨g - 1,by omega⟩
      have hshort (n k : Nat) (hn : n ≠ 0) :
          (((b :: rest).drop n).drop k).length ≤ rest.length := by
        simp only [List.length_drop,List.length_cons]
        omega
      simp only [splitAnnexB]
      split
      · exact ih rest g (by omega) (by omega)
      · rename_i hs
        have hl := hshort _ (untilStart ((b :: rest).drop (startCodeSize (b :: rest)))) hs
        rw [ih _ g (by omega) (by omega)]

theorem annexBNals_quiet (h : Quiet w y) : annexBNals (w ++ y) = annexBNals y := by
  induction w with
  | nil => rfl
  | cons b w ih =>
    have h0 : startCodeSize (b :: (w ++ y)) = 0 := h 0 (by simp)
    rw [List.cons_append,annexBNals,List.length_cons,splitAnnexB]
    simp only [h0,if_true]
    exact ih h.tail

theorem annexBNals_start (h : startCodeSize d ≠ 0) :
    annexBNals d = nalsAfterStart (d.drop (startCodeSize d)) := by
  cases d with
  | nil => exact absurd rfl h
  | cons b rest =>
    rw [annexBNals,List.length_cons,splitAnnexB]
    simp only [if_neg h]
    have hfuel := splitAnnexB_fuel
      (((b :: rest).drop (startCodeSize (b :: rest))).drop
        (untilStart ((b :: rest).drop (startCodeSize (b :: rest)))))
      rest.length _ (by simp only [List.length_drop,List.length_cons]; omega) le_rfl
    rw [hfuel]
    unfold nalsAfterStart annexBNals
    split <;> rfl

theorem nalsAfterStart_quiet (h : Quiet w y) (hw : w ≠ []) :
    nalsAfterStart (w ++ y) = (w ++ y.take (untilStart y)) :: annexBNals (y.drop (untilStart y)) := by
  have hpos := List.length_pos_iff.mpr hw
  rw [nalsAfterStart,untilStart_quiet h,if_pos (by omega),List.take_length_add_append,
    List.drop_length_add_append]
  rfl

theorem annexBNals_three (h : Quiet w (0 :: 0 :: 1 :: d)) :
    untilStart (w ++ 0 :: 0 :: 1 :: d) = w.length ∧
      annexBNals ((w ++ 0 :: 0 :: 1 :: d).drop w.length) = nalsAfterStart d := by
  have hs : startCodeSize (0 :: 0 :: 1 :: d) = 3 := startCodeSize_three ⟨d,rfl⟩
  rw [untilStart_quiet h,untilStart_start (by omega),List.drop_left,annexBNals_start (by omega),hs]
  exact ⟨rfl,rfl⟩

theorem annexBNals_four (h : Quiet w (0 :: 0 :: 0 :: 1 :: d)) :
    untilStart (w ++ 0 :: 0 :: 0 :: 1 :: d) = w.length ∧
      annexBNals ((w ++ 0 :: 0 :: 0 :: 1 :: d).drop w.length) = nalsAfterStart d := by
  have hs : startCodeSize (0 :: 0 :: 0 :: 1 :: d) = 4 := startCodeSize_four ⟨d,rfl⟩
  rw [untilStart_quiet h,untilStart_start (by omega),List.drop_left,annexBNals_start (by omega),hs]
  exact ⟨rfl,rfl⟩

theorem nalsAfterStart_start (h : startCodeSize d ≠ 0) : nalsAfterStart d = annexBNals d := by
  rw [nalsAfterStart,untilStart_start h]
  rfl

theorem untilStart_le (d : Bytes) : untilStart d ≤ d.length := by
  induction d with
  | nil => exact le_rfl
  | cons b rest ih =>
    rw [untilStart]
    split
    · exact Nat.succ_le_succ ih
    · exact Nat.zero_le _

theorem annexBNals_skip (d : Bytes) : annexBNals (d.drop (untilStart d)) = annexBNals d := by
  induction d with
  | nil => rfl
  | cons b rest ih =>
    rw [untilStart]
    split
    · rename_i h0
      have hq : Quiet [b] rest := (quiet_nil rest).cons h0
      exact ih.trans (annexBNals_quiet hq).symm
    · rfl

theorem hasStartCode_iff : hasStartCode d = true ↔ untilStart d < d.length := by
  induction d with
  | nil => simp [hasStartCode,untilStart]
  | cons b rest ih =>
    simp only [hasStartCode,untilStart,ne_eq,Bool.or_eq_true,decide_eq_true_eq,ih,List.length_cons]
    split
    · rename_i h0
      simp [h0]
    · rename_i h0
      simp [h0]

end

def lengthField (nal : Bytes) : Bytes := BigEndian.encode 4 nal.length

def lengthPrefixed (nal : Bytes) : Bytes := lengthField nal ++ nal

structure IsNal (nal : Bytes) : Prop where
  ne_nil : nal ≠ []
  short : nal.length < 2 ^ 32
  free : ¬ [0,0,1] <:+: nal
  ends : nal.getLast? ≠ some 0

section

variable {v y : Bytes}

theorem quiet_of_free (hfree : ¬ [0,0,1] <:+: v) (hends : v.getLast? ≠ some 0) (y : Bytes) : Quiet v y := by
  intro i hi
  have hsuffix := List.drop_suffix i v
  have hne : v.drop i ≠ [] := by
    rw [Ne,List.drop_eq_nil_iff]
    omega
  have hlast : (v.drop i).getLast? ≠ some 0 := by
    rw [List.getLast?_drop,if_neg (by omega)]
    exact hends
  have hfree : ¬ [0,0,1] <:+: v.drop i := fun hc => hfree (hc.trans hsuffix.isInfix)
  rw [List.drop_append_of_le_length (by omega)]
  generalize v.drop i = r at hne hlast hfree
  rcases startCode_cases (r ++ y) with h0 | ⟨hp,-⟩ | ⟨hp,-⟩
  · exact h0
  · match r with
    | [a] =>
      have ha := (List.cons_prefix_cons.mp hp).1
      exact absurd (congrArg some ha.symm) hlast
    | [a,b] =>
      have hb := (List.cons_prefix_cons.mp (List.cons_prefix_cons.mp hp).2).1
      exact absurd (congrArg some hb.symm) hlast
    | a :: b :: c :: r =>
      have hr : [0,0,1] <+: a :: b :: c :: r := by simpa [List.cons_prefix_cons] using hp
      exact absurd hr.isInfix hfree
  · match r with
    | [a] =>
      have ha := (List.cons_prefix_cons.mp hp).1
      exact absurd (congrArg some ha.symm) hlast
    | [a,b] =>
      have hb := (List.cons_prefix_cons.mp (List.cons_prefix_cons.mp hp).2).1
      exact absurd (congrArg some hb.symm) hlast
    | [a,b,c] =>
      have hc := (List.cons_prefix_cons.mp
        (List.cons_prefix_cons.mp (List.cons_prefix_cons.mp hp).2).2).1
      exact absurd (congrArg some hc.symm) hlast
    | a :: b :: c :: d :: r =>
      have hr : [0,0,1] <+: b :: c :: d :: r := by
        simp only [List.cons_append,List.cons_prefix_cons] at hp
        simpa [List.cons_prefix_cons] using hp.2
      exact absurd (hr.isInfix.trans (List.suffix_cons a _).isInfix) hfree

theorem IsNal.quiet (h : IsNal v) (y : Bytes) : Quiet v y := quiet_of_free h.free h.ends y

theorem lengthField_bytes (h : v.length < 2 ^ 32) :
    ∃ a b c e : UInt8, lengthField v = [a,b,c,e] ∧
      v.length = a.toNat * 2 ^ 24 + b.toNat * 2 ^ 16 + c.toNat * 2 ^ 8 + e.toNat := by
  refine ⟨_,_,_,_,rfl,?_⟩
  simp only [UInt8.toNat_ofNat']
  omega

theorem lengthField_value {a b c e : UInt8} (h : v.length < 2 ^ 32) (hf : lengthField v = [a,b,c,e]) :
    v.length = a.toNat * 2 ^ 24 + b.toNat * 2 ^ 16 + c.toNat * 2 ^ 8 + e.toNat := by
  obtain ⟨a',b',c',e',hf',hn⟩ := lengthField_bytes h
  rw [hf] at hf'
  simp only [List.cons.injEq,and_true] at hf'
  obtain ⟨rfl,rfl,rfl,rfl⟩ := hf'
  exact hn

theorem readU32_bytes (a b c e : UInt8) (y : Bytes) :
    (readU32 (a :: b :: c :: e :: y)).toNat =
      a.toNat * 2 ^ 24 + b.toNat * 2 ^ 16 + c.toNat * 2 ^ 8 + e.toNat := by
  have ha := a.toNat_lt
  have hb := b.toNat_lt
  have hc := c.toNat_lt
  have he := e.toNat_lt
  have hce : c.toNat <<< 8 ||| e.toNat = c.toNat * 2 ^ 8 + e.toNat := by
    rw [← Nat.shiftLeft_add_eq_or_of_lt (by omega),Nat.shiftLeft_eq]
  have hbce : b.toNat <<< 16 ||| (c.toNat * 2 ^ 8 + e.toNat) =
      b.toNat * 2 ^ 16 + (c.toNat * 2 ^ 8 + e.toNat) := by
    rw [← Nat.shiftLeft_add_eq_or_of_lt (by omega),Nat.shiftLeft_eq]
  have habce : a.toNat <<< 24 ||| (b.toNat * 2 ^ 16 + (c.toNat * 2 ^ 8 + e.toNat)) =
      a.toNat * 2 ^ 24 + (b.toNat * 2 ^ 16 + (c.toNat * 2 ^ 8 + e.toNat)) := by
    rw [← Nat.shiftLeft_add_eq_or_of_lt (by omega),Nat.shiftLeft_eq]
  have hmod (x : UInt8) (k : Nat) (hk : k ≤ 24) : x.toNat <<< k % 2 ^ 32 = x.toNat <<< k := by
    have hx := x.toNat_lt
    have hp : 2 ^ k ≤ 2 ^ 24 := Nat.pow_le_pow_right (by decide) hk
    rw [Nat.shiftLeft_eq]
    refine Nat.mod_eq_of_lt ?_
    calc x.toNat * 2 ^ k < 2 ^ 8 * 2 ^ k := Nat.mul_lt_mul_of_pos_right hx (Nat.two_pow_pos k)
      _ ≤ 2 ^ 8 * 2 ^ 24 := Nat.mul_le_mul_left _ hp
      _ = 2 ^ 32 := rfl
  have hbytes : (readU32 (a :: b :: c :: e :: y)).toNat =
      a.toNat <<< 24 % 2 ^ 32 ||| b.toNat <<< 16 % 2 ^ 32 ||| c.toNat <<< 8 % 2 ^ 32 ||| e.toNat := by
    simp [readU32]
  rw [hbytes,hmod a 24 (by omega),hmod b 16 (by omega),hmod c 8 (by omega),Nat.or_assoc,Nat.or_assoc,
    hce,hbce,habce]
  omega

end

theorem startCode_zero {d : Bytes} (h3 : ¬ [0,0,1] <+: d) (h4 : ¬ [0,0,0,1] <+: d) :
    startCodeSize d = 0 := by
  rcases startCode_cases d with h | ⟨h,-⟩ | ⟨h,-⟩
  · exact h
  · exact absurd h h3
  · exact absurd h h4

def ReadsAsStart (nal : Bytes) : Prop :=
  256 ≤ nal.length ∧ nal.length < 512 ∨ nal.length % 2 ^ 24 = 1 ∨
    nal.length % 2 ^ 16 = 0 ∧ [1] <+: nal ∨ nal.length % 2 ^ 8 = 0 ∧ [0,1] <+: nal

inductive Opening (v : Bytes) : Nat → Bytes → Prop
  | early {e : UInt8} : lengthField v = [0,0,1,e] → ¬ (e = 0 ∧ [0,1] <+: v) → Opening v 0 (e :: v)
  | twice : lengthField v = [0,0,1,0] → [0,1] <+: v → Opening v 0 (v.drop 2)
  | whole {a : UInt8} : lengthField v = [a,0,0,1] → Opening v (if a = 0 then 0 else 1) v
  | one {a b : UInt8} : lengthField v = [a,b,0,0] → [1] <+: v →
      Opening v (if b = 0 then 1 else 2) (v.drop 1)
  | two {a b c : UInt8} : lengthField v = [a,b,c,0] → ¬ (a = 0 ∧ b = 0 ∧ c = 1) → [0,1] <+: v →
      Opening v (if c = 0 then 2 else 3) (v.drop 2)

section

variable {v w y : Bytes} {j : Nat}

theorem opening_of_reads (h : IsNal v) (hr : ReadsAsStart v) : ∃ j w, Opening v j w := by
  obtain ⟨a,b,c,e,hf,hn⟩ := lengthField_bytes h.short
  have ha := a.toNat_lt
  have hb := b.toNat_lt
  have hc := c.toNat_lt
  have he := e.toNat_lt
  have byte (x : UInt8) (n : Nat) (hx : x.toNat = n) : x = UInt8.ofNat n := by
    rw [← hx,UInt8.ofNat_toNat]
  rcases hr with ⟨h1,h2⟩ | h1 | ⟨h1,h2⟩ | ⟨h1,h2⟩
  · obtain rfl := byte a 0 (by omega)
    obtain rfl := byte b 0 (by omega)
    obtain rfl := byte c 1 (by omega)
    by_cases hd : e = 0 ∧ [0,1] <+: v
    · obtain ⟨rfl,hd⟩ := hd
      exact ⟨_,_,.twice hf hd⟩
    · exact ⟨_,_,.early hf hd⟩
  · obtain rfl := byte b 0 (by omega)
    obtain rfl := byte c 0 (by omega)
    obtain rfl := byte e 1 (by omega)
    exact ⟨_,_,.whole hf⟩
  · obtain rfl := byte c 0 (by omega)
    obtain rfl := byte e 0 (by omega)
    exact ⟨_,_,.one hf h2⟩
  · obtain rfl := byte e 0 (by omega)
    by_cases hd : a = 0 ∧ b = 0 ∧ c = 1
    · obtain ⟨rfl,rfl,rfl⟩ := hd
      exact ⟨_,_,.twice hf h2⟩
    · exact ⟨_,_,.two hf hd h2⟩

theorem quiet_of_not_reads (h : IsNal v) (hr : ¬ ReadsAsStart v) (y : Bytes) :
    Quiet (lengthPrefixed v) y := by
  obtain ⟨a,b,c,e,hf,hn⟩ := lengthField_bytes h.short
  have hpos := List.length_pos_iff.mpr h.ne_nil
  simp only [ReadsAsStart,not_or,not_and,not_lt] at hr
  obtain ⟨hr1,hr2,hr3,hr4⟩ := hr
  have h0 : (0 : UInt8).toNat = 0 := rfl
  have h1 : (1 : UInt8).toNat = 1 := rfl
  have inside {p : Bytes} (he : 0 = e) (hl : p.length ≤ 3) (hp : p <+: v ++ y) : p <+: v := by
    subst he
    exact List.prefix_of_prefix_length_le hp (List.prefix_append v y) (by omega)
  intro i hi
  simp only [lengthPrefixed,hf,List.cons_append,List.nil_append] at hi ⊢
  match i with
  | 0 =>
    refine startCode_zero (fun hp => ?_) (fun hp => ?_)
    · simp only [List.drop_zero,List.cons_prefix_cons] at hp
      obtain ⟨rfl,rfl,rfl,-⟩ := hp
      have := e.toNat_lt
      omega
    · simp only [List.drop_zero,List.cons_prefix_cons] at hp
      obtain ⟨rfl,rfl,rfl,rfl,-⟩ := hp
      omega
  | 1 =>
    refine startCode_zero (fun hp => ?_) (fun hp => ?_)
    · simp only [List.drop_succ_cons,List.drop_zero,List.cons_prefix_cons] at hp
      obtain ⟨rfl,rfl,rfl,-⟩ := hp
      omega
    · simp only [List.drop_succ_cons,List.drop_zero,List.cons_prefix_cons] at hp
      obtain ⟨rfl,rfl,rfl,hp⟩ := hp
      exact hr3 (by omega) (inside rfl (by decide) hp)
  | 2 =>
    refine startCode_zero (fun hp => ?_) (fun hp => ?_)
    · simp only [List.drop_succ_cons,List.drop_zero,List.cons_prefix_cons] at hp
      obtain ⟨rfl,rfl,hp⟩ := hp
      exact hr3 (by omega) (inside rfl (by decide) hp)
    · simp only [List.drop_succ_cons,List.drop_zero,List.cons_prefix_cons] at hp
      obtain ⟨rfl,rfl,hp⟩ := hp
      exact hr4 (by omega) (inside rfl (by decide) hp)
  | 3 =>
    refine startCode_zero (fun hp => ?_) (fun hp => ?_)
    · simp only [List.drop_succ_cons,List.drop_zero,List.cons_prefix_cons] at hp
      obtain ⟨rfl,hp⟩ := hp
      exact hr4 (by omega) (inside rfl (by decide) hp)
    · simp only [List.drop_succ_cons,List.drop_zero,List.cons_prefix_cons] at hp
      obtain ⟨rfl,hp⟩ := hp
      exact h.free (inside rfl (by decide) hp).isInfix
  | i + 4 => exact h.quiet y i (by simpa using hi)

theorem startCode_head {a : UInt8} (ha : a ≠ 0) (l : Bytes) : startCodeSize (a :: l) = 0 :=
  startCode_zero (by simp [List.cons_prefix_cons,ha.symm]) (by simp [List.cons_prefix_cons,ha.symm])

theorem startCode_second {b : UInt8} (hb : b ≠ 0) (a : UInt8) (l : Bytes) :
    startCodeSize (a :: b :: l) = 0 :=
  startCode_zero (by simp [List.cons_prefix_cons,hb.symm]) (by simp [List.cons_prefix_cons,hb.symm])

theorem opening_reads (ho : Opening v j w) (y : Bytes) :
    untilStart (lengthPrefixed v ++ y) = j ∧
      annexBNals ((lengthPrefixed v ++ y).drop j) = nalsAfterStart (w ++ y) := by
  cases ho with
  | @early e hf hd =>
    rw [lengthPrefixed,hf]
    exact annexBNals_three (quiet_nil _)
  | twice hf hd =>
    obtain ⟨t,rfl⟩ := hd
    rw [lengthPrefixed,hf]
    obtain ⟨hj,hnals⟩ := annexBNals_three (quiet_nil (0 :: 0 :: 1 :: 0 :: 0 :: 1 :: (t ++ y)))
    refine ⟨hj,hnals.trans ?_⟩
    rw [nalsAfterStart_start (by simp [startCodeSize])]
    exact (annexBNals_three (quiet_nil _)).2
  | @whole a hf =>
    rw [lengthPrefixed,hf]
    split
    · rename_i ha
      subst ha
      exact annexBNals_four (quiet_nil _)
    · rename_i ha
      have hq : Quiet [a] (0 :: 0 :: 1 :: (v ++ y)) := (quiet_nil _).cons (startCode_head ha _)
      exact annexBNals_three hq
  | @one a b hf hd =>
    obtain ⟨t,rfl⟩ := hd
    rw [lengthPrefixed,hf]
    split
    · rename_i hb
      subst hb
      have hq : Quiet [a] (0 :: 0 :: 0 :: 1 :: (t ++ y)) := (quiet_nil _).cons
        (startCode_zero (by simp [List.cons_prefix_cons]) (by simp [List.cons_prefix_cons]))
      exact annexBNals_four hq
    · rename_i hb
      have hq : Quiet [a,b] (0 :: 0 :: 1 :: (t ++ y)) :=
        ((quiet_nil _).cons (startCode_head hb _)).cons (startCode_second hb a _)
      exact annexBNals_three hq
  | @two a b c hf hn hd =>
    obtain ⟨t,rfl⟩ := hd
    rw [lengthPrefixed,hf]
    split
    · rename_i hc
      subst hc
      have hq : Quiet [a,b] (0 :: 0 :: 0 :: 1 :: (t ++ y)) :=
        ((quiet_nil _).cons (startCode_zero (by simp [List.cons_prefix_cons])
          (by simp [List.cons_prefix_cons]))).cons
        (startCode_zero (by simp [List.cons_prefix_cons]) (by simp [List.cons_prefix_cons]))
      exact annexBNals_four hq
    · rename_i hc
      have hq : Quiet [a,b,c] (0 :: 0 :: 1 :: (t ++ y)) :=
        (((quiet_nil _).cons (startCode_head hc _)).cons (startCode_second hc b _)).cons
        (startCode_zero (by simpa [List.cons_prefix_cons,eq_comm] using hn)
          (by simp [List.cons_prefix_cons,Ne.symm hc]))
      exact annexBNals_three hq

end

inductive Reading where
  | whole
  | ones
  | zeroOnes
  deriving DecidableEq, Repr

namespace Reading

def cycle : Reading → Bytes
  | .whole => []
  | .ones => [1]
  | .zeroOnes => [0,1]

def Enters : Reading → Bytes → Prop
  | .whole,v => v.length % 2 ^ 24 = 1
  | .ones,v => v.length % 2 ^ 16 = 0 ∧ [1] <+: v
  | .zeroOnes,v => v.length % 2 ^ 8 = 0 ∧ [0,1] <+: v

def Fits : Reading → Bytes → Prop
  | .whole,v => v.length % 2 ^ 24 = 1
  | .ones,v => v.length % 2 ^ 16 = 0 ∧ ∃ k, v = (List.replicate (k + 1) [1]).flatten
  | .zeroOnes,v => v.length % 2 ^ 8 = 0 ∧ ∃ k, v = (List.replicate (k + 1) [0,1]).flatten

def Next : Reading → Reading → Nat → Prop
  | .whole,.whole,n => n = 1
  | .whole,.zeroOnes,n => n = 2 ^ 8
  | .ones,.whole,n => n = 2 ^ 24 + 1
  | .ones,.ones,n => n = 2 ^ 24
  | .zeroOnes,.ones,n => n = 2 ^ 16
  | .zeroOnes,.zeroOnes,n => n = 2 ^ 16
  | _,_,_ => False

end Reading

inductive ReadBack : Reading → List Bytes → Prop
  | last {v : Bytes} : Reading.whole.Fits v → ReadBack .whole [v]
  | cons {s t : Reading} {u v : Bytes} {vs : List Bytes} : s.Fits u → s.Next t v.length →
      ReadBack t (v :: vs) → ReadBack s (u :: v :: vs)

section

variable {c v w x : Bytes} {s t : Reading} {j : Nat}

theorem cycle_of_shift (k : Nat) (hv : v.length = (k + 1) * c.length) (hx : x.length = c.length)
    (hc : c <+: v) (h : v.drop c.length ++ x = v) :
    x = c ∧ v = (List.replicate (k + 1) c).flatten := by
  induction k generalizing v with
  | zero =>
    rw [Nat.zero_add,Nat.one_mul] at hv
    have heq := hc.eq_of_length hv.symm
    subst heq
    rw [List.drop_length,List.nil_append] at h
    exact ⟨h,by simp⟩
  | succ k ih =>
    obtain ⟨v1,rfl⟩ := hc
    rw [List.drop_left] at h
    rw [List.length_append,Nat.succ_mul,Nat.add_comm,Nat.add_right_cancel_iff] at hv
    have hlong : c.length ≤ v1.length := by
      rw [hv,Nat.succ_mul]
      exact Nat.le_add_left _ _
    have hc1 : c <+: v1 := by
      have hp : c <+: v1 ++ x := h ▸ List.prefix_append c v1
      exact List.prefix_of_prefix_length_le hp (List.prefix_append v1 x) hlong
    have h1 : v1.drop c.length ++ x = v1 := by
      have := congrArg (List.drop c.length) h
      rwa [List.drop_left,List.drop_append_of_le_length hlong] at this
    obtain ⟨rfl,hrep⟩ := ih hv hc1 h1
    exact ⟨rfl,by rw [List.replicate_succ,List.flatten_cons,← hrep]⟩

theorem shift_of_cycle (c : Bytes) (k : Nat) :
    (List.replicate (k + 1) c).flatten.drop c.length ++ c = (List.replicate (k + 1) c).flatten := by
  rw [List.replicate_succ,List.flatten_cons,List.drop_left,← List.flatten_cons,← List.replicate_succ,
    List.replicate_succ']
  simp

theorem Reading.Fits.enters (h : s.Fits v) : s.Enters v := by
  cases s with
  | whole => exact h
  | ones =>
    obtain ⟨hn,k,rfl⟩ := h
    exact ⟨hn,by simp [List.replicate_succ]⟩
  | zeroOnes =>
    obtain ⟨hn,k,rfl⟩ := h
    exact ⟨hn,by simp [List.replicate_succ]⟩

theorem Reading.Enters.ne_nil (hv : v ≠ []) (h : s.Enters v) : v.drop s.cycle.length ≠ [] := by
  have hpos := List.length_pos_iff.mpr hv
  rw [Ne,List.drop_eq_nil_iff]
  cases s with
  | whole => simpa [Reading.cycle] using hv
  | ones =>
    have := h.1
    simp only [Reading.cycle,List.length_singleton]
    omega
  | zeroOnes =>
    have := h.1
    simp only [Reading.cycle,List.length_cons,List.length_nil]
    omega

theorem Reading.Enters.fits_iff (hv : v ≠ []) (h : s.Enters v) :
    s.Fits v ∧ x = s.cycle ↔ x.length = s.cycle.length ∧ v.drop s.cycle.length ++ x = v := by
  have hpos := List.length_pos_iff.mpr hv
  cases s with
  | whole =>
    simp only [Reading.cycle,List.length_nil,List.length_eq_zero_iff,List.drop_zero]
    constructor
    · rintro ⟨-,rfl⟩
      simp
    · rintro ⟨rfl,-⟩
      exact ⟨h,rfl⟩
  | ones =>
    obtain ⟨hn,hp⟩ := h
    constructor
    · rintro ⟨⟨-,k,rfl⟩,rfl⟩
      exact ⟨rfl,shift_of_cycle [1] k⟩
    · rintro ⟨hx,hd⟩
      obtain ⟨hxc,hrep⟩ := @cycle_of_shift [1] v x (v.length - 1) (by simp; omega) hx hp hd
      exact ⟨⟨hn,_,hrep⟩,hxc⟩
  | zeroOnes =>
    obtain ⟨hn,hp⟩ := h
    constructor
    · rintro ⟨⟨-,k,rfl⟩,rfl⟩
      exact ⟨rfl,shift_of_cycle [0,1] k⟩
    · rintro ⟨hx,hd⟩
      obtain ⟨hxc,hrep⟩ := @cycle_of_shift [0,1] v x (v.length / 2 - 1) (by simp; omega) hx hp hd
      exact ⟨⟨hn,_,hrep⟩,hxc⟩

theorem early_quiet {e : UInt8} (h : IsNal v) (he : ¬ (e = 0 ∧ [0,1] <+: v)) (hn : 3 ≤ v.length)
    (y : Bytes) : Quiet (e :: v) y := by
  refine (h.quiet y).cons ?_
  match v,hn with
  | p :: q :: r :: t,_ =>
    refine startCode_zero (fun hp => he ?_) (fun hp => h.free ?_)
    · simp only [List.cons_append,List.cons_prefix_cons] at hp
      obtain ⟨rfl,rfl,rfl,-⟩ := hp
      exact ⟨rfl,List.prefix_append [0,1] (r :: t)⟩
    · simp only [List.cons_append,List.cons_prefix_cons] at hp
      obtain ⟨rfl,rfl,rfl,rfl,-⟩ := hp
      exact (List.prefix_append [0,0,1] t).isInfix

theorem opening_enters (h : IsNal v) (ho : Opening v j w) :
    (∃ e, w = e :: v ∧ ∀ y, Quiet (e :: v) y) ∨
      ∃ t : Reading, t.Enters v ∧ w = v.drop t.cycle.length := by
  have h0 : (0 : UInt8).toNat = 0 := rfl
  have h1 : (1 : UInt8).toNat = 1 := rfl
  cases ho with
  | @early e hf hd =>
    have hn := lengthField_value h.short hf
    exact .inl ⟨e,rfl,early_quiet h hd (by omega)⟩
  | twice hf hd =>
    have hn := lengthField_value h.short hf
    exact .inr ⟨.zeroOnes,⟨by omega,hd⟩,rfl⟩
  | whole hf =>
    have hn := lengthField_value h.short hf
    refine .inr ⟨.whole,?_,rfl⟩
    simp only [Reading.Enters]
    omega
  | one hf hd =>
    have hn := lengthField_value h.short hf
    exact .inr ⟨.ones,⟨by omega,hd⟩,rfl⟩
  | two hf _ hd =>
    have hn := lengthField_value h.short hf
    exact .inr ⟨.zeroOnes,⟨by omega,hd⟩,rfl⟩

theorem Reading.Enters.opening (h : IsNal v) (ht : t.Enters v) :
    ∃ j, Opening v j (v.drop t.cycle.length) := by
  obtain ⟨a,b,c,e,hf,hn⟩ := lengthField_bytes h.short
  have hb := b.toNat_lt
  have hc := c.toNat_lt
  have he := e.toNat_lt
  have byte (x : UInt8) (n : Nat) (hx : x.toNat = n) : x = UInt8.ofNat n := by
    rw [← hx,UInt8.ofNat_toNat]
  cases t with
  | whole =>
    simp only [Reading.Enters] at ht
    obtain rfl := byte b 0 (by omega)
    obtain rfl := byte c 0 (by omega)
    obtain rfl := byte e 1 (by omega)
    exact ⟨_,.whole hf⟩
  | ones =>
    obtain ⟨h1,hd⟩ := ht
    obtain rfl := byte c 0 (by omega)
    obtain rfl := byte e 0 (by omega)
    exact ⟨_,.one hf hd⟩
  | zeroOnes =>
    obtain ⟨h1,hd⟩ := ht
    obtain rfl := byte e 0 (by omega)
    by_cases hx : a = 0 ∧ b = 0 ∧ c = 1
    · obtain ⟨rfl,rfl,rfl⟩ := hx
      exact ⟨_,.twice hf hd⟩
    · exact ⟨_,.two hf hx hd⟩

theorem opening_next (h : IsNal v) (ho : Opening v s.cycle.length w)
    (hf : (lengthField v).take s.cycle.length = s.cycle) :
    (∃ e, w = e :: v ∧ ∀ y, Quiet (e :: v) y) ∨
      ∃ t : Reading, s.Next t v.length ∧ t.Enters v ∧ w = v.drop t.cycle.length := by
  have value {a b c e : UInt8} (hl : lengthField v = [a,b,c,e]) (n : Nat)
      (hn : a.toNat * 2 ^ 24 + b.toNat * 2 ^ 16 + c.toNat * 2 ^ 8 + e.toNat = n) : v.length = n :=
    (lengthField_value h.short hl).trans hn
  generalize hj : s.cycle.length = j at ho hf
  cases ho with
  | @early e hl hd =>
    refine .inl ⟨e,rfl,early_quiet h hd ?_⟩
    rw [value hl _ rfl]
    exact Nat.le_add_right_of_le (by decide)
  | twice hl hd =>
    have hn := value hl (2 ^ 8) rfl
    obtain rfl : s = .whole := by cases s <;> first | rfl | cases hj
    exact .inr ⟨.zeroOnes,hn,⟨by rw [hn]; rfl,hd⟩,rfl⟩
  | @whole a hl =>
    rw [hl] at hf
    split at hj
    · rename_i ha
      subst ha
      have hn := value hl 1 rfl
      obtain rfl : s = .whole := by cases s <;> first | rfl | cases hj
      exact .inr ⟨.whole,hn,by rw [Reading.Enters,hn]; rfl,rfl⟩
    · rename_i ha
      obtain rfl : s = .ones := by cases s <;> first | rfl | cases hj
      obtain rfl : a = 1 := by simpa [Reading.cycle,ha] using hf
      have hn := value hl (2 ^ 24 + 1) rfl
      exact .inr ⟨.whole,hn,by rw [Reading.Enters,hn]; rfl,rfl⟩
  | @one a b hl hd =>
    rw [hl] at hf
    split at hj
    · rename_i hb
      subst hb
      obtain rfl : s = .ones := by cases s <;> first | rfl | cases hj
      obtain rfl : a = 1 := by simpa [Reading.cycle] using hf
      have hn := value hl (2 ^ 24) rfl
      exact .inr ⟨.ones,hn,⟨by rw [hn]; rfl,hd⟩,rfl⟩
    · rename_i hb
      obtain rfl : s = .zeroOnes := by cases s <;> first | rfl | cases hj
      obtain ⟨rfl,rfl⟩ : a = 0 ∧ b = 1 := by simpa [Reading.cycle,hb] using hf
      have hn := value hl (2 ^ 16) rfl
      exact .inr ⟨.ones,hn,⟨by rw [hn]; rfl,hd⟩,rfl⟩
  | @two a b c hl _ hd =>
    rw [hl] at hf
    split at hj
    · rename_i hc
      subst hc
      obtain rfl : s = .zeroOnes := by cases s <;> first | rfl | cases hj
      obtain ⟨rfl,rfl⟩ : a = 0 ∧ b = 1 := by simpa [Reading.cycle] using hf
      have hn := value hl (2 ^ 16) rfl
      exact .inr ⟨.zeroOnes,hn,⟨by rw [hn]; rfl,hd⟩,rfl⟩
    · cases s <;> cases hj

theorem Reading.Next.opening (hn : s.Next t v.length) (ht : t.Enters v) :
    Opening v s.cycle.length (v.drop t.cycle.length) ∧
      (lengthField v).take s.cycle.length = s.cycle := by
  cases s with
  | whole =>
    cases t with
    | whole =>
      have hlen : v.length = 1 := hn
      have hf : lengthField v = [0,0,0,1] := by rw [lengthField,hlen]; decide +kernel
      exact ⟨.whole hf,rfl⟩
    | ones => exact hn.elim
    | zeroOnes =>
      have hlen : v.length = 2 ^ 8 := hn
      have hf : lengthField v = [0,0,1,0] := by rw [lengthField,hlen]; decide +kernel
      exact ⟨.twice hf ht.2,rfl⟩
  | ones =>
    cases t with
    | whole =>
      have hlen : v.length = 2 ^ 24 + 1 := hn
      have hf : lengthField v = [1,0,0,1] := by rw [lengthField,hlen]; decide +kernel
      exact ⟨.whole hf,by rw [hf]; rfl⟩
    | ones =>
      have hlen : v.length = 2 ^ 24 := hn
      have hf : lengthField v = [1,0,0,0] := by rw [lengthField,hlen]; decide +kernel
      exact ⟨.one hf ht.2,by rw [hf]; rfl⟩
    | zeroOnes => exact hn.elim
  | zeroOnes =>
    cases t with
    | whole => exact hn.elim
    | ones =>
      have hlen : v.length = 2 ^ 16 := hn
      have hf : lengthField v = [0,1,0,0] := by rw [lengthField,hlen]; decide +kernel
      exact ⟨.one hf ht.2,by rw [hf]; rfl⟩
    | zeroOnes =>
      have hlen : v.length = 2 ^ 16 := hn
      have hf : lengthField v = [0,1,0,0] := by rw [lengthField,hlen]; decide +kernel
      exact ⟨.two hf (by decide) ht.2,by rw [hf]; rfl⟩

theorem ReadBack.fits {vs : List Bytes} (h : ReadBack s (v :: vs)) : s.Fits v := by
  cases h with
  | last hf => exact hf
  | cons hf _ _ => exact hf

theorem Reading.cycle_le (s : Reading) : s.cycle.length ≤ 2 := by cases s <;> decide

theorem Reading.Enters.le (hv : v ≠ []) (h : s.Enters v) : s.cycle.length ≤ v.length := by
  have hne := h.ne_nil hv
  rw [Ne,List.drop_eq_nil_iff] at hne
  omega

theorem early_not_read {e : UInt8} {y : Bytes} {us : List Bytes} (hq : Quiet (e :: v) y) :
    nalsAfterStart (e :: v ++ y) ≠ v :: us := by
  intro h
  rw [nalsAfterStart_quiet hq (by simp)] at h
  have := congrArg List.length (List.head_eq_of_cons_eq h)
  simp only [List.length_append,List.length_cons] at this
  omega

theorem reads_of_shift {y : Bytes} (hu : IsNal w) (hv : IsNal v) (hs : s.Enters v)
    (h : v.drop s.cycle.length ++
      (lengthPrefixed w ++ y).take (untilStart (lengthPrefixed w ++ y)) = v) :
    ReadsAsStart w ∧ untilStart (lengthPrefixed w ++ y) = s.cycle.length := by
  have hle := untilStart_le (lengthPrefixed w ++ y)
  have hlen := congrArg List.length h
  have hc := hs.le hv.ne_nil
  have h2 := s.cycle_le
  rw [List.length_append,List.length_drop,List.length_take,Nat.min_eq_left hle] at hlen
  refine ⟨?_,by omega⟩
  by_contra hr
  have hq := quiet_of_not_reads hu hr y
  rw [untilStart_quiet hq] at hlen
  simp only [lengthPrefixed,lengthField,List.length_append,BigEndian.encode_length] at hlen
  omega

theorem lengthField_take (u y : Bytes) : (lengthPrefixed u ++ y).take s.cycle.length =
    (lengthField u).take s.cycle.length := by
  have h2 := s.cycle_le
  rw [lengthPrefixed,List.append_assoc,List.take_append_of_le_length]
  rw [lengthField,BigEndian.encode_length]
  omega

theorem readBack_iff (vs : List Bytes) (hv : IsNal v) (hvs : ∀ u ∈ vs, IsNal u) (hs : s.Enters v) :
    nalsAfterStart (v.drop s.cycle.length ++ vs.flatMap lengthPrefixed) = v :: vs ↔
      ReadBack s (v :: vs) := by
  induction vs generalizing v s with
  | nil =>
    have hq := (hv.quiet []).drop s.cycle.length
    rw [List.flatMap_nil,nalsAfterStart_quiet hq (hs.ne_nil hv.ne_nil),List.cons.injEq]
    constructor
    · rintro ⟨hfirst,-⟩
      have hlen := congrArg List.length hfirst
      have hpos := List.length_pos_iff.mpr hv.ne_nil
      rw [List.length_append,List.length_drop,List.take_nil,List.length_nil] at hlen
      have hc := hs.le hv.ne_nil
      cases s with
      | whole => exact .last hs
      | ones =>
        simp only [Reading.cycle,List.length_singleton] at hlen
        omega
      | zeroOnes =>
        simp only [Reading.cycle,List.length_cons,List.length_nil] at hlen hc
        omega
    · intro h
      cases h
      exact ⟨by simp [Reading.cycle],rfl⟩
  | cons u us ih =>
    have hu := hvs u (by simp)
    have hus : ∀ x ∈ us, IsNal x := fun x hx => hvs x (by simp [hx])
    have hq := (hv.quiet ((u :: us).flatMap lengthPrefixed)).drop s.cycle.length
    rw [nalsAfterStart_quiet hq (hs.ne_nil hv.ne_nil),List.cons.injEq,List.flatMap_cons]
    constructor
    · rintro ⟨hfirst,hrest⟩
      obtain ⟨hreads,hj⟩ := reads_of_shift hu hv hs hfirst
      obtain ⟨j,w,ho⟩ := opening_of_reads hu hreads
      obtain ⟨huntil,hnals⟩ := opening_reads ho (us.flatMap lengthPrefixed)
      obtain rfl : j = s.cycle.length := huntil.symm.trans hj
      rw [hj,lengthField_take] at hfirst
      rw [hj,hnals] at hrest
      have hfield : ((lengthField u).take s.cycle.length).length = s.cycle.length := by
        have h2 := s.cycle_le
        rw [List.length_take,lengthField,BigEndian.encode_length]
        omega
      obtain ⟨hfits,hcycle⟩ := (hs.fits_iff hv.ne_nil).mpr ⟨hfield,hfirst⟩
      rcases opening_next hu ho hcycle with ⟨e,rfl,hquiet⟩ | ⟨t,hnext,ht,rfl⟩
      · exact absurd hrest (early_not_read (hquiet _))
      · exact .cons hfits hnext ((ih hu hus ht).mp hrest)
    · intro h
      cases h with
      | @cons _ t _ _ _ hfits hnext hback =>
        have ht := hback.fits.enters
        obtain ⟨ho,hcycle⟩ := hnext.opening ht
        obtain ⟨huntil,hnals⟩ := opening_reads ho (us.flatMap lengthPrefixed)
        rw [huntil,lengthField_take,hnals]
        exact ⟨((hs.fits_iff hv.ne_nil).mp ⟨hfits,hcycle⟩).2,(ih hu hus ht).mpr hback⟩

theorem annexBNals_length (vs : List Bytes) (hvs : ∀ u ∈ vs, IsNal u) :
    (annexBNals (vs.flatMap lengthPrefixed)).length ≤ vs.length := by
  induction vs with
  | nil => exact le_rfl
  | cons v vs ih =>
    have hv := hvs v (by simp)
    have hrest := ih fun x hx => hvs x (by simp [hx])
    rw [List.flatMap_cons,List.length_cons]
    by_cases hr : ReadsAsStart v
    · obtain ⟨j,w,ho⟩ := opening_of_reads hv hr
      obtain ⟨huntil,hnals⟩ := opening_reads ho (vs.flatMap lengthPrefixed)
      rw [← annexBNals_skip,huntil,hnals]
      have hq : Quiet w (vs.flatMap lengthPrefixed) ∧ w ≠ [] := by
        rcases opening_enters hv ho with ⟨e,rfl,hquiet⟩ | ⟨t,ht,rfl⟩
        · exact ⟨hquiet _,by simp⟩
        · exact ⟨(hv.quiet _).drop _,ht.ne_nil hv.ne_nil⟩
      rw [nalsAfterStart_quiet hq.1 hq.2,annexBNals_skip,List.length_cons]
      exact Nat.succ_le_succ hrest
    · rw [annexBNals_quiet (quiet_of_not_reads hv hr _)]
      exact Nat.le_succ_of_le hrest

theorem annexB_readBack_iff (vs : List Bytes) (hne : vs ≠ []) (hvs : ∀ u ∈ vs, IsNal u) :
    annexBNals (vs.flatMap lengthPrefixed) = vs ↔ ∃ s, ReadBack s vs := by
  cases vs with
  | nil => exact absurd rfl hne
  | cons v vs =>
    have hv := hvs v (by simp)
    have hrest : ∀ x ∈ vs, IsNal x := fun x hx => hvs x (by simp [hx])
    constructor
    · intro h
      by_cases hr : ReadsAsStart v
      · obtain ⟨j,w,ho⟩ := opening_of_reads hv hr
        obtain ⟨huntil,hnals⟩ := opening_reads ho (vs.flatMap lengthPrefixed)
        rw [List.flatMap_cons,← annexBNals_skip,huntil,hnals] at h
        rcases opening_enters hv ho with ⟨e,rfl,hquiet⟩ | ⟨t,ht,rfl⟩
        · exact absurd h (early_not_read (hquiet _))
        · exact ⟨t,(readBack_iff vs hv hrest ht).mp h⟩
      · rw [List.flatMap_cons,annexBNals_quiet (quiet_of_not_reads hv hr _)] at h
        have := annexBNals_length vs hrest
        rw [h,List.length_cons] at this
        omega
    · rintro ⟨s,hs⟩
      obtain ⟨j,ho⟩ := hs.fits.enters.opening hv
      obtain ⟨huntil,hnals⟩ := opening_reads ho (vs.flatMap lengthPrefixed)
      rw [List.flatMap_cons,← annexBNals_skip,huntil,hnals]
      exact (readBack_iff vs hv hrest hs.fits.enters).mpr hs

theorem hasStartCode_units (vs : List Bytes) (hvs : ∀ u ∈ vs, IsNal u) :
    hasStartCode (vs.flatMap lengthPrefixed) = true ↔ ∃ u ∈ vs, ReadsAsStart u := by
  induction vs with
  | nil => simp [hasStartCode]
  | cons v vs ih =>
    have hv := hvs v (by simp)
    have hrest := ih fun x hx => hvs x (by simp [hx])
    rw [hasStartCode_iff,List.flatMap_cons,List.exists_mem_cons_iff]
    by_cases hr : ReadsAsStart v
    · obtain ⟨j,w,ho⟩ := opening_of_reads hv hr
      have hj : j ≤ 3 := by
        cases ho with
        | early _ _ => decide
        | twice _ _ => decide
        | whole _ => split <;> decide
        | one _ _ => split <;> decide
        | two _ _ _ => split <;> decide
      rw [(opening_reads ho _).1]
      simp only [hr,true_or,iff_true,lengthPrefixed,lengthField,List.length_append,
        BigEndian.encode_length]
      omega
    · rw [hasStartCode_iff] at hrest
      rw [untilStart_quiet (quiet_of_not_reads hv hr _),List.length_append,Nat.add_lt_add_iff_left,hrest]
      simp [hr]

theorem splitLengthPrefixed_unit (hv : v ≠ []) (hs : v.length < 2 ^ 32) (nals : List Bytes) (fuel : Nat)
    (y : Bytes) :
    splitLengthPrefixed (fuel + 1) nals (lengthPrefixed v ++ y) = splitLengthPrefixed fuel (nals ++ [v]) y := by
  have hpos := List.length_pos_iff.mpr hv
  obtain ⟨a,b,c,e,hl,hn⟩ := lengthField_bytes hs
  have hread : (readU32 (lengthField v ++ (v ++ y))).toNat = v.length := by
    rw [hl,hn]
    exact readU32_bytes a b c e _
  have hfour : (lengthField v).length = 4 := BigEndian.encode_length 4 v.length
  rw [lengthPrefixed,List.append_assoc,splitLengthPrefixed,
    if_neg (by rw [List.length_append,hfour]; omega)]
  simp only [hread]
  rw [if_neg (by simp only [List.length_append,hfour]; omega),← List.drop_drop,
    List.drop_left' hfour,List.take_left,List.drop_left]

theorem splitLengthPrefixed_units (vs nals : List Bytes) (fuel : Nat) (y : Bytes)
    (hvs : ∀ u ∈ vs, u ≠ [] ∧ u.length < 2 ^ 32) (hy : y.length < 4)
    (hf : (vs.flatMap lengthPrefixed).length ≤ fuel) :
    splitLengthPrefixed fuel nals (vs.flatMap lengthPrefixed ++ y) = (nals ++ vs,y) := by
  induction vs generalizing nals fuel with
  | nil => cases fuel <;> simp [splitLengthPrefixed,hy]
  | cons v vs ih =>
    obtain ⟨hv,hs⟩ := hvs v (by simp)
    have hpos := List.length_pos_iff.mpr hv
    rw [List.flatMap_cons,List.length_append,lengthPrefixed,List.length_append] at hf
    obtain ⟨fuel,rfl⟩ : ∃ k, fuel = k + 1 := ⟨fuel - 1,by omega⟩
    rw [List.flatMap_cons,List.append_assoc,splitLengthPrefixed_unit hv hs,
      ih _ fuel (fun x hx => hvs x (by simp [hx])) (by omega)]
    simp

end

theorem length_prefixed_split_iff (units : List Bytes) (hne : units ≠ [])
    (h : ∀ nal ∈ units, IsNal nal) :
    splitAccessUnit (units.flatMap lengthPrefixed) = units ↔
      (∀ nal ∈ units, ¬ ReadsAsStart nal) ∨ ∃ s, ReadBack s units := by
  have hstart := hasStartCode_units units h
  unfold splitAccessUnit
  split
  · rename_i hs
    obtain ⟨nal,hmem,hr⟩ := hstart.mp hs
    have hsome : ¬ ∀ nal ∈ units, ¬ ReadsAsStart nal := fun hn => hn nal hmem hr
    rw [or_iff_right hsome]
    exact annexB_readBack_iff units hne h
  · rename_i hs
    have hnone : ∀ nal ∈ units, ¬ ReadsAsStart nal := fun nal hmem hr => hs (hstart.mpr ⟨nal,hmem,hr⟩)
    have hread := splitLengthPrefixed_units units [] _ [] (fun u hu => ⟨(h u hu).ne_nil,(h u hu).short⟩)
      (by decide) le_rfl
    rw [List.append_nil] at hread
    rw [hread]
    simp only [List.nil_append,List.isEmpty_nil,Bool.and_true]
    rw [if_pos (by simpa using hne)]
    exact ⟨fun _ => .inl hnone,fun _ => rfl⟩

instance (nal : Bytes) : Decidable (IsNal nal) :=
  decidable_of_iff (nal ≠ [] ∧ nal.length < 2 ^ 32 ∧ ¬ [0,0,1] <:+: nal ∧ nal.getLast? ≠ some 0)
    ⟨fun ⟨h1,h2,h3,h4⟩ => ⟨h1,h2,h3,h4⟩,fun ⟨h1,h2,h3,h4⟩ => ⟨h1,h2,h3,h4⟩⟩

instance (nal : Bytes) : Decidable (ReadsAsStart nal) := inferInstanceAs (Decidable (_ ∨ _))

theorem short_nals_split :
    (∀ nal ∈ [[0x67,1],[0x68,2]], IsNal nal) ∧
      splitAccessUnit ([[0x67,1],[0x68,2]].flatMap lengthPrefixed) = [[0x67,1],[0x68,2]] := by
  have hn : ∀ nal ∈ [[0x67,1],[0x68,2]], IsNal nal := by decide
  exact ⟨hn,(length_prefixed_split_iff _ (by decide) hn).mpr (.inl (by decide))⟩

def sliceNal : Bytes := 0x65 :: List.replicate 255 0xaa

theorem slice_of_256_not_returned :
    IsNal sliceNal ∧ splitAccessUnit ([sliceNal].flatMap lengthPrefixed) = [0 :: sliceNal] ∧
      splitAccessUnit ([sliceNal].flatMap lengthPrefixed) ≠ [sliceNal] := by
  have hs : splitAccessUnit ([sliceNal].flatMap lengthPrefixed) = [0 :: sliceNal] := by decide +kernel
  refine ⟨by decide +kernel,hs,?_⟩
  rw [hs]
  decide +kernel

end RpiVms

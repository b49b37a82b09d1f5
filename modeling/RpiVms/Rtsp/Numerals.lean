import RpiVms.Rtsp.Text

namespace RpiVms

theorem isDigit_not_space {b : UInt8} (h : isDigit b = true) : isSpace b = false := by
  simp only [isDigit,isSpace] at *
  grind

theorem isDigit_not_sign {b : UInt8} (h : isDigit b = true) : b ≠ 43 ∧ b ≠ 45 := by
  simp only [isDigit] at h
  grind

theorem isDigit_not_trimmed {b : UInt8} (h : isDigit b = true) : isTrimmed b = false := by
  simp only [isDigit,isTrimmed] at *
  grind

theorem digits_span {ds rest : Bytes} (hd : ds.all isDigit = true)
    (hr : ∀ b, rest.head? = some b → isDigit b = false) :
    (ds ++ rest).takeWhile isDigit = ds ∧ (ds ++ rest).dropWhile isDigit = rest := by
  have hall := List.all_eq_true.mp hd
  rw [List.takeWhile_append_of_pos hall,List.dropWhile_append_of_pos hall]
  cases rest with
  | nil => simp
  | cons c rest => simp [hr c rfl]

theorem scanNumeral_digits_append {ds rest : Bytes} (hne : ds ≠ []) (hd : ds.all isDigit = true)
    (hr : ∀ b, rest.head? = some b → isDigit b = false) :
    scanNumeral (ds ++ rest) = ⟨false,ds,rest⟩ := by
  obtain ⟨b,ds',rfl⟩ := List.exists_cons_of_ne_nil hne
  have hb : isDigit b = true := by
    simp only [List.all_cons,Bool.and_eq_true] at hd
    exact hd.1
  have hdrop : (b :: ds' ++ rest).dropWhile isSpace = b :: ds' ++ rest := by
    simp [isDigit_not_space hb]
  obtain ⟨htake,hskip⟩ := digits_span hd hr
  have hs := isDigit_not_sign hb
  unfold scanNumeral
  rw [hdrop]
  simp only [List.cons_append] at htake hskip ⊢
  split
  · rename_i u heq
    exact absurd (List.cons.inj heq).1 hs.1
  · rename_i u heq
    exact absurd (List.cons.inj heq).1 hs.2
  · dsimp only
    rw [htake,hskip]

theorem scanNumeral_digits {ds : Bytes} (hne : ds ≠ []) (hd : ds.all isDigit = true) :
    scanNumeral ds = ⟨false,ds,[]⟩ := by
  have h := scanNumeral_digits_append hne hd (show ∀ b, ([] : Bytes).head? = some b →
    isDigit b = false by simp)
  simpa using h

theorem fitsInt_nat (n : Nat) : fitsInt (n : Int) = true ↔ n ≤ intMax := by
  simp only [fitsInt,Bool.and_eq_true,decide_eq_true_eq]
  omega

theorem stoi_digits {ds : Bytes} (hne : ds ≠ []) (hd : ds.all isDigit = true) :
    stoi ds = if digitsValue ds ≤ intMax then .ok ⟨digitsValue ds,ds.length⟩
      else .error .outOfRange := by
  have hemp : ds.isEmpty = false := by simpa using hne
  simp only [stoi,scanNumeral_digits hne hd,hemp,Numeral.value,Bool.false_eq_true,if_false,
    fitsInt_nat,List.length_nil,Nat.sub_zero]

theorem digitChar_toUInt8 {c : Char} (h : c.isDigit = true) :
    isDigit c.toUInt8 = true ∧ c.toUInt8.toNat = c.toNat := by
  have hc : 48 ≤ c.toNat ∧ c.toNat ≤ 57 := by
    simp only [Char.isDigit,Bool.and_eq_true,decide_eq_true_eq,UInt32.le_iff_toNat_le] at h
    exact h
  have hn : c.toUInt8.toNat = c.toNat := by
    have : c.toUInt8.toNat = c.toNat % 256 := rfl
    omega
  refine ⟨?_,hn⟩
  simp only [isDigit,Bool.and_eq_true,decide_eq_true_eq,UInt8.le_iff_toNat_le,hn]
  exact hc

theorem decimal_all (n : Nat) : (decimal n).all isDigit = true := by
  simp only [decimal,List.all_map,List.all_eq_true]
  intro c hc
  exact (digitChar_toUInt8 (Nat.isDigit_of_mem_toDigits (by omega) (by omega) hc)).1

theorem decimal_ne_nil (n : Nat) : decimal n ≠ [] := by
  simp [decimal,Nat.toDigits_ne_nil]

theorem foldl_digitChars (cs : List Char) (h : ∀ c ∈ cs, c.isDigit = true) (k : Nat) :
    (cs.map Char.toUInt8).foldl (fun n b => n * 10 + (b.toNat - 48)) k =
      Nat.ofDigitChars 10 cs k := by
  induction cs generalizing k with
  | nil => rfl
  | cons c cs ih =>
    have hc := (digitChar_toUInt8 (h c (by simp))).2
    rw [List.map_cons,List.foldl_cons,Nat.ofDigitChars_cons,ih (fun d hd => h d (by simp [hd])),hc,
      Nat.mul_comm]
    rfl

theorem digitsValue_decimal (n : Nat) : digitsValue (decimal n) = n := by
  unfold digitsValue decimal
  rw [foldl_digitChars _ (fun c hc => Nat.isDigit_of_mem_toDigits (by omega) (by omega) hc)]
  exact Nat.ofDigitChars_ten_toDigits

theorem trimCopy_of_ends {s : Bytes} (hh : ∀ b, s.head? = some b → isTrimmed b = false)
    (hl : ∀ b, s.getLast? = some b → isTrimmed b = false) : trimCopy s = s := by
  have hd : s.dropWhile isTrimmed = s := by
    cases s with
    | nil => rfl
    | cons b s => simp [hh b rfl]
  unfold trimCopy
  rw [hd]
  by_cases hs : s = []
  · simp [hs]
  · exact List.rdropWhile_eq_self_iff.mpr fun hne => by
      simpa using hl _ (List.getLast?_eq_some_getLast hne)

end RpiVms

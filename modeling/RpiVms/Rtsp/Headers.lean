import RpiVms.Rtsp.Numerals

namespace RpiVms

open Search Segments

def Plain (l : Bytes) : Prop := find crlf l = none

instance (l : Bytes) : Decidable (Plain l) := inferInstanceAs (Decidable (_ = _))

theorem plain_of_not_mem {l : Bytes} (h : (13 : UInt8) ∉ l) : Plain l := by
  refine find_eq_none.mpr fun n _ hp => h ?_
  exact List.drop_subset n l (hp.subset (by simp [crlf]))

theorem clean_iff_plain {l : Bytes} : Clean crlf l ↔ Plain l := by
  constructor
  · intro h
    by_contra hc
    obtain ⟨m,hm⟩ := Option.ne_none_iff_exists'.mp hc
    have hle := find_le hm
    have := find_append hm crlf
    rw [h] at this
    simp only [Option.some.injEq] at this
    simp only [crlf,List.length_cons,List.length_nil] at hle
    omega
  · intro h
    refine find_eq_some.mpr ⟨by simp [crlf],by simp,?_⟩
    intro m hm hp
    rw [List.drop_append_of_le_length (by omega)] at hp
    rcases hd : l.drop m with _ | ⟨a,_ | ⟨b,t⟩⟩
    · rw [List.drop_eq_nil_iff] at hd; omega
    · rw [hd] at hp
      obtain ⟨t,ht⟩ := hp
      simp [crlf] at ht
    · refine find_eq_none.mp h m hm ?_
      rw [hd] at hp ⊢
      exact List.prefix_of_prefix_length_le hp (List.prefix_append _ _) (by simp [crlf])

theorem Plain.infix_of {l t : Bytes} (h : Plain l) (ht : t <:+: l) : Plain t :=
  find_none_of_infix h ht

theorem plain_append {a b : Bytes} (ha : (13 : UInt8) ∉ a) (hb : Plain b) : Plain (a ++ b) := by
  refine find_eq_none.mpr fun n hn hp => ?_
  by_cases hna : n < a.length
  · rw [List.drop_append_of_le_length (by omega)] at hp
    obtain ⟨x,t,hx⟩ : ∃ x t, a.drop n = x :: t := by
      cases hd : a.drop n with
      | nil => rw [List.drop_eq_nil_iff] at hd; omega
      | cons x t => exact ⟨x,t,rfl⟩
    rw [hx] at hp
    obtain ⟨r,hr⟩ := hp
    have h13 : (13 : UInt8) = x := (List.cons.inj hr).1
    exact ha (h13 ▸ List.drop_subset n a (by simp [hx]))
  · rw [List.drop_append,List.drop_eq_nil_of_le (by omega),List.nil_append] at hp
    exact find_eq_none.mp hb (n - a.length) (by simp at hn; omega) hp

theorem plain_glue {a b : Bytes} (ha : Plain a) (hb : Plain b) (hh : b.head? ≠ some 10) :
    Plain (a ++ b) := by
  refine find_eq_none.mpr fun n hn hp => ?_
  rcases Nat.lt_or_ge n a.length with hlt | hge
  · rcases hd : a.drop n with _ | ⟨x,_ | ⟨y,t⟩⟩
    · rw [List.drop_eq_nil_iff] at hd
      omega
    · rw [List.drop_append_of_le_length (by omega),hd] at hp
      obtain ⟨t,ht⟩ := hp
      cases b with
      | nil => simp [crlf] at ht
      | cons z b =>
        obtain ⟨-,hz⟩ := List.cons.inj ht
        exact hh (by rw [← (List.cons.inj hz).1]; rfl)
    · refine find_eq_none.mp ha n hlt ?_
      rw [List.drop_append_of_le_length (by omega)] at hp
      rw [hd] at hp ⊢
      exact List.prefix_of_prefix_length_le hp (List.prefix_append _ _) (by simp [crlf])
  · obtain ⟨k,rfl⟩ := Nat.exists_eq_add_of_le hge
    rw [List.drop_append,List.drop_eq_nil_of_le (by omega),Nat.add_sub_cancel_left,
      List.nil_append] at hp
    refine find_eq_none.mp hb k ?_ hp
    rw [List.length_append] at hn
    omega

theorem trimCopy_within (s : Bytes) : trimCopy s <:+: s := by
  have hp : trimCopy s <+: s.dropWhile isTrimmed := List.rdropWhile_prefix _ _
  exact hp.isInfix.trans (List.dropWhile_suffix _).isInfix

theorem trimCopy_head {s : Bytes} {b : UInt8} (h : (trimCopy s).head? = some b) :
    isTrimmed b = false := by
  have hp : trimCopy s <+: s.dropWhile isTrimmed := List.rdropWhile_prefix _ _
  obtain ⟨t,ht⟩ := hp
  have hh : (s.dropWhile isTrimmed).head? = some b := by
    rw [← ht,List.head?_append,h]; rfl
  have := List.head?_dropWhile_not isTrimmed s
  rw [hh] at this
  simpa using this

theorem trimCopy_last {s : Bytes} {b : UInt8} (h : (trimCopy s).getLast? = some b) :
    isTrimmed b = false := by
  have hne : trimCopy s ≠ [] := by rintro he; simp [he] at h
  have hl := List.rdropWhile_last_not isTrimmed (s.dropWhile isTrimmed) hne
  rw [List.getLast?_eq_some_getLast hne,Option.some.injEq] at h
  rw [← h]
  exact Bool.eq_false_iff.mpr hl

theorem headerValue_plain (header name : Bytes) : Plain (headerValue header name) := by
  unfold headerValue
  split
  · decide
  · rename_i line hl
    have hc := segments_clean (show crlf ≠ [] by decide) header line (List.mem_of_find?_eq_some hl)
    exact (clean_iff_plain.mp hc).infix_of
      ((trimCopy_within _).trans (List.drop_suffix _ _).isInfix)

theorem headerValue_ends (header name : Bytes) {b : UInt8}
    (h : (headerValue header name).head? = some b ∨ (headerValue header name).getLast? = some b) :
    isTrimmed b = false := by
  unfold headerValue at h
  split at h
  · simp at h
  · rcases h with h | h
    · exact trimCopy_head h
    · exact trimCopy_last h

def headerBlock (ls : List Bytes) : Bytes := ls.flatMap (· ++ crlf) ++ crlf

theorem no_headerEnd_before {l t : Bytes} (hl : Plain l) {m : Nat} (hm : m < l.length) :
    ¬ headerEnd <+: (l ++ crlf ++ t).drop m := by
  intro hp
  have hc := find_append (clean_iff_plain.mpr hl) t
  refine (find_eq_some.mp hc).2.2 m hm ?_
  exact (show crlf <+: headerEnd by decide).trans hp

theorem not_crlf_first {l : Bytes} (hl : Plain l) (hne : l ≠ []) (t : Bytes) : ¬ crlf <+: l ++ crlf ++ t :=
  (find_eq_some.mp (find_append (clean_iff_plain.mpr hl) t)).2.2 0 (List.length_pos_iff.mpr hne)

theorem find_headerEnd_blank {l : Bytes} (hl : Plain l) (t : Bytes) :
    find headerEnd (l ++ crlf ++ (crlf ++ t)) = some l.length := by
  rw [List.append_assoc]
  refine find_skip (n := 0) (fun m hm => ?_) ?_
  · rw [← List.append_assoc]
    exact no_headerEnd_before hl hm
  · exact find_append (show find headerEnd headerEnd = some 0 by decide) t

theorem find_headerEnd_line {l t : Bytes} (hl : Plain l) (ht : ¬ crlf <+: t) :
    find headerEnd (l ++ crlf ++ t) = (find headerEnd t).map ((l ++ crlf).length + ·) := by
  refine find_behind fun m hm => ?_
  by_cases hin : m < l.length
  · exact no_headerEnd_before hl hin
  · rw [List.append_assoc,List.drop_append,List.drop_eq_nil_of_le (by omega),List.nil_append]
    simp only [List.length_append,crlf,List.length_cons,List.length_nil] at hm
    obtain hj | hj : m - l.length = 0 ∨ m - l.length = 1 := by omega
    · rw [hj]
      exact fun hp => ht ((List.prefix_append_right_inj crlf).mp hp)
    · rw [hj]
      exact fun hp => absurd (List.cons_prefix_cons.mp hp).1 (by decide)

theorem find_headerEnd_lines (ls : List Bytes) (hne : ls ≠ [])
    (h : ∀ l ∈ ls, Plain l ∧ l ≠ []) (body : Bytes) :
    find headerEnd (headerBlock ls ++ body) = some ((headerBlock ls).length - 4) := by
  induction ls with
  | nil => exact absurd rfl hne
  | cons l ls ih =>
    have hl := (h l (by simp)).1
    cases ls with
    | nil =>
      have hfind := find_headerEnd_blank hl body
      simpa [headerBlock,crlf] using hfind
    | cons k ks =>
      have ih := ih (by simp) (fun x hx => h x (by simp [hx]))
      obtain ⟨hk,hkne⟩ := h k (by simp)
      have hcat : headerBlock (l :: k :: ks) ++ body = l ++ crlf ++ (headerBlock (k :: ks) ++ body) := by
        simp [headerBlock]
      have hnext : ¬ crlf <+: headerBlock (k :: ks) ++ body := by
        have := not_crlf_first hk hkne (ks.flatMap (· ++ crlf) ++ crlf ++ body)
        simpa [headerBlock] using this
      have hlen : 4 ≤ (headerBlock (k :: ks)).length := by
        simp [headerBlock,crlf]
        omega
      rw [hcat,find_headerEnd_line hl hnext,ih]
      simp [headerBlock,crlf]
      omega

theorem messageHeaderPart_block {ls : List Bytes} (hne : ls ≠ [])
    (h : ∀ l ∈ ls, Plain l ∧ l ≠ []) (body : Bytes) :
    messageHeaderPart (headerBlock ls ++ body) = headerBlock ls := by
  have hlen : 4 ≤ (headerBlock ls).length := by
    cases ls with
    | nil => exact absurd rfl hne
    | cons l ls => simp [headerBlock,crlf]; omega
  unfold messageHeaderPart
  rw [find_headerEnd_lines ls hne h body]
  simp only
  rw [Nat.sub_add_cancel hlen,List.take_left]

def messageBody (message : Bytes) : Bytes := message.drop (messageHeaderPart message).length

theorem segments_block (ls : List Bytes) (h : ∀ l ∈ ls, Plain l) :
    segments crlf (headerBlock ls) = (ls ++ [[]],[]) := by
  unfold headerBlock
  rw [segments_lines (by decide) ls (fun l hl => clean_iff_plain.mpr (h l hl))]
  have hc : segments crlf crlf = ([[]],[]) := by decide
  rw [hc]

theorem splitLines_block (ls : List Bytes) (h : ∀ l ∈ ls, Plain l) :
    splitLinesKeepEmpty (headerBlock ls) = ls ++ [[]] := by
  simp [splitLinesKeepEmpty,segments_block ls h]

theorem getFirstLine_block {l : Bytes} {ls : List Bytes} (h : Plain l) (body : Bytes) :
    getFirstLine (headerBlock (l :: ls) ++ body) = l := by
  have hc := find_append (clean_iff_plain.mpr h) (ls.flatMap (· ++ crlf) ++ crlf ++ body)
  have he : headerBlock (l :: ls) ++ body =
      l ++ crlf ++ (ls.flatMap (· ++ crlf) ++ crlf ++ body) := by
    simp [headerBlock]
  unfold getFirstLine
  rw [he,hc]
  simp

theorem startsWithCi_append (p s : Bytes) : startsWithCi (p ++ s) p = true := by
  simp [startsWithCi]

theorem toLower_below {c : UInt8} (hc : c < 65) (b : UInt8) : toLower b = c ↔ b = c := by
  unfold toLower
  split
  · rename_i h
    simp only [Bool.and_eq_true,decide_eq_true_eq] at h
    constructor <;> intro hb <;> grind
  · exact Iff.rfl

theorem toLower_cr_lf (b : UInt8) : (toLower b = 13 ↔ b = 13) ∧ (toLower b = 10 ↔ b = 10) :=
  ⟨toLower_below (by decide) b,toLower_below (by decide) b⟩

theorem crlf_prefix_lower (s : Bytes) : crlf <+: lowerCopy s ↔ crlf <+: s := by
  rcases s with _ | ⟨a,_ | ⟨b,s⟩⟩
  · simp [lowerCopy]
  · simp [lowerCopy,crlf]
  · simp only [lowerCopy,crlf,List.map_cons,List.cons_prefix_cons,List.nil_prefix,and_true]
    have ha := (toLower_cr_lf a).1
    have hb := (toLower_cr_lf b).2
    constructor
    · rintro ⟨h1,h2⟩
      exact ⟨(ha.mp h1.symm).symm,(hb.mp h2.symm).symm⟩
    · rintro ⟨h1,h2⟩
      exact ⟨(ha.mpr h1.symm).symm,(hb.mpr h2.symm).symm⟩

theorem plain_lower (s : Bytes) : Plain (lowerCopy s) ↔ Plain s := by
  unfold Plain
  rw [find_eq_none,find_eq_none]
  simp only [lowerCopy,List.length_map,← List.map_drop]
  exact forall_congr' fun n => forall_congr' fun _ => not_congr (crlf_prefix_lower _)

theorem startsWithCi_eq {s p : Bytes} (h : startsWithCi s p = true) :
    p.length ≤ s.length ∧ lowerCopy (s.take p.length) = lowerCopy p := by
  unfold startsWithCi at h
  split at h
  · simp at h
  · exact ⟨by omega,by simpa using h⟩

theorem startsWithCi_take {s t p : Bytes} (h : s.take p.length = t.take p.length) :
    startsWithCi s p = startsWithCi t p := by
  have hl := congrArg List.length h
  simp only [List.length_take] at hl
  unfold startsWithCi
  rw [h]
  congr 1
  exact propext ⟨fun _ => by omega,fun _ => by omega⟩

theorem startsWithCi_differs {p q : Bytes} (s : Bytes)
    (h : lowerCopy (p.take q.length) ≠ lowerCopy (q.take p.length)) :
    startsWithCi (p ++ s) q = false := by
  rw [Bool.eq_false_iff]
  intro hs
  obtain ⟨-,he⟩ := startsWithCi_eq hs
  apply h
  have := congrArg (List.take p.length) he
  simp only [lowerCopy,← List.map_take,List.take_take] at this ⊢
  rw [Nat.min_comm,← List.take_take,List.take_left] at this
  exact this

theorem startsWithCi_lower {p q : Bytes} (s : Bytes) (h : lowerCopy p = lowerCopy q) :
    startsWithCi (p ++ s) q = true := by
  have hl : p.length = q.length := by simpa [lowerCopy] using congrArg List.length h
  simp [startsWithCi,← hl,h]

theorem plain_digits {ds : Bytes} (h : ds.all isDigit = true) : (13 : UInt8) ∉ ds := by
  intro hm
  have := List.all_eq_true.mp h 13 hm
  exact absurd this (by decide)

theorem toDecimal_plain (v : Int) : (13 : UInt8) ∉ toDecimal v := by
  have hd := plain_digits (decimal_all v.natAbs)
  unfold toDecimal
  split
  · simpa using hd
  · exact hd

theorem find?_skip_plain {p : Bytes → Bool} {ls rest : List Bytes} (h : ∀ l ∈ ls, p l = false) :
    (ls ++ rest).find? p = rest.find? p := by
  rw [List.find?_append,List.find?_eq_none.mpr (fun l hl => by simp [h l hl]),Option.none_or]

theorem trimCopy_blank {s : Bytes} (hh : ∀ b, s.head? = some b → isTrimmed b = false)
    (hl : ∀ b, s.getLast? = some b → isTrimmed b = false) : trimCopy (32 :: s) = s := by
  have hd : (32 :: s).dropWhile isTrimmed = s.dropWhile isTrimmed := rfl
  have := trimCopy_of_ends hh hl
  unfold trimCopy at this ⊢
  rwa [hd]

theorem trimCopy_blank_all {s : Bytes} (h : ∀ b ∈ s, isTrimmed b = false) : trimCopy (32 :: s) = s :=
  trimCopy_blank (fun b hb => h b (List.mem_of_mem_head? hb)) fun b hb => h b (List.mem_of_getLast? hb)

end RpiVms

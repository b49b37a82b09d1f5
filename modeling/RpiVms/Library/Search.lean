import Mathlib.Data.List.Infix

namespace Search

variable {α : Type}

def findSuffix (p : List α → Bool) : List α → Option Nat
  | [] => none
  | a :: s => if p (a :: s) then some 0 else (findSuffix p s).map (· + 1)

theorem findSuffix_eq_none {p : List α → Bool} {s : List α} :
    findSuffix p s = none ↔ ∀ n, n < s.length → p (s.drop n) = false := by
  induction s with
  | nil => simp [findSuffix]
  | cons a s ih =>
    constructor
    · intro h n hn
      simp only [findSuffix] at h
      split at h
      · simp at h
      · rename_i hp
        cases n with
        | zero => simpa using hp
        | succ n =>
          have hs := ih.mp (by simpa using h) n (by simpa using hn)
          simpa using hs
    · intro h
      have h0 := h 0 (by simp)
      have hs : findSuffix p s = none := ih.mpr (by
        intro n hn
        simpa using h (n+1) (by simpa using hn))
      simp only [List.drop_zero] at h0
      simp [findSuffix,h0,hs]

theorem findSuffix_eq_some {p : List α → Bool} {s : List α} {n : Nat} :
    findSuffix p s = some n ↔
      n < s.length ∧ p (s.drop n) = true ∧ ∀ m, m < n → p (s.drop m) = false := by
  induction s generalizing n with
  | nil => simp [findSuffix]
  | cons a s ih =>
    simp only [findSuffix]
    split
    · rename_i hp
      constructor
      · intro h
        simp only [Option.some.injEq] at h
        subst h
        exact ⟨by simp,by simpa using hp,by simp⟩
      · rintro ⟨-,-,hm⟩
        cases n with
        | zero => rfl
        | succ n =>
          have := hm 0 (by omega)
          simp [hp] at this
    · rename_i hp
      cases n with
      | zero => simp [hp]
      | succ n =>
        have hp' : p (a :: s) = false := by simpa using hp
        simp only [Option.map_eq_some_iff,Nat.add_right_cancel_iff,exists_eq_right,ih,
          List.length_cons,Nat.add_lt_add_iff_right,List.drop_succ_cons]
        refine and_congr_right fun _ => and_congr_right fun _ => ?_
        constructor
        · intro h m hm
          cases m with
          | zero => simpa using hp'
          | succ m => simpa using h m (by omega)
        · intro h m hm
          simpa using h (m+1) (by omega)

variable [DecidableEq α]

def find (pat s : List α) : Option Nat := findSuffix (fun t => pat.isPrefixOf t) s

theorem find_eq_some {pat s : List α} {n : Nat} :
    find pat s = some n ↔
      n < s.length ∧ pat <+: s.drop n ∧ ∀ m, m < n → ¬ pat <+: s.drop m := by
  simp [find,findSuffix_eq_some,List.isPrefixOf_iff_prefix,← Bool.not_eq_true]

theorem find_eq_none {pat s : List α} :
    find pat s = none ↔ ∀ n, n < s.length → ¬ pat <+: s.drop n := by
  simp [find,findSuffix_eq_none,List.isPrefixOf_iff_prefix,← Bool.not_eq_true]

theorem find_le {pat s : List α} {n : Nat} (h : find pat s = some n) :
    n + pat.length ≤ s.length := by
  obtain ⟨hn,hp,-⟩ := find_eq_some.mp h
  have := hp.length_le
  rw [List.length_drop] at this
  omega

theorem find_append {pat s : List α} {n : Nat} (h : find pat s = some n) (t : List α) :
    find pat (s ++ t) = some n := by
  have hle := find_le h
  obtain ⟨hn,hp,hm⟩ := find_eq_some.mp h
  refine find_eq_some.mpr ⟨by simp; omega,?_,?_⟩
  · rw [List.drop_append_of_le_length (by omega)]
    exact hp.trans (List.prefix_append _ _)
  · intro m hlt hpre
    rw [List.drop_append_of_le_length (by omega)] at hpre
    refine hm m hlt (List.prefix_of_prefix_length_le hpre (List.prefix_append _ _) ?_)
    rw [List.length_drop]
    omega

theorem find_of_append {pat s t : List α} {n : Nat} (hpat : pat ≠ [])
    (h : find pat (s ++ t) = some n) (hl : n + pat.length ≤ s.length) : find pat s = some n := by
  have hpos : 0 < pat.length := List.length_pos_iff.mpr hpat
  obtain ⟨-,hp,hm⟩ := find_eq_some.mp h
  refine find_eq_some.mpr ⟨by omega,?_,?_⟩
  · rw [List.drop_append_of_le_length (by omega)] at hp
    refine List.prefix_of_prefix_length_le hp (List.prefix_append _ _) ?_
    rw [List.length_drop]
    omega
  · intro m hlt hc
    refine hm m hlt ?_
    rw [List.drop_append_of_le_length (by omega)]
    exact hc.trans (List.prefix_append _ _)

theorem find_prefix_none {pat s p : List α} {n : Nat} (h : find pat s = some n)
    (hp : p <+: s) (hl : p.length < n + pat.length) : find pat p = none := by
  obtain ⟨-,-,hm⟩ := find_eq_some.mp h
  obtain ⟨t,rfl⟩ := hp
  refine find_eq_none.mpr fun m hlt hpre => ?_
  have hlen := hpre.length_le
  rw [List.length_drop] at hlen
  refine hm m (by omega) ?_
  rw [List.drop_append_of_le_length (by omega)]
  exact hpre.trans (List.prefix_append _ _)

theorem find_none_of_infix {pat s t : List α} (h : find pat s = none) (ht : t <:+: s) :
    find pat t = none := by
  obtain ⟨a,b,rfl⟩ := ht
  refine find_eq_none.mpr fun n hn hpre => ?_
  refine find_eq_none.mp h (a.length + n) (by simp; omega) ?_
  rw [List.append_assoc,List.drop_append,List.drop_append_of_le_length (by omega)]
  simp only [Nat.add_sub_cancel_left,List.drop_eq_nil_of_le (Nat.le_add_right _ _),List.nil_append]
  exact hpre.trans (List.prefix_append _ _)

theorem find_skip {pat a s : List α} {n : Nat} (h : ∀ m, m < a.length → ¬ pat <+: (a ++ s).drop m)
    (hs : find pat s = some n) : find pat (a ++ s) = some (a.length + n) := by
  obtain ⟨hn,hp,hm⟩ := find_eq_some.mp hs
  have hdrop (k : Nat) : (a ++ s).drop (a.length + k) = s.drop k := by
    rw [List.drop_append,List.drop_eq_nil_of_le (Nat.le_add_right _ _),Nat.add_sub_cancel_left,
      List.nil_append]
  refine find_eq_some.mpr ⟨by simp; omega,by rwa [hdrop],?_⟩
  intro m hlt
  by_cases hma : m < a.length
  · exact h m hma
  · obtain ⟨k,rfl⟩ : ∃ k, m = a.length + k := ⟨m - a.length,by omega⟩
    rw [hdrop]
    exact hm k (by omega)

theorem not_prefix_across {pat l sep : List α} (hpat : pat ≠ []) (hne : sep ≠ [])
    (hsep : ∀ x ∈ sep, x ∉ pat) (h : find pat l = none) (t : List α) {m : Nat} (hm : m < (l ++ sep).length) :
    ¬ pat <+: (l ++ sep ++ t).drop m := by
  intro hp
  have hpos : 0 < pat.length := List.length_pos_iff.mpr hpat
  have hspos : 0 < sep.length := List.length_pos_iff.mpr hne
  by_cases hin : m + pat.length ≤ l.length
  · refine find_eq_none.mp h m (by omega) ?_
    rw [List.append_assoc,List.drop_append_of_le_length (by omega)] at hp
    exact List.prefix_of_prefix_length_le hp (List.prefix_append _ _) (by rw [List.length_drop]; omega)
  · -- the occurrence covers an element of sep
    rw [List.length_append] at hm
    let j := max m l.length
    have hj : j - m < pat.length := by omega
    have hget : (l ++ sep ++ t)[j]? = some pat[j - m] := by
      obtain ⟨u,hu⟩ := hp
      have := congrArg (·[j - m]?) hu
      simp only [List.getElem?_drop,List.getElem?_append_left hj,List.getElem?_eq_getElem hj] at this
      rw [show m + (j - m) = j by omega] at this
      exact this.symm
    rw [List.append_assoc,List.getElem?_append_right (by omega),
      List.getElem?_append_left (by omega)] at hget
    exact hsep _ (List.mem_of_getElem? hget) (List.getElem_mem hj)

theorem find_behind {pat a s : List α} (h : ∀ m, m < a.length → ¬ pat <+: (a ++ s).drop m) :
    find pat (a ++ s) = (find pat s).map (a.length + ·) := by
  cases hs : find pat s with
  | none =>
    refine find_eq_none.mpr fun m hm => ?_
    by_cases hin : m < a.length
    · exact h m hin
    · rw [List.drop_append,List.drop_eq_nil_of_le (by omega),List.nil_append]
      exact find_eq_none.mp hs _ (by rw [List.length_append] at hm; omega)
  | some n => exact find_skip h hs

theorem find_past {pat l sep : List α} (hpat : pat ≠ []) (hne : sep ≠ [])
    (hsep : ∀ x ∈ sep, x ∉ pat) (h : find pat l = none) (t : List α) :
    find pat (l ++ sep ++ t) = (find pat t).map ((l ++ sep).length + ·) :=
  find_behind fun _ hm => not_prefix_across hpat hne hsep h t hm

theorem find_past_lines {pat sep : List α} (hpat : pat ≠ []) (hne : sep ≠ [])
    (hsep : ∀ x ∈ sep, x ∉ pat) (ls : List (List α)) (h : ∀ l ∈ ls, find pat l = none) (t : List α) :
    find pat (ls.flatMap (· ++ sep) ++ t) =
      (find pat t).map ((ls.flatMap (· ++ sep)).length + ·) := by
  induction ls with
  | nil => simp
  | cons l ls ih =>
    rw [List.flatMap_cons,List.append_assoc,find_past hpat hne hsep (h l (by simp)),
      ih fun k hk => h k (by simp [hk]),Option.map_map]
    refine congrArg (Option.map · _) (funext fun n => ?_)
    simp [Nat.add_assoc]

theorem find_extend {pat q s : List α} {n : Nat} (h : find pat s = some n)
    (hq : pat ++ q <+: s.drop n) : find (pat ++ q) s = some n := by
  obtain ⟨hn,-,hm⟩ := find_eq_some.mp h
  refine find_eq_some.mpr ⟨hn,hq,fun m hlt hp => hm m hlt ?_⟩
  exact (List.prefix_append _ _).trans hp

theorem find_drop {pat s : List α} {n k : Nat} (h : find pat s = some n) (hk : k ≤ n) :
    find pat (s.drop k) = some (n - k) := by
  obtain ⟨hn,hp,hm⟩ := find_eq_some.mp h
  refine find_eq_some.mpr ⟨by rw [List.length_drop]; omega,?_,fun m hlt hpre => ?_⟩
  · rwa [List.drop_drop,Nat.add_sub_cancel' hk]
  · rw [List.drop_drop] at hpre
    exact hm (k + m) (by omega) hpre

theorem find_none_iff_absent {pat s : List α} (hpat : pat ≠ []) : find pat s = none ↔ ¬ pat <:+: s := by
  rw [find_eq_none]
  constructor
  · rintro h ⟨a,b,rfl⟩
    have hpos := List.length_pos_iff.mpr hpat
    refine h a.length (by simp; omega) ?_
    rw [List.append_assoc,List.drop_left]
    exact List.prefix_append _ _
  · intro h n _ hp
    exact h (hp.isInfix.trans (List.drop_suffix n s).isInfix)

theorem find_singleton {a : α} {s : List α} :
    (find [a] s = none ∧ s.dropWhile (· != a) = []) ∨
      ∃ n, find [a] s = some n ∧ s.drop n = s.dropWhile (· != a) := by
  induction s with
  | nil => exact .inl ⟨rfl,rfl⟩
  | cons b s ih =>
    by_cases hb : a = b
    · subst hb
      exact .inr ⟨0,by simp [find,findSuffix],by simp⟩
    · have hstep : find [a] (b :: s) = (find [a] s).map (· + 1) := by simp [find,findSuffix,hb]
      have hdrop : (b :: s).dropWhile (· != a) = s.dropWhile (· != a) := by simp [Ne.symm hb]
      rw [hstep,hdrop]
      rcases ih with ⟨hn,hd⟩ | ⟨n,hn,hd⟩
      · exact .inl ⟨by rw [hn]; rfl,hd⟩
      · exact .inr ⟨n + 1,by rw [hn]; rfl,hd⟩

theorem find_singleton_none {a : α} {s : List α} : find [a] s = none ↔ a ∉ s := by
  rw [find_none_iff_absent (List.cons_ne_nil a []),List.singleton_infix_iff]

theorem find_first {a : α} {u : List α} (hu : a ∉ u) (x : List α) : find [a] (u ++ a :: x) = some u.length := by
  refine find_eq_some.mpr ⟨by simp,by simp,fun m hm hp => hu ?_⟩
  rw [List.drop_append_of_le_length (by omega),List.drop_eq_getElem_cons hm,List.cons_append] at hp
  rw [(List.cons_prefix_cons.mp hp).1]
  exact List.getElem_mem hm

theorem split_first {a : α} {u v x y : List α} (hu : a ∉ u) (hv : a ∉ v) :
    u ++ a :: x = v ++ a :: y ↔ u = v ∧ x = y := by
  constructor
  · intro h
    have hlen := congrArg (find [a]) h
    rw [find_first hu,find_first hv,Option.some.injEq] at hlen
    obtain ⟨rfl,hrest⟩ := List.append_inj h hlen
    exact ⟨rfl,List.tail_eq_of_cons_eq hrest⟩
  · rintro ⟨rfl,rfl⟩
    rfl

theorem find_split {pat s : List α} {n : Nat} (h : find pat s = some n) :
    s = s.take n ++ pat ++ s.drop (n + pat.length) := by
  obtain ⟨-,⟨t,ht⟩,-⟩ := find_eq_some.mp h
  have hd : s.drop (n + pat.length) = t := by
    rw [← List.drop_drop,← ht,List.drop_left]
  rw [hd,List.append_assoc,ht,List.take_append_drop]

end Search

import RpiVms.Library.Search

namespace Replace

open Search

variable {α : Type} [DecidableEq α]

def replaceLoop (pat rep : List α) : Nat → List α → List α
  | 0, s => s
  | fuel + 1, s =>
      match find pat s with
      | none => s
      | some n => s.take n ++ rep ++ replaceLoop pat rep fuel (s.drop (n + pat.length))

def replaceAll (pat rep s : List α) : List α :=
  if pat.isEmpty then s else replaceLoop pat rep s.length s

theorem replaceLoop_fuel {pat : List α} (rep : List α) (hpat : pat ≠ []) (f g : Nat) (s : List α)
    (hf : s.length ≤ f) (hg : s.length ≤ g) : replaceLoop pat rep f s = replaceLoop pat rep g s := by
  have hpos : 0 < pat.length := List.length_pos_iff.mpr hpat
  induction f generalizing g s with
  | zero =>
    have hs : s = [] := List.eq_nil_of_length_eq_zero (by omega)
    subst hs
    cases g <;> simp [replaceLoop,find,findSuffix]
  | succ f ih =>
    cases g with
    | zero =>
      have hs : s = [] := List.eq_nil_of_length_eq_zero (by omega)
      subst hs
      simp [replaceLoop,find,findSuffix]
    | succ g =>
      simp only [replaceLoop]
      cases hn : find pat s with
      | none => rfl
      | some n =>
        have hle := find_le hn
        have hlen : (s.drop (n + pat.length)).length ≤ f ∧ (s.drop (n + pat.length)).length ≤ g := by
          rw [List.length_drop]; omega
        simp only [ih g _ hlen.1 hlen.2]

section

variable {pat rep s : List α}

@[simp]
theorem replaceAll_nil_pat (rep s : List α) : replaceAll [] rep s = s := rfl

theorem replaceAll_of_none (h : find pat s = none) : replaceAll pat rep s = s := by
  unfold replaceAll
  split
  · rfl
  · cases hl : s.length with
    | zero => rfl
    | succ n => simp [replaceLoop,h]

@[simp]
theorem replaceAll_nil (pat rep : List α) : replaceAll pat rep [] = [] :=
  replaceAll_of_none rfl

theorem replaceAll_of_some (hpat : pat ≠ []) {n : Nat} (h : find pat s = some n) :
    replaceAll pat rep s = s.take n ++ rep ++ replaceAll pat rep (s.drop (n + pat.length)) := by
  have hpos : 0 < pat.length := List.length_pos_iff.mpr hpat
  have hle := find_le h
  obtain ⟨k,hk⟩ : ∃ k, s.length = k + 1 := ⟨s.length - 1,by omega⟩
  have hr := replaceLoop_fuel rep hpat k (s.drop (n + pat.length)).length
    (s.drop (n + pat.length)) (by rw [List.length_drop]; omega) le_rfl
  have he : pat.isEmpty = false := by cases pat <;> simp_all
  simp only [replaceAll,he,hk,replaceLoop,h,hr,Bool.false_eq_true,if_false]

end

theorem replaceAll_induction {pat : List α} (hpat : pat ≠ []) {motive : List α → Prop}
    (none : ∀ s, find pat s = none → motive s)
    (some : ∀ s n, find pat s = some n → motive (s.drop (n + pat.length)) → motive s)
    (s : List α) : motive s := by
  have hpos : 0 < pat.length := List.length_pos_iff.mpr hpat
  generalize hk : s.length = k
  induction k using Nat.strongRecOn generalizing s with
  | ind k ih =>
    cases h : find pat s with
    | none => exact none s h
    | some n =>
      have hle := find_le h
      exact some s n h (ih _ (by rw [List.length_drop]; omega) _ rfl)

theorem replaceAll_sep {pat rep sep : List α} (hne : sep ≠ []) (hsep : ∀ x ∈ sep, x ∉ pat) (l t : List α) :
    replaceAll pat rep (l ++ sep ++ t) = replaceAll pat rep l ++ sep ++ replaceAll pat rep t := by
  by_cases hpat : pat = []
  · subst hpat
    simp
  induction l using replaceAll_induction hpat with
  | none l hl =>
    have hpast := find_past hpat hne hsep hl t
    rw [replaceAll_of_none hl]
    cases ht : find pat t with
    | none =>
      rw [ht] at hpast
      rw [replaceAll_of_none ht,replaceAll_of_none hpast]
    | some n =>
      rw [ht] at hpast
      rw [replaceAll_of_some hpat ht,replaceAll_of_some hpat hpast,
        List.take_length_add_append,Nat.add_assoc,List.drop_length_add_append]
      simp only [List.append_assoc]
  | some l n hl ih =>
    have hle := find_le hl
    rw [replaceAll_of_some hpat hl,replaceAll_of_some hpat (by
      rw [List.append_assoc]; exact find_append hl (sep ++ t))]
    rw [List.append_assoc l,List.take_append_of_le_length (by omega),
      List.drop_append_of_le_length (by omega),← List.append_assoc (l.drop _),ih]
    simp only [List.append_assoc]

theorem replaceAll_lines {pat rep sep : List α} (hne : sep ≠ []) (hsep : ∀ x ∈ sep, x ∉ pat)
    (ls : List (List α)) (t : List α) :
    replaceAll pat rep (ls.flatMap (· ++ sep) ++ t) =
      (ls.map (replaceAll pat rep)).flatMap (· ++ sep) ++ replaceAll pat rep t := by
  induction ls with
  | nil => rfl
  | cons l ls ih =>
    rw [List.flatMap_cons,List.append_assoc,replaceAll_sep hne hsep,ih]
    simp

theorem replaceAll_ne_nil {pat rep s : List α} (hrep : rep ≠ []) (hs : s ≠ []) :
    replaceAll pat rep s ≠ [] := by
  by_cases hpat : pat = []
  · rwa [hpat,replaceAll_nil_pat]
  cases h : find pat s with
  | none => rwa [replaceAll_of_none h]
  | some n =>
    rw [replaceAll_of_some hpat h]
    simp [hrep]

def occurrencesLoop (pat : List α) : Nat → List α → Nat
  | 0, _ => 0
  | fuel + 1, s =>
      match find pat s with
      | none => 0
      | some n => occurrencesLoop pat fuel (s.drop (n + pat.length)) + 1

def occurrences (pat s : List α) : Nat :=
  if pat.isEmpty then 0 else occurrencesLoop pat s.length s

theorem length_replaceLoop (pat rep : List α) (fuel : Nat) (s : List α) :
    (replaceLoop pat rep fuel s).length + occurrencesLoop pat fuel s * pat.length =
      s.length + occurrencesLoop pat fuel s * rep.length := by
  induction fuel generalizing s with
  | zero => simp [replaceLoop,occurrencesLoop]
  | succ fuel ih =>
    simp only [replaceLoop,occurrencesLoop]
    cases h : find pat s with
    | none => simp
    | some n =>
      have hle := find_le h
      have hrest := ih (s.drop (n + pat.length))
      simp only [List.length_append,List.length_take,List.length_drop,Nat.add_mul,Nat.one_mul]
        at hrest ⊢
      omega

theorem length_replaceAll (pat rep s : List α) :
    ((replaceAll pat rep s).length : Int) =
      s.length + occurrences pat s * ((rep.length : Int) - pat.length) := by
  unfold replaceAll occurrences
  split
  · simp
  · have h := length_replaceLoop pat rep s.length s
    rw [Int.mul_sub]
    omega

end Replace

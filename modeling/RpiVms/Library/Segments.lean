import RpiVms.Library.Search

namespace Segments

open Search

variable {α : Type} [DecidableEq α]

def segmentsLoop (sep : List α) : Nat → List α → List (List α) × List α
  | 0, s => ([],s)
  | fuel + 1, s =>
      match find sep s with
      | none => ([],s)
      | some n =>
          let r := segmentsLoop sep fuel (s.drop (n + sep.length))
          (s.take n :: r.1,r.2)

def segments (sep s : List α) : List (List α) × List α := segmentsLoop sep s.length s

theorem segmentsLoop_fuel (sep : List α) (hsep : sep ≠ []) (f g : Nat) (s : List α)
    (hf : s.length ≤ f) (hg : s.length ≤ g) : segmentsLoop sep f s = segmentsLoop sep g s := by
  have hpos : 0 < sep.length := List.length_pos_iff.mpr hsep
  induction f generalizing g s with
  | zero =>
    have hs : s = [] := List.eq_nil_of_length_eq_zero (by omega)
    subst hs
    cases g <;> simp [segmentsLoop,find,findSuffix]
  | succ f ih =>
    cases g with
    | zero =>
      have hs : s = [] := List.eq_nil_of_length_eq_zero (by omega)
      subst hs
      simp [segmentsLoop,find,findSuffix]
    | succ g =>
      simp only [segmentsLoop]
      cases hn : find sep s with
      | none => rfl
      | some n =>
        have hle := find_le hn
        have hlen : (s.drop (n + sep.length)).length ≤ f ∧ (s.drop (n + sep.length)).length ≤ g := by
          rw [List.length_drop]; omega
        simp only [ih g _ hlen.1 hlen.2]

theorem segments_of_none {sep s : List α} (h : find sep s = none) :
    segments sep s = ([],s) := by
  unfold segments
  cases hl : s.length with
  | zero => rfl
  | succ n => simp [segmentsLoop,h]

theorem segments_of_some {sep s : List α} (hsep : sep ≠ []) {n : Nat} (h : find sep s = some n) :
    segments sep s = (s.take n :: (segments sep (s.drop (n + sep.length))).1,
      (segments sep (s.drop (n + sep.length))).2) := by
  have hpos : 0 < sep.length := List.length_pos_iff.mpr hsep
  have hle := find_le h
  obtain ⟨k,hk⟩ : ∃ k, s.length = k + 1 := ⟨s.length - 1,by omega⟩
  have hr := segmentsLoop_fuel sep hsep k (s.drop (n + sep.length)).length
    (s.drop (n + sep.length)) (by rw [List.length_drop]; omega) le_rfl
  unfold segments
  rw [hk,segmentsLoop,h]
  simp only [hr]

def Clean (sep l : List α) : Prop := find sep (l ++ sep) = some l.length

instance (sep l : List α) : Decidable (Clean sep l) := by unfold Clean; infer_instance

theorem Clean.of_find {sep s : List α} (hsep : sep ≠ []) {n : Nat} (h : find sep s = some n) :
    Clean sep (s.take n) := by
  have hpos : 0 < sep.length := List.length_pos_iff.mpr hsep
  have hle := find_le h
  obtain ⟨-,-,hm⟩ := find_eq_some.mp h
  have hpre : s.take n ++ sep <+: s := ⟨_,(find_split h).symm⟩
  refine find_eq_some.mpr ⟨by simp; omega,by simp,?_⟩
  intro m hlt hc
  exact hm m (by simp at hlt; omega) (hc.trans (hpre.drop m))

theorem segments_append {sep l : List α} (hsep : sep ≠ []) (h : Clean sep l) (s : List α) :
    segments sep (l ++ sep ++ s) = (l :: (segments sep s).1,(segments sep s).2) := by
  rw [segments_of_some hsep (find_append h s)]
  simp [List.append_assoc]

theorem segments_lines {sep : List α} (hsep : sep ≠ []) (ls : List (List α))
    (h : ∀ l ∈ ls, Clean sep l) (s : List α) :
    segments sep (ls.flatMap (· ++ sep) ++ s) =
      (ls ++ (segments sep s).1,(segments sep s).2) := by
  induction ls with
  | nil => simp
  | cons l ls ih =>
    rw [List.flatMap_cons,List.append_assoc,segments_append hsep (h l (by simp)),
      ih (fun k hk => h k (by simp [hk]))]
    rfl

theorem segments_induction {sep : List α} (hsep : sep ≠ []) {motive : List α → Prop}
    (last : ∀ s, find sep s = none → motive s)
    (line : ∀ s n, find sep s = some n → motive (s.drop (n + sep.length)) → motive s) (s : List α) : motive s := by
  generalize hk : s.length = k
  induction k using Nat.strongRecOn generalizing s with
  | ind k ih =>
    cases h : find sep s with
    | none => exact last s h
    | some n =>
      have hpos : 0 < sep.length := List.length_pos_iff.mpr hsep
      have hle := find_le h
      exact line s n h (ih _ (by rw [List.length_drop]; omega) _ rfl)

theorem segments_clean {sep : List α} (hsep : sep ≠ []) (s : List α) :
    ∀ l ∈ (segments sep s).1, Clean sep l := by
  induction s using segments_induction hsep with
  | last s h => simp [segments_of_none h]
  | line s n h ih =>
    rw [segments_of_some hsep h]
    intro l hl
    rcases List.mem_cons.mp hl with rfl | hl
    · exact Clean.of_find hsep h
    · exact ih l hl

theorem segments_join {sep : List α} (hsep : sep ≠ []) (s : List α) :
    (segments sep s).1.flatMap (· ++ sep) ++ (segments sep s).2 = s := by
  induction s using segments_induction hsep with
  | last s h => simp [segments_of_none h]
  | line s n h ih =>
    rw [segments_of_some hsep h,List.flatMap_cons,List.append_assoc,ih]
    exact (find_split h).symm

theorem segments_rest {sep : List α} (hsep : sep ≠ []) (s : List α) : find sep (segments sep s).2 = none := by
  induction s using segments_induction hsep with
  | last s h => rwa [segments_of_none h]
  | line s n h ih => rwa [segments_of_some hsep h]

end Segments

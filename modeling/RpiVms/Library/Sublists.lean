import Mathlib.Data.List.Basic

namespace Sublists

variable {α : Type}

structure LongestSuffix (P : List α → Prop) (s l : List α) : Prop where
  suffix : s <:+ l
  fits : P s
  longest : ∀ t, t <:+ l → P t → t <:+ s

section

variable {P : List α → Prop} {s l : List α} {a : α}

theorem LongestSuffix.self (h : P l) : LongestSuffix P l l := ⟨List.suffix_refl l,h,fun _ ht _ => ht⟩

theorem LongestSuffix.cons (h : LongestSuffix P s l) (ha : ¬ P (a :: l)) : LongestSuffix P s (a :: l) := by
  refine ⟨h.suffix.trans (List.suffix_cons a l),h.fits,fun t ht hp => ?_⟩
  rcases List.suffix_cons_iff.mp ht with rfl | ht
  · exact absurd hp ha
  · exact h.longest t ht hp

theorem LongestSuffix.eq_iff (h : LongestSuffix P s l) : s.length = l.length ↔ s = l :=
  ⟨fun he => h.suffix.eq_of_length he,fun he => congrArg List.length he⟩

end

inductive Slices : List α → List (List α) → Prop
  | nil (rest : List α) : Slices rest []
  | cons (gap part : List α) {rest : List α} {parts : List (List α)} :
      Slices rest parts → Slices (gap ++ (part ++ rest)) (part :: parts)

namespace Slices

variable {l : List α} {parts : List (List α)}

theorem after (h : Slices l parts) (gap : List α) : Slices (gap ++ l) parts := by
  cases h with
  | nil => exact .nil _
  | cons g part h =>
    rw [← List.append_assoc]
    exact .cons (gap ++ g) part h

theorem whole (l : List α) : Slices l [l] := by
  simpa using Slices.cons [] l (.nil [])

theorem length_le (h : Slices l parts) : parts.flatten.length ≤ l.length := by
  induction h with
  | nil rest => exact Nat.zero_le _
  | cons gap part _ ih =>
    simp only [List.flatten_cons,List.length_append]
    omega

end Slices

end Sublists

import Mathlib.Logic.Function.Basic

namespace Ownership

variable {κ ω τ : Type}

structure Exact (table : κ → Option τ) (kind : ω → τ) (holds : ω → Option κ) : Prop where
  held : ∀ k t, table k = some t → ∃ o, holds o = some k
  opened : ∀ o k, holds o = some k → table k = some (kind o)
  alone : ∀ o o' k, holds o = some k → holds o' = some k → o = o'

section

variable {table : κ → Option τ} {kind : ω → τ} {holds : ω → Option κ}

theorem exact_empty : Exact (fun _ => none) kind (fun _ => none : ω → Option κ) :=
  ⟨by simp,by simp,by simp⟩

end

section

variable [DecidableEq κ] [DecidableEq ω] {table : κ → Option τ} {kind : ω → τ} {holds : ω → Option κ} {o o' : ω} {k : κ}

theorem Exact.acquire (h : Exact table kind holds) (hk : table k = none) (ho : holds o = none) :
    Exact (Function.update table k (some (kind o))) kind (Function.update holds o (some k)) where
  held j t hj := by
    by_cases he : j = k
    · subst he
      exact ⟨o,by simp⟩
    · rw [Function.update_of_ne he] at hj
      obtain ⟨p,hp⟩ := h.held j t hj
      have hne : p ≠ o := fun hpo => by simp [hpo ▸ hp] at ho
      exact ⟨p,by rwa [Function.update_of_ne hne]⟩
  opened p j hp := by
    by_cases hpo : p = o
    · subst hpo
      rw [Function.update_self] at hp
      cases hp
      simp
    · rw [Function.update_of_ne hpo] at hp
      have hopen := h.opened p j hp
      have hne : j ≠ k := fun hjk => by simp [hjk ▸ hk] at hopen
      rwa [Function.update_of_ne hne]
  alone p q j hp hq := by
    have hfresh : ∀ p, holds p ≠ some k := fun p hp => by simp [h.opened p k hp] at hk
    by_cases hpo : p = o <;> by_cases hqo : q = o
    · rw [hpo,hqo]
    · subst hpo
      rw [Function.update_self] at hp
      rw [Function.update_of_ne hqo,← hp] at hq
      exact absurd hq (hfresh q)
    · subst hqo
      rw [Function.update_self] at hq
      rw [Function.update_of_ne hpo,← hq] at hp
      exact absurd hp (hfresh p)
    · rw [Function.update_of_ne hpo] at hp
      rw [Function.update_of_ne hqo] at hq
      exact h.alone p q j hp hq

theorem Exact.release (h : Exact table kind holds) (ho : holds o = some k) :
    Exact (Function.update table k none) kind (Function.update holds o none) where
  held j t hj := by
    have hne : j ≠ k := fun he => by simp [he] at hj
    rw [Function.update_of_ne hne] at hj
    obtain ⟨p,hp⟩ := h.held j t hj
    have hpo : p ≠ o := fun he => hne (Option.some.inj ((he ▸ hp).symm.trans ho))
    exact ⟨p,by rwa [Function.update_of_ne hpo]⟩
  opened p j hp := by
    have hpo : p ≠ o := fun he => by simp [he] at hp
    rw [Function.update_of_ne hpo] at hp
    have hne : j ≠ k := fun he => hpo (h.alone p o k (he ▸ hp) ho)
    rw [Function.update_of_ne hne]
    exact h.opened p j hp
  alone p q j hp hq := by
    have hpo : p ≠ o := fun he => by simp [he] at hp
    have hqo : q ≠ o := fun he => by simp [he] at hq
    rw [Function.update_of_ne hpo] at hp
    rw [Function.update_of_ne hqo] at hq
    exact h.alone p q j hp hq

theorem Exact.pass (h : Exact table kind holds) (ho : holds o = some k) (ho' : holds o' = none)
    (hkind : kind o' = kind o) :
    Exact table kind (Function.update (Function.update holds o none) o' (some k)) := by
  have hback := (h.release ho).acquire (o := o') (k := k) (by simp) (by
    by_cases he : o' = o
    · simp [he]
    · rwa [Function.update_of_ne he])
  rwa [Function.update_idem,hkind,← h.opened o k ho,Function.update_eq_self] at hback

end

end Ownership

import Mathlib.Data.List.Basic

namespace Scan

variable {α β : Type}

-- from left to right: where f applies, what it gives and the text it goes on with; elsewhere one element through g
def scanLoop (f : List α → Option (List β × List α)) (g : α → β) : Nat → List α → List β
  | 0,_ => []
  | _ + 1,[] => []
  | fuel + 1,a :: s =>
      match f (a :: s) with
      | some (out,rest) => out ++ scanLoop f g fuel rest
      | none => g a :: scanLoop f g fuel s

def scan (f : List α → Option (List β × List α)) (g : α → β) (s : List α) : List β := scanLoop f g s.length s

def Consumes (f : List α → Option (List β × List α)) : Prop :=
  ∀ s out rest, f s = some (out,rest) → rest.length < s.length

section

variable {f : List α → Option (List β × List α)} {g : α → β} {a : α} {s t rest : List α} {out : List β}

theorem scanLoop_fuel (hf : Consumes f) (m n : Nat) (s : List α) (hm : s.length ≤ m) (hn : s.length ≤ n) :
    scanLoop f g m s = scanLoop f g n s := by
  induction m generalizing n s with
  | zero =>
    obtain rfl := List.eq_nil_of_length_eq_zero (Nat.le_zero.mp hm)
    cases n <;> rfl
  | succ m ih =>
    cases s with
    | nil => cases n <;> rfl
    | cons a s =>
      rw [List.length_cons] at hm hn
      obtain ⟨n,rfl⟩ : ∃ k, n = k + 1 := ⟨n - 1,by omega⟩
      rw [scanLoop,scanLoop]
      cases h : f (a :: s) with
      | none => exact congrArg _ (ih n s (by omega) (by omega))
      | some r =>
        have hlt := hf _ r.1 r.2 h
        rw [List.length_cons] at hlt
        exact congrArg _ (ih n r.2 (by omega) (by omega))

theorem scan_nil : scan f g [] = [] := rfl

theorem scan_some (hf : Consumes f) (h : f s = some (out,rest)) : scan f g s = out ++ scan f g rest := by
  have hlt := hf _ _ _ h
  cases s with
  | nil => exact absurd hlt (Nat.not_lt_zero _)
  | cons a s =>
    rw [scan,List.length_cons,scanLoop,h]
    rw [List.length_cons] at hlt
    exact congrArg _ (scanLoop_fuel hf _ _ rest (by omega) (Nat.le_refl _))

theorem scan_none (h : f (a :: s) = none) : scan f g (a :: s) = g a :: scan f g s := by
  rw [scan,List.length_cons,scanLoop,h]
  rfl

theorem scan_skip (w : List α) (h : ∀ i < w.length, f ((w ++ t).drop i) = none) :
    scan f g (w ++ t) = w.map g ++ scan f g t := by
  induction w with
  | nil => rfl
  | cons a w ih =>
    have h0 : f (a :: (w ++ t)) = none := h 0 (by simp)
    rw [List.cons_append,scan_none h0,ih fun i hi => h (i + 1) (by simpa using hi)]
    rfl

theorem scan_induction (hf : Consumes f) {motive : List α → Prop} (nil : motive [])
    (found : ∀ s out rest, f s = some (out,rest) → motive rest → motive s)
    (skip : ∀ a s, f (a :: s) = none → motive s → motive (a :: s)) (s : List α) : motive s := by
  induction hl : s.length using Nat.strongRecOn generalizing s with
  | ind n ih =>
    cases s with
    | nil => exact nil
    | cons a s =>
      cases h : f (a :: s) with
      | none => exact skip a s h (ih s.length (by rw [← hl]; simp) s rfl)
      | some r => exact found _ r.1 r.2 h (ih r.2.length (hl ▸ hf _ _ _ h) r.2 rfl)

end

end Scan

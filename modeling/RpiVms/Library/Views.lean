import Mathlib.Data.List.Basic

namespace Views

section

variable {σ α ε β ω μ : Type} (step : σ → α → Option (List ε × σ)) (seen : σ → α → List β)
  (out : α → List ε → σ → List ω) (lone : μ → β → List ω × μ)

def trace : σ → List α → List β
  | _,[] => []
  | s,a :: as =>
      match step s a with
      | none => trace s as
      | some (_,t) => seen s a ++ trace t as

def observed : σ → List α → List ω
  | _,[] => []
  | s,a :: as =>
      match step s a with
      | none => observed s as
      | some (events,t) => out a events t ++ observed t as

def replay : μ → List β → List ω × μ
  | m,[] => ([],m)
  | m,b :: bs =>
      let r := lone m b
      let rest := replay r.2 bs
      (r.1 ++ rest.1,rest.2)

theorem replay_append (m : μ) (bs cs : List β) :
    replay lone m (bs ++ cs) =
      ((replay lone m bs).1 ++ (replay lone (replay lone m bs).2 cs).1,
        (replay lone (replay lone m bs).2 cs).2) := by
  induction bs generalizing m with
  | nil => rfl
  | cons b bs ih => simp [replay,ih]

variable {step seen out lone}

structure Replays (step : σ → α → Option (List ε × σ)) (seen : σ → α → List β)
    (out : α → List ε → σ → List ω) (lone : μ → β → List ω × μ) (R : σ → μ → Prop) : Prop where
  next : ∀ {s m a events t}, R s m → step s a = some (events,t) →
    R t (replay lone m (seen s a)).2 ∧ out a events t = (replay lone m (seen s a)).1

theorem Replays.observed_eq {R : σ → μ → Prop} (h : Replays step seen out lone R) {s : σ} {m : μ}
    (hr : R s m) (actions : List α) :
    observed step out s actions = (replay lone m (trace step seen s actions)).1 := by
  induction actions generalizing s m with
  | nil => rfl
  | cons a as ih =>
    unfold observed trace
    cases hs : step s a with
    | none => exact ih hr
    | some r =>
      obtain ⟨hnext,hout⟩ := h.next hr hs
      simp only [replay_append,hout,ih hnext]

end

end Views

import Mathlib.Data.List.Infix

namespace Framing

variable {α : Type}

inductive Outcome (α : Type) where
  | unit (u rest : List α)
  | wait (rest : List α)
  deriving DecidableEq, Repr

def drainLoop (extract : List α → Option (Outcome α)) :
    Nat → List α → Option (List (List α) × List α)
  | 0, _ => none
  | fuel + 1, buf =>
      match extract buf with
      | none => none
      | some (.wait rest) => some ([],rest)
      | some (.unit u rest) => (drainLoop extract fuel rest).map fun r => (u :: r.1,r.2)

def drain (extract : List α → Option (Outcome α)) (buf : List α) :
    Option (List (List α) × List α) :=
  drainLoop extract (buf.length + 1) buf

def feed (extract : List α → Option (Outcome α)) :
    List α → List (List α) → Option (List (List α) × List α)
  | buf, [] => some ([],buf)
  | buf, c :: cs =>
      (drain extract (buf ++ c)).bind fun r =>
        (feed extract r.2 cs).map fun q => (r.1 ++ q.1,q.2)

theorem drain_head {extract : List α → Option (Outcome α)} {buf u rest : List α}
    {us : List (List α)} (h : drain extract buf = some (u :: us,rest)) :
    ∃ b, extract buf = some (.unit u b) := by
  simp only [drain,drainLoop] at h
  split at h
  · simp at h
  · simp at h
  · rename_i v b hv
    simp only [Option.map_eq_some_iff,Prod.mk.injEq,List.cons.injEq] at h
    obtain ⟨r,-,⟨rfl,-⟩,-⟩ := h
    exact ⟨b,hv⟩

structure Frames (extract : List α → Option (Outcome α)) (U : List α → Prop) : Prop where
  ne_nil : ∀ {u}, U u → u ≠ []
  whole : ∀ {u} (rest : List α), U u → extract (u ++ rest) = some (.unit u rest)
  cut : ∀ {u p}, U u → p <+: u → p ≠ u → extract p = some (.wait p)
  empty : extract [] = some (.wait [])

def Pending (us : List (List α)) (p : List α) : Prop :=
  p = [] ∨ ∃ u vs, us = u :: vs ∧ p <+: u ∧ p ≠ u

theorem pending_extract {extract : List α → Option (Outcome α)} {U : List α → Prop}
    (hx : Frames extract U) {us : List (List α)} {p : List α} (hus : ∀ u ∈ us, U u)
    (hp : Pending us p) : extract p = some (.wait p) := by
  rcases hp with rfl | ⟨u,vs,rfl,hpre,hne⟩
  · exact hx.empty
  · exact hx.cut (hus u (by simp)) hpre hne

theorem drainLoop_units {extract : List α → Option (Outcome α)} {U : List α → Prop}
    (hx : Frames extract U) (us : List (List α)) (p : List α) (hus : ∀ u ∈ us, U u)
    (hp : extract p = some (.wait p)) (fuel : Nat) (hf : us.length < fuel) :
    drainLoop extract fuel (us.flatten ++ p) = some (us,p) := by
  induction us generalizing fuel with
  | nil =>
    obtain ⟨k,rfl⟩ : ∃ k, fuel = k + 1 := ⟨fuel - 1,by simp at hf; omega⟩
    simp [drainLoop,hp]
  | cons u us ih =>
    obtain ⟨k,rfl⟩ : ∃ k, fuel = k + 1 := ⟨fuel - 1,by simp at hf; omega⟩
    have hu := hx.whole (us.flatten ++ p) (hus u (by simp))
    have hr := ih (fun v hv => hus v (by simp [hv])) k (by simpa using hf)
    simp [drainLoop,hu,hr]

theorem length_le_flatten {U : List α → Prop} (hU : ∀ {u}, U u → u ≠ [])
    (us : List (List α)) (hus : ∀ u ∈ us, U u) : us.length ≤ us.flatten.length := by
  induction us with
  | nil => simp
  | cons u us ih =>
    have hu := List.length_pos_iff.mpr (hU (hus u (by simp)))
    have hr := ih (fun v hv => hus v (by simp [hv]))
    simp only [List.flatten_cons,List.length_append,List.length_cons]
    omega

theorem drain_units {extract : List α → Option (Outcome α)} {U : List α → Prop}
    (hx : Frames extract U) (us : List (List α)) (p : List α) (hus : ∀ u ∈ us, U u)
    (hp : extract p = some (.wait p)) : drain extract (us.flatten ++ p) = some (us,p) := by
  apply drainLoop_units hx us p hus hp
  have := length_le_flatten hx.ne_nil us hus
  simp only [List.length_append]
  omega

theorem prefix_flatten_split (us : List (List α)) (b : List α) (h : b <+: us.flatten) :
    ∃ vs ws p, us = vs ++ ws ∧ b = vs.flatten ++ p ∧ Pending ws p := by
  induction us generalizing b with
  | nil =>
    have hb : b = [] := List.prefix_nil.mp h
    exact ⟨[],[],[],rfl,by simp [hb],.inl rfl⟩
  | cons u us ih =>
    by_cases hl : u.length ≤ b.length
    · have hu : u <+: b := List.prefix_of_prefix_length_le (by simp) h hl
      obtain ⟨t,rfl⟩ := hu
      have ht : t <+: us.flatten := by
        simpa [List.prefix_append_right_inj] using h
      obtain ⟨vs,ws,p,rfl,rfl,hp⟩ := ih t ht
      exact ⟨u :: vs,ws,p,rfl,by simp,hp⟩
    · have hb : b <+: u := List.prefix_of_prefix_length_le h (by simp) (by omega)
      refine ⟨[],u :: us,b,rfl,by simp,.inr ⟨u,us,rfl,hb,?_⟩⟩
      intro he
      exact hl (by rw [he])

theorem extract_next {extract : List α → Option (Outcome α)} {U : List α → Prop}
    (hx : Frames extract U) {us : List (List α)} {buf : List α} (hus : ∀ u ∈ us, U u)
    (hb : buf <+: us.flatten) :
    extract buf = some (.wait buf) ∧ Pending us buf ∨
      ∃ u vs rest, us = u :: vs ∧ buf = u ++ rest ∧ extract buf = some (.unit u rest) := by
  obtain ⟨vs,ws,p,rfl,rfl,hp⟩ := prefix_flatten_split us buf hb
  cases vs with
  | nil => exact .inl ⟨pending_extract hx hus hp,hp⟩
  | cons v vs =>
    refine .inr ⟨v,vs ++ ws,vs.flatten ++ p,rfl,by simp,?_⟩
    simpa using hx.whole (vs.flatten ++ p) (hus v (by simp))

def Taken (us : List (List α)) (read : List α) (taken : List (List α)) (buf : List α) : Prop :=
  read = taken.flatten ++ buf ∧ ∃ waiting, us = taken ++ waiting

theorem Taken.next {extract : List α → Option (Outcome α)} {U : List α → Prop}
    (hx : Frames extract U) {us taken : List (List α)} {read buf u rest : List α} (hus : ∀ u ∈ us, U u)
    (hread : read <+: us.flatten) (h : Taken us read taken buf)
    (hu : extract buf = some (.unit u rest)) : Taken us read (taken ++ [u]) rest := by
  obtain ⟨rfl,waiting,rfl⟩ := h
  have hb : buf <+: waiting.flatten := by
    simpa [List.prefix_append_right_inj] using hread
  rcases extract_next hx (fun v hv => hus v (by simp [hv])) hb with ⟨hw,-⟩ | ⟨v,vs,r,rfl,rfl,hv⟩
  · rw [hw] at hu
    cases hu
  · rw [hv] at hu
    cases hu
    exact ⟨by simp,vs,by simp⟩

theorem Taken.waits {extract : List α → Option (Outcome α)} {U : List α → Prop}
    (hx : Frames extract U) {us taken : List (List α)} {read buf rest : List α} (hus : ∀ u ∈ us, U u)
    (hread : read <+: us.flatten) (h : Taken us read taken buf)
    (hw : extract buf = some (.wait rest)) :
    rest = buf ∧ ∃ waiting, us = taken ++ waiting ∧ Pending waiting buf := by
  obtain ⟨rfl,waiting,rfl⟩ := h
  have hb : buf <+: waiting.flatten := by
    simpa [List.prefix_append_right_inj] using hread
  rcases extract_next hx (fun v hv => hus v (by simp [hv])) hb with ⟨he,hp⟩ | ⟨v,vs,r,rfl,rfl,hv⟩
  · rw [he] at hw
    cases hw
    exact ⟨rfl,waiting,rfl,hp⟩
  · rw [hv] at hw
    cases hw

theorem pending_all {U : List α → Prop} (hU : ∀ {u}, U u → u ≠ []) {us : List (List α)}
    {p : List α} (hus : ∀ u ∈ us, U u) (hp : Pending us p) (he : p = us.flatten) :
    us = [] ∧ p = [] := by
  rcases hp with rfl | ⟨u,vs,rfl,hpre,hne⟩
  · have := length_le_flatten hU us hus
    rw [← he] at this
    exact ⟨List.eq_nil_of_length_eq_zero (by simpa using this),rfl⟩
  · refine absurd (hpre.eq_of_length_le ?_) hne
    simp [he]

theorem feed_pending {extract : List α → Option (Outcome α)} {U : List α → Prop}
    (hx : Frames extract U) (chunks us : List (List α)) (p : List α) (hus : ∀ u ∈ us, U u)
    (hp : Pending us p) (hc : p ++ chunks.flatten = us.flatten) :
    feed extract p chunks = some (us,[]) := by
  induction chunks generalizing us p with
  | nil =>
    obtain ⟨rfl,rfl⟩ := pending_all hx.ne_nil hus hp (by simpa using hc)
    rfl
  | cons c cs ih =>
    have hb : p ++ c <+: us.flatten := ⟨cs.flatten,by rw [← hc]; simp⟩
    obtain ⟨vs,ws,q,rfl,hq,hw⟩ := prefix_flatten_split us (p ++ c) hb
    have hvs : ∀ u ∈ vs, U u := fun u hu => hus u (by simp [hu])
    have hws : ∀ u ∈ ws, U u := fun u hu => hus u (by simp [hu])
    have hd := drain_units hx vs q hvs (pending_extract hx hws hw)
    have hrest : q ++ cs.flatten = ws.flatten := by
      have h' : (p ++ c) ++ cs.flatten = vs.flatten ++ ws.flatten := by
        simpa using hc
      rw [hq,List.append_assoc] at h'
      exact List.append_cancel_left h'
    simp [feed,hq,hd,ih ws q hws hw hrest]

theorem feed_units {extract : List α → Option (Outcome α)} {U : List α → Prop}
    (hx : Frames extract U) (us chunks : List (List α)) (hus : ∀ u ∈ us, U u)
    (hc : chunks.flatten = us.flatten) : feed extract [] chunks = some (us,[]) :=
  feed_pending hx chunks us [] hus (.inl rfl) (by simpa using hc)

end Framing

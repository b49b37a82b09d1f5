import Mathlib.Algebra.BigOperators.Group.Finset.Basic
import Mathlib.Algebra.BigOperators.Group.List.Basic
import Mathlib.Algebra.Order.BigOperators.Group.List
import Mathlib.Algebra.Order.Ring.Nat
import Mathlib.Logic.Function.Basic

namespace Attribution

open Finset

section

variable {α κ : Type} [DecidableEq κ]

theorem sum_map_set {l : List α} {i : Nat} {x : α} (h : l[i]? = some x) (f : α → Nat) (y : α) :
    ((l.set i y).map f).sum + f x = (l.map f).sum + f y := by
  induction l generalizing i with
  | nil => simp at h
  | cons z l ih =>
    cases i with
    | zero =>
      obtain rfl : z = x := by simpa using h
      simp only [List.set_cons_zero,List.map_cons,List.sum_cons]
      omega
    | succ i =>
      have := ih (by simpa using h)
      simp only [List.set_cons_succ,List.map_cons,List.sum_cons]
      omega

theorem sum_change {s : Finset κ} {k : κ} (hk : k ∈ s) {f g : κ → Nat} (h : ∀ l ≠ k, g l = f l) :
    ∑ l ∈ s, g l + f k = ∑ l ∈ s, f l + g k := by
  have hrest : ∑ l ∈ s.erase k, g l = ∑ l ∈ s.erase k, f l := sum_congr rfl fun l hl => h l (ne_of_mem_erase hl)
  rw [← add_sum_erase s g hk,← add_sum_erase s f hk,hrest]
  omega

end

inductive Work where
  | idle
  | read (before i : Nat)
  | bumped (before i : Nat)
  deriving DecidableEq, Repr

def Work.subject : Work → Option Nat
  | .idle => none
  | .read _ i => some i
  | .bumped _ i => some i

def Work.due (counters : List Nat) : Work → Nat
  | .idle => 0
  | .read _ _ => 0
  | .bumped before i => counters.getD i 0 - before

theorem Work.due_congr {w : Work} {counters others : List Nat}
    (h : ∀ i, w.subject = some i → others[i]? = counters[i]?) : w.due others = w.due counters := by
  cases w with
  | idle | read before i => rfl
  | bumped before i => rw [due,due,List.getD_eq_getElem?_getD,List.getD_eq_getElem?_getD,h i rfl]

structure Account (κ : Type) where
  counters : List Nat
  credited : Nat
  work : κ → Work

inductive Move {κ : Type} [DecidableEq κ] (workers : Finset κ) (a : Account κ) : Account κ → Prop
  | kept : Move workers a a
  | opened : Move workers a { a with counters := a.counters ++ [0] }
  | read (k : κ) (i n : Nat) : k ∈ workers → a.work k = .idle → a.counters[i]? = some n →
      Move workers a { a with work := Function.update a.work k (.read n i) }
  | bumped (k : κ) (before i n m : Nat) : a.work k = .read before i → a.counters[i]? = some n → n ≤ m →
      (∀ l ≠ k, (a.work l).subject ≠ some i) →
      Move workers a
        { a with counters := a.counters.set i m, work := Function.update a.work k (.bumped before i) }
  | credited (k : κ) (before i n : Nat) : a.work k = .bumped before i → a.counters[i]? = some n →
      Move workers a { a with credited := a.credited + (n - before), work := Function.update a.work k .idle }

structure Balanced {κ : Type} (workers : Finset κ) (a : Account κ) : Prop where
  idle : ∀ k ∉ workers, a.work k = .idle
  read : ∀ k before i, a.work k = .read before i → a.counters[i]? = some before
  bumped : ∀ k before i, a.work k = .bumped before i → ∃ n, a.counters[i]? = some n ∧ before ≤ n
  total : a.credited + ∑ k ∈ workers, (a.work k).due a.counters = a.counters.sum

section

variable {κ : Type} {workers : Finset κ} {a b : Account κ}

theorem Balanced.working (ha : Balanced workers a) {k : κ} {w : Work} (h : a.work k = w) (hw : w ≠ .idle) :
    k ∈ workers := by
  by_contra hk
  exact hw (h.symm.trans (ha.idle k hk))

theorem Balanced.settled (ha : Balanced workers a) (h : ∀ k, a.work k = .idle) : a.credited = a.counters.sum := by
  have hnone : ∑ k ∈ workers, (a.work k).due a.counters = 0 := sum_eq_zero fun k _ => by rw [h k]; rfl
  rw [← ha.total,hnone,Nat.add_zero]

theorem Balanced.subject_some (ha : Balanced workers a) {k : κ} {i : Nat} (h : (a.work k).subject = some i) :
    ∃ n, a.counters[i]? = some n := by
  cases hw : a.work k with
  | idle =>
    rw [hw] at h
    cases h
  | read before j =>
    rw [hw] at h
    cases h
    exact ⟨before,ha.read k before i hw⟩
  | bumped before j =>
    rw [hw] at h
    cases h
    obtain ⟨n,hn,-⟩ := ha.bumped k before i hw
    exact ⟨n,hn⟩

theorem Balanced.opened (ha : Balanced workers a) : Balanced workers { a with counters := a.counters ++ [0] } := by
  have hold {i n : Nat} (h : a.counters[i]? = some n) : (a.counters ++ [0])[i]? = some n := by
    rw [List.getElem?_append_left (List.getElem?_eq_some_iff.mp h).1]
    exact h
  have hdue (k : κ) : (a.work k).due (a.counters ++ [0]) = (a.work k).due a.counters := by
    refine Work.due_congr fun i hi => ?_
    obtain ⟨n,hn⟩ := ha.subject_some hi
    rw [hn,hold hn]
  refine ⟨ha.idle,fun k before i hw => hold (ha.read k before i hw),fun k before i hw => ?_,?_⟩
  · obtain ⟨n,hn,hle⟩ := ha.bumped k before i hw
    exact ⟨n,hold hn,hle⟩
  · simp only [hdue,List.sum_append,List.sum_singleton,Nat.add_zero]
    exact ha.total

variable [DecidableEq κ]

theorem Balanced.worked (ha : Balanced workers a) {k : κ} (hk : k ∈ workers) {w : Work} {counters : List Nat}
    {credited : Nat} (hothers : ∀ l ≠ k, ∀ i, (a.work l).subject = some i → counters[i]? = a.counters[i]?)
    (hread : ∀ before i, w = .read before i → counters[i]? = some before)
    (hbumped : ∀ before i, w = .bumped before i → ∃ n, counters[i]? = some n ∧ before ≤ n)
    (htotal : credited + w.due counters + a.counters.sum =
      a.credited + (a.work k).due a.counters + counters.sum) :
    Balanced workers ⟨counters,credited,Function.update a.work k w⟩ := by
  have hother {l : κ} (hl : l ≠ k) : Function.update a.work k w l = a.work l := Function.update_of_ne hl _ _
  have hself : Function.update a.work k w k = w := Function.update_self _ _ _
  refine ⟨fun l hl => ?_,fun l before i hw => ?_,fun l before i hw => ?_,?_⟩
  · dsimp only
    rw [hother fun he : l = k => hl (he ▸ hk)]
    exact ha.idle l hl
  · by_cases hl : l = k
    · subst hl
      exact hread before i (hself.symm.trans hw)
    · have hw' : a.work l = .read before i := (hother hl).symm.trans hw
      rw [hothers l hl i (by rw [hw']; rfl)]
      exact ha.read l before i hw'
  · by_cases hl : l = k
    · subst hl
      exact hbumped before i (hself.symm.trans hw)
    · have hw' : a.work l = .bumped before i := (hother hl).symm.trans hw
      rw [hothers l hl i (by rw [hw']; rfl)]
      exact ha.bumped l before i hw'
  · have hdue : ∀ l ≠ k, (Function.update a.work k w l).due counters = (a.work l).due a.counters := fun l hl => by
      rw [hother hl]
      exact Work.due_congr (hothers l hl)
    have hsum := sum_change hk hdue
    have := ha.total
    dsimp only
    rw [hself] at hsum
    omega

theorem Move.balanced (hm : Move workers a b) (ha : Balanced workers a) : Balanced workers b := by
  cases hm with
  | kept => exact ha
  | opened => exact ha.opened
  | read k i n hk hw hn =>
    refine ha.worked hk (fun _ _ _ _ => rfl) (fun before j h => ?_) (by simp) (by rw [hw]; rfl)
    cases h
    exact hn
  | bumped k before i n m hw hn hle halone =>
    have hi := (List.getElem?_eq_some_iff.mp hn).1
    have hset : (a.counters.set i m)[i]? = some m := by simp [hi]
    obtain rfl : before = n := by simpa [hn] using (ha.read k before i hw).symm
    have hsum := sum_map_set hn id m
    rw [List.map_id,List.map_id] at hsum
    refine ha.worked (ha.working hw (by simp)) (fun l hl j hj => ?_) (by simp) (fun b j h => ?_) ?_
    · refine List.getElem?_set_ne fun he => halone l hl ?_
      rw [he]
      exact hj
    · cases h
      exact ⟨m,hset,hle⟩
    · rw [hw,Work.due,Work.due,List.getD_eq_getElem?_getD,hset]
      simp only [Option.getD_some,id_eq] at hsum ⊢
      omega
  | credited k before i n hw hn =>
    refine ha.worked (ha.working hw (by simp)) (fun _ _ _ _ => rfl) (by simp) (by simp) ?_
    rw [hw,Work.due,Work.due,List.getD_eq_getElem?_getD,hn]
    simp only [Option.getD_some]
    omega

end

end Attribution

import Mathlib.Data.List.Basic
import Mathlib.Tactic.Ring

namespace Positional

theorem mod_pow_of_digits {b m n w : Nat} (h : ∀ i < w, m / b ^ i % b = n / b ^ i % b) : m % b ^ w = n % b ^ w := by
  induction w with
  | zero => rw [Nat.pow_zero,Nat.mod_one,Nat.mod_one]
  | succ w ih =>
    rw [Nat.mod_pow_succ,Nat.mod_pow_succ,ih fun i hi => h i (Nat.lt_succ_of_lt hi),h w (Nat.lt_succ_self w)]

theorem lex_digit {b m n r s : Nat} (hr : r < b) (hs : s < b) (p : Prop) :
    (m < n ∨ m = n ∧ (r < s ∨ r = s ∧ p)) ↔ m * b + r < n * b + s ∨ m * b + r = n * b + s ∧ p := by
  have hnext {i j : Nat} (h : i < j) : i * b + b ≤ j * b := by
    rw [← Nat.succ_mul]
    exact Nat.mul_le_mul_right b h
  rcases Nat.lt_trichotomy m n with h | rfl | h
  · have := hnext h
    exact iff_of_true (.inl h) (.inl (by omega))
  · simp
  · have := hnext h
    refine iff_of_false ?_ ?_
    · rintro (hlt | ⟨heq,-⟩) <;> omega
    · rintro (hlt | ⟨heq,-⟩) <;> omega

variable {α : Type}

theorem append_lt_append_iff [LT α] {s t x y : List α} (h : s.length = t.length) :
    s ++ x < t ++ y ↔ s < t ∨ s = t ∧ x < y := by
  induction s generalizing t with
  | nil =>
    obtain rfl := List.eq_nil_of_length_eq_zero h.symm
    simp
  | cons a s ih =>
    cases t with
    | nil => cases h
    | cons b t =>
      rw [List.cons_append,List.cons_append,List.cons_lt_cons_iff,List.cons_lt_cons_iff,ih (Nat.succ.inj h),
        List.cons.injEq]
      tauto

def value (b : Nat) (dig : α → Nat) (s : List α) : Nat := s.foldl (fun n a => n * b + dig a) 0

structure Numerals [LT α] (b : Nat) (dig : α → Nat) (symbol : α → Prop) : Prop where
  bound : ∀ {x}, symbol x → dig x < b
  lt_iff : ∀ {x y}, symbol x → symbol y → (x < y ↔ dig x < dig y)
  inj : ∀ {x y}, symbol x → symbol y → dig x = dig y → x = y

section

variable {b : Nat} {dig : α → Nat}

theorem foldl_value (s : List α) (k : Nat) :
    s.foldl (fun n a => n * b + dig a) k = k * b ^ s.length + value b dig s := by
  induction s generalizing k with
  | nil => simp [value]
  | cons x s ih =>
    have hx : value b dig (x :: s) = (0 * b + dig x) * b ^ s.length + value b dig s := ih (0 * b + dig x)
    rw [List.foldl_cons,ih,hx,List.length_cons]
    ring

theorem value_cons (x : α) (s : List α) : value b dig (x :: s) = dig x * b ^ s.length + value b dig s := by
  rw [value,List.foldl_cons,foldl_value,Nat.zero_mul,Nat.zero_add]

variable [LT α] {symbol : α → Prop} (hn : Numerals b dig symbol) {s t : List α}

include hn

theorem value_bound (hs : ∀ x ∈ s, symbol x) : value b dig s < b ^ s.length := by
  induction s with
  | nil => exact Nat.one_pos
  | cons x s ih =>
    have hx := hn.bound (hs x (by simp))
    have hrest := ih fun y hy => hs y (by simp [hy])
    calc value b dig (x :: s) < dig x * b ^ s.length + b ^ s.length := by rw [value_cons]; omega
      _ = (dig x + 1) * b ^ s.length := by ring
      _ ≤ b * b ^ s.length := Nat.mul_le_mul_right _ hx
      _ = b ^ (x :: s).length := by rw [List.length_cons]; ring

theorem front_digit_lt {x y : α} (hlen : s.length = t.length) (hs : ∀ z ∈ s, symbol z) (h : dig x < dig y) :
    value b dig (x :: s) < value b dig (y :: t) := by
  have hbound := value_bound hn hs
  rw [value_cons,value_cons,← hlen]
  calc dig x * b ^ s.length + value b dig s < (dig x + 1) * b ^ s.length := by
        rw [Nat.add_mul,Nat.one_mul]
        omega
    _ ≤ dig y * b ^ s.length := Nat.mul_le_mul_right _ h
    _ ≤ dig y * b ^ s.length + value b dig t := Nat.le_add_right _ _

theorem lt_iff_value_lt (hlen : s.length = t.length) (hs : ∀ x ∈ s, symbol x) (ht : ∀ x ∈ t, symbol x) :
    s < t ↔ value b dig s < value b dig t := by
  induction s generalizing t with
  | nil =>
    obtain rfl := List.eq_nil_of_length_eq_zero hlen.symm
    simp
  | cons x s ih =>
    obtain ⟨y,t,rfl⟩ := List.exists_cons_of_length_eq_add_one hlen.symm
    have hlen' : s.length = t.length := Nat.succ.inj hlen
    have hx := hs x (by simp)
    have hy := ht y (by simp)
    have hs' : ∀ z ∈ s, symbol z := fun z hz => hs z (by simp [hz])
    have ht' : ∀ z ∈ t, symbol z := fun z hz => ht z (by simp [hz])
    rw [List.cons_lt_cons_iff,hn.lt_iff hx hy,ih hlen' hs' ht']
    rcases Nat.lt_trichotomy (dig x) (dig y) with hd | hd | hd
    · exact iff_of_true (.inl hd) (front_digit_lt hn hlen' hs' hd)
    · rw [hn.inj hx hy hd,value_cons,value_cons,hlen']
      simp
    · have hback := front_digit_lt hn hlen'.symm ht' hd
      refine iff_of_false ?_ (Nat.lt_asymm hback)
      rintro (hlt | ⟨rfl,-⟩)
      · exact Nat.lt_asymm hd hlt
      · exact Nat.lt_irrefl _ hd

end

end Positional

import Mathlib.Order.Basic

namespace Calendar

section

variable (size : Nat → Nat)

def start : Nat → Nat
  | 0 => 0
  | n + 1 => start n + size n

def locate : Nat → Nat → Nat → Nat × Nat
  | 0,k,r => (k,r)
  | fuel + 1,k,r => if r < size k then (k,r) else locate fuel (k + 1) (r - size k)

variable {size} {a b r s : Nat}

theorem start_mono (h : a ≤ b) : start size a ≤ start size b := by
  induction h with
  | refl => exact Nat.le_refl _
  | step _ ih => exact Nat.le_trans ih (Nat.le_add_right _ _)

theorem place_lt_start (h : a < b) (hr : r < size a) : start size a + r < start size b :=
  calc start size a + r < start size (a + 1) := Nat.add_lt_add_left hr _
    _ ≤ start size b := start_mono h

theorem place_lt_iff (hr : r < size a) (hs : s < size b) :
    start size a + r < start size b + s ↔ a < b ∨ a = b ∧ r < s := by
  rcases Nat.lt_trichotomy a b with hab | rfl | hab
  · exact iff_of_true (Nat.lt_of_lt_of_le (place_lt_start hab hr) (Nat.le_add_right _ _)) (.inl hab)
  · simp
  · have := place_lt_start hab hs
    omega

theorem le_start (hsize : ∀ n, 0 < size n) (n : Nat) : n ≤ start size n := by
  induction n with
  | zero => exact Nat.zero_le _
  | succ n ih => exact Nat.add_le_add ih (hsize n)

theorem locate_place {fuel k : Nat} (h : start size k + r < start size (k + fuel)) :
    (locate size fuel k r).2 < size (locate size fuel k r).1 ∧
      start size (locate size fuel k r).1 + (locate size fuel k r).2 = start size k + r := by
  induction fuel generalizing k r with
  | zero =>
    have : start size k + r < start size k := h
    omega
  | succ fuel ih =>
    unfold locate
    split
    · rename_i hr
      exact ⟨hr,rfl⟩
    · rename_i hr
      have hplace : start size (k + 1) + (r - size k) = start size k + r := by
        rw [start]
        omega
      rw [← hplace]
      refine ih ?_
      rw [hplace,Nat.add_right_comm]
      exact h

end

def isLeap (year : Nat) : Bool := year % 4 == 0 && (year % 100 != 0 || year % 400 == 0)

def daysInYear (year : Nat) : Nat := if isLeap year then 366 else 365

def daysInMonth (year month : Nat) : Nat :=
  match month with
  | 1 | 3 | 5 | 7 | 8 | 10 | 12 => 31
  | 4 | 6 | 9 | 11 => 30
  | 2 => if isLeap year then 29 else 28
  | _ => 0

def yearStart : Nat → Nat := start daysInYear

def monthStart (year : Nat) : Nat → Nat := start (daysInMonth year)

theorem isLeap_iff (year : Nat) : isLeap year = true ↔ 4 ∣ year ∧ (¬ 100 ∣ year ∨ 400 ∣ year) := by
  simp [isLeap,Nat.dvd_iff_mod_eq_zero]

theorem multiples_succ (b n : Nat) : (n + 1 + b) / (b + 1) = (n + b) / (b + 1) + if b + 1 ∣ n then 1 else 0 := by
  rw [Nat.add_right_comm,Nat.succ_div]
  simp only [Nat.add_assoc,Nat.dvd_add_left (Nat.dvd_refl (b + 1))]

theorem yearStart_eq (year : Nat) :
    yearStart year + (year + 99) / 100 = 365 * year + (year + 3) / 4 + (year + 399) / 400 := by
  induction year with
  | zero => rfl
  | succ year ih =>
    rw [show yearStart (year + 1) = yearStart year + daysInYear year from rfl,multiples_succ 99,multiples_succ 3,
      multiples_succ 399]
    generalize yearStart year = start,(year + 99) / (99 + 1) = c,(year + 3) / (3 + 1) = q,
      (year + 399) / (399 + 1) = l at ih ⊢
    simp only [daysInYear,isLeap_iff]
    split <;> split <;> split <;> split <;> omega

theorem daysInYear_pos (year : Nat) : 0 < daysInYear year := by
  unfold daysInYear
  split <;> decide

theorem monthStart_end (year : Nat) : monthStart year 13 = daysInYear year := by
  unfold monthStart daysInYear
  simp only [start,daysInMonth]
  split <;> rfl

structure Date where
  year : Nat
  month : Nat
  day : Nat
  deriving DecidableEq, Repr

namespace Date

def Valid (d : Date) : Prop := 1 ≤ d.day ∧ d.day ≤ daysInMonth d.year d.month

def number (d : Date) : Nat := yearStart d.year + (monthStart d.year d.month + (d.day - 1))

variable {d e : Date}

theorem Valid.month_lt (h : d.Valid) : d.month < 13 := by
  by_contra hge
  have : daysInMonth d.year d.month = 0 := by
    unfold daysInMonth
    split <;> omega
  have := h.1
  have := h.2
  omega

theorem Valid.day_lt (h : d.Valid) : d.day < 32 := by
  have hle : daysInMonth d.year d.month ≤ 31 := by
    unfold daysInMonth
    split <;> (try split) <;> decide
  exact Nat.lt_succ_of_le (Nat.le_trans h.2 hle)

theorem Valid.in_month (h : d.Valid) : d.day - 1 < daysInMonth d.year d.month := by
  have := h.1
  have := h.2
  omega

theorem Valid.in_year (h : d.Valid) : monthStart d.year d.month + (d.day - 1) < daysInYear d.year := by
  rw [← monthStart_end]
  exact place_lt_start h.month_lt h.in_month

theorem number_lt_iff (hd : d.Valid) (he : e.Valid) :
    d.number < e.number ↔
      d.year < e.year ∨ d.year = e.year ∧ (d.month < e.month ∨ d.month = e.month ∧ d.day < e.day) := by
  unfold number yearStart
  rw [place_lt_iff hd.in_year he.in_year]
  refine or_congr_right (and_congr_right fun hyear => ?_)
  have hmonth := he.in_month
  have := hd.1
  have := he.1
  rw [← hyear] at hmonth ⊢
  unfold monthStart
  rw [place_lt_iff hd.in_month hmonth]
  omega

theorem year_le_iff (hd : d.Valid) (year : Nat) : year ≤ d.year ↔ yearStart year ≤ d.number := by
  have := place_lt_iff hd.in_year (daysInYear_pos year)
  rw [← Nat.not_lt,← Nat.not_lt]
  refine not_congr ?_
  unfold number yearStart
  omega

end Date

def dateOf (days : Nat) : Date :=
  let y := locate daysInYear (days + 1) 0 days
  let m := locate (daysInMonth y.1) 12 1 y.2
  ⟨y.1,m.1,m.2 + 1⟩

theorem dateOf_number (days : Nat) : (dateOf days).Valid ∧ (dateOf days).number = days := by
  have hyears : start daysInYear 0 + days < start daysInYear (0 + (days + 1)) := by
    have := le_start daysInYear_pos (days + 1)
    rw [Nat.zero_add]
    show 0 + days < _
    omega
  obtain ⟨hyear,hplace⟩ := locate_place hyears
  have hmonths : start (daysInMonth (dateOf days).year) 1 + (locate daysInYear (days + 1) 0 days).2 <
      start (daysInMonth (dateOf days).year) (1 + 12) := by
    rw [show start (daysInMonth (dateOf days).year) 1 = 0 from rfl,Nat.zero_add]
    exact Nat.lt_of_lt_of_eq hyear (monthStart_end (dateOf days).year).symm
  obtain ⟨hmonth,hday⟩ := locate_place hmonths
  refine ⟨⟨Nat.le_add_left _ _,hmonth⟩,?_⟩
  rw [show start (daysInMonth (dateOf days).year) 1 = 0 from rfl,Nat.zero_add] at hday
  rw [show start daysInYear 0 = 0 from rfl,Nat.zero_add] at hplace
  calc (dateOf days).number = start daysInYear (dateOf days).year + (locate daysInYear (days + 1) 0 days).2 := by
        rw [← hday]
        rfl
    _ = days := hplace

example : dateOf (yearStart 2026 + 58) = ⟨2026,2,28⟩ ∧ dateOf (yearStart 2026 + 59) = ⟨2026,3,1⟩ := by decide +kernel

end Calendar

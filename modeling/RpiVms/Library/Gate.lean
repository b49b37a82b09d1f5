import Mathlib.Data.List.Basic

namespace Gate

variable {α : Type} (key : α → Bool) (follows : α → α → Prop)

def Passes : Bool → Option α → List α → Prop
  | _,_,[] => True
  | shut,last,x :: xs =>
      if shut && !key x then Passes shut last xs
      else (key x = true ∨ ∃ p, last = some p ∧ follows p x) ∧ Passes false (some x) xs

variable {key follows} {shut shut' : Bool} {last last' : Option α} {x : α} {xs ys zs : List α}

theorem passes_held (hx : (shut && !key x) = true) :
    Passes key follows shut last (x :: xs) ↔ Passes key follows shut last xs := by
  rw [Passes,if_pos hx]

theorem passes_through (hx : (shut && !key x) = false) :
    Passes key follows shut last (x :: xs) ↔
      (key x = true ∨ ∃ p, last = some p ∧ follows p x) ∧ Passes key follows false (some x) xs := by
  rw [Passes,if_neg (by simp [hx])]

theorem passes_key (hx : key x = true) :
    Passes key follows shut last (x :: xs) ↔ Passes key follows false (some x) xs := by
  rw [passes_through (by simp [hx])]
  exact ⟨fun h => h.2,fun h => ⟨.inl hx,h⟩⟩

theorem passes_mono {follows' : α → α → Prop} (hf : ∀ p x, follows p x → follows' p x)
    (h : Passes key follows shut last xs) : Passes key follows' shut last xs := by
  induction xs generalizing shut last with
  | nil => trivial
  | cons x xs ih =>
    cases hx : shut && !key x with
    | true => exact (passes_held hx).mpr (ih ((passes_held hx).mp h))
    | false =>
      obtain ⟨hhead,htail⟩ := (passes_through hx).mp h
      refine (passes_through hx).mpr ⟨?_,ih htail⟩
      rcases hhead with hk | ⟨p,hp,hfol⟩
      · exact .inl hk
      · exact .inr ⟨p,hp,hf p x hfol⟩

theorem passes_shut (h : Passes key follows shut last xs) : Passes key follows true last' xs := by
  induction xs generalizing shut last with
  | nil => trivial
  | cons x xs ih =>
    cases hx : key x with
    | true => exact (passes_key hx).mpr ((passes_key hx).mp h)
    | false =>
      refine (passes_held (by simp [hx])).mpr ?_
      cases shut with
      | true => exact ih ((passes_held (by simp [hx])).mp h)
      | false => exact ih ((passes_through (by simp)).mp h).2

theorem passes_before (h : Passes key follows shut last (xs ++ ys)) : Passes key follows shut last xs := by
  induction xs generalizing shut last with
  | nil => trivial
  | cons x xs ih =>
    rw [List.cons_append] at h
    cases hx : shut && !key x with
    | true => exact (passes_held hx).mpr (ih ((passes_held hx).mp h))
    | false =>
      obtain ⟨hhead,htail⟩ := (passes_through hx).mp h
      exact (passes_through hx).mpr ⟨hhead,ih htail⟩

theorem passes_after (h : Passes key follows shut last (xs ++ ys)) :
    ∃ shut' last', Passes key follows shut' last' ys := by
  induction xs generalizing shut last with
  | nil => exact ⟨shut,last,h⟩
  | cons x xs ih =>
    rw [List.cons_append] at h
    cases hx : shut && !key x with
    | true => exact ih ((passes_held hx).mp h)
    | false => exact ih ((passes_through hx).mp h).2

theorem passes_join (hx : Passes key follows shut last xs)
    (hy : ∀ shut last, Passes key follows shut last ys) : Passes key follows shut last (xs ++ ys) := by
  induction xs generalizing shut last with
  | nil => exact hy shut last
  | cons x xs ih =>
    rw [List.cons_append]
    cases hk : shut && !key x with
    | true => exact (passes_held hk).mpr (ih ((passes_held hk).mp hx))
    | false =>
      obtain ⟨hhead,htail⟩ := (passes_through hk).mp hx
      exact (passes_through hk).mpr ⟨hhead,ih htail⟩

theorem passes_keyless (hx : ∀ x ∈ xs, key x = false) :
    Passes key follows true last (xs ++ ys) ↔ Passes key follows true last ys := by
  induction xs with
  | nil => exact Iff.rfl
  | cons x xs ih =>
    have hk : (true && !key x) = true := by simp [hx x List.mem_cons_self]
    rw [List.cons_append,passes_held hk]
    exact ih fun y hy => hx y (List.mem_cons_of_mem x hy)

theorem passes_resume (h : Passes key follows shut last (xs ++ ys ++ zs))
    (hz : ∀ z ∈ zs.head?, key z = true) : Passes key follows shut last (xs ++ zs) := by
  rw [List.append_assoc] at h
  refine passes_join (passes_before h) fun shut' last' => ?_
  rw [← List.append_assoc] at h
  obtain ⟨_,_,hafter⟩ := passes_after h
  cases zs with
  | nil => trivial
  | cons z zs =>
    have hk : key z = true := hz z rfl
    exact (passes_key hk).mpr ((passes_key hk).mp hafter)

theorem passes_closed (h : Passes key follows true last (xs ++ ys ++ zs))
    (hx : ∀ x ∈ xs, key x = false) : Passes key follows true last (xs ++ zs) := by
  obtain ⟨_,_,hafter⟩ := passes_after h
  exact (passes_keyless hx).mpr (passes_shut hafter)

theorem passes_key_end (h : Passes key follows shut last xs) (hx : key x = true) :
    Passes key follows shut last (xs ++ [x]) :=
  passes_join h fun _ _ => (passes_key hx).mpr trivial

theorem passes_held_end (hxs : ∀ y ∈ xs, key y = false) (hx : key x = false) :
    Passes key follows true last (xs ++ [x]) :=
  (passes_keyless hxs).mpr ((passes_held (by simp [hx])).mpr trivial)

theorem passes_next (h : Passes key follows shut last xs) {p : α}
    (hp : (last.toList ++ xs).getLast? = some p) (hf : follows p x) :
    Passes key follows shut last (xs ++ [x]) := by
  induction xs generalizing shut last with
  | nil =>
    cases hx : shut && !key x with
    | true => exact (passes_held hx).mpr trivial
    | false =>
      have hlast : last = some p := by
        cases last with
        | none => simp at hp
        | some q => simpa using hp
      exact (passes_through hx).mpr ⟨.inr ⟨p,hlast,hf⟩,trivial⟩
  | cons y xs ih =>
    have hrest : (y :: xs).getLast? = some p := by
      rwa [List.getLast?_append,List.getLast?_cons,Option.some_or,← List.getLast?_cons] at hp
    rw [List.cons_append]
    cases hy : shut && !key y with
    | true =>
      refine (passes_held hy).mpr ?_
      cases xs with
      | nil =>
        rw [List.nil_append]
        cases hx : shut && !key x with
        | true => exact (passes_held hx).mpr trivial
        | false =>
          have hk : key x = true := by grind
          exact (passes_key hk).mpr trivial
      | cons z xs =>
        refine ih ((passes_held hy).mp h) ?_
        rw [List.getLast?_append,List.getLast?_cons,Option.some_or,← List.getLast?_cons]
        rwa [List.getLast?_cons_cons] at hrest
    | false =>
      obtain ⟨hhead,htail⟩ := (passes_through hy).mp h
      exact (passes_through hy).mpr ⟨hhead,ih htail hrest⟩

end Gate

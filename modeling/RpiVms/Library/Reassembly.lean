import Mathlib.Data.List.Basic

namespace Reassembly

variable {α : Type}

inductive Piece (α : Type) where
  | single (unit : List α)
  | fragment (head : List α) (first last : Bool) (data : List α)
  deriving DecidableEq, Repr

def Piece.flags : Piece α → Option (Bool × Bool)
  | .single _ => none
  | .fragment _ first last _ => some (first,last)

def reassemble [DecidableEq α] : Option (List α × List α) → List (Piece α) → Option (List (List α))
  | none,[] => some []
  | some _,[] => none
  | none,.single unit :: rest => (reassemble none rest).map (unit :: ·)
  | none,.fragment head true false data :: rest => reassemble (some (head,data)) rest
  | none,.fragment _ _ _ _ :: _ => none
  | some _,.single _ :: _ => none
  | some (head,data),.fragment h false false more :: rest =>
      if h = head then reassemble (some (head,data ++ more)) rest else none
  | some (head,data),.fragment h false true more :: rest =>
      if h = head then (reassemble none rest).map ((head ++ (data ++ more)) :: ·) else none
  | some _,.fragment _ true _ _ :: _ => none

inductive Continues (head : List α) : List α → List (Piece α) → Prop
  | last (data : List α) : Continues head data [.fragment head false true data]
  | more (data : List α) {rest : List α} {pieces : List (Piece α)} : Continues head rest pieces →
      Continues head (data ++ rest) (.fragment head false false data :: pieces)

inductive Carries : List α → List (Piece α) → Prop
  | single (unit : List α) : Carries unit [.single unit]
  | fragments (head data : List α) {rest : List α} {pieces : List (Piece α)} :
      Continues head rest pieces → Carries (head ++ (data ++ rest)) (.fragment head true false data :: pieces)

def Flagged (flags : List (Option (Bool × Bool))) : Prop :=
  ∃ k, flags = some (true,false) :: (List.replicate k (some (false,false)) ++ [some (false,true)])

section

variable {head data rest unit : List α} {pieces : List (Piece α)}

theorem Continues.flags (h : Continues head rest pieces) :
    ∃ k, pieces.map Piece.flags = List.replicate k (some (false,false)) ++ [some (false,true)] := by
  induction h with
  | last data => exact ⟨0,rfl⟩
  | more data _ ih =>
    obtain ⟨k,hk⟩ := ih
    exact ⟨k + 1,by rw [List.map_cons,hk,List.replicate_succ]; rfl⟩

theorem Continues.flagged (h : Continues head rest pieces) (data : List α) :
    Flagged ((.fragment head true false data :: pieces).map Piece.flags) := by
  obtain ⟨k,hk⟩ := h.flags
  exact ⟨k,by rw [List.map_cons,hk]; rfl⟩

variable [DecidableEq α]

theorem Continues.reassemble (h : Continues head rest pieces) (data : List α) (others : List (Piece α)) :
    reassemble (some (head,data)) (pieces ++ others) =
      (reassemble none others).map ((head ++ (data ++ rest)) :: ·) := by
  induction h generalizing data with
  | last more => simp [Reassembly.reassemble]
  | more next _ ih =>
    rw [List.cons_append,Reassembly.reassemble,if_pos rfl,ih,List.append_assoc]

theorem Carries.reassemble (h : Carries unit pieces) (others : List (Piece α)) :
    reassemble none (pieces ++ others) = (reassemble none others).map (unit :: ·) := by
  cases h with
  | single => rfl
  | fragments head data h =>
    rw [List.cons_append,Reassembly.reassemble,h.reassemble]

theorem reassemble_carried {units : List (List α)} {groups : List (List (Piece α))}
    (h : List.Forall₂ Carries units groups) : reassemble none groups.flatten = some units := by
  induction h with
  | nil => rfl
  | cons hc _ ih => rw [List.flatten_cons,hc.reassemble,ih,Option.map_some]

end

section

variable (marked : α → Bool)

def groups : List α → List α → List (List α) × List α
  | part,[] => ([],part)
  | part,x :: xs =>
      if marked x then ((part ++ [x]) :: (groups [] xs).1,(groups [] xs).2)
      else groups (part ++ [x]) xs

variable {marked} {part xs ys : List α}

theorem groups_append :
    groups marked part (xs ++ ys) =
      ((groups marked part xs).1 ++ (groups marked (groups marked part xs).2 ys).1,
        (groups marked (groups marked part xs).2 ys).2) := by
  induction xs generalizing part with
  | nil => rfl
  | cons x xs ih =>
    by_cases hx : marked x = true
    · simp [groups,hx,ih]
    · simp [groups,hx,ih]

theorem groups_unmarked (h : ∀ x ∈ xs, marked x = false) : groups marked part xs = ([],part ++ xs) := by
  induction xs generalizing part with
  | nil => simp [groups]
  | cons x xs ih =>
    have hrest := @ih (part ++ [x]) fun y hy => h y (by simp [hy])
    simp [groups,h x (by simp),hrest]

theorem groups_marked {x : α} (h : ∀ y ∈ xs, marked y = false) (hx : marked x = true) :
    groups marked [] (xs ++ [x]) = ([xs ++ [x]],[]) := by
  rw [groups_append,groups_unmarked h]
  simp [groups,hx]

end

end Reassembly

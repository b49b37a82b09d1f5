import Mathlib.Data.List.Basic

namespace Options

variable {τ ι σ ε : Type}

inductive Entry (τ σ ε : Type) where
  | flag (set : σ → σ)
  | value (set : τ → σ → Except ε σ)
  | refused (e : ε)
  | help

inductive Stop (ε : Type) where
  | failed (e : ε)
  | helped
  deriving DecidableEq, Repr

structure Table (τ ι σ ε : Type) where
  name : τ → Option ι
  entry : ι → Entry τ σ ε
  missing : ι → ε
  unknown : τ → ε

namespace Table

variable (table : Table τ ι σ ε)

def parse : σ → List τ → Except (Stop ε) σ
  | s,[] => .ok s
  | s,arg :: rest =>
      match table.name arg with
      | none => .error (.failed (table.unknown arg))
      | some i =>
          match table.entry i with
          | .help => .error .helped
          | .refused e => .error (.failed e)
          | .flag set => parse (set s) rest
          | .value set =>
              match rest with
              | [] => .error (.failed (table.missing i))
              | v :: rest =>
                  match set v s with
                  | .error e => .error (.failed e)
                  | .ok t => parse t rest

def given : List τ → List (ι × Option τ)
  | [] => []
  | arg :: rest =>
      match table.name arg with
      | none => []
      | some i =>
          match table.entry i with
          | .help | .refused _ => []
          | .flag _ => (i,none) :: given rest
          | .value _ =>
              match rest with
              | [] => []
              | v :: rest => (i,some v) :: given rest

end Table

section

variable {table : Table τ ι σ ε}

theorem parse_keeps {Inv : List (ι × Option τ) → σ → Prop}
    (hflag : ∀ g s i set, table.entry i = .flag set → Inv g s → Inv (g ++ [(i,none)]) (set s))
    (hvalue : ∀ g s i set v t, table.entry i = .value set → set v s = .ok t → Inv g s →
      Inv (g ++ [(i,some v)]) t)
    {args : List τ} {g : List (ι × Option τ)} {s t : σ} (hi : Inv g s)
    (h : table.parse s args = .ok t) : Inv (g ++ table.given args) t := by
  induction s, args using Table.parse.induct table generalizing g with
  | case1 s =>
    cases h
    simpa [Table.given] using hi
  | case2 s arg rest hn => simp [Table.parse,hn] at h
  | case3 s arg rest i hn he => simp [Table.parse,hn,he] at h
  | case4 s arg rest i hn e he => simp [Table.parse,hn,he] at h
  | case5 s arg rest i hn set he ih =>
    rw [Table.parse,hn] at h
    simp only [he] at h
    have hnext := ih (hflag g s i set he hi) h
    simpa [Table.given,hn,he] using hnext
  | case6 s arg i hn set he => simp [Table.parse,hn,he] at h
  | case7 s arg i hn set he v rest e hs => simp [Table.parse,hn,he,hs] at h
  | case8 s arg i hn set he v rest t' hs ih =>
    rw [Table.parse,hn] at h
    simp only [he,hs] at h
    have hnext := ih (hvalue g s i set v t' he hs hi) h
    simpa [Table.given,hn,he] using hnext

end

variable [DecidableEq ι]

def present (i : ι) (g : List (ι × Option τ)) : Bool := g.any (·.1 = i)

def lastOf (i : ι) (g : List (ι × Option τ)) : Option τ :=
  (g.reverse.find? (·.1 = i)).bind (·.2)

section

variable {i j : ι} {g : List (ι × Option τ)} {v : Option τ}

@[simp] theorem lastOf_self : lastOf i (g ++ [(i,v)]) = v := by
  simp [lastOf]

theorem lastOf_other (h : j ≠ i) : lastOf i (g ++ [(j,v)]) = lastOf i g := by
  simp [lastOf,h]

@[simp] theorem present_snoc : present i (g ++ [(j,v)]) = (present i g || decide (j = i)) := by
  simp [present]

end

end Options

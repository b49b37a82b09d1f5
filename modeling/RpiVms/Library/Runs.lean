import Mathlib.Data.List.Basic
import Mathlib.Data.List.Induction

namespace Runs

variable {α : Type}

theorem forall_split_cons {P : List α → α → List α → Prop} {a : α} {as : List α} :
    (∀ pre b post, a :: as = pre ++ b :: post → P pre b post) ↔
      P [] a as ∧ ∀ pre b post, as = pre ++ b :: post → P (a :: pre) b post := by
  constructor
  · intro h
    exact ⟨h [] a as rfl,fun pre b post he => h (a :: pre) b post (by rw [he,List.cons_append])⟩
  · rintro ⟨hhead,htail⟩ pre b post he
    cases pre with
    | nil =>
      obtain ⟨rfl,rfl⟩ := List.cons.inj he
      exact hhead
    | cons p pre =>
      obtain ⟨rfl,hrest⟩ := List.cons.inj he
      exact htail pre b post hrest

theorem exists_split_snoc {P : List α → α → Prop} {as : List α} {a : α} :
    (∃ pre b post, as ++ [a] = pre ++ b :: post ∧ P pre b) ↔
      (∃ pre b post, as = pre ++ b :: post ∧ P pre b) ∨ P as a := by
  constructor
  · rintro ⟨pre,b,post,he,hp⟩
    rcases List.eq_nil_or_concat post with rfl | ⟨post,last,rfl⟩
    · obtain ⟨rfl,hl⟩ := List.append_inj' he rfl
      obtain rfl := List.head_eq_of_cons_eq hl
      exact .inr hp
    · have he' : as ++ [a] = (pre ++ b :: post) ++ [last] := by simpa using he
      exact .inl ⟨pre,b,post,(List.append_inj' he' rfl).1,hp⟩
  · rintro (⟨pre,b,post,rfl,hp⟩ | hp)
    · exact ⟨pre,b,post ++ [a],by simp,hp⟩
    · exact ⟨as,a,[],rfl,hp⟩

def Justified (J : List α → α → Prop) (h : List α) : Prop :=
  ∀ pre e post, h = pre ++ e :: post → J pre e

theorem justified_nil {J : List α → α → Prop} : Justified J [] := by
  intro pre e post he
  simp at he

theorem justified_snoc {J : List α → α → Prop} {h : List α} {e : α} (hh : Justified J h) (he : J h e) :
    Justified J (h ++ [e]) := by
  intro pre d post hd
  rcases List.eq_nil_or_concat post with rfl | ⟨post,last,rfl⟩
  · obtain ⟨rfl,hl⟩ := List.append_inj' hd rfl
    obtain rfl := List.head_eq_of_cons_eq hl
    exact he
  · have hd' : h ++ [e] = (pre ++ d :: post) ++ [last] := by simpa using hd
    exact hh pre d post (List.append_inj' hd' rfl).1

section

variable {β : Type} {J : List α → α → Prop} {h g : List α} {proj : α → Option β}

theorem Justified.before (hj : Justified J (h ++ g)) : Justified J h := by
  intro pre e post he
  exact hj pre e (post ++ g) (by simp [he])

theorem Justified.pairwise {R : β → β → Prop} (hj : Justified J h)
    (hR : ∀ pre e f, J pre e → proj e = some f → ∀ g ∈ pre.filterMap proj, R g f) :
    (h.filterMap proj).Pairwise R := by
  induction h using List.reverseRecOn with
  | nil => exact List.Pairwise.nil
  | append_singleton h e ih =>
    rw [List.filterMap_append,List.pairwise_append]
    refine ⟨ih hj.before,?_,fun g hg f hf => ?_⟩
    · cases he : proj e <;> simp [he]
    · have he : proj e = some f := by simpa using hf
      exact hR h e f (hj h e [] rfl) he g hg

theorem Justified.first {P : β → Prop} (hj : Justified J h)
    (hP : ∀ pre e f, J pre e → proj e = some f → pre.filterMap proj = [] → P f) {f : β}
    (hf : (h.filterMap proj).head? = some f) : P f := by
  induction h using List.reverseRecOn with
  | nil => simp at hf
  | append_singleton h e ih =>
    rw [List.filterMap_append] at hf
    cases hrest : h.filterMap proj with
    | nil =>
      have he : proj e = some f := by
        rw [hrest,List.nil_append] at hf
        cases he : proj e with
        | none => simp [he] at hf
        | some g => simpa [he] using hf
      exact hP h e f (hj h e [] rfl) he hrest
    | cons first rest =>
      rw [hrest,List.cons_append] at hf
      exact ih hj.before (by rw [hrest]; exact hf)

end

section

variable {σ ε : Type} (step : σ → α → Option (List ε × σ))

-- an action that is not possible where it comes up is passed over
def next (hs : List ε × σ) (a : α) : List ε × σ :=
  match step hs.2 a with
  | none => hs
  | some (events,t) => (hs.1 ++ events,t)

def run (hs : List ε × σ) (actions : List α) : List ε × σ := actions.foldl (next step) hs

def runTo (hs : List ε × σ) (schedule : Nat → α) : Nat → List ε × σ
  | 0 => hs
  | n + 1 => next step (runTo hs schedule n) (schedule n)

def Along (P : List ε → σ → α → Prop) : List ε × σ → List α → Prop
  | _,[] => True
  | hs,a :: as => P hs.1 hs.2 a ∧ Along P (next step hs a) as

instance decidableAlong (P : List ε → σ → α → Prop) [∀ h s a, Decidable (P h s a)] :
    (hs : List ε × σ) → (actions : List α) → Decidable (Along step P hs actions)
  | _,[] => isTrue trivial
  | hs,a :: as => @instDecidableAnd _ _ _ (decidableAlong P (next step hs a) as)

def taken (own : α → Bool) : σ → List α → Nat
  | _,[] => 0
  | s,a :: as =>
      match step s a with
      | none => taken own s as
      | some (_,t) => (if own a then 1 else 0) + taken own t as

def observed {β : Type} (look : σ → α → List β) : σ → List α → List β
  | _,[] => []
  | s,a :: as =>
      match step s a with
      | none => observed look s as
      | some (_,t) => look s a ++ observed look t as

variable {step}

theorem run_append (hs : List ε × σ) (as bs : List α) :
    run step hs (as ++ bs) = run step (run step hs as) bs := List.foldl_append

theorem reaches_by_rank {P Q : σ → Prop} {rank : σ → Nat} {own allowed : α → Bool}
    (hstep : ∀ s a events t, P s → allowed a = true → step s a = some (events,t) →
      Q t ∨ P t ∧ rank t + (if own a then 1 else 0) ≤ rank s)
    {h : List ε} {s : σ} {actions : List α} (hp : P s) (ha : ∀ a ∈ actions, allowed a = true)
    (hr : rank s < taken step own s actions) :
    ∃ pre post, actions = pre ++ post ∧ Q (run step (h,s) pre).2 := by
  induction actions generalizing h s with
  | nil => exact absurd hr (Nat.not_lt_zero _)
  | cons a as ih =>
    have htail := fun b hb => ha b (List.mem_cons_of_mem a hb)
    cases hs : step s a with
    | none =>
      simp only [taken,hs] at hr
      obtain ⟨pre,post,rfl,hq⟩ := ih (h := h) hp htail hr
      exact ⟨a :: pre,post,rfl,by simpa [run,next,hs] using hq⟩
    | some r =>
      simp only [taken,hs] at hr
      rcases hstep s a r.1 r.2 hp (ha a List.mem_cons_self) hs with hq | ⟨hp',hle⟩
      · exact ⟨[a],as,rfl,by simpa [run,next,hs] using hq⟩
      · obtain ⟨pre,post,rfl,hq⟩ := ih (h := h ++ r.1) hp' htail (by omega)
        exact ⟨a :: pre,post,rfl,by simpa [run,next,hs] using hq⟩

theorem run_keeps_along {P : List ε → σ → α → Prop} {Inv : List ε → σ → Prop}
    (hstep : ∀ h s a events t, Inv h s → P h s a → step s a = some (events,t) → Inv (h ++ events) t)
    {hs : List ε × σ} {actions : List α} (hp : Along step P hs actions) (hi : Inv hs.1 hs.2) :
    Inv (run step hs actions).1 (run step hs actions).2 := by
  induction actions generalizing hs with
  | nil => exact hi
  | cons a as ih =>
    refine ih hp.2 ?_
    unfold next
    split
    · exact hi
    · rename_i events t heq
      exact hstep hs.1 hs.2 a events t hi hp.1 heq

theorem run_keeps_observed {β : Type} {look : σ → α → List β} {Inv : List β → List ε → σ → Prop}
    (hstep : ∀ o h s a events t, Inv o h s → step s a = some (events,t) →
      Inv (o ++ look s a) (h ++ events) t)
    {o : List β} {hs : List ε × σ} (actions : List α) (hi : Inv o hs.1 hs.2) :
    Inv (o ++ observed step look hs.2 actions) (run step hs actions).1 (run step hs actions).2 := by
  induction actions generalizing o hs with
  | nil => simpa [observed,run] using hi
  | cons a as ih =>
    cases heq : step hs.2 a with
    | none => simpa [observed,run,next,heq] using ih hi
    | some r =>
      have hnext := hstep o hs.1 hs.2 a r.1 r.2 hi heq
      simpa [observed,run,next,heq] using @ih (o ++ look hs.2 a) (hs.1 ++ r.1,r.2) hnext

theorem run_extends (hs : List ε × σ) (actions : List α) :
    ∃ g, (run step hs actions).1 = hs.1 ++ g := by
  induction actions generalizing hs with
  | nil => exact ⟨[],(List.append_nil _).symm⟩
  | cons a as ih =>
    obtain ⟨g,hg⟩ := ih (next step hs a)
    cases hstep : step hs.2 a with
    | none => exact ⟨g,by simpa [run,next,hstep] using hg⟩
    | some r => exact ⟨r.1 ++ g,by simpa [run,next,hstep] using hg⟩

theorem along_of_run {P : List ε → σ → α → Prop} {Inv : List ε → σ → Prop} {Good : List ε → Prop}
    (hstep : ∀ h s a events t, Inv h s → P h s a → step s a = some (events,t) → Inv (h ++ events) t)
    (hbreak : ∀ h s a, Inv h s → ¬P h s a →
      ∃ events t, step s a = some (events,t) ∧ ∀ g, ¬Good (h ++ events ++ g))
    {hs : List ε × σ} {actions : List α} (hi : Inv hs.1 hs.2) (hg : Good (run step hs actions).1) :
    Along step P hs actions := by
  induction actions generalizing hs with
  | nil => trivial
  | cons a as ih =>
    have hp : P hs.1 hs.2 a := by
      by_contra hn
      obtain ⟨events,t,heq,hbad⟩ := hbreak hs.1 hs.2 a hi hn
      obtain ⟨g,hrest⟩ := @run_extends _ _ _ step (next step hs a) as
      refine hbad g ?_
      have hnext : (next step hs a).1 = hs.1 ++ events := by simp [next,heq]
      rw [← hnext,← hrest]
      exact hg
    refine ⟨hp,ih ?_ hg⟩
    unfold next
    split
    · exact hi
    · rename_i events t heq
      exact hstep hs.1 hs.2 a events t hi hp heq

theorem along_of_mem {P : α → Prop} {hs : List ε × σ} {actions : List α} (hp : ∀ a ∈ actions, P a) :
    Along step (fun _ _ a => P a) hs actions := by
  induction actions generalizing hs with
  | nil => trivial
  | cons a as ih => exact ⟨hp a List.mem_cons_self,ih fun b hb => hp b (List.mem_cons_of_mem a hb)⟩

theorem run_keeps {Inv : List ε → σ → Prop}
    (hstep : ∀ h s a events t, Inv h s → step s a = some (events,t) → Inv (h ++ events) t)
    {hs : List ε × σ} (actions : List α) (hi : Inv hs.1 hs.2) :
    Inv (run step hs actions).1 (run step hs actions).2 :=
  run_keeps_along (fun h s a events t hi _ heq => hstep h s a events t hi heq)
    (along_of_mem fun _ _ => trivial) hi

end

end Runs

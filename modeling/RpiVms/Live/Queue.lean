import RpiVms.Live.Media

namespace RpiVms

-- serial numbers the on_frame calls, so that it tells apart frames of equal contents
structure LiveFrame where
  serial : Nat
  frame : OwnedLiveFrame
  deriving DecidableEq, Repr

def LiveFrame.size (f : LiveFrame) : Nat := f.frame.data.length

structure BoundedFrameQueue where
  maxFrames : Nat
  maxBytes : Nat
  frames : List LiveFrame := []
  bytes : Nat := 0
  drops : Nat := 0
  closed : Bool := false
  deriving DecidableEq, Repr

def dropOldest (maxFrames maxBytes size : Nat) :
    List LiveFrame → Nat → Nat → List LiveFrame × Nat × Nat
  | [],bytes,drops => ([],bytes,drops)
  | front :: rest,bytes,drops =>
      if (front :: rest).length ≥ maxFrames ∨ bytes + size > maxBytes then
        dropOldest maxFrames maxBytes size rest (bytes - front.size) (drops + 1)
      else (front :: rest,bytes,drops)

namespace BoundedFrameQueue

variable (q : BoundedFrameQueue) (f : LiveFrame)

def makeRoom (size : Nat) : List LiveFrame × Nat × Nat :=
  dropOldest q.maxFrames q.maxBytes size q.frames q.bytes q.drops

def push : Option LiveFrame → Bool × BoundedFrameQueue
  | none => (false,q)
  | some f =>
      if q.closed then (false,q)
      else if f.size > q.maxBytes then (false,{ q with drops := q.drops + 1 })
      else
        let (frames,bytes,drops) := q.makeRoom f.size
        (drops == q.drops,{ q with frames := frames ++ [f], bytes := bytes + f.size, drops := drops })

def tryPop : Option LiveFrame × BoundedFrameQueue :=
  match q.frames with
  | [] => (none,q)
  | front :: rest => (some front,{ q with frames := rest, bytes := q.bytes - front.size })

def close : BoundedFrameQueue := { q with closed := true, frames := [], bytes := 0 }

def accepts : Bool := !q.closed && f.size ≤ q.maxBytes

def kept : List LiveFrame := (q.makeRoom f.size).1

theorem dropOldest_suffix (maxFrames maxBytes size : Nat) (frames : List LiveFrame) (bytes drops : Nat) :
    (dropOldest maxFrames maxBytes size frames bytes drops).1 <:+ frames := by
  induction frames generalizing bytes drops with
  | nil => exact List.suffix_refl _
  | cons front rest ih =>
    simp only [dropOldest]
    split
    · exact (ih _ _).trans (List.suffix_cons front rest)
    · exact List.suffix_refl _

theorem kept_suffix : q.kept f <:+ q.frames := dropOldest_suffix _ _ _ _ _ _

theorem push_refused {q : BoundedFrameQueue} {f : LiveFrame} (h : q.accepts f = false) :
    (q.push (some f)).2.frames = q.frames ∧ (q.push (some f)).2.closed = q.closed := by
  simp only [accepts,Bool.and_eq_false_iff,Bool.not_eq_false',decide_eq_false_iff_not,not_le] at h
  simp only [push]
  split
  · exact ⟨rfl,rfl⟩
  · rename_i hc
    rw [if_pos (h.resolve_left hc)]
    exact ⟨rfl,rfl⟩

theorem push_accepted {q : BoundedFrameQueue} {f : LiveFrame} (h : q.accepts f = true) :
    (q.push (some f)).2.frames = q.kept f ++ [f] ∧ (q.push (some f)).2.closed = q.closed := by
  simp only [accepts,Bool.and_eq_true,Bool.not_eq_true',decide_eq_true_eq] at h
  simp only [push,h.1,Bool.false_eq_true,if_false,if_neg (not_lt.mpr h.2),kept,and_self]

theorem tryPop_some {q r : BoundedFrameQueue} {f : LiveFrame} (h : q.tryPop = (some f,r)) :
    q.frames = f :: r.frames ∧ r.closed = q.closed := by
  unfold tryPop at h
  split at h
  · simp at h
  · rename_i front rest hf
    obtain ⟨hs,rfl⟩ := Prod.mk.inj h
    obtain rfl := Option.some.inj hs
    exact ⟨hf,rfl⟩

theorem tryPop_none {q r : BoundedFrameQueue} (h : q.tryPop = (none,r)) : q.frames = [] ∧ r = q := by
  unfold tryPop at h
  split at h
  · rename_i hf
    exact ⟨hf,(Prod.mk.inj h).2.symm⟩
  · simp at h

end BoundedFrameQueue

end RpiVms

import RpiVms.Library.Runs
import RpiVms.Library.Sublists
import RpiVms.Live.Queue

namespace RpiVms

open Runs Sublists

inductive QueueOp where
  | push (frame : Option LiveFrame)
  | tryPop
  | close
  deriving DecidableEq, Repr

inductive QueueEvent where
  | pushed (frame : Option LiveFrame) (result : Bool)
  | popped (frame : Option LiveFrame)
  | closed
  deriving DecidableEq, Repr

def QueueEvent.pushedFrame : QueueEvent → Option LiveFrame
  | .pushed frame _ => frame
  | _ => none

def QueueEvent.poppedFrame : QueueEvent → Option LiveFrame
  | .popped frame => frame
  | _ => none

def pushedFrames (h : List QueueEvent) : List LiveFrame := h.filterMap QueueEvent.pushedFrame

def poppedFrames (h : List QueueEvent) : List LiveFrame := h.filterMap QueueEvent.poppedFrame

def totalSize : List LiveFrame → Nat
  | [] => 0
  | f :: fs => f.size + totalSize fs

namespace BoundedFrameQueue

def step (q : BoundedFrameQueue) : QueueOp → Option (List QueueEvent × BoundedFrameQueue)
  | .push frame => some ([.pushed frame (q.push frame).1],(q.push frame).2)
  | .tryPop => some ([.popped q.tryPop.1],q.tryPop.2)
  | .close => some ([.closed],q.close)

def FitsBeside (q : BoundedFrameQueue) (f : LiveFrame) (fs : List LiveFrame) : Prop :=
  fs.length + 1 ≤ q.maxFrames ∧ totalSize fs + f.size ≤ q.maxBytes

end BoundedFrameQueue

def queueRun (maxFrames maxBytes : Nat) (ops : List QueueOp) : List QueueEvent × BoundedFrameQueue :=
  run BoundedFrameQueue.step ([],{ maxFrames := maxFrames, maxBytes := maxBytes }) ops

theorem totalSize_append (fs gs : List LiveFrame) : totalSize (fs ++ gs) = totalSize fs + totalSize gs := by
  induction fs with
  | nil => simp [totalSize]
  | cons f fs ih => simp [totalSize,ih,Nat.add_assoc]

section

variable (h : List QueueEvent) (frame : Option LiveFrame) (result : Bool)

@[simp] theorem pushedFrames_pushed : pushedFrames (h ++ [.pushed frame result]) = pushedFrames h ++ frame.toList := by
  cases frame <;> simp [pushedFrames,List.filterMap_cons,QueueEvent.pushedFrame]

@[simp] theorem poppedFrames_pushed : poppedFrames (h ++ [.pushed frame result]) = poppedFrames h := by
  simp [poppedFrames,List.filterMap_cons,QueueEvent.poppedFrame]

@[simp] theorem pushedFrames_popped : pushedFrames (h ++ [.popped frame]) = pushedFrames h := by
  simp [pushedFrames,List.filterMap_cons,QueueEvent.pushedFrame]

@[simp] theorem poppedFrames_popped : poppedFrames (h ++ [.popped frame]) = poppedFrames h ++ frame.toList := by
  cases frame <;> simp [poppedFrames,List.filterMap_cons,QueueEvent.poppedFrame]

@[simp] theorem pushedFrames_closed : pushedFrames (h ++ [.closed]) = pushedFrames h := by
  simp [pushedFrames,List.filterMap_cons,QueueEvent.pushedFrame]

@[simp] theorem poppedFrames_closed : poppedFrames (h ++ [.closed]) = poppedFrames h := by
  simp [poppedFrames,List.filterMap_cons,QueueEvent.poppedFrame]

end

structure QueueInv (q : BoundedFrameQueue) : Prop where
  bytes : q.bytes = totalSize q.frames
  frames_le : q.frames.length ≤ q.maxFrames
  bytes_le : q.bytes ≤ q.maxBytes
  closed : q.closed = true → q.frames = []

structure RoomFor (q : BoundedFrameQueue) (f : LiveFrame) (fs : List LiveFrame)
    (r : List LiveFrame × Nat × Nat) (drops : Nat) : Prop where
  kept : LongestSuffix (q.FitsBeside f) r.1 fs
  bytes : r.2.1 = totalSize r.1
  drops : r.2.2 + r.1.length = drops + fs.length

section

variable {q : BoundedFrameQueue} {f : LiveFrame}

theorem dropOldest_room (hframes : 1 ≤ q.maxFrames) (hf : f.size ≤ q.maxBytes) (fs : List LiveFrame)
    (bytes drops : Nat) (hb : bytes = totalSize fs) :
    RoomFor q f fs (dropOldest q.maxFrames q.maxBytes f.size fs bytes drops) drops := by
  induction fs generalizing bytes drops with
  | nil =>
    rw [dropOldest]
    exact ⟨.self ⟨by simpa using hframes,by simpa [totalSize] using hf⟩,hb,rfl⟩
  | cons front rest ih =>
    rw [dropOldest]
    split
    · rename_i hfull
      have hroom := ih (bytes - front.size) (drops + 1) (by rw [hb,totalSize]; omega)
      refine ⟨hroom.kept.cons ?_,hroom.bytes,?_⟩
      · rintro ⟨hl,hs⟩
        rw [← hb] at hs
        omega
      · have := hroom.drops
        rw [List.length_cons]
        omega
    · rename_i hfits
      have hfit : q.FitsBeside f (front :: rest) := by
        unfold BoundedFrameQueue.FitsBeside
        rw [← hb]
        omega
      exact ⟨.self hfit,hb,rfl⟩

theorem makeRoom_spec (hi : QueueInv q) (hframes : 1 ≤ q.maxFrames) (hf : f.size ≤ q.maxBytes) :
    RoomFor q f q.frames (q.makeRoom f.size) q.drops :=
  dropOldest_room hframes hf q.frames q.bytes q.drops hi.bytes

theorem push_open (hc : q.closed = false) (hf : f.size ≤ q.maxBytes) :
    q.push (some f) = ((q.makeRoom f.size).2.2 == q.drops,
      { q with
        frames := (q.makeRoom f.size).1 ++ [f]
        bytes := (q.makeRoom f.size).2.1 + f.size
        drops := (q.makeRoom f.size).2.2 }) := by
  simp only [BoundedFrameQueue.push,hc,Bool.false_eq_true,if_false,if_neg (not_lt.mpr hf)]

theorem push_inv (hi : QueueInv q) (hframes : 1 ≤ q.maxFrames) (frame : Option LiveFrame) :
    QueueInv (q.push frame).2 := by
  cases frame with
  | none => exact hi
  | some f =>
    cases hc : q.closed with
    | true => simpa [BoundedFrameQueue.push,hc] using hi
    | false =>
      by_cases hf : f.size ≤ q.maxBytes
      · have hroom := makeRoom_spec hi hframes hf
        obtain ⟨hlen,hsize⟩ := hroom.kept.fits
        rw [push_open hc hf]
        refine ⟨?_,?_,?_,fun h => absurd h (by simp [hc])⟩
        · simp only [totalSize_append,totalSize,hroom.bytes,Nat.add_zero]
        · simpa using hlen
        · simpa only [hroom.bytes] using hsize
      · simp only [BoundedFrameQueue.push,hc,Bool.false_eq_true,if_false,if_pos (not_le.mp hf)]
        exact ⟨hi.bytes,hi.frames_le,hi.bytes_le,fun h => absurd h Bool.false_ne_true⟩

theorem tryPop_inv (hi : QueueInv q) : QueueInv q.tryPop.2 := by
  unfold BoundedFrameQueue.tryPop
  split
  · exact hi
  · rename_i front rest hq
    have hb := hi.bytes
    have hl := hi.frames_le
    have hm := hi.bytes_le
    rw [hq] at hl
    rw [hq,totalSize] at hb
    refine ⟨?_,?_,?_,fun h => ?_⟩
    · simp only
      omega
    · simp only [List.length_cons] at hl
      simp only
      omega
    · simp only
      omega
    · have := hi.closed h
      rw [hq] at this
      cases this

structure QueueHistory (maxFrames maxBytes : Nat) (h : List QueueEvent) (q : BoundedFrameQueue) : Prop where
  limits : q.maxFrames = maxFrames ∧ q.maxBytes = maxBytes
  inv : QueueInv q
  order : (poppedFrames h ++ q.frames).Sublist (pushedFrames h)
  closed : q.closed = true ↔ .closed ∈ h
  counted : q.closed = false → (pushedFrames h).length =
    (poppedFrames h).length + q.drops + q.frames.length

theorem push_history {maxFrames maxBytes : Nat} {h : List QueueEvent} (hh : QueueHistory maxFrames maxBytes h q)
    (hframes : 1 ≤ maxFrames) (frame : Option LiveFrame) :
    QueueHistory maxFrames maxBytes (h ++ [.pushed frame (q.push frame).1]) (q.push frame).2 := by
  obtain ⟨⟨rfl,rfl⟩,hi,horder,hclosed,hcount⟩ := hh
  have hinv := push_inv hi hframes frame
  cases frame with
  | none =>
    have hq : q.push none = (false,q) := rfl
    rw [hq]
    exact ⟨⟨rfl,rfl⟩,hi,by simpa using horder,by simpa using hclosed,by simpa using hcount⟩
  | some f =>
    have hold := horder.trans (List.sublist_append_left _ [f])
    have hmem (r : Bool) : .closed ∈ h ++ [.pushed (some f) r] ↔ .closed ∈ h := by simp
    cases hc : q.closed with
    | true =>
      have hq : q.push (some f) = (false,q) := by simp [BoundedFrameQueue.push,hc]
      rw [hq]
      refine ⟨⟨rfl,rfl⟩,hi,?_,?_,fun ho => ?_⟩
      · simpa using hold
      · rw [hmem]
        exact hclosed
      · rw [hc] at ho
        cases ho
    | false =>
      have hcounted := hcount hc
      by_cases hf : f.size ≤ q.maxBytes
      · have hroom := makeRoom_spec hi hframes hf
        rw [push_open hc hf] at hinv ⊢
        refine ⟨⟨rfl,rfl⟩,hinv,?_,?_,fun _ => ?_⟩
        · rw [pushedFrames_pushed,poppedFrames_pushed,← List.append_assoc]
          refine List.Sublist.append ?_ (List.Sublist.refl _)
          exact (List.Sublist.append (List.Sublist.refl _) hroom.kept.suffix.sublist).trans horder
        · rw [hmem]
          exact hclosed
        · have := hroom.drops
          simp only [pushedFrames_pushed,poppedFrames_pushed,Option.toList_some,List.length_append,
            List.length_singleton]
          omega
      · have hq : q.push (some f) = (false,{ q with drops := q.drops + 1 }) := by
          simp only [BoundedFrameQueue.push,hc,Bool.false_eq_true,if_false,if_pos (not_le.mp hf)]
        rw [hq] at hinv ⊢
        refine ⟨⟨rfl,rfl⟩,hinv,?_,?_,fun _ => ?_⟩
        · simpa using hold
        · rw [hmem]
          exact hclosed
        · simp only [pushedFrames_pushed,poppedFrames_pushed,Option.toList_some,List.length_append,
            List.length_singleton]
          omega

theorem tryPop_history {maxFrames maxBytes : Nat} {h : List QueueEvent}
    (hh : QueueHistory maxFrames maxBytes h q) :
    QueueHistory maxFrames maxBytes (h ++ [.popped q.tryPop.1]) q.tryPop.2 := by
  have hinv := tryPop_inv hh.inv
  obtain ⟨hlimits,hi,horder,hclosed,hcount⟩ := hh
  cases hq : q.frames with
  | nil =>
    have hpop : q.tryPop = (none,q) := by simp [BoundedFrameQueue.tryPop,hq]
    rw [hpop]
    exact ⟨hlimits,hi,by simpa using horder,by simpa using hclosed,by simpa using hcount⟩
  | cons front rest =>
    have hpop : q.tryPop = (some front,{ q with frames := rest, bytes := q.bytes - front.size }) := by
      simp [BoundedFrameQueue.tryPop,hq]
    rw [hpop] at hinv ⊢
    rw [hq] at horder hcount
    refine ⟨hlimits,hinv,?_,by simpa using hclosed,fun ho => ?_⟩
    · simpa using horder
    · have := hcount ho
      simp only [pushedFrames_popped,poppedFrames_popped,Option.toList_some,List.length_append,
        List.length_cons,List.length_nil] at this ⊢
      omega

theorem close_history {maxFrames maxBytes : Nat} {h : List QueueEvent}
    (hh : QueueHistory maxFrames maxBytes h q) :
    QueueHistory maxFrames maxBytes (h ++ [.closed]) q.close := by
  refine ⟨hh.limits,⟨rfl,Nat.zero_le _,Nat.zero_le _,fun _ => rfl⟩,?_,?_,fun ho => ?_⟩
  · have := (List.sublist_append_left _ _).trans hh.order
    simpa [BoundedFrameQueue.close] using this
  · simp [BoundedFrameQueue.close]
  · cases ho

theorem queueHistory_step {maxFrames maxBytes : Nat} {h ev : List QueueEvent} {t : BoundedFrameQueue} {op : QueueOp}
    (hh : QueueHistory maxFrames maxBytes h q) (hframes : 1 ≤ maxFrames)
    (hs : q.step op = some (ev,t)) : QueueHistory maxFrames maxBytes (h ++ ev) t := by
  cases op with
  | push frame =>
    cases hs
    exact push_history hh hframes frame
  | tryPop =>
    cases hs
    exact tryPop_history hh
  | close =>
    cases hs
    exact close_history hh

end

theorem queueRun_history {maxFrames : Nat} (maxBytes : Nat) (hframes : 1 ≤ maxFrames) (ops : List QueueOp) :
    QueueHistory maxFrames maxBytes (queueRun maxFrames maxBytes ops).1 (queueRun maxFrames maxBytes ops).2 := by
  refine @run_keeps _ _ _ BoundedFrameQueue.step (QueueHistory maxFrames maxBytes) ?_ _ ops ?_
  · exact fun h q op ev t hh hs => queueHistory_step hh hframes hs
  · exact ⟨⟨rfl,rfl⟩,⟨rfl,Nat.zero_le _,Nat.zero_le _,fun _ => rfl⟩,List.Sublist.refl _,by simp,fun _ => rfl⟩

theorem tryPop_front (q : BoundedFrameQueue) :
    q.tryPop.1 = q.frames.head? ∧ q.tryPop.2.frames = q.frames.tail := by
  unfold BoundedFrameQueue.tryPop
  split
  · rename_i h
    simp [h]
  · rename_i h
    simp [h]

theorem bounded_drop_oldest (maxFrames maxBytes : Nat) (hframes : 1 ≤ maxFrames) (ops : List QueueOp) :
    let h := (queueRun maxFrames maxBytes ops).1
    let q := (queueRun maxFrames maxBytes ops).2
    (q.bytes = totalSize q.frames ∧ q.frames.length ≤ maxFrames ∧ q.bytes ≤ maxBytes) ∧
    (∀ f : LiveFrame, f.size ≤ maxBytes → .closed ∉ h →
      ∃ kept, LongestSuffix (fun fs => fs.length + 1 ≤ maxFrames ∧ totalSize fs + f.size ≤ maxBytes)
          kept q.frames ∧
        (q.push (some f)).2.frames = kept ++ [f] ∧ ((q.push (some f)).1 = true ↔ kept = q.frames)) ∧
    (poppedFrames h ++ q.frames).Sublist (pushedFrames h) ∧
    (.closed ∉ h → (pushedFrames h).length =
      (poppedFrames h).length + q.drops + q.frames.length) ∧
    (.closed ∈ h → q.frames = []) ∧ q.tryPop.1 = q.frames.head? ∧ q.tryPop.2.frames = q.frames.tail := by
  intro h q
  obtain ⟨⟨hmf,hmb⟩,hi,horder,hclosed,hcount⟩ := queueRun_history maxBytes hframes ops
  have hopen (hn : .closed ∉ h) : q.closed = false := by
    rw [Bool.eq_false_iff]
    exact fun hc => hn (hclosed.mp hc)
  refine ⟨⟨hi.bytes,hmf ▸ hi.frames_le,hmb ▸ hi.bytes_le⟩,fun f hf hn => ?_,horder,
    fun hn => hcount (hopen hn),fun hm => hi.closed (hclosed.mpr hm),tryPop_front q⟩
  have hfq : f.size ≤ q.maxBytes := hmb.symm ▸ hf
  have hroom := makeRoom_spec hi (hmf.symm ▸ hframes) hfq
  have hkept := hroom.kept
  have hdrops : (q.makeRoom f.size).2.2 + (q.makeRoom f.size).1.length = q.drops + q.frames.length := hroom.drops
  unfold BoundedFrameQueue.FitsBeside at hkept
  rw [hmf,hmb] at hkept
  refine ⟨_,hkept,?_,?_⟩
  · rw [push_open (hopen hn) hfq]
  · rw [push_open (hopen hn) hfq,← hkept.eq_iff]
    simp only [beq_iff_eq]
    change (q.makeRoom f.size).2.2 = q.drops ↔ (q.makeRoom f.size).1.length = q.frames.length
    omega

def sized (serial n : Nat) : LiveFrame := ⟨serial,{ data := List.replicate n 0 }⟩

theorem large_frame_evicts_two :
    let r := queueRun 3 10 [.push (some (sized 0 4)),.push (some (sized 1 4)),.push (some (sized 2 1)),
      .push (some (sized 3 9)),.push (some (sized 4 11)),.tryPop]
    r.2.frames = [sized 3 9] ∧ r.2.drops = 3 ∧
      (pushedFrames r.1).length =
        (poppedFrames r.1).length + r.2.drops + r.2.frames.length :=
  ⟨by decide,by decide,(bounded_drop_oldest 3 10 (by decide) _).2.2.2.1 (by decide)⟩

end RpiVms

import RpiVms.Live.RtpStream

namespace RpiVms

-- the timestamps frame_timestamp returns, call after call on one client's state
def stampRun : RtpState → List OwnedLiveFrame → List UInt32
  | _,[] => []
  | media,frame :: rest => (frameTimestamp media frame).1 :: stampRun (frameTimestamp media frame).2 rest

def deltaNs (first pts : Int64) : Int64 := if pts - first < 0 then 0 else pts - first

def ptsStamp (origin : UInt32) (first pts : Int64) : UInt32 :=
  origin + int64ToUInt32 (deltaNs first pts * 90000 / 1000000000)

def ProductExact (first pts : Int64) : Prop := (deltaNs first pts * 90000).toInt = (deltaNs first pts).toInt * 90000

instance (first pts : Int64) : Decidable (ProductExact first pts) := inferInstanceAs (Decidable (_ = _))

def ticks (ns : Int) : Int := ns * 90000 / 1000000000

section

variable {first pts : Int64}

theorem toInt_nonneg (h : 0 ≤ pts) : 0 ≤ pts.toInt := by simpa using Int64.le_iff_toInt_le.mp h

theorem deltaNs_toInt (hf : 0 ≤ first) (hp : 0 ≤ pts) :
    (deltaNs first pts).toInt = max 0 (pts.toInt - first.toInt) := by
  have hf0 := toInt_nonneg hf
  have hp0 := toInt_nonneg hp
  have hf1 := first.toInt_lt
  have hp1 := pts.toInt_lt
  have hsub : (pts - first).toInt = pts.toInt - first.toInt := by
    rw [Int64.toInt_sub]
    exact Int.bmod_eq_of_le (by omega) (by omega)
  have hneg : pts - first < 0 ↔ pts.toInt - first.toInt < 0 := by
    rw [Int64.lt_iff_toInt_lt,hsub]
    simp
  unfold deltaNs
  split
  · rename_i h
    rw [max_eq_left (hneg.mp h).le]
    rfl
  · rename_i h
    rw [hneg,not_lt] at h
    rw [hsub,max_eq_right h]

theorem productExact_iff (hf : 0 ≤ first) (hp : 0 ≤ pts) :
    ProductExact first pts ↔ pts.toInt - first.toInt ≤ 102481911520608 := by
  have hd := deltaNs_toInt hf hp
  have hlt := (deltaNs first pts * 90000).toInt_lt
  have hconst : (90000 : Int64).toInt = 90000 := by decide
  unfold ProductExact
  constructor
  · intro h
    omega
  · intro h
    rw [Int64.toInt_mul,hconst]
    exact Int.bmod_eq_of_le (by omega) (by omega)

theorem int64ToUInt32_toNat {v : Int64} (h : 0 ≤ v.toInt) : ((int64ToUInt32 v).toNat : Int) = v.toInt % 2 ^ 32 := by
  have hv : 0 ≤ v := Int64.le_iff_toInt_le.mpr (by simpa using h)
  rw [int64ToUInt32,UInt64.toNat_toUInt32,Int64.toNat_toUInt64_of_le hv,← Int64.toNat_toInt]
  omega

theorem ptsStamp_toNat (origin : UInt32) (hf : 0 ≤ first) (hp : 0 ≤ pts) (h : ProductExact first pts) :
    ((ptsStamp origin first pts).toNat : Int) =
      (origin.toNat + ticks (max 0 (pts.toInt - first.toInt))) % 2 ^ 32 := by
  have hd := deltaNs_toInt hf hp
  have hconst : (1000000000 : Int64).toInt = 1000000000 := by decide
  have hdiv : (deltaNs first pts * 90000 / 1000000000).toInt = ticks (max 0 (pts.toInt - first.toInt)) := by
    rw [Int64.toInt_div_of_ne_right _ _ (by decide),h,hconst,hd,ticks,Int.tdiv_eq_ediv_of_nonneg (by omega)]
  have hnonneg : 0 ≤ ticks (max 0 (pts.toInt - first.toInt)) := by
    rw [ticks]
    omega
  have hword := int64ToUInt32_toNat (hdiv ▸ hnonneg)
  rw [hdiv] at hword
  rw [ptsStamp,UInt32.toNat_add]
  omega

theorem frameTimestamp_pts {media : RtpState} {frame : OwnedLiveFrame} (hp : 0 ≤ frame.ptsNs)
    (hf : (if media.firstPtsNs < 0 then frame.ptsNs else media.firstPtsNs) = first) :
    ∃ stamp, stamp = ptsStamp media.timestampOrigin first frame.ptsNs ∧
      frameTimestamp media frame = (stamp,{ media with firstPtsNs := first, lastTimestamp := stamp }) := by
  refine ⟨_,rfl,?_⟩
  rw [frameTimestamp,if_pos hp,← hf]
  rfl

theorem stampRun_started (frames : List OwnedLiveFrame) (media : RtpState) (hf : 0 ≤ media.firstPtsNs)
    (h : ∀ f ∈ frames, 0 ≤ f.ptsNs) :
    stampRun media frames = frames.map fun f => ptsStamp media.timestampOrigin media.firstPtsNs f.ptsNs := by
  induction frames generalizing media with
  | nil => rfl
  | cons f rest ih =>
    obtain ⟨stamp,hs,hstep⟩ := frameTimestamp_pts (h f (by simp)) (if_neg (Int64.not_lt.mpr hf))
    have hrest := ih (frameTimestamp media f).2 (by rwa [hstep]) fun x hx => h x (by simp [hx])
    rw [stampRun,hrest,hstep,List.map_cons,← hs]

end

def firstPts : List OwnedLiveFrame → Int64
  | [] => -1
  | f :: _ => f.ptsNs

theorem stampRun_fresh (frames : List OwnedLiveFrame) (media : RtpState) (hm : media.firstPtsNs = -1)
    (h : ∀ f ∈ frames, 0 ≤ f.ptsNs) :
    stampRun media frames = frames.map fun f => ptsStamp media.timestampOrigin (firstPts frames) f.ptsNs := by
  cases frames with
  | nil => rfl
  | cons f rest =>
    have hf := h f (by simp)
    have hfirst : media.firstPtsNs < 0 := by
      rw [hm]
      decide
    obtain ⟨stamp,hs,hstep⟩ := frameTimestamp_pts hf (if_pos hfirst)
    have hrest := stampRun_started rest (frameTimestamp media f).2 (by rwa [hstep]) fun x hx => h x (by simp [hx])
    rw [stampRun,hrest,hstep,List.map_cons,firstPts,← hs]

theorem stampRun_clock {media other : RtpState} (frames : List OwnedLiveFrame) (h : media.clock = other.clock) :
    stampRun media frames = stampRun other frames := by
  induction frames generalizing media other with
  | nil => rfl
  | cons f rest ih =>
    obtain ⟨hs,hc⟩ := frameTimestamp_clock h f
    rw [stampRun,stampRun,hs,ih hc]

def heldBack (media : RtpState) (calls : List SendCall) : List SendCall :=
  if media.waitingForKeyframe then calls.takeWhile (!·.frame.keyFrame) else []

theorem heldBack_cons (media : RtpState) (call : SendCall) (calls : List SendCall) :
    heldBack media (call :: calls) =
      if holdsBack media call.frame then call :: heldBack media calls else [] := by
  unfold heldBack holdsBack
  cases media.waitingForKeyframe with
  | false => rfl
  | true => cases hk : call.frame.keyFrame <;> simp [hk]

theorem sendRun_stamped (mtu : Nat) (calls : List SendCall) (media : RtpState) (i : Nat) (r : SendResult)
    (h : (sendRun mtu media calls)[(heldBack media calls).length + i]? = some r) :
    ∃ stamp, (stampRun media ((calls.drop (heldBack media calls).length).map (·.frame)))[i]? = some stamp ∧
      ∀ p ∈ r.packets, rtpTimestamp p.bytes = stamp.toNat := by
  induction calls generalizing media i with
  | nil => simp [sendRun] at h
  | cons call calls ih =>
    rw [heldBack_cons] at h ⊢
    cases hb : holdsBack media call.frame with
    | true =>
      simp only [hb,if_true,List.length_cons,List.drop_succ_cons] at h ⊢
      have hkeep : sendFrame mtu media call = ⟨media,[],[],[],.sent⟩ := by simp [sendFrame,hb]
      rw [sendRun,hkeep,Nat.add_right_comm,List.getElem?_cons_succ] at h
      exact ih media i h
    | false =>
      simp only [hb,Bool.false_eq_true,if_false,List.length_nil,Nat.zero_add,List.drop_zero,List.map_cons] at h ⊢
      obtain ⟨hp,hk⟩ := sendFrame_stamped mtu hb
      rw [sendRun] at h
      rw [stampRun]
      cases i with
      | zero =>
        obtain rfl : sendFrame mtu media call = r := by simpa using h
        exact ⟨_,rfl,hp⟩
      | succ i =>
        rw [List.getElem?_cons_succ] at h
        split at h
        · have hwait := sendFrame_opens mtu hb
          have hnone : heldBack (sendFrame mtu media call).media calls = [] := by simp [heldBack,hwait]
          obtain ⟨s,hs,hstamps⟩ := ih (sendFrame mtu media call).media i (by simpa [hnone] using h)
          refine ⟨s,?_,hstamps⟩
          rw [hnone] at hs
          rwa [List.getElem?_cons_succ,stampRun_clock _ (congrArg Prod.fst hk).symm]
        · simp at h

theorem timestamps_exact_iff (sequence : UInt16) (ssrc origin : UInt32) (first : OwnedLiveFrame)
    (rest : List OwnedLiveFrame) (h : ∀ f ∈ first :: rest, 0 ≤ f.ptsNs ∧ first.ptsNs ≤ f.ptsNs) :
    ((stampRun { sequence := sequence, ssrc := ssrc, timestampOrigin := origin } (first :: rest)).map
        (fun s => (s.toNat : Int)) =
      (first :: rest).map (fun f =>
        (origin.toNat + (f.ptsNs.toInt - first.ptsNs.toInt) * 90000 / 10 ^ 9) % 2 ^ 32) ∧
      ∀ f ∈ first :: rest, ProductExact first.ptsNs f.ptsNs) ↔
    ∀ f ∈ first :: rest, f.ptsNs.toInt - first.ptsNs.toInt ≤ 102481911520608 := by
  have hfirst := (h first (by simp)).1
  constructor
  · rintro ⟨-,hexact⟩ f hf
    exact (productExact_iff hfirst (h f hf).1).mp (hexact f hf)
  · intro hbound
    have hexact : ∀ f ∈ first :: rest, ProductExact first.ptsNs f.ptsNs :=
      fun f hf => (productExact_iff hfirst (h f hf).1).mpr (hbound f hf)
    refine ⟨?_,hexact⟩
    rw [stampRun_fresh _ _ rfl fun f hf => (h f hf).1,List.map_map]
    refine List.map_congr_left fun f hf => ?_
    have hle := Int64.le_iff_toInt_le.mp (h f hf).2
    have hstamp := ptsStamp_toNat origin hfirst (h f hf).1 (hexact f hf)
    rw [max_eq_right (by omega)] at hstamp
    exact hstamp

theorem one_second_is_90000 :
    let frames : List OwnedLiveFrame := [{ data := [], ptsNs := 5 },{ data := [], ptsNs := 1000000005 }]
    (∀ f ∈ frames, 0 ≤ f.ptsNs ∧ 5 ≤ f.ptsNs) ∧
    (stampRun { sequence := 0, ssrc := 0, timestampOrigin := 7 } frames).map (fun s => (s.toNat : Int)) =
      frames.map (fun f => (7 + (f.ptsNs.toInt - 5) * 90000 / 10 ^ 9) % 2 ^ 32) := by
  intro frames
  have hdomain : ∀ f ∈ frames, 0 ≤ f.ptsNs ∧ 5 ≤ f.ptsNs := by decide
  exact ⟨hdomain,((timestamps_exact_iff 0 0 7 _ _ hdomain).mpr (by decide)).1⟩

theorem twenty_nine_hours_overflow :
    let late : OwnedLiveFrame := { data := [], ptsNs := 102481911520609 }
    ¬ ProductExact 0 late.ptsNs ∧
    (stampRun { sequence := 0, ssrc := 0, timestampOrigin := 0 } [{ data := [], ptsNs := 0 },late]).map
      (fun s => (s.toNat : Int)) ≠ [0,(102481911520609 * 90000 / 10 ^ 9) % 2 ^ 32] := by
  exact ⟨by decide +kernel,by decide +kernel⟩

def KeepsMoving (first lo hi : Int) : Prop :=
  (first ≤ lo ∨ first + 11112 ≤ hi) ∧
    (first ≤ lo → (lo - first) * 9 % 100000 + (hi - lo) * 9 < 2 ^ 32 * 100000)

theorem ticks_eq (ns : Int) : ticks ns = ns * 9 / 100000 := by
  rw [ticks]
  omega

theorem wrapped_eq_iff {origin x y : Int} (hle : x ≤ y) (hshort : y ≤ x + 2 ^ 32) :
    (origin + x) % 2 ^ 32 = (origin + y) % 2 ^ 32 ↔ y = x ∨ y = x + 2 ^ 32 := by omega

theorem ticks_differ_iff {origin first lo hi : Int} (hgap : lo + 11112 ≤ hi)
    (hshort : (hi - lo) * 9 < 2 ^ 32 * 100000) :
    (origin + ticks (max 0 (lo - first))) % 2 ^ 32 ≠ (origin + ticks (max 0 (hi - first))) % 2 ^ 32 ↔
      KeepsMoving first lo hi := by
  rw [ticks_eq,ticks_eq,KeepsMoving,Ne]
  by_cases hlo : first ≤ lo
  · rw [max_eq_right (by omega),max_eq_right (by omega),wrapped_eq_iff (by omega) (by omega)]
    simp only [hlo,true_or,true_and,forall_const]
    omega
  · rw [max_eq_left (by omega),wrapped_eq_iff (by omega) (by omega)]
    simp only [hlo,false_or,false_implies,and_true]
    omega

theorem ticks_move_iff {origin first a b : Int} (hgap : 11112 ≤ |a - b|) (hshort : |a - b| * 9 < 2 ^ 32 * 100000) :
    (origin + ticks (max 0 (a - first))) % 2 ^ 32 ≠ (origin + ticks (max 0 (b - first))) % 2 ^ 32 ↔
      KeepsMoving first (min a b) (max a b) := by
  rcases le_total a b with hab | hab
  · rw [abs_of_nonpos (by omega)] at hgap hshort
    rw [min_eq_left hab,max_eq_right hab]
    exact ticks_differ_iff (by omega) (by omega)
  · rw [abs_of_nonneg (by omega)] at hgap hshort
    rw [min_eq_right hab,max_eq_left hab,ne_comm]
    exact ticks_differ_iff (by omega) (by omega)

theorem timestamps_move_iff (sequence : UInt16) (ssrc origin : UInt32) (before after : List OwnedLiveFrame)
    (a b : OwnedLiveFrame) (h : ∀ f ∈ before ++ a :: b :: after, 0 ≤ f.ptsNs)
    (hgap : 11112 ≤ |a.ptsNs.toInt - b.ptsNs.toInt|)
    (hshort : |a.ptsNs.toInt - b.ptsNs.toInt| * 9 < 2 ^ 32 * 100000)
    (ha : ProductExact (firstPts (before ++ a :: b :: after)) a.ptsNs)
    (hb : ProductExact (firstPts (before ++ a :: b :: after)) b.ptsNs) :
    let stamps := stampRun { sequence := sequence, ssrc := ssrc, timestampOrigin := origin }
      (before ++ a :: b :: after)
    stamps[before.length]? ≠ stamps[before.length + 1]? ↔
      KeepsMoving (firstPts (before ++ a :: b :: after)).toInt (min a.ptsNs.toInt b.ptsNs.toInt)
        (max a.ptsNs.toInt b.ptsNs.toInt) := by
  intro stamps
  have hfirst : 0 ≤ firstPts (before ++ a :: b :: after) := by
    cases before with
    | nil => exact h a (by simp)
    | cons f before => exact h f (by simp)
  have hstamps : stamps = _ := stampRun_fresh (before ++ a :: b :: after) _ rfl h
  have hsa := ptsStamp_toNat origin hfirst (h a (by simp)) ha
  have hsb := ptsStamp_toNat origin hfirst (h b (by simp)) hb
  rw [← @ticks_move_iff origin.toNat _ _ _ hgap hshort,← hsa,← hsb,hstamps]
  simp [UInt32.toNat_inj]

theorem steady_frames_move :
    let frames : List OwnedLiveFrame :=
      [{ data := [], ptsNs := 0 },{ data := [], ptsNs := 33333333 },{ data := [], ptsNs := 66666666 }]
    let stamps := stampRun { sequence := 0, ssrc := 0, timestampOrigin := 7 } frames
    stamps[1]? ≠ stamps[2]? := by
  intro frames stamps
  exact (timestamps_move_iff 0 0 7 [{ data := [], ptsNs := 0 }] [] { data := [], ptsNs := 33333333 }
    { data := [], ptsNs := 66666666 } (by decide) (by decide) (by decide) (by decide +kernel)
    (by decide +kernel)).mpr ⟨.inl (by decide),fun _ => by decide⟩

theorem restarted_pts_freezes :
    let frames : List OwnedLiveFrame := [{ data := [], ptsNs := 5000000000 },{ data := [], ptsNs := 0 },
      { data := [], ptsNs := 1000000000 },{ data := [], ptsNs := 2000000000 }]
    (∀ f ∈ frames, ProductExact 5000000000 f.ptsNs) ∧
    ∀ origin, stampRun { sequence := 0, ssrc := 0, timestampOrigin := origin } frames =
      [origin,origin,origin,origin] := by
  intro frames
  refine ⟨by decide +kernel,fun origin => ?_⟩
  rw [stampRun_fresh frames _ rfl (by decide)]
  simp only [frames,List.map_cons,List.map_nil,firstPts]
  have hzero (pts : Int64) (h : int64ToUInt32 (deltaNs 5000000000 pts * 90000 / 1000000000) = 0) :
      ptsStamp origin 5000000000 pts = origin := by
    rw [ptsStamp,h,UInt32.add_zero]
  rw [hzero _ (by decide),hzero _ (by decide),hzero _ (by decide),hzero _ (by decide)]

end RpiVms

import RpiVms.Live.Timestamps

namespace RpiVms

def frameDuration (frame : OwnedLiveFrame) : Int64 := if frame.durationNs > 0 then frame.durationNs else 33333333

def DurationExact (frame : OwnedLiveFrame) : Prop :=
  (frameDuration frame * 90000).toInt = (frameDuration frame).toInt * 90000

instance (frame : OwnedLiveFrame) : Decidable (DurationExact frame) := inferInstanceAs (Decidable (_ = _))

def durationTicks (frame : OwnedLiveFrame) : Int := ticks (frameDuration frame).toInt

def frameTicks (frame : OwnedLiveFrame) : UInt32 := int64ToUInt32 (frameDuration frame * 90000 / 1000000000)

-- the zero test comes after the addition
def untimedStamp (origin last : UInt32) (frame : OwnedLiveFrame) : UInt32 :=
  if last + frameTicks frame = 0 then origin else last + frameTicks frame

def untimedRun (origin : UInt32) : UInt32 → List OwnedLiveFrame → List UInt32
  | _,[] => []
  | last,frame :: rest => untimedStamp origin last frame :: untimedRun origin (untimedStamp origin last frame) rest

def countTicks (now : Int) : List OwnedLiveFrame → List Int
  | [] => [now]
  | frame :: rest => now :: countTicks ((now + durationTicks frame) % 2 ^ 32) rest

def AvoidsZero (now : Int) (frames : List OwnedLiveFrame) : Prop :=
  ∀ k, 0 < k → k ≤ frames.length → (now + ((frames.take k).map durationTicks).sum) % 2 ^ 32 ≠ 0

section

variable {frame : OwnedLiveFrame}

theorem frameDuration_pos (frame : OwnedLiveFrame) : 0 < (frameDuration frame).toInt := by
  unfold frameDuration
  split
  · rename_i h
    simpa using Int64.lt_iff_toInt_lt.mp h
  · decide

theorem frameTicks_toNat (h : DurationExact frame) : ((frameTicks frame).toNat : Int) = durationTicks frame % 2 ^ 32 := by
  have hpos := frameDuration_pos frame
  have hconst : (1000000000 : Int64).toInt = 1000000000 := by decide
  have hdiv : (frameDuration frame * 90000 / 1000000000).toInt = durationTicks frame := by
    rw [Int64.toInt_div_of_ne_right _ _ (by decide),h,hconst,durationTicks,ticks,
      Int.tdiv_eq_ediv_of_nonneg (by omega)]
  have hnonneg : 0 ≤ durationTicks frame := by
    rw [durationTicks,ticks]
    omega
  rw [frameTicks,int64ToUInt32_toNat (hdiv ▸ hnonneg),hdiv]

theorem moved_toNat (h : DurationExact frame) (last : UInt32) :
    ((last + frameTicks frame).toNat : Int) = (last.toNat + durationTicks frame) % 2 ^ 32 := by
  have ha := frameTicks_toNat h
  rw [UInt32.toNat_add]
  omega

theorem frameTimestamp_untimed (media : RtpState) (h : frame.ptsNs = -1) :
    frameTimestamp media frame =
      (untimedStamp media.timestampOrigin media.lastTimestamp frame,
        { media with lastTimestamp := untimedStamp media.timestampOrigin media.lastTimestamp frame }) := by
  rw [frameTimestamp,if_neg (by rw [h]; decide)]
  rfl

theorem stampRun_untimed (frames : List OwnedLiveFrame) (media : RtpState) (h : ∀ f ∈ frames, f.ptsNs = -1) :
    stampRun media frames = untimedRun media.timestampOrigin media.lastTimestamp frames := by
  induction frames generalizing media with
  | nil => rfl
  | cons f rest ih =>
    have hrest := ih { media with lastTimestamp := untimedStamp media.timestampOrigin media.lastTimestamp f }
      fun x hx => h x (by simp [hx])
    rw [stampRun,frameTimestamp_untimed media (h f (by simp)),untimedRun]
    exact congrArg _ hrest

end

theorem stamp_eq_iff {s t : UInt32} : (s.toNat : Int) = t.toNat ↔ s = t := by
  rw [Int.natCast_inj,UInt32.toNat_inj]

theorem countTicks_head (now : Int) (frames : List OwnedLiveFrame) : (countTicks now frames).head? = some now := by
  cases frames <;> rfl

theorem avoidsZero_cons {now : Int} {frame : OwnedLiveFrame} {rest : List OwnedLiveFrame} :
    AvoidsZero now (frame :: rest) ↔
      (now + durationTicks frame) % 2 ^ 32 ≠ 0 ∧ AvoidsZero ((now + durationTicks frame) % 2 ^ 32) rest := by
  constructor
  · intro h
    refine ⟨by simpa using h 1 Nat.one_pos (by simp),fun k hk hle => ?_⟩
    have hnext := h (k + 1) (Nat.succ_pos k) (by simpa using hle)
    rw [List.take_succ_cons,List.map_cons,List.sum_cons] at hnext
    omega
  · rintro ⟨hfirst,hrest⟩ k hk hle
    obtain ⟨k,rfl⟩ : ∃ n, k = n + 1 := ⟨k - 1,by omega⟩
    rw [List.take_succ_cons,List.map_cons,List.sum_cons]
    rcases Nat.eq_zero_or_pos k with rfl | hpos
    · simpa using hfirst
    · have hnext := hrest k hpos (by simpa using hle)
      omega

theorem untimedRun_counts_iff (origin : UInt32) (frames : List OwnedLiveFrame) (now : UInt32)
    (h : ∀ f ∈ frames, DurationExact f) :
    (now :: untimedRun origin now frames).map (fun s => (s.toNat : Int)) = countTicks now.toNat frames ↔
      origin = 0 ∨ AvoidsZero now.toNat frames := by
  induction frames generalizing now with
  | nil =>
    refine iff_of_true rfl (.inr fun k hk hle => ?_)
    exact absurd hk (Nat.not_lt.mpr hle)
  | cons f rest ih =>
    have hmoved := moved_toNat (h f (by simp)) now
    have hzero : now + frameTicks f = 0 ↔ ((now.toNat : Int) + durationTicks f) % 2 ^ 32 = 0 := by
      rw [← hmoved]
      exact (stamp_eq_iff (t := 0)).symm
    have hrest : ∀ x ∈ rest, DurationExact x := fun x hx => h x (by simp [hx])
    rw [untimedRun,List.map_cons,countTicks,List.cons_inj_right,avoidsZero_cons,← hmoved,untimedStamp]
    by_cases hz : now + frameTicks f = 0
    · -- the clock stands at 0, and the code goes back to the origin instead
      rw [if_pos hz,hz]
      constructor
      · intro heq
        have hhead := congrArg List.head? heq
        rw [countTicks_head,List.map_cons,List.head?_cons] at hhead
        exact .inl (stamp_eq_iff.mp (Option.some.inj hhead))
      · rintro (rfl | ⟨hne,-⟩)
        · exact (ih 0 hrest).mpr (.inl rfl)
        · exact absurd rfl hne
    · rw [if_neg hz,ih _ hrest,hmoved]
      rw [hzero] at hz
      simp only [ne_eq,hz,not_false_eq_true,true_and]

theorem untimed_counts_iff (sequence : UInt16) (ssrc origin : UInt32) (first : OwnedLiveFrame)
    (rest : List OwnedLiveFrame) (h : ∀ f ∈ first :: rest, f.ptsNs = -1 ∧ DurationExact f) :
    (stampRun { sequence := sequence, ssrc := ssrc, timestampOrigin := origin } (first :: rest)).map
        (fun s => (s.toNat : Int)) = countTicks origin.toNat rest ↔
      (durationTicks first % 2 ^ 32 = 0 ∨ durationTicks first % 2 ^ 32 = origin.toNat) ∧
        (origin = 0 ∨ AvoidsZero origin.toNat rest) := by
  have hticks := frameTicks_toNat (h first (by simp)).2
  have hstart : untimedStamp origin 0 first = origin ↔
      durationTicks first % 2 ^ 32 = 0 ∨ durationTicks first % 2 ^ 32 = origin.toNat := by
    rw [← hticks,untimedStamp,UInt32.zero_add]
    have hzero : ((frameTicks first).toNat : Int) = 0 ↔ frameTicks first = 0 := stamp_eq_iff (t := 0)
    rw [hzero,stamp_eq_iff]
    split
    · rename_i hz
      exact iff_of_true rfl (.inl hz)
    · rename_i hz
      exact (or_iff_right hz).symm
  have hcounts := untimedRun_counts_iff origin rest origin fun f hf => (h f (by simp [hf])).2
  rw [stampRun_untimed _ _ fun f hf => (h f hf).1,untimedRun,← hstart,← hcounts]
  constructor
  · intro heq
    have hhead := congrArg List.head? heq
    rw [countTicks_head,List.map_cons,List.head?_cons] at hhead
    have hfirst : untimedStamp origin 0 first = origin := stamp_eq_iff.mp (Option.some.inj hhead)
    exact ⟨hfirst,by simpa only [hfirst] using heq⟩
  · rintro ⟨hfirst,heq⟩
    simpa only [hfirst] using heq

theorem untimed_counts_from_first_increment :
    let frames : List OwnedLiveFrame := [{ data := [] },{ data := [], durationNs := 40000000 }]
    (∀ f ∈ frames, f.ptsNs = -1 ∧ DurationExact f) ∧
    (stampRun { sequence := 0, ssrc := 0, timestampOrigin := 2999 } frames).map (fun s => (s.toNat : Int)) =
      countTicks 2999 [{ data := [], durationNs := 40000000 }] := by
  intro frames
  have hdomain : ∀ f ∈ frames, f.ptsNs = -1 ∧ DurationExact f := by decide
  refine ⟨hdomain,(untimed_counts_iff 0 0 2999 _ _ hdomain).mpr ⟨.inr (by decide),.inr ?_⟩⟩
  refine avoidsZero_cons.mpr ⟨by decide,fun k hk hle => ?_⟩
  exact absurd hk (Nat.not_lt.mpr hle)

theorem untimed_starts_past_origin :
    let frames : List OwnedLiveFrame := [{ data := [] },{ data := [] }]
    (∀ f ∈ frames, f.ptsNs = -1 ∧ DurationExact f) ∧
    stampRun { sequence := 0, ssrc := 0, timestampOrigin := 1000 } frames = [2999,5998] ∧
    countTicks 1000 [{ data := [] }] = [1000,3999] := by
  exact ⟨by decide,by decide +kernel,by decide⟩

end RpiVms

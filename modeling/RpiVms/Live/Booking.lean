import RpiVms.Live.Moves

namespace RpiVms

theorem sendReport_first {call : SendCall} {timestamp : UInt32} {packets : List RtpPacket} {rtp : List Bytes}
    {media : RtpState} :
    (sendReport call timestamp packets rtp media).media.firstRtpSent = media.firstRtpSent := by
  unfold sendReport
  split
  · split
    · rfl
    · split <;> rfl
  · rfl

theorem sendPackets_first {call : SendCall} {timestamp : UInt32} {packets : List RtpPacket} {media : RtpState}
    (h : media.firstRtpSent = true) : (sendPackets call timestamp packets media).media.firstRtpSent = true := by
  have hrun : (writePackets call.writeOk call.rtpChannel 0 packets media).media.firstRtpSent = true := by
    rw [(writePackets_spec call.writeOk call.rtpChannel packets 0 media).media_eq]
    exact h
  unfold sendPackets
  dsimp only
  split
  · rw [sendReport_first]
    split
    · exact hrun
    · rfl
  · exact hrun

theorem sendFrame_first {mtu : Nat} {media : RtpState} {call : SendCall} (h : media.firstRtpSent = true) :
    (sendFrame mtu media call).media.firstRtpSent = true := by
  obtain ⟨first,last,hmedia⟩ := frameTimestamp_media { media with waitingForKeyframe := false } call.frame
  unfold sendFrame
  split
  · exact h
  · dsimp only
    split
    · rw [hmedia]
      exact h
    · refine sendPackets_first ?_
      rw [hmedia]
      exact h

inductive Stage where
  | starting
  | creating
  | serving
  | leaving
  | deactivating
  | recording
  | finished
  deriving DecidableEq, Repr

def SessionPoint.stage : SessionPoint → Stage
  | .connecting | .registering | .activating => .starting
  | .creating => .creating
  | .disconnecting | .halting | .closing => .leaving
  | .deactivating => .deactivating
  | .recording => .recording
  | .finished => .finished
  | _ => .serving

namespace Session

def stage (x : Session) : Stage := x.point.stage

-- what the session has added to active_clients_ and not taken off again
def active (x : Session) : Nat :=
  match x.stage with
  | .creating | .serving | .deactivating => 1
  | .leaving => x.counted.toNat
  | .starting | .recording | .finished => 0

def closings (x : Session) : Nat := if x.stage = .finished then x.counted.toNat else 0

def firsts (x : Session) : Nat := x.rtp.firstRtpSent.toNat

end Session

theorem Session.stage_at {x : Session} {point : SessionPoint} (h : x.point = point) : x.stage = point.stage :=
  congrArg SessionPoint.stage h

structure Unbooked (x y : Session) : Prop where
  counted : y.counted = x.counted
  first : y.rtp.firstRtpSent = x.rtp.firstRtpSent

theorem Unbooked.firsts {x y : Session} (hu : Unbooked x y) : y.firsts = x.firsts :=
  congrArg Bool.toNat hu.first

inductive Booking (x y : Session) : Prop
  | begun : x.point = .connecting ∨ x.point = .registering → y.stage = .starting ∨ y.stage = .leaving →
      Unbooked x y → Booking x y
  | activated : x.point = .activating → y.stage = .creating → Unbooked x y → Booking x y
  | created : x.point = .creating → y.stage = .serving → y.counted = true →
      y.rtp.firstRtpSent = x.rtp.firstRtpSent → Booking x y
  | served : x.stage = .serving → x.inFlight = [] → y.stage = .serving ∨ y.stage = .leaving → Unbooked x y →
      Booking x y
  | sent (f : LiveFrame) : x.point = .sending f → y.stage = .serving ∨ y.stage = .leaving →
      y.counted = x.counted → (x.rtp.firstRtpSent = true → y.rtp.firstRtpSent = true) → Booking x y
  | left : x.stage = .leaving → y.stage = .leaving → Unbooked x y → Booking x y
  | ended : x.stage = .leaving → y.stage = (if x.counted then .deactivating else .finished) → Unbooked x y →
      Booking x y
  | deactivated : x.point = .deactivating → y.stage = .recording → Unbooked x y → Booking x y
  | recorded : x.point = .recording → y.stage = .finished → Unbooked x y → Booking x y

structure Serves (x y : Session) : Prop where
  stage : y.stage = .serving ∨ y.stage = .leaving
  books : Unbooked x y
  drops : y.queue.drops = x.queue.drops

section

variable {config : LiveRtspServerConfig} {running : Bool} {sets : Int → ParameterSets} {x y : Session}
  {events : List SessionEvent}

theorem pollStep_serves {ready : Option Bytes} : Serves x (pollStep config running x ready).2 := by
  unfold pollStep
  split
  · cases ready with
    | none => exact ⟨.inl rfl,⟨rfl,rfl⟩,rfl⟩
    | some chunk =>
      dsimp only
      split
      · exact ⟨.inr rfl,⟨rfl,rfl⟩,rfl⟩
      · split
        · exact ⟨.inr rfl,⟨rfl,rfl⟩,rfl⟩
        · exact ⟨.inl rfl,⟨rfl,rfl⟩,rfl⟩
  · exact ⟨.inr rfl,⟨rfl,rfl⟩,rfl⟩

theorem afterReply_serves {closeSession : Bool} : Serves x (x.afterReply closeSession) := by
  unfold Session.afterReply
  split <;> exact ⟨.inl rfl,⟨rfl,rfl⟩,rfl⟩

theorem requestStep_serves {request rest : Bytes} {drawn : SessionId} {writeOk : Bool} :
    Serves x (requestStep config sets x request rest drawn writeOk).2 := by
  unfold requestStep
  dsimp only
  split
  · exact ⟨.inl rfl,⟨rfl,rfl⟩,rfl⟩
  · split
    · exact ⟨.inl rfl,⟨rfl,rfl⟩,rfl⟩
    · obtain ⟨hstage,⟨hcounted,hfirst⟩,hdrops⟩ := @afterReply_serves
        { x with input := rest, control := _ } (answer config.channels (requestEnv config sets request drawn writeOk)
          request x.control).1.closeSession
      exact ⟨hstage,⟨hcounted,hfirst⟩,hdrops⟩

theorem extractStep_serves {drawn : SessionId} {writeOk : Bool} (hp : x.point = .parsing)
    (h : extractStep config sets x drawn writeOk = some (events,y)) : Serves x y := by
  unfold extractStep at h
  split at h
  · cases h
  · cases h
    exact ⟨.inl rfl,⟨rfl,rfl⟩,rfl⟩
  · rename_i unit rest _
    split at h
    · cases h
      exact ⟨.inl (Session.stage_at hp),⟨rfl,rfl⟩,rfl⟩
    · have hm := @requestStep_serves config sets x unit rest drawn writeOk
      rwa [Option.some.inj h] at hm

theorem checkStep_serves : Serves x (checkStep x).2 := by
  unfold checkStep
  split
  · exact ⟨.inr rfl,⟨rfl,rfl⟩,rfl⟩
  · exact ⟨.inl rfl,⟨rfl,rfl⟩,rfl⟩

theorem tryPop_drops (q : BoundedFrameQueue) : q.tryPop.2.drops = q.drops := by
  unfold BoundedFrameQueue.tryPop
  split <;> rfl

theorem popStep_serves : Serves x (popStep x) := by
  have hdrops := tryPop_drops x.queue
  unfold popStep
  split
  · split
    · rename_i f queue hq
      rw [hq] at hdrops
      exact ⟨.inl rfl,⟨rfl,rfl⟩,hdrops⟩
    · rename_i queue hq
      rw [hq] at hdrops
      exact ⟨.inl rfl,⟨rfl,rfl⟩,hdrops⟩
  · exact ⟨.inl rfl,⟨rfl,rfl⟩,rfl⟩

theorem Serves.booked (hs : Serves x y) (hx : x.stage = .serving) (hf : x.inFlight = []) :
    Booking x y ∧ y.queue.drops = x.queue.drops :=
  ⟨.served hx hf hs.stage hs.books,hs.drops⟩

theorem advance_books (h : sessionStep config running sets x .advance = some (events,y)) :
    Booking x y ∧ y.queue.drops = x.queue.drops := by
  have idle (point : SessionPoint) (hp : x.point = point) (hi : (x.goto point).inFlight = []) : x.inFlight = [] := by
    rwa [show x.goto point = x by simp [Session.goto,← hp]] at hi
  cases hp : x.point with
  | registering =>
    simp only [sessionStep,hp] at h
    cases h
    exact ⟨.begun (.inr hp) (.inl rfl) ⟨rfl,rfl⟩,rfl⟩
  | activating =>
    simp only [sessionStep,hp] at h
    cases h
    exact ⟨.activated hp rfl ⟨rfl,rfl⟩,rfl⟩
  | creating =>
    simp only [sessionStep,hp] at h
    cases h
    exact ⟨.created hp rfl rfl rfl,rfl⟩
  | storingChannel closeSession =>
    simp only [sessionStep,hp] at h
    cases h
    exact ⟨.served (Session.stage_at hp) (idle _ hp rfl) (.inl rfl) ⟨rfl,rfl⟩,rfl⟩
  | storingPlaying closeSession =>
    simp only [sessionStep,hp] at h
    cases h
    obtain ⟨hstage,⟨hcounted,hfirst⟩,hdrops⟩ := @afterReply_serves { x with playing := true } closeSession
    exact ⟨.served (Session.stage_at hp) (idle _ hp rfl) hstage ⟨hcounted,hfirst⟩,hdrops⟩
  | checking =>
    simp only [sessionStep,hp] at h
    have hs := @checkStep_serves x
    rw [Option.some.inj h] at hs
    exact hs.booked (Session.stage_at hp) (idle _ hp rfl)
  | popping =>
    simp only [sessionStep,hp] at h
    cases h
    exact popStep_serves.booked (Session.stage_at hp) (idle _ hp rfl)
  | disconnecting | halting =>
    simp only [sessionStep,hp] at h
    cases h
    exact ⟨.left (Session.stage_at hp) rfl ⟨rfl,rfl⟩,rfl⟩
  | closing =>
    simp only [sessionStep,hp] at h
    cases h
    refine ⟨.ended (Session.stage_at hp) ?_ ⟨rfl,rfl⟩,rfl⟩
    unfold Session.stage
    split <;> rfl
  | deactivating =>
    simp only [sessionStep,hp] at h
    cases h
    exact ⟨.deactivated hp rfl ⟨rfl,rfl⟩,rfl⟩
  | recording =>
    simp only [sessionStep,hp] at h
    cases h
    exact ⟨.recorded hp rfl ⟨rfl,rfl⟩,rfl⟩
  | connecting | polling | parsing | sending frame | finished => simp [sessionStep,hp] at h

theorem sessionStep_books {action : SessionAction} (h : sessionStep config running sets x action = some (events,y)) :
    Booking x y ∧ y.queue.drops = x.queue.drops := by
  cases action with
  | connect established =>
    simp only [sessionStep] at h
    split at h
    · rename_i hp
      cases h
      cases established
      · exact ⟨.begun (.inl hp) (.inr rfl) ⟨rfl,rfl⟩,rfl⟩
      · exact ⟨.begun (.inl hp) (.inl rfl) ⟨rfl,rfl⟩,rfl⟩
    · cases h
  | poll ready =>
    simp only [sessionStep] at h
    split at h
    · rename_i hp
      have hs := @pollStep_serves config running x ready
      rw [Option.some.inj h] at hs
      exact hs.booked (Session.stage_at hp) (by simp [Session.inFlight,hp])
    · cases h
  | extract drawn writeOk =>
    simp only [sessionStep] at h
    split at h
    · rename_i hp
      exact (extractStep_serves hp h).booked (Session.stage_at hp)
        (by simp [Session.inFlight,hp])
    · cases h
  | send writeOk now wall =>
    simp only [sessionStep] at h
    split at h
    · rename_i f hp
      cases h
      refine ⟨.sent f hp ?_ rfl fun hfirst => sendFrame_first hfirst,rfl⟩
      unfold Session.stage
      dsimp only
      split
      · exact .inl rfl
      · exact .inr rfl
    · cases h
  | advance => exact advance_books h

end

structure Booked (x : Session) : Prop where
  early : x.stage = .starting ∨ x.stage = .creating → x.counted = false
  served : x.stage = .serving ∨ x.stage = .deactivating ∨ x.stage = .recording → x.counted = true
  first : x.rtp.firstRtpSent = true → x.counted = true

structure Entered (x y : Session) (before after : LiveRtspServerStats) : Prop where
  active : after.activeClients + x.active = before.activeClients + y.active
  created : after.sessionsCreated + x.counted.toNat = before.sessionsCreated + y.counted.toNat
  closed : after.sessionsClosed + x.closings = before.sessionsClosed + y.closings
  first : after.firstRtpTransmissions + x.firsts = before.firstRtpTransmissions + y.firsts

section

variable {x y : Session} {events : List SessionEvent} {stats : LiveRtspServerStats}

theorem Booked.unbooked (hx : Booked x) (hu : Unbooked x y)
    (hearly : y.stage = .starting ∨ y.stage = .creating → x.counted = false)
    (hserved : y.stage = .serving ∨ y.stage = .deactivating ∨ y.stage = .recording → x.counted = true) :
    Booked y := by
  refine ⟨?_,?_,?_⟩
  · rwa [hu.counted]
  · rwa [hu.counted]
  · rw [hu.counted,hu.first]
    exact hx.first

theorem starting_of (h : x.point = .connecting ∨ x.point = .registering) : x.stage = .starting := by
  rcases h with h | h
  · exact Session.stage_at h
  · exact Session.stage_at h

theorem Booking.booked (hb : Booking x y) (hx : Booked x) : Booked y := by
  cases hb with
  | begun hp hy hu =>
    have hcounted : x.counted = false := hx.early (.inl (starting_of hp))
    exact hx.unbooked hu (fun _ => hcounted) (by rcases hy with hy | hy <;> simp [hy])
  | activated hp hy hu =>
    have hcounted : x.counted = false := hx.early (.inl (Session.stage_at hp))
    exact hx.unbooked hu (fun _ => hcounted) (by simp [hy])
  | created hp hy hc hf => exact ⟨by simp [hy],fun _ => hc,fun _ => hc⟩
  | served hs _ hy hu =>
    have hcounted : x.counted = true := hx.served (.inl hs)
    exact hx.unbooked hu (by rcases hy with hy | hy <;> simp [hy]) fun _ => hcounted
  | sent f hp hy hc _ =>
    have hcounted : x.counted = true := hx.served (.inl (Session.stage_at hp))
    rw [hcounted] at hc
    exact ⟨by rcases hy with hy | hy <;> simp [hy],fun _ => hc,fun _ => hc⟩
  | left _ hy hu => exact hx.unbooked hu (by simp [hy]) (by simp [hy])
  | ended _ hy hu =>
    cases hc : x.counted with
    | false => exact hx.unbooked hu (by simp [hy,hc]) (by simp [hy,hc])
    | true => exact hx.unbooked hu (by simp [hy,hc]) fun _ => hc
  | deactivated hp hy hu =>
    have hcounted : x.counted = true := hx.served (.inr (.inl (Session.stage_at hp)))
    exact hx.unbooked hu (by simp [hy]) fun _ => hcounted
  | recorded _ hy hu => exact hx.unbooked hu (by simp [hy]) (by simp [hy])

theorem sessionStats_served (hs : x.stage = .serving) (hf : x.inFlight = []) :
    sessionStats x y events stats = stats := by
  unfold sessionStats
  cases hp : x.point with
  | sending f => simp [Session.inFlight,hp] at hf
  | activating | creating | deactivating | recording => simp [Session.stage,hp,SessionPoint.stage] at hs
  | _ => rfl

theorem sessionStats_leaving (hs : x.stage = .leaving) : sessionStats x y events stats = stats := by
  unfold sessionStats
  cases hp : x.point with
  | activating | creating | sending f | deactivating | recording => simp [Session.stage,hp,SessionPoint.stage] at hs
  | _ => rfl

theorem Unbooked.entered (hu : Unbooked x y) (hactive : y.active = x.active) (hclosings : y.closings = x.closings) :
    Entered x y stats stats := by
  refine ⟨?_,?_,?_,?_⟩
  · rw [hactive]
  · rw [hu.counted]
  · rw [hclosings]
  · rw [hu.firsts]

theorem Booking.entered (hb : Booking x y) (hx : Booked x) (hle : x.active ≤ stats.activeClients) :
    Entered x y stats (sessionStats x y events stats) := by
  cases hb with
  | begun hp hy hu =>
    have hstage := starting_of hp
    have hstats : sessionStats x y events stats = stats := by
      unfold sessionStats
      rcases hp with hp | hp <;> rw [hp]
    have hcounted := hu.counted.trans (hx.early (.inl hstage))
    rw [hstats]
    rcases hy with hy | hy <;>
      exact hu.entered (by simp [Session.active,hstage,hy,hcounted]) (by simp [Session.closings,hstage,hy])
  | activated hp hy hu =>
    have hstage : x.stage = .starting := Session.stage_at hp
    simp only [sessionStats,hp]
    exact ⟨by simp [Session.active,hstage,hy],by rw [hu.counted],by simp [Session.closings,hstage,hy],
      by rw [hu.firsts]⟩
  | created hp hy hc hf =>
    have hstage : x.stage = .creating := Session.stage_at hp
    have hcounted := hx.early (.inr hstage)
    simp only [sessionStats,hp]
    exact ⟨by simp [Session.active,hstage,hy],by simp [hcounted,hc],by simp [Session.closings,hstage,hy],
      by rw [Session.firsts,Session.firsts,hf]⟩
  | served hs hf hy hu =>
    have hcounted := hu.counted.trans (hx.served (.inl hs))
    rw [sessionStats_served hs hf]
    rcases hy with hy | hy <;>
      exact hu.entered (by simp [Session.active,hs,hy,hcounted]) (by simp [Session.closings,hs,hy])
  | sent f hp hy hc hmono =>
    have hstage : x.stage = .serving := Session.stage_at hp
    have hcounted := hc.trans (hx.served (.inl hstage))
    simp only [sessionStats,hp]
    refine ⟨?_,by rw [hc],?_,?_⟩
    · rcases hy with hy | hy <;> simp [Session.active,hstage,hy,hcounted]
    · rcases hy with hy | hy <;> simp [Session.closings,hstage,hy]
    · -- counted when the flag is set, and the flag is never taken back
      unfold Session.firsts
      cases hxf : x.rtp.firstRtpSent with
      | false => cases hyf : y.rtp.firstRtpSent <;> simp
      | true => simp [hmono hxf]
  | left hs hy hu =>
    rw [sessionStats_leaving hs]
    exact hu.entered (by simp [Session.active,hs,hy,hu.counted]) (by simp [Session.closings,hs,hy])
  | ended hs hy hu =>
    rw [sessionStats_leaving hs]
    cases hc : x.counted <;> rw [hc] at hy <;>
      exact hu.entered (by simp [Session.active,hs,hy,hc]) (by simp [Session.closings,hs,hy,hu.counted,hc])
  | deactivated hp hy hu =>
    have hstage : x.stage = .deactivating := Session.stage_at hp
    have hone : x.active = 1 := by simp [Session.active,hstage]
    simp only [sessionStats,hp]
    refine ⟨?_,by rw [hu.counted],by simp [Session.closings,hstage,hy],by rw [hu.firsts]⟩
    rw [hone] at hle ⊢
    simp only [Session.active,hy]
    omega
  | recorded hp hy hu =>
    have hstage : x.stage = .recording := Session.stage_at hp
    have hcounted := hx.served (.inr (.inr hstage))
    simp only [sessionStats,hp]
    exact ⟨by simp [Session.active,hstage,hy],by rw [hu.counted],
      by simp [Session.closings,hstage,hy,hu.counted,hcounted],by rw [hu.firsts]⟩

end

end RpiVms

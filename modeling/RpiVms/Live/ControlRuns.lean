import RpiVms.Live.Requests

namespace RpiVms

open Search Segments

structure ControlCall where
  request : Bytes
  registeredChannelId : Int
  codec : VideoCodec
  codecFmtp : Bytes
  drawn : SessionId

structure ControlStep where
  before : RtspControlState
  call : ControlCall
  result : RtspControlResult
  after : RtspControlState

def controlStep (s : RtspControlState) (c : ControlCall) : ControlStep :=
  let r := processRtspRequest c.drawn.text c.request c.registeredChannelId c.codec c.codecFmtp s
  ⟨s,c,r.1,r.2⟩

def controlRun : RtspControlState → List ControlCall → List ControlStep
  | _,[] => []
  | s,c :: cs => controlStep s c :: controlRun (controlStep s c).after cs

inductive PhaseMove : RtspControlPhase → RtspControlPhase → Prop
  | stay (p : RtspControlPhase) : PhaseMove p p
  | setup : PhaseMove .initial .ready
  | play : PhaseMove .ready .playing
  | closeReady : PhaseMove .ready .closed
  | closePlaying : PhaseMove .playing .closed

structure SameSetup (s t : RtspControlState) : Prop where
  sessionId : t.sessionId = s.sessionId
  channelId : t.channelId = s.channelId
  rtpChannel : t.rtpChannel = s.rtpChannel
  rtcpChannel : t.rtcpChannel = s.rtcpChannel

structure StateOk (s : RtspControlState) : Prop where
  hex : s.sessionId.all isHex = true
  identified : s.sessionId ≠ [] ↔ s.phase ≠ .initial
  channel : s.phase ≠ .initial → PublicChannel s.channelId
  media : s.phase ≠ .initial → MediaChannels s.rtpChannel s.rtcpChannel

def sessionToken (request : Bytes) : Bytes := (sessionHeader request).takeWhile (· != 59)

structure StepOk (t : ControlStep) : Prop where
  move : PhaseMove t.before.phase t.after.phase
  frozen : t.before.phase ≠ .initial → SameSetup t.before t.after
  announced : t.before.phase = .initial → t.after.phase ≠ .initial →
    requestChannel t.call.request = t.after.channelId ∧
    headerValue (messageHeaderPart t.result.response) (ascii "Transport") =
      transportValue t.after.rtpChannel t.after.rtcpChannel
  started : t.result.startPlay = true →
    t.before.phase = .ready ∧ t.after.phase = .playing ∧
    requestChannel t.call.request = t.before.channelId ∧
    lowerCopy (sessionToken t.call.request) = lowerCopy t.before.sessionId
  refused : rtspStatusCode t.result.response ≠ 200 →
    t.after = t.before ∧ t.result.startPlay = false

theorem toLower_semicolon (b : UInt8) : toLower b = 59 ↔ b = 59 := by
  unfold toLower
  split
  · rename_i h
    simp only [Bool.and_eq_true,decide_eq_true_eq] at h
    constructor <;> intro hb <;> grind
  · exact Iff.rfl

theorem takeWhile_token {a rest : Bytes} (ha : (59 : UInt8) ∉ a) :
    (a ++ 59 :: rest).takeWhile (· != 59) = a := by
  induction a with
  | nil => rfl
  | cons x a ih =>
    have hx : x ≠ 59 := fun h => ha (by simp [h])
    rw [List.cons_append,List.takeWhile_cons_of_pos (by simpa using hx),
      ih fun h => ha (by simp [h])]

theorem validSession_token {header expected : Bytes} (hv : validSessionHeader header expected = true)
    (he : (59 : UInt8) ∉ expected) :
    lowerCopy (header.takeWhile (· != 59)) = lowerCopy expected := by
  simp only [validSessionHeader,Bool.and_eq_true,Bool.or_eq_true,beq_iff_eq] at hv
  rcases hv.2 with rfl | hs
  · rw [List.takeWhile_eq_self_iff.mpr]
    intro b hb
    simpa using fun h : b = 59 => he (h ▸ hb)
  · obtain ⟨hlen,hlow⟩ := startsWithCi_eq hs
    have hn : (expected ++ ascii ";").length = expected.length + 1 := by simp [ascii]
    rw [hn] at hlow hlen
    have hget : header.take (expected.length + 1) =
        header.take expected.length ++ [header.get ⟨expected.length,by omega⟩] := by
      rw [List.take_succ_eq_append_getElem (by omega)]
      rfl
    rw [hget] at hlow
    simp only [lowerCopy,List.map_append] at hlow
    obtain ⟨ha,hb⟩ := List.append_inj hlow (by simp; omega)
    have h59 : header.get ⟨expected.length,by omega⟩ = 59 := by
      have hl : (ascii ";").map toLower = [59] := by decide
      rw [hl] at hb
      exact (toLower_semicolon _).mp (List.head_eq_of_cons_eq hb)
    have hnot : (59 : UInt8) ∉ header.take expected.length := by
      intro hm
      have hm' : (59 : UInt8) ∈ (header.take expected.length).map toLower :=
        List.mem_map.mpr ⟨59,hm,by decide⟩
      rw [ha] at hm'
      obtain ⟨c,hc,hc59⟩ := List.mem_map.mp hm'
      exact he ((toLower_semicolon c).mp hc59 ▸ hc)
    have hsplit : header = header.take expected.length ++ 59 :: header.drop (expected.length + 1) := by
      conv_lhs => rw [← List.take_append_drop (expected.length + 1) header,hget,h59]
      simp
    rw [hsplit,takeWhile_token hnot]
    exact ha

theorem toDecimal_untrimmed (v : Int) : ∀ b ∈ toDecimal v, isTrimmed b = false := by
  have hd : ∀ b ∈ decimal v.natAbs, isTrimmed b = false := fun b hb =>
    isDigit_not_trimmed (List.all_eq_true.mp (decimal_all _) b hb)
  intro b hb
  unfold toDecimal at hb
  split at hb
  · rcases List.mem_cons.mp hb with rfl | hb
    · decide
    · exact hd b hb
  · exact hd b hb

theorem transportValue_untrimmed (rtpChannel rtcpChannel : Int) :
    ∀ b ∈ transportValue rtpChannel rtcpChannel, isTrimmed b = false := by
  have text {l : Bytes} (hl : l.all (!isTrimmed ·) = true) : ∀ b ∈ l, isTrimmed b = false := by
    simpa using hl
  intro b hb
  simp only [transportValue,List.mem_append] at hb
  rcases hb with ((hb | hb) | hb) | hb
  · exact text (by decide) b hb
  · exact toDecimal_untrimmed _ b hb
  · exact text (by decide) b hb
  · exact toDecimal_untrimmed _ b hb

theorem setup_transport (cseq session : Bytes) (rtpChannel rtcpChannel : Int) (hc : Plain cseq)
    (hs : PlainHeader session) :
    headerValue (messageHeaderPart (makeResponse 200 cseq
      [ascii "Transport: " ++ transportValue rtpChannel rtcpChannel,session] []))
      (ascii "Transport") = transportValue rtpChannel rtcpChannel := by
  have hl : responseLines 200 cseq [ascii "Transport: " ++ transportValue rtpChannel rtcpChannel,
      session] [] =
      (statusLine 200 :: ((if cseq.isEmpty then [] else [ascii "CSeq: " ++ cseq]) ++
        [ascii "Server: rpi-vms-m3"])) ++
        (ascii "Transport: " ++ transportValue rtpChannel rtcpChannel) :: [session] := by
    simp [responseLines]
  refine response_headerValue hc ?_ hl ?_ ?_ ?_
  · simp only [List.mem_cons,List.not_mem_nil,or_false,forall_eq_or_imp,forall_eq]
    exact ⟨transportLine_plain _ _,hs⟩
  · intro l hm
    rcases List.mem_cons.mp hm with rfl | hm
    · decide
    rcases List.mem_append.mp hm with hm | hm
    · split at hm
      · simp at hm
      · obtain rfl : l = _ := by simpa using hm
        exact startsWithCi_differs _ (by decide)
    · obtain rfl : l = _ := by simpa using hm
      decide
  · have hm : startsWithCi (ascii "Transport:" ++ (ascii " " ++ transportValue rtpChannel rtcpChannel))
        (lowerCopy (ascii "Transport") ++ ascii ":") = true := startsWithCi_lower _ (by decide)
    simpa [ascii] using hm
  · exact trimCopy_blank_all (transportValue_untrimmed _ _)

theorem status_ok (cseq : Bytes) (headers : List Bytes) (body : Bytes) :
    rtspStatusCode (makeResponse 200 cseq headers body) = 200 :=
  response_status (by decide)

theorem quiet_ok {t : ControlStep} (h : t.after = t.before) (hp : t.result.startPlay = false) :
    StepOk t where
  move := h ▸ .stay _
  frozen := fun _ => h ▸ ⟨rfl,rfl,rfl,rfl⟩
  announced := fun hi hn => absurd (h ▸ hi) hn
  started := fun hs => by simp [hp] at hs
  refused := fun _ => ⟨h,hp⟩

theorem controlStep_ok (s : RtspControlState) (c : ControlCall) (hs : StateOk s) :
    StepOk (controlStep s c) ∧ StateOk (controlStep s c).after := by
  have hh := process_handled c.drawn.text c.request c.codec c.codecFmtp s c.registeredChannelId
  unfold controlStep
  generalize processRtspRequest c.drawn.text c.request c.registeredChannelId c.codec c.codecFmtp s
    = r at hh
  obtain ⟨result,after⟩ := r
  simp only at hh ⊢
  cases hh with
  | unnumbered hc => exact ⟨quiet_ok rfl rfl,hs⟩
  | options => exact ⟨quiet_ok rfl rfl,hs⟩
  | refused status _ => exact ⟨quiet_ok rfl rfl,hs⟩
  | unknown => exact ⟨quiet_ok rfl rfl,hs⟩
  | described _ => exact ⟨quiet_ok rfl rfl,hs⟩
  | kept _ => exact ⟨quiet_ok rfl rfl,hs⟩
  | setup rtpChannel rtcpChannel _ hi hc hm =>
    refine ⟨⟨hi ▸ .setup,fun hn => absurd hi hn,fun _ _ => ⟨rfl,?_⟩,fun hp => absurd hp Bool.false_ne_true,
      fun hr => absurd (status_ok _ _ _) hr⟩,
      ⟨c.drawn.hex,⟨fun _ => by simp,fun _ => c.drawn.ne_nil⟩,fun _ => hc,fun _ => hm⟩⟩
    refine setup_transport _ _ _ _ (headerValue_plain _ _) ?_
    rw [List.append_assoc]
    exact plainHeader_append (by decide) (by decide) (by decide)
      (plain_append (c.drawn.not_mem (by decide)) (by decide))
  | played _ hr hc hv =>
    have hn : s.phase ≠ .initial := by simp [hr]
    refine ⟨⟨hr ▸ .play,fun _ => ⟨rfl,rfl,rfl,rfl⟩,fun hi => absurd hi hn,
      fun _ => ⟨hr,rfl,hc.symm,?_⟩,fun hst => absurd (status_ok _ _ _) hst⟩,
      ⟨hs.hex,⟨fun _ => by simp,fun _ => hs.identified.mpr hn⟩,fun _ => hs.channel hn,
        fun _ => hs.media hn⟩⟩
    refine validSession_token hv fun hm => ?_
    exact absurd (List.all_eq_true.mp hs.hex _ hm) (by decide)
  | torn hv =>
    have hid : s.sessionId ≠ [] := (validSession_plain hv (headerValue_plain _ _)).2
    have hn : s.phase ≠ .initial := hs.identified.mp hid
    refine ⟨⟨?_,fun _ => ⟨rfl,rfl,rfl,rfl⟩,fun hi => absurd hi hn,fun hp => absurd hp Bool.false_ne_true,
      fun hst => absurd (status_ok _ _ _) hst⟩,
      ⟨hs.hex,⟨fun _ => by simp,fun _ => hid⟩,fun _ => hs.channel hn,fun _ => hs.media hn⟩⟩
    cases hp : s.phase with
    | initial => exact absurd hp hn
    | ready => exact .closeReady
    | playing => exact .closePlaying
    | closed => exact .stay _

theorem controlRun_ok (calls : List ControlCall) (s : RtspControlState) (hs : StateOk s) :
    ∀ t ∈ controlRun s calls, StepOk t ∧ StateOk t.after := by
  induction calls generalizing s with
  | nil => simp [controlRun]
  | cons c cs ih =>
    have hc := controlStep_ok s c hs
    simp only [controlRun,List.mem_cons,forall_eq_or_imp]
    exact ⟨hc,ih _ hc.2⟩

theorem SameSetup.trans {s t u : RtspControlState} (h : SameSetup s t) (k : SameSetup t u) :
    SameSetup s u :=
  ⟨k.sessionId.trans h.sessionId,k.channelId.trans h.channelId,k.rtpChannel.trans h.rtpChannel,
    k.rtcpChannel.trans h.rtcpChannel⟩

theorem PhaseMove.leaves {p q : RtspControlPhase} (h : PhaseMove p q) (hp : p ≠ .initial) :
    q ≠ .initial := by
  cases h with
  | stay => exact hp
  | setup => simp
  | play => simp
  | closeReady => simp
  | closePlaying => simp

theorem controlRun_frozen (calls : List ControlCall) (s : RtspControlState) (hs : StateOk s)
    (hp : s.phase ≠ .initial) : ∀ t ∈ controlRun s calls, SameSetup s t.after := by
  induction calls generalizing s with
  | nil => simp [controlRun]
  | cons c cs ih =>
    obtain ⟨hc,ha⟩ := controlStep_ok s c hs
    have hf : SameSetup s (controlStep s c).after := hc.frozen hp
    simp only [controlRun,List.mem_cons,forall_eq_or_imp]
    exact ⟨hf,fun t ht => hf.trans (ih _ ha (hc.move.leaves hp) t ht)⟩

theorem controlRun_pairwise (calls : List ControlCall) (s : RtspControlState) (hs : StateOk s) :
    (controlRun s calls).Pairwise fun t u =>
      t.after.phase ≠ .initial → SameSetup t.after u.after := by
  induction calls generalizing s with
  | nil => exact .nil
  | cons c cs ih =>
    obtain ⟨-,ha⟩ := controlStep_ok s c hs
    exact .cons (fun u hu hp => controlRun_frozen cs _ ha hp u hu) (ih _ ha)

def Started (p : RtspControlPhase) : Prop := p = .playing ∨ p = .closed

theorem PhaseMove.started {p q : RtspControlPhase} (h : PhaseMove p q) (hp : Started p) :
    Started q := by
  cases h with
  | stay => exact hp
  | setup => rcases hp with hp | hp <;> cases hp
  | play => exact .inl rfl
  | closeReady => exact .inr rfl
  | closePlaying => exact .inr rfl

theorem controlRun_quiet (calls : List ControlCall) (s : RtspControlState) (hs : StateOk s)
    (hp : Started s.phase) : (controlRun s calls).countP (·.result.startPlay) = 0 := by
  induction calls generalizing s with
  | nil => rfl
  | cons c cs ih =>
    obtain ⟨hc,ha⟩ := controlStep_ok s c hs
    have hno : (controlStep s c).result.startPlay = false := by
      rw [Bool.eq_false_iff]
      intro hst
      have hr : s.phase = .ready := (hc.started hst).1
      rcases hp with hp | hp <;> rw [hr] at hp <;> cases hp
    rw [controlRun,List.countP_cons_of_neg (by simp [hno])]
    exact ih _ ha (hc.move.started hp)

theorem controlRun_starts (calls : List ControlCall) (s : RtspControlState) (hs : StateOk s) :
    (controlRun s calls).countP (·.result.startPlay) ≤ 1 := by
  induction calls generalizing s with
  | nil => simp [controlRun]
  | cons c cs ih =>
    obtain ⟨hc,ha⟩ := controlStep_ok s c hs
    rw [controlRun]
    cases hst : (controlStep s c).result.startPlay with
    | false =>
      rw [List.countP_cons_of_neg (by simp [hst])]
      exact ih _ ha
    | true =>
      have hq := controlRun_quiet cs _ ha (.inl (hc.started hst).2.1)
      rw [List.countP_cons_of_pos (by simp [hst]),hq]

theorem initial_ok : StateOk {} :=
  ⟨rfl,by simp,fun h => absurd rfl h,fun h => absurd rfl h⟩

theorem control_state_machine (calls : List ControlCall) :
    (∀ t ∈ controlRun {} calls, StepOk t ∧ StateOk t.after) ∧
    (controlRun {} calls).Pairwise (fun t u =>
      t.after.phase ≠ .initial → SameSetup t.after u.after) ∧
    (controlRun {} calls).countP (·.result.startPlay) ≤ 1 :=
  ⟨controlRun_ok calls {} initial_ok,controlRun_pairwise calls {} initial_ok,
    controlRun_starts calls {} initial_ok⟩

end RpiVms

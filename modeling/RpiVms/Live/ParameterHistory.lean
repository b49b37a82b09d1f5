import RpiVms.Live.Base64
import RpiVms.Live.Delivery

namespace RpiVms

open Search Runs

inductive ParameterKind where
  | h264Sps
  | h264Pps
  | h265Vps
  | h265Sps
  | h265Pps
  deriving DecidableEq, Repr

namespace ParameterKind

def codec : ParameterKind → VideoCodec
  | .h264Sps | .h264Pps => .h264
  | .h265Vps | .h265Sps | .h265Pps => .h265

def nalType : ParameterKind → Nat
  | .h264Sps => 7
  | .h264Pps => 8
  | .h265Vps => 32
  | .h265Sps => 33
  | .h265Pps => 34

def ofCodec : VideoCodec → List ParameterKind
  | .h264 => [.h264Sps,.h264Pps]
  | .h265 => [.h265Vps,.h265Sps,.h265Pps]

def carries (kind : ParameterKind) : Bytes → Bool
  | [] => false
  | first :: rest =>
      match kind.codec with
      | .h264 => (first &&& 0x1f).toNat == kind.nalType
      | .h265 => !rest.isEmpty && ((first >>> 1) &&& 0x3f).toNat == kind.nalType

def stored (sets : ParameterSets) : ParameterKind → Bytes
  | .h264Sps => sets.h264Sps
  | .h264Pps => sets.h264Pps
  | .h265Vps => sets.h265Vps
  | .h265Sps => sets.h265Sps
  | .h265Pps => sets.h265Pps

def carriedBy (kind : ParameterKind) (frame : OwnedLiveFrame) : List Bytes :=
  if frame.codec = kind.codec then (splitAccessUnit frame.data).filter kind.carries else []

def lastCarried (kind : ParameterKind) (frames : List LiveFrame) : Option Bytes :=
  (frames.flatMap fun f => kind.carriedBy f.frame).getLast?

theorem carries_ne_nil {kind : ParameterKind} {nal : Bytes} (h : kind.carries nal = true) :
    nal ≠ [] := by
  rintro rfl
  cases h

theorem noteNal_stored (kind : ParameterKind) (codec : VideoCodec) (sets : ParameterSets)
    (nal : Bytes) :
    kind.stored (noteNal codec sets nal) =
      if codec = kind.codec ∧ kind.carries nal = true then nal else kind.stored sets := by
  cases nal with
  | nil => simp [noteNal,carries]
  | cons first rest =>
    cases codec with
    | h264 =>
      simp only [noteNal]
      split <;> cases kind <;> simp_all [stored,ParameterKind.codec,carries,nalType]
    | h265 =>
      cases rest with
      | nil => cases kind <;> simp [noteNal,stored,ParameterKind.codec,carries]
      | cons second rest =>
        simp only [noteNal,List.length_cons]
        rw [if_pos (by omega)]
        split <;> cases kind <;> simp_all [stored,ParameterKind.codec,carries,nalType]

theorem foldl_stored (kind : ParameterKind) (codec : VideoCodec) (nals : List Bytes)
    (sets : ParameterSets) :
    kind.stored (nals.foldl (noteNal codec) sets) =
      (if codec = kind.codec then nals.filter kind.carries else []).getLast?.getD
        (kind.stored sets) := by
  induction nals using List.reverseRecOn with
  | nil => simp
  | append_singleton nals nal ih =>
    rw [List.foldl_append,List.foldl_cons,List.foldl_nil,noteNal_stored,ih]
    by_cases hc : codec = kind.codec
    · cases hn : kind.carries nal <;> simp [hc,hn]
    · simp [hc]

theorem update_stored (kind : ParameterKind) (sets : ParameterSets) (frame : OwnedLiveFrame) :
    kind.stored (updateParameterSets sets frame) =
      (kind.carriedBy frame).getLast?.getD (kind.stored sets) :=
  foldl_stored kind frame.codec (splitAccessUnit frame.data) sets

theorem lastCarried_append (kind : ParameterKind) (a b : List LiveFrame) :
    kind.lastCarried (a ++ b) = (kind.lastCarried b).or (kind.lastCarried a) := by
  simp [lastCarried,List.flatMap_append,List.getLast?_append]

theorem carries_lastCarried {kind : ParameterKind} {frames : List LiveFrame} {nal : Bytes}
    (h : kind.lastCarried frames = some nal) : kind.carries nal = true := by
  obtain ⟨f,-,hn⟩ := List.mem_flatMap.mp (List.mem_of_getLast? h)
  unfold carriedBy at hn
  split at hn
  · exact (List.mem_filter.mp hn).2
  · simp at hn

end ParameterKind

def acceptedFrames (config : LiveRtspServerConfig) (ch : Int) (h : List ServerEvent) :
    List LiveFrame :=
  (passedFrames ch h).filter fun f => acceptsFrame config f.frame

def frameCalls (s : Server) : ServerAction → List LiveFrame
  | .onFrame view => [⟨s.passed,view⟩]
  | _ => []

section

variable {config : LiveRtspServerConfig} {s t : Server} {h ev : List ServerEvent} {a : ServerAction}

theorem passed_step (hs : s.step config a = some (ev,t)) (ch : Int) :
    passedFrames ch ev = (frameCalls s a).filter (·.frame.channelId = ch) := by
  have hm := step_move hs
  generalize t.core = k at hm
  cases hm with
  | ignored view | passed view =>
    by_cases hch : view.channelId = ch <;> simp [passedFrames,passedFrame,frameCalls,hch,Server.core]
  | session =>
    rw [passedFrames,List.filterMap_map]
    exact List.filterMap_eq_nil_iff.mpr fun _ _ => rfl
  | pushed => split <;> rfl
  | idle | accepted | onward | chose | returned => rfl

theorem passedFrames_calls (config : LiveRtspServerConfig) (actions : List ServerAction) (ch : Int) :
    passedFrames ch (serverRun config actions).1 =
      (observed (Server.step config) frameCalls {} actions).filter (·.frame.channelId = ch) := by
  refine @run_keeps_observed _ _ _ (Server.step config) _ frameCalls
    (fun o h _ => passedFrames ch h = o.filter (·.frame.channelId = ch)) ?_ [] ([],{}) actions rfl
  intro o h s a ev t hi hs
  rw [passedFrames_append,List.filter_append,hi,passed_step hs]

theorem acceptedFrames_append (ch : Int) (h g : List ServerEvent) :
    acceptedFrames config ch (h ++ g) = acceptedFrames config ch h ++ acceptedFrames config ch g := by
  rw [acceptedFrames,passedFrames_append,List.filter_append]
  rfl

theorem acceptedFrames_silent (hev : ∀ f, .passed f ∉ ev) (ch : Int) :
    acceptedFrames config ch ev = [] := by
  rw [List.eq_nil_iff_forall_not_mem]
  intro f hf
  exact hev f (mem_passedFrames.mp (List.mem_of_mem_filter hf)).1

inductive SetsChange (config : LiveRtspServerConfig) (s : Server) :
    List ServerEvent → (Int → ParameterSets) → Prop
  | kept {ev : List ServerEvent} : (∀ ch, acceptedFrames config ch ev = []) →
      SetsChange config s ev s.parameterSets
  | updated (view : OwnedLiveFrame) : acceptsFrame config view = true →
      SetsChange config s [.passed ⟨s.passed,view⟩]
        (Function.update s.parameterSets view.channelId
          (updateParameterSets (s.parameterSets view.channelId) view))

theorem refused_unchanged {view : OwnedLiveFrame} (hv : acceptsFrame config view = false)
    (hs : s.onFrame config view = some (ev,t)) :
    t = { s with passed := s.passed + 1 } ∧ ev = [.passed ⟨s.passed,view⟩] := by
  unfold Server.onFrame at hs
  split at hs
  · cases hs
  · simp only [hv,Bool.false_eq_true,if_false] at hs
    cases hs
    exact ⟨rfl,rfl⟩

theorem probe_sets (ch : Int) (f : LiveFrame) (c : Nat) (rest chosen : List Nat) (p : Probe) :
    SetsChange config s (s.probe ch f c rest chosen p).1
      (s.probe ch f c rest chosen p).2.parameterSets := by
  unfold Server.probe
  split
  · cases p <;> exact .kept (acceptedFrames_silent (by simp))
  · exact .kept (acceptedFrames_silent (by simp))

theorem push_sets (ch : Int) (f : LiveFrame) (before c : Nat) (rest : List Nat) :
    SetsChange config s (s.push ch f before c rest).1
      (s.push ch f before c rest).2.parameterSets := by
  unfold Server.push
  simp only
  split
  · exact .kept (acceptedFrames_silent (by simp))
  · refine .kept (acceptedFrames_silent fun g hg => ?_)
    split at hg <;> simp at hg

theorem stepCall_sets {ch : Int} (hs : s.stepCall ch = some (ev,t)) :
    SetsChange config s ev t.parameterSets := by
  unfold Server.stepCall at hs
  split at hs
  · cases hs
  · split at hs
    · cases hs
    · cases hs
      exact .kept (acceptedFrames_silent (by simp))
  · cases hs
    exact .kept (acceptedFrames_silent (by simp))
  · rename_i f c rest chosen p _
    have hp := @probe_sets config s ch f c rest chosen p
    rwa [Option.some.inj hs] at hp
  · cases hs
    exact .kept (acceptedFrames_silent (by simp))
  · cases hs
    exact .kept (acceptedFrames_silent (by simp))
  · rename_i f before c rest _
    have hp := @push_sets config s ch f before c rest
    rwa [Option.some.inj hs] at hp
  · cases hs
    exact .kept (acceptedFrames_silent (by simp))

theorem onFrame_sets {view : OwnedLiveFrame} (hs : s.onFrame config view = some (ev,t)) :
    SetsChange config s ev t.parameterSets := by
  cases hv : acceptsFrame config view with
  | false =>
    obtain ⟨rfl,rfl⟩ := refused_unchanged hv hs
    refine .kept fun ch => ?_
    by_cases hch : view.channelId = ch <;> simp [acceptedFrames,passedFrames,passedFrame,hch,hv]
  | true =>
    unfold Server.onFrame at hs
    split at hs
    · cases hs
    · simp only [hv,if_true] at hs
      cases hs
      exact .updated view hv

theorem sets_change (hs : s.step config a = some (ev,t)) : SetsChange config s ev t.parameterSets := by
  cases a with
  | accept sequence ssrc timestampOrigin =>
    simp only [Server.step,Server.accept] at hs
    split at hs
    · cases hs
    · cases hs
      exact .kept (acceptedFrames_silent (by simp))
  | session c action =>
    simp only [Server.step,Server.stepSession] at hs
    split at hs
    · cases hs
    · split at hs
      · cases hs
      · obtain ⟨⟨es,y⟩,-,he⟩ := Option.map_eq_some_iff.mp hs
        cases he
        exact .kept (acceptedFrames_silent (by simp))
  | onFrame view => exact onFrame_sets hs
  | frameCall ch => exact stepCall_sets hs
  | stop =>
    cases hs
    exact .kept (acceptedFrames_silent (by simp))

def Shelved (config : LiveRtspServerConfig) (h : List ServerEvent) (s : Server) : Prop :=
  ∀ ch (kind : ParameterKind),
    kind.stored (s.parameterSets ch) = (kind.lastCarried (acceptedFrames config ch h)).getD []

theorem shelved_step (hi : Shelved config h s) (hs : s.step config a = some (ev,t)) :
    Shelved config (h ++ ev) t := by
  intro ch kind
  have hc := sets_change hs
  generalize t.parameterSets = sets at hc
  rw [acceptedFrames_append,kind.lastCarried_append]
  cases hc with
  | kept hnone =>
    rw [hnone ch,hi ch kind]
    simp [ParameterKind.lastCarried]
  | updated view hv =>
    by_cases hch : ch = view.channelId
    · subst hch
      rw [Function.update_self,kind.update_stored,hi]
      have hone : acceptedFrames config view.channelId [.passed ⟨s.passed,view⟩] =
          [⟨s.passed,view⟩] := by
        simp [acceptedFrames,passedFrames,passedFrame,hv]
      rw [hone]
      simp only [ParameterKind.lastCarried,List.flatMap_cons,List.flatMap_nil,List.append_nil]
      cases (kind.carriedBy view).getLast? <;> rfl
    · have hnone : acceptedFrames config ch [.passed ⟨s.passed,view⟩] = [] := by
        simp [acceptedFrames,passedFrames,passedFrame,Ne.symm hch]
      rw [Function.update_of_ne hch,hnone,hi]
      simp [ParameterKind.lastCarried]

theorem shelved_run (config : LiveRtspServerConfig) (actions : List ServerAction) :
    Shelved config (serverRun config actions).1 (serverRun config actions).2 :=
  run_keeps (fun _ _ _ _ _ hi hs => shelved_step hi hs) actions fun ch kind => by
    cases kind <;> rfl

end

def fmtpOf (last : ParameterKind → Option Bytes) : VideoCodec → Bytes
  | .h264 =>
      match last .h264Sps,last .h264Pps with
      | some sps,some pps =>
          ascii "packetization-mode=1;sprop-parameter-sets=" ++ base64Text sps ++ ascii "," ++
            base64Text pps
      | _,_ => []
  | .h265 =>
      match last .h265Vps,last .h265Sps,last .h265Pps with
      | some vps,some sps,some pps =>
          ascii "sprop-vps=" ++ base64Text vps ++ ascii ";sprop-sps=" ++ base64Text sps ++
            ascii ";sprop-pps=" ++ base64Text pps
      | _,_,_ => []

theorem codecFmtp_of {sets : ParameterSets} {last : ParameterKind → Option Bytes}
    (hs : ∀ kind : ParameterKind, kind.stored sets = (last kind).getD [])
    (hl : ∀ kind nal, last kind = some nal → nal ≠ []) (codec : VideoCodec) :
    codecFmtp sets codec = fmtpOf last codec := by
  have empty (kind : ParameterKind) : (kind.stored sets).isEmpty = (last kind).isNone := by
    rw [hs]
    cases hk : last kind with
    | none => rfl
    | some nal => simpa using hl kind nal hk
  cases codec with
  | h264 =>
    have hsps := hs .h264Sps
    have hpps := hs .h264Pps
    have esps := empty .h264Sps
    have epps := empty .h264Pps
    simp only [ParameterKind.stored] at hsps hpps esps epps
    simp only [codecFmtp,fmtpOf,esps,epps,base64Encode_text]
    cases hs1 : last .h264Sps <;> cases hp1 : last .h264Pps <;> simp [hsps,hpps,hs1,hp1]
  | h265 =>
    have hvps := hs .h265Vps
    have hsps := hs .h265Sps
    have hpps := hs .h265Pps
    have evps := empty .h265Vps
    have esps := empty .h265Sps
    have epps := empty .h265Pps
    simp only [ParameterKind.stored] at hvps hsps hpps evps esps epps
    simp only [codecFmtp,fmtpOf,evps,esps,epps,base64Encode_text]
    cases hv1 : last .h265Vps <;> cases hs1 : last .h265Sps <;> cases hp1 : last .h265Pps <;>
      simp [hvps,hsps,hpps,hv1,hs1,hp1]

theorem fmtpOf_empty (last : ParameterKind → Option Bytes) (codec : VideoCodec) :
    fmtpOf last codec = [] ↔ ∃ kind ∈ ParameterKind.ofCodec codec, last kind = none := by
  cases codec with
  | h264 =>
    simp only [fmtpOf,ParameterKind.ofCodec]
    cases hs : last .h264Sps <;> cases hp : last .h264Pps <;> simp [hs,hp,ascii]
  | h265 =>
    simp only [fmtpOf,ParameterKind.ofCodec]
    cases hv : last .h265Vps <;> cases hs : last .h265Sps <;> cases hp : last .h265Pps <;>
      simp [hv,hs,hp,ascii]

theorem lastCarried_none {kind : ParameterKind} {frames : List LiveFrame} :
    kind.lastCarried frames = none ↔ ∀ f ∈ frames, kind.carriedBy f.frame = [] := by
  rw [ParameterKind.lastCarried,List.getLast?_eq_none_iff,List.flatMap_eq_nil_iff]

theorem fmtp_tells_accepted_frames (config : LiveRtspServerConfig) (actions : List ServerAction)
    (ch : Int) (codec : VideoCodec) :
    let r := serverRun config actions
    codecFmtp (r.2.parameterSets ch) codec =
      fmtpOf (fun kind => kind.lastCarried (acceptedFrames config ch r.1)) codec ∧
    (codecFmtp (r.2.parameterSets ch) codec = [] ↔
      ∃ kind ∈ ParameterKind.ofCodec codec, ∀ f ∈ acceptedFrames config ch r.1,
        kind.carriedBy f.frame = []) ∧
    (∀ view ev t, acceptsFrame config view = false → r.2.onFrame config view = some (ev,t) →
      t = { r.2 with passed := r.2.passed + 1 }) ∧
    acceptedFrames config ch r.1 = ((observed (Server.step config) frameCalls {} actions).filter
      (·.frame.channelId = ch)).filter (acceptsFrame config ·.frame) := by
  intro r
  have hfmtp : codecFmtp (r.2.parameterSets ch) codec =
      fmtpOf (fun kind => kind.lastCarried (acceptedFrames config ch r.1)) codec :=
    codecFmtp_of (shelved_run config actions ch)
      (fun kind nal hn => ParameterKind.carries_ne_nil (ParameterKind.carries_lastCarried hn)) codec
  refine ⟨hfmtp,?_,fun view ev t hv hs => (refused_unchanged hv hs).1,?_⟩
  · rw [hfmtp,fmtpOf_empty]
    simp only [lastCarried_none]
  · rw [acceptedFrames,passedFrames_calls]

example :
    let config : LiveRtspServerConfig := ⟨[{}],by decide,by decide,{},30,1024,1200⟩
    codecFmtp ((serverRun config [.onFrame { data := [0,0,0,1,0x67,1,0,0,0,1,0x68,2] }]).2.parameterSets 1) .h264 =
      ascii "packetization-mode=1;sprop-parameter-sets=ZwE=,aAI=" := by
  decide +kernel

def upTo (f : LiveFrame) (frames : List LiveFrame) : List LiveFrame :=
  frames.filter (·.serial ≤ f.serial)

def after (f : LiveFrame) (frames : List LiveFrame) : List LiveFrame :=
  frames.filter (f.serial < ·.serial)

theorem upTo_append_after (f : LiveFrame) {frames : List LiveFrame}
    (h : frames.Pairwise (·.serial < ·.serial)) : upTo f frames ++ after f frames = frames := by
  induction frames with
  | nil => rfl
  | cons g frames ih =>
    obtain ⟨hg,hrest⟩ := List.pairwise_cons.mp h
    have ih := ih hrest
    by_cases hle : g.serial ≤ f.serial
    · have hn : ¬ f.serial < g.serial := by omega
      simp only [upTo,after,List.filter_cons,hle,hn,decide_true,decide_false,if_true,
        Bool.false_eq_true,if_false,List.cons_append] at ih ⊢
      rw [ih]
    · have hempty : upTo f (g :: frames) = [] := by
        refine List.filter_eq_nil_iff.mpr fun k hk => ?_
        rcases List.mem_cons.mp hk with rfl | hk
        · simpa using hle
        · have := hg k hk
          simp
          omega
      have hall : after f (g :: frames) = g :: frames := by
        refine List.filter_eq_self.mpr fun k hk => ?_
        rcases List.mem_cons.mp hk with rfl | hk
        · simp
          omega
        · have := hg k hk
          simp
          omega
      rw [hempty,hall,List.nil_append]

namespace ParameterKind

theorem carries_exclusive {k k' : ParameterKind} {nal : Bytes} (hc : k.codec = k'.codec)
    (h : k.carries nal = true) (h' : k'.carries nal = true) : k = k' := by
  have ht : k.nalType = k'.nalType := by
    cases nal with
    | nil => cases h
    | cons first rest =>
      simp only [carries,← hc] at h h'
      cases hk : k.codec with
      | h264 =>
        simp only [hk] at h h'
        exact (eq_of_beq h).symm.trans (eq_of_beq h')
      | h265 =>
        simp only [hk,Bool.and_eq_true] at h h'
        exact (eq_of_beq h.2).symm.trans (eq_of_beq h'.2)
  revert ht
  cases k <;> cases k' <;> decide

theorem find_carries {g : ParameterKind → Option Bytes}
    (hg : ∀ k nal, g k = some nal → k.carries nal = true) {k : ParameterKind}
    (ks : List ParameterKind) (hks : ∀ k' ∈ ks, k'.codec = k.codec) :
    (ks.filterMap g).find? k.carries = if k ∈ ks then g k else none := by
  induction ks with
  | nil => rfl
  | cons k' ks ih =>
    have ih := ih fun x hx => hks x (by simp [hx])
    by_cases hk : k' = k
    · subst hk
      cases hv : g k' with
      | none =>
        rw [List.filterMap_cons_none hv,ih,hv]
        simp
      | some nal =>
        rw [List.filterMap_cons_some hv,List.find?_cons_of_pos (hg k' nal hv)]
        simp
    · have hskip : ((k' :: ks).filterMap g).find? k.carries = (ks.filterMap g).find? k.carries := by
        cases hv : g k' with
        | none => rw [List.filterMap_cons_none hv]
        | some nal =>
          rw [List.filterMap_cons_some hv,List.find?_cons_of_neg]
          intro hc
          exact hk (carries_exclusive (hks k' (by simp)) (hg k' nal hv) hc)
      rw [hskip,ih]
      simp [Ne.symm hk]

theorem ofCodec_codec (codec : VideoCodec) : ∀ kind ∈ ofCodec codec, kind.codec = codec := by
  cases codec <;> decide

theorem filterMap_inj {g g' : ParameterKind → Option Bytes}
    (hg : ∀ k nal, g k = some nal → k.carries nal = true)
    (hg' : ∀ k nal, g' k = some nal → k.carries nal = true) (codec : VideoCodec) :
    (ofCodec codec).filterMap g = (ofCodec codec).filterMap g' ↔ ∀ k ∈ ofCodec codec, g k = g' k := by
  constructor
  · intro h k hk
    have same : ∀ k' ∈ ofCodec codec, k'.codec = k.codec := fun k' hk' =>
      (ofCodec_codec codec k' hk').trans (ofCodec_codec codec k hk).symm
    have hf := congrArg (List.find? k.carries) h
    rwa [find_carries hg _ same,find_carries hg' _ same,if_pos hk,if_pos hk] at hf
  · intro h
    exact List.filterMap_congr h

end ParameterKind

theorem prepended_of {sets : ParameterSets} {last : ParameterKind → Option Bytes}
    (hs : ∀ kind : ParameterKind, kind.stored sets = (last kind).getD [])
    (hl : ∀ kind nal, last kind = some nal → nal ≠ []) (codec : VideoCodec) :
    (parameterSets sets codec).filter (!·.isEmpty) = (ParameterKind.ofCodec codec).filterMap last := by
  have hmap : parameterSets sets codec = (ParameterKind.ofCodec codec).map fun kind => (last kind).getD [] := by
    rw [← List.map_congr_left fun kind _ => hs kind]
    cases codec <;> rfl
  rw [hmap]
  induction ParameterKind.ofCodec codec with
  | nil => rfl
  | cons kind kinds ih =>
    cases hk : last kind with
    | none => simpa [hk] using ih
    | some nal => simpa [hk,hl kind nal hk] using ih

theorem prepended_sets_fit_iff (config : LiveRtspServerConfig) (actions : List ServerAction)
    (c : Nat) (x : Session) (f : LiveFrame)
    (hx : (serverRun config actions).2.sessions[c]? = some x) (hp : x.point = .sending f)
    (hw : x.rtp.waitingForKeyframe = true) :
    let r := serverRun config actions
    let frames := acceptedFrames config f.frame.channelId r.1
    f ∈ frames ∧
    (accessUnitNals x.rtp (r.2.parameterSets f.frame.channelId) f.frame =
        (ParameterKind.ofCodec f.frame.codec).filterMap (fun kind => kind.lastCarried (upTo f frames)) ++
          splitAccessUnit f.frame.data ↔
      ∀ kind ∈ ParameterKind.ofCodec f.frame.codec,
        kind.lastCarried (after f frames) = none ∨
          kind.lastCarried (after f frames) = kind.lastCarried (upTo f frames)) := by
  intro r frames
  have hi := delivery_run config actions
  have hline : f ∈ lineOf c r.1 x := by
    simp [lineOf,Session.pipeline,Session.inFlight,hp]
  obtain ⟨hpassed,haccepts,-⟩ := hi.cause ((hi.session c x hx).taken f hline)
  have hsorted : frames.Pairwise (·.serial < ·.serial) := (passed_increasing hi.history).filter _
  have hsplit := upTo_append_after f hsorted
  refine ⟨List.mem_filter.mpr ⟨mem_passedFrames.mpr ⟨hpassed,rfl⟩,haccepts⟩,?_⟩
  have hcarries (fs : List LiveFrame) : ∀ (kind : ParameterKind) nal,
      kind.lastCarried fs = some nal → kind.carries nal = true :=
    fun _ _ h => ParameterKind.carries_lastCarried h
  have hprepended := prepended_of (shelved_run config actions f.frame.channelId)
    (fun kind nal hn => ParameterKind.carries_ne_nil (hcarries frames kind nal hn)) f.frame.codec
  rw [accessUnitNals,hw,if_pos rfl,hprepended,List.append_left_inj,
    ParameterKind.filterMap_inj (hcarries frames) (hcarries (upTo f frames))]
  refine forall_congr' fun kind => forall_congr' fun _ => ?_
  have hlast := kind.lastCarried_append (upTo f frames) (after f frames)
  rw [hsplit] at hlast
  rw [hlast]
  cases kind.lastCarried (after f frames) with
  | none => simp
  | some nal => simp

def shelvedKey : LiveFrame :=
  ⟨0,⟨[0,0,1,0x67,1,0,0,1,0x68,2,0,0,1,0x65],0,0,true,1,.h264⟩⟩

def keyTaken (later : List ServerAction) : List ServerAction :=
  joining ++ .onFrame shelvedKey.frame :: List.replicate 9 (.frameCall 1) ++ later ++
    [.session 0 (.poll none),advance]

theorem prompt_key_gets_its_sets :
    let r := serverRun (oneChannel 30) (keyTaken [])
    ∃ x, r.2.sessions[0]? = some x ∧ x.point = .sending shelvedKey ∧
      accessUnitNals x.rtp (r.2.parameterSets shelvedKey.frame.channelId) shelvedKey.frame =
        [[0x67,1],[0x68,2],[0x67,1],[0x68,2],[0x65]] := by
  have hrun : (serverRun (oneChannel 30) (keyTaken [])).2.sessions[0]?.map
      (fun x => (x.point,x.rtp.waitingForKeyframe)) = some (.sending shelvedKey,true) := by
    decide +kernel
  obtain ⟨x,hx,hpoint⟩ := Option.map_eq_some_iff.mp hrun
  obtain ⟨hp,hw⟩ := Prod.mk.inj hpoint
  refine ⟨x,hx,hp,?_⟩
  rw [(prepended_sets_fit_iff (oneChannel 30) (keyTaken []) 0 x shelvedKey hx hp hw).2.mpr
    (by decide +kernel)]
  decide +kernel

def nextSets : ServerAction := .onFrame ⟨[0,0,1,0x67,9,0,0,1,0x61],0,0,false,1,.h264⟩

theorem late_sets_precede_key :
    ∃ x, (serverRun (oneChannel 30) (keyTaken [nextSets])).2.sessions[0]? = some x ∧
      x.point = .sending shelvedKey ∧ holdsBack x.rtp shelvedKey.frame = false ∧
      accessUnitNals x.rtp ((serverRun (oneChannel 30) (keyTaken [nextSets])).2.parameterSets 1)
        shelvedKey.frame = [[0x67,9],[0x68,2],[0x67,1],[0x68,2],[0x65]] ∧
      (ParameterKind.ofCodec .h264).filterMap (fun kind => kind.lastCarried (upTo shelvedKey
        (acceptedFrames (oneChannel 30) 1 (serverRun (oneChannel 30) (keyTaken [nextSets])).1))) =
          [[0x67,1],[0x68,2]] := by
  have hrun : (serverRun (oneChannel 30) (keyTaken [nextSets])).2.sessions[0]?.map
      (fun x => (x.point,holdsBack x.rtp shelvedKey.frame,accessUnitNals x.rtp
        ((serverRun (oneChannel 30) (keyTaken [nextSets])).2.parameterSets 1) shelvedKey.frame)) =
      some (.sending shelvedKey,false,[[0x67,9],[0x68,2],[0x67,1],[0x68,2],[0x65]]) := by
    decide +kernel
  obtain ⟨x,hx,hpoint⟩ := Option.map_eq_some_iff.mp hrun
  simp only [Prod.mk.injEq] at hpoint
  exact ⟨x,hx,hpoint.1,hpoint.2.1,hpoint.2.2,by decide +kernel⟩

end RpiVms

import RpiVms.Live.Playback

namespace RpiVms

open Runs

def mediaAfter (media : RtpState) (results : List SendResult) : RtpState :=
  (results.getLast?.map (·.media)).getD media

theorem mediaAfter_cons (media : RtpState) (r : SendResult) (results : List SendResult) :
    mediaAfter media (r :: results) = mediaAfter r.media results := by
  simp only [mediaAfter,List.getLast?_cons]
  cases results.getLast? <;> rfl

theorem mediaAfter_snoc (media : RtpState) (r : SendResult) (results : List SendResult) :
    mediaAfter media (results ++ [r]) = r.media := by
  simp [mediaAfter]

theorem sendRun_snoc {mtu : Nat} {media : RtpState} {calls : List SendCall} (call : SendCall)
    (h : ∀ r ∈ sendRun mtu media calls, r.outcome = .sent) :
    sendRun mtu media (calls ++ [call]) = sendRun mtu media calls ++
      [sendFrame mtu (mediaAfter media (sendRun mtu media calls)) call] := by
  induction calls generalizing media with
  | nil =>
    rw [List.nil_append,sendRun,sendRun]
    simp [sendRun,mediaAfter]
  | cons first rest ih =>
    have hfirst : (sendFrame mtu media first).outcome = .sent := h _ (by rw [sendRun]; exact List.mem_cons_self)
    rw [sendRun,if_pos hfirst] at h
    rw [List.cons_append,sendRun,sendRun,if_pos hfirst,if_pos hfirst,mediaAfter_cons,
      ih fun r hr => h r (List.mem_cons_of_mem _ hr),List.cons_append]

structure Streaming (mtu : Nat) (sent : List (LiveFrame × SendResult)) (x : Session) (sequence : UInt16)
    (ssrc timestampOrigin : UInt32) (calls : List SendCall) : Prop where
  results : sent.map (·.2) = sessionSends mtu sequence ssrc timestampOrigin calls
  frames : sent.map (·.1.frame) = calls.map (·.frame)
  media : x.rtp =
    mediaAfter { sequence := sequence, ssrc := ssrc, timestampOrigin := timestampOrigin } (sent.map (·.2))
  ended : x.hungUp = true ∨ ∀ e ∈ sent, e.2.outcome = .sent

structure Streamed (config : LiveRtspServerConfig) (c : Nat) (h : List ServerEvent) (s : Server) : Prop where
  unknown : s.sessions[c]? = none → h.filterMap (sentResult c) = []
  known : ∀ x, s.sessions[c]? = some x → ∃ sequence ssrc timestampOrigin calls,
    Streaming config.rtpMtu (h.filterMap (sentResult c)) x sequence ssrc timestampOrigin calls

section

variable {config : LiveRtspServerConfig} {mtu : Nat} {sent : List (LiveFrame × SendResult)} {x y : Session}
  {sequence : UInt16} {ssrc timestampOrigin : UInt32} {calls : List SendCall} {sets : Int → ParameterSets}
  {s t : Server} {a : ServerAction} {h ev : List ServerEvent} {c : Nat} {f : LiveFrame}

theorem Streaming.kept (hs : Streaming mtu sent x sequence ssrc timestampOrigin calls) (hr : y.rtp = x.rtp)
    (hh : x.hungUp = true → y.hungUp = true) : Streaming mtu sent y sequence ssrc timestampOrigin calls :=
  { hs with media := hr.trans hs.media, ended := hs.ended.imp_left hh }

theorem Streaming.sends (hs : Streaming config.rtpMtu sent x sequence ssrc timestampOrigin calls) {writeOk : Nat → Bool}
    {now wall : Int} (hp : x.point = .sending f) :
    Streaming config.rtpMtu
      (sent ++ [(f,sendFrame config.rtpMtu x.rtp (sendCall sets x f writeOk now wall))])
      (sendStep config sets x f writeOk now wall).2 sequence ssrc timestampOrigin
      (calls ++ [sendCall sets x f writeOk now wall]) := by
  have hall : ∀ e ∈ sent, e.2.outcome = .sent := hs.ended.resolve_left (by simp [Session.hungUp,hp])
  have hrun : ∀ r ∈ sessionSends config.rtpMtu sequence ssrc timestampOrigin calls, r.outcome = .sent := by
    rw [← hs.results]
    intro r hr
    obtain ⟨e,he,rfl⟩ := List.mem_map.mp hr
    exact hall e he
  refine ⟨?_,?_,?_,?_⟩
  · have hmedia := hs.media
    rw [hs.results] at hmedia
    rw [List.map_append,hs.results,hmedia]
    exact (sendRun_snoc _ hrun).symm
  · rw [List.map_append,List.map_append,hs.frames]
    rfl
  · rw [List.map_append,List.map_singleton,mediaAfter_snoc]
    rfl
  · by_cases ho : (sendFrame config.rtpMtu x.rtp (sendCall sets x f writeOk now wall)).outcome = .sent
    · right
      intro e he
      rcases List.mem_append.mp he with he | he
      · exact hall e he
      · rw [List.mem_singleton.mp he]
        exact ho
    · exact .inl (by simp [sendStep,ho,Session.hungUp])

theorem Streamed.step (hi : Streamed config c h s) (hs : s.step config a = some (ev,t)) :
    Streamed config c (h ++ ev) t := by
  have hsame (hev : ∀ f result, .session c (.sent f result) ∉ ev) :
      (h ++ ev).filterMap (sentResult c) = h.filterMap (sentResult c) := by
    rw [List.filterMap_append,sentResult_silent hev,List.append_nil]
  constructor
  · intro hnone
    have hlen := sessions_length (step_move hs)
    have hlt : s.sessions.length ≤ c := hlen.trans (List.getElem?_eq_none_iff.mp hnone)
    rw [hsame fun f r he => ?_]
    · exact hi.unknown (List.getElem?_eq_none hlt)
    · obtain ⟨action,rfl⟩ := session_event (step_move hs) he
      obtain ⟨x,-,-,hx,-⟩ := session_sessions hs
      exact absurd (List.getElem?_eq_some_iff.mp hx).1 (not_lt.mpr hlt)
  · intro y hy
    have hchange := session_change (step_move hs) hy
    cases hchange with
    | kept hx hsilent =>
      rw [hsame fun f r => hsilent _]
      exact hi.known y hx
    | added sequence ssrc timestampOrigin hc =>
      have hnone := hi.unknown (List.getElem?_eq_none hc.ge)
      rw [List.append_nil,hnone]
      exact ⟨sequence,ssrc,timestampOrigin,[],rfl,rfl,rfl,.inr (by simp)⟩
    | @stepped x _ action running sets events hx hstep =>
      obtain ⟨sequence,ssrc,timestampOrigin,calls,hrun⟩ := hi.known x hx
      cases session_sends hstep with
      | nothing hunsent hrtp =>
        rw [hsame fun f r he => ?_]
        · exact ⟨sequence,ssrc,timestampOrigin,calls,hrun.kept hrtp (hungUp_stays hstep)⟩
        · obtain ⟨e,he,heq⟩ := List.mem_map.mp he
          cases heq
          exact hunsent f r he
      | frame f writeOk now wall hp hb =>
        have hsent : (sendStep config sets x f writeOk now wall).1.map (ServerEvent.session c) =
            [.session c (.sent f (sendFrame config.rtpMtu x.rtp (sendCall sets x f writeOk now wall)))] := by
          simp [sendStep,hb]
        rw [hsent,results_snoc]
        exact ⟨sequence,ssrc,timestampOrigin,_,hrun.sends hp⟩
    | @pushed ch f before x rest hcall hx =>
      obtain ⟨sequence,ssrc,timestampOrigin,calls,hrun⟩ := hi.known x hx
      rw [hsame fun g r he => queued_silent _ he]
      exact ⟨sequence,ssrc,timestampOrigin,calls,hrun.kept rfl id⟩

theorem Streamed.sends (hi : Streamed config c h s) : ∃ sequence ssrc timestampOrigin calls,
    (h.filterMap (sentResult c)).map (·.2) = sessionSends config.rtpMtu sequence ssrc timestampOrigin calls ∧
      (sentFrames c h).map (·.frame) = calls.map (·.frame) := by
  rw [sentFrames_results]
  cases hx : s.sessions[c]? with
  | none =>
    rw [hi.unknown hx]
    exact ⟨0,0,0,[],rfl,rfl⟩
  | some x =>
    obtain ⟨sequence,ssrc,timestampOrigin,calls,hrun⟩ := hi.known x hx
    exact ⟨sequence,ssrc,timestampOrigin,calls,hrun.results,by rw [List.map_map]; exact hrun.frames⟩

end

end RpiVms

import RpiVms.Client.Answers
import RpiVms.Live.Lifecycle

namespace RpiVms

open Search Segments Framing Runs

-- what a session writes to its connection; of a reply whose write failed nothing is counted
def SessionEvent.written : SessionEvent → Bytes
  | .replied _ result _ ok => if ok then result.response else []
  | .rejected => makeResponse 400 [] [] []
  | .sent _ result => result.rtp.flatten ++ result.rtcp.flatten

def ServerEvent.writtenTo (c : Nat) : ServerEvent → Bytes
  | .session client e => if client = c then e.written else []
  | _ => []

def SessionEvent.media : SessionEvent → List Bytes
  | .sent _ result => result.rtp ++ result.rtcp
  | _ => []

def ServerEvent.mediaTo (c : Nat) : ServerEvent → List Bytes
  | .session client e => if client = c then e.media else []
  | _ => []

def mediaUnits (c : Nat) (h : List ServerEvent) : List Bytes := h.flatMap (·.mediaTo c)

namespace RtspsClient

def Client.gone (client : Client) : Bool :=
  match client.point with
  | .finished => true
  | .failed _ => true
  | _ => false

-- client number c of the server and what is on its way between the two
structure Dialogue where
  server : Server
  client : Client
  toServer : Bytes := []
  toClient : Bytes := []

-- a poll of 0 bytes is a select that timed out; reach is the number of writes before one fails
inductive ServeAction where
  | connect
  | poll (count : Nat)
  | extract (first second : UInt32) (writeOk : Bool)
  | send (reach : Option Nat) (now wall : Int)
  | advance

inductive DialogueAction where
  | elsewhere (action : ServerAction)
  | serve (action : ServeAction)
  | client (action : ClientAction)

-- other clients, the cameras' frames and the threads that pass them on; the server is not stopped
def beside (c : Nat) : ServerAction → Bool
  | .session client _ => client != c
  | .stop => false
  | _ => true

theorem beside_other {c : Nat} {a : ServerAction} (h : beside c a = true) (action : SessionAction) :
    a ≠ .session c action := by
  rintro rfl
  simp [beside] at h

namespace Dialogue

variable (config : LiveRtspServerConfig) (c : Nat) (d : Dialogue)

def sessionAction : ServeAction → Option SessionAction
  | .connect => some (.connect true)
  | .poll count =>
      if count = 0 then some (.poll none)
      else if d.toServer.isEmpty then if d.client.gone then some (.poll (some [])) else none
      else if count ≤ 8192 then some (.poll (some (d.toServer.take count)))
      else none
  -- a write fails only towards a client that has left
  | .extract first second writeOk =>
      if writeOk || d.client.gone then some (.extract (randomSessionId first second) writeOk) else none
  | .send reach now wall =>
      if reach.isNone || d.client.gone then some (.send (fun n => reach.all (n < ·)) now wall) else none
  | .advance => some .advance

def unread : ServeAction → Bytes
  | .poll count => d.toServer.drop count
  | _ => d.toServer

def hungUp : Bool := (d.server.sessions[c]?.map (·.hungUp)).getD false

def clientMay : ClientAction → Bool
  | .receive chunk => !chunk.isEmpty && chunk.length ≤ 8192 && chunk.isPrefixOf d.toClient
  | .lost =>
      d.hungUp c &&
        match d.client.point with
        | .reading _ => d.toClient.isEmpty
        | .selecting => d.toClient.isEmpty
        | _ => true
  | _ => true

def unreceived : ClientAction → Bytes
  | .receive chunk => d.toClient.drop chunk.length
  | _ => d.toClient

def step : DialogueAction → Option (List ServerEvent × Dialogue)
  | .elsewhere action =>
      if beside c action then
        (d.server.step config action).map fun (events,server) => (events,{ d with server := server })
      else none
  | .serve action =>
      (d.sessionAction action).bind fun sessionAction =>
        (d.server.step config (.session c sessionAction)).map fun (events,server) =>
          (events,{ d with
            server := server
            toServer := d.unread action
            toClient := d.toClient ++ events.flatMap (·.writtenTo c) })
  | .client action =>
      if d.clientMay c action then
        (d.client.step action).map fun (out,client) =>
          ([],{ d with
            client := client
            toServer := d.toServer ++ out
            toClient := d.unreceived action })
      else none

end Dialogue

end RtspsClient

def SessionPoint.Attends : SessionPoint → Prop
  | .storingChannel closeSession => closeSession = false
  | .storingPlaying closeSession => closeSession = false
  | .disconnecting | .halting | .closing | .deactivating | .recording | .finished => False
  | _ => True

structure Serving (state : RtspControlState) (x : Session) : Prop where
  control : x.control = state
  looping : x.looping = true
  attends : x.point.Attends
  still : state.phase ≠ .playing → x.playing = false ∧ x.storing = false ∧ x.inFlight = []

section

variable {channel : Int} {packets : List RtpPacket} {call : SendCall}

theorem writePackets_all (hp : ∀ p ∈ packets, p.bytes.length ≤ 65535) (n : Nat) (media : RtpState) :
    (writePackets (fun _ => true) channel n packets media).outcome = .sent ∧
      ∀ w ∈ (writePackets (fun _ => true) channel n packets media).written, IsFrame w := by
  induction packets generalizing n media with
  | nil => exact ⟨rfl,by simp [writePackets]⟩
  | cons packet rest ih =>
    obtain ⟨wire,hwire,hframe⟩ := interleaved_frame channel (hp packet (by simp))
    obtain ⟨hsent,hrest⟩ := ih (fun p hm => hp p (by simp [hm])) (n + 1)
      { media with
        packetCount := media.packetCount + 1
        octetCount := media.octetCount + UInt64.ofNat (packet.bytes.length - 12) }
    simp only [writePackets,hwire,if_true]
    exact ⟨hsent,by simpa using ⟨hframe,hrest⟩⟩

theorem sendReport_all (hw : call.writeOk = fun _ => true) (timestamp : UInt32) (rtp : List Bytes) (media : RtpState) :
    (sendReport call timestamp packets rtp media).outcome = .sent ∧
      (sendReport call timestamp packets rtp media).rtp = rtp ∧
      ∀ w ∈ (sendReport call timestamp packets rtp media).rtcp, IsFrame w := by
  obtain ⟨wire,hwire,hframe⟩ := interleaved_frame call.rtcpChannel (packet_fits (.report media timestamp call.wall))
  unfold sendReport
  split
  · simp only [hwire,hw,if_true]
    exact ⟨trivial,trivial,by simpa using hframe⟩
  · exact ⟨rfl,rfl,by simp⟩

theorem sendPackets_all (hw : call.writeOk = fun _ => true) (hp : ∀ p ∈ packets, p.bytes.length ≤ 65535)
    (timestamp : UInt32) (media : RtpState) :
    (sendPackets call timestamp packets media).outcome = .sent ∧
      ∀ w ∈ (sendPackets call timestamp packets media).rtp ++ (sendPackets call timestamp packets media).rtcp,
        IsFrame w := by
  obtain ⟨hsent,hframes⟩ := @writePackets_all call.rtpChannel packets hp 0 media
  simp only [sendPackets,hw,hsent]
  obtain ⟨hreport,hrtp,hrtcp⟩ := @sendReport_all packets call hw timestamp
    (writePackets (fun _ => true) call.rtpChannel 0 packets media).written
    (if packets.isEmpty then (writePackets (fun _ => true) call.rtpChannel 0 packets media).media
      else { (writePackets (fun _ => true) call.rtpChannel 0 packets media).media with firstRtpSent := true })
  refine ⟨hreport,fun w hm => ?_⟩
  rcases List.mem_append.mp hm with hm | hm
  · rw [hrtp] at hm
    exact hframes w hm
  · exact hrtcp w hm

theorem sendFrame_all {mtu : Nat} (hm : 16 ≤ mtu ∧ mtu ≤ 65535) (media : RtpState)
    (hw : call.writeOk = fun _ => true) :
    (sendFrame mtu media call).outcome = .sent ∧
      ∀ w ∈ (sendFrame mtu media call).rtp ++ (sendFrame mtu media call).rtcp, IsFrame w := by
  unfold sendFrame
  split
  · simp
  · simp only
    split
    · rename_i message he
      rw [packetizeAccessUnit,if_neg (by omega)] at he
      cases he
    · rename_i packets sequence hpackets
      exact sendPackets_all hw (fun p hp => (packetize_size hpackets p hp).trans hm.2) _ _

end

section

variable {config : LiveRtspServerConfig} {sets : Int → ParameterSets} {state : RtspControlState} {x y : Session}
  {events : List SessionEvent}

theorem Serving.not_hungUp (h : Serving state x) : x.hungUp = false := by
  have ha := h.attends
  unfold Session.hungUp
  cases hp : x.point <;> rw [hp] at ha <;> first | rfl | exact ha.elim

theorem Serving.moved (h : Serving state x) (hc : y.control = x.control) (hl : y.looping = x.looping)
    (hp : y.playing = x.playing) (ha : y.point.Attends) (hs : y.storing = false) (hi : y.inFlight = []) :
    Serving state y :=
  ⟨hc.trans h.control,hl.trans h.looping,ha,fun hn => ⟨hp.trans (h.still hn).1,hs,hi⟩⟩

theorem Serving.onward (h : Serving state x) (hph : state.phase = .playing) (hc : y.control = x.control)
    (hl : y.looping = x.looping) (ha : y.point.Attends) : Serving state y :=
  ⟨hc.trans h.control,hl.trans h.looping,ha,fun hn => absurd hph hn⟩

theorem Serving.plays (h : Serving state x) (hx : x.playing = true ∨ x.storing = true ∨ x.inFlight ≠ []) :
    state.phase = .playing := by
  by_contra hn
  obtain ⟨hp,hs,hi⟩ := h.still hn
  rcases hx with hx | hx | hx
  · rw [hp] at hx
    cases hx
  · rw [hs] at hx
    cases hx
  · exact hx hi

theorem Serving.polled (h : Serving state x) {chunk : Bytes} (hne : chunk ≠ [])
    (hfits : overTotal config.limits (x.input ++ chunk) = false)
    (hs : sessionStep config true sets x (.poll (some chunk)) = some (events,y)) :
    x.point = .polling ∧ events = [] ∧ y = { x with input := x.input ++ chunk, point := .parsing } := by
  have hempty : chunk.isEmpty = false := by simpa using hne
  cases hp : x.point <;> simp only [sessionStep,hp] at hs <;> try cases hs
  simp only [pollStep,h.looping,Bool.and_self,if_true,hempty,hfits,Bool.false_eq_true,if_false] at hs
  cases hs
  exact ⟨rfl,rfl,by simp [h.looping]⟩

inductive Unprompted : SessionAction → Prop
  | connect : Unprompted (.connect true)
  | poll : Unprompted (.poll none)
  | send (now wall : Int) : Unprompted (.send (fun _ => true) now wall)
  | advance : Unprompted .advance

structure Quietly (state : RtspControlState) (x : Session) (events : List SessionEvent) (y : Session) : Prop where
  serving : Serving state y
  input : y.input = x.input
  started : x.point ≠ .parsing
  frames : ∀ e ∈ events, ∃ f result, e = .sent f result ∧ ∀ w ∈ result.rtp ++ result.rtcp, IsFrame w
  silent : state.phase ≠ .playing → events = []

theorem Quietly.wire (h : Quietly state x events y) :
    events.flatMap (·.written) = (events.flatMap (·.media)).flatten ∧ ∀ u ∈ events.flatMap (·.media), IsFrame u := by
  have hframes := h.frames
  have hflat : (events.flatMap (·.media)).flatten = events.flatMap fun e => e.media.flatten := by
    rw [← List.flatMap_id,List.flatMap_assoc]
    simp
  constructor
  · rw [hflat]
    refine List.flatMap_congr fun e he => ?_
    obtain ⟨f,result,rfl,-⟩ := hframes e he
    simp [SessionEvent.written,SessionEvent.media]
  · intro u hu
    obtain ⟨e,he,hm⟩ := List.mem_flatMap.mp hu
    obtain ⟨f,result,rfl,hall⟩ := hframes e he
    exact hall u hm

theorem Quietly.of_silent (hy : Serving state y) (hi : y.input = x.input) (hp : x.point ≠ .parsing) :
    Quietly state x [] y := ⟨hy,hi,hp,by simp,fun _ => rfl⟩

theorem Serving.sends (h : Serving state x) (hm : 16 ≤ config.rtpMtu ∧ config.rtpMtu ≤ 65535) {f : LiveFrame}
    (hp : x.point = .sending f) (now wall : Int) :
    Quietly state x (sendStep config sets x f (fun _ => true) now wall).1
      (sendStep config sets x f (fun _ => true) now wall).2 := by
  obtain ⟨hsent,hframes⟩ := @sendFrame_all (sendCall sets x f (fun _ => true) now wall) _ hm x.rtp rfl
  have hplays := h.plays (.inr (.inr (by simp [Session.inFlight,hp])))
  refine ⟨h.onward hplays rfl rfl ?_,rfl,by simp [hp],fun e he => ?_,fun hn => absurd hplays hn⟩
  · simp only [sendStep,hsent,if_true]
    trivial
  · simp only [sendStep] at he
    split at he
    · simp at he
    · rw [List.mem_singleton.mp he]
      exact ⟨f,_,rfl,hframes⟩

theorem Serving.pops (h : Serving state x) (hp : x.point = .popping) : Quietly state x [] (popStep x) := by
  refine .of_silent ?_ ?_ (by simp [hp])
  · unfold popStep
    split
    · rename_i hplay
      have hplays := h.plays (.inl hplay)
      split <;> exact h.onward hplays rfl rfl trivial
    · exact h.moved rfl rfl rfl trivial rfl rfl
  · unfold popStep
    split
    · split <;> rfl
    · rfl

theorem Serving.advances (h : Serving state x) (hr : rejectsLeftover x.input = false)
    (hs : sessionStep config true sets x .advance = some (events,y)) : Quietly state x events y := by
  have ha := h.attends
  cases hp : x.point with
  | registering | activating | creating =>
    simp only [sessionStep,hp] at hs
    cases hs
    exact .of_silent (h.moved rfl rfl rfl trivial rfl rfl) rfl (by simp [hp])
  | storingChannel closeSession =>
    simp only [sessionStep,hp] at hs
    cases hs
    rw [hp] at ha
    exact .of_silent (h.onward (h.plays (.inr (.inl (by simp [Session.storing,hp])))) rfl rfl ha) rfl (by simp [hp])
  | storingPlaying closeSession =>
    simp only [sessionStep,hp] at hs
    cases hs
    rw [hp] at ha
    obtain rfl : closeSession = false := ha
    exact .of_silent (h.onward (h.plays (.inr (.inl (by simp [Session.storing,hp])))) rfl rfl trivial) rfl (by simp [hp])
  | checking =>
    simp only [sessionStep,hp,checkStep,hr,Bool.false_eq_true,if_false] at hs
    cases hs
    exact .of_silent (h.moved rfl rfl rfl trivial rfl rfl) rfl (by simp [hp])
  | popping =>
    simp only [sessionStep,hp] at hs
    cases hs
    exact h.pops hp
  | connecting | polling | parsing | sending _ | finished =>
    simp only [sessionStep,hp] at hs
    cases hs
  | disconnecting | halting | closing | deactivating | recording =>
    rw [hp] at ha
    exact ha.elim

theorem Serving.unprompted (h : Serving state x) (hm : 16 ≤ config.rtpMtu ∧ config.rtpMtu ≤ 65535)
    (hr : rejectsLeftover x.input = false) {action : SessionAction} (ha : Unprompted action)
    (hs : sessionStep config true sets x action = some (events,y)) : Quietly state x events y := by
  cases ha with
  | connect =>
    cases hp : x.point <;> simp only [sessionStep,hp] at hs <;> try cases hs
    exact .of_silent (h.moved rfl rfl rfl trivial rfl rfl) rfl (by simp [hp])
  | poll =>
    cases hp : x.point <;>
      simp only [sessionStep,hp,pollStep,h.looping,Bool.and_self,if_true] at hs <;> cases hs
    exact .of_silent (h.moved rfl rfl rfl trivial rfl rfl) rfl (by simp [hp])
  | send now wall =>
    cases hp : x.point <;> simp only [sessionStep,hp] at hs <;> try cases hs
    exact h.sends hm hp now wall
  | advance => exact h.advances hr hs

end

end RpiVms

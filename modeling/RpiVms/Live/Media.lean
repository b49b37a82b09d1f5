import RpiVms.Live.Packets

namespace RpiVms

structure OwnedLiveFrame where
  data : Bytes
  ptsNs : Int64 := -1
  durationNs : Int64 := -1
  keyFrame : Bool := false
  channelId : Int := 1
  codec : VideoCodec := .h264
  deriving DecidableEq, Repr

structure ParameterSets where
  h264Sps : Bytes := []
  h264Pps : Bytes := []
  h265Vps : Bytes := []
  h265Sps : Bytes := []
  h265Pps : Bytes := []
  deriving DecidableEq, Repr

def parameterSets (sets : ParameterSets) : VideoCodec → List Bytes
  | .h264 => [sets.h264Sps,sets.h264Pps]
  | .h265 => [sets.h265Vps,sets.h265Sps,sets.h265Pps]

-- the fields of ClientMediaState that only the session's own thread touches
structure RtpState where
  sequence : UInt16
  ssrc : UInt32
  timestampOrigin : UInt32
  firstPtsNs : Int64 := -1
  lastTimestamp : UInt32 := 0
  packetCount : UInt64 := 0
  octetCount : UInt64 := 0
  firstRtpSent : Bool := false
  waitingForKeyframe : Bool := true
  lastRtcp : Int := 0
  deriving DecidableEq, Repr

def kRtcpInterval : Int := 5000000000

def int64ToUInt32 (v : Int64) : UInt32 := v.toUInt64.toUInt32

def frameTimestamp (media : RtpState) (frame : OwnedLiveFrame) : UInt32 × RtpState :=
  if frame.ptsNs ≥ 0 then
    let first := if media.firstPtsNs < 0 then frame.ptsNs else media.firstPtsNs
    let delta := if frame.ptsNs - first < 0 then 0 else frame.ptsNs - first
    let timestamp := media.timestampOrigin + int64ToUInt32 (delta * 90000 / 1000000000)
    (timestamp,{ media with firstPtsNs := first, lastTimestamp := timestamp })
  else
    let duration : Int64 := if frame.durationNs > 0 then frame.durationNs else 33333333
    let moved := media.lastTimestamp + int64ToUInt32 (duration * 90000 / 1000000000)
    let timestamp := if moved = 0 then media.timestampOrigin else moved
    (timestamp,{ media with lastTimestamp := timestamp })

def kNtpEpochOffset : Int := 2208988800

-- wall is the system clock in nanoseconds since 1970
def makeRtcpSenderReport (media : RtpState) (rtpTimestamp : UInt32) (wall : Int) : Bytes :=
  let seconds := wall.tdiv 1000000000
  let fractionNs := wall - seconds * 1000000000
  let ntpSeconds := UInt32.ofInt (seconds + kNtpEpochOffset)
  let ntpFraction := (UInt64.ofInt fractionNs <<< 32 / 1000000000).toUInt32
  let packet := appendU16 [0x80,200] 6
  let packet := appendU32 packet media.ssrc
  let packet := appendU32 packet ntpSeconds
  let packet := appendU32 packet ntpFraction
  let packet := appendU32 packet rtpTimestamp
  let packet := appendU32 packet media.packetCount.toUInt32
  appendU32 packet media.octetCount.toUInt32

inductive SendOutcome where
  | sent
  | writeFailed
  | threw (message : String)
  deriving DecidableEq, Repr

structure SendCall where
  frame : OwnedLiveFrame
  sets : ParameterSets
  rtpChannel : Int
  rtcpChannel : Int
  writeOk : Nat → Bool
  now : Int
  wall : Int

structure SendResult where
  media : RtpState
  packets : List RtpPacket
  rtp : List Bytes
  rtcp : List Bytes
  outcome : SendOutcome

structure WriteRun where
  media : RtpState
  written : List Bytes
  outcome : SendOutcome

def writePackets (writeOk : Nat → Bool) (channel : Int) : Nat → List RtpPacket → RtpState → WriteRun
  | _,[],media => ⟨media,[],.sent⟩
  | n,packet :: rest,media =>
      match interleaved channel packet.bytes with
      | .error message => ⟨media,[],.threw message⟩
      | .ok wire =>
          if writeOk n then
            let run := writePackets writeOk channel (n + 1) rest
              { media with
                packetCount := media.packetCount + 1
                octetCount := media.octetCount + UInt64.ofNat (packet.bytes.length - 12) }
            { run with written := wire :: run.written }
          else ⟨media,[],.writeFailed⟩

def holdsBack (media : RtpState) (frame : OwnedLiveFrame) : Bool :=
  media.waitingForKeyframe && !frame.keyFrame

def accessUnitNals (media : RtpState) (sets : ParameterSets) (frame : OwnedLiveFrame) : List Bytes :=
  (if media.waitingForKeyframe then (parameterSets sets frame.codec).filter (!·.isEmpty) else []) ++
    splitAccessUnit frame.data

def sendReport (call : SendCall) (timestamp : UInt32) (packets : List RtpPacket) (rtp : List Bytes)
    (media : RtpState) : SendResult :=
  if media.lastRtcp = 0 ∨ call.now - media.lastRtcp ≥ kRtcpInterval then
    match interleaved call.rtcpChannel (makeRtcpSenderReport media timestamp call.wall) with
    | .error message => ⟨media,packets,rtp,[],.threw message⟩
    | .ok wire =>
        if call.writeOk packets.length then
          ⟨{ media with lastRtcp := call.now },packets,rtp,[wire],.sent⟩
        else ⟨media,packets,rtp,[],.writeFailed⟩
  else ⟨media,packets,rtp,[],.sent⟩

def sendPackets (call : SendCall) (timestamp : UInt32) (packets : List RtpPacket) (media : RtpState) :
    SendResult :=
  let run := writePackets call.writeOk call.rtpChannel 0 packets media
  match run.outcome with
  | .sent =>
      sendReport call timestamp packets run.written
        (if packets.isEmpty then run.media else { run.media with firstRtpSent := true })
  | outcome => ⟨run.media,packets,run.written,[],outcome⟩

def sendFrame (mtu : Nat) (media : RtpState) (call : SendCall) : SendResult :=
  if holdsBack media call.frame then ⟨media,[],[],[],.sent⟩
  else
    let nalUnits := accessUnitNals media call.sets call.frame
    let (timestamp,media) := frameTimestamp { media with waitingForKeyframe := false } call.frame
    match packetizeAccessUnit call.frame.codec nalUnits media.sequence timestamp media.ssrc mtu with
    | .error message => ⟨media,[],[],[],.threw message⟩
    | .ok (packets,sequence) => sendPackets call timestamp packets { media with sequence := sequence }

-- run_session leaves its loop at the first send_frame that fails or throws
def sendRun (mtu : Nat) : RtpState → List SendCall → List SendResult
  | _,[] => []
  | media,call :: calls =>
      let result := sendFrame mtu media call
      result :: if result.outcome = .sent then sendRun mtu result.media calls else []

end RpiVms

import RpiVms.Library.Options
import RpiVms.Storage.Construction

namespace RpiVms

open Search Options

inductive LogLevel where
  | error
  | warn
  | info
  | debug
  | trace
  deriving DecidableEq, Repr

def parseLogLevel (value : Bytes) : Except Bytes LogLevel :=
  if value = ascii "error" then .ok .error
  else if value = ascii "warn" ∨ value = ascii "warning" then .ok .warn
  else if value = ascii "info" then .ok .info
  else if value = ascii "debug" then .ok .debug
  else if value = ascii "trace" then .ok .trace
  else .error (ascii "unknown log level: " ++ value)

def parseVideoCodec (value : Bytes) : Except Bytes VideoCodec :=
  if value = ascii "h264" ∨ value = ascii "H264" then .ok .h264
  else if value = ascii "h265" ∨ value = ascii "hevc" ∨ value = ascii "H265" ∨ value = ascii "HEVC" then
    .ok .h265
  else .error (ascii "unsupported codec: " ++ value)

-- strtoull takes a sign and negates within the 64 bits
def stoull (s : Bytes) : Except StoiError Stoi :=
  let n := scanNumeral s
  if n.digits.isEmpty then .error .invalidArgument
  else if 2 ^ 64 ≤ digitsValue n.digits then .error .outOfRange
  else .ok ⟨n.value % 2 ^ 64,s.length - n.rest.length⟩

def parseInt (name value : Bytes) (minValue maxValue : Int) : Except Bytes Int :=
  match stoi value with
  | .error _ => .error (name ++ ascii " requires a valid number")
  | .ok parsed =>
      if parsed.consumed ≠ value.length then .error (name ++ ascii " requires a valid number")
      else if parsed.value < minValue ∨ parsed.value > maxValue then .error (name ++ ascii " out of range")
      else .ok parsed.value

def parseSize (name value : Bytes) : Except Bytes Nat :=
  match stoull value with
  | .error _ => .error (name ++ ascii " requires a valid number")
  | .ok parsed =>
      if parsed.consumed ≠ value.length then .error (name ++ ascii " requires a valid number")
      else .ok parsed.value.toNat

inductive VmsOption where
  | cameraHost
  | cameraPort
  | cameraUser
  | cameraPassword
  | cameraPasswordStdin
  | cameraPathTemplate
  | cameraChannel
  | channelMap
  | rtspUrl
  | storageRoot
  | mediaDb
  | channelId
  | dbBusyTimeoutMs
  | codec
  | latencyMs
  | segmentSeconds
  | reconnectDelayMs
  | ingestStartupTimeoutMs
  | channelStartDelayMs
  | liveListenHost
  | rtspPort
  | rtspsPort
  | tlsCert
  | tlsKey
  | liveClientQueueFrames
  | liveClientQueueBytes
  | rtpMtu
  | minFreeBytes
  | requireStorageMount
  | logLevel
  | help
  deriving DecidableEq, Repr

-- VmsConfig with all of its fields
structure VmsArguments where
  cameraHost : Bytes := []
  cameraPort : Int := 554
  cameraUser : Bytes := ascii "admin"
  cameraPassword : Bytes := []
  cameraPasswordStdin : Bool := false
  cameraPathTemplate : Bytes := ascii "/\x7bcamera_channel\x7d/profile2/media.smp"
  cameraChannel : Int := 0
  legacyMappingSet : Bool := false
  channelMap : Bytes := []
  storageRoot : Bytes := ascii "/mnt/vms-storage"
  mediaDb : Bytes := []
  channelId : Int := 1
  dbBusyTimeoutMs : Int := 5000
  codec : VideoCodec := .h264
  latencyMs : Int := 200
  segmentSeconds : Int := 60
  reconnectDelayMs : Int := 2000
  ingestStartupTimeoutMs : Int := 5000
  channelStartDelayMs : Int := 0
  liveListenHost : Bytes := ascii "0.0.0.0"
  rtspPort : Int := 0
  rtspsPort : Int := 8554
  tlsCertFile : Bytes := ascii "certs/server.crt"
  tlsKeyFile : Bytes := ascii "certs/server.key"
  liveClientQueueFrames : Nat := 30
  liveClientQueueBytes : Nat := 8 * 1024 * 1024
  rtpMtu : Nat := 1200
  minFreeBytes : Nat := 1024 * 1024 * 1024
  requireStorageMount : Bool := false
  logLevel : LogLevel := .info
  deriving DecidableEq, Repr

namespace VmsOption

def text : VmsOption → Bytes
  | .cameraHost => ascii "--camera-host"
  | .cameraPort => ascii "--camera-port"
  | .cameraUser => ascii "--camera-user"
  | .cameraPassword => ascii "--camera-password"
  | .cameraPasswordStdin => ascii "--camera-password-stdin"
  | .cameraPathTemplate => ascii "--camera-path-template"
  | .cameraChannel => ascii "--camera-channel"
  | .channelMap => ascii "--channel-map"
  | .rtspUrl => ascii "--rtsp-url"
  | .storageRoot => ascii "--storage-root"
  | .mediaDb => ascii "--media-db"
  | .channelId => ascii "--channel-id"
  | .dbBusyTimeoutMs => ascii "--db-busy-timeout-ms"
  | .codec => ascii "--codec"
  | .latencyMs => ascii "--latency-ms"
  | .segmentSeconds => ascii "--segment-seconds"
  | .reconnectDelayMs => ascii "--reconnect-delay-ms"
  | .ingestStartupTimeoutMs => ascii "--ingest-startup-timeout-ms"
  | .channelStartDelayMs => ascii "--channel-start-delay-ms"
  | .liveListenHost => ascii "--live-listen-host"
  | .rtspPort => ascii "--rtsp-port"
  | .rtspsPort => ascii "--rtsps-port"
  | .tlsCert => ascii "--tls-cert"
  | .tlsKey => ascii "--tls-key"
  | .liveClientQueueFrames => ascii "--live-client-queue-frames"
  | .liveClientQueueBytes => ascii "--live-client-queue-bytes"
  | .rtpMtu => ascii "--rtp-mtu"
  | .minFreeBytes => ascii "--min-free-bytes"
  | .requireStorageMount => ascii "--require-storage-mount"
  | .logLevel => ascii "--log-level"
  | .help => ascii "--help"

-- in the order of the comparisons
def all : List VmsOption :=
  [.cameraHost,.cameraPort,.cameraUser,.cameraPassword,.cameraPasswordStdin,.cameraPathTemplate,
    .cameraChannel,.channelMap,.rtspUrl,.storageRoot,.mediaDb,.channelId,.dbBusyTimeoutMs,.codec,
    .latencyMs,.segmentSeconds,.reconnectDelayMs,.ingestStartupTimeoutMs,.channelStartDelayMs,
    .liveListenHost,.rtspPort,.rtspsPort,.tlsCert,.tlsKey,.liveClientQueueFrames,
    .liveClientQueueBytes,.rtpMtu,.minFreeBytes,.requireStorageMount,.logLevel,.help]

def ofText (arg : Bytes) : Option VmsOption := all.find? (·.text = arg)

abbrev Effect := Entry Bytes VmsArguments Bytes

def takes (set : Bytes → VmsArguments → VmsArguments) : Effect := .value fun v c => .ok (set v c)

def number (o : VmsOption) (minValue maxValue : Int) (set : Int → VmsArguments → VmsArguments) : Effect :=
  .value fun v c => (parseInt o.text v minValue maxValue).map (set · c)

def size (o : VmsOption) (set : Nat → VmsArguments → VmsArguments) : Effect :=
  .value fun v c => (parseSize o.text v).map (set · c)

def effect : VmsOption → Effect
  | .cameraHost => takes fun v c => { c with cameraHost := v }
  | .cameraPort => number .cameraPort 1 65535 fun n c => { c with cameraPort := n }
  | .cameraUser => takes fun v c => { c with cameraUser := v }
  | .cameraPassword => takes fun v c => { c with cameraPassword := v }
  | .cameraPasswordStdin => .flag fun c => { c with cameraPasswordStdin := true }
  | .cameraPathTemplate => takes fun v c => { c with cameraPathTemplate := v }
  | .cameraChannel =>
      number .cameraChannel 0 3 fun n c => { c with cameraChannel := n, legacyMappingSet := true }
  | .channelMap => takes fun v c => { c with channelMap := v }
  | .rtspUrl => .refused (ascii "--rtsp-url is not used; pass camera fields instead")
  | .storageRoot => takes fun v c => { c with storageRoot := v }
  | .mediaDb => takes fun v c => { c with mediaDb := v }
  | .channelId => number .channelId 1 4 fun n c => { c with channelId := n, legacyMappingSet := true }
  | .dbBusyTimeoutMs => number .dbBusyTimeoutMs 0 60000 fun n c => { c with dbBusyTimeoutMs := n }
  | .codec => .value fun v c => (parseVideoCodec v).map fun codec => { c with codec := codec }
  | .latencyMs => number .latencyMs 0 10000 fun n c => { c with latencyMs := n }
  | .segmentSeconds => number .segmentSeconds 1 3600 fun n c => { c with segmentSeconds := n }
  | .reconnectDelayMs => number .reconnectDelayMs 0 60000 fun n c => { c with reconnectDelayMs := n }
  | .ingestStartupTimeoutMs =>
      number .ingestStartupTimeoutMs 1000 300000 fun n c => { c with ingestStartupTimeoutMs := n }
  | .channelStartDelayMs =>
      number .channelStartDelayMs 0 60000 fun n c => { c with channelStartDelayMs := n }
  | .liveListenHost => takes fun v c => { c with liveListenHost := v }
  | .rtspPort => number .rtspPort 0 65535 fun n c => { c with rtspPort := n }
  | .rtspsPort => number .rtspsPort 0 65535 fun n c => { c with rtspsPort := n }
  | .tlsCert => takes fun v c => { c with tlsCertFile := v }
  | .tlsKey => takes fun v c => { c with tlsKeyFile := v }
  | .liveClientQueueFrames =>
      size .liveClientQueueFrames fun n c => { c with liveClientQueueFrames := n }
  | .liveClientQueueBytes => size .liveClientQueueBytes fun n c => { c with liveClientQueueBytes := n }
  | .rtpMtu => size .rtpMtu fun n c => { c with rtpMtu := n }
  | .minFreeBytes => size .minFreeBytes fun n c => { c with minFreeBytes := n }
  | .requireStorageMount => .flag fun c => { c with requireStorageMount := true }
  | .logLevel => .value fun v c => (parseLogLevel v).map fun level => { c with logLevel := level }
  | .help => .help

end VmsOption

def vmsTable : Table Bytes VmsOption VmsArguments Bytes where
  name := VmsOption.ofText
  entry := VmsOption.effect
  missing := fun o => ascii "missing value for " ++ o.text
  unknown := fun arg => ascii "unknown option: " ++ arg

namespace VmsArguments

variable (c : VmsArguments)

def checkCamera : Except Bytes Unit :=
  if c.cameraHost.isEmpty then .error (ascii "--camera-host is required")
  else if c.cameraHost.any (· ∈ ascii "/@ \t\r\n") ∨ find (ascii "://") c.cameraHost ≠ none then
    .error (ascii "--camera-host must be a host without scheme, path, or userinfo")
  else if c.cameraUser.isEmpty then .error (ascii "--camera-user is required")
  else if c.cameraPasswordStdin ∧ !c.cameraPassword.isEmpty then
    .error (ascii "--camera-password and --camera-password-stdin are mutually exclusive")
  else .ok ()

-- stdin is the line that getline reads, if it can
def readPassword (stdin : Option Bytes) : Except Bytes VmsArguments :=
  if c.cameraPasswordStdin then
    match stdin with
    | none => .error (ascii "failed to read camera password from stdin")
    | some line =>
        .ok { c with cameraPassword := if line.getLast? = some 13 then line.dropLast else line }
  else .ok c

def settleMap : VmsArguments :=
  if c.channelMap.isEmpty then
    { c with channelMap :=
        if c.legacyMappingSet then toDecimal c.cameraChannel ++ ascii ":" ++ toDecimal c.channelId
        else ascii "0:1,1:2,2:3,3:4" }
  else c

def checkLive : Except Bytes Unit :=
  if c.rtspPort = 0 ∧ c.rtspsPort = 0 then
    .error (ascii "at least one of --rtsp-port or --rtsps-port must be enabled")
  else if 0 < c.rtspsPort ∧ (c.tlsCertFile.isEmpty ∨ c.tlsKeyFile.isEmpty) then
    .error (ascii "--rtsps-port requires --tls-cert and --tls-key")
  else if c.liveClientQueueFrames = 0 ∨ 10000 < c.liveClientQueueFrames then
    .error (ascii "--live-client-queue-frames out of range")
  else if c.liveClientQueueBytes = 0 ∨ c.rtpMtu < 256 ∨ 65535 < c.rtpMtu then
    .error (ascii "live queue byte limit or RTP MTU out of range")
  else .ok ()

def settleDb : VmsArguments :=
  if c.mediaDb.isEmpty then
    { c with mediaDb := pathJoin (pathJoin c.storageRoot (ascii "index")) (ascii "media.db") }
  else c

def check (stdin : Option Bytes) : Except Bytes VmsArguments := do
  c.checkCamera
  let c ← c.readPassword stdin
  if c.cameraPassword.isEmpty then
    .error (ascii "--camera-password or --camera-password-stdin is required")
  else if c.legacyMappingSet ∧ !c.channelMap.isEmpty then
    .error (ascii "--channel-map cannot be combined with --camera-channel or --channel-id")
  else do
    let c := c.settleMap
    c.checkLive
    return c.settleDb

end VmsArguments

def parseVmsArgs (args : List Bytes) (stdin : Option Bytes) : Except (Stop Bytes) VmsArguments :=
  match vmsTable.parse {} args with
  | .error stop => .error stop
  | .ok c => (c.check stdin).mapError .failed

end RpiVms

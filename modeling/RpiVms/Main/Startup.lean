import RpiVms.Client.Dialogue
import RpiVms.Live.Playback
import RpiVms.Main.Reading

namespace RpiVms

open Options Runs

def newRecordingIndex (busyTimeoutMs : Int) : Except Bytes Int :=
  if busyTimeoutMs < 0 then .error (ascii "SQLite busy timeout must not be negative") else .ok busyTimeoutMs

namespace VmsArguments

variable (c : VmsArguments)

def config : VmsConfig where
  storageRoot := c.storageRoot
  channelMap := c.channelMap
  codec := c.codec
  reconnectDelayMs := c.reconnectDelayMs
  channelStartDelayMs := c.channelStartDelayMs
  minFreeBytes := c.minFreeBytes
  requireStorageMount := c.requireStorageMount

def liveSettings (mappings : List ChannelMapping) : LiveSettings where
  channels := mappings.map fun m => ⟨m.channelId,c.codec⟩
  rtspPort := c.rtspPort
  rtspsPort := c.rtspsPort
  tlsCertFile := c.tlsCertFile
  tlsKeyFile := c.tlsKeyFile

def ingestSettings (config : ChannelIngestConfig) : IngestSettings where
  config := config
  startupTimeoutMs := c.ingestStartupTimeoutMs

def limited (live : LiveRtspServerConfig) : LiveRtspServerConfig :=
  { live with
    clientQueueFrames := c.liveClientQueueFrames
    clientQueueBytes := c.liveClientQueueBytes
    rtpMtu := c.rtpMtu }

end VmsArguments

inductive Launch where
  | exits (code : Nat)
  | runs (live : LiveRtspServerConfig) (manager : ChannelManager)

-- main from the parsed arguments to the loop that waits for a signal, with every constructor's check
def launch (c : VmsArguments) (view : RootView) (env : StartupEnv) : List Write × Launch :=
  let checked := c.config.storage.check view env.storage
  if checked.2.state ≠ .ready then (checked.1,.exits 2)
  else
    match newRecordingIndex c.dbBusyTimeoutMs with
    | .error _ => (checked.1,.exits 1)
    | .ok _ =>
        if env.indexOpens = false then (checked.1,.exits 1)
        else
          match parseChannelMap c.channelMap with
          | .error _ => (checked.1,.exits 1)
          | .ok mappings =>
              let prepared := prepareChannels c.config env mappings
              (checked.1 ++ prepared.1,
                match prepared.2 with
                | none => .exits 1
                | some configs =>
                    match newLiveServer (c.liveSettings mappings) with
                    | .error _ => .exits 1
                    | .ok live =>
                        if env.liveStarts then
                          match newChannelManager (configs.map c.ingestSettings) c.channelStartDelayMs with
                          | .error _ => .exits 1
                          | .ok manager => .runs (c.limited live) manager
                        else .exits 1)

structure VmsArguments.Accepted (c : VmsArguments) : Prop where
  host : c.cameraHost ≠ [] ∧ ∀ b ∈ c.cameraHost, b ∉ ascii "/@ \t\r\n"
  port : 1 ≤ c.cameraPort ∧ c.cameraPort ≤ 65535
  timeout : 0 < c.ingestStartupTimeoutMs
  delay : 0 ≤ c.channelStartDelayMs
  busy : 0 ≤ c.dbBusyTimeoutMs
  listens : ∀ mappings, (c.liveSettings mappings).Listens
  frames : c.liveClientQueueFrames ≠ 0
  bytes : c.liveClientQueueBytes ≠ 0
  mtu : 256 ≤ c.rtpMtu ∧ c.rtpMtu ≤ 65535

section

open VmsArguments

variable {c d e : VmsArguments} {args : List Bytes} {stdin : Option Bytes} {o : VmsOption} {g : Given}

theorem parseInt_range {name value : Bytes} {minValue maxValue n : Int}
    (h : parseInt name value minValue maxValue = .ok n) : minValue ≤ n ∧ n ≤ maxValue := by
  unfold parseInt at h
  split at h
  · cases h
  · split at h
    · cases h
    · split at h
      · cases h
      · cases h
        omega

theorem numberIn_range {minValue maxValue default : Int} (hd : minValue ≤ default ∧ default ≤ maxValue) :
    minValue ≤ o.numberIn g minValue maxValue default ∧ o.numberIn g minValue maxValue default ≤ maxValue := by
  unfold VmsOption.numberIn
  cases lastOf o g with
  | none => exact hd
  | some v =>
    cases hv : parseInt o.text v minValue maxValue with
    | error _ => simpa [hv,Except.toOption] using hd
    | ok n => simpa [hv,Except.toOption] using parseInt_range hv

theorem readPassword_keeps (h : c.readPassword stdin = .ok d) :
    ∃ password, d = { c with cameraPassword := password } := by
  unfold readPassword at h
  split at h
  · split at h
    · cases h
    · cases h
      exact ⟨_,rfl⟩
  · cases h
    exact ⟨_,rfl⟩

theorem settleDb_keeps (d : VmsArguments) : ∃ mediaDb, d.settleDb = { d with mediaDb := mediaDb } := by
  unfold settleDb
  split <;> exact ⟨_,rfl⟩

theorem check_ok (h : c.check stdin = .ok e) :
    c.checkCamera = .ok () ∧ e.checkLive = .ok () ∧ ∃ password mediaDb, e =
      { c with cameraPassword := password, channelMap := c.settleMap.channelMap, mediaDb := mediaDb } := by
  obtain ⟨_,hcamera,h⟩ := bind_ok h
  obtain ⟨d,hpassword,h⟩ := bind_ok h
  obtain ⟨password,rfl⟩ := readPassword_keeps hpassword
  split at h
  · cases h
  · split at h
    · cases h
    · obtain ⟨_,hlive,h⟩ := bind_ok h
      obtain ⟨mediaDb,hdb⟩ := settleDb_keeps { c with cameraPassword := password }.settleMap
      have hmap : { c with cameraPassword := password }.settleMap =
          { c with cameraPassword := password, channelMap := c.settleMap.channelMap } := by
        unfold settleMap
        split <;> rfl
      rw [hmap] at hlive hdb h
      obtain rfl := hdb.symm.trans (Except.ok.inj h)
      exact ⟨hcamera,hlive,password,mediaDb,rfl⟩

theorem checkLive_ok (h : c.checkLive = .ok ()) :
    (c.rtspPort ≠ 0 ∨ c.rtspsPort ≠ 0) ∧ (0 < c.rtspsPort → c.tlsCertFile ≠ [] ∧ c.tlsKeyFile ≠ []) ∧
      c.liveClientQueueFrames ≠ 0 ∧ c.liveClientQueueBytes ≠ 0 ∧ 256 ≤ c.rtpMtu ∧ c.rtpMtu ≤ 65535 := by
  unfold checkLive at h
  split at h
  · cases h
  · split at h
    · cases h
    · rename_i hports hfiles
      split at h
      · cases h
      · split at h
        · cases h
        · refine ⟨by omega,fun hp => ?_,by omega,by omega,by omega,by omega⟩
          simpa [hp] using hfiles

theorem checkCamera_ok (h : c.checkCamera = .ok ()) :
    c.cameraHost ≠ [] ∧ ∀ b ∈ c.cameraHost, b ∉ ascii "/@ \t\r\n" := by
  unfold checkCamera at h
  split at h
  · cases h
  · rename_i hne
    split at h
    · cases h
    · rename_i hplain
      exact ⟨by simpa using hne,by simpa using (not_or.mp hplain).1⟩

theorem parse_accepted (h : parseVmsArgs args stdin = .ok c) : c.Accepted := by
  obtain ⟨hcamera,hlive,password,mediaDb,rfl⟩ := check_ok (parse_check h)
  have hhost := checkCamera_ok hcamera
  obtain ⟨hports,hfiles,hframes,hbytes,hmtu⟩ := checkLive_ok hlive
  have hrtsp : 0 ≤ (reading (vmsTable.given args)).rtspPort := (numberIn_range (by decide)).1
  have hrtsps : 0 ≤ (reading (vmsTable.given args)).rtspsPort := (numberIn_range (by decide)).1
  have htimeout : 1000 ≤ (reading (vmsTable.given args)).ingestStartupTimeoutMs := (numberIn_range (by decide)).1
  exact
    { host := hhost
      port := numberIn_range (by decide)
      timeout := lt_of_lt_of_le (by decide) htimeout
      delay := (numberIn_range (by decide)).1
      busy := (numberIn_range (by decide)).1
      listens := fun mappings => ⟨by simp only [liveSettings] at hports ⊢; omega,hfiles⟩
      frames := hframes
      bytes := hbytes
      mtu := hmtu }

theorem settled_map (h : parseVmsArgs args stdin = .ok c)
    (hnone : VmsOption.channelMap.textIn (vmsTable.given args) [] = []) :
    ∃ mappings, parseChannelMap c.channelMap = .ok mappings := by
  obtain ⟨-,-,password,mediaDb,rfl⟩ := check_ok (parse_check h)
  have hmap : (reading (vmsTable.given args)).channelMap = [] := hnone
  have hcamera : 0 ≤ (reading (vmsTable.given args)).cameraChannel ∧
    (reading (vmsTable.given args)).cameraChannel ≤ 3 := numberIn_range (by decide)
  have hchannel : 1 ≤ (reading (vmsTable.given args)).channelId ∧
    (reading (vmsTable.given args)).channelId ≤ 4 := numberIn_range (by decide)
  simp only [settleMap,hmap,List.isEmpty_nil,if_true]
  split
  · generalize (reading (vmsTable.given args)).cameraChannel = m at hcamera
    generalize (reading (vmsTable.given args)).channelId = n at hchannel
    refine ⟨[⟨m,n⟩],?_⟩
    have hm : m = 0 ∨ m = 1 ∨ m = 2 ∨ m = 3 := by omega
    have hn : n = 1 ∨ n = 2 ∨ n = 3 ∨ n = 4 := by omega
    rcases hm with rfl | rfl | rfl | rfl <;> rcases hn with rfl | rfl | rfl | rfl <;> decide +kernel
  · exact ⟨[⟨0,1⟩,⟨1,2⟩,⟨2,3⟩,⟨3,4⟩],by decide +kernel⟩

theorem prepared_launch (ha : c.Accepted) {mappings : List ChannelMapping} {env : StartupEnv}
    {configs : List ChannelIngestConfig} (hparse : parseChannelMap c.channelMap = .ok mappings)
    (hprepared : (prepareChannels c.config env mappings).2 = some configs) :
    newChannelManager (configs.map c.ingestSettings) c.channelStartDelayMs = .ok (newManager configs) ∧
      ∃ live, newLiveServer (c.liveSettings mappings) = .ok live := by
  have hmap := parseChannelMap_ok hparse
  have hne := (parseChannelMap_iff.mp hparse).1.some_entry
  constructor
  · have hkept : (configs.map c.ingestSettings).map (·.config) = configs := by simp [Function.comp_def,ingestSettings]
    have hmappings : (configs.map c.ingestSettings).map (·.config.mapping) = mappings := by
      simpa [Function.comp_def,ingestSettings] using prepared_mappings hprepared
    refine (newChannelManager_iff hmap hne hmappings).mpr ⟨ha.delay,fun s hs => ?_,by rw [hkept]⟩
    obtain ⟨config,-,rfl⟩ := List.mem_map.mp hs
    exact ⟨by simp [ingestSettings],ha.timeout⟩
  · exact (newLiveServer_iff hmap hne (by simp [liveSettings])).mpr (ha.listens mappings)

theorem launch_refines (ha : c.Accepted) (view : RootView) (env : StartupEnv) :
    (launch c view env).1 = (startup c.config view env).1 ∧
      match (startup c.config view env).2 with
      | none => ∃ code, (launch c view env).2 = .exits code
      | some manager => ∃ live, (launch c view env).2 = .runs (c.limited live) manager := by
  have hbusy : newRecordingIndex c.dbBusyTimeoutMs = .ok c.dbBusyTimeoutMs := if_neg (by have := ha.busy; omega)
  unfold launch startup
  simp only [hbusy]
  by_cases hready : (c.config.storage.check view env.storage).2.state = .ready
  · cases hopens : env.indexOpens with
    | false => simp [hready]
    | true =>
      have hmap : c.config.channelMap = c.channelMap := rfl
      cases hparse : parseChannelMap c.channelMap with
      | error e => simp [hready,hmap,hparse]
      | ok mappings =>
        cases hprepared : (prepareChannels c.config env mappings).2 with
        | none => cases hstarts : env.liveStarts <;> simp [hready,hmap,hparse,hprepared]
        | some configs =>
          obtain ⟨hmanager,live,hlive⟩ := prepared_launch ha hparse hprepared
          cases hstarts : env.liveStarts with
          | false => simp [hready,hmap,hparse,hprepared,hlive]
          | true =>
            simp [hready,hmap,hparse,hprepared,hlive,hmanager]
  · simp [hready]

end

section

variable {config : LiveRtspServerConfig} {call : SendCall} {packets : List RtpPacket} {s t : Server}
  {a : ServerAction} {ev : List ServerEvent} {message : String}

theorem writePackets_caught (hp : ∀ p ∈ packets, p.bytes.length ≤ 65535) (channel : Int) (writeOk : Nat → Bool)
    (n : Nat) (media : RtpState) :
    (writePackets writeOk channel n packets media).outcome ≠ .threw message := by
  induction packets generalizing n media with
  | nil => simp [writePackets]
  | cons packet rest ih =>
    obtain ⟨wire,hwire,-⟩ := interleaved_frame channel (hp packet (by simp))
    simp only [writePackets,hwire]
    split
    · exact ih (fun p hm => hp p (by simp [hm])) _ _
    · simp

theorem sendReport_caught (timestamp : UInt32) (rtp : List Bytes) (media : RtpState) :
    (sendReport call timestamp packets rtp media).outcome ≠ .threw message := by
  obtain ⟨wire,hwire,-⟩ := interleaved_frame call.rtcpChannel (packet_fits (.report media timestamp call.wall))
  unfold sendReport
  split
  · simp only [hwire]
    split <;> simp
  · simp

theorem sendFrame_caught {mtu : Nat} (hm : 256 ≤ mtu ∧ mtu ≤ 65535) (media : RtpState) :
    (sendFrame mtu media call).outcome ≠ .threw message := by
  unfold sendFrame
  split
  · simp
  · simp only
    split
    · rename_i he
      rw [packetizeAccessUnit,if_neg (by omega)] at he
      cases he
    · rename_i packets sequence hpackets
      have hfits : ∀ p ∈ packets, p.bytes.length ≤ 65535 := fun p hp => (packetize_size hpackets p hp).trans hm.2
      unfold sendPackets
      simp only
      split
      · exact sendReport_caught _ _ _
      · exact writePackets_caught hfits _ _ _ _

theorem sends_caught (hm : 256 ≤ config.rtpMtu ∧ config.rtpMtu ≤ 65535) (hs : s.step config a = some (ev,t))
    {d : Nat} {f : LiveFrame} {r : SendResult} (he : .session d (.sent f r) ∈ ev) : r.outcome ≠ .threw message := by
  obtain ⟨action,rfl⟩ := session_event (step_move hs) he
  obtain ⟨x,-,-,hx,-,-⟩ := session_sessions hs
  obtain ⟨events,y,hstep,rfl,-,-⟩ := stepSession_own hs hx
  obtain ⟨e,he,heq⟩ := List.mem_map.mp he
  cases heq
  cases session_sends hstep with
  | nothing hunsent => exact absurd he (hunsent f r)
  | frame g writeOk now wall hp hb =>
    simp only [sendStep,hb,Bool.false_eq_true,if_false,List.mem_singleton,SessionEvent.sent.injEq] at he
    rw [he.2]
    exact sendFrame_caught hm _

theorem run_caught (hm : 256 ≤ config.rtpMtu ∧ config.rtpMtu ≤ 65535) (actions : List ServerAction) (d : Nat)
    (f : LiveFrame) (r : SendResult) (he : .session d (.sent f r) ∈ (serverRun config actions).1) :
    r.outcome ≠ .threw message := by
  refine @run_keeps _ _ _ (Server.step config)
    (fun h _ => ∀ d f r, .session d (.sent f r) ∈ h → r.outcome ≠ .threw message)
    (fun h s a ev t hi hs d f r he => ?_) ([],{}) actions (by simp) d f r he
  rcases List.mem_append.mp he with he | he
  · exact hi d f r he
  · exact sends_caught hm hs he

end

theorem accepted_arguments_launch (args : List Bytes) (stdin : Option Bytes) (c : VmsArguments)
    (h : parseVmsArgs args stdin = .ok c) (view : RootView) (env : StartupEnv) :
    (launch c view env).1 = (startup c.config view env).1 ∧
    (∀ manager, (startup c.config view env).2 = some manager ↔
      ∃ live, (launch c view env).2 = .runs live manager) ∧
    (VmsOption.channelMap.textIn (vmsTable.given args) [] = [] →
      ∃ mappings, parseChannelMap c.channelMap = .ok mappings) ∧
    ∀ live manager, (launch c view env).2 = .runs live manager →
      (∀ (s : Server) sequence ssrc origin, s.accept live sequence ssrc origin ≠ none) ∧
      ∀ actions d f r message, .session d (.sent f r) ∈ (serverRun live actions).1 → r.outcome ≠ .threw message := by
  have ha := parse_accepted h
  obtain ⟨hwrites,hlaunch⟩ := launch_refines ha view env
  refine ⟨hwrites,fun manager => ?_,settled_map h,fun live manager hruns => ?_⟩
  · cases hstart : (startup c.config view env).2 with
    | none =>
      rw [hstart] at hlaunch
      obtain ⟨code,hcode⟩ := hlaunch
      simp [hcode]
    | some started =>
      rw [hstart] at hlaunch
      obtain ⟨live,hlive⟩ := hlaunch
      simp [hlive]
  · obtain ⟨config,rfl⟩ : ∃ config, live = c.limited config := by
      cases hstart : (startup c.config view env).2 with
      | none =>
        rw [hstart] at hlaunch
        obtain ⟨code,hcode⟩ := hlaunch
        rw [hruns] at hcode
        cases hcode
      | some started =>
        rw [hstart] at hlaunch
        obtain ⟨config,hconfig⟩ := hlaunch
        rw [hruns] at hconfig
        cases hconfig
        exact ⟨config,rfl⟩
    refine ⟨fun s sequence ssrc origin => ?_,fun actions d f r message => run_caught ha.mtu actions d f r⟩
    simp [Server.accept,VmsArguments.limited,ha.frames,ha.bytes]

def smallPackets : List Bytes :=
  [ascii "--camera-host",ascii "cam",ascii "--camera-password",ascii "pw",ascii "--rtp-mtu",ascii "256",
    ascii "--min-free-bytes",ascii "1"]

def smallPacketsRead : VmsArguments :=
  { cameraHost := ascii "cam"
    cameraPassword := ascii "pw"
    channelMap := ascii "0:1,1:2,2:3,3:4"
    mediaDb := ascii "/mnt/vms-storage/index/media.db"
    rtpMtu := 256
    minFreeBytes := 1 }

theorem smallPackets_launch :
    (∃ live manager, (launch smallPacketsRead diskMounted smoothStart).2 = .runs live manager) ∧
    ∀ live manager, (launch smallPacketsRead diskMounted smoothStart).2 = .runs live manager →
      ∀ actions d f r message, .session d (.sent f r) ∈ (serverRun live actions).1 → r.outcome ≠ .threw message := by
  have hparse : parseVmsArgs smallPackets none = .ok smallPacketsRead := by decide +kernel
  obtain ⟨-,hruns,-,hcaught⟩ := accepted_arguments_launch smallPackets none smallPacketsRead hparse diskMounted smoothStart
  refine ⟨?_,fun live manager hl => (hcaught live manager hl).2⟩
  obtain ⟨manager,hm⟩ := Option.isSome_iff_exists.mp
    (show (startup smallPacketsRead.config diskMounted smoothStart).2.isSome = true by decide +kernel)
  obtain ⟨live,hlive⟩ := (hruns manager).mp hm
  exact ⟨live,manager,hlive⟩

end RpiVms

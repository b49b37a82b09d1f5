import Mathlib.Data.List.Perm.Subperm
import RpiVms.Index.MapText
import RpiVms.Live.Server
import RpiVms.Media.SegmentNames
import RpiVms.Storage.Program

namespace RpiVms

-- with the fields of ChannelIngestConfig that nothing but the constructor checks
structure IngestSettings where
  config : ChannelIngestConfig
  liveQueueMaxBuffers : Nat := 1
  startupTimeoutMs : Int := 5000
  deriving DecidableEq, Repr

def newChannelIngest (s : IngestSettings) : Except Bytes ChannelIngestConfig :=
  if s.config.cameraChannel < 0 ∨ s.config.cameraChannel > 3 then .error (ascii "camera_channel out of range (0-3)")
  else if s.config.channelId < 1 ∨ s.config.channelId > 4 then .error (ascii "channel_id out of range (1-4)")
  else if s.liveQueueMaxBuffers = 0 then .error (ascii "live_queue_max_buffers must be at least 1")
  else if s.startupTimeoutMs ≤ 0 then .error (ascii "startup_timeout_ms must be positive")
  else .ok s.config

-- the loop of ChannelManager's constructor, with the workers it has made
def addWorkers (workers : List ChannelIngestConfig) :
    List IngestSettings → Except Bytes (List ChannelIngestConfig)
  | [] => .ok workers
  | s :: rest =>
      if s.config.cameraChannel < 0 ∨ s.config.cameraChannel > 3 ∨ s.config.channelId < 1 ∨ s.config.channelId > 4 then
        .error (ascii "ChannelManager mapping out of range")
      else if s.config.cameraChannel ∈ workers.map (·.cameraChannel) ∨
          s.config.channelId ∈ workers.map (·.channelId) then
        .error (ascii "ChannelManager channel mappings must be unique")
      else do
        let config ← newChannelIngest s
        addWorkers (workers ++ [config]) rest

def newChannelManager (settings : List IngestSettings) (channelStartDelayMs : Int) : Except Bytes ChannelManager :=
  if settings.isEmpty || 4 < settings.length then .error (ascii "ChannelManager requires 1 to 4 channels")
  else if channelStartDelayMs < 0 then .error (ascii "channel_start_delay_ms must not be negative")
  else do
    let configs ← addWorkers [] settings
    return newManager configs

-- what the constructor of LiveRtspServer::Impl reads
structure LiveSettings where
  channels : List LiveChannel := []
  channelId : Int := 1
  codec : VideoCodec := .h264
  rtspPort : Int := 8554
  rtspsPort : Int := 0
  tlsCertFile : Bytes := []
  tlsKeyFile : Bytes := []
  deriving DecidableEq, Repr

def LiveSettings.registered (s : LiveSettings) : List LiveChannel :=
  if s.channels.isEmpty then [⟨s.channelId,s.codec⟩] else s.channels

def checkLiveChannels (seen : List Int) : List LiveChannel → Except Bytes Unit
  | [] => .ok ()
  | channel :: rest =>
      if channel.channelId < 1 ∨ channel.channelId > 4 then .error (ascii "live channel_id out of range")
      else if channel.channelId ∈ seen then .error (ascii "duplicate live channel registration")
      else checkLiveChannels (seen ++ [channel.channelId]) rest

theorem checkLiveChannels_iff (seen : List Int) (channels : List LiveChannel) (h : seen.Nodup) :
    checkLiveChannels seen channels = .ok () ↔
      (∀ channel ∈ channels, PublicChannel channel.channelId) ∧ (seen ++ channels.map (·.channelId)).Nodup := by
  induction channels generalizing seen with
  | nil => simp [checkLiveChannels,h]
  | cons channel rest ih =>
    rw [checkLiveChannels]
    split
    · rename_i hout
      refine iff_of_false (by simp) fun hall => ?_
      have := hall.1 channel (by simp)
      unfold PublicChannel at this
      omega
    · rename_i hin
      have hpublic : PublicChannel channel.channelId := by
        unfold PublicChannel
        omega
      have hshift : seen ++ (channel :: rest).map (·.channelId) =
          seen ++ [channel.channelId] ++ rest.map (·.channelId) := by simp
      split
      · rename_i hseen
        refine iff_of_false (by simp) fun hall => ?_
        rw [hshift,List.append_assoc,List.nodup_append] at hall
        exact hall.2.2.2 _ hseen _ (by simp) rfl
      · rename_i hseen
        rw [ih _ ((List.concat_eq_append ▸ h.concat hseen)),List.forall_mem_cons,hshift,and_iff_right hpublic]

def newLiveServer (s : LiveSettings) : Except Bytes LiveRtspServerConfig :=
  match h : checkLiveChannels [] s.registered with
  | .error e => .error e
  | .ok () =>
      if s.rtspPort ≤ 0 ∧ s.rtspsPort ≤ 0 then .error (ascii "at least one live RTSP listener must be enabled")
      else if 0 < s.rtspsPort ∧ (s.tlsCertFile = [] ∨ s.tlsKeyFile = []) then
        .error (ascii "RTSPS requires --tls-cert and --tls-key")
      else
        .ok
          { channels := s.registered
            inRange := ((checkLiveChannels_iff [] _ .nil).mp h).1
            distinct := ((checkLiveChannels_iff [] _ .nil).mp h).2 }

def ChannelIngestConfig.mapping (config : ChannelIngestConfig) : ChannelMapping := ⟨config.cameraChannel,config.channelId⟩

def IngestSettings.Sound (s : IngestSettings) : Prop := s.liveQueueMaxBuffers ≠ 0 ∧ 0 < s.startupTimeoutMs

def LiveSettings.Listens (s : LiveSettings) : Prop :=
  (0 < s.rtspPort ∨ 0 < s.rtspsPort) ∧ (0 < s.rtspsPort → s.tlsCertFile ≠ [] ∧ s.tlsKeyFile ≠ [])

section

variable {s : IngestSettings} {settings : List IngestSettings} {workers : List ChannelIngestConfig}
  {mappings : List ChannelMapping}

theorem newChannelIngest_iff {config : ChannelIngestConfig}
    (h : 0 ≤ s.config.cameraChannel ∧ s.config.cameraChannel ≤ 3 ∧ 1 ≤ s.config.channelId ∧ s.config.channelId ≤ 4) :
    newChannelIngest s = .ok config ↔ s.Sound ∧ s.config = config := by
  unfold newChannelIngest IngestSettings.Sound
  rw [if_neg (by omega),if_neg (by omega)]
  split
  · rename_i hq
    exact iff_of_false (by simp) fun hs => hs.1.1 hq
  · split
    · rename_i ht
      exact iff_of_false (by simp) fun hs => absurd hs.1.2 (by omega)
    · rename_i hq ht
      rw [Except.ok.injEq]
      exact ⟨fun he => ⟨⟨hq,by omega⟩,he⟩,And.right⟩

theorem addWorkers_iff {configs : List ChannelIngestConfig}
    (h : IsChannelMap (workers.map (·.mapping) ++ settings.map (·.config.mapping))) :
    addWorkers workers settings = .ok configs ↔
      (∀ s ∈ settings, s.Sound) ∧ workers ++ settings.map (·.config) = configs := by
  induction settings generalizing workers with
  | nil => simp [addWorkers]
  | cons s rest ih =>
    have hr := h.ranges s.config.mapping (by simp)
    have hcameras := h.cameras
    have hchannels := h.channels
    simp only [List.map_append,List.map_map,List.map_cons,List.nodup_append] at hcameras hchannels
    have hfree : ¬ (s.config.cameraChannel ∈ workers.map (·.cameraChannel) ∨
        s.config.channelId ∈ workers.map (·.channelId)) := by
      rintro (hin | hin)
      · exact hcameras.2.2 _ hin _ List.mem_cons_self rfl
      · exact hchannels.2.2 _ hin _ List.mem_cons_self rfl
    have hnext : IsChannelMap ((workers ++ [s.config]).map (·.mapping) ++ rest.map (·.config.mapping)) := by
      simpa using h
    have hrange : ¬ (s.config.cameraChannel < 0 ∨ s.config.cameraChannel > 3 ∨ s.config.channelId < 1 ∨
        s.config.channelId > 4) := by
      simp only [ChannelIngestConfig.mapping] at hr
      omega
    rw [addWorkers,if_neg hrange,if_neg hfree,bind_ok_iff]
    simp only [newChannelIngest_iff hr,List.forall_mem_cons,List.map_cons]
    constructor
    · rintro ⟨config,⟨hs,rfl⟩,hrest⟩
      obtain ⟨hall,he⟩ := (ih hnext).mp hrest
      exact ⟨⟨hs,hall⟩,by simpa using he⟩
    · rintro ⟨⟨hs,hall⟩,he⟩
      exact ⟨s.config,⟨hs,rfl⟩,(ih hnext).mpr ⟨hall,by simpa using he⟩⟩

theorem length_le_four (h : IsChannelMap mappings) : mappings.length ≤ 4 := by
  have hsub : mappings.map (·.channelId) ⊆ [1,2,3,4] := by
    intro c hc
    obtain ⟨m,hm,rfl⟩ := List.mem_map.mp hc
    have hr := h.ranges m hm
    simp only [List.mem_cons,List.not_mem_nil,or_false]
    omega
  simpa using (h.channels.subperm hsub).length_le

theorem newChannelManager_iff {channelStartDelayMs : Int} {manager : ChannelManager} (h : IsChannelMap mappings)
    (hne : mappings ≠ []) (hs : settings.map (·.config.mapping) = mappings) :
    newChannelManager settings channelStartDelayMs = .ok manager ↔
      0 ≤ channelStartDelayMs ∧ (∀ s ∈ settings, s.Sound) ∧ newManager (settings.map (·.config)) = manager := by
  have hlen : settings.length ≤ 4 := by
    have := length_le_four h
    rwa [← hs,List.length_map] at this
  have hcount : (settings.isEmpty || decide (4 < settings.length)) = false := by
    have hsettings : settings ≠ [] := by
      rintro rfl
      exact hne hs.symm
    simp [hsettings,hlen]
  have hmap : IsChannelMap (([] : List ChannelIngestConfig).map (·.mapping) ++ settings.map (·.config.mapping)) := by
    rwa [hs]
  unfold newChannelManager
  rw [hcount]
  simp only [Bool.false_eq_true,if_false]
  split
  · rename_i hneg
    exact iff_of_false (by simp) fun hall => absurd hall.1 (by omega)
  · rename_i hpos
    rw [bind_ok_iff]
    simp only [addWorkers_iff hmap,List.nil_append]
    constructor
    · rintro ⟨configs,⟨hall,rfl⟩,he⟩
      exact ⟨by omega,hall,Except.ok.inj he⟩
    · rintro ⟨-,hall,rfl⟩
      exact ⟨_,⟨hall,rfl⟩,rfl⟩

theorem newLiveServer_iff {live : LiveSettings} (h : IsChannelMap mappings) (hne : mappings ≠ [])
    (hs : live.channels.map (·.channelId) = mappings.map (·.channelId)) :
    (∃ config, newLiveServer live = .ok config) ↔ live.Listens := by
  have hregistered : live.registered = live.channels := by
    refine if_neg ?_
    rw [List.isEmpty_iff]
    intro he
    rw [he] at hs
    exact hne (List.map_eq_nil_iff.mp hs.symm)
  have hok : checkLiveChannels [] live.registered = .ok () := by
    rw [checkLiveChannels_iff [] _ .nil,hregistered,List.nil_append,hs]
    refine ⟨fun channel hc => ?_,h.channels⟩
    have hin : channel.channelId ∈ mappings.map (·.channelId) := hs ▸ List.mem_map.mpr ⟨channel,hc,rfl⟩
    obtain ⟨m,hm,he⟩ := List.mem_map.mp hin
    have hr := h.ranges m hm
    rw [he] at hr
    exact hr.2.2
  unfold newLiveServer LiveSettings.Listens
  split
  · rename_i e he
    rw [hok] at he
    cases he
  · split
    · exact iff_of_false (by simp) fun hl => by omega
    · split
      · rename_i hp ht
        refine iff_of_false (by simp) fun hl => ?_
        have hfiles := hl.2 ht.1
        exact ht.2.elim hfiles.1 hfiles.2
      · rename_i hp ht
        refine iff_of_true ⟨_,rfl⟩ ⟨by omega,fun hport => ?_⟩
        exact not_or.mp fun hmissing => ht ⟨hport,hmissing⟩

def channelDir (storageRoot : Bytes) (channelId : Int) : Bytes :=
  pathJoin (pathJoin storageRoot (ascii "recordings")) (ascii "ch" ++ toDecimal channelId)

theorem channelOutputDir_eq {storageRoot : Bytes} {channelId : Int} (h : 1 ≤ channelId ∧ channelId ≤ 4) :
    channelOutputDir storageRoot channelId = .ok (channelDir storageRoot channelId) := by
  rw [channelOutputDir,if_neg (by omega)]
  rfl

theorem channelDir_inj {storageRoot : Bytes} {c d : Int} (h : channelDir storageRoot c = channelDir storageRoot d) :
    c = d :=
  toDecimal_inj (List.append_cancel_left (pathJoin_inj h))

theorem output_dirs_distinct (h : IsChannelMap mappings) (storageRoot : Bytes) :
    ∃ dirs : List Bytes, mappings.map (fun m => channelOutputDir storageRoot m.channelId) = dirs.map .ok ∧
      dirs.Nodup := by
  refine ⟨mappings.map fun m => channelDir storageRoot m.channelId,?_,?_⟩
  · rw [List.map_map]
    exact List.map_congr_left fun m hm => channelOutputDir_eq (h.ranges m hm).2.2
  · refine List.Nodup.map_on (fun m hm m' hm' he => ?_) h.channels.of_map
    exact List.inj_on_of_nodup_map h.channels hm hm' (channelDir_inj he)

end

theorem channel_map_accepted (value : Bytes) :
    (∀ mappings, parseChannelMap value = .ok mappings ↔
      EntriesText value mappings ∧ UniqueChannels mappings) ∧
    ∀ mappings, parseChannelMap value = .ok mappings →
      mappings.length ≤ 4 ∧
      (∀ settings channelStartDelayMs, settings.map (fun s : IngestSettings => s.config.mapping) = mappings →
        ((∃ manager, newChannelManager settings channelStartDelayMs = .ok manager) ↔
          0 ≤ channelStartDelayMs ∧ ∀ s ∈ settings, s.Sound)) ∧
      (∀ live : LiveSettings, live.channels.map (·.channelId) = mappings.map (·.channelId) →
        ((∃ config, newLiveServer live = .ok config) ↔ live.Listens)) ∧
      ∀ storageRoot, ∃ dirs : List Bytes,
        mappings.map (fun m => channelOutputDir storageRoot m.channelId) = dirs.map .ok ∧ dirs.Nodup := by
  refine ⟨fun mappings => parseChannelMap_iff,fun mappings h => ?_⟩
  have hmap := parseChannelMap_ok h
  have hne := (parseChannelMap_iff.mp h).1.some_entry
  refine ⟨length_le_four hmap,fun settings delay hs => ?_,fun live hs => newLiveServer_iff hmap hne hs,
    output_dirs_distinct hmap⟩
  simp only [newChannelManager_iff hmap hne hs]
  constructor
  · rintro ⟨manager,hdelay,hall,-⟩
    exact ⟨hdelay,hall⟩
  · rintro ⟨hdelay,hall⟩
    exact ⟨_,hdelay,hall,rfl⟩

theorem prepared_mappings {config : VmsConfig} {env : StartupEnv} {mappings : List ChannelMapping}
    {configs : List ChannelIngestConfig} (h : (prepareChannels config env mappings).2 = some configs) :
    configs.map (·.mapping) = mappings := by
  induction mappings generalizing configs with
  | nil =>
    cases h
    rfl
  | cons m rest ih =>
    rw [prepareChannels] at h
    split at h
    · cases h
    · split at h
      · cases h
      · split at h
        · cases h
        · obtain ⟨others,hrest,rfl⟩ := Option.map_eq_some_iff.mp h
          rw [List.map_cons,ih hrest]
          rfl

end RpiVms

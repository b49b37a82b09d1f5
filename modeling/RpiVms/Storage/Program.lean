import RpiVms.Index.ChannelMap
import RpiVms.Media.Moves
import RpiVms.Storage.Check

namespace RpiVms

open Runs

structure VmsConfig where
  storageRoot : Bytes := ascii "/mnt/vms-storage"
  channelMap : Bytes := ascii "0:1,1:2,2:3,3:4"
  codec : VideoCodec := .h264
  reconnectDelayMs : Int := 2000
  channelStartDelayMs : Int := 0
  minFreeBytes : Nat := 1073741824
  requireStorageMount : Bool := false
  deriving DecidableEq, Repr

def channelOutputDir (storageRoot : Bytes) (channelId : Int) : Except Bytes Bytes :=
  if channelId < 1 ∨ 4 < channelId then .error (ascii "channel_id out of range (1-4)")
  else
    .ok (pathJoin (pathJoin storageRoot (ascii "recordings")) (ascii "ch" ++ toDecimal channelId))

-- what the calls of main before the first worker do
structure StartupEnv where
  storage : StorageEnv
  indexOpens : Bool
  registers : Int → Bool
  createsOutputDir : Int → Bool
  liveStarts : Bool

def prepareChannels (config : VmsConfig) (env : StartupEnv) :
    List ChannelMapping → List Write × Option (List ChannelIngestConfig)
  | [] => ([],some [])
  | mapping :: rest =>
      if !env.registers mapping.channelId then ([],none)
      else
        match channelOutputDir config.storageRoot mapping.channelId with
        | .error _ => ([],none)
        | .ok outputDir =>
            if !env.createsOutputDir mapping.channelId then ([.creates outputDir],none)
            else
              let ingest : ChannelIngestConfig :=
                { outputDir := outputDir
                  cameraChannel := mapping.cameraChannel
                  channelId := mapping.channelId
                  codec := config.codec
                  reconnectDelayMs := config.reconnectDelayMs }
              let prepared := prepareChannels config env rest
              (.creates outputDir :: prepared.1,prepared.2.map (ingest :: ·))

def VmsConfig.storage (config : VmsConfig) : StorageManager :=
  ⟨config.storageRoot,config.minFreeBytes,config.requireStorageMount⟩

def startup (config : VmsConfig) (view : RootView) (env : StartupEnv) :
    List Write × Option ChannelManager :=
  let checked := config.storage.check view env.storage
  if checked.2.state ≠ .ready ∨ env.indexOpens = false then (checked.1,none)
  else
    match parseChannelMap config.channelMap with
    | .error _ => (checked.1,none)
    | .ok mappings =>
        let prepared := prepareChannels config env mappings
        (checked.1 ++ prepared.1,
          if env.liveStarts then prepared.2.map newManager else none)

-- onMount: the storage root is a mount point at that moment
structure WriteEvent where
  onMount : Bool
  write : Write
  deriving DecidableEq, Repr

structure Program where
  view : RootView
  started : Bool := false
  manager : Option ChannelManager := none

inductive ProgramAction where
  | startup (env : StartupEnv)
  | mount (view : RootView)
  | manager (action : ManagerAction)

def IngestEvent.write? : IngestEvent → Option Write
  | .createsDirectory path => some (.creates path)
  | .handsOut path => some (.handsOut path)
  | _ => none

namespace Program

variable (gmtime : Int → CivilTime) (config : VmsConfig) (s : Program)

def inAttempt : Bool :=
  s.manager.any fun m => m.workers.any fun w => w.ingest.point.inAttempt

def recorded (writes : List Write) : List WriteEvent := writes.map (⟨isMountPoint s.view,·⟩)

def step : ProgramAction → Option (List WriteEvent × Program)
  | .startup env =>
      if s.started then none
      else
        let r := RpiVms.startup config s.view env
        some (s.recorded r.1,{ s with started := true, manager := r.2 })
  -- no mount changes in the middle of an attempt; the startup is one step
  | .mount view => if s.inAttempt then none else some ([],{ s with view := view })
  | .manager action =>
      match s.manager with
      | none => none
      | some m =>
          (m.step gmtime config.channelStartDelayMs action).map fun (events,m') =>
            (s.recorded (events.filterMap (·.event.write?)),{ s with manager := some m' })

end Program

def programRun (gmtime : Int → CivilTime) (config : VmsConfig) (view : RootView)
    (actions : List ProgramAction) : List WriteEvent × Program :=
  run (Program.step gmtime config) ([],{ view := view }) actions

def attemptBeginsMounted (s : Program) : ProgramAction → Bool
  | .manager (.worker i .advance) =>
      s.manager.all fun m => m.workers[i]?.all fun w =>
        w.ingest.point != .looping || m.started ≤ i || !m.running || isMountPoint s.view
  | _ => true

section

variable {gmtime : Int → CivilTime} {config : VmsConfig} {s t : Program} {h ev : List WriteEvent}
  {a : ProgramAction} {m m' : ChannelManager} {i : Nat}

theorem startup_manager {env : StartupEnv} {view : RootView} (h : (startup config view env).2 = some m) :
    ∃ configs, m = newManager configs := by
  unfold startup at h
  simp only at h
  split at h
  · cases h
  · split at h
    · cases h
    · simp only at h
      split at h
      · obtain ⟨configs,-,rfl⟩ := Option.map_eq_some_iff.mp h
        exact ⟨configs,rfl⟩
      · cases h

theorem startup_writes (hr : config.requireStorageMount = true) (env : StartupEnv) (view : RootView)
    (hw : (startup config view env).1 ≠ []) : isMountPoint view = true := by
  have hm := config.storage.check_on_mount hr view env.storage
  unfold startup at hw
  simp only at hw
  split at hw
  · exact hm (.inl hw)
  · rename_i hready
    rw [not_or,not_not] at hready
    exact hm (.inr hready.1)

theorem inAttempt_iff (hm : s.manager = some m) :
    s.inAttempt = true ↔ ∃ (i : Nat) (w : ChannelWorker), m.workers[i]? = some w ∧ w.ingest.point.inAttempt = true := by
  simp only [Program.inAttempt,hm,Option.any_some,List.any_eq_true]
  constructor
  · rintro ⟨w,hw,ha⟩
    obtain ⟨i,hi⟩ := List.mem_iff_getElem?.mp hw
    exact ⟨i,w,hi,ha⟩
  · rintro ⟨i,w,hi,ha⟩
    exact ⟨w,List.mem_of_getElem? hi,ha⟩

theorem newManager_idle {configs : List ChannelIngestConfig} {w : ChannelWorker}
    (hw : (newManager configs).workers[i]? = some w) : w.ingest.point.inAttempt = false := by
  simp only [newManager,List.getElem?_map,Option.map_eq_some_iff] at hw
  obtain ⟨config,-,rfl⟩ := hw
  rfl

theorem manager_writes {delay : Int} {action : ManagerAction} {events : List WorkerEvent}
    (hs : m.step gmtime delay action = some (events,m')) {e : WorkerEvent} (he : e ∈ events)
    (hw : e.event.writes = true) :
    ∃ (i : Nat) (w : ChannelWorker), m.workers[i]? = some w ∧ w.ingest.point.inAttempt = true := by
  cases action with
  | start =>
    obtain ⟨n,-,heq⟩ := Option.map_eq_some_iff.mp hs
    cases heq
    cases he
  | stop =>
    cases hs
    cases he
  | worker j action =>
    simp only [ChannelManager.step,ChannelManager.stepWorker] at hs
    split at hs
    · cases hs
    · rename_i w hv
      split at hs
      · obtain ⟨⟨ev,w'⟩,hstep,heq⟩ := Option.map_eq_some_iff.mp hs
        cases heq
        obtain ⟨e',he',rfl⟩ := List.mem_map.mp he
        cases worker_move hstep with
        | fails => cases he'
        | ingests stands move writes => exact ⟨j,w,hv,writes e' he' hw⟩
      · cases hs

structure MountInv (h : List WriteEvent) (s : Program) : Prop where
  writes : ∀ e ∈ h, e.onMount = true
  attempts : s.inAttempt = true → isMountPoint s.view = true

theorem writes_recorded (hi : ∀ e ∈ h, e.onMount = true) {writes : List Write}
    (hm : writes ≠ [] → isMountPoint s.view = true) : ∀ e ∈ h ++ s.recorded writes, e.onMount = true := by
  intro e he
  rcases List.mem_append.mp he with he | he
  · exact hi e he
  · obtain ⟨x,hx,rfl⟩ := List.mem_map.mp he
    exact hm (List.ne_nil_of_mem hx)

theorem mounted_in_attempt {action : ManagerAction} {events : List WorkerEvent}
    (hi : MountInv h s) (hm : s.manager = some m) (hc : attemptBeginsMounted s (.manager action) = true)
    (hs : m.step gmtime config.channelStartDelayMs action = some (events,m')) {w' : ChannelWorker}
    (hw' : m'.workers[i]? = some w') (ha : w'.ingest.point.inAttempt = true) :
    isMountPoint s.view = true := by
  have hlt : i < m.workers.length := workers_length hs ▸ (List.getElem?_eq_some_iff.mp hw').1
  have hw : m.workers[i]? = some m.workers[i] := List.getElem?_eq_getElem hlt
  have hold (hin : m.workers[i].ingest.point.inAttempt = true) : isMountPoint s.view = true :=
    hi.attempts ((inAttempt_iff hm).mpr ⟨i,_,hw,hin⟩)
  cases manager_move hw hs with
  | others stands =>
    obtain rfl := Option.some.inj (stands.symm.trans hw')
    exact hold ha
  | own move stands runs =>
    obtain rfl := Option.some.inj (stands.symm.trans hw')
    cases move with
    | fails he =>
      rw [he] at ha
      cases ha
    | ingests hne move writes =>
      rcases attempt_step move ha with hin | ⟨hloop,rfl,hrun⟩
      · exact hold hin
      · have hstarted : i < m.started := by
          by_contra hn
          simp [ChannelManager.step,ChannelManager.stepWorker,hw,hn] at hs
        simpa [attemptBeginsMounted,hm,hw,hloop,hrun,Nat.not_le.mpr hstarted] using hc

theorem mountInv_step (hr : config.requireStorageMount = true) (hi : MountInv h s)
    (hc : attemptBeginsMounted s a = true) (hs : s.step gmtime config a = some (ev,t)) :
    MountInv (h ++ ev) t := by
  cases a with
  | startup env =>
    simp only [Program.step] at hs
    split at hs
    · cases hs
    · cases hs
      refine ⟨writes_recorded hi.writes (startup_writes hr env s.view),fun ha => ?_⟩
      cases hm : (startup config s.view env).2 with
      | none => simp [Program.inAttempt,hm] at ha
      | some m =>
        obtain ⟨configs,rfl⟩ := startup_manager hm
        obtain ⟨i,w,hw,hin⟩ := (inAttempt_iff hm).mp ha
        rw [newManager_idle hw] at hin
        cases hin
  | mount view =>
    simp only [Program.step] at hs
    split at hs
    · cases hs
    · rename_i hn
      cases hs
      exact ⟨by simpa using hi.writes,fun ha => absurd ha hn⟩
  | manager action =>
    simp only [Program.step] at hs
    split at hs
    · cases hs
    · rename_i m hm
      obtain ⟨⟨events,m'⟩,hstep,heq⟩ := Option.map_eq_some_iff.mp hs
      cases heq
      refine ⟨writes_recorded hi.writes fun hne => ?_,fun ha => ?_⟩
      · obtain ⟨x,hx⟩ := List.exists_mem_of_ne_nil _ hne
        obtain ⟨e,he,hwrite⟩ := List.mem_filterMap.mp hx
        have hw : e.event.writes = true := by
          cases hev : e.event <;> simp_all [IngestEvent.write?,IngestEvent.writes]
        exact hi.attempts ((inAttempt_iff hm).mpr (manager_writes hstep he hw))
      · obtain ⟨i,w',hw',hin⟩ := (inAttempt_iff rfl).mp ha
        show isMountPoint s.view = true
        exact mounted_in_attempt hi hm hc hstep hw' hin

end

theorem recordings_stay_on_mount (gmtime : Int → CivilTime) (config : VmsConfig)
    (hr : config.requireStorageMount = true) (view : RootView) (actions : List ProgramAction)
    (hc : Along (Program.step gmtime config) (fun _ s a => attemptBeginsMounted s a = true)
      ([],{ view := view }) actions) :
    ∀ e ∈ (programRun gmtime config view actions).1, e.onMount = true := by
  have hstart : MountInv [] { view := view } := ⟨by simp,by simp [Program.inAttempt]⟩
  have hi := @run_keeps_along _ _ _ (Program.step gmtime config)
    (fun _ s a => attemptBeginsMounted s a = true) MountInv
    (fun _ _ _ _ _ hi hp hs => mountInv_step hr hi hp hs) ([],{ view := view }) actions hc hstart
  exact hi.writes

def diskMounted : RootView := ⟨some (ascii "/mnt/vms-storage"),some ⟨2,2⟩,some ⟨1,5⟩⟩

def diskUnmounted : RootView := ⟨some (ascii "/mnt/vms-storage"),some ⟨1,9⟩,some ⟨1,5⟩⟩

def guardedConfig : VmsConfig :=
  { channelMap := ascii "0:1", reconnectDelayMs := 0, minFreeBytes := 1, requireStorageMount := true }

def smoothStart : StartupEnv :=
  ⟨⟨true,true,none,none,true,.ok 1⟩,true,fun _ => true,fun _ => true,true⟩

def workerSteps (actions : List IngestAction) : List ProgramAction :=
  actions.map fun a => .manager (.worker 0 a)

def firstAttempt : List ProgramAction :=
  .startup smoothStart :: .manager .start :: workerSteps [.advance,.locate 0 none,.launch none,
    .configure none,.play true,.buffer,.formatLocation 1500 (some 0),.watch false (some .eos),
    .watch false none,.advance,.advance]

def nextAttempt : List ProgramAction := workerSteps [.advance,.advance,.locate 9 none]

theorem disk_back_before_reconnect :
    (programRun epoch guardedConfig diskMounted
      (firstAttempt ++ [.mount diskUnmounted,.mount diskMounted] ++ nextAttempt)).1.length = 8 ∧
    ∀ e ∈ (programRun epoch guardedConfig diskMounted
      (firstAttempt ++ [.mount diskUnmounted,.mount diskMounted] ++ nextAttempt)).1, e.onMount = true :=
  ⟨by decide +kernel,recordings_stay_on_mount _ guardedConfig rfl diskMounted _ (by decide +kernel)⟩

theorem reconnect_writes_off_mount :
    ∃ e ∈ (programRun epoch guardedConfig diskMounted
      (firstAttempt ++ [.mount diskUnmounted] ++ nextAttempt)).1,
      e.onMount = false ∧ e.write = .creates (ascii "/mnt/vms-storage/recordings/ch1") := by
  decide +kernel

end RpiVms

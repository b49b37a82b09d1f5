import RpiVms.Main.Arguments

namespace RpiVms

open Search Options

abbrev Given := List (VmsOption × Option Bytes)

namespace VmsOption

variable (o : VmsOption) (g : Given)

def textIn (default : Bytes) : Bytes := (lastOf o g).getD default

def numberIn (minValue maxValue default : Int) : Int :=
  ((lastOf o g).bind fun v => (parseInt o.text v minValue maxValue).toOption).getD default

def sizeIn (default : Nat) : Nat := ((lastOf o g).bind fun v => (parseSize o.text v).toOption).getD default

end VmsOption

def VmsArguments.reading (g : Given) : VmsArguments where
  cameraHost := VmsOption.cameraHost.textIn g []
  cameraPort := VmsOption.cameraPort.numberIn g 1 65535 554
  cameraUser := VmsOption.cameraUser.textIn g (ascii "admin")
  cameraPassword := VmsOption.cameraPassword.textIn g []
  cameraPasswordStdin := present .cameraPasswordStdin g
  cameraPathTemplate :=
    VmsOption.cameraPathTemplate.textIn g (ascii "/\x7bcamera_channel\x7d/profile2/media.smp")
  cameraChannel := VmsOption.cameraChannel.numberIn g 0 3 0
  legacyMappingSet := present .cameraChannel g || present .channelId g
  channelMap := VmsOption.channelMap.textIn g []
  storageRoot := VmsOption.storageRoot.textIn g (ascii "/mnt/vms-storage")
  mediaDb := VmsOption.mediaDb.textIn g []
  channelId := VmsOption.channelId.numberIn g 1 4 1
  dbBusyTimeoutMs := VmsOption.dbBusyTimeoutMs.numberIn g 0 60000 5000
  codec := ((lastOf .codec g).bind fun v => (parseVideoCodec v).toOption).getD .h264
  latencyMs := VmsOption.latencyMs.numberIn g 0 10000 200
  segmentSeconds := VmsOption.segmentSeconds.numberIn g 1 3600 60
  reconnectDelayMs := VmsOption.reconnectDelayMs.numberIn g 0 60000 2000
  ingestStartupTimeoutMs := VmsOption.ingestStartupTimeoutMs.numberIn g 1000 300000 5000
  channelStartDelayMs := VmsOption.channelStartDelayMs.numberIn g 0 60000 0
  liveListenHost := VmsOption.liveListenHost.textIn g (ascii "0.0.0.0")
  rtspPort := VmsOption.rtspPort.numberIn g 0 65535 0
  rtspsPort := VmsOption.rtspsPort.numberIn g 0 65535 8554
  tlsCertFile := VmsOption.tlsCert.textIn g (ascii "certs/server.crt")
  tlsKeyFile := VmsOption.tlsKey.textIn g (ascii "certs/server.key")
  liveClientQueueFrames := VmsOption.liveClientQueueFrames.sizeIn g 30
  liveClientQueueBytes := VmsOption.liveClientQueueBytes.sizeIn g (8 * 1024 * 1024)
  rtpMtu := VmsOption.rtpMtu.sizeIn g 1200
  minFreeBytes := VmsOption.minFreeBytes.sizeIn g (1024 * 1024 * 1024)
  requireStorageMount := present .requireStorageMount g
  logLevel := ((lastOf .logLevel g).bind fun v => (parseLogLevel v).toOption).getD .info

section

variable {o p : VmsOption} {g : Given} {v : Bytes} {w : Option Bytes} {t : VmsArguments}

theorem textIn_self (default : Bytes) : o.textIn (g ++ [(o,some v)]) default = v := by
  simp [VmsOption.textIn]

theorem numberIn_self {minValue maxValue n : Int} (h : parseInt o.text v minValue maxValue = .ok n)
    (default : Int) : o.numberIn (g ++ [(o,some v)]) minValue maxValue default = n := by
  simp [VmsOption.numberIn,h,Except.toOption]

theorem sizeIn_self {n : Nat} (h : parseSize o.text v = .ok n) (default : Nat) :
    o.sizeIn (g ++ [(o,some v)]) default = n := by
  simp [VmsOption.sizeIn,h,Except.toOption]

theorem textIn_other (h : p ≠ o) (default : Bytes) : o.textIn (g ++ [(p,w)]) default = o.textIn g default := by
  rw [VmsOption.textIn,lastOf_other h,VmsOption.textIn]

theorem numberIn_other (h : p ≠ o) (minValue maxValue default : Int) :
    o.numberIn (g ++ [(p,w)]) minValue maxValue default = o.numberIn g minValue maxValue default := by
  rw [VmsOption.numberIn,lastOf_other h,VmsOption.numberIn]

theorem sizeIn_other (h : p ≠ o) (default : Nat) : o.sizeIn (g ++ [(p,w)]) default = o.sizeIn g default := by
  rw [VmsOption.sizeIn,lastOf_other h,VmsOption.sizeIn]

theorem map_ok {α β ε : Type} {x : Except ε α} {f : α → β} {b : β} (h : x.map f = .ok b) :
    ∃ a, x = .ok a ∧ f a = b := by
  cases x with
  | error e => cases h
  | ok a => exact ⟨a,rfl,Except.ok.inj h⟩

open VmsArguments

theorem reading_value {set : Bytes → VmsArguments → Except Bytes VmsArguments}
    (he : o.effect = .value set) (hs : set v (reading g) = .ok t) :
    t = reading (g ++ [(o,some v)]) := by
  cases o with
  | cameraHost | cameraUser | cameraPassword | cameraPathTemplate | channelMap | storageRoot | mediaDb
  | liveListenHost | tlsCert | tlsKey =>
    obtain rfl := Entry.value.inj he
    cases hs
    simp [reading,textIn_self,textIn_other,numberIn_other,sizeIn_other,lastOf_other]
  | cameraPort | cameraChannel | channelId | dbBusyTimeoutMs | latencyMs | segmentSeconds | reconnectDelayMs
  | ingestStartupTimeoutMs | channelStartDelayMs | rtspPort | rtspsPort =>
    obtain rfl := Entry.value.inj he
    obtain ⟨n,hn,rfl⟩ := map_ok hs
    simp [reading,numberIn_self hn,textIn_other,numberIn_other,sizeIn_other,lastOf_other]
  | liveClientQueueFrames | liveClientQueueBytes | rtpMtu | minFreeBytes =>
    obtain rfl := Entry.value.inj he
    obtain ⟨n,hn,rfl⟩ := map_ok hs
    simp [reading,sizeIn_self hn,textIn_other,numberIn_other,sizeIn_other,lastOf_other]
  | codec | logLevel =>
    obtain rfl := Entry.value.inj he
    obtain ⟨x,hx,rfl⟩ := map_ok hs
    simp [reading,hx,Except.toOption,textIn_other,numberIn_other,sizeIn_other,lastOf_other]
  | cameraPasswordStdin | rtspUrl | requireStorageMount | help => cases he

theorem reading_flag {set : VmsArguments → VmsArguments} (he : o.effect = .flag set) :
    set (reading g) = reading (g ++ [(o,none)]) := by
  cases o with
  | cameraPasswordStdin | requireStorageMount =>
    obtain rfl := Entry.flag.inj he
    simp [reading,textIn_other,numberIn_other,sizeIn_other,lastOf_other]
  | _ => cases he

theorem reading_start : reading [] = {} := by
  simp [reading,VmsOption.textIn,VmsOption.numberIn,VmsOption.sizeIn,lastOf,present]

theorem parse_reading {args : List Bytes} {c : VmsArguments} (h : vmsTable.parse {} args = .ok c) :
    c = reading (vmsTable.given args) := by
  refine @parse_keeps _ _ _ _ vmsTable (fun g s => s = reading g) ?_ ?_ args [] {} c reading_start.symm h
  · rintro g _ i set he rfl
    exact reading_flag he
  · rintro g _ i set v t he hs rfl
    exact reading_value he hs

theorem parse_check {args : List Bytes} {stdin : Option Bytes} {c : VmsArguments}
    (h : parseVmsArgs args stdin = .ok c) : (reading (vmsTable.given args)).check stdin = .ok c := by
  unfold parseVmsArgs at h
  split at h
  · cases h
  · rename_i read hparse
    rw [← parse_reading hparse]
    cases hc : read.check stdin with
    | error e => rw [hc] at h; cases h
    | ok c' =>
      rw [hc] at h
      exact congrArg _ (Except.ok.inj h)

theorem reading_congr {g g' : Given} (h : ∀ o, lastOf o g = lastOf o g' ∧ present o g = present o g') :
    reading g = reading g' := by
  simp [reading,VmsOption.textIn,VmsOption.numberIn,VmsOption.sizeIn,fun o => (h o).1,fun o => (h o).2]

theorem last_values_decide (args args' : List Bytes) (stdin : Option Bytes) (c c' : VmsArguments)
    (h : parseVmsArgs args stdin = .ok c) (h' : parseVmsArgs args' stdin = .ok c')
    (hsame : ∀ o, lastOf o (vmsTable.given args) = lastOf o (vmsTable.given args') ∧
      present o (vmsTable.given args) = present o (vmsTable.given args')) :
    (reading (vmsTable.given args)).check stdin = .ok c ∧ c' = c := by
  have hread := parse_check h
  have hread' := parse_check h'
  rw [← reading_congr hsame,hread] at hread'
  exact ⟨hread,(Except.ok.inj hread').symm⟩

end

def twiceGiven : List Bytes :=
  [ascii "--latency-ms",ascii "50",ascii "--camera-host",ascii "cam",ascii "--camera-password",ascii "pw",
    ascii "--latency-ms",ascii "300"]

def onceGiven : List Bytes :=
  [ascii "--camera-password",ascii "pw",ascii "--latency-ms",ascii "300",ascii "--camera-host",ascii "cam"]

def givenRead : VmsArguments :=
  { cameraHost := ascii "cam"
    cameraPassword := ascii "pw"
    channelMap := ascii "0:1,1:2,2:3,3:4"
    mediaDb := ascii "/mnt/vms-storage/index/media.db"
    latencyMs := 300 }

theorem twiceGiven_read_as_once :
    parseVmsArgs twiceGiven none = .ok givenRead ∧ parseVmsArgs onceGiven none = .ok givenRead ∧
      (VmsArguments.reading (vmsTable.given twiceGiven)).check none = .ok givenRead := by
  have htwice : parseVmsArgs twiceGiven none = .ok givenRead := by decide +kernel
  have honce : parseVmsArgs onceGiven none = .ok givenRead := by decide +kernel
  have hgiven : vmsTable.given twiceGiven = [(.latencyMs,some (ascii "50")),(.cameraHost,some (ascii "cam")),
      (.cameraPassword,some (ascii "pw")),(.latencyMs,some (ascii "300"))] := by decide +kernel
  have hgiven' : vmsTable.given onceGiven = [(.cameraPassword,some (ascii "pw")),
      (.latencyMs,some (ascii "300")),(.cameraHost,some (ascii "cam"))] := by decide +kernel
  refine ⟨htwice,honce,(last_values_decide twiceGiven onceGiven none givenRead givenRead htwice honce ?_).1⟩
  intro o
  rw [hgiven,hgiven']
  cases o <;> exact ⟨rfl,rfl⟩

end RpiVms

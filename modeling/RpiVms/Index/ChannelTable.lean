import RpiVms.Index.ChannelMap
import RpiVms.Library.Runs

namespace RpiVms

open Runs

structure ChannelRow where
  channelId : Int
  cameraChannel : Int
  updatedAtUtc : Bytes
  deriving DecidableEq, Repr

-- the table's PRIMARY KEY and UNIQUE constraints are fields, so no operation can break them
structure VmsChannels where
  rows : List ChannelRow
  keys : (rows.map (·.channelId)).Nodup
  cameras : (rows.map (·.cameraChannel)).Nodup

def VmsChannels.empty : VmsChannels := ⟨[],.nil,.nil⟩

def VmsChannels.Holds (t : VmsChannels) (channelId cameraChannel : Int) : Prop :=
  ∃ r ∈ t.rows, r.channelId = channelId ∧ r.cameraChannel = cameraChannel

def VmsChannels.Clashes (t : VmsChannels) (channelId cameraChannel : Int) : Prop :=
  ∃ r ∈ t.rows, r.channelId ≠ channelId ∧ r.cameraChannel = cameraChannel

instance (t : VmsChannels) (channelId cameraChannel : Int) :
    Decidable (t.Clashes channelId cameraChannel) :=
  inferInstanceAs (Decidable (∃ r ∈ t.rows, _))

def VmsChannels.put (t : VmsChannels) (row : ChannelRow)
    (h : ¬ t.Clashes row.channelId row.cameraChannel) : VmsChannels where
  rows := t.rows.filter (·.channelId ≠ row.channelId) ++ [row]
  keys := by
    rw [List.map_append,List.map_singleton,← List.concat_eq_append]
    refine (t.keys.sublist (List.filter_sublist.map _)).concat ?_
    simp
  cameras := by
    rw [List.map_append,List.map_singleton,← List.concat_eq_append]
    refine (t.cameras.sublist (List.filter_sublist.map _)).concat ?_
    intro hm
    obtain ⟨r,hr,he⟩ := List.mem_map.mp hm
    obtain ⟨hr,hne⟩ := List.mem_filter.mp hr
    exact h ⟨r,hr,by simpa using hne,he⟩

inductive IndexError where
  | outOfRange
  | cameraNotUnique
  deriving DecidableEq, Repr

-- ON CONFLICT(channel_id) turns a clash on the key into an update; a clash on camera_channel aborts
def upsertChannelMapping (now : Bytes) (channelId cameraChannel : Int) (t : VmsChannels) :
    Except IndexError VmsChannels :=
  if channelId < 1 ∨ channelId > 4 ∨ cameraChannel < 0 ∨ cameraChannel > 3 then .error .outOfRange
  else if h : t.Clashes channelId cameraChannel then .error .cameraNotUnique
  else .ok (t.put ⟨channelId,cameraChannel,now⟩ h)

structure Start where
  text : Bytes
  mappings : List ChannelMapping
  accepted : parseChannelMap text = .ok mappings
  clock : Nat → Bytes

structure StartResult where
  mappings : List ChannelMapping
  table : VmsChannels
  error : Option IndexError

-- main stops at the first upsert that throws; the rows written before it stay
def registerMappings (clock : Nat → Bytes) :
    Nat → List ChannelMapping → VmsChannels → VmsChannels × Option IndexError
  | _,[],t => (t,none)
  | n,m :: ms,t =>
      match upsertChannelMapping (clock n) m.channelId m.cameraChannel t with
      | .error e => (t,some e)
      | .ok t => registerMappings clock (n + 1) ms t

def runStart (s : Start) (t : VmsChannels) : StartResult :=
  let r := registerMappings s.clock 0 s.mappings t
  ⟨s.mappings,r.1,r.2⟩

def runStarts : VmsChannels → List Start → List StartResult
  | _,[] => []
  | t,s :: ss => runStart s t :: runStarts (runStart s t).table ss

def StartResult.Works (r : StartResult) : Prop :=
  r.error = none ∧ ∀ m ∈ r.mappings, r.table.Holds m.channelId m.cameraChannel

def lastCamera (history : List ChannelMapping) (channelId : Int) : Option Int :=
  (history.reverse.find? (·.channelId = channelId)).map (·.cameraChannel)

def EntryFree (history before : List ChannelMapping) (m : ChannelMapping) : Prop :=
  ∀ channelId, channelId ≠ m.channelId → lastCamera history channelId = some m.cameraChannel →
    ∃ e ∈ before, e.channelId = channelId

def CamerasFreed (starts : List Start) : Prop :=
  ∀ earlier s later, starts = earlier ++ s :: later →
    ∀ before m after, s.mappings = before ++ m :: after →
      EntryFree (earlier.flatMap (·.mappings)) before m

theorem holds_put {t : VmsChannels} {row : ChannelRow} {h : ¬ t.Clashes row.channelId row.cameraChannel}
    {channelId cameraChannel : Int} :
    (t.put row h).Holds channelId cameraChannel ↔
      if channelId = row.channelId then cameraChannel = row.cameraChannel
      else t.Holds channelId cameraChannel := by
  unfold VmsChannels.Holds VmsChannels.put
  simp only [List.mem_append,List.mem_filter,List.mem_singleton]
  split
  · rename_i he
    constructor
    · rintro ⟨r,⟨-,hne⟩ | rfl,hk,hc⟩
      · exact absurd (hk.trans he) (by simpa using hne)
      · exact hc.symm
    · rintro rfl
      exact ⟨row,.inr rfl,he.symm,rfl⟩
  · rename_i hne
    constructor
    · rintro ⟨r,⟨hr,-⟩ | rfl,hk,hc⟩
      · exact ⟨r,hr,hk,hc⟩
      · exact absurd hk.symm hne
    · rintro ⟨r,hr,hk,hc⟩
      exact ⟨r,.inl ⟨hr,by simpa [hk] using hne⟩,hk,hc⟩

theorem lastCamera_append (history : List ChannelMapping) (m : ChannelMapping) (channelId : Int) :
    lastCamera (history ++ [m]) channelId =
      if channelId = m.channelId then some m.cameraChannel else lastCamera history channelId := by
  unfold lastCamera
  rw [List.reverse_append,List.reverse_singleton,List.singleton_append,List.find?_cons]
  by_cases h : channelId = m.channelId
  · simp [h]
  · have h' : m.channelId ≠ channelId := fun e => h e.symm
    simp [h,h']

def Tracks (t : VmsChannels) (history : List ChannelMapping) : Prop :=
  ∀ channelId cameraChannel, t.Holds channelId cameraChannel ↔
    lastCamera history channelId = some cameraChannel

theorem Tracks.put {t : VmsChannels} {history : List ChannelMapping} (ht : Tracks t history)
    {m : ChannelMapping} {now : Bytes} (h : ¬ t.Clashes m.channelId m.cameraChannel) :
    Tracks (t.put ⟨m.channelId,m.cameraChannel,now⟩ h) (history ++ [m]) := by
  intro channelId cameraChannel
  rw [holds_put,lastCamera_append]
  split
  · exact ⟨fun he => by rw [he],fun he => (Option.some.inj he).symm⟩
  · exact ht channelId cameraChannel

theorem clashes_iff {t : VmsChannels} {history : List ChannelMapping} (ht : Tracks t history)
    {channelId cameraChannel : Int} :
    t.Clashes channelId cameraChannel ↔
      ∃ other, other ≠ channelId ∧ lastCamera history other = some cameraChannel := by
  constructor
  · rintro ⟨r,hr,hne,hc⟩
    exact ⟨r.channelId,hne,(ht _ _).mp ⟨r,hr,rfl,hc⟩⟩
  · rintro ⟨other,hne,hl⟩
    obtain ⟨r,hr,rfl,hc⟩ := (ht _ _).mpr hl
    exact ⟨r,hr,hne,hc⟩

theorem lastCamera_over (history before : List ChannelMapping) (channelId : Int) :
    (∃ m ∈ before, m.channelId = channelId ∧
      lastCamera (history ++ before) channelId = some m.cameraChannel) ∨
    ((∀ m ∈ before, m.channelId ≠ channelId) ∧
      lastCamera (history ++ before) channelId = lastCamera history channelId) := by
  unfold lastCamera
  rw [List.reverse_append,List.find?_append]
  cases hf : before.reverse.find? (·.channelId = channelId) with
  | none =>
    refine .inr ⟨fun m hm => ?_,rfl⟩
    have := List.find?_eq_none.mp hf m (List.mem_reverse.mpr hm)
    simpa using this
  | some m =>
    refine .inl ⟨m,List.mem_reverse.mp (List.mem_of_find?_eq_some hf),?_,rfl⟩
    simpa using List.find?_some hf

section

variable {history before after : List ChannelMapping} {m : ChannelMapping} {t : VmsChannels}

theorem entry_free_iff (hm : IsChannelMap (before ++ m :: after)) (ht : Tracks t (history ++ before)) :
    ¬ t.Clashes m.channelId m.cameraChannel ↔ EntryFree history before m := by
  rw [clashes_iff ht]
  have hcam : ∀ e ∈ before, e.cameraChannel ≠ m.cameraChannel := by
    have := hm.cameras
    rw [List.map_append,List.nodup_append] at this
    intro e he
    exact this.2.2 _ (List.mem_map_of_mem he) _ (by simp)
  constructor
  · intro hno channelId hne hl
    rcases lastCamera_over history before channelId with ⟨e,he,hk,-⟩ | ⟨-,hsame⟩
    · exact ⟨e,he,hk⟩
    · exact absurd ⟨channelId,hne,hsame.trans hl⟩ hno
  · rintro hfree ⟨other,hne,hl⟩
    rcases lastCamera_over history before other with ⟨e,he,-,hlast⟩ | ⟨hnot,hsame⟩
    · exact hcam e he (Option.some.inj (hlast.symm.trans hl))
    · obtain ⟨e,he,hk⟩ := hfree other hne (hsame.symm.trans hl)
      exact hnot e he hk

theorem upsert_ok_iff (hm : IsChannelMap (before ++ m :: after)) (ht : Tracks t (history ++ before))
    (now : Bytes) :
    (EntryFree history before m → ∃ u, upsertChannelMapping now m.channelId m.cameraChannel t = .ok u ∧
      Tracks u (history ++ (before ++ [m]))) ∧
    (¬ EntryFree history before m →
      upsertChannelMapping now m.channelId m.cameraChannel t = .error .cameraNotUnique) := by
  have hr := hm.ranges m (by simp)
  unfold upsertChannelMapping
  rw [if_neg (by omega)]
  refine ⟨fun hf => ?_,fun hf => ?_⟩
  · have hc := (entry_free_iff hm ht).mpr hf
    rw [dif_neg hc]
    refine ⟨_,rfl,?_⟩
    rw [← List.append_assoc]
    exact ht.put hc
  · rw [dif_pos (not_not.mp (mt (entry_free_iff hm ht).mp hf))]

end

theorem registerMappings_iff (clock : Nat → Bytes) (history : List ChannelMapping)
    (ms : List ChannelMapping) (n : Nat) (before : List ChannelMapping) (t : VmsChannels)
    (hm : IsChannelMap (before ++ ms)) (ht : Tracks t (history ++ before)) :
    ((registerMappings clock n ms t).2 = none ↔
      ∀ pre m post, ms = pre ++ m :: post → EntryFree history (before ++ pre) m) ∧
    ((registerMappings clock n ms t).2 = none →
      Tracks (registerMappings clock n ms t).1 (history ++ (before ++ ms))) := by
  induction ms generalizing n before t with
  | nil => exact ⟨by simp [registerMappings],fun _ => by simpa [registerMappings] using ht⟩
  | cons m ms ih =>
    have hspec := upsert_ok_iff hm ht (clock n)
    rw [registerMappings]
    rw [forall_split_cons]
    by_cases hf : EntryFree history before m
    · obtain ⟨u,hu,htu⟩ := hspec.1 hf
      have hrec := ih (n + 1) (before ++ [m]) u (by simpa using hm) htu
      simp only [List.append_assoc,List.singleton_append] at hrec
      simp only [hu]
      exact ⟨hrec.1.trans ⟨fun h => ⟨by simpa using hf,h⟩,fun h => h.2⟩,hrec.2⟩
    · rw [hspec.2 hf]
      refine ⟨⟨fun h => (by cases h),fun h => ?_⟩,fun h => (by cases h)⟩
      exact absurd (by simpa using h.1) hf

theorem tracked_holds {t : VmsChannels} {history mappings : List ChannelMapping}
    (hm : IsChannelMap mappings) (ht : Tracks t (history ++ mappings)) :
    ∀ m ∈ mappings, t.Holds m.channelId m.cameraChannel := by
  intro m hmem
  rw [ht]
  rcases lastCamera_over history mappings m.channelId with ⟨e,he,hk,hl⟩ | ⟨hnot,-⟩
  · obtain rfl : e = m := List.inj_on_of_nodup_map hm.channels he hmem hk
    exact hl
  · exact absurd rfl (hnot m hmem)

theorem runStart_iff (s : Start) {t : VmsChannels} {history : List ChannelMapping}
    (ht : Tracks t history) :
    ((runStart s t).Works ↔
      ∀ before m after, s.mappings = before ++ m :: after → EntryFree history before m) ∧
    ((runStart s t).Works → Tracks (runStart s t).table (history ++ s.mappings)) := by
  have hm := parseChannelMap_ok s.accepted
  have hreg := registerMappings_iff s.clock history s.mappings 0 [] t hm (by simpa using ht)
  simp only [List.nil_append] at hreg
  refine ⟨⟨fun h => hreg.1.mp h.1,fun h => ?_⟩,fun h => hreg.2 h.1⟩
  have hnone := hreg.1.mpr h
  exact ⟨hnone,tracked_holds hm (hreg.2 hnone)⟩

theorem runStarts_iff (starts : List Start) (t : VmsChannels) (history : List ChannelMapping)
    (ht : Tracks t history) :
    (∀ r ∈ runStarts t starts, r.Works) ↔
      ∀ earlier s later, starts = earlier ++ s :: later →
        ∀ before m after, s.mappings = before ++ m :: after →
          EntryFree (history ++ earlier.flatMap (·.mappings)) before m := by
  induction starts generalizing t history with
  | nil => simp [runStarts]
  | cons s ss ih =>
    have hs := runStart_iff s ht
    have hrec := fun hw => ih _ _ (hs.2 hw)
    simp only [List.append_assoc] at hrec
    simp only [runStarts,List.mem_cons,forall_eq_or_imp]
    rw [forall_split_cons]
    simp only [List.flatMap_nil,List.append_nil,List.flatMap_cons]
    constructor
    · rintro ⟨hw,hrest⟩
      exact ⟨hs.1.mp hw,(hrec hw).mp hrest⟩
    · rintro ⟨hhead,hrest⟩
      exact ⟨hs.1.mpr hhead,(hrec (hs.1.mpr hhead)).mpr hrest⟩

theorem restarts_work_iff (starts : List Start) :
    (∀ r ∈ runStarts .empty starts, r.Works) ↔ CamerasFreed starts := by
  have ht : Tracks .empty [] := by
    intro channelId cameraChannel
    simp [VmsChannels.Holds,VmsChannels.empty,lastCamera]
  simpa [CamerasFreed] using runStarts_iff starts .empty [] ht

def startWith (text : Bytes) (mappings : List ChannelMapping)
    (h : parseChannelMap text = .ok mappings) : Start :=
  ⟨text,mappings,h,fun _ => ascii "2025-01-01T00:00:00Z"⟩

theorem moved_camera_aborts :
    ¬ ∀ r ∈ runStarts .empty
      [startWith (ascii "0:1") [⟨0,1⟩] (by decide),startWith (ascii "0:2") [⟨0,2⟩] (by decide)],
        r.Works := by
  intro h
  have hlast := h _ (by simp [runStarts]; exact .inr rfl)
  exact absurd hlast.1 (by decide)

end RpiVms

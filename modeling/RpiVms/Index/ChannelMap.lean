import RpiVms.Rtsp.Text
import Mathlib.Data.List.Nodup

namespace RpiVms

open Search

structure ChannelMapping where
  cameraChannel : Int
  channelId : Int
  deriving DecidableEq, Repr

def parseMappingNumber (field value : Bytes) (minValue maxValue : Int) : Except Bytes Int :=
  let invalid := ascii "invalid " ++ field ++ ascii " in --channel-map: " ++ value
  match stoi value with
  | .error _ => .error invalid
  | .ok parsed =>
      if parsed.consumed ≠ value.length ∨ parsed.value < minValue ∨ parsed.value > maxValue then
        .error invalid
      else .ok parsed.value

def parseMapping (item : Bytes) : Except Bytes ChannelMapping :=
  match find (ascii ":") item with
  | none => .error (ascii "--channel-map entries must use CAMERA:VMS")
  | some separator =>
      if find (ascii ":") (item.drop (separator + 1)) ≠ none then
        .error (ascii "--channel-map entries must use CAMERA:VMS")
      else do
        let cameraChannel ← parseMappingNumber (ascii "camera channel") (item.take separator) 0 3
        let channelId ← parseMappingNumber (ascii "VMS channel") (item.drop (separator + 1)) 1 4
        return ⟨cameraChannel,channelId⟩

def addMapping (mappings : List ChannelMapping) (mapping : ChannelMapping) :
    Except Bytes (List ChannelMapping) :=
  if mapping.cameraChannel ∈ mappings.map (·.cameraChannel) then
    .error (ascii "--channel-map contains a duplicate camera channel")
  else if mapping.channelId ∈ mappings.map (·.channelId) then
    .error (ascii "--channel-map contains a duplicate VMS channel")
  else .ok (mappings ++ [mapping])

def parseMappings : Nat → List ChannelMapping → Bytes → Except Bytes (List ChannelMapping)
  | 0,mappings,_ => .ok mappings
  | fuel + 1,mappings,rest =>
      if rest.isEmpty then .ok mappings
      else
        match find (ascii ",") rest with
        | none => do
            let mapping ← parseMapping rest
            addMapping mappings mapping
        | some comma => do
            let mapping ← parseMapping (rest.take comma)
            let added ← addMapping mappings mapping
            if (rest.drop (comma + 1)).isEmpty then
              .error (ascii "--channel-map must not end with a comma")
            else parseMappings fuel added (rest.drop (comma + 1))

def parseChannelMap (value : Bytes) : Except Bytes (List ChannelMapping) :=
  if value.isEmpty then .error (ascii "--channel-map must not be empty")
  else parseMappings value.length [] value

structure IsChannelMap (mappings : List ChannelMapping) : Prop where
  cameras : (mappings.map (·.cameraChannel)).Nodup
  channels : (mappings.map (·.channelId)).Nodup
  ranges : ∀ m ∈ mappings, 0 ≤ m.cameraChannel ∧ m.cameraChannel ≤ 3 ∧ 1 ≤ m.channelId ∧ m.channelId ≤ 4

theorem bind_ok {ε α β : Type} {x : Except ε α} {f : α → Except ε β} {b : β}
    (h : x >>= f = .ok b) : ∃ a, x = .ok a ∧ f a = .ok b := by
  cases x with
  | error e => cases h
  | ok a => exact ⟨a,rfl,h⟩

theorem parseMappingNumber_range {field value : Bytes} {lo hi n : Int}
    (h : parseMappingNumber field value lo hi = .ok n) : lo ≤ n ∧ n ≤ hi := by
  unfold parseMappingNumber at h
  simp only at h
  split at h
  · cases h
  · split at h
    · cases h
    · rename_i hr
      cases h
      simp only [not_or] at hr
      omega

theorem parseMapping_range {item : Bytes} {m : ChannelMapping} (h : parseMapping item = .ok m) :
    0 ≤ m.cameraChannel ∧ m.cameraChannel ≤ 3 ∧ 1 ≤ m.channelId ∧ m.channelId ≤ 4 := by
  unfold parseMapping at h
  split at h
  · cases h
  · split at h
    · cases h
    · obtain ⟨camera,hcam,h⟩ := bind_ok h
      obtain ⟨channel,hch,h⟩ := bind_ok h
      cases h
      have h1 := parseMappingNumber_range hcam
      have h2 := parseMappingNumber_range hch
      exact ⟨h1.1,h1.2,h2.1,h2.2⟩

theorem addMapping_ok {mappings added : List ChannelMapping} {m : ChannelMapping}
    (hm : IsChannelMap mappings)
    (hr : 0 ≤ m.cameraChannel ∧ m.cameraChannel ≤ 3 ∧ 1 ≤ m.channelId ∧ m.channelId ≤ 4)
    (h : addMapping mappings m = .ok added) : IsChannelMap added := by
  unfold addMapping at h
  split at h
  · cases h
  split at h
  · cases h
  rename_i hcam hch
  cases h
  refine ⟨?_,?_,?_⟩
  · rw [List.map_append,List.map_singleton,← List.concat_eq_append]
    exact hm.cameras.concat hcam
  · rw [List.map_append,List.map_singleton,← List.concat_eq_append]
    exact hm.channels.concat hch
  · intro x hx
    rcases List.mem_append.mp hx with hx | hx
    · exact hm.ranges x hx
    · obtain rfl : x = m := by simpa using hx
      exact hr

theorem parseMappings_ok (fuel : Nat) (mappings result : List ChannelMapping) (rest : Bytes)
    (hm : IsChannelMap mappings) (h : parseMappings fuel mappings rest = .ok result) :
    IsChannelMap result := by
  induction fuel generalizing mappings rest with
  | zero =>
    cases h
    exact hm
  | succ fuel ih =>
    rw [parseMappings] at h
    split at h
    · cases h
      exact hm
    · split at h
      · obtain ⟨m,hparse,h⟩ := bind_ok h
        exact addMapping_ok hm (parseMapping_range hparse) h
      · obtain ⟨m,hparse,h⟩ := bind_ok h
        obtain ⟨added,hadd,h⟩ := bind_ok h
        split at h
        · cases h
        · exact ih added _ (addMapping_ok hm (parseMapping_range hparse) hadd) h

theorem parseChannelMap_ok {value : Bytes} {mappings : List ChannelMapping}
    (h : parseChannelMap value = .ok mappings) : IsChannelMap mappings := by
  unfold parseChannelMap at h
  split at h
  · cases h
  · exact parseMappings_ok _ [] _ _ ⟨.nil,.nil,by simp⟩ h

example : parseChannelMap (ascii "0:1,3:2") = .ok [⟨0,1⟩,⟨3,2⟩] := by decide

end RpiVms

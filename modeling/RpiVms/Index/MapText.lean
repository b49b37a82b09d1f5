import Mathlib.Data.List.Forall2
import RpiVms.Index.ChannelMap

namespace RpiVms

open Search

-- a text that std::stoi consumes to its end, with the number it gives
def NumberText (lo hi : Int) (text : Bytes) (n : Int) : Prop :=
  stoi text = .ok ⟨n,text.length⟩ ∧ lo ≤ n ∧ n ≤ hi

def EntryText (item : Bytes) (m : ChannelMapping) : Prop :=
  ∃ camera vms, item = camera ++ 58 :: vms ∧ (58 : UInt8) ∉ camera ∧ (58 : UInt8) ∉ vms ∧
    NumberText 0 3 camera m.cameraChannel ∧ NumberText 1 4 vms m.channelId

def UniqueChannels (mappings : List ChannelMapping) : Prop :=
  (mappings.map (·.cameraChannel)).Nodup ∧ (mappings.map (·.channelId)).Nodup

def EntriesText (value : Bytes) (mappings : List ChannelMapping) : Prop :=
  ∃ items, items ≠ [] ∧ (∀ item ∈ items, (44 : UInt8) ∉ item) ∧ value = [44].intercalate items ∧
    List.Forall₂ EntryText items mappings

section

variable {field value item rest tail : Bytes} {lo hi n : Int} {m : ChannelMapping}
  {mappings added result : List ChannelMapping}

theorem parseMappingNumber_iff :
    parseMappingNumber field value lo hi = .ok n ↔ NumberText lo hi value n := by
  unfold parseMappingNumber NumberText
  simp only
  cases stoi value with
  | error e => simp
  | ok parsed =>
    obtain ⟨v,consumed⟩ := parsed
    simp only [Except.ok.injEq,Stoi.mk.injEq]
    split
    · rename_i hbad
      refine iff_of_false (by simp) ?_
      rintro ⟨⟨rfl,rfl⟩,hlo,hhi⟩
      omega
    · rename_i hgood
      simp only [not_or,ne_eq,not_not] at hgood
      rw [Except.ok.injEq]
      constructor
      · rintro rfl
        exact ⟨⟨rfl,hgood.1⟩,by omega⟩
      · rintro ⟨⟨rfl,-⟩,-⟩
        rfl

theorem bind_ok_iff {ε α β : Type} {x : Except ε α} {f : α → Except ε β} {b : β} :
    x >>= f = .ok b ↔ ∃ a, x = .ok a ∧ f a = .ok b := by
  constructor
  · exact bind_ok
  · rintro ⟨a,rfl,h⟩
    exact h

theorem parseMapping_iff : parseMapping item = .ok m ↔ EntryText item m := by
  have hcolon : ascii ":" = [58] := by decide
  unfold parseMapping
  rw [hcolon]
  by_cases hc : (58 : UInt8) ∈ item
  · obtain ⟨camera,vms,rfl,hcamera⟩ := List.eq_append_cons_of_mem hc
    have hdrop : (camera ++ 58 :: vms).drop (camera.length + 1) = vms := by
      rw [← List.drop_drop,List.drop_left]
      rfl
    simp only [find_first hcamera,List.take_left,hdrop]
    by_cases hvms : (58 : UInt8) ∈ vms
    · rw [if_pos (mt find_singleton_none.mp (not_not_intro hvms))]
      refine iff_of_false (by simp) ?_
      rintro ⟨camera',vms',he,hcamera',hvms',-⟩
      obtain ⟨-,rfl⟩ := (split_first hcamera hcamera').mp he
      exact hvms' hvms
    · rw [if_neg (not_not_intro (find_singleton_none.mpr hvms)),bind_ok_iff]
      constructor
      · rintro ⟨c,hc,h⟩
        obtain ⟨v,hv,h⟩ := bind_ok h
        cases h
        exact ⟨camera,vms,rfl,hcamera,hvms,parseMappingNumber_iff.mp hc,parseMappingNumber_iff.mp hv⟩
      · rintro ⟨camera',vms',he,hcamera',hvms',hc,hv⟩
        obtain ⟨rfl,rfl⟩ := (split_first hcamera hcamera').mp he
        exact ⟨_,parseMappingNumber_iff.mpr hc,bind_ok_iff.mpr ⟨_,parseMappingNumber_iff.mpr hv,rfl⟩⟩
  · rw [find_singleton_none.mpr hc]
    refine iff_of_false (by simp) ?_
    rintro ⟨camera,vms,rfl,-⟩
    simp at hc

theorem EntryText.ne_nil (h : EntryText item m) : item ≠ [] := by
  obtain ⟨camera,vms,rfl,-⟩ := h
  simp

theorem addMapping_iff (h : UniqueChannels mappings) :
    addMapping mappings m = .ok added ↔ added = mappings ++ [m] ∧ UniqueChannels added := by
  have hnodup {f : ChannelMapping → Int} (hf : (mappings.map f).Nodup) :
      ((mappings ++ [m]).map f).Nodup ↔ f m ∉ mappings.map f := by
    rw [List.map_append,List.map_singleton,← List.concat_eq_append,List.nodup_concat,and_iff_left hf]
  unfold addMapping
  constructor
  · intro he
    split at he
    · cases he
    · split at he
      · cases he
      · rename_i hcamera hchannel
        cases he
        exact ⟨rfl,(hnodup h.1).mpr hcamera,(hnodup h.2).mpr hchannel⟩
  · rintro ⟨rfl,hu⟩
    rw [if_neg ((hnodup h.1).mp hu.1),if_neg ((hnodup h.2).mp hu.2)]

theorem UniqueChannels.before {later : List ChannelMapping} (h : UniqueChannels (mappings ++ later)) :
    UniqueChannels mappings := by
  unfold UniqueChannels at h
  rw [List.map_append,List.map_append] at h
  exact ⟨h.1.of_append_left,h.2.of_append_left⟩

theorem entriesText_single (h : (44 : UInt8) ∉ item) :
    EntriesText item mappings ↔ ∃ m, EntryText item m ∧ mappings = [m] := by
  constructor
  · rintro ⟨items,hne,hcommas,he,hall⟩
    match items,hne,hall with
    | [first],_,.cons hfirst .nil =>
      rw [List.intercalate_singleton] at he
      exact ⟨_,he ▸ hfirst,rfl⟩
    | first :: second :: items,_,_ =>
      rw [List.intercalate_cons_cons] at he
      exact absurd (by rw [he]; simp) h
  · rintro ⟨m,hm,rfl⟩
    exact ⟨[item],by simp,by simpa using h,by rw [List.intercalate_singleton],.cons hm .nil⟩

theorem entriesText_cons (h : (44 : UInt8) ∉ item) :
    EntriesText (item ++ 44 :: tail) mappings ↔
      ∃ m ms, EntryText item m ∧ EntriesText tail ms ∧ mappings = m :: ms := by
  constructor
  · rintro ⟨items,hne,hcommas,he,hall⟩
    match items,hne,hall with
    | [first],_,_ =>
      rw [List.intercalate_singleton] at he
      have hfirst := hcommas first (by simp)
      rw [← he] at hfirst
      simp at hfirst
    | first :: second :: items,_,.cons hfirst hrest =>
      rw [List.intercalate_cons_cons,List.append_assoc,List.singleton_append] at he
      obtain ⟨rfl,rfl⟩ := (split_first h (hcommas first (by simp))).mp he
      exact ⟨_,_,hfirst,⟨second :: items,by simp,fun i hi => hcommas i (by simp [hi]),rfl,hrest⟩,rfl⟩
  · rintro ⟨m,ms,hm,⟨items,hne,hcommas,rfl,hall⟩,rfl⟩
    obtain ⟨second,items,rfl⟩ := List.exists_cons_of_ne_nil hne
    refine ⟨item :: second :: items,by simp,?_,?_,.cons hm hall⟩
    · exact List.forall_mem_cons.mpr ⟨h,hcommas⟩
    · rw [List.intercalate_cons_cons,List.append_assoc,List.singleton_append]

theorem EntriesText.ne_nil (h : EntriesText value mappings) : value ≠ [] := by
  by_cases hc : (44 : UInt8) ∈ value
  · exact List.ne_nil_of_mem hc
  · obtain ⟨m,hm,-⟩ := (entriesText_single hc).mp h
    exact hm.ne_nil

theorem EntriesText.some_entry (h : EntriesText value mappings) : mappings ≠ [] := by
  obtain ⟨items,hne,-,-,hall⟩ := h
  rintro rfl
  exact hne (List.forall₂_nil_right_iff.mp hall)

theorem parseMappings_iff (fuel : Nat) (hfuel : rest.length ≤ fuel) (hne : rest ≠ [])
    (h : UniqueChannels mappings) :
    parseMappings fuel mappings rest = .ok result ↔
      ∃ ms, EntriesText rest ms ∧ result = mappings ++ ms ∧ UniqueChannels result := by
  have hcomma : ascii "," = [44] := by decide
  induction fuel generalizing mappings rest with
  | zero => exact absurd (List.eq_nil_of_length_eq_zero (Nat.le_zero.mp hfuel)) hne
  | succ fuel ih =>
    have hempty : rest.isEmpty = false := by simpa using hne
    rw [parseMappings,hempty,hcomma]
    simp only [Bool.false_eq_true,if_false]
    by_cases hc : (44 : UInt8) ∈ rest
    · obtain ⟨item,tail,rfl,hitem⟩ := List.eq_append_cons_of_mem hc
      have hdrop : (item ++ 44 :: tail).drop (item.length + 1) = tail := by
        rw [← List.drop_drop,List.drop_left]
        rfl
      have hlen : tail.length ≤ fuel := by
        rw [List.length_append,List.length_cons] at hfuel
        omega
      simp only [find_first hitem,List.take_left,hdrop]
      rw [bind_ok_iff]
      constructor
      · rintro ⟨m,hm,hrest⟩
        obtain ⟨added,hadd,hrest⟩ := bind_ok hrest
        obtain ⟨rfl,hunique⟩ := (addMapping_iff h).mp hadd
        split at hrest
        · cases hrest
        · rename_i htail
          obtain ⟨ms,hms,rfl,hu⟩ := (ih hlen (by simpa using htail) hunique).mp hrest
          exact ⟨m :: ms,(entriesText_cons hitem).mpr ⟨m,ms,parseMapping_iff.mp hm,hms,rfl⟩,by simp,hu⟩
      · rintro ⟨all,hall,rfl,hu⟩
        obtain ⟨m,ms,hm,hms,rfl⟩ := (entriesText_cons hitem).mp hall
        have hsplit : mappings ++ m :: ms = mappings ++ [m] ++ ms := by simp
        have hadded : UniqueChannels (mappings ++ [m]) := (hsplit ▸ hu).before
        have htail : tail.isEmpty = false := by simpa using hms.ne_nil
        refine ⟨m,parseMapping_iff.mpr hm,bind_ok_iff.mpr ⟨_,(addMapping_iff h).mpr ⟨rfl,hadded⟩,?_⟩⟩
        rw [htail]
        exact (ih hlen hms.ne_nil hadded).mpr ⟨ms,hms,hsplit,hu⟩
    · rw [find_singleton_none.mpr hc]
      simp only
      rw [bind_ok_iff]
      constructor
      · rintro ⟨m,hm,hadd⟩
        obtain ⟨rfl,hunique⟩ := (addMapping_iff h).mp hadd
        exact ⟨[m],(entriesText_single hc).mpr ⟨m,parseMapping_iff.mp hm,rfl⟩,rfl,hunique⟩
      · rintro ⟨ms,hms,rfl,hu⟩
        obtain ⟨m,hm,rfl⟩ := (entriesText_single hc).mp hms
        exact ⟨m,parseMapping_iff.mpr hm,(addMapping_iff h).mpr ⟨rfl,hu⟩⟩

theorem parseChannelMap_iff :
    parseChannelMap value = .ok mappings ↔ EntriesText value mappings ∧ UniqueChannels mappings := by
  unfold parseChannelMap
  by_cases hv : value = []
  · rw [hv]
    exact iff_of_false (by simp) fun h => h.1.ne_nil rfl
  · have hnone : UniqueChannels [] := ⟨.nil,.nil⟩
    rw [if_neg (by simpa using hv),parseMappings_iff value.length (Nat.le_refl _) hv hnone]
    simp only [List.nil_append]
    constructor
    · rintro ⟨ms,hms,rfl,hu⟩
      exact ⟨hms,hu⟩
    · rintro ⟨hms,hu⟩
      exact ⟨mappings,hms,rfl,hu⟩

end

end RpiVms

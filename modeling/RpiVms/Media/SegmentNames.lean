import Mathlib.Data.Finset.Card
import Mathlib.Data.Finset.Image
import RpiVms.Library.Calendar
import RpiVms.Library.Positional
import RpiVms.Library.Search
import RpiVms.Media.Ingest
import RpiVms.Rtsp.Numerals

namespace RpiVms

open Calendar Positional

theorem digits_numerals : Numerals 10 (fun b : UInt8 => b.toNat - 48) (fun b => isDigit b = true) := by
  have hdigit {b : UInt8} (h : isDigit b = true) : 48 ≤ b.toNat ∧ b.toNat ≤ 57 := by
    simpa [isDigit,UInt8.le_iff_toNat_le] using h
  refine ⟨fun hx => ?_,fun hx hy => ?_,fun hx hy h => ?_⟩
  · have := hdigit hx
    omega
  · have := hdigit hx
    have := hdigit hy
    rw [UInt8.lt_iff_toNat_lt]
    omega
  · have := hdigit hx
    have := hdigit hy
    exact UInt8.toNat_inj.mp (by omega)

theorem decimal_length_le_iff {n w : Nat} (hw : 0 < w) : (decimal n).length ≤ w ↔ n < 10 ^ w := by
  rw [decimal,List.length_map]
  exact Nat.length_toDigits_le_iff (by decide) hw

theorem digitsValue_zeros (k : Nat) (ds : Bytes) : digitsValue (List.replicate k 48 ++ ds) = digitsValue ds := by
  induction k with
  | zero => rfl
  | succ k ih => exact ih

theorem digitsValue_padded (w n : Nat) : digitsValue (padded w n) = n := by
  rw [padded,digitsValue_zeros,digitsValue_decimal]

theorem padded_inj {w m n : Nat} (h : padded w m = padded w n) : m = n := by
  rw [← digitsValue_padded w m,h,digitsValue_padded]

theorem padded_digits (w n : Nat) : ∀ b ∈ padded w n, isDigit b = true := by
  intro b hb
  rcases List.mem_append.mp hb with hb | hb
  · rw [List.eq_of_mem_replicate hb]
    rfl
  · exact List.all_eq_true.mp (decimal_all n) b hb

theorem padded_length {w n : Nat} (hw : 0 < w) (h : n < 10 ^ w) : (padded w n).length = w := by
  have := (decimal_length_le_iff hw).mpr h
  rw [padded,List.length_append,List.length_replicate]
  omega

theorem decimal_eq_padded {n w : Nat} (hw : 0 < w) (h : 10 ^ w ≤ n) : decimal n = padded (w + 1) n := by
  have := mt (decimal_length_le_iff hw).mp (Nat.not_lt.mpr h)
  rw [padded,show w + 1 - (decimal n).length = 0 by omega]
  rfl

theorem padded_append_lt_iff {w m n : Nat} (hw : 0 < w) (hm : m < 10 ^ w) (hn : n < 10 ^ w) (x y : Bytes) :
    padded w m ++ x < padded w n ++ y ↔ m < n ∨ m = n ∧ x < y := by
  have hlen : (padded w m).length = (padded w n).length := by rw [padded_length hw hm,padded_length hw hn]
  have hvalue : padded w m < padded w n ↔ m < n := by
    have := lt_iff_value_lt digits_numerals hlen (padded_digits w m) (padded_digits w n)
    rw [this]
    show digitsValue (padded w m) < digitsValue (padded w n) ↔ m < n
    rw [digitsValue_padded,digitsValue_padded]
  rw [append_lt_append_iff hlen,hvalue]
  refine or_congr_right (and_congr_left fun _ => ⟨padded_inj,?_⟩)
  rintro rfl
  rfl

theorem append_left_lt_iff (s x y : Bytes) : s ++ x < s ++ y ↔ x < y := by
  rw [append_lt_append_iff rfl]
  simp [List.lt_irrefl]

namespace CivilTime

def date (c : CivilTime) : Date := ⟨c.year,c.month,c.day⟩

def Valid (c : CivilTime) : Prop := c.date.Valid ∧ c.hour < 24 ∧ c.minute < 60 ∧ c.second < 60

def seconds (c : CivilTime) : Nat := ((c.date.number * 24 + c.hour) * 60 + c.minute) * 60 + c.second

variable {c d : CivilTime} {m n : Nat}

theorem date_lex (hc : c.date.Valid) (hd : d.date.Valid) (p : Prop) :
    (c.year < d.year ∨ c.year = d.year ∧ (c.month < d.month ∨ c.month = d.month ∧ (c.day < d.day ∨ c.day = d.day ∧ p))) ↔
      c.date.number < d.date.number ∨ c.date.number = d.date.number ∧ p := by
  have hlt := Date.number_lt_iff hc hd
  have hgt := Date.number_lt_iff hd hc
  simp only [date] at *
  by_cases hp : p
  · simp only [hp,and_true]
    omega
  · simp only [hp,and_false,or_false]
    exact hlt.symm

theorem seconds_lex (hc : c.Valid) (hd : d.Valid) (p : Prop) :
    (c.year < d.year ∨ c.year = d.year ∧ (c.month < d.month ∨ c.month = d.month ∧ (c.day < d.day ∨ c.day = d.day ∧
      (c.hour < d.hour ∨ c.hour = d.hour ∧ (c.minute < d.minute ∨ c.minute = d.minute ∧
        (c.second < d.second ∨ c.second = d.second ∧ p)))))) ↔
      c.seconds < d.seconds ∨ c.seconds = d.seconds ∧ p := by
  rw [date_lex hc.1 hd.1,lex_digit hc.2.1 hd.2.1,lex_digit hc.2.2.1 hd.2.2.1,lex_digit hc.2.2.2 hd.2.2.2]
  rfl

end CivilTime

-- the moment in a segment's name, as its formatter writes it
def stamp (c : CivilTime) (milliseconds : Nat) : Bytes :=
  putTime c ++ ascii "." ++ padded 3 milliseconds ++ ascii "Z"

theorem putTime_eq {c : CivilTime} (h : 1000 ≤ c.year) :
    putTime c = padded 4 c.year ++ (padded 2 c.month ++ (padded 2 c.day ++ (ascii "T" ++ (padded 2 c.hour ++
      (padded 2 c.minute ++ padded 2 c.second))))) := by
  rw [putTime,@decimal_eq_padded c.year 3 (by decide) h]
  simp only [List.append_assoc]

theorem stamp_lt_iff {c d : CivilTime} {m n : Nat} (hc : c.Valid) (hd : d.Valid)
    (hcy : 1000 ≤ c.year ∧ c.year < 10000) (hdy : 1000 ≤ d.year ∧ d.year < 10000) (hm : m < 1000) (hn : n < 1000)
    (x y : Bytes) :
    stamp c m ++ x < stamp d n ++ y ↔
      c.seconds * 1000 + m < d.seconds * 1000 + n ∨ c.seconds * 1000 + m = d.seconds * 1000 + n ∧ x < y := by
  have two {k : Nat} (h : k < 60) : k < 10 ^ 2 := by omega
  have hcm := hc.1.month_lt
  have hdm := hd.1.month_lt
  have hcd := hc.1.day_lt
  have hdd := hd.1.day_lt
  obtain ⟨-,hch,hcmin,hcs⟩ := id hc
  obtain ⟨-,hdh,hdmin,hds⟩ := id hd
  simp only [CivilTime.date] at hcm hdm hcd hdd
  unfold stamp
  rw [putTime_eq hcy.1,putTime_eq hdy.1]
  simp only [List.append_assoc]
  rw [padded_append_lt_iff (by decide) hcy.2 hdy.2,padded_append_lt_iff (by decide) (two (by omega)) (two (by omega)),
    padded_append_lt_iff (by decide) (two (by omega)) (two (by omega)),append_left_lt_iff,
    padded_append_lt_iff (by decide) (two (by omega)) (two (by omega)),
    padded_append_lt_iff (by decide) (two hcmin) (two hdmin),padded_append_lt_iff (by decide) (two hcs) (two hds),
    append_left_lt_iff,padded_append_lt_iff (by decide) hm hn,append_left_lt_iff,CivilTime.seconds_lex hc hd,
    lex_digit hm hn]

def DatedSeconds (t : Int) : Prop := 0 ≤ t ∧ t < 253402300800

def DatedMs (t : Int) : Prop := 0 ≤ t ∧ t < 253402300800000

-- gmtime_r gives the calendar fields of the seconds since the epoch
structure GregorianUtc (gmtime : Int → CivilTime) : Prop where
  valid : ∀ t, DatedSeconds t → (gmtime t).Valid
  counts : ∀ t, DatedSeconds t → ((gmtime t).seconds : Int) = yearStart 1970 * 86400 + t

theorem yearStart_epoch : yearStart 1970 = 719528 := by
  have := yearStart_eq 1970
  omega

theorem yearStart_last : yearStart 10000 = 3652425 := by
  have := yearStart_eq 10000
  omega

section

variable {gmtime : Int → CivilTime} (hg : GregorianUtc gmtime)

include hg

theorem gmtime_year {t : Int} (h : DatedSeconds t) : 1000 ≤ (gmtime t).year ∧ (gmtime t).year < 10000 := by
  have hvalid := hg.valid t h
  have hcount := hg.counts t h
  obtain ⟨-,hhour,hminute,hsecond⟩ := id hvalid
  obtain ⟨hlow,hhigh⟩ := h
  have hfrom := Date.year_le_iff hvalid.1 1970
  have hto := Date.year_le_iff hvalid.1 10000
  unfold CivilTime.seconds at hcount
  rw [yearStart_epoch] at hcount hfrom
  rw [yearStart_last] at hto
  simp only [CivilTime.date] at hfrom hto hcount
  omega

theorem stamped_lt_iff {t u : Int} (ht : DatedMs t) (hu : DatedMs u) (x y : Bytes) :
    stamp (gmtime (t.tdiv 1000)) (t.tmod 1000).toNat ++ x < stamp (gmtime (u.tdiv 1000)) (u.tmod 1000).toNat ++ y ↔
      t < u ∨ t = u ∧ x < y := by
  have hdated {v : Int} (hv : DatedMs v) : DatedSeconds (v / 1000) := by
    unfold DatedMs at hv
    unfold DatedSeconds
    omega
  have hts := hdated ht
  have hus := hdated hu
  rw [Int.tdiv_eq_ediv_of_nonneg ht.1,Int.tdiv_eq_ediv_of_nonneg hu.1,Int.tmod_eq_emod_of_nonneg ht.1,
    Int.tmod_eq_emod_of_nonneg hu.1,
    stamp_lt_iff (hg.valid _ hts) (hg.valid _ hus) (gmtime_year hg hts) (gmtime_year hg hus) (by omega) (by omega)]
  have hct := hg.counts _ hts
  have hcu := hg.counts _ hus
  rw [show (gmtime (t / 1000)).seconds * 1000 + (t % 1000).toNat < (gmtime (u / 1000)).seconds * 1000 + (u % 1000).toNat ↔
    t < u by omega,show (gmtime (t / 1000)).seconds * 1000 + (t % 1000).toNat =
    (gmtime (u / 1000)).seconds * 1000 + (u % 1000).toNat ↔ t = u by omega]

end

def collisionSuffix (collisionIndex : Nat) : Bytes :=
  (if 0 < collisionIndex then ascii "_" ++ padded 3 collisionIndex else []) ++ ascii ".mp4"

theorem collisionSuffix_zero : collisionSuffix 0 = 46 :: ascii "mp4" := rfl

theorem collisionSuffix_pos {i : Nat} (h : 0 < i) : collisionSuffix i = 95 :: (padded 3 i ++ ascii ".mp4") := by
  rw [collisionSuffix,if_pos h]
  rfl

theorem collisionSuffix_lt_iff {i j : Nat} (hi : i < 1000) (hj : j < 1000) :
    collisionSuffix i < collisionSuffix j ↔ i < j := by
  rcases Nat.eq_zero_or_pos i with rfl | hi0 <;> rcases Nat.eq_zero_or_pos j with rfl | hj0
  · exact iff_of_false (List.lt_irrefl _) (Nat.lt_irrefl _)
  · -- the dot of the plain name comes before the underscore
    rw [collisionSuffix_zero,collisionSuffix_pos hj0,List.cons_lt_cons_iff]
    exact iff_of_true (.inl (by decide)) hj0
  · rw [collisionSuffix_zero,collisionSuffix_pos hi0,List.cons_lt_cons_iff]
    exact iff_of_false (by simp) (Nat.not_lt_zero _)
  · rw [collisionSuffix_pos hi0,collisionSuffix_pos hj0,List.cons_lt_cons_self,
      padded_append_lt_iff (by decide) hi hj]
    simp [List.lt_irrefl]

theorem collisionSuffix_inj {i j : Nat} (h : collisionSuffix i = collisionSuffix j) : i = j := by
  rcases Nat.eq_zero_or_pos i with rfl | hi <;> rcases Nat.eq_zero_or_pos j with rfl | hj
  · rfl
  · rw [collisionSuffix_zero,collisionSuffix_pos hj] at h
    simp at h
  · rw [collisionSuffix_zero,collisionSuffix_pos hi] at h
    simp at h
  · rw [collisionSuffix_pos hi,collisionSuffix_pos hj] at h
    exact padded_inj (List.append_cancel_right (List.tail_eq_of_cons_eq h))

theorem pathJoin_inj {base name other : Bytes} (h : pathJoin base name = pathJoin base other) : name = other := by
  unfold pathJoin at h
  split at h
  · exact List.append_cancel_left h
  · exact List.tail_eq_of_cons_eq (List.append_cancel_left h)

theorem pathJoin_lt_iff (base name other : Bytes) : pathJoin base name < pathJoin base other ↔ name < other := by
  unfold pathJoin
  split
  · exact append_left_lt_iff base name other
  · rw [append_left_lt_iff,List.cons_lt_cons_self]

theorem toDecimal_mem {v : Int} {b : UInt8} (h : b ∈ toDecimal v) : b = 45 ∨ isDigit b = true := by
  have hdigits := List.all_eq_true.mp (decimal_all v.natAbs)
  unfold toDecimal at h
  split at h
  · rcases List.mem_cons.mp h with rfl | h
    · exact .inl rfl
    · exact .inr (hdigits b h)
  · exact .inr (hdigits b h)

theorem toDecimal_inj {v w : Int} (h : toDecimal v = toDecimal w) : v = w := by
  have hvalue {m n : Nat} (h : decimal m = decimal n) : m = n := by
    rw [← digitsValue_decimal m,h,digitsValue_decimal]
  have hsign {m n : Nat} : 45 :: decimal m ≠ decimal n := fun h => by
    have := List.all_eq_true.mp (decimal_all n) 45 (by simp [← h])
    exact absurd this (by decide)
  unfold toDecimal at h
  split at h <;> split at h
  · have := hvalue (List.tail_eq_of_cons_eq h)
    omega
  · exact absurd h hsign
  · exact absurd h.symm hsign
  · have := hvalue h
    omega

section

variable (gmtime : Int → CivilTime) (config : ChannelIngestConfig)

theorem buildSegmentPath_eq (utcMs : Int) (collisionIndex : Nat) :
    buildSegmentPath gmtime config utcMs collisionIndex =
      pathJoin config.outputDir (ascii "ch" ++ (toDecimal config.channelId ++ 95 ::
        (stamp (gmtime (utcMs.tdiv 1000)) (utcMs.tmod 1000).toNat ++ collisionSuffix collisionIndex))) := by
  simp only [buildSegmentPath,stamp,collisionSuffix,List.append_assoc]
  rfl

-- the loop of on_format_segment_location, from an index on
def freeLocation (existing : Bytes → Bool) (utcMs : Int) : Nat → UInt32 → Option Bytes
  | 0,_ => none
  | fuel + 1,collisionIndex =>
      let location := buildSegmentPath gmtime config utcMs collisionIndex.toNat
      if existing location then freeLocation existing utcMs fuel (collisionIndex + 1) else some location

def onFormatSegmentLocation (existing : Bytes → Bool) (utcMs : Int) (fuel : Nat) : Option Bytes :=
  freeLocation gmtime config existing utcMs fuel 0

variable {gmtime config}

theorem freeLocation_least {existing : Bytes → Bool} {utcMs : Int} {k : Nat} (hk : k < 2 ^ 32)
    (hfree : existing (buildSegmentPath gmtime config utcMs k) = false)
    (htaken : ∀ j < k, existing (buildSegmentPath gmtime config utcMs j) = true) {fuel i : Nat} (hi : i ≤ k)
    (hfuel : k - i < fuel) :
    freeLocation gmtime config existing utcMs fuel (UInt32.ofNat i) =
      some (buildSegmentPath gmtime config utcMs k) := by
  induction fuel generalizing i with
  | zero => omega
  | succ fuel ih =>
    have hindex : (UInt32.ofNat i).toNat = i := UInt32.toNat_ofNat_of_lt' (Nat.lt_of_le_of_lt hi hk)
    rw [freeLocation,hindex]
    rcases Nat.eq_or_lt_of_le hi with rfl | hlt
    · simp [hfree]
    · rw [show UInt32.ofNat i + 1 = UInt32.ofNat (i + 1) by simp]
      simp only [htaken i hlt,if_true]
      exact ih hlt (by omega)

theorem freeLocation_built {existing : Bytes → Bool} {utcMs : Int} {fuel : Nat} {i : UInt32} {location : Bytes}
    (h : freeLocation gmtime config existing utcMs fuel i = some location) :
    ∃ k, location = buildSegmentPath gmtime config utcMs k := by
  induction fuel generalizing i with
  | zero => cases h
  | succ fuel ih =>
    rw [freeLocation] at h
    split at h
    · exact ih h
    · exact ⟨i.toNat,(Option.some.inj h).symm⟩

theorem onFormatSegmentLocation_handsOut {existing : Bytes → Bool} {utcMs : Int} {fuel : Nat} {location : Bytes}
    (h : onFormatSegmentLocation gmtime config existing utcMs fuel = some location) (w : ChannelIngest) (a : Attempt)
    (place : Attempt → IngestPoint) :
    ∃ collisionIndex, w.callback gmtime config a place (.formatLocation utcMs (some collisionIndex)) =
      some ([.handsOut location],w) := by
  obtain ⟨k,rfl⟩ := freeLocation_built h
  exact ⟨k,rfl⟩

variable (hg : GregorianUtc gmtime)

include hg

theorem buildSegmentPath_inj {other : ChannelIngestConfig} (hdir : config.outputDir = other.outputDir) {t u : Int}
    (ht : DatedMs t) (hu : DatedMs u) {i j : Nat}
    (h : buildSegmentPath gmtime config t i = buildSegmentPath gmtime other u j) :
    config.channelId = other.channelId ∧ t = u ∧ i = j := by
  have hplain {v : Int} : 95 ∉ toDecimal v := fun hmem => by
    rcases toDecimal_mem hmem with h | h <;> exact absurd h (by decide)
  rw [buildSegmentPath_eq,buildSegmentPath_eq,hdir] at h
  obtain ⟨hchannel,hrest⟩ := (Search.split_first hplain hplain).mp (List.append_cancel_left (pathJoin_inj h))
  have hlt := stamped_lt_iff hg ht hu (collisionSuffix i) (collisionSuffix j)
  have hgt := stamped_lt_iff hg hu ht (collisionSuffix j) (collisionSuffix i)
  rw [hrest] at hlt hgt
  simp only [List.lt_irrefl,false_iff,not_or] at hlt hgt
  obtain rfl : t = u := by omega
  exact ⟨toDecimal_inj hchannel,rfl,collisionSuffix_inj (List.append_cancel_left hrest)⟩

end

theorem exists_least_free {α : Type} [DecidableEq α] {path : Nat → α} (hpath : Function.Injective path)
    (files : Finset α) : ∃ k ≤ files.card, path k ∉ files ∧ ∀ j < k, path j ∈ files := by
  have hcard : files.card < ((Finset.range (files.card + 1)).image path).card := by
    rw [Finset.card_image_of_injective _ hpath,Finset.card_range]
    exact Nat.lt_succ_self _
  obtain ⟨_,hmem,hfree⟩ := Finset.exists_mem_notMem_of_card_lt_card hcard
  obtain ⟨n,hn,rfl⟩ := Finset.mem_image.mp hmem
  have hsome : ∃ n, path n ∉ files := ⟨n,hfree⟩
  refine ⟨Nat.find hsome,?_,Nat.find_spec hsome,fun j hj => not_not.mp (Nat.find_min hsome hj)⟩
  exact Nat.le_trans (Nat.find_min' hsome hfree) (Nat.lt_succ_iff.mp (Finset.mem_range.mp hn))

theorem segment_names_fresh {gmtime : Int → CivilTime} (hg : GregorianUtc gmtime) :
    (∀ config other : ChannelIngestConfig, config.outputDir = other.outputDir →
      ∀ t u, DatedMs t → DatedMs u → ∀ i j : Nat,
        buildSegmentPath gmtime config t i = buildSegmentPath gmtime other u j →
          config.channelId = other.channelId ∧ t = u ∧ i = j) ∧
      ∀ (config : ChannelIngestConfig) (t : Int), DatedMs t → ∀ files : Finset Bytes, files.card < 2 ^ 32 →
        ∃ k < 2 ^ 32,
          (∀ fuel, k < fuel → onFormatSegmentLocation gmtime config (fun path => decide (path ∈ files)) t fuel =
            some (buildSegmentPath gmtime config t k)) ∧
          buildSegmentPath gmtime config t k ∉ files ∧ ∀ j < k, buildSegmentPath gmtime config t j ∈ files := by
  refine ⟨fun config other hdir t u ht hu i j h => buildSegmentPath_inj hg hdir ht hu h,?_⟩
  intro config t ht files hfiles
  have hpath : Function.Injective (buildSegmentPath gmtime config t) := fun i j h =>
    (buildSegmentPath_inj hg rfl ht ht h).2.2
  obtain ⟨k,hk,hfree,htaken⟩ := exists_least_free hpath files
  have hk32 := Nat.lt_of_le_of_lt hk hfiles
  refine ⟨k,hk32,fun fuel hfuel => ?_,hfree,htaken⟩
  exact freeLocation_least hk32 (by simp [hfree]) (fun j hj => by simp [htaken j hj]) (Nat.zero_le k) hfuel

def civilFields (days second : Nat) : CivilTime :=
  let date := dateOf days
  ⟨date.year,date.month,date.day,second / 3600,second / 60 % 60,second % 60⟩

theorem civilFields_valid (days : Nat) {second : Nat} (h : second < 86400) : (civilFields days second).Valid := by
  refine ⟨(dateOf_number days).1,?_,Nat.mod_lt _ (by decide),Nat.mod_lt _ (by decide)⟩
  show second / 3600 < 24
  omega

theorem civilFields_seconds (days second : Nat) : (civilFields days second).seconds = days * 86400 + second := by
  have hdate : (civilFields days second).date.number = days := (dateOf_number days).2
  rw [CivilTime.seconds,hdate]
  show ((days * 24 + second / 3600) * 60 + second / 60 % 60) * 60 + second % 60 = _
  omega

def civilTime (t : Int) : CivilTime := civilFields (yearStart 1970 + t.toNat / 86400) (t.toNat % 86400)

theorem civilTime_gregorian : GregorianUtc civilTime := by
  refine ⟨fun t _ => civilFields_valid _ (Nat.mod_lt _ (by decide)),fun t ht => ?_⟩
  have := ht.1
  rw [civilTime,civilFields_seconds]
  omega

def recordingConfig : ChannelIngestConfig := ⟨ascii "/rec",0,1,.h264,2000⟩

theorem segment_names_fresh_civil :
    onFormatSegmentLocation civilTime recordingConfig
      (fun path => decide (path ∈ ({buildSegmentPath civilTime recordingConfig 60001 0} : Finset Bytes))) 60001 2 =
      some (buildSegmentPath civilTime recordingConfig 60001 1) := by
  have hdated : DatedMs 60001 := ⟨by decide,by decide⟩
  obtain ⟨hinj,hfresh⟩ := segment_names_fresh civilTime_gregorian
  obtain ⟨k,-,hloop,hfree,htaken⟩ := hfresh recordingConfig 60001 hdated
    {buildSegmentPath civilTime recordingConfig 60001 0} (by rw [Finset.card_singleton]; decide)
  have hpos : k ≠ 0 := by
    rintro rfl
    exact hfree (Finset.mem_singleton_self _)
  have hone : ¬ 1 < k := fun h => by
    have := hinj _ _ rfl _ _ hdated hdated _ _ (Finset.mem_singleton.mp (htaken 1 h))
    exact absurd this.2.2 (by decide)
  obtain rfl : k = 1 := by omega
  exact hloop 2 (by decide)

example : buildSegmentPath civilTime recordingConfig 60001 1 = ascii "/rec/ch1_19700101T000100.001Z_001.mp4" := by
  decide +kernel

theorem segment_names_sorted {gmtime : Int → CivilTime} (hg : GregorianUtc gmtime) (config : ChannelIngestConfig)
    {t u : Int} (ht : DatedMs t) (hu : DatedMs u) {i j : Nat} (hi : i ≤ 999) (hj : j ≤ 999) :
    buildSegmentPath gmtime config t i < buildSegmentPath gmtime config u j ↔ t < u ∨ t = u ∧ i < j := by
  rw [buildSegmentPath_eq,buildSegmentPath_eq,pathJoin_lt_iff,append_left_lt_iff,append_left_lt_iff,
    List.cons_lt_cons_self,stamped_lt_iff hg ht hu,
    collisionSuffix_lt_iff (Nat.lt_succ_of_le hi) (Nat.lt_succ_of_le hj)]

theorem segment_names_sorted_civil :
    buildSegmentPath civilTime recordingConfig 60001 0 < buildSegmentPath civilTime recordingConfig 60001 999 ∧
      buildSegmentPath civilTime recordingConfig 60001 999 < buildSegmentPath civilTime recordingConfig 60002 0 := by
  have hdated {t : Int} (h : 0 ≤ t) (h' : t < 60003) : DatedMs t := ⟨h,by omega⟩
  exact ⟨(segment_names_sorted civilTime_gregorian recordingConfig (hdated (by decide) (by decide))
      (hdated (by decide) (by decide)) (by decide) (by decide)).mpr (by decide),
    (segment_names_sorted civilTime_gregorian recordingConfig (hdated (by decide) (by decide))
      (hdated (by decide) (by decide)) (by decide) (by decide)).mpr (by decide)⟩

end RpiVms

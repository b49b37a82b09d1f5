import RpiVms.Library.Scan
import RpiVms.Rtsp.Headers

namespace RpiVms

open Search Segments Scan

def isDelimiter (b : UInt8) : Bool := b == 47 || b == 32 || b == 9 || b == 13 || b == 10

def findFirstOf (p : UInt8 → Bool) (s : Bytes) : Option Nat := findSuffix (fun t => t.head?.any p) s

-- the first '@', if it stands before the end of the authority
def userinfoEnd (rest : Bytes) : Option Nat :=
  match find [64] rest with
  | none => none
  | some sign =>
      match findFirstOf isDelimiter rest with
      | none => some sign
      | some authorityEnd => if sign < authorityEnd then some sign else none

def redactedSign : Bytes := ascii "<redacted>@"

-- what stands before search_from is done with, so only the text from there on is carried
def redactLoop (scheme : Bytes) : Nat → Bytes → Bytes
  | 0,text => text
  | fuel + 1,text =>
      match find scheme (lowerCopy text) with
      | none => text
      | some searchFrom =>
          let start := searchFrom + scheme.length
          match userinfoEnd (text.drop start) with
          | some sign => text.take start ++ (redactedSign ++ redactLoop scheme fuel (text.drop (start + sign + 1)))
          | none => text.take start ++ redactLoop scheme fuel (text.drop start)

def redactScheme (scheme text : Bytes) : Bytes := redactLoop scheme text.length text

def rtspScheme : Bytes := ascii "rtsp://"

def rtspsScheme : Bytes := ascii "rtsps://"

def redactUriUserinfo (text : Bytes) : Bytes := redactScheme rtspsScheme (redactScheme rtspScheme text)

def logLine (line : Bytes) : Bytes :=
  if startsWithCi line (ascii "Authorization:") then ascii "Authorization: <redacted>\n"
  else if startsWithCi line (ascii "Proxy-Authorization:") then ascii "Proxy-Authorization: <redacted>\n"
  else redactUriUserinfo line ++ ascii "\n"

def loggedLines (message : Bytes) : List Bytes := (segments crlf (messageHeaderPart message)).1

def sanitizedRtspForLog (message : Bytes) : Bytes := (loggedLines message).flatMap logLine

def signBefore (delimits : UInt8 → Bool) (rest : Bytes) : Option Nat :=
  match find [64] rest with
  | none => none
  | some sign =>
      match findFirstOf delimits rest with
      | none => some sign
      | some authorityEnd => if sign < authorityEnd then some sign else none

theorem userinfoEnd_signBefore (rest : Bytes) : userinfoEnd rest = signBefore isDelimiter rest := rfl

theorem userinfoEnd_skip {b : UInt8} (hb : b ≠ 64) (hd : isDelimiter b = false) (s : Bytes) :
    userinfoEnd (b :: s) = (userinfoEnd s).map (· + 1) := by
  have hfind : find [64] (b :: s) = (find [64] s).map (· + 1) := by
    simp [find,findSuffix,Ne.symm hb]
  have hfirst : findFirstOf isDelimiter (b :: s) = (findFirstOf isDelimiter s).map (· + 1) := by
    simp [findFirstOf,findSuffix,hd]
  unfold userinfoEnd
  rw [hfind,hfirst]
  cases find [64] s with
  | none => rfl
  | some sign =>
    cases findFirstOf isDelimiter s with
    | none => rfl
    | some authorityEnd =>
      simp only [Option.map_some,Nat.add_lt_add_iff_right]
      split <;> rfl

theorem userinfoEnd_sign {u : Bytes} (h : ∀ b ∈ u, b ≠ 64 ∧ isDelimiter b = false) (r : Bytes) :
    userinfoEnd (u ++ 64 :: r) = some u.length := by
  induction u with
  | nil =>
    have hfirst : findFirstOf isDelimiter (64 :: r) = (findFirstOf isDelimiter r).map (· + 1) := rfl
    rw [List.nil_append,userinfoEnd,hfirst]
    cases findFirstOf isDelimiter r <;> rfl
  | cons b u ih =>
    obtain ⟨hb,hd⟩ := h b (by simp)
    rw [List.cons_append,userinfoEnd_skip hb hd,ih fun c hc => h c (by simp [hc])]
    rfl

def authority (s : Bytes) : Bytes := s.takeWhile (!isDelimiter ·)

theorem userinfoEnd_none {rest : Bytes} (h : (64 : UInt8) ∉ authority rest) : userinfoEnd rest = none := by
  induction rest with
  | nil => rfl
  | cons b s ih =>
    by_cases hd : isDelimiter b = true
    · have hfirst : findFirstOf isDelimiter (b :: s) = some 0 := by simp [findFirstOf,findSuffix,hd]
      rw [userinfoEnd,hfirst]
      cases find [64] (b :: s) <;> rfl
    · rw [Bool.not_eq_true] at hd
      have hcons : authority (b :: s) = b :: authority s := by simp [authority,hd]
      rw [hcons,List.mem_cons,not_or] at h
      rw [userinfoEnd_skip (Ne.symm h.1) hd,ih h.2]
      rfl

theorem authority_sign {s : Bytes} (h : (64 : UInt8) ∈ authority s) :
    ∃ u r, s = u ++ 64 :: r ∧ ∀ b ∈ u, b ≠ 64 ∧ isDelimiter b = false := by
  induction s with
  | nil => simp [authority] at h
  | cons b s ih =>
    by_cases hd : isDelimiter b = true
    · simp [authority,hd] at h
    · by_cases hb : b = 64
      · exact ⟨[],s,by rw [hb]; rfl,by simp⟩
      · rw [Bool.not_eq_true] at hd
        have hs : (64 : UInt8) ∈ authority s := by simpa [authority,hd,Ne.symm hb] using h
        obtain ⟨u,r,rfl,hu⟩ := ih hs
        refine ⟨b :: u,r,rfl,?_⟩
        rintro c (_ | ⟨_,hc⟩)
        · exact ⟨hb,hd⟩
        · exact hu c hc

theorem authority_closed {w : Bytes} {d : UInt8} (hd : isDelimiter d = true) (hw : d ∈ w) (s : Bytes) :
    authority (w ++ s) = authority w := by
  induction w with
  | nil => simp at hw
  | cons b w ih =>
    by_cases hb : isDelimiter b = true
    · simp [authority,hb]
    · have hdw : d ∈ w := by
        rcases List.mem_cons.mp hw with rfl | hdw
        · exact absurd hd hb
        · exact hdw
      have hrest := ih hdw
      simp only [authority] at hrest ⊢
      simp [hb,hrest]

def redactFrom (k : Nat) (s : Bytes) : Bytes × Bytes :=
  match userinfoEnd (s.drop k) with
  | some sign => (s.take k ++ redactedSign,s.drop (k + sign + 1))
  | none => (s.take k,s.drop k)

def redactBy (len : Bytes → Nat) (s : Bytes) : Option (Bytes × Bytes) :=
  if len s = 0 then none else some (redactFrom (len s) s)

def schemeAt (scheme s : Bytes) : Nat := if scheme.isPrefixOf (lowerCopy s) then scheme.length else 0

def schemeLength (s : Bytes) : Nat :=
  if schemeAt rtspScheme s = 0 then schemeAt rtspsScheme s else schemeAt rtspScheme s

-- a search that reads every byte through fold; toLower and id are the two that the sources make
def foldedAt (fold : UInt8 → UInt8) (scheme s : Bytes) : Nat :=
  if scheme.isPrefixOf (s.map fold) then scheme.length else 0

def foldedLength (fold : UInt8 → UInt8) (s : Bytes) : Nat :=
  if foldedAt fold rtspScheme s = 0 then foldedAt fold rtspsScheme s else foldedAt fold rtspScheme s

structure Folding (fold : UInt8 → UInt8) : Prop where
  below : ∀ {c : UInt8}, c < 65 → ∀ b, fold b = c ↔ b = c
  redacted : redactedSign.map fold = redactedSign

theorem toLower_folding : Folding toLower := ⟨toLower_below,by decide⟩

theorem id_folding : Folding id := ⟨fun _ _ => Iff.rfl,by decide⟩

section

variable {scheme s sch r : Bytes} {len : Bytes → Nat} {fold : UInt8 → UInt8}

theorem redactFrom_sign (sch r : Bytes) {u : Bytes} (h : ∀ b ∈ u, b ≠ 64 ∧ isDelimiter b = false) :
    redactFrom sch.length (sch ++ (u ++ 64 :: r)) = (sch ++ redactedSign,r) := by
  have hdrop : (sch ++ (u ++ 64 :: r)).drop (sch.length + u.length + 1) = r := by
    rw [← List.append_assoc,← List.singleton_append,← List.append_assoc]
    exact List.drop_left' (by simp; omega)
  rw [redactFrom,List.drop_left,userinfoEnd_sign h]
  simp only [hdrop,List.take_left]

theorem redactFrom_none (sch : Bytes) (h : (64 : UInt8) ∉ authority r) :
    redactFrom sch.length (sch ++ r) = (sch,r) := by
  simp [redactFrom,userinfoEnd_none h]

theorem redactBy_none (h : len s = 0) : redactBy len s = none := if_pos h

theorem redactBy_some (h : len s ≠ 0) : redactBy len s = some (redactFrom (len s) s) := if_neg h

theorem split_at_scheme (hlen : ∀ s, len s ≤ s.length) (h : len s ≠ 0) :
    ∃ sch r, s = sch ++ r ∧ sch ≠ [] ∧ len (sch ++ r) = sch.length := by
  have hl : (s.take (len s)).length = len s := List.length_take_of_le (hlen s)
  refine ⟨s.take (len s),s.drop (len s),(List.take_append_drop _ s).symm,?_,?_⟩
  · exact List.ne_nil_of_length_pos (by omega)
  · rw [List.take_append_drop,hl]

theorem redactBy_consumes (hlen : ∀ s, len s ≤ s.length) : Consumes (redactBy len) := by
  intro s out rest h
  have hk := hlen s
  unfold redactBy at h
  split at h
  · cases h
  · unfold redactFrom at h
    split at h <;> cases h <;> rw [List.length_drop] <;> omega

theorem foldedAt_none (h : ¬ scheme <+: s.map fold) : foldedAt fold scheme s = 0 := by
  rw [foldedAt,if_neg (by rwa [List.isPrefixOf_iff_prefix])]

theorem foldedAt_of_ne (h : foldedAt fold scheme s ≠ 0) :
    ∃ sch r, s = sch ++ r ∧ sch.map fold = scheme ∧ foldedAt fold scheme s = sch.length := by
  unfold foldedAt at h ⊢
  split at h
  case isFalse => exact absurd rfl h
  case isTrue hp =>
    obtain ⟨t,ht⟩ := List.isPrefixOf_iff_prefix.mp hp
    have hl := congrArg List.length ht
    simp only [List.length_append,List.length_map] at hl
    refine ⟨s.take scheme.length,s.drop scheme.length,(List.take_append_drop _ s).symm,?_,?_⟩
    · rw [List.map_take,← ht,List.take_left]
    · rw [if_pos hp,List.length_take]
      omega

theorem foldedAt_map (hne : sch ≠ []) (h : foldedAt fold scheme (sch ++ r) = sch.length) : sch.map fold = scheme := by
  have hpos := List.length_pos_iff.mpr hne
  obtain ⟨w,t,he,hl,hk⟩ := foldedAt_of_ne (show foldedAt fold scheme (sch ++ r) ≠ 0 by omega)
  rwa [(List.append_inj he (by omega)).1]

theorem foldedAt_append (h : sch.map fold = scheme) (r : Bytes) : foldedAt fold scheme (sch ++ r) = sch.length := by
  have hp : scheme <+: (sch ++ r).map fold := by
    rw [List.map_append,h]
    exact List.prefix_append _ _
  rw [foldedAt,if_pos (List.isPrefixOf_iff_prefix.mpr hp),← h,List.length_map]

theorem foldedAt_le (scheme s : Bytes) : foldedAt fold scheme s ≤ s.length := by
  by_cases h : foldedAt fold scheme s = 0
  · omega
  · obtain ⟨sch,r,rfl,-,hl⟩ := foldedAt_of_ne h
    rw [hl,List.length_append]
    omega

theorem foldedLength_le (s : Bytes) : foldedLength fold s ≤ s.length := by
  unfold foldedLength
  split
  · exact foldedAt_le _ _
  · exact foldedAt_le _ _

theorem foldedLength_zero :
    foldedLength fold s = 0 ↔ foldedAt fold rtspScheme s = 0 ∧ foldedAt fold rtspsScheme s = 0 := by
  unfold foldedLength
  split
  · rename_i h
    exact ⟨fun h' => ⟨h,h'⟩,And.right⟩
  · rename_i h
    exact ⟨fun h' => absurd h' h,fun h' => absurd h'.1 h⟩

theorem foldedLength_map (hne : sch ≠ []) (h : foldedLength fold (sch ++ r) = sch.length) :
    sch.map fold = rtspScheme ∨ sch.map fold = rtspsScheme := by
  unfold foldedLength at h
  split at h
  · exact .inr (foldedAt_map hne h)
  · exact .inl (foldedAt_map hne h)

def Apart (scheme w : Bytes) : Prop :=
  ∀ i < w.length, ¬ scheme <+: w.drop i ∧ ¬ w.drop i <+: scheme

instance (scheme w : Bytes) : Decidable (Apart scheme w) :=
  inferInstanceAs (Decidable (∀ i < w.length, ¬ scheme <+: w.drop i ∧ ¬ w.drop i <+: scheme))

theorem foldedAt_through {w : Bytes} (h : Apart scheme (w.map fold)) (t : Bytes) {i : Nat} (hi : i < w.length) :
    foldedAt fold scheme ((w ++ t).drop i) = 0 := by
  refine foldedAt_none fun hp => ?_
  have hd := h i (by rwa [List.length_map])
  rw [List.drop_append_of_le_length (by omega),List.map_append,List.map_drop] at hp
  rcases List.prefix_or_prefix_of_prefix hp (List.prefix_append _ _) with hc | hc
  · exact hd.1 hc
  · exact hd.2 hc

theorem foldedAt_before_sign (hfold : Folding fold) (hslash : (47 : UInt8) ∈ scheme)
    (hsign : (64 : UInt8) ∉ scheme) {u : Bytes} (hu : ∀ b ∈ u, isDelimiter b = false) (t : Bytes) {i : Nat}
    (hi : i < (u ++ [64]).length) : foldedAt fold scheme ((u ++ [64] ++ t).drop i) = 0 := by
  have hfree : find scheme (u.map fold) = none := by
    refine (find_none_iff_absent (List.ne_nil_of_mem hslash)).mpr fun hin => ?_
    obtain ⟨b,hb,he⟩ := List.mem_map.mp (hin.subset hslash)
    have hd := hu b hb
    rw [(hfold.below (by decide) b).mp he] at hd
    cases hd
  have h64 : fold 64 = 64 := (hfold.below (by decide) 64).mpr rfl
  refine foldedAt_none fun hp => ?_
  refine not_prefix_across (List.ne_nil_of_mem hslash) (List.cons_ne_nil 64 [])
    (fun x hx => by rwa [List.mem_singleton.mp hx]) hfree (t.map fold) (by simpa using hi) ?_
  rwa [List.map_drop,List.map_append,List.map_append,List.map_singleton,h64] at hp

theorem foldedLength_before_sign (hfold : Folding fold) {u : Bytes} (hu : ∀ b ∈ u, isDelimiter b = false)
    (t : Bytes) {i : Nat} (hi : i < (u ++ [64]).length) : foldedLength fold ((u ++ [64] ++ t).drop i) = 0 :=
  foldedLength_zero.mpr ⟨foldedAt_before_sign hfold (by decide) (by decide) hu t hi,
    foldedAt_before_sign hfold (by decide) (by decide) hu t hi⟩

theorem schemeLength_le (s : Bytes) : schemeLength s ≤ s.length := foldedLength_le s

theorem schemeLength_lower (hne : sch ≠ []) (h : schemeLength (sch ++ r) = sch.length) :
    lowerCopy sch = rtspScheme ∨ lowerCopy sch = rtspsScheme := foldedLength_map hne h

theorem schemeLength_before_sign {u : Bytes} (hu : ∀ b ∈ u, isDelimiter b = false) (t : Bytes) {i : Nat}
    (hi : i < (u ++ [64]).length) : schemeLength ((u ++ [64] ++ t).drop i) = 0 :=
  foldedLength_before_sign toLower_folding hu t hi

end

theorem redactBy_found {len : Bytes → Nat} {s out rest : Bytes} (h : redactBy len s = some (out,rest)) :
    len s ≠ 0 ∧ redactFrom (len s) s = (out,rest) := by
  unfold redactBy at h
  split at h
  · cases h
  · exact ⟨‹_›,Option.some.inj h⟩

theorem redactBy_skipped {len : Bytes → Nat} {s : Bytes} (h : redactBy len s = none) : len s = 0 := by
  unfold redactBy at h
  split at h
  · assumption
  · cases h

def pass (len : Bytes → Nat) (s : Bytes) : Bytes := scan (redactBy len) id s

section

variable {len : Bytes → Nat} {b : UInt8} {s sch r u w t : Bytes}

theorem pass_nil : pass len [] = [] := scan_nil

theorem pass_skip (w : Bytes) (h : ∀ i < w.length, len ((w ++ t).drop i) = 0) :
    pass len (w ++ t) = w ++ pass len t := by
  have hskip := scan_skip (f := redactBy len) (g := id) (t := t) w fun i hi => redactBy_none (h i hi)
  rwa [List.map_id] at hskip

theorem pass_cons (h : len (b :: s) = 0) : pass len (b :: s) = b :: pass len s :=
  scan_none (redactBy_none h)

theorem pass_found (hlen : ∀ s, len s ≤ s.length) (h : len s ≠ 0) :
    pass len s = (redactFrom (len s) s).1 ++ pass len (redactFrom (len s) s).2 :=
  scan_some (redactBy_consumes hlen) (redactBy_some h)

theorem pass_sign (hlen : ∀ s, len s ≤ s.length) (hu : ∀ b ∈ u, b ≠ 64 ∧ isDelimiter b = false)
    (hsch : sch ≠ []) (h : len (sch ++ (u ++ 64 :: r)) = sch.length) :
    pass len (sch ++ (u ++ 64 :: r)) = sch ++ (redactedSign ++ pass len r) := by
  have hpos := List.length_pos_iff.mpr hsch
  rw [pass_found hlen (by omega),h,redactFrom_sign sch r hu,List.append_assoc]

theorem pass_plain (hlen : ∀ s, len s ≤ s.length) (hr : (64 : UInt8) ∉ authority r)
    (hsch : sch ≠ []) (h : len (sch ++ r) = sch.length) :
    pass len (sch ++ r) = sch ++ pass len r := by
  have hpos := List.length_pos_iff.mpr hsch
  rw [pass_found hlen (by omega),h,redactFrom_none sch hr]

theorem pass_induction (hlen : ∀ s, len s ≤ s.length) {motive : Bytes → Prop} (nil : motive [])
    (skip : ∀ b s, len (b :: s) = 0 → motive s → motive (b :: s))
    (sign : ∀ sch u r, sch ≠ [] → len (sch ++ (u ++ 64 :: r)) = sch.length →
      (∀ b ∈ u, b ≠ 64 ∧ isDelimiter b = false) → motive r → motive (sch ++ (u ++ 64 :: r)))
    (plain : ∀ sch r, sch ≠ [] → len (sch ++ r) = sch.length → (64 : UInt8) ∉ authority r →
      motive r → motive (sch ++ r)) (s : Bytes) : motive s := by
  induction s using scan_induction (redactBy_consumes hlen) with
  | nil => exact nil
  | skip b s h ih => exact skip b s (redactBy_skipped h) ih
  | found s out rest h ih =>
    obtain ⟨hk,hr⟩ := redactBy_found h
    obtain ⟨sch,t,rfl,hne,hl⟩ := split_at_scheme hlen hk
    rw [hl] at hr
    by_cases h64 : (64 : UInt8) ∈ authority t
    · obtain ⟨u,r,rfl,hu⟩ := authority_sign h64
      rw [redactFrom_sign sch r hu] at hr
      cases hr
      exact sign sch u rest hne hl hu ih
    · rw [redactFrom_none sch h64] at hr
      cases hr
      exact plain out rest hne hl h64 ih

end

def redactWith (fold : UInt8 → UInt8) (delimits : UInt8 → Bool) (scheme : Bytes) : Nat → Bytes → Bytes
  | 0,text => text
  | fuel + 1,text =>
      match find scheme (text.map fold) with
      | none => text
      | some searchFrom =>
          let start := searchFrom + scheme.length
          match signBefore delimits (text.drop start) with
          | some sign =>
              text.take start ++ (redactedSign ++ redactWith fold delimits scheme fuel (text.drop (start + sign + 1)))
          | none => text.take start ++ redactWith fold delimits scheme fuel (text.drop start)

theorem redactLoop_with (scheme : Bytes) (fuel : Nat) (text : Bytes) :
    redactLoop scheme fuel text = redactWith toLower isDelimiter scheme fuel text := by
  induction fuel generalizing text with
  | zero => rfl
  | succ fuel ih =>
    simp only [redactLoop,redactWith,ih]
    rfl

theorem redactWith_pass {fold : UInt8 → UInt8} {scheme : Bytes} (hne : scheme ≠ []) (fuel : Nat) (text : Bytes)
    (h : text.length ≤ fuel) : redactWith fold isDelimiter scheme fuel text = pass (foldedAt fold scheme) text := by
  induction fuel generalizing text with
  | zero =>
    obtain rfl := List.eq_nil_of_length_eq_zero (Nat.le_zero.mp h)
    rfl
  | succ fuel ih =>
    have hquiet {i : Nat} (hi : ¬ scheme <+: (text.map fold).drop i) : foldedAt fold scheme (text.drop i) = 0 :=
      foldedAt_none (by rwa [List.map_drop])
    rw [redactWith]
    cases hf : find scheme (text.map fold) with
    | none =>
      have hskip := pass_skip (t := []) text fun i hi => by
        rw [List.append_nil]
        exact hquiet (find_eq_none.mp hf i (by rwa [List.length_map]))
      rw [List.append_nil,pass_nil,List.append_nil] at hskip
      exact hskip.symm
    | some n =>
      obtain ⟨hn,hp,hm⟩ := find_eq_some.mp hf
      rw [List.length_map] at hn
      have hk : foldedAt fold scheme (text.drop n) = scheme.length :=
        if_pos (List.isPrefixOf_iff_prefix.mpr (by rwa [List.map_drop]))
      have hpos := List.length_pos_iff.mpr hne
      have hskip := pass_skip (t := text.drop n) (text.take n) fun i hi => by
        rw [List.take_append_drop]
        exact hquiet (hm i (by rw [List.length_take] at hi; omega))
      rw [List.take_append_drop] at hskip
      rw [hskip,pass_found (foldedAt_le scheme) (by omega),hk]
      have htake : text.take (n + scheme.length) = text.take n ++ (text.drop n).take scheme.length :=
        List.take_add
      simp only [redactFrom,List.drop_drop,htake,← userinfoEnd_signBefore]
      cases userinfoEnd (text.drop (n + scheme.length)) with
      | none =>
        simp only [List.append_assoc]
        rw [ih _ (by rw [List.length_drop]; omega)]
      | some sign =>
        simp only [List.append_assoc]
        rw [ih _ (by rw [List.length_drop]; omega)]
        simp only [Nat.add_assoc]

section

variable {s sch : Bytes} {fold : UInt8 → UInt8} (hfold : Folding fold)

theorem scheme_length {w scheme : Bytes} (h : w.map fold = scheme) : w.length = scheme.length := by
  rw [← h,List.length_map]

theorem firstPass_front {p : Bytes → Bytes}
    (hp : ∀ w x y : Bytes, w.map fold = rtspScheme → p (w ++ x) = p (w ++ y))
    (hc : ∀ b x y, p x = p y → p (b :: x) = p (b :: y)) (s : Bytes) :
    p (pass (foldedAt fold rtspScheme) s) = p s := by
  induction s using pass_induction (@foldedAt_le fold rtspScheme) with
  | nil => rfl
  | skip b s h ih =>
    rw [pass_cons h]
    exact hc b _ _ ih
  | sign sch u r hne h hu =>
    rw [pass_sign (foldedAt_le _) hu hne h]
    exact hp _ _ _ (foldedAt_map hne h)
  | plain sch r hne h hr =>
    rw [pass_plain (foldedAt_le _) hr hne h]
    exact hp _ _ _ (foldedAt_map hne h)

theorem firstPass_take (s : Bytes) : (pass (foldedAt fold rtspScheme) s).take 7 = s.take 7 := by
  refine firstPass_front (p := List.take 7) (fun w x y hw => ?_) (fun b x y h => ?_) s
  · have hl : w.length = 7 := scheme_length hw
    rw [List.take_append_of_le_length (by omega),List.take_append_of_le_length (by omega)]
  · have h6 := congrArg (List.take 6) h
    rw [List.take_take,List.take_take] at h6
    exact congrArg (b :: ·) h6

theorem foldedAt_firstPass {b : UInt8} {s : Bytes} (h : foldedAt fold rtspsScheme (b :: s) = 0) :
    foldedAt fold rtspsScheme (b :: pass (foldedAt fold rtspScheme) s) = 0 := by
  by_contra hne
  obtain ⟨sch,r,hs,hl,hlen⟩ := foldedAt_of_ne hne
  have h8 : sch.length = 8 := scheme_length hl
  have htake : sch = (b :: s).take 8 := by
    have := congrArg (List.take 8) hs
    rw [List.take_left' h8,List.take_succ_cons,firstPass_take] at this
    exact this.symm
  rw [← List.take_append_drop 8 (b :: s),← htake,foldedAt_append hl,h8] at h
  cases h

theorem pass_before_sign {len : Bytes → Nat} {u t : Bytes}
    (h : ∀ i < (u ++ [64]).length, len ((u ++ [64] ++ t).drop i) = 0) :
    pass len (u ++ 64 :: t) = u ++ 64 :: pass len t := by
  simpa using pass_skip (u ++ [64]) h

theorem pass_through {scheme w : Bytes} (h : Apart scheme (w.map fold)) (t : Bytes) :
    pass (foldedAt fold scheme) (w ++ t) = w ++ pass (foldedAt fold scheme) t :=
  pass_skip w fun _ hi => foldedAt_through h t hi

include hfold

theorem scheme_slash {w scheme : Bytes} (h : w.map fold = scheme) (hs : (47 : UInt8) ∈ scheme) : 47 ∈ w := by
  rw [← h] at hs
  obtain ⟨b,hb,he⟩ := List.mem_map.mp hs
  rwa [(hfold.below (by decide) b).mp he] at hb

theorem firstPass_authority (s : Bytes) : authority (pass (foldedAt fold rtspScheme) s) = authority s := by
  refine firstPass_front (fun w x y hw => ?_) (fun b x y h => ?_) s
  · have hslash := scheme_slash hfold hw (by decide)
    rw [authority_closed rfl hslash,authority_closed rfl hslash]
  · simp only [authority,List.takeWhile_cons] at h ⊢
    rw [h]

theorem passes_join (s : Bytes) :
    pass (foldedAt fold rtspsScheme) (pass (foldedAt fold rtspScheme) s) = pass (foldedLength fold) s := by
  induction s using pass_induction (@foldedLength_le fold) with
  | nil => rfl
  | skip b s h ih =>
    obtain ⟨h1,h2⟩ := foldedLength_zero.mp h
    rw [pass_cons h1,pass_cons h,pass_cons (foldedAt_firstPass h2),ih]
  | sign sch u r hne h hu ih =>
    rw [pass_sign foldedLength_le hu hne h,← ih]
    rcases foldedLength_map hne h with hl | hl
    · have hout : Apart rtspsScheme ((sch ++ redactedSign).map fold) := by
        rw [List.map_append,hl,hfold.redacted]
        decide
      rw [pass_sign (foldedAt_le _) hu hne (foldedAt_append hl _),← List.append_assoc,pass_through hout,
        List.append_assoc]
    · rw [pass_through (by rw [hl]; decide),
        pass_before_sign fun i hi =>
          foldedAt_before_sign hfold (by decide) (by decide) (fun b hb => (hu b hb).2) r hi,
        pass_sign (foldedAt_le _) hu hne (foldedAt_append hl _)]
  | plain sch r hne h hr ih =>
    rw [pass_plain foldedLength_le hr hne h,← ih]
    rcases foldedLength_map hne h with hl | hl
    · rw [pass_plain (foldedAt_le _) hr hne (foldedAt_append hl _),pass_through (by rw [hl]; decide)]
    · have hr' : (64 : UInt8) ∉ authority (pass (foldedAt fold rtspScheme) r) := by
        rwa [firstPass_authority hfold]
      rw [pass_through (by rw [hl]; decide),pass_plain (foldedAt_le _) hr' hne (foldedAt_append hl _)]

theorem redactWith_both (text : Bytes) :
    redactWith fold isDelimiter rtspsScheme (redactWith fold isDelimiter rtspScheme text.length text).length
      (redactWith fold isDelimiter rtspScheme text.length text) = pass (foldedLength fold) text := by
  rw [redactWith_pass (by decide) _ _ (Nat.le_refl _),redactWith_pass (by decide) _ _ (Nat.le_refl _),
    passes_join hfold]

end

theorem redactUriUserinfo_pass (text : Bytes) : redactUriUserinfo text = pass schemeLength text := by
  rw [redactUriUserinfo,redactScheme,redactScheme,redactLoop_with,redactLoop_with]
  exact redactWith_both toLower_folding text

end RpiVms

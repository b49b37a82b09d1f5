import Mathlib.Data.List.Forall2
import RpiVms.Rtsp.Redaction

namespace RpiVms

open Search Segments Scan

def userinfoOf : Bytes → Option Bytes
  | [] => none
  | b :: s =>
      match userinfoOf s with
      | some u => some (b :: u)
      | none => if b = 64 then some [] else none

theorem userinfoOf_none {s : Bytes} (h : userinfoOf s = none) : (64 : UInt8) ∉ s := by
  induction s with
  | nil => simp
  | cons b s ih =>
    cases hs : userinfoOf s with
    | some u => simp [userinfoOf,hs] at h
    | none =>
      have hb : b ≠ 64 := by simpa [userinfoOf,hs] using h
      simpa [Ne.symm hb] using ih hs

theorem userinfoOf_some {s u : Bytes} (h : userinfoOf s = some u) : ∃ x, s = u ++ 64 :: x ∧ (64 : UInt8) ∉ x := by
  induction s generalizing u with
  | nil => cases h
  | cons b s ih =>
    cases hs : userinfoOf s with
    | some v =>
      rw [userinfoOf,hs] at h
      cases h
      obtain ⟨x,rfl,hx⟩ := ih hs
      exact ⟨x,rfl,hx⟩
    | none =>
      simp only [userinfoOf,hs] at h
      split at h
      · rename_i hb
        cases h
        exact ⟨s,by rw [hb]; rfl,userinfoOf_none hs⟩
      · cases h

inductive Span where
  | byte (b : UInt8)
  | userinfo (u : Bytes)
  deriving DecidableEq, Repr

def spanAt (s : Bytes) : Option (List Span × Bytes) :=
  let k := schemeLength s
  if k = 0 then none
  else match userinfoOf (authority (s.drop k)) with
    | some u => some ((s.take k).map .byte ++ [.userinfo u],s.drop (k + u.length))
    | none => some ((s.take k).map .byte,s.drop k)

def spans (line : Bytes) : List Span := scan spanAt .byte line

theorem spanAt_consumes : Consumes spanAt := by
  intro s out rest h
  have hk := schemeLength_le s
  unfold spanAt at h
  simp only at h
  split at h
  · cases h
  · split at h <;> cases h <;> rw [List.length_drop] <;> omega

section

variable {b : UInt8} {s sch u r : Bytes}

theorem authority_userinfo (h : userinfoOf (authority r) = some u) :
    (∃ x, r = u ++ 64 :: x) ∧ ∀ b ∈ u, isDelimiter b = false := by
  obtain ⟨x,hx,-⟩ := userinfoOf_some h
  refine ⟨⟨x ++ r.dropWhile (!isDelimiter ·),?_⟩,fun b hb => ?_⟩
  · have := List.takeWhile_append_dropWhile (p := (!isDelimiter ·)) (l := r)
    rw [← authority,hx] at this
    simpa using this.symm
  · have hin : b ∈ authority r := by rw [hx]; simp [hb]
    simpa using List.mem_takeWhile_imp hin

theorem spanAt_sign (hne : sch ≠ []) (hk : schemeLength (sch ++ (u ++ r)) = sch.length)
    (h : userinfoOf (authority (u ++ r)) = some u) :
    spanAt (sch ++ (u ++ r)) = some (sch.map .byte ++ [.userinfo u],r) := by
  have hpos := List.length_pos_iff.mpr hne
  have hdrop : (sch ++ (u ++ r)).drop (sch.length + u.length) = r := by
    rw [← List.append_assoc]
    exact List.drop_left' (by simp)
  unfold spanAt
  simp only [hk,List.drop_left,h,List.take_left,hdrop]
  exact if_neg (by omega)

theorem spanAt_plain (hne : sch ≠ []) (hk : schemeLength (sch ++ r) = sch.length)
    (h : userinfoOf (authority r) = none) : spanAt (sch ++ r) = some (sch.map .byte,r) := by
  have hpos := List.length_pos_iff.mpr hne
  unfold spanAt
  simp only [hk,List.drop_left,h,List.take_left]
  exact if_neg (by omega)

theorem spans_cons (h : schemeLength (b :: s) = 0) : spans (b :: s) = .byte b :: spans s :=
  scan_none (if_pos h)

theorem spans_sign (hne : sch ≠ []) (hk : schemeLength (sch ++ (u ++ r)) = sch.length)
    (h : userinfoOf (authority (u ++ r)) = some u) :
    spans (sch ++ (u ++ r)) = sch.map .byte ++ .userinfo u :: spans r := by
  rw [spans,scan_some spanAt_consumes (spanAt_sign hne hk h),List.append_assoc]
  rfl

theorem spans_plain (hne : sch ≠ []) (hk : schemeLength (sch ++ r) = sch.length)
    (h : userinfoOf (authority r) = none) : spans (sch ++ r) = sch.map .byte ++ spans r :=
  scan_some spanAt_consumes (spanAt_plain hne hk h)

theorem spans_induction {motive : Bytes → Prop} (nil : motive [])
    (skip : ∀ b s, schemeLength (b :: s) = 0 → motive s → motive (b :: s))
    (sign : ∀ sch u r, sch ≠ [] → schemeLength (sch ++ (u ++ r)) = sch.length →
      userinfoOf (authority (u ++ r)) = some u → motive r → motive (sch ++ (u ++ r)))
    (plain : ∀ sch r, sch ≠ [] → schemeLength (sch ++ r) = sch.length → userinfoOf (authority r) = none →
      motive r → motive (sch ++ r)) (s : Bytes) : motive s := by
  induction s using scan_induction spanAt_consumes with
  | nil => exact nil
  | skip b s h ih =>
    refine skip b s ?_ ih
    unfold spanAt at h
    simp only at h
    split at h
    · assumption
    · split at h <;> cases h
  | found s out rest h ih =>
    have hk : schemeLength s ≠ 0 := by
      intro hz
      rw [spanAt,if_pos hz] at h
      cases h
    obtain ⟨sch,t,rfl,hne,hl⟩ := split_at_scheme schemeLength_le hk
    cases hu : userinfoOf (authority t) with
    | none =>
      rw [spanAt_plain hne hl hu] at h
      cases h
      exact plain sch rest hne hl hu ih
    | some u =>
      obtain ⟨⟨x,rfl⟩,-⟩ := authority_userinfo hu
      rw [spanAt_sign hne hl hu] at h
      cases h
      exact sign sch u _ hne hl hu ih

end

def Span.text : Span → Bytes
  | .byte b => [b]
  | .userinfo u => u

def leak (u : Bytes) : Bytes := u.dropWhile (· != 64)

def Span.shown : Span → Bytes
  | .byte b => [b]
  | .userinfo u => ascii "<redacted>" ++ leak u

theorem flatMap_bytes {f : Span → Bytes} (hf : ∀ b, f (.byte b) = [b]) (w : Bytes) :
    (w.map Span.byte).flatMap f = w := by
  induction w with
  | nil => rfl
  | cons b w ih => rw [List.map_cons,List.flatMap_cons,hf,ih,List.singleton_append]

theorem text_bytes (w : Bytes) : (w.map Span.byte).flatMap Span.text = w := flatMap_bytes (fun _ => rfl) w

theorem shown_bytes (w : Bytes) : (w.map Span.byte).flatMap Span.shown = w := flatMap_bytes (fun _ => rfl) w

theorem spans_text (line : Bytes) : (spans line).flatMap Span.text = line := by
  induction line using spans_induction with
  | nil => rfl
  | skip b s h ih => rw [spans_cons h,List.flatMap_cons,ih]; rfl
  | sign sch u r hne hk h ih =>
    rw [spans_sign hne hk h,List.flatMap_append,text_bytes,List.flatMap_cons,ih]
    rfl
  | plain sch r hne hk h ih => rw [spans_plain hne hk h,List.flatMap_append,text_bytes,ih]

theorem pass_from_sign (t : Bytes) : pass schemeLength (64 :: t) = 64 :: pass schemeLength t :=
  pass_before_sign (u := []) fun _ hi => schemeLength_before_sign (by simp) t hi

theorem redactUriUserinfo_spans (line : Bytes) : redactUriUserinfo line = (spans line).flatMap Span.shown := by
  rw [redactUriUserinfo_pass]
  induction line using spans_induction with
  | nil => rfl
  | skip b s h ih => rw [spans_cons h,pass_cons h,List.flatMap_cons,ih]; rfl
  | plain sch r hne hk h ih =>
    rw [spans_plain hne hk h,List.flatMap_append,shown_bytes,← ih]
    exact pass_plain schemeLength_le (userinfoOf_none h) hne hk
  | sign sch u r hne hk h ih =>
    rw [spans_sign hne hk h,List.flatMap_append,shown_bytes,List.flatMap_cons,← ih]
    obtain ⟨⟨x,hx⟩,hu⟩ := authority_userinfo h
    obtain rfl := List.append_cancel_left hx
    rw [pass_from_sign]
    have hsplit := List.takeWhile_append_dropWhile (p := (· != (64 : UInt8))) (l := u)
    have hhead : ∀ b ∈ u.takeWhile (· != (64 : UInt8)), b ≠ 64 ∧ isDelimiter b = false := fun b hb =>
      ⟨by simpa using List.mem_takeWhile_imp hb,hu b ((List.takeWhile_prefix _).subset hb)⟩
    have hsign : redactedSign = ascii "<redacted>" ++ [64] := by decide
    have hshown : (Span.userinfo u).shown = ascii "<redacted>" ++ u.dropWhile (· != 64) := rfl
    have hfirst := List.head?_dropWhile_not (p := (· != (64 : UInt8))) (l := u)
    rw [hshown]
    cases hd : u.dropWhile (· != (64 : UInt8)) with
    | nil =>
      rw [hd,List.append_nil] at hsplit
      rw [hsplit] at hhead
      rw [pass_sign schemeLength_le hhead hne hk,hsign]
      simp
    | cons c v =>
      rw [hd] at hfirst hsplit
      obtain rfl : c = 64 := by simpa using hfirst
      have hv : ∀ b ∈ v, isDelimiter b = false := fun b hb => hu b (by rw [← hsplit]; simp [hb])
      have hfull : u ++ 64 :: x = u.takeWhile (· != 64) ++ 64 :: (v ++ 64 :: x) := by
        rw [← List.cons_append,← List.append_assoc,hsplit]
      rw [hfull] at hk ⊢
      rw [pass_sign schemeLength_le hhead hne hk,hsign,
        pass_before_sign fun i hi => schemeLength_before_sign hv x hi]
      simp

def Hosted : List Span → Prop
  | [] => True
  | .byte b :: ts => isDelimiter b = true ∨ Hosted ts
  | .userinfo _ :: _ => False

def Formed : List Span → Prop
  | [] => True
  | .byte _ :: ts => Formed ts
  | .userinfo u :: ts => (∀ b ∈ u, isDelimiter b = false) ∧ Hosted ts ∧ Formed ts

theorem hosted_bytes {w : Bytes} {d : UInt8} (hd : isDelimiter d = true) (hw : d ∈ w) (ts : List Span) :
    Hosted (w.map .byte ++ ts) := by
  induction w with
  | nil => simp at hw
  | cons b w ih =>
    rcases List.mem_cons.mp hw with rfl | hw
    · exact .inl hd
    · exact .inr (ih hw)

theorem spans_hosted (line : Bytes) : Hosted (spans line) := by
  have hslash {sch r : Bytes} (hne : sch ≠ []) (hk : schemeLength (sch ++ r) = sch.length) : (47 : UInt8) ∈ sch := by
    rcases schemeLength_lower hne hk with hl | hl
    · exact scheme_slash toLower_folding hl (by decide)
    · exact scheme_slash toLower_folding hl (by decide)
  induction line using spans_induction with
  | nil => trivial
  | skip b s h ih =>
    rw [spans_cons h]
    exact .inr ih
  | sign sch u r hne hk h =>
    rw [spans_sign hne hk h]
    exact hosted_bytes rfl (hslash hne hk) _
  | plain sch r hne hk h =>
    rw [spans_plain hne hk h]
    exact hosted_bytes rfl (hslash hne hk) _

theorem formed_bytes (w : Bytes) {ts : List Span} (h : Formed ts) : Formed (w.map .byte ++ ts) := by
  induction w with
  | nil => exact h
  | cons b w ih => exact ih

theorem spans_formed (line : Bytes) : Formed (spans line) := by
  induction line using spans_induction with
  | nil => trivial
  | skip b s h ih =>
    rw [spans_cons h]
    exact ih
  | sign sch u r hne hk h ih =>
    rw [spans_sign hne hk h]
    exact formed_bytes sch ⟨(authority_userinfo h).2,spans_hosted r,ih⟩
  | plain sch r hne hk h ih =>
    rw [spans_plain hne hk h]
    exact formed_bytes sch ih

theorem Hosted.append {ts : List Span} (h : Hosted ts) {d : UInt8} (hd : isDelimiter d = true) (more : List Span) :
    Hosted (ts ++ .byte d :: more) := by
  induction ts with
  | nil => exact .inl hd
  | cons t ts ih =>
    cases t with
    | byte b => exact h.imp_right ih
    | userinfo u => exact h.elim

theorem Formed.append {ts more : List Span} (h : Formed ts) {d : UInt8} (hd : isDelimiter d = true)
    (hm : Formed more) : Formed (ts ++ .byte d :: more) := by
  induction ts with
  | nil => exact hm
  | cons t ts ih =>
    cases t with
    | byte b => exact ih h
    | userinfo u => exact ⟨h.1,h.2.1.append hd more,ih h.2.2⟩

def Span.Alike : Span → Span → Prop
  | .byte b,.byte c => b = c
  | .userinfo u,.userinfo v => u = [] ↔ v = []
  | _,_ => False

instance (t t' : Span) : Decidable (t.Alike t') :=
  match t,t' with
  | .byte b,.byte c => inferInstanceAs (Decidable (b = c))
  | .userinfo u,.userinfo v => inferInstanceAs (Decidable (u = [] ↔ v = []))
  | .byte _,.userinfo _ => isFalse id
  | .userinfo _,.byte _ => isFalse id

def Span.SameLeak : Span → Span → Prop
  | .byte b,.byte c => b = c
  | .userinfo u,.userinfo v => leak u = leak v
  | _,_ => False

theorem authority_stop {x : Bytes} (hx : ∀ b ∈ x, isDelimiter b = false) {d : UInt8} (hd : isDelimiter d = true)
    (s : Bytes) : authority (x ++ d :: s) = x := by
  rw [authority,List.takeWhile_append_of_pos fun b hb => by simpa using hx b hb]
  simp [hd]

section

variable {ts ts' : List Span}

theorem Hosted.shown_eq (h : Hosted ts) (ha : List.Forall₂ Span.Alike ts ts') {x y : Bytes}
    (hx : ∀ b ∈ x, isDelimiter b = false) (hy : ∀ b ∈ y, isDelimiter b = false)
    (he : x ++ ts.flatMap Span.shown = y ++ ts'.flatMap Span.shown) : x = y := by
  induction ha generalizing x y with
  | nil => simpa using he
  | @cons t t' ts ts' ht ha ih =>
    match t,t',ht with
    | .userinfo u,_,_ => exact h.elim
    | .byte b,.byte c,ht =>
      obtain rfl : b = c := ht
      have he' : x ++ b :: ts.flatMap Span.shown = y ++ b :: ts'.flatMap Span.shown := he
      by_cases hb : isDelimiter b = true
      · rw [← authority_stop hx hb (ts.flatMap Span.shown),he',authority_stop hy hb]
      · have hext {z : Bytes} (hz : ∀ b ∈ z, isDelimiter b = false) : ∀ c ∈ z ++ [b], isDelimiter c = false := by
          intro c hc
          rcases List.mem_append.mp hc with hc | hc
          · exact hz c hc
          · rw [List.mem_singleton.mp hc]
            simpa using hb
        have := ih (h.resolve_left hb) (hext hx) (hext hy) (by simpa using he')
        exact List.append_cancel_right this

theorem leak_undelimited {u : Bytes} (h : ∀ b ∈ u, isDelimiter b = false) : ∀ b ∈ leak u, isDelimiter b = false :=
  fun b hb => h b ((List.dropWhile_suffix _).subset hb)

theorem shown_eq_iff (h : Formed ts) (h' : Formed ts') (ha : List.Forall₂ Span.Alike ts ts') :
    ts.flatMap Span.shown = ts'.flatMap Span.shown ↔ List.Forall₂ Span.SameLeak ts ts' := by
  induction ha with
  | nil => exact ⟨fun _ => .nil,fun _ => rfl⟩
  | @cons t t' ts ts' ht ha ih =>
    rw [List.forall₂_cons,List.flatMap_cons,List.flatMap_cons]
    match t,t',ht with
    | .byte b,.byte c,ht =>
      obtain rfl : b = c := ht
      rw [← ih h h']
      exact ⟨fun he => ⟨rfl,List.append_cancel_left he⟩,fun he => by rw [he.2]⟩
    | .userinfo u,.userinfo v,_ =>
      rw [← ih h.2.2 h'.2.2]
      constructor
      · intro he
        have hcut : leak u ++ ts.flatMap Span.shown = leak v ++ ts'.flatMap Span.shown := by
          refine (List.append_right_inj (ascii "<redacted>")).mp ?_
          simpa [Span.shown] using he
        have hleak := h.2.1.shown_eq ha (leak_undelimited h.1) (leak_undelimited h'.1) hcut
        rw [hleak] at hcut
        exact ⟨hleak,List.append_cancel_left hcut⟩
      · rintro ⟨hleak,hrest⟩
        have hleak' : leak u = leak v := hleak
        rw [hrest,Span.shown,Span.shown,hleak']

end

def credentialHeaders : List Bytes := [ascii "Authorization:",ascii "Proxy-Authorization:"]

def isAuthorization (line : Bytes) : Bool := credentialHeaders.any (startsWithCi line ·)

def Span.userinfo? : Span → Option Bytes
  | .byte _ => none
  | .userinfo u => some u

def userinfos (line : Bytes) : List Bytes := (spans line).filterMap Span.userinfo?

def AlikeLine (a b : Bytes) : Prop :=
  (∃ name ∈ credentialHeaders, startsWithCi a name = true ∧ a.take name.length = b.take name.length) ∨
    (isAuthorization a = false ∧ isAuthorization b = false ∧ List.Forall₂ Span.Alike (spans a) (spans b))

instance (a b : Bytes) : Decidable (AlikeLine a b) :=
  inferInstanceAs (Decidable (_ ∨ _))

def SameLeaks (a b : Bytes) : Prop :=
  isAuthorization a = true ∨ (userinfos a).map leak = (userinfos b).map leak

instance (a b : Bytes) : Decidable (SameLeaks a b) :=
  inferInstanceAs (Decidable (_ ∨ _))

def messageLines (message : Bytes) : List Bytes :=
  (segments crlf message).1 ++ [(segments crlf message).2]

def upToEmpty : List Bytes → List Bytes
  | [] => []
  | l :: ls => if l = [] then [l] else l :: upToEmpty ls

def headLines : List Bytes → List Bytes
  | [] => []
  | l :: ls => l :: upToEmpty ls

def SameButSecrets (m m' : Bytes) : Prop := List.Forall₂ AlikeLine (messageLines m) (messageLines m')

instance (m m' : Bytes) : Decidable (SameButSecrets m m') :=
  inferInstanceAs (Decidable (List.Forall₂ AlikeLine (messageLines m) (messageLines m')))

def lineSpans (line : Bytes) : List Span :=
  if startsWithCi line (ascii "Authorization:") then (ascii "Authorization: <redacted>\n").map .byte
  else if startsWithCi line (ascii "Proxy-Authorization:") then (ascii "Proxy-Authorization: <redacted>\n").map .byte
  else spans line ++ [.byte 10]

section

variable {a b l m m' rest : Bytes} {ls : List Bytes}

theorem logLine_spans (line : Bytes) : logLine line = (lineSpans line).flatMap Span.shown := by
  unfold logLine lineSpans
  split
  · rw [shown_bytes]
  · split
    · rw [shown_bytes]
    · rw [List.flatMap_append,redactUriUserinfo_spans]
      rfl

theorem lineSpans_formed (lines : List Bytes) : Formed (lines.flatMap lineSpans) := by
  induction lines with
  | nil => trivial
  | cons l ls ih =>
    rw [List.flatMap_cons,lineSpans]
    split
    · exact formed_bytes _ ih
    · split
      · exact formed_bytes _ ih
      · rw [List.append_assoc]
        exact (spans_formed l).append rfl ih

theorem not_authorization (h : isAuthorization l = false) :
    startsWithCi l (ascii "Authorization:") = false ∧ startsWithCi l (ascii "Proxy-Authorization:") = false := by
  simpa [isAuthorization,credentialHeaders] using h

theorem lineSpans_other (h : isAuthorization l = false) : lineSpans l = spans l ++ [.byte 10] := by
  obtain ⟨h1,h2⟩ := not_authorization h
  simp [lineSpans,h1,h2]

theorem startsWithCi_exclusive (h : startsWithCi l (ascii "Proxy-Authorization:") = true) :
    startsWithCi l (ascii "Authorization:") = false := by
  obtain ⟨hlen,hl⟩ := startsWithCi_eq h
  have hshort : (l.take (ascii "Proxy-Authorization:").length).length = 20 := List.length_take_of_le hlen
  rw [← List.take_append_drop (ascii "Proxy-Authorization:").length l]
  refine startsWithCi_differs _ ?_
  rw [lowerCopy,List.map_take,← lowerCopy,hl,hshort]
  decide

theorem lineSpans_credentials {name : Bytes} (hn : name ∈ credentialHeaders) (ha : startsWithCi a name = true)
    (h : a.take name.length = b.take name.length) :
    ∃ w : Bytes, lineSpans a = w.map .byte ∧ lineSpans b = w.map .byte := by
  have hb : startsWithCi b name = true := by rw [← startsWithCi_take h,ha]
  simp only [credentialHeaders,List.mem_cons,List.not_mem_nil,or_false] at hn
  rcases hn with rfl | rfl
  · exact ⟨ascii "Authorization: <redacted>\n",if_pos ha,if_pos hb⟩
  · have hline {l : Bytes} (hl : startsWithCi l (ascii "Proxy-Authorization:") = true) :
        lineSpans l = (ascii "Proxy-Authorization: <redacted>\n").map .byte := by
      rw [lineSpans,if_neg (by rw [startsWithCi_exclusive hl]; decide),if_pos hl]
    exact ⟨_,hline ha,hline hb⟩

theorem forall₂_append_iff {α β : Type} {R : α → β → Prop} {x y : List α} {x' y' : List β}
    (h : x.length = x'.length) :
    List.Forall₂ R (x ++ y) (x' ++ y') ↔ List.Forall₂ R x x' ∧ List.Forall₂ R y y' := by
  constructor
  · intro hr
    have ht := List.forall₂_take x.length hr
    have hd := List.forall₂_drop x.length hr
    rw [List.take_left,h,List.take_left] at ht
    rw [List.drop_left,h,List.drop_left] at hd
    exact ⟨ht,hd⟩
  · exact fun hr => List.rel_append hr.1 hr.2

theorem sameLeak_iff {ts ts' : List Span} (h : List.Forall₂ Span.Alike ts ts') :
    List.Forall₂ Span.SameLeak ts ts' ↔
      (ts.filterMap Span.userinfo?).map leak = (ts'.filterMap Span.userinfo?).map leak := by
  induction h with
  | nil => exact ⟨fun _ => rfl,fun _ => .nil⟩
  | @cons t t' ts ts' ht ha ih =>
    rw [List.forall₂_cons,ih]
    match t,t',ht with
    | .byte b,.byte c,ht => exact ⟨And.right,fun he => ⟨ht,he⟩⟩
    | .userinfo u,.userinfo v,_ =>
      simp only [List.filterMap_cons,Span.userinfo?,List.map_cons,List.cons.injEq]
      exact Iff.rfl

theorem AlikeLine.spans_alike (h : AlikeLine a b) : List.Forall₂ Span.Alike (lineSpans a) (lineSpans b) := by
  rcases h with ⟨name,hn,ha,he⟩ | ⟨ha,hb,he⟩
  · obtain ⟨w,hwa,hwb⟩ := lineSpans_credentials hn ha he
    rw [hwa,hwb,List.forall₂_same]
    intro t ht
    obtain ⟨b,-,rfl⟩ := List.mem_map.mp ht
    exact rfl
  · rw [lineSpans_other ha,lineSpans_other hb]
    exact List.rel_append he (.cons rfl .nil)

theorem AlikeLine.leaks_iff (h : AlikeLine a b) :
    List.Forall₂ Span.SameLeak (lineSpans a) (lineSpans b) ↔ SameLeaks a b := by
  rw [sameLeak_iff h.spans_alike,SameLeaks]
  rcases h with ⟨name,hn,ha,he⟩ | ⟨ha,hb,-⟩
  · obtain ⟨w,hwa,hwb⟩ := lineSpans_credentials hn ha he
    rw [hwa,hwb]
    exact ⟨fun _ => .inl (List.any_eq_true.mpr ⟨name,hn,ha⟩),fun _ => rfl⟩
  · rw [lineSpans_other ha,lineSpans_other hb,List.filterMap_append,List.filterMap_append,ha]
    simp [userinfos,Span.userinfo?]

theorem AlikeLine.nil_iff (h : AlikeLine a b) : a = [] ↔ b = [] := by
  rcases h with ⟨name,hn,ha,he⟩ | ⟨-,-,he⟩
  · have hpos : 0 < name.length := by
      simp only [credentialHeaders,List.mem_cons,List.not_mem_nil,or_false] at hn
      rcases hn with rfl | rfl <;> decide
    have hlong {l : Bytes} (hl : startsWithCi l name = true) : l ≠ [] :=
      List.ne_nil_of_length_pos (hpos.trans_le (startsWithCi_eq hl).1)
    exact iff_of_false (hlong ha) (hlong (by rw [← startsWithCi_take he,ha]))
  · have hnil {l : Bytes} : l = [] ↔ spans l = [] := by
      refine ⟨fun h => by rw [h]; rfl,fun h => ?_⟩
      rw [← spans_text l,h]
      rfl
    have hl := he.length_eq
    rw [hnil,hnil,← List.length_eq_zero_iff,hl,List.length_eq_zero_iff]

theorem headLines_alike {ls ls' : List Bytes} (h : List.Forall₂ AlikeLine ls ls') :
    List.Forall₂ AlikeLine (headLines ls) (headLines ls') := by
  have hup {ls ls' : List Bytes} (h : List.Forall₂ AlikeLine ls ls') :
      List.Forall₂ AlikeLine (upToEmpty ls) (upToEmpty ls') := by
    induction h with
    | nil => exact .nil
    | @cons l l' ls ls' hl _ ih =>
      rw [upToEmpty,upToEmpty]
      by_cases he : l = []
      · rw [if_pos he,if_pos (hl.nil_iff.mp he)]
        exact .cons hl .nil
      · rw [if_neg he,if_neg (mt hl.nil_iff.mpr he)]
        exact .cons hl ih
  cases h with
  | nil => exact .nil
  | cons hl hls => exact .cons hl (hup hls)

theorem lines_leak_iff {ls ls' : List Bytes} (h : List.Forall₂ AlikeLine ls ls') :
    List.Forall₂ Span.SameLeak (ls.flatMap lineSpans) (ls'.flatMap lineSpans) ↔ List.Forall₂ SameLeaks ls ls' := by
  induction h with
  | nil => exact iff_of_true .nil .nil
  | cons hl _ ih =>
    rw [List.flatMap_cons,List.flatMap_cons,forall₂_append_iff hl.spans_alike.length_eq,hl.leaks_iff,ih,
      List.forall₂_cons]

theorem lines_alike {ls ls' : List Bytes} (h : List.Forall₂ AlikeLine ls ls') :
    List.Forall₂ Span.Alike (ls.flatMap lineSpans) (ls'.flatMap lineSpans) := by
  induction h with
  | nil => exact .nil
  | cons hl _ ih => exact List.rel_append hl.spans_alike ih

theorem messageHeaderPart_line (hl : Plain l) (hr : ¬ crlf <+: rest) :
    messageHeaderPart (l ++ crlf ++ rest) = l ++ crlf ++ messageHeaderPart rest := by
  rw [messageHeaderPart,messageHeaderPart,find_headerEnd_line hl hr]
  cases find headerEnd rest with
  | none => rfl
  | some n =>
    simp only [Option.map_some,Nat.add_assoc]
    exact List.take_length_add_append _

theorem messageHeaderPart_blank (hl : Plain l) (rest : Bytes) :
    messageHeaderPart (l ++ crlf ++ (crlf ++ rest)) = l ++ crlf ++ crlf := by
  rw [messageHeaderPart,find_headerEnd_blank hl,List.append_assoc,List.append_assoc]
  exact List.take_length_add_append 4

theorem crlf_starts (hls : ∀ l ∈ ls, Plain l) (ht : Plain rest) (h : crlf <+: ls.flatMap (· ++ crlf) ++ rest) :
    ∃ ls', ls = [] :: ls' := by
  rcases ls with _ | ⟨_ | ⟨b,l⟩,ls⟩
  · have hpos : 0 < rest.length := Nat.lt_of_lt_of_le (by decide) h.length_le
    exact absurd h (find_eq_none.mp ht 0 hpos)
  · exact ⟨ls,rfl⟩
  · rw [List.flatMap_cons,List.append_assoc] at h
    exact absurd h (not_crlf_first (hls (b :: l) (by simp)) (List.cons_ne_nil b l) _)

theorem loggedLines_lines (ls : List Bytes) (hls : ∀ l ∈ ls, Plain l) (ht : Plain rest) :
    loggedLines (ls.flatMap (· ++ crlf) ++ rest) = headLines ls := by
  induction ls with
  | nil =>
    have hwhole : messageHeaderPart rest <+: rest := by
      unfold messageHeaderPart
      split
      · exact List.prefix_refl _
      · exact List.take_prefix _ _
    rw [List.flatMap_nil,List.nil_append,loggedLines,segments_of_none (ht.infix_of hwhole.isInfix)]
    rfl
  | cons l ls ih =>
    have hl : Plain l := hls l (by simp)
    have hls' : ∀ k ∈ ls, Plain k := fun k hk => hls k (by simp [hk])
    rw [List.flatMap_cons,List.append_assoc,loggedLines]
    by_cases h : crlf <+: ls.flatMap (· ++ crlf) ++ rest
    · obtain ⟨ls',rfl⟩ := crlf_starts hls' ht h
      rw [List.flatMap_cons,List.nil_append,List.append_assoc crlf,messageHeaderPart_blank hl,
        segments_append (by decide) (clean_iff_plain.mpr hl)]
      rfl
    · have hstart : headLines ls = upToEmpty ls := by
        rcases ls with _ | ⟨_ | ⟨b,k⟩,ls⟩
        · rfl
        · simp at h
        · rfl
      rw [messageHeaderPart_line hl h,segments_append (by decide) (clean_iff_plain.mpr hl),← loggedLines,ih hls',
        hstart]
      rfl

theorem loggedLines_eq (m : Bytes) : loggedLines m = headLines (segments crlf m).1 := by
  have hlines : ∀ l ∈ (segments crlf m).1, Plain l := fun l hl =>
    clean_iff_plain.mp (segments_clean (by decide) m l hl)
  have := loggedLines_lines _ hlines (segments_rest (by decide) m)
  rwa [segments_join (by decide)] at this

theorem SameButSecrets.head (h : SameButSecrets m m') :
    List.Forall₂ AlikeLine (headLines (segments crlf m).1) (headLines (segments crlf m').1) := by
  have hl := h.length_eq
  simp only [messageLines,List.length_append,List.length_singleton] at hl
  exact headLines_alike ((forall₂_append_iff (by omega)).mp h).1

end

theorem log_hides_credentials_iff (m m' : Bytes) (h : SameButSecrets m m') :
    sanitizedRtspForLog m = sanitizedRtspForLog m' ↔
      List.Forall₂ SameLeaks (headLines (segments crlf m).1) (headLines (segments crlf m').1) := by
  have hlog (m : Bytes) :
      sanitizedRtspForLog m = ((headLines (segments crlf m).1).flatMap lineSpans).flatMap Span.shown := by
    rw [sanitizedRtspForLog,loggedLines_eq,List.flatMap_assoc]
    exact congrArg (List.flatMap · _) (funext logLine_spans)
  rw [hlog,hlog,shown_eq_iff (lineSpans_formed _) (lineSpans_formed _) (lines_alike h.head),lines_leak_iff h.head]

def optionsWith (userinfo credentials : Bytes) : Bytes :=
  ascii "OPTIONS rtsp://" ++ userinfo ++ ascii "@camera/ch1 RTSP/1.0\r\nCSeq: 1\r\nAuthorization: " ++ credentials ++
    ascii "\r\n\r\n"

theorem one_sign_hidden :
    SameButSecrets (optionsWith (ascii "user:secret") (ascii "Basic dXNlcg=="))
        (optionsWith (ascii "admin:other") (ascii "Digest x")) ∧
      sanitizedRtspForLog (optionsWith (ascii "user:secret") (ascii "Basic dXNlcg==")) =
        sanitizedRtspForLog (optionsWith (ascii "admin:other") (ascii "Digest x")) := by
  have hsame : SameButSecrets (optionsWith (ascii "user:secret") (ascii "Basic dXNlcg=="))
      (optionsWith (ascii "admin:other") (ascii "Digest x")) := by decide +kernel
  exact ⟨hsame,(log_hides_credentials_iff _ _ hsame).mpr (by decide +kernel)⟩

theorem second_sign_logged :
    SameButSecrets (optionsWith (ascii "user:p@ss1") []) (optionsWith (ascii "user:p@ss2") []) ∧
      sanitizedRtspForLog (optionsWith (ascii "user:p@ss1") []) ≠
        sanitizedRtspForLog (optionsWith (ascii "user:p@ss2") []) := by
  decide +kernel

end RpiVms

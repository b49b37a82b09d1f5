import RpiVms.Live.Requests

namespace RpiVms

open Search

def opensQuery (b : UInt8) : Bool := b == 63 || b == 35

def schemeMark : Bytes := ascii "://"

structure Origin where
  scheme : Bytes
  authority : Bytes
  plain : ∀ b ∈ scheme ++ authority, b ≠ 47 ∧ opensQuery b = false

structure Query where
  mark : UInt8
  tail : Bytes
  opens : opensQuery mark = true

structure RequestTarget where
  origin : Option Origin
  path : Bytes
  query : Option Query
  pathPlain : ∀ b ∈ path, opensQuery b = false
  pathUnmarked : ¬ schemeMark <:+: path

def Origin.text (o : Origin) : Bytes := o.scheme ++ (schemeMark ++ o.authority)

def Query.text (q : Query) : Bytes := q.mark :: q.tail

namespace RequestTarget

def originText (t : RequestTarget) : Bytes := (t.origin.map Origin.text).getD []

def queryText (t : RequestTarget) : Bytes := (t.query.map Query.text).getD []

def text (t : RequestTarget) : Bytes := t.originText ++ (t.path ++ t.queryText)

end RequestTarget

def NamesChannel (path : Bytes) (c : Nat) : Prop :=
  ∃ digits rest, path = ascii "/ch" ++ (digits ++ rest) ∧ digits ≠ [] ∧ digits.all isDigit = true ∧
    digitsValue digits = c ∧ (rest = [] ∨ rest.head? = some 47)

def RoutedTo (target path : Bytes) : Prop :=
  (∀ c : Nat, 1 ≤ c → c ≤ 4 → (parsePublicChannelId target = c ↔ NamesChannel path c)) ∧
    ((∀ c : Nat, 1 ≤ c → c ≤ 4 → ¬ NamesChannel path c) → parsePublicChannelId target = -1)

def fromSlash (s : Bytes) : Bytes := s.dropWhile (· != 47)

def upToQuery (s : Bytes) : Bytes := s.takeWhile (!opensQuery ·)

def SameChannel (p q : Bytes) : Prop := ∀ c : Nat, 1 ≤ c → c ≤ 4 → (NamesChannel p c ↔ NamesChannel q c)

-- the part of parse_public_channel_id behind the choice of the path
def channelOfPath (path : Bytes) : Int :=
  if path.length < 4 || path.take 3 != ascii "/ch" then -1
  else
    let digits := (path.drop 3).takeWhile isDigit
    let after := (path.drop 3).dropWhile isDigit
    if digits.isEmpty || (!after.isEmpty && after.head? != some 47) then -1
    else
      match stoi digits with
      | .ok r => if 1 ≤ r.value && r.value ≤ 4 then r.value else -1
      | .error _ => -1

theorem parsePublicChannelId_eq (target : Bytes) :
    parsePublicChannelId target = channelOfPath (upToQuery (requestPath target)) := rfl

theorem channelOfPath_named {path : Bytes} {c : Nat} (hc : 1 ≤ c ∧ c ≤ 4) (h : NamesChannel path c) :
    channelOfPath path = c := by
  obtain ⟨digits,rest,rfl,hne,hd,hv,hr⟩ := h
  have hstop : ∀ b, rest.head? = some b → isDigit b = false := by
    rintro b hb
    rcases hr with rfl | hr
    · cases hb
    · cases hb.symm.trans hr
      rfl
  obtain ⟨htake,hdrop⟩ := digits_span hd hstop
  have hpos := List.length_pos_iff.mpr hne
  have hthree : (ascii "/ch").length = 3 := rfl
  have hstoi := stoi_digits hne hd
  rw [if_pos (by rw [hv,intMax]; omega)] at hstoi
  have hpath : ((ascii "/ch" ++ (digits ++ rest)).length < 4 || (ascii "/ch" ++ (digits ++ rest)).take 3 != ascii "/ch") =
      false := by
    rw [List.take_left' hthree]
    simp only [List.length_append,hthree,bne_self_eq_false,Bool.or_false,decide_eq_false_iff_not]
    omega
  have hafter : (digits.isEmpty || (!rest.isEmpty && rest.head? != some 47)) = false := by
    rcases hr with rfl | hr
    · simpa using hne
    · simp [hne,hr]
  simp only [channelOfPath,hpath,Bool.false_eq_true,if_false,List.drop_left' hthree,htake,hdrop,hafter,hstoi,hv]
  rw [if_pos (by simp; omega)]

theorem named_of_channelOfPath {path : Bytes} {c : Nat} (h : channelOfPath path = c) : NamesChannel path c := by
  have hneg : (-1 : Int) ≠ c := by omega
  unfold channelOfPath at h
  split at h
  · exact absurd h hneg
  rename_i hpath
  simp only at h
  split at h
  · exact absurd h hneg
  rename_i hafter
  simp only [Bool.or_eq_true,decide_eq_true_eq,bne_iff_ne,not_or,not_lt,ne_eq,not_not] at hpath
  simp only [Bool.or_eq_true,Bool.and_eq_true,Bool.not_eq_true',List.isEmpty_iff,bne_iff_ne,ne_eq,not_or,not_and,
    not_not] at hafter
  have hall : ((path.drop 3).takeWhile isDigit).all isDigit = true := List.all_takeWhile
  have hstoi := stoi_digits hafter.1 hall
  refine ⟨(path.drop 3).takeWhile isDigit,(path.drop 3).dropWhile isDigit,?_,hafter.1,hall,?_,?_⟩
  · rw [List.takeWhile_append_dropWhile,← hpath.2,List.take_append_drop]
  · rw [hstoi] at h
    split at h
    · rename_i hok
      split at hok
      · cases hok
        split at h
        · exact Int.ofNat.inj h
        · exact absurd h hneg
      · cases hok
    · exact absurd h hneg
  · by_cases hr : (path.drop 3).dropWhile isDigit = []
    · exact .inl hr
    · exact .inr (hafter.2 (by simpa using hr))

theorem channelOfPath_eq_iff {path : Bytes} {c : Nat} (h1 : 1 ≤ c) (h4 : c ≤ 4) :
    channelOfPath path = c ↔ NamesChannel path c :=
  ⟨named_of_channelOfPath,channelOfPath_named ⟨h1,h4⟩⟩

theorem routedTo_iff {target chosen path : Bytes} (h : parsePublicChannelId target = channelOfPath chosen) :
    RoutedTo target path ↔ SameChannel chosen path := by
  constructor
  · rintro ⟨hnamed,-⟩ c h1 h4
    rw [← channelOfPath_eq_iff h1 h4,← h]
    exact hnamed c h1 h4
  · intro hsame
    refine ⟨fun c h1 h4 => ?_,fun hnone => ?_⟩
    · rw [h,channelOfPath_eq_iff h1 h4]
      exact hsame c h1 h4
    · rcases parsePublicChannelId_range target with hr | ⟨h1,h4⟩
      · exact hr
      · obtain ⟨c,hc⟩ := Int.eq_ofNat_of_zero_le (by omega : 0 ≤ parsePublicChannelId target)
        rw [hc] at h1 h4
        refine absurd ?_ (hnone c (by omega) (by omega))
        exact (hsame c (by omega) (by omega)).mp (named_of_channelOfPath (h.symm.trans hc))

theorem not_named_of_unrooted {path : Bytes} (h : path.head? ≠ some 47) (c : Nat) : ¬ NamesChannel path c := by
  rintro ⟨digits,rest,rfl,-⟩
  exact h rfl

section

variable {target : Bytes} {n : Nat}

theorem parse_marked (h : find schemeMark target = some n) :
    parsePublicChannelId target = channelOfPath (upToQuery (fromSlash (target.drop (n + 3)))) := by
  have h' : find (ascii "://") target = some n := h
  have hone : find (ascii "/") (target.drop (n + 3)) = find [47] (target.drop (n + 3)) := rfl
  rw [parsePublicChannelId_eq,requestPath,h']
  simp only [hone]
  rcases @find_singleton _ _ 47 (target.drop (n + 3)) with ⟨hn,hd⟩ | ⟨k,hn,hd⟩
  · rw [hn,fromSlash,hd]
    rfl
  · rw [hn,fromSlash,← hd,List.drop_drop]

theorem parse_unmarked (h : find schemeMark target = none) :
    parsePublicChannelId target = channelOfPath (upToQuery target) := by
  have h' : find (ascii "://") target = none := h
  rw [parsePublicChannelId_eq,requestPath,h']

end

namespace RequestTarget

variable (t : RequestTarget)

theorem upToQuery_path : upToQuery (t.path ++ t.queryText) = t.path := by
  have hpath : ∀ b ∈ t.path, (!opensQuery b) = true := fun b hb => by simp [t.pathPlain b hb]
  have hquery : t.queryText.takeWhile (!opensQuery ·) = [] := by
    unfold queryText
    cases t.query with
    | none => rfl
    | some q => simp [Query.text,q.opens]
  rw [upToQuery,List.takeWhile_append_of_pos hpath,hquery,List.append_nil]

theorem find_behind_path :
    find schemeMark (t.path ++ t.queryText) = (find schemeMark t.queryText).map (t.path.length + ·) := by
  have hpath := (find_none_iff_absent (by decide)).mpr t.pathUnmarked
  unfold queryText
  cases t.query with
  | none => exact (congrArg _ (List.append_nil t.path)).trans hpath
  | some q =>
    have hmark : ∀ x ∈ [q.mark], x ∉ schemeMark := by
      have hq := q.opens
      simp only [opensQuery,Bool.or_eq_true,beq_iff_eq] at hq
      rintro x hx
      rw [List.mem_singleton.mp hx]
      rcases hq with hq | hq <;> rw [hq] <;> decide
    have hempty := find_past (l := []) (by decide) (by simp) hmark rfl q.tail
    have hlong := find_past (by decide) (by simp) hmark hpath q.tail
    simp only [List.nil_append,List.append_assoc,List.singleton_append] at hempty hlong
    simp only [Option.map_some,Option.getD_some,Query.text,hlong,hempty,Option.map_map]
    refine congrArg (Option.map · _) (funext fun k => ?_)
    simp
    omega

end RequestTarget

theorem Origin.find_mark (o : Origin) (rest : Bytes) :
    find schemeMark (o.text ++ rest) = some o.scheme.length := by
  have hno : ∀ b ∈ o.scheme, b ≠ 47 := fun b hb => (o.plain b (by simp [hb])).1
  have hmark : find schemeMark (schemeMark ++ (o.authority ++ rest)) = some 0 := rfl
  rw [Origin.text,List.append_assoc,List.append_assoc]
  refine find_skip (fun m hm hp => ?_) hmark
  rw [List.drop_append_of_le_length hm.le] at hp
  have hne : o.scheme.drop m ≠ [] := by
    rw [Ne,List.drop_eq_nil_iff]
    omega
  have hdrop : ∀ b ∈ o.scheme.drop m, b ≠ 47 := fun b hb => hno b (List.mem_of_mem_drop hb)
  generalize o.scheme.drop m = w at hp hne hdrop
  match w with
  | [a] =>
    have hsecond := (List.cons_prefix_cons.mp (List.cons_prefix_cons.mp hp).2).1
    exact absurd hsecond (by decide)
  | a :: b :: w =>
    have hsecond := (List.cons_prefix_cons.mp (List.cons_prefix_cons.mp hp).2).1
    exact hdrop b (by simp) hsecond.symm

theorem RequestTarget.parse_origin (t : RequestTarget) {o : Origin} (h : t.origin = some o) :
    parsePublicChannelId t.text = channelOfPath (upToQuery (fromSlash (t.path ++ t.queryText))) := by
  have hno : ∀ b ∈ o.authority, (b != 47) = true := fun b hb => by simpa using (o.plain b (by simp [hb])).1
  have htext : t.text = o.text ++ (t.path ++ t.queryText) := by simp [text,originText,h]
  have hdrop : t.text.drop (o.scheme.length + 3) = o.authority ++ (t.path ++ t.queryText) := by
    rw [htext,Origin.text,List.append_assoc,← List.drop_drop,List.drop_left,List.append_assoc]
    rfl
  rw [parse_marked (htext ▸ o.find_mark _),hdrop,fromSlash,List.dropWhile_append_of_pos hno,fromSlash]

def RequestTarget.RoutedByPath (t : RequestTarget) : Prop :=
  match t.origin with
  | none => ∀ n, find schemeMark t.queryText = some n →
      SameChannel (upToQuery (fromSlash (t.queryText.drop (n + 3)))) t.path
  | some _ => t.path.head? = some 47 ∨
      ∀ c : Nat, 1 ≤ c → c ≤ 4 → ¬ NamesChannel (upToQuery (fromSlash (t.path ++ t.queryText))) c

theorem channel_follows_path_iff (t : RequestTarget) : RoutedTo t.text t.path ↔ t.RoutedByPath := by
  unfold RequestTarget.RoutedByPath
  cases ho : t.origin with
  | none =>
    have htext : t.text = t.path ++ t.queryText := by simp [RequestTarget.text,RequestTarget.originText,ho]
    have hfind := t.find_behind_path
    rw [← htext] at hfind
    cases hq : find schemeMark t.queryText with
    | none =>
      rw [hq] at hfind
      have hparse := parse_unmarked hfind
      rw [htext,t.upToQuery_path,← htext] at hparse
      simp [routedTo_iff hparse,SameChannel]
    | some n =>
      rw [hq] at hfind
      have hparse := parse_marked hfind
      rw [htext,Nat.add_assoc,List.drop_length_add_append,← htext] at hparse
      simp [routedTo_iff hparse]
  | some o =>
    rw [routedTo_iff (t.parse_origin ho)]
    by_cases hroot : t.path.head? = some 47
    · have hslash : fromSlash (t.path ++ t.queryText) = t.path ++ t.queryText := by
        obtain ⟨rest,hr⟩ := List.head?_eq_some_iff.mp hroot
        rw [hr]
        rfl
      rw [hslash,t.upToQuery_path]
      exact iff_of_true (fun c _ _ => Iff.rfl) (.inl hroot)
    · rw [or_iff_right hroot]
      refine forall_congr' fun c => forall_congr' fun _ => forall_congr' fun _ => ?_
      exact iff_false_right (not_named_of_unrooted hroot c)

def urlInQuery : RequestTarget where
  origin := none
  path := ascii "/ch1"
  query := some ⟨63,ascii "x=http://h/ch2",by decide +kernel⟩
  pathPlain := by decide +kernel
  pathUnmarked := by decide +kernel

def slashInQuery : RequestTarget where
  origin := some ⟨ascii "rtsp",ascii "host",by decide +kernel⟩
  path := []
  query := some ⟨63,ascii "x=/ch2",by decide +kernel⟩
  pathPlain := by decide +kernel
  pathUnmarked := by decide +kernel

theorem query_changes_channel :
    (urlInQuery.text = ascii "/ch1?x=http://h/ch2" ∧ parsePublicChannelId urlInQuery.text = 2 ∧
      ¬ RoutedTo urlInQuery.text urlInQuery.path) ∧
    (slashInQuery.text = ascii "rtsp://host?x=/ch2" ∧ parsePublicChannelId slashInQuery.text = 2 ∧
      ¬ RoutedTo slashInQuery.text slashInQuery.path) := by
  have hurl : parsePublicChannelId urlInQuery.text = 2 := by decide
  have hslash : parsePublicChannelId slashInQuery.text = 2 := by decide
  refine ⟨⟨by decide,hurl,fun h => ?_⟩,⟨by decide,hslash,fun h => ?_⟩⟩
  · have hone := (h.1 1 (by decide) (by decide)).mpr ⟨ascii "1",[],by decide,by decide,by decide,by decide,.inl rfl⟩
    rw [hurl] at hone
    cases hone
  · have hnone := h.2 fun c _ _ => not_named_of_unrooted (by decide) c
    rw [hslash] at hnone
    cases hnone

end RpiVms

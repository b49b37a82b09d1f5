import RpiVms.Index.ChannelTable

namespace RpiVms

inductive RegisterError where
  | index (e : IndexError)
  | busy
  deriving DecidableEq, Repr

-- sqlite3_step answers SQLITE_BUSY before it touches the table
def tryUpsert (busy : Bool) (now : Bytes) (m : ChannelMapping) (t : VmsChannels) :
    Except RegisterError VmsChannels :=
  if busy then .error .busy
  else (upsertChannelMapping now m.channelId m.cameraChannel t).mapError .index

-- registerMappings with calls that find the database locked
def registerWith (clock : Nat → Bytes) (busy : Nat → Bool) :
    Nat → List ChannelMapping → VmsChannels → VmsChannels × Option RegisterError
  | _,[],t => (t,none)
  | n,m :: ms,t =>
      match tryUpsert (busy n) (clock n) m t with
      | .error e => (t,some e)
      | .ok t => registerWith clock busy (n + 1) ms t

def ChannelMapping.row (m : ChannelMapping) (now : Bytes) : ChannelRow := ⟨m.channelId,m.cameraChannel,now⟩

def rowsWritten (clock : Nat → Bytes) : Nat → List ChannelMapping → List ChannelRow
  | _,[] => []
  | n,m :: ms => m.row (clock n) :: rowsWritten clock (n + 1) ms

theorem registerWith_idle (clock : Nat → Bytes) (n : Nat) (ms : List ChannelMapping) (t : VmsChannels) :
    registerWith clock (fun _ => false) n ms t =
      ((registerMappings clock n ms t).1,(registerMappings clock n ms t).2.map .index) := by
  induction ms generalizing n t with
  | nil => rfl
  | cons m ms ih =>
    rw [registerWith,registerMappings,tryUpsert]
    cases upsertChannelMapping (clock n) m.channelId m.cameraChannel t with
    | error e => rfl
    | ok u => exact ih (n + 1) u

section

variable {clock : Nat → Bytes} {busy : Nat → Bool} {t u : VmsChannels} {row : ChannelRow}

theorem mem_put {h : ¬ t.Clashes row.channelId row.cameraChannel} {r : ChannelRow} :
    r ∈ (t.put row h).rows ↔ r ∈ t.rows ∧ r.channelId ≠ row.channelId ∨ r = row := by
  simp [VmsChannels.put]

theorem tryUpsert_ok {b : Bool} {now : Bytes} {m : ChannelMapping} (h : tryUpsert b now m t = .ok u) {r : ChannelRow} :
    r ∈ u.rows ↔ r ∈ t.rows ∧ r.channelId ≠ m.channelId ∨ r = m.row now := by
  unfold tryUpsert at h
  split at h
  · cases h
  · unfold upsertChannelMapping at h
    split at h
    · cases h
    · split at h
      · cases h
      · cases h
        exact mem_put

theorem rowsWritten_covers (clock : Nat → Bytes) (n : Nat) {ms : List ChannelMapping} {m : ChannelMapping} (h : m ∈ ms) :
    ∃ r ∈ rowsWritten clock n ms, r.channelId = m.channelId := by
  induction ms generalizing n with
  | nil => cases h
  | cons m' ms ih =>
    rcases List.mem_cons.mp h with rfl | h
    · exact ⟨_,List.mem_cons_self,rfl⟩
    · obtain ⟨r,hr,he⟩ := ih (n + 1) h
      exact ⟨r,List.mem_cons_of_mem _ hr,he⟩

theorem rowsWritten_iff {n : Nat} {ms : List ChannelMapping} {P : ChannelRow → Prop} :
    (∀ r ∈ rowsWritten clock n ms, P r) ↔
      ∀ (i : Nat) (m : ChannelMapping), ms[i]? = some m → P (m.row (clock (n + i))) := by
  induction ms generalizing n with
  | nil => simp [rowsWritten]
  | cons m ms ih =>
    rw [rowsWritten,List.forall_mem_cons,ih]
    constructor
    · rintro ⟨hfirst,hrest⟩ i m' hi
      cases i with
      | zero =>
        cases hi
        exact hfirst
      | succ i =>
        have := hrest i m' hi
        rwa [Nat.add_right_comm] at this
    · intro h
      refine ⟨h 0 m rfl,fun i m' hi => ?_⟩
      have := h (i + 1) m' hi
      rwa [← Nat.add_assoc,Nat.add_right_comm] at this

theorem mem_registered {n : Nat} {ms : List ChannelMapping} (hm : (ms.map (·.channelId)).Nodup)
    (h : registerWith clock busy n ms t = (u,none)) {r : ChannelRow} :
    r ∈ u.rows ↔ r ∈ t.rows ∧ (∀ m ∈ ms, r.channelId ≠ m.channelId) ∨ r ∈ rowsWritten clock n ms := by
  induction ms generalizing n t with
  | nil =>
    cases h
    simp [rowsWritten]
  | cons m ms ih =>
    rw [List.map_cons,List.nodup_cons] at hm
    rw [registerWith] at h
    cases hu : tryUpsert (busy n) (clock n) m t with
    | error e => simp [hu] at h
    | ok v =>
      simp only [hu] at h
      have hown : ∀ m' ∈ ms, m.channelId ≠ m'.channelId := fun m' hm' he =>
        hm.1 (List.mem_map.mpr ⟨m',hm',he.symm⟩)
      rw [ih hm.2 h,tryUpsert_ok hu,rowsWritten,List.forall_mem_cons,List.mem_cons]
      constructor
      · rintro (⟨⟨hr,hne⟩ | rfl,hrest⟩ | hr)
        · exact .inl ⟨hr,hne,hrest⟩
        · exact .inr (.inl rfl)
        · exact .inr (.inr hr)
      · rintro (⟨hr,hne,hrest⟩ | rfl | hr)
        · exact .inl ⟨.inl ⟨hr,hne⟩,hrest⟩
        · exact .inl ⟨.inr rfl,hown⟩
        · exact .inr hr

theorem unchanged_iff {n : Nat} {ms : List ChannelMapping} (hm : (ms.map (·.channelId)).Nodup)
    (h : registerWith clock busy n ms t = (u,none)) :
    (∀ r, r ∈ u.rows ↔ r ∈ t.rows) ↔ ∀ r ∈ rowsWritten clock n ms, r ∈ t.rows := by
  constructor
  · intro hsame r hr
    exact (hsame r).mp ((mem_registered hm h).mpr (.inr hr))
  · intro hall r
    rw [mem_registered hm h]
    constructor
    · rintro (⟨hr,-⟩ | hr)
      · exact hr
      · exact hall r hr
    · intro hr
      by_cases hother : ∀ m ∈ ms, r.channelId ≠ m.channelId
      · exact .inl ⟨hr,hother⟩
      · simp only [not_forall,ne_eq,not_not] at hother
        obtain ⟨m,hmem,hk⟩ := hother
        obtain ⟨w,hw,hwk⟩ := rowsWritten_covers clock n hmem
        obtain rfl : w = r := List.inj_on_of_nodup_map t.keys (hall w hw) hr (hwk.trans hk.symm)
        exact .inr hw

theorem registerWith_fails {n : Nat} {done rest : List ChannelMapping} {m : ChannelMapping} {e : RegisterError}
    (hdone : registerWith clock busy n done t = (u,none))
    (hfail : tryUpsert (busy (n + done.length)) (clock (n + done.length)) m u = .error e) :
    registerWith clock busy n (done ++ m :: rest) t = (u,some e) := by
  induction done generalizing n t with
  | nil =>
    cases hdone
    have hfail' : tryUpsert (busy n) (clock n) m u = .error e := hfail
    rw [List.nil_append,registerWith,hfail']
  | cons m' done ih =>
    rw [registerWith] at hdone
    rw [List.cons_append,registerWith]
    cases hu : tryUpsert (busy n) (clock n) m' t with
    | error e' => simp [hu] at hdone
    | ok v =>
      simp only [hu] at hdone ⊢
      refine ih hdone ?_
      rwa [List.length_cons,← Nat.add_assoc,Nat.add_right_comm] at hfail

end

theorem registration_unchanged_iff (s : Start) (busy : Nat → Bool) {t u : VmsChannels}
    {done rest : List ChannelMapping} {m : ChannelMapping} {e : RegisterError}
    (hs : s.mappings = done ++ m :: rest) (hdone : registerWith s.clock busy 0 done t = (u,none))
    (hfail : tryUpsert (busy done.length) (s.clock done.length) m u = .error e) :
    (∀ r, r ∈ (registerWith s.clock busy 0 s.mappings t).1.rows ↔ r ∈ t.rows) ↔
      ∀ (i : Nat) (m' : ChannelMapping), done[i]? = some m' → m'.row (s.clock i) ∈ t.rows := by
  have hmap := (parseChannelMap_ok s.accepted).channels
  rw [hs,List.map_append] at hmap
  have hend : registerWith s.clock busy 0 s.mappings t = (u,some e) := by
    rw [hs]
    exact registerWith_fails hdone (by rwa [Nat.zero_add])
  rw [hend,unchanged_iff hmap.of_append_left hdone,rowsWritten_iff]
  simp only [Nat.zero_add]

def oldTable : VmsChannels := ⟨[⟨3,1,ascii "2024-01-01T00:00:00Z"⟩],by decide,by decide⟩

def crossingStart : Start := startWith (ascii "0:1,1:2") [⟨0,1⟩,⟨1,2⟩] (by decide)

def restartedTable : VmsChannels :=
  ⟨[⟨3,1,ascii "2024-01-01T00:00:00Z"⟩,⟨1,0,ascii "2025-01-01T00:00:00Z"⟩],by decide,by decide⟩

theorem failed_starts_change_nothing :
    (∀ r, r ∈ (registerWith crossingStart.clock (fun _ => true) 0 crossingStart.mappings oldTable).1.rows ↔
      r ∈ oldTable.rows) ∧
    ∀ r, r ∈ (registerWith crossingStart.clock (fun _ => false) 0 crossingStart.mappings restartedTable).1.rows ↔
      r ∈ restartedTable.rows := by
  have hs : crossingStart.mappings = [] ++ ⟨0,1⟩ :: [⟨1,2⟩] := rfl
  have hs' : crossingStart.mappings = [⟨0,1⟩] ++ ⟨1,2⟩ :: [] := rfl
  refine ⟨(registration_unchanged_iff crossingStart (fun _ => true) hs rfl rfl).mpr (by simp),?_⟩
  refine (registration_unchanged_iff crossingStart (fun _ => false) hs' rfl rfl).mpr fun i m hi => ?_
  cases i with
  | zero =>
    obtain rfl := Option.some.inj hi
    decide
  | succ i => simp at hi

theorem clash_leaves_first_row :
    (registerWith crossingStart.clock (fun _ => false) 0 crossingStart.mappings oldTable).2 =
      some (.index .cameraNotUnique) ∧
    (registerWith crossingStart.clock (fun _ => false) 0 crossingStart.mappings oldTable).1.rows =
      oldTable.rows ++ [⟨1,0,ascii "2025-01-01T00:00:00Z"⟩] := by
  decide

end RpiVms

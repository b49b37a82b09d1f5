import Mathlib.Data.List.Nodup
import RpiVms.Library.Runs
import RpiVms.Media.Ingest

namespace RpiVms

open Runs

-- sqlite3_bind_text with the length -1 reads a C string
def bindText (value : Bytes) : Bytes := value.takeWhile (· != 0)

structure SegmentRow where
  id : Nat
  channelId : Int
  filePath : Bytes
  container : Bytes
  codec : Bytes
  startWallTimeUtc : Bytes
  endWallTimeUtc : Option Bytes := none
  sizeBytes : Option Int := none
  complete : Bool := false
  createdAtUtc : Bytes
  deriving DecidableEq, Repr

-- UNIQUE(file_path) is a field, so no statement can break it; lastId is the sequence of AUTOINCREMENT
structure RecordingSegments where
  rows : List SegmentRow := []
  lastId : Nat := 0
  paths : (rows.map (·.filePath)).Nodup

namespace RecordingSegments

def empty : RecordingSegments := ⟨[],0,.nil⟩

def Has (t : RecordingSegments) (path : Bytes) : Prop := ∃ row ∈ t.rows, row.filePath = path

instance (t : RecordingSegments) (path : Bytes) : Decidable (t.Has path) :=
  inferInstanceAs (Decidable (∃ row ∈ t.rows, _))

def insert (t : RecordingSegments) (row : SegmentRow) (h : ¬ t.Has row.filePath) : RecordingSegments where
  rows := t.rows ++ [row]
  lastId := row.id
  paths := by
    rw [List.map_append,List.map_singleton,← List.concat_eq_append]
    exact t.paths.concat fun hm => h (List.mem_map.mp hm)

end RecordingSegments

def SegmentRow.close (path now : Bytes) (size : Int) (row : SegmentRow) : SegmentRow :=
  if row.filePath = path then { row with endWallTimeUtc := some now, sizeBytes := some size, complete := true }
  else row

theorem close_filePath (path now : Bytes) (size : Int) (row : SegmentRow) :
    (row.close path now size).filePath = row.filePath := by
  unfold SegmentRow.close
  split <;> rfl

def RecordingSegments.update (t : RecordingSegments) (path now : Bytes) (size : Int) : RecordingSegments where
  rows := t.rows.map (·.close path now size)
  lastId := t.lastId
  paths := by
    rw [List.map_map]
    simpa only [Function.comp_def,close_filePath] using t.paths

def pathNotUnique : Thrown :=
  .exception (ascii "insert segment opened: UNIQUE constraint failed: recording_segments.file_path")

def markSegmentOpened (now : Bytes) (channelId : Int) (location container codec : Bytes) (t : RecordingSegments) :
    Except Thrown RecordingSegments :=
  if h : t.Has (bindText location) then .error pathNotUnique
  else
    .ok (t.insert
      { id := t.lastId + 1, channelId := channelId, filePath := bindText location, container := bindText container,
        codec := bindText codec, startWallTimeUtc := bindText now, createdAtUtc := bindText now } h)

-- an update that matches no row succeeds
def markSegmentClosed (now : Bytes) (size : Int) (location : Bytes) (t : RecordingSegments) :
    Except Thrown RecordingSegments :=
  .ok (t.update (bindText location) (bindText now) size)

-- one handle_element_message call of a worker: its configuration, the message, the clock and the file's size
structure IndexCall where
  config : ChannelIngestConfig
  message : ElementMessage
  now : Bytes
  fileSize : Int
  deriving DecidableEq, Repr

-- the failure in the message is what any other step of the call throws, a busy database among them
def IndexCall.run (call : IndexCall) (t : RecordingSegments) : Except Thrown RecordingSegments :=
  match call.message with
  | .fragmentOpened location none =>
      markSegmentOpened call.now call.config.channelId location (ascii "mp4") (toCodecName call.config.codec) t
  | .fragmentClosed location none => markSegmentClosed call.now call.fileSize location t
  | .fragmentOpened _ (some e) | .fragmentClosed _ (some e) => .error e
  | .other => .ok t

-- the call under the index's mutex; one that throws has changed nothing
def RecordingSegments.after (t : RecordingSegments) (call : IndexCall) : RecordingSegments :=
  match call.run t with
  | .ok u => u
  | .error _ => t

def segmentsAfter (calls : List IndexCall) : RecordingSegments := calls.foldl RecordingSegments.after .empty

def ElementMessage.path : ElementMessage → Option Bytes
  | .fragmentOpened location _ | .fragmentClosed location _ => some (bindText location)
  | .other => none

def ElementMessage.opens : ElementMessage → Bool
  | .fragmentOpened _ _ => true
  | _ => false

def ElementMessage.closes : ElementMessage → Bool
  | .fragmentClosed _ _ => true
  | _ => false

def ElementMessage.failure : ElementMessage → Option Thrown
  | .fragmentOpened _ failure | .fragmentClosed _ failure => failure
  | .other => none

def Succeeds (before : List IndexCall) (call : IndexCall) : Prop := ∃ t, call.run (segmentsAfter before) = .ok t

def OpensPath (path : Bytes) (before : List IndexCall) (call : IndexCall) : Prop :=
  call.message.opens = true ∧ call.message.path = some path ∧ Succeeds before call

def ClosesPath (path : Bytes) (before : List IndexCall) (call : IndexCall) : Prop :=
  call.message.closes = true ∧ call.message.path = some path ∧ Succeeds before call

def ClosedSince (path : Bytes) (opened after : List IndexCall) : Prop :=
  ∃ pre call post, after = pre ++ call :: post ∧ ClosesPath path (opened ++ pre) call

inductive TableMove (call : IndexCall) (t : RecordingSegments) : RecordingSegments → Prop
  | inserts {location} (message : call.message = .fragmentOpened location none)
      (free : ¬ t.Has (bindText location)) :
      TableMove call t (t.insert
        { id := t.lastId + 1, channelId := call.config.channelId, filePath := bindText location,
          container := bindText (ascii "mp4"), codec := bindText (toCodecName call.config.codec),
          startWallTimeUtc := bindText call.now, createdAtUtc := bindText call.now } free)
  | updates {location} (message : call.message = .fragmentClosed location none) :
      TableMove call t (t.update (bindText location) (bindText call.now) call.fileSize)
  | throws {e} (failed : call.run t = .error e) : TableMove call t t
  | ignores (message : call.message = .other) : TableMove call t t

theorem table_move (call : IndexCall) (t : RecordingSegments) : TableMove call t (t.after call) := by
  obtain ⟨config,message,now,size⟩ := call
  rcases message with ⟨location,_ | e⟩ | ⟨location,_ | e⟩ | _
  · unfold RecordingSegments.after
    split
    · rename_i u hrun
      simp only [IndexCall.run,markSegmentOpened] at hrun
      split at hrun
      · cases hrun
      · rename_i hfree
        cases hrun
        exact .inserts rfl hfree
    · rename_i e hrun
      exact .throws hrun
  · exact .throws rfl
  · exact .updates rfl
  · exact .throws rfl
  · exact .ignores rfl

section

variable {t : RecordingSegments} {path : Bytes} {calls before : List IndexCall} {call : IndexCall} {location : Bytes}

theorem segmentsAfter_snoc : segmentsAfter (calls ++ [call]) = (segmentsAfter calls).after call := by
  simp [segmentsAfter]

theorem has_insert {row : SegmentRow} {h : ¬ t.Has row.filePath} :
    (t.insert row h).Has path ↔ t.Has path ∨ row.filePath = path := by
  simp only [RecordingSegments.Has,RecordingSegments.insert,List.mem_append,List.mem_singleton,or_and_right,exists_or,
    exists_eq_left]

theorem has_update {closed now : Bytes} {size : Int} : (t.update closed now size).Has path ↔ t.Has path := by
  simp [RecordingSegments.Has,RecordingSegments.update,close_filePath]

theorem failed_not_succeeds {e : Thrown} (h : call.run (segmentsAfter before) = .error e) : ¬ Succeeds before call := by
  rintro ⟨u,hu⟩
  rw [h] at hu
  cases hu

theorem opensPath_iff (hm : call.message = .fragmentOpened location none)
    (hfree : ¬ (segmentsAfter before).Has (bindText location)) :
    OpensPath path before call ↔ bindText location = path := by
  have hrun : ∃ u, call.run (segmentsAfter before) = .ok u := by
    simp only [IndexCall.run,hm,markSegmentOpened]
    exact ⟨_,dif_neg hfree⟩
  simp only [OpensPath,Succeeds,hm,hrun,ElementMessage.opens,ElementMessage.path,Option.some.injEq,true_and,and_true]

theorem closesPath_iff (hm : call.message = .fragmentClosed location none) :
    ClosesPath path before call ↔ bindText location = path := by
  have hrun : ∃ u, call.run (segmentsAfter before) = .ok u := by
    simp only [IndexCall.run,hm,markSegmentClosed]
    exact ⟨_,rfl⟩
  simp only [ClosesPath,Succeeds,hm,hrun,ElementMessage.closes,ElementMessage.path,Option.some.injEq,true_and,and_true]

theorem not_opensPath (h : call.message.opens = false) : ¬ OpensPath path before call := by
  rintro ⟨ho,-⟩
  rw [h] at ho
  cases ho

theorem not_closesPath (h : call.message.closes = false) : ¬ ClosesPath path before call := by
  rintro ⟨ho,-⟩
  rw [h] at ho
  cases ho

theorem after_has : ((segmentsAfter calls).after call).Has path ↔
    (segmentsAfter calls).Has path ∨ OpensPath path calls call := by
  have hmove := table_move call (segmentsAfter calls)
  generalize (segmentsAfter calls).after call = u at hmove ⊢
  cases hmove with
  | inserts hm hfree => rw [has_insert,opensPath_iff hm hfree]
  | updates hm => rw [has_update,or_iff_left (not_opensPath (by rw [hm]; rfl))]
  | throws hf => exact (or_iff_left fun ho => failed_not_succeeds hf ho.2.2).symm
  | ignores hm => exact (or_iff_left (not_opensPath (by rw [hm]; rfl))).symm

theorem segments_has (calls : List IndexCall) (path : Bytes) :
    (segmentsAfter calls).Has path ↔
      ∃ pre call post, calls = pre ++ call :: post ∧ OpensPath path pre call := by
  induction calls using List.reverseRecOn with
  | nil =>
    constructor
    · rintro ⟨row,hr,-⟩
      cases hr
    · rintro ⟨pre,call,post,he,-⟩
      simp at he
  | append_singleton calls call ih => rw [segmentsAfter_snoc,after_has,exists_split_snoc,ih]

theorem closedSince_snoc {opened after : List IndexCall} :
    ClosedSince path opened (after ++ [call]) ↔
      ClosedSince path opened after ∨ ClosesPath path (opened ++ after) call :=
  exists_split_snoc (P := fun pre c => ClosesPath path (opened ++ pre) c)

end

structure RecordedBy (row : SegmentRow) (before : List IndexCall) (call : IndexCall) (after : List IndexCall) :
    Prop where
  opened : OpensPath row.filePath before call
  first : ∀ pre c post, before = pre ++ c :: post → ¬ OpensPath row.filePath pre c
  channel : row.channelId = call.config.channelId
  container : row.container = ascii "mp4"
  codec : row.codec = toCodecName call.config.codec
  complete : row.complete = true ↔ ClosedSince row.filePath (before ++ [call]) after
  ended : row.endWallTimeUtc.isSome = true ↔ ClosedSince row.filePath (before ++ [call]) after

section

variable {row : SegmentRow} {before after : List IndexCall} {call next : IndexCall}

theorem RecordedBy.kept (h : RecordedBy row before call after)
    (hc : ¬ ClosesPath row.filePath (before ++ call :: after) next) :
    RecordedBy row before call (after ++ [next]) := by
  have hsince : ClosedSince row.filePath (before ++ [call]) (after ++ [next]) ↔
      ClosedSince row.filePath (before ++ [call]) after := by
    rw [closedSince_snoc,List.append_assoc,List.singleton_append,or_iff_left hc]
  exact { h with complete := h.complete.trans hsince.symm, ended := h.ended.trans hsince.symm }

theorem RecordedBy.closed (h : RecordedBy row before call after) {now : Bytes} {size : Int}
    (hc : ClosesPath row.filePath (before ++ call :: after) next) :
    RecordedBy (row.close row.filePath now size) before call (after ++ [next]) := by
  have hsince : ClosedSince row.filePath (before ++ [call]) (after ++ [next]) := by
    rw [closedSince_snoc,List.append_assoc,List.singleton_append]
    exact .inr hc
  rw [SegmentRow.close,if_pos rfl]
  exact ⟨h.opened,h.first,h.channel,h.container,h.codec,iff_of_true rfl hsince,iff_of_true rfl hsince⟩

end

theorem segments_recorded (calls : List IndexCall) :
    ∀ row ∈ (segmentsAfter calls).rows,
      ∃ before call after, calls = before ++ call :: after ∧ RecordedBy row before call after := by
  induction calls using List.reverseRecOn with
  | nil => simp [segmentsAfter,RecordingSegments.empty]
  | append_singleton calls next ih =>
    have hkept {row : SegmentRow} (hr : row ∈ (segmentsAfter calls).rows)
        (hc : ¬ ClosesPath row.filePath calls next) :
        ∃ before call after, calls ++ [next] = before ++ call :: after ∧ RecordedBy row before call after := by
      obtain ⟨before,call,after,rfl,h⟩ := ih row hr
      exact ⟨before,call,after ++ [next],by simp,h.kept hc⟩
    rw [segmentsAfter_snoc]
    have hmove := table_move next (segmentsAfter calls)
    generalize (segmentsAfter calls).after next = u at hmove ⊢
    intro row hr
    cases hmove with
    | @inserts location hm hfree =>
      rcases List.mem_append.mp hr with hr | hr
      · exact hkept hr (not_closesPath (by rw [hm]; rfl))
      · obtain rfl := List.mem_singleton.mp hr
        have hnone : ¬ ClosedSince (bindText location) (calls ++ [next]) [] := by
          rintro ⟨pre,c,post,he,-⟩
          simp at he
        have hcontainer : bindText (ascii "mp4") = ascii "mp4" := by decide
        have hcodec : bindText (toCodecName next.config.codec) = toCodecName next.config.codec := by
          cases next.config.codec <;> decide
        exact ⟨calls,next,[],rfl,{
          opened := (opensPath_iff hm hfree).mpr rfl
          first := fun pre c post he ho => hfree ((segments_has calls _).mpr ⟨pre,c,post,he,ho⟩)
          channel := rfl
          container := hcontainer
          codec := hcodec
          complete := iff_of_false (by simp) hnone
          ended := iff_of_false (by simp) hnone }⟩
    | @updates location hm =>
      obtain ⟨old,ho,rfl⟩ := List.mem_map.mp hr
      by_cases hp : old.filePath = bindText location
      · obtain ⟨before,call,after,rfl,h⟩ := ih old ho
        refine ⟨before,call,after ++ [next],by simp,?_⟩
        rw [← hp]
        exact h.closed ((closesPath_iff hm).mpr hp.symm)
      · rw [SegmentRow.close,if_neg hp]
        exact hkept ho fun hc => hp ((closesPath_iff hm).mp hc).symm
    | throws hf => exact hkept hr fun hc => failed_not_succeeds hf hc.2.2
    | ignores hm => exact hkept hr (not_closesPath (by rw [hm]; rfl))

theorem failed_changes_nothing {calls : List IndexCall} {call : IndexCall} (h : ¬ Succeeds calls call) :
    segmentsAfter (calls ++ [call]) = segmentsAfter calls := by
  rw [segmentsAfter_snoc,RecordingSegments.after]
  split
  · rename_i u hu
    exact absurd ⟨u,hu⟩ h
  · rfl

theorem unknown_close_changes_nothing {calls : List IndexCall} {call : IndexCall}
    (hc : call.message.closes = true)
    (h : ∀ path, call.message.path = some path → ¬ (segmentsAfter calls).Has path) :
    (segmentsAfter (calls ++ [call])).rows = (segmentsAfter calls).rows := by
  rw [segmentsAfter_snoc]
  have hmove := table_move call (segmentsAfter calls)
  generalize (segmentsAfter calls).after call = u at hmove ⊢
  cases hmove with
  | inserts hm =>
    rw [hm] at hc
    cases hc
  | @updates location hm =>
    refine (List.map_congr_left fun row hr => ?_).trans (List.map_id _)
    exact if_neg fun he => h _ (by rw [hm]; rfl) ⟨row,hr,he⟩
  | throws => rfl
  | ignores => rfl

theorem other_rows_stay {calls : List IndexCall} {call : IndexCall} {row : SegmentRow}
    (h : call.message.path ≠ some row.filePath) :
    row ∈ (segmentsAfter (calls ++ [call])).rows ↔ row ∈ (segmentsAfter calls).rows := by
  rw [segmentsAfter_snoc]
  have hmove := table_move call (segmentsAfter calls)
  generalize (segmentsAfter calls).after call = u at hmove ⊢
  cases hmove with
  | @inserts location hm hfree =>
    have hne : row.filePath ≠ bindText location := fun he => h (by rw [hm,he]; rfl)
    simp only [RecordingSegments.insert,List.mem_append,List.mem_singleton]
    refine or_iff_left fun he => hne ?_
    rw [he]
  | @updates location hm =>
    have hne : row.filePath ≠ bindText location := fun he => h (by rw [hm,he]; rfl)
    constructor
    · intro hr
      obtain ⟨old,ho,rfl⟩ := List.mem_map.mp hr
      rw [close_filePath] at hne
      rwa [SegmentRow.close,if_neg hne]
    · intro hr
      exact List.mem_map.mpr ⟨row,hr,if_neg hne⟩
  | throws => rfl
  | ignores => rfl

theorem succeeds_iff {calls : List IndexCall} {call : IndexCall} :
    Succeeds calls call ↔ call.message.failure = none ∧
      (call.message.opens = true → ∀ path, call.message.path = some path → ¬ (segmentsAfter calls).Has path) := by
  unfold Succeeds IndexCall.run
  rcases call.message with ⟨location,_ | e⟩ | ⟨location,_ | e⟩ | _
  · by_cases hh : (segmentsAfter calls).Has (bindText location)
    · simp [markSegmentOpened,hh,ElementMessage.failure,ElementMessage.opens,ElementMessage.path]
    · simp [markSegmentOpened,hh,ElementMessage.failure,ElementMessage.opens,ElementMessage.path]
  · simp [ElementMessage.failure]
  · simp [markSegmentClosed,ElementMessage.failure,ElementMessage.opens]
  · simp [ElementMessage.failure]
  · simp [ElementMessage.failure,ElementMessage.opens]

theorem segment_index_consistent (calls : List IndexCall) :
    ((segmentsAfter calls).rows.map (·.filePath)).Nodup ∧
    (∀ path, (segmentsAfter calls).Has path ↔
      ∃ pre call post, calls = pre ++ call :: post ∧ OpensPath path pre call) ∧
    (∀ row ∈ (segmentsAfter calls).rows,
      ∃ before call after, calls = before ++ call :: after ∧ RecordedBy row before call after) ∧
    ∀ call,
      (Succeeds calls call ↔ call.message.failure = none ∧
        (call.message.opens = true → ∀ path, call.message.path = some path → ¬ (segmentsAfter calls).Has path)) ∧
      (¬ Succeeds calls call ∨ call.message.closes = true ∧
          (∀ path, call.message.path = some path → ¬ (segmentsAfter calls).Has path) →
        (segmentsAfter (calls ++ [call])).rows = (segmentsAfter calls).rows) ∧
      ∀ row, call.message.path ≠ some row.filePath →
        (row ∈ (segmentsAfter (calls ++ [call])).rows ↔ row ∈ (segmentsAfter calls).rows) := by
  refine ⟨(segmentsAfter calls).paths,segments_has calls,segments_recorded calls,
    fun call => ⟨succeeds_iff,?_,fun _ => other_rows_stay⟩⟩
  rintro (hf | ⟨hc,hu⟩)
  · rw [failed_changes_nothing hf]
  · exact unknown_close_changes_nothing hc hu

example :
    let camera (channelId : Int) : ChannelIngestConfig := ⟨[],0,channelId,.h264,0⟩
    let segment : Bytes := ascii "/rec/a.mp4"
    (segmentsAfter [⟨camera 1,.fragmentOpened segment none,ascii "t1",0⟩,
      ⟨camera 2,.fragmentOpened segment none,ascii "t2",0⟩,⟨camera 1,.fragmentClosed segment none,ascii "t3",9⟩]).rows =
    [⟨1,1,segment,ascii "mp4",ascii "h264",ascii "t1",some (ascii "t3"),some 9,true,ascii "t1"⟩] := by
  decide +kernel

end RpiVms

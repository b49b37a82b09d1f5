import RpiVms.Live.Session
import RpiVms.Library.Runs

namespace RpiVms

open Search Framing Runs

structure Reader where
  input : Bytes := []
  control : RtspControlState := {}
  requests : List Bytes := []
  responses : List Bytes := []
  connected : Bool := true
  rejected : Bool := false
  deriving DecidableEq, Repr

section

variable (limits : ParserLimits) (channels : List LiveChannel) (env : Nat → RequestEnv)

def handleRequest (r : Reader) (request : Bytes) : Reader :=
  let e := env r.requests.length
  let (result,control) := answer channels e request r.control
  { r with
    control := control
    requests := r.requests ++ [request]
    responses := r.responses ++ [result.response]
    connected := e.writeOk && !result.closeSession }

def handleUnit (r : Reader) (unit : Bytes) : Reader :=
  if unit.head? = some dollar then r else handleRequest channels env r unit

-- `none` is an extract call that never returns
def parseLoop : Nat → Reader → Option Reader
  | 0,_ => none
  | fuel + 1,r =>
      match extractOneRtspMessage limits r.input with
      | none => none
      | some (.wait rest) => some { r with input := rest }
      | some (.unit unit rest) =>
          let next := handleUnit channels env { r with input := rest } unit
          if next.connected then parseLoop fuel next else some next

def readChunk (r : Reader) (chunk : Bytes) : Option Reader :=
  if !r.connected || r.rejected then some r
  else
    let r := { r with input := r.input ++ chunk }
    if overTotal limits r.input then some { r with rejected := true }
    else
      (parseLoop limits channels env (r.input.length + 1) r).map fun r =>
        { r with rejected := rejectsLeftover r.input }

def deliver (r : Reader) (chunks : List Bytes) : Option Reader :=
  chunks.foldlM (readChunk limits channels env) r

def serve : Reader → List Bytes → Reader
  | r,[] => r
  | r,u :: us => if r.connected then serve (handleUnit channels env r u) us else r

def served : Reader → List Bytes → List Bytes
  | _,[] => []
  | r,u :: us => if r.connected then u :: served (handleUnit channels env r u) us else []

end

def complete : List Bytes → Nat → List Bytes
  | [],_ => []
  | u :: us,n => if u.length ≤ n then u :: complete us (n - u.length) else []

section

variable (limits : ParserLimits) (channels : List LiveChannel) (env : Nat → RequestEnv)
  (units : List Bytes)

def openAt (n : Nat) : Bool := (serve channels env {} (complete units n)).connected

def leftover (n : Nat) : Bytes :=
  (units.flatten.take n).drop (served channels env {} (complete units n)).flatten.length

def ReadHarmless (n : Nat) (chunk : Bytes) : Prop :=
  openAt channels env units n = true →
    (leftover channels env units n).length + chunk.length ≤
      limits.maxHeaderBytes + limits.maxBodyBytes ∧
    rejectsLeftover (leftover channels env units (n + chunk.length)) = false

def CutsHarmless (chunks : List Bytes) : Prop :=
  ∀ pre chunk post, chunks = pre ++ chunk :: post →
    ReadHarmless limits channels env units pre.flatten.length chunk

def SameVerdict (one two : List Bytes) : Prop :=
  ∃ r s, deliver limits channels env {} one = some r ∧ deliver limits channels env {} two = some s ∧
    r.requests = s.requests ∧ r.responses = s.responses ∧ r.rejected = false ∧ s.rejected = false

end

structure Delivers (chunks units : List Bytes) : Prop where
  whole : chunks.flatten = units.flatten
  reads : ∀ c ∈ chunks, c ≠ [] ∧ c.length ≤ 8192

section

variable {limits : ParserLimits} {channels : List LiveChannel} {env : Nat → RequestEnv}

theorem handleUnit_input (r : Reader) (unit input : Bytes) :
    handleUnit channels env { r with input := input } unit =
      { handleUnit channels env r unit with input := input } := by
  unfold handleUnit
  split
  · rfl
  · rfl

theorem handleUnit_rejected (r : Reader) (unit : Bytes) :
    (handleUnit channels env r unit).rejected = r.rejected := by
  unfold handleUnit
  split
  · rfl
  · rfl

theorem serve_rejected (r : Reader) (us : List Bytes) :
    (serve channels env r us).rejected = r.rejected := by
  induction us generalizing r with
  | nil => rfl
  | cons u us ih =>
    rw [serve]
    split
    · rw [ih,handleUnit_rejected]
    · rfl

theorem serve_closed {r : Reader} (h : r.connected = false) (us : List Bytes) :
    serve channels env r us = r ∧ served channels env r us = [] := by
  cases us with
  | nil => exact ⟨rfl,rfl⟩
  | cons u us => simp [serve,served,h]

theorem serve_append (r : Reader) (us vs : List Bytes) :
    serve channels env r (us ++ vs) = serve channels env (serve channels env r us) vs ∧
    served channels env r (us ++ vs) =
      served channels env r us ++ served channels env (serve channels env r us) vs := by
  induction us generalizing r with
  | nil => exact ⟨rfl,rfl⟩
  | cons u us ih =>
    cases hr : r.connected with
    | true => simp [serve,served,hr,ih]
    | false =>
      obtain ⟨hc,hd⟩ := @serve_closed channels env r hr vs
      simp [serve,served,hr,hc,hd]

theorem served_open (r : Reader) (us : List Bytes) (h : (serve channels env r us).connected = true) :
    served channels env r us = us := by
  induction us generalizing r with
  | nil => rfl
  | cons u us ih =>
    rw [serve] at h
    rw [served]
    split at h
    · rename_i hr
      rw [if_pos hr,ih _ h]
    · rename_i hr
      exact absurd h hr

theorem parseLoop_units {U : Bytes → Prop} (hx : Frames (extractOneRtspMessage limits) U)
    (us : List Bytes) (hus : ∀ u ∈ us, U u) (q : Bytes)
    (hq : extractOneRtspMessage limits q = some (.wait q)) (fuel : Nat) (hf : us.length < fuel)
    (r : Reader) (hr : r.connected = true) :
    parseLoop limits channels env fuel { r with input := us.flatten ++ q } =
      some { serve channels env r us with
        input := (us.flatten ++ q).drop (served channels env r us).flatten.length } := by
  induction us generalizing fuel r with
  | nil =>
    obtain ⟨k,rfl⟩ : ∃ k, fuel = k + 1 := ⟨fuel - 1,by simp at hf; omega⟩
    simp [parseLoop,hq,serve,served]
  | cons u us ih =>
    obtain ⟨k,rfl⟩ : ∃ k, fuel = k + 1 := ⟨fuel - 1,by simp at hf; omega⟩
    have hu := hx.whole (us.flatten ++ q) (hus u (by simp))
    have hdrop (k : Nat) : (u ++ (us.flatten ++ q)).drop (u.length + k) = (us.flatten ++ q).drop k := by
      rw [← List.drop_drop,List.drop_left]
    rw [parseLoop,List.flatten_cons,List.append_assoc]
    simp only [hu,serve,served,if_pos hr,List.flatten_cons,List.length_append,hdrop,handleUnit_input]
    split
    · rename_i hn
      exact ih (fun v hv => hus v (by simp [hv])) k (by simpa using hf) _ hn
    · rename_i hn
      obtain ⟨hc,hd⟩ := @serve_closed channels env _ (Bool.eq_false_iff.mpr hn) us
      rw [hc,hd]
      rfl

theorem deliver_stopped {r : Reader} (h : r.connected = false ∨ r.rejected = true)
    (chunks : List Bytes) : deliver limits channels env r chunks = some r := by
  induction chunks with
  | nil => rfl
  | cons c cs ih =>
    have hc : readChunk limits channels env r c = some r := by
      unfold readChunk
      rw [if_pos (by rcases h with h | h <;> simp [h])]
    rw [deliver,List.foldlM_cons,hc]
    exact ih

theorem complete_append (vs ws : List Bytes) (n : Nat) :
    complete (vs ++ ws) (vs.flatten.length + n) = vs ++ complete ws n := by
  induction vs with
  | nil => simp
  | cons v vs ih =>
    simp only [List.cons_append,complete,List.flatten_cons,List.length_append]
    rw [if_pos (by omega),Nat.add_assoc,Nat.add_sub_cancel_left,ih]

theorem complete_pending {ws : List Bytes} {p : Bytes} (hp : Pending ws p)
    (hne : ∀ w ∈ ws, w ≠ []) : complete ws p.length = [] := by
  rcases hp with rfl | ⟨u,us,rfl,hpre,hpu⟩
  · cases ws with
    | nil => rfl
    | cons w ws =>
      rw [complete,if_neg (by simpa using hne w (by simp))]
  · have hlt : p.length < u.length := by
      refine Nat.lt_of_le_of_ne hpre.length_le fun he => ?_
      exact hpu (hpre.eq_of_length he)
    rw [complete,if_neg (by omega)]

theorem complete_mono (us : List Bytes) {n m : Nat} (h : n ≤ m) : complete us n <+: complete us m := by
  induction us generalizing n m with
  | nil => exact List.prefix_rfl
  | cons u us ih =>
    rw [complete,complete]
    split
    · rw [if_pos (by omega)]
      exact List.cons_prefix_cons.mpr ⟨rfl,ih (by omega)⟩
    · exact List.nil_prefix

theorem openAt_mono {units : List Bytes} {n m : Nat} (h : n ≤ m)
    (hc : openAt channels env units n = false) : openAt channels env units m = false := by
  obtain ⟨vs,hvs⟩ := complete_mono units h
  unfold openAt at hc ⊢
  rw [← hvs,(serve_append _ _ _).1,(serve_closed hc vs).1]
  exact hc

section

variable {vs ws : List Bytes} {p : Bytes}

theorem complete_at (hp : Pending ws p) (hne : ∀ w ∈ ws, w ≠ []) :
    complete (vs ++ ws) (vs.flatten.length + p.length) = vs := by
  rw [complete_append,complete_pending hp hne,List.append_nil]

theorem leftover_at (hp : Pending ws p) (hne : ∀ w ∈ ws, w ≠ []) (hpre : p <+: ws.flatten) :
    leftover channels env (vs ++ ws) (vs.flatten.length + p.length) =
      (vs.flatten ++ p).drop (served channels env {} vs).flatten.length := by
  obtain ⟨t,ht⟩ := hpre
  unfold leftover
  rw [complete_at hp hne,List.flatten_append,← ht,← List.append_assoc,← List.length_append,
    List.take_left]

theorem leftover_open (hp : Pending ws p) (hne : ∀ w ∈ ws, w ≠ []) (hpre : p <+: ws.flatten)
    (ho : (serve channels env {} vs).connected = true) :
    leftover channels env (vs ++ ws) (vs.flatten.length + p.length) = p := by
  rw [leftover_at hp hne hpre,served_open _ _ ho,List.drop_left]

end

theorem readChunk_units {U : Bytes → Prop} (hx : Frames (extractOneRtspMessage limits) U)
    {r : Reader} (hr : r.connected = true) (hj : r.rejected = false) {xs : List Bytes} {p c q : Bytes}
    (hxs : ∀ u ∈ xs, U u) (hq : extractOneRtspMessage limits q = some (.wait q))
    (hcut : p ++ c = xs.flatten ++ q) :
    readChunk limits channels env { r with input := p } c =
      if overTotal limits (p ++ c) then some { r with input := p ++ c, rejected := true }
      else some { serve channels env r xs with
        input := (xs.flatten ++ q).drop (served channels env r xs).flatten.length
        rejected := rejectsLeftover ((xs.flatten ++ q).drop (served channels env r xs).flatten.length) } := by
  have hlen : xs.length < (p ++ c).length + 1 := by
    have := length_le_flatten hx.ne_nil xs hxs
    rw [hcut,List.length_append]
    omega
  unfold readChunk
  rw [if_neg (by simp [hr,hj])]
  simp only
  split
  · rfl
  · rw [hcut] at hlen ⊢
    rw [parseLoop_units hx xs hxs q hq _ hlen r hr]
    rfl

theorem served_through {vs xs : List Bytes} (ho : (serve channels env {} vs).connected = true)
    (q : Bytes) :
    ((vs ++ xs).flatten ++ q).drop (served channels env {} (vs ++ xs)).flatten.length =
      (xs.flatten ++ q).drop (served channels env (serve channels env {} vs) xs).flatten.length := by
  rw [(serve_append _ _ _).2,served_open _ _ ho,List.flatten_append,List.flatten_append,
    List.length_append,← List.drop_drop,List.append_assoc,List.drop_left]

theorem keep_unrejected {r : Reader} (h : r.rejected = false) {input kept : Bytes} (he : input = kept) :
    ({ r with input := input, rejected := false } : Reader) = { r with input := kept } := by
  rw [he,← h]

section

variable {vs xs ys : List Bytes} {p c q : Bytes}

theorem cut_position (hcut : p ++ c = xs.flatten ++ q) :
    vs.flatten.length + p.length + c.length = (vs ++ xs).flatten.length + q.length := by
  have := congrArg List.length hcut
  simp only [List.length_append,List.flatten_append] at this ⊢
  omega

theorem readHarmless_iff (hne : ∀ u ∈ xs ++ ys, u ≠ []) (hp : Pending (xs ++ ys) p)
    (hpend : Pending ys q) (hb : p ++ c <+: (xs ++ ys).flatten) (hcut : p ++ c = xs.flatten ++ q)
    (ho : (serve channels env {} vs).connected = true) :
    ReadHarmless limits channels env (vs ++ (xs ++ ys)) (vs.flatten.length + p.length) c ↔
      overTotal limits (p ++ c) = false ∧ rejectsLeftover
        ((xs.flatten ++ q).drop (served channels env (serve channels env {} vs) xs).flatten.length) =
          false := by
  have hpre : p <+: (xs ++ ys).flatten := (List.prefix_append p c).trans hb
  have hpreq : q <+: ys.flatten := by
    rw [hcut,List.flatten_append] at hb
    exact (List.prefix_append_right_inj _).mp hb
  have hopen : openAt channels env (vs ++ (xs ++ ys)) (vs.flatten.length + p.length) = true := by
    rw [openAt,complete_at hp hne]
    exact ho
  have hafter := @leftover_at channels env (vs ++ xs) ys q hpend (fun u hu => hne u (by simp [hu])) hpreq
  have hsize : overTotal limits (p ++ c) = false ↔
      p.length + c.length ≤ limits.maxHeaderBytes + limits.maxBodyBytes := by
    simp [overTotal]
  rw [served_through ho,List.append_assoc] at hafter
  unfold ReadHarmless
  rw [leftover_open hp hne hpre ho,cut_position hcut,hafter,hsize]
  exact ⟨fun h => h hopen,fun h _ => h⟩

end

theorem deliver_units {U : Bytes → Prop} (hx : Frames (extractOneRtspMessage limits) U)
    (chunks vs ws : List Bytes) (p : Bytes) (hus : ∀ u ∈ vs ++ ws, U u) (hp : Pending ws p)
    (hc : p ++ chunks.flatten = ws.flatten) (ho : (serve channels env {} vs).connected = true) :
    ∃ r, deliver limits channels env { serve channels env {} vs with input := p } chunks = some r ∧
      (r.rejected = false ↔ ∀ pre c post, chunks = pre ++ c :: post →
        ReadHarmless limits channels env (vs ++ ws)
          (vs.flatten.length + p.length + pre.flatten.length) c) ∧
      (r.rejected = false → r.requests = (serve channels env {} (vs ++ ws)).requests ∧
        r.responses = (serve channels env {} (vs ++ ws)).responses) := by
  induction chunks generalizing vs ws p with
  | nil =>
    obtain ⟨rfl,rfl⟩ := pending_all hx.ne_nil (fun u hu => hus u (by simp [hu])) hp (by simpa using hc)
    exact ⟨_,rfl,by simp [serve_rejected],fun _ => by simp⟩
  | cons c cs ih =>
    have hb : p ++ c <+: ws.flatten := ⟨cs.flatten,by rw [← hc]; simp⟩
    obtain ⟨xs,ys,q,rfl,hcut,hpend⟩ := prefix_flatten_split ws (p ++ c) hb
    have hrest : q ++ cs.flatten = ys.flatten := by
      have h' : (p ++ c) ++ cs.flatten = xs.flatten ++ ys.flatten := by simpa using hc
      rw [hcut,List.append_assoc] at h'
      exact List.append_cancel_left h'
    have hne : ∀ u ∈ xs ++ ys, u ≠ [] := fun u hu => hx.ne_nil (hus u (List.mem_append_right _ hu))
    have hxs : ∀ u ∈ xs, U u := fun u hu => hus u (by simp [hu])
    have hwait := pending_extract hx (fun u hu => hus u (by simp [hu])) hpend
    have hread := @readChunk_units limits channels env U hx _ ho (serve_rejected _ _) _ _ _ _ hxs hwait hcut
    have hfirst := @readHarmless_iff limits channels env vs xs ys p c q hne hp hpend hb hcut ho
    rw [forall_split_cons,deliver,List.foldlM_cons,hread]
    simp only [List.flatten_nil,List.length_nil,Nat.add_zero]
    rw [hfirst]
    cases hover : overTotal limits (p ++ c) with
    | true =>
      refine ⟨_,deliver_stopped (.inr rfl) cs,by simp,by simp⟩
    | false =>
      cases hrej : rejectsLeftover ((xs.flatten ++ q).drop
          (served channels env (serve channels env {} vs) xs).flatten.length) with
      | true => exact ⟨_,deliver_stopped (.inr rfl) cs,by simp,by simp⟩
      | false =>
        have hserve := (@serve_append channels env {} vs xs).1
        have hrj : (serve channels env (serve channels env {} vs) xs).rejected = false := by
          rw [serve_rejected,serve_rejected]
        simp only [if_false,Bool.false_eq_true,true_and,Option.bind_some,Option.bind_eq_bind]
        by_cases hopen : (serve channels env (serve channels env {} vs) xs).connected = true
        · obtain ⟨r,hr,hiff,hsame⟩ := ih (vs ++ xs) ys q (by simpa using hus) hpend hrest
            (by rw [hserve]; exact hopen)
          have hleft : (xs.flatten ++ q).drop
              (served channels env (serve channels env {} vs) xs).flatten.length = q := by
            rw [served_open _ _ hopen,List.drop_left]
          rw [hserve] at hr
          rw [keep_unrejected hrj hleft]
          simp only [← cut_position hcut,List.append_assoc] at hiff hsame
          refine ⟨r,hr,hiff.trans ?_,hsame⟩
          simp only [List.flatten_cons,List.length_append,Nat.add_assoc]
        · have hclosed : (serve channels env (serve channels env {} vs) xs).connected = false :=
            Bool.eq_false_iff.mpr hopen
          have hat : openAt channels env (vs ++ (xs ++ ys)) (vs.flatten.length + p.length + c.length) =
              false := by
            rw [cut_position hcut,← List.append_assoc,openAt,
              complete_at hpend (fun u hu => hne u (by simp [hu])),hserve]
            exact hclosed
          have hstop := @deliver_stopped limits channels env
            { serve channels env (serve channels env {} vs) xs with
              input := (xs.flatten ++ q).drop
                (served channels env (serve channels env {} vs) xs).flatten.length
              rejected := false } (.inl hclosed) cs
          refine ⟨_,hstop,⟨fun _ pre d post _ ho' => ?_,fun _ => rfl⟩,fun _ => ?_⟩
          · rw [openAt_mono (by simp) hat] at ho'
            cases ho'
          · rw [← List.append_assoc,(serve_append _ (vs ++ xs) ys).1,hserve,(serve_closed hclosed ys).1]
            exact ⟨rfl,rfl⟩

theorem deliver_all {units chunks : List Bytes}
    (hu : ∀ u ∈ units, IsUnit limits.maxHeaderBytes (min limits.maxBodyBytes intMax) u)
    (hd : chunks.flatten = units.flatten) :
    ∃ r, deliver limits channels env {} chunks = some r ∧
      (r.rejected = false ↔ CutsHarmless limits channels env units chunks) ∧
      (r.rejected = false → r.requests = (serve channels env {} units).requests ∧
        r.responses = (serve channels env {} units).responses) := by
  have h := @deliver_units limits channels env _ (extract_frames limits) chunks [] units [] (by simpa using hu)
    (.inl rfl) (by simpa using hd) rfl
  simpa [CutsHarmless,serve] using h

end

theorem verdict_ignores_cuts_iff (limits : ParserLimits) (channels : List LiveChannel)
    (env : Nat → RequestEnv) (units one two : List Bytes)
    (hu : ∀ u ∈ units, IsUnit limits.maxHeaderBytes (min limits.maxBodyBytes intMax) u)
    (hone : Delivers one units) (htwo : Delivers two units) :
    SameVerdict limits channels env one two ↔
      CutsHarmless limits channels env units one ∧ CutsHarmless limits channels env units two := by
  obtain ⟨r,hr,hri,hrs⟩ := @deliver_all limits channels env units one hu hone.whole
  obtain ⟨s,hs,hsi,hss⟩ := @deliver_all limits channels env units two hu htwo.whole
  rw [← hri,← hsi]
  constructor
  · rintro ⟨r',s',hr',hs',-,-,h1,h2⟩
    rw [hr,Option.some.injEq] at hr'
    rw [hs,Option.some.injEq] at hs'
    exact ⟨hr' ▸ h1,hs' ▸ h2⟩
  · rintro ⟨h1,h2⟩
    exact ⟨r,s,hr,hs,(hrs h1).1.trans (hss h2).1.symm,(hrs h1).2.trans (hss h2).2.symm,h1,h2⟩

def pauseHeader : Bytes := ascii "PAUSE /ch1 RTSP/1.0\r\nCSeq: 2\r\nContent-Length: 2\r\n\r\n"

theorem pause_unit : IsUnit (16 * 1024) (1024 * 1024) (pauseHeader ++ ascii "ok") := by
  refine .inr ⟨pauseHeader,ascii "ok",rfl,?_⟩
  have ht : contentLengthText pauseHeader = some (ascii "2") := by decide
  exact ⟨by decide,by decide,by decide,by decide,by simp only [DeclaresBody,ht]; decide,by decide⟩

def quietEnv : Nat → RequestEnv := fun _ => ⟨randomSessionId 1 2,[],true⟩

theorem verdict_of_cut_pause :
    SameVerdict {} [{}] quietEnv [pauseHeader ++ ascii "ok"] [pauseHeader.take 20,pauseHeader.drop 20 ++ ascii "ok"] := by
  refine (verdict_ignores_cuts_iff {} [{}] quietEnv [pauseHeader ++ ascii "ok"] _ _ ?_
    ⟨by decide,by decide⟩ ⟨by decide,by decide⟩).mpr ⟨?_,?_⟩
  · simp only [List.mem_singleton,forall_eq]
    exact pause_unit
  · rw [CutsHarmless,forall_split_cons]
    exact ⟨by unfold ReadHarmless; decide +kernel,by simp⟩
  · rw [CutsHarmless,forall_split_cons,forall_split_cons]
    exact ⟨by unfold ReadHarmless; decide +kernel,by unfold ReadHarmless; decide +kernel,by simp⟩

theorem cut_pause_rejected :
    (∀ u ∈ [pauseHeader ++ ascii "ok"], IsUnit (16 * 1024) (1024 * 1024) u) ∧
    Delivers [pauseHeader ++ ascii "ok"] [pauseHeader ++ ascii "ok"] ∧
    Delivers [pauseHeader,ascii "ok"] [pauseHeader ++ ascii "ok"] ∧
    ¬ SameVerdict {} [{}] quietEnv [pauseHeader ++ ascii "ok"] [pauseHeader,ascii "ok"] := by
  have hcut : (deliver {} [{}] quietEnv {} [pauseHeader,ascii "ok"]).map (·.rejected) = some true := by
    decide +kernel
  refine ⟨?_,⟨by decide,by decide⟩,⟨by decide,by decide⟩,?_⟩
  · simp only [List.mem_singleton,forall_eq]
    exact pause_unit
  · rintro ⟨r,s,-,hs,-,-,-,hrej⟩
    rw [hs,Option.map_some,hrej] at hcut
    cases hcut

end RpiVms

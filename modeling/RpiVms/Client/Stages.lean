import RpiVms.Client.Dialogue
import Mathlib.Data.Prod.Lex
import Mathlib.Order.WellFounded

namespace RpiVms

open Search Segments Framing Runs

namespace RtspsClient

structure Prepared (url : RtspUrl) (id : SessionId) (label : Label) (cseq : Nat) (client : Client) : Prop where
  address : client.url = url
  number : client.cseq = cseq
  setupUrl : label = .setup → client.setupUrl = trackUrl url.base
  session : label = .play → client.session = id.text
  counters : client.counters = {}
  short : id.text.length = 16

section

variable (url : RtspUrl) (ch : Int) (units : List Bytes) (id : SessionId) (label : Label)
  (client : Client) (x : Session) (toServer toClient : Bytes)

structure Asking : Prop where
  point : client.point = .asking label
  prepared : Prepared url id label label.number client
  buffer : client.buffer = []
  serving : Serving (label.before id.text ch) x
  input : x.input = []
  sent : toServer = []
  received : toClient = []
  media : units = []

structure Asked : Prop where
  point : client.point = .checking label ∨ client.point = .reading label
  prepared : Prepared url id label (label.number + 1) client
  buffer : client.buffer = []
  serving : Serving (label.before id.text ch) x
  request : x.input ++ toServer = label.request url.base id.text
  whole : x.point = .parsing ∨ x.input ≠ label.request url.base id.text
  received : toClient = []
  media : units = []

structure Answered (result : RtspControlResult) (r : Response) : Prop where
  point : client.point = .checking label ∨ client.point = .reading label
  prepared : Prepared url id label (label.number + 1) client
  served : Served label id result r
  serving : Serving (label.after id.text ch) x
  input : x.input = []
  sent : toServer = []
  stream : client.buffer ++ toClient = result.response ++ units.flatten
  short : client.point = .reading label → client.buffer.length < result.response.length
  media : label ≠ .play → units = []

structure Counting (counted waiting : List Bytes) : Prop where
  point : client.point = .counting ∨ client.point = .selecting ∨ client.point = .leaving
  session : client.session = id.text
  serving : Serving (Label.play.after id.text ch) x
  input : x.input = []
  sent : toServer = []
  split : units = counted ++ waiting
  counters : client.counters = counted.foldl Counters.packet {}
  stream : client.buffer ++ toClient = waiting.flatten

end

def Label.stage : Label → Nat
  | .options => 9
  | .describe => 6
  | .setup => 3
  | .play => 0

def Point.pending : Point → Nat
  | .checking _ => 1
  | _ => 0

inductive Exchange (url : RtspUrl) (ch : Int) (units : List Bytes) (client : Client) (x : Session)
    (toServer toClient : Bytes) : ℕ ×ₗ ℕ → Prop
  | asking {id : SessionId} {label : Label} : Asking url ch units id label client x toServer toClient →
      Exchange url ch units client x toServer toClient (toLex (label.stage + 3,0))
  | asked {id : SessionId} {label : Label} : Asked url ch units id label client x toServer toClient →
      Exchange url ch units client x toServer toClient
        (toLex (label.stage + 2,2 * toServer.length + client.point.pending))
  | answered {id : SessionId} {label : Label} {result : RtspControlResult} {r : Response} :
      Answered url ch units id label client x toServer toClient result r →
      Exchange url ch units client x toServer toClient
        (toLex (label.stage + 1,2 * (result.response.length - client.buffer.length) + client.point.pending))
  | counting {id : SessionId} {counted waiting : List Bytes} :
      Counting ch units id client x toServer toClient counted waiting →
      Exchange url ch units client x toServer toClient (toLex (0,0))
  | finished {counted waiting : List Bytes} : client.point = .finished → units = counted ++ waiting →
      client.counters = counted.foldl Counters.packet {} → Exchange url ch units client x toServer toClient (toLex (0,0))

section

variable {url : RtspUrl} {ch : Int} {units : List Bytes} {id : SessionId} {label : Label}
  {client : Client} {x y : Session} {toServer toClient : Bytes}

theorem Prepared.request (h : Prepared url id label label.number client) :
    client.request label = label.request url.base id.text := by
  cases label with
  | options => simp only [Client.request,Label.request,h.address,h.number]; rfl
  | describe => simp only [Client.request,Label.request,h.address,h.number]; rfl
  | setup => simp only [Client.request,Label.request,h.setupUrl rfl,h.number]; rfl
  | play => simp only [Client.request,Label.request,h.address,h.session rfl,h.number]; rfl

theorem Prepared.carry {cseq : Nat} (h : Prepared url id label cseq client) (buffer : Bytes) (point : Point) :
    Prepared url id label cseq { client with buffer := buffer, point := point } :=
  ⟨h.address,h.number,h.setupUrl,h.session,h.counters,h.short⟩

theorem Asked.of_asking (h : Asking url ch units id label client x toServer toClient) :
    Asked url ch units id label { client with cseq := client.cseq + 1, point := .checking label } x
      (toServer ++ client.request label) toClient where
  point := .inl rfl
  prepared := ⟨h.prepared.address,by simp [h.prepared.number],h.prepared.setupUrl,h.prepared.session,h.prepared.counters,
    h.prepared.short⟩
  buffer := h.buffer
  serving := h.serving
  request := by simp only [h.input,h.sent,h.prepared.request,List.nil_append]
  whole := .inr fun he => by
    have hne : (label.request url.base id.text) ≠ [] := by simp [Label.request,makeRequest,crlf]
    exact hne (he.symm.trans h.input)
  received := h.received
  media := h.media

theorem Answered.checks {result : RtspControlResult} {r : Response}
    (h : Answered url ch units id label client x toServer toClient result r) :
    (client.buffer.length < result.response.length ∧ client.check label = client.goto (.reading label)) ∨
      ∃ rest, rest ++ toClient = units.flatten ∧
        client.check label = { client with buffer := rest }.accepted r label := by
  by_cases hl : client.buffer.length < result.response.length
  · have hpre : client.buffer <+: result.response :=
      List.prefix_of_prefix_length_le ⟨toClient,h.stream⟩ (List.prefix_append _ _) hl.le
    have hmore := h.served.read.cut _ hpre fun he => by rw [he] at hl; exact Nat.lt_irrefl _ hl
    exact .inl ⟨hl,by simp only [Client.check,hmore]⟩
  · have hpre : result.response <+: client.buffer :=
      List.prefix_of_prefix_length_le (List.prefix_append _ _) ⟨toClient,h.stream⟩ (by omega)
    obtain ⟨rest,hrest⟩ := hpre
    have hstream := h.stream
    rw [← hrest,List.append_assoc] at hstream
    refine .inr ⟨rest,List.append_cancel_left hstream,?_⟩
    have hread := h.served.read.whole rest
    rw [hrest] at hread
    simp only [Client.check,hread,Client.answered,h.served.status]
    rfl

theorem Asking.of_answered {result : RtspControlResult} {r : Response} {next : Label} {rest : Bytes}
    (h : Answered url ch units id label client x toServer toClient result r)
    (hnext : label = .options ∧ next = .describe ∨ label = .describe ∧ next = .setup ∨ label = .setup ∧ next = .play)
    (hrest : rest ++ toClient = units.flatten) :
    Asking url ch units id next ({ client with buffer := rest }.accepted r label) x toServer toClient := by
  have hplay : label ≠ .play := by
    rcases hnext with ⟨rfl,-⟩ | ⟨rfl,-⟩ | ⟨rfl,-⟩ <;> simp
  have hmedia := h.media hplay
  rw [hmedia,List.flatten_nil,List.append_eq_nil_iff] at hrest
  obtain ⟨rfl,hempty⟩ := hrest
  have hserving := h.serving
  have hprep := h.prepared
  rcases hnext with ⟨rfl,rfl⟩ | ⟨rfl,rfl⟩ | ⟨rfl,rfl⟩
  · exact ⟨rfl,⟨hprep.address,hprep.number,by simp,by simp,hprep.counters,hprep.short⟩,rfl,hserving,h.input,h.sent,
      hempty,hmedia⟩
  · refine ⟨rfl,⟨hprep.address,hprep.number,fun _ => ?_,by simp,hprep.counters,hprep.short⟩,rfl,hserving,h.input,
      h.sent,hempty,hmedia⟩
    simp only [Client.accepted,h.served.control rfl,hprep.address]
    rfl
  · have hsession := h.served.session rfl
    have hne : (findSession r.header).isEmpty = false := by
      rw [hsession]
      simpa using id.ne_nil
    have haccepted : ({ client with buffer := [] } : Client).accepted r .setup =
        { client with buffer := [], session := id.text, point := .asking .play } := by
      simp only [Client.accepted,hne,Bool.false_eq_true,if_false]
      rw [hsession]
    rw [haccepted]
    exact ⟨rfl,⟨hprep.address,hprep.number,by simp,fun _ => rfl,hprep.counters,hprep.short⟩,rfl,hserving,h.input,
      h.sent,hempty,hmedia⟩

theorem Counting.of_answered {result : RtspControlResult} {r : Response} {rest : Bytes}
    (h : Answered url ch units id .play client x toServer toClient result r)
    (hrest : rest ++ toClient = units.flatten) :
    Counting ch units id ({ client with buffer := rest }.accepted r .play) x toServer toClient [] units where
  point := .inl rfl
  session := h.prepared.session rfl
  serving := h.serving
  input := h.input
  sent := h.sent
  split := rfl
  counters := h.prepared.counters
  stream := hrest

theorem Counting.counts {counted waiting : List Bytes}
    (h : Counting ch units id client x toServer toClient counted waiting) (hu : ∀ u ∈ units, IsFrame u) :
    ∃ counted' waiting', Counting ch units id client.count x toServer toClient counted' waiting' := by
  have hwaiting : ∀ u ∈ waiting, IsFrame u := fun u hm => hu u (by simp [h.split,hm])
  obtain ⟨whole,rest,p,rfl,hbuffer,hp⟩ := prefix_flatten_split waiting client.buffer ⟨toClient,h.stream⟩
  have hcount := @countRtpPackets_frames p whole (fun u hm => hwaiting u (List.mem_append_left _ hm))
    (count_pending (fun u hm => hwaiting u (List.mem_append_right _ hm)) hp) client.counters
  have hstep : client.count = { client with
      counters := whole.foldl Counters.packet client.counters, buffer := p, point := .selecting } := by
    rw [Client.count,hbuffer,hcount]
  have hstream := h.stream
  rw [hbuffer,List.append_assoc,List.flatten_append] at hstream
  rw [hstep]
  refine ⟨counted ++ whole,rest,⟨.inr (.inl rfl),h.session,h.serving,h.input,h.sent,?_,?_,
    List.append_cancel_left hstream⟩⟩
  · rw [h.split,List.append_assoc]
  · rw [List.foldl_append,← h.counters]

end

section

variable {url : RtspUrl} {ch : Int} {units : List Bytes} {id : SessionId} {label : Label} {m : ℕ ×ₗ ℕ}
  {c : Nat} {d : Dialogue} {x : Session} {action : ClientAction} {out : Bytes} {client : Client}

theorem lex_first {a b k n : Nat} (h : a < k) : (toLex (a,b) : ℕ ×ₗ ℕ) < toLex (k,n) :=
  Prod.Lex.toLex_lt_toLex.mpr (.inl h)

theorem lex_second {a b n : Nat} (h : b < n) : (toLex (a,b) : ℕ ×ₗ ℕ) < toLex (a,n) :=
  Prod.Lex.toLex_lt_toLex.mpr (.inr ⟨rfl,h⟩)

theorem not_lost {state : RtspControlState} (hx : d.server.sessions[c]? = some x) (hserving : Serving state x) :
    d.clientMay c .lost = false := by
  simp [Dialogue.clientMay,Dialogue.hungUp,hx,hserving.not_hungUp]

def Nearer (url : RtspUrl) (ch : Int) (units : List Bytes) (x : Session) (m : ℕ ×ₗ ℕ) (d : Dialogue) : Prop :=
  ∃ m', Exchange url ch units d.client x d.toServer d.toClient m' ∧ (m' < m ∨ m = toLex (0,0) ∧ m' = m)

theorem Asking.client_step (h : Asking url ch units id label d.client x d.toServer d.toClient)
    (hx : d.server.sessions[c]? = some x) (hmay : d.clientMay c action = true)
    (hs : d.client.step action = some (out,client)) :
    Nearer url ch units x (toLex (label.stage + 3,0))
      { d with client := client, toServer := d.toServer ++ out, toClient := d.unreceived action } := by
  cases action with
  | advance =>
    simp only [Client.step,h.point] at hs
    cases hs
    exact ⟨_,.asked (Asked.of_asking h),.inl (lex_first (by omega))⟩
  | lost =>
    rw [not_lost hx h.serving] at hmay
    cases hmay
  | receive | timeout | deadline =>
    simp only [Client.step,h.point] at hs
    cases hs

theorem Asked.client_step (h : Asked url ch units id label d.client x d.toServer d.toClient)
    (hx : d.server.sessions[c]? = some x) (hmay : d.clientMay c action = true)
    (hs : d.client.step action = some (out,client)) :
    Nearer url ch units x (toLex (label.stage + 2,2 * d.toServer.length + d.client.point.pending))
      { d with client := client, toServer := d.toServer ++ out, toClient := d.unreceived action } := by
  cases action with
  | advance =>
    rcases h.point with hp | hp
    · have hcheck : d.client.check label = d.client.goto (.reading label) := by
        simp only [Client.check,h.buffer]
        rfl
      simp only [Client.step,hp,hcheck] at hs
      cases hs
      refine ⟨_,.asked ⟨.inr rfl,h.prepared.carry _ _,h.buffer,h.serving,?_,h.whole,h.received,h.media⟩,.inl ?_⟩
      · simpa using h.request
      · simp only [List.append_nil,hp]
        exact lex_second (by simp [Point.pending,Client.goto])
    · simp only [Client.step,hp] at hs
      cases hs
  | receive chunk =>
    simp only [Dialogue.clientMay,h.received,Bool.and_eq_true,Bool.not_eq_true',List.isEmpty_eq_false_iff,
      List.isPrefixOf_iff_prefix,List.prefix_nil] at hmay
    exact absurd hmay.2 hmay.1.1
  | lost =>
    rw [not_lost hx h.serving] at hmay
    cases hmay
  | timeout | deadline => rcases h.point with hp | hp <;> simp only [Client.step,hp] at hs <;> cases hs

theorem received_chunk {chunk : Bytes} (hmay : d.clientMay c (.receive chunk) = true) :
    chunk ≠ [] ∧ chunk ++ d.toClient.drop chunk.length = d.toClient := by
  simp only [Dialogue.clientMay,Bool.and_eq_true,Bool.not_eq_true',List.isEmpty_eq_false_iff,
    List.isPrefixOf_iff_prefix] at hmay
  obtain ⟨⟨hne,-⟩,rest,hrest⟩ := hmay
  exact ⟨hne,by rw [← hrest,List.drop_left]⟩

theorem Answered.client_step {result : RtspControlResult} {r : Response}
    (h : Answered url ch units id label d.client x d.toServer d.toClient result r)
    (hx : d.server.sessions[c]? = some x) (hmay : d.clientMay c action = true)
    (hs : d.client.step action = some (out,client)) :
    Nearer url ch units x
      (toLex (label.stage + 1,2 * (result.response.length - d.client.buffer.length) + d.client.point.pending))
      { d with client := client, toServer := d.toServer ++ out, toClient := d.unreceived action } := by
  cases action with
  | advance =>
    rcases h.point with hp | hp
    · simp only [Client.step,hp] at hs
      cases hs
      simp only [List.append_nil]
      rcases h.checks with ⟨hl,hcheck⟩ | ⟨rest,hrest,hcheck⟩
      · rw [hcheck]
        refine ⟨_,.answered ⟨.inr rfl,h.prepared.carry _ _,h.served,h.serving,h.input,h.sent,h.stream,fun _ => hl,h.media⟩,.inl ?_⟩
        rw [hp]
        exact lex_second (by simp [Point.pending,Client.goto])
      · rw [hcheck]
        cases label with
        | options => exact ⟨_,.asking (Asking.of_answered h (.inl ⟨rfl,rfl⟩) hrest),.inl (lex_first (by decide))⟩
        | describe =>
          exact ⟨_,.asking (Asking.of_answered h (.inr (.inl ⟨rfl,rfl⟩)) hrest),.inl (lex_first (by decide))⟩
        | setup =>
          exact ⟨_,.asking (Asking.of_answered h (.inr (.inr ⟨rfl,rfl⟩)) hrest),.inl (lex_first (by decide))⟩
        | play => exact ⟨_,.counting (Counting.of_answered h hrest),.inl (lex_first (by decide))⟩
    · simp only [Client.step,hp] at hs
      cases hs
  | receive chunk =>
    obtain ⟨hne,hchunk⟩ := received_chunk hmay
    rcases h.point with hp | hp
    · simp only [Client.step,hp] at hs
      cases hs
    · simp only [Client.step,hp] at hs
      cases hs
      simp only [List.append_nil]
      refine ⟨_,.answered ⟨.inl rfl,h.prepared.carry _ _,h.served,h.serving,h.input,h.sent,?_,by simp,h.media⟩,.inl ?_⟩
      · rw [← h.stream,List.append_assoc]
        exact congrArg _ hchunk
      · rw [hp]
        refine lex_second ?_
        have hpos := List.length_pos_iff.mpr hne
        have hshort := h.short hp
        simp only [Point.pending,List.length_append]
        omega
  | lost =>
    rw [not_lost hx h.serving] at hmay
    cases hmay
  | timeout | deadline => rcases h.point with hp | hp <;> simp only [Client.step,hp] at hs <;> cases hs

theorem Counting.client_step {counted waiting : List Bytes}
    (h : Counting ch units id d.client x d.toServer d.toClient counted waiting) (hu : ∀ u ∈ units, IsFrame u)
    (hx : d.server.sessions[c]? = some x) (hmay : d.clientMay c action = true)
    (hs : d.client.step action = some (out,client)) :
    Nearer url ch units x (toLex (0,0))
      { d with client := client, toServer := d.toServer ++ out, toClient := d.unreceived action } := by
  have hkept : ∀ point, point = .counting ∨ point = .selecting ∨ point = .leaving →
      Counting ch units id (d.client.goto point) x d.toServer d.toClient counted waiting := fun point hpoint =>
    ⟨hpoint,h.session,h.serving,h.input,h.sent,h.split,h.counters,h.stream⟩
  cases action with
  | advance =>
    rcases h.point with hp | hp | hp
    · simp only [Client.step,hp] at hs
      cases hs
      obtain ⟨counted',waiting',hcounts⟩ := h.counts hu
      simp only [List.append_nil]
      exact ⟨_,.counting hcounts,.inr ⟨rfl,rfl⟩⟩
    · simp only [Client.step,hp] at hs
      cases hs
    · simp only [Client.step,hp] at hs
      cases hs
      exact ⟨_,.finished rfl h.split h.counters,.inr ⟨rfl,rfl⟩⟩
  | receive chunk =>
    obtain ⟨-,hchunk⟩ := received_chunk hmay
    rcases h.point with hp | hp | hp
    · simp only [Client.step,hp] at hs
      cases hs
    · simp only [Client.step,hp] at hs
      cases hs
      simp only [List.append_nil]
      refine ⟨_,.counting ⟨.inl rfl,h.session,h.serving,h.input,h.sent,h.split,h.counters,?_⟩,.inr ⟨rfl,rfl⟩⟩
      rw [← h.stream,List.append_assoc]
      exact congrArg _ hchunk
    · simp only [Client.step,hp] at hs
      cases hs
  | timeout =>
    rcases h.point with hp | hp | hp <;> simp only [Client.step,hp] at hs <;> cases hs
    simp only [List.append_nil]
    exact ⟨_,.counting (hkept _ (.inl rfl)),.inr ⟨rfl,rfl⟩⟩
  | deadline =>
    rcases h.point with hp | hp | hp <;> simp only [Client.step,hp] at hs <;> cases hs
    simp only [List.append_nil]
    exact ⟨_,.counting (hkept _ (.inr (.inr rfl))),.inr ⟨rfl,rfl⟩⟩
  | lost =>
    rw [not_lost hx h.serving] at hmay
    cases hmay

theorem Exchange.client_step (h : Exchange url ch units d.client x d.toServer d.toClient m)
    (hu : ∀ u ∈ units, IsFrame u) (hx : d.server.sessions[c]? = some x) (hmay : d.clientMay c action = true)
    (hs : d.client.step action = some (out,client)) :
    Nearer url ch units x m
      { d with client := client, toServer := d.toServer ++ out, toClient := d.unreceived action } := by
  cases h with
  | asking h => exact h.client_step hx hmay hs
  | asked h => exact h.client_step hx hmay hs
  | answered h => exact h.client_step hx hmay hs
  | counting h => exact h.client_step hu hx hmay hs
  | finished h _ _ => cases action <;> simp only [Client.step,h] at hs <;> cases hs

end

def Moves : DialogueAction → List ServerEvent → Prop
  | .client _,_ => True
  | .serve (.poll count),_ => count ≠ 0
  | .serve (.extract _ _ _),events => events ≠ []
  | _,_ => False

section

variable {config : LiveRtspServerConfig} {url : RtspUrl} {channel : LiveChannel} {units : List Bytes}
  {id : SessionId} {label : Label} {m : ℕ ×ₗ ℕ} {d : Dialogue} {x y : Session} {sets : Int → ParameterSets}
  {action : ServeAction} {act : SessionAction} {events : List SessionEvent}

inductive Prompt (d : Dialogue) : ServeAction → SessionAction → Prop
  | unprompted {action : ServeAction} {act : SessionAction} : Unprompted act → d.unread action = d.toServer →
      (∀ events, ¬ Moves (.serve action) events) → Prompt d action act
  | poll {count : Nat} : count ≠ 0 → d.toServer ≠ [] → Prompt d (.poll count) (.poll (some (d.toServer.take count)))
  | extract (first second : UInt32) :
      Prompt d (.extract first second true) (.extract (randomSessionId first second) true)

theorem prompt_of_action (hgone : d.client.gone = false) (ha : d.sessionAction action = some act) :
    Prompt d action act := by
  cases action with
  | connect =>
    cases ha
    exact .unprompted .connect rfl (by simp [Moves])
  | poll count =>
    simp only [Dialogue.sessionAction] at ha
    split at ha
    · rename_i hcount
      cases ha
      refine .unprompted .poll ?_ (by simp [Moves,hcount])
      simp [Dialogue.unread,hcount]
    · rename_i hcount
      split at ha
      · simp [hgone] at ha
      · rename_i hne
        split at ha
        · cases ha
          exact .poll hcount (by simpa using hne)
        · cases ha
  | extract first second writeOk =>
    simp only [Dialogue.sessionAction,hgone,Bool.or_false] at ha
    split at ha
    · rename_i hok
      cases ha
      rw [hok]
      exact .extract first second
    · cases ha
  | send reach now wall =>
    simp only [Dialogue.sessionAction,hgone,Bool.or_false,Option.isNone_iff_eq_none] at ha
    split at ha
    · rename_i hreach
      cases ha
      rw [hreach]
      exact .unprompted (.send now wall) rfl (by simp [Moves])
    · cases ha
  | advance =>
    cases ha
    exact .unprompted .advance rfl (by simp [Moves])

theorem extract_point {drawn : SessionId} {writeOk : Bool}
    (hs : sessionStep config true sets x (.extract drawn writeOk) = some (events,y)) : x.point = .parsing := by
  cases hp : x.point <;> simp only [sessionStep,hp] at hs <;> first | rfl | cases hs

theorem extract_waits {state : RtspControlState} (h : Serving state x) {drawn : SessionId} {writeOk : Bool}
    (hw : extractOneRtspMessage config.limits x.input = some (.wait x.input))
    (hs : sessionStep config true sets x (.extract drawn writeOk) = some (events,y)) :
    events = [] ∧ Serving state y ∧ y.input = x.input := by
  simp only [sessionStep,extract_point hs,extractStep,hw] at hs
  cases hs
  exact ⟨rfl,h.moved rfl rfl rfl trivial rfl rfl,rfl⟩

theorem phase_before (id : Bytes) (ch : Int) (label : Label) : (label.before id ch).phase ≠ .playing := by
  cases label <;> simp [Label.before]

theorem phase_after (id : Bytes) (ch : Int) (h : label ≠ .play) : (label.after id ch).phase ≠ .playing := by
  cases label <;> simp_all [Label.after]

def Kept (url : RtspUrl) (ch : Int) (units : List Bytes) (m : ℕ ×ₗ ℕ) (d : Dialogue) (action : ServeAction)
    (events : List SessionEvent) (y : Session) : Prop :=
  (∀ u ∈ events.flatMap (·.media), IsFrame u) ∧
    ∃ m', Exchange url ch (units ++ events.flatMap (·.media)) d.client y (d.unread action)
      (d.toClient ++ events.flatMap (·.written)) m' ∧ m' ≤ m ∧
      ∀ c, Moves (.serve action) (events.map (.session c)) → m' < m

theorem kept_silent {ch : Int} (he : events = []) (hu : d.unread action = d.toServer)
    (hm : ∀ c, ¬ Moves (.serve action) (([] : List SessionEvent).map (.session c)))
    (h : Exchange url ch units d.client y d.toServer d.toClient m) :
    Kept url ch units m d action events y := by
  subst he
  refine ⟨by simp,m,?_,le_refl _,fun c hmoves => absurd hmoves (hm c)⟩
  simpa [hu] using h

theorem Asking.serves (h : Asking url channel.channelId units id label d.client x d.toServer d.toClient)
    (hy : Serving (label.before id.text channel.channelId) y) (hi : y.input = x.input) :
    Asking url channel.channelId units id label d.client y d.toServer d.toClient :=
  ⟨h.point,h.prepared,h.buffer,hy,hi.trans h.input,h.sent,h.received,h.media⟩

theorem Asking.serve_step (h : Asking url channel.channelId units id label d.client x d.toServer d.toClient)
    (hf : Fitting config url channel) (hp : Prompt d action act)
    (hs : sessionStep config true sets x act = some (events,y)) :
    Kept url channel.channelId units (toLex (label.stage + 3,0)) d action events y := by
  cases hp with
  | unprompted ha hu hm =>
    have hq := h.serving.unprompted hf.mtu (by simp [rejectsLeftover,h.input]) ha hs
    exact kept_silent (hq.silent (phase_before _ _ _)) hu (fun c => hm _) (.asking (h.serves hq.serving hq.input))
  | poll hcount hne => exact absurd h.sent hne
  | extract first second =>
    obtain ⟨he,hy,hi⟩ := extract_waits h.serving (by rw [h.input]; exact extract_nil _) hs
    exact kept_silent he rfl (fun c => by simp [Moves]) (.asking (h.serves hy hi))

theorem Answered.serves {result : RtspControlResult} {r : Response} {toClient new : List UInt8} {more : List Bytes}
    (h : Answered url channel.channelId units id label d.client x d.toServer toClient result r)
    (hy : Serving (label.after id.text channel.channelId) y) (hi : y.input = x.input) (hnew : new = more.flatten)
    (hm : label ≠ .play → more = []) :
    Answered url channel.channelId (units ++ more) id label d.client y d.toServer (toClient ++ new) result r where
  point := h.point
  prepared := h.prepared
  served := h.served
  serving := hy
  input := hi.trans h.input
  sent := h.sent
  stream := by rw [hnew,← List.append_assoc,h.stream,List.flatten_append,List.append_assoc]
  short := h.short
  media := fun hl => by rw [h.media hl,hm hl]; rfl

theorem Answered.serve_step {result : RtspControlResult} {r : Response}
    (h : Answered url channel.channelId units id label d.client x d.toServer d.toClient result r)
    (hf : Fitting config url channel) (hp : Prompt d action act)
    (hs : sessionStep config true sets x act = some (events,y)) :
    Kept url channel.channelId units
      (toLex (label.stage + 1,2 * (result.response.length - d.client.buffer.length) + d.client.point.pending))
      d action events y := by
  cases hp with
  | unprompted ha hu hm =>
    have hq := h.serving.unprompted hf.mtu (by simp [rejectsLeftover,h.input]) ha hs
    obtain ⟨hwire,hframes⟩ := hq.wire
    rw [Kept,hu]
    refine ⟨hframes,_,.answered (h.serves hq.serving hq.input hwire fun hl => ?_),le_refl _,
      fun c hmoves => absurd hmoves (hm _)⟩
    rw [hq.silent (phase_after _ _ hl)]
    rfl
  | poll hcount hne => exact absurd h.sent hne
  | extract first second =>
    obtain ⟨he,hy,hi⟩ := extract_waits h.serving (by rw [h.input]; exact extract_nil _) hs
    have hkept := h.serves hy hi (show ([] : Bytes) = ([] : List Bytes).flatten from rfl) fun _ => rfl
    rw [List.append_nil,List.append_nil] at hkept
    exact kept_silent he rfl (fun c => by simp [Moves]) (.answered hkept)

theorem Counting.serves {counted waiting : List Bytes} {toClient new : List UInt8} {more : List Bytes}
    (h : Counting channel.channelId units id d.client x d.toServer toClient counted waiting)
    (hy : Serving (Label.play.after id.text channel.channelId) y) (hi : y.input = x.input) (hnew : new = more.flatten) :
    Counting channel.channelId (units ++ more) id d.client y d.toServer (toClient ++ new) counted (waiting ++ more) where
  point := h.point
  session := h.session
  serving := hy
  input := hi.trans h.input
  sent := h.sent
  split := by rw [h.split,List.append_assoc]
  counters := h.counters
  stream := by rw [hnew,← List.append_assoc,h.stream,List.flatten_append]

theorem Counting.serve_step {counted waiting : List Bytes}
    (h : Counting channel.channelId units id d.client x d.toServer d.toClient counted waiting)
    (hf : Fitting config url channel) (hp : Prompt d action act)
    (hs : sessionStep config true sets x act = some (events,y)) :
    Kept url channel.channelId units (toLex (0,0)) d action events y := by
  cases hp with
  | unprompted ha hu hm =>
    have hq := h.serving.unprompted hf.mtu (by simp [rejectsLeftover,h.input]) ha hs
    obtain ⟨hwire,hframes⟩ := hq.wire
    rw [Kept,hu]
    exact ⟨hframes,_,.counting (h.serves hq.serving hq.input hwire),le_refl _,fun c hmoves => absurd hmoves (hm _)⟩
  | poll hcount hne => exact absurd h.sent hne
  | extract first second =>
    obtain ⟨he,hy,hi⟩ := extract_waits h.serving (by rw [h.input]; exact extract_nil _) hs
    have hkept := h.serves hy hi (show ([] : Bytes) = ([] : List Bytes).flatten from rfl)
    rw [List.append_nil,List.append_nil] at hkept
    exact kept_silent he rfl (fun c => by simp [Moves]) (.counting hkept)

theorem Asked.message (h : Asked url channel.channelId units id label d.client x d.toServer d.toClient)
    (hf : Fitting config url channel) (maxBody : Nat) :
    IsMessage config.limits.maxHeaderBytes maxBody (label.request url.base id.text) [] := by
  refine makeRequest_message label.method (target_token hf label) (label.headers_plain id) ?_
  exact (request_length _ _ label (Nat.le_of_eq h.prepared.short)).trans hf.header

theorem Asked.cut (h : Asked url channel.channelId units id label d.client x d.toServer d.toClient)
    (hf : Fitting config url channel) (hne : x.input ≠ label.request url.base id.text) :
    extractOneRtspMessage config.limits x.input = some (.wait x.input) ∧ rejectsLeftover x.input = false := by
  have hmessage := h.message hf (min config.limits.maxBodyBytes intMax)
  have hpre : x.input <+: label.request url.base id.text := ⟨d.toServer,h.request⟩
  refine ⟨cut_unit _ (.inr ⟨_,[],(List.append_nil _).symm,hmessage⟩) hpre hne,?_⟩
  have hends := hmessage.ends
  rw [List.append_nil] at hends
  have hshort : x.input.length < (label.request url.base id.text).length :=
    Nat.lt_of_le_of_ne hpre.length_le fun he => hne (hpre.eq_of_length he)
  have hnone : find headerEnd x.input = none := by
    refine find_prefix_none hends hpre ?_
    have := hmessage.long
    simp only [headerEnd,List.length_cons,List.length_nil]
    omega
  simp [rejectsLeftover,hnone]

theorem requestEnv_fmtp (hsets : ∀ ch, Moderate (sets ch)) (request : Bytes) (drawn : SessionId) (writeOk : Bool) :
    (10 : UInt8) ∉ (requestEnv config sets request drawn writeOk).codecFmtp ∧
      (requestEnv config sets request drawn writeOk).codecFmtp.length ≤ 2000000000 := by
  simp only [requestEnv]
  split
  · simp
  · exact ⟨codecFmtp_oneLine _ _,codecFmtp_length (hsets _) _⟩

theorem Asked.drawn (h : Asked url channel.channelId units id label d.client x d.toServer d.toClient)
    (first second : UInt32) :
    ∃ id', (label = .setup → randomSessionId first second = id') ∧
      Asked url channel.channelId units id' label d.client x d.toServer d.toClient := by
  cases label with
  | setup =>
    refine ⟨randomSessionId first second,fun _ => rfl,⟨h.point,?_,h.buffer,h.serving,h.request,h.whole,h.received,h.media⟩⟩
    exact ⟨h.prepared.address,h.prepared.number,h.prepared.setupUrl,by simp,h.prepared.counters,rfl⟩
  | options => exact ⟨id,by simp,h⟩
  | describe => exact ⟨id,by simp,h⟩
  | play => exact ⟨id,by simp,h⟩

theorem Asked.answers (h : Asked url channel.channelId units id label d.client x d.toServer d.toClient)
    (hf : Fitting config url channel) (hsets : ∀ ch, Moderate (sets ch)) {first second : UInt32}
    (hid : label = .setup → randomSessionId first second = id) (hall : x.input = label.request url.base id.text)
    (hs : sessionStep config true sets x (.extract (randomSessionId first second) true) = some (events,y)) :
    ∃ result r control, events = [.replied (label.request url.base id.text) result control true] ∧
      Answered url channel.channelId units id label d.client y d.toServer (d.toClient ++ result.response) result r := by
  have hmessage := h.message hf (min config.limits.maxBodyBytes intMax)
  have hunit := whole_unit config.limits [] (.inr ⟨_,[],(List.append_nil _).symm,hmessage⟩)
  have hhead := (hmessage.head []).1
  rw [List.append_nil] at hunit hhead
  obtain ⟨hline,hsize⟩ := @requestEnv_fmtp config sets hsets (label.request url.base id.text)
    (randomSessionId first second) true
  obtain ⟨result,r,hanswer,hserved⟩ := server_answers hf id label hid hline hsize
  rw [← h.serving.control] at hanswer
  simp only [sessionStep,extract_point hs,extractStep,hall,hunit,hhead,if_false] at hs
  have hempty : d.toServer = [] := by
    have := h.request
    rw [hall] at this
    simpa using this
  simp only [requestStep,hanswer,hserved.plays,hserved.stays,Bool.not_true,Bool.false_eq_true,if_false] at hs
  have hquiet := h.serving.still (phase_before _ _ _)
  obtain ⟨hevents,rfl⟩ := Prod.mk.inj (Option.some.inj hs)
  refine ⟨result,r,_,hevents.symm,⟨h.point,h.prepared,hserved,?_,?_,hempty,?_,?_,fun _ => h.media⟩⟩
  · by_cases hplay : label = .play
    · subst hplay
      exact ⟨rfl,h.serving.looping,rfl,fun hn => absurd rfl hn⟩
    · simp only [hplay,decide_false,Bool.false_eq_true,if_false]
      exact ⟨rfl,h.serving.looping,trivial,fun _ => ⟨hquiet.1,rfl,rfl⟩⟩
  · split <;> rfl
  · rw [h.buffer,h.received,h.media]
    simp
  · intro _
    rw [h.buffer]
    have hne : result.response ≠ [] := fun hnil => by
      have := hserved.read.whole []
      rw [hnil] at this
      cases this
    exact List.length_pos_iff.mpr hne

theorem Asked.serves (h : Asked url channel.channelId units id label d.client x d.toServer d.toClient)
    (hy : Serving (label.before id.text channel.channelId) y) (hi : y.input = x.input)
    (hne : x.input ≠ label.request url.base id.text) :
    Asked url channel.channelId units id label d.client y d.toServer d.toClient :=
  ⟨h.point,h.prepared,h.buffer,hy,by rw [hi]; exact h.request,.inr (by rwa [hi]),h.received,h.media⟩

theorem Asked.polls (h : Asked url channel.channelId units id label d.client x d.toServer d.toClient)
    (hf : Fitting config url channel) {count : Nat} (hcount : count ≠ 0) (hne : d.toServer ≠ [])
    (hs : sessionStep config true sets x (.poll (some (d.toServer.take count))) = some (events,y)) :
    events = [] ∧ Asked url channel.channelId units id label d.client y (d.toServer.drop count) d.toClient := by
  have hchunk : d.toServer.take count ≠ [] := by
    rw [Ne,List.take_eq_nil_iff,not_or]
    exact ⟨hcount,hne⟩
  have hfits : overTotal config.limits (x.input ++ d.toServer.take count) = false := by
    have hlen := congrArg List.length h.request
    have hbound := (h.message hf 0).headerFits
    simp only [List.length_append] at hlen
    simp only [overTotal,List.length_append,List.length_take,decide_eq_false_iff_not]
    omega
  obtain ⟨hp,he,rfl⟩ := h.serving.polled hchunk hfits hs
  refine ⟨he,⟨h.point,h.prepared,h.buffer,h.serving.moved rfl rfl rfl trivial rfl rfl,?_,.inl rfl,h.received,h.media⟩⟩
  rw [List.append_assoc,List.take_append_drop]
  exact h.request

theorem Asked.serve_step (h : Asked url channel.channelId units id label d.client x d.toServer d.toClient)
    (hf : Fitting config url channel) (hsets : ∀ ch, Moderate (sets ch)) (hp : Prompt d action act)
    (hs : sessionStep config true sets x act = some (events,y)) :
    Kept url channel.channelId units (toLex (label.stage + 2,2 * d.toServer.length + d.client.point.pending)) d action
      events y := by
  cases hp with
  | unprompted ha hu hm =>
    have hne : x.input ≠ label.request url.base id.text := by
      refine h.whole.resolve_left fun hparsing => ?_
      cases ha <;> simp only [sessionStep,hparsing] at hs <;> cases hs
    have hq := h.serving.unprompted hf.mtu (h.cut hf hne).2 ha hs
    exact kept_silent (hq.silent (phase_before _ _ _)) hu (fun c => hm _) (.asked (h.serves hq.serving hq.input hne))
  | @poll count hcount hne =>
    obtain ⟨rfl,hkept⟩ := h.polls hf hcount hne hs
    have hless : 2 * (d.toServer.drop count).length + d.client.point.pending <
        2 * d.toServer.length + d.client.point.pending := by
      have := List.length_pos_iff.mpr hne
      rw [List.length_drop]
      omega
    refine ⟨by simp,_,?_,(lex_second hless).le,fun c _ => lex_second hless⟩
    simpa [Dialogue.unread] using Exchange.asked hkept
  | extract first second =>
    by_cases hall : x.input = label.request url.base id.text
    · obtain ⟨id',hid,h'⟩ := h.drawn first second
      have hsame : label.request url.base id.text = label.request url.base id'.text := by
        rw [← h.request,h'.request]
      obtain ⟨result,r,control,rfl,hanswered⟩ := h'.answers hf hsets hid (hall.trans hsame) hs
      have hless : (toLex (label.stage + 1,2 * (result.response.length - d.client.buffer.length) +
          d.client.point.pending) : ℕ ×ₗ ℕ) < toLex (label.stage + 2,2 * d.toServer.length + d.client.point.pending) :=
        lex_first (by omega)
      refine ⟨by simp [SessionEvent.media],_,?_,hless.le,fun c _ => hless⟩
      simpa [Dialogue.unread,SessionEvent.media,SessionEvent.written] using Exchange.answered hanswered
    · obtain ⟨he,hy,hi⟩ := extract_waits h.serving (h.cut hf hall).1 hs
      exact kept_silent he rfl (fun c => by simp [Moves]) (.asked (h.serves hy hi hall))

theorem Exchange.serve_step (h : Exchange url channel.channelId units d.client x d.toServer d.toClient m)
    (hf : Fitting config url channel) (hsets : ∀ ch, Moderate (sets ch)) (hopen : d.client.point ≠ .finished)
    (ha : d.sessionAction action = some act) (hs : sessionStep config true sets x act = some (events,y)) :
    Kept url channel.channelId units m d action events y := by
  have hprompt : d.client.gone = false → Prompt d action act := fun hgone => prompt_of_action hgone ha
  cases h with
  | asking h => exact h.serve_step hf (hprompt (by simp [Client.gone,h.point])) hs
  | asked h => exact h.serve_step hf hsets (hprompt (by rcases h.point with hp | hp <;> simp [Client.gone,hp])) hs
  | answered h => exact h.serve_step hf (hprompt (by rcases h.point with hp | hp <;> simp [Client.gone,hp])) hs
  | counting h => exact h.serve_step hf (hprompt (by rcases h.point with hp | hp | hp <;> simp [Client.gone,hp])) hs
  | finished h _ _ => exact absurd h hopen

theorem Exchange.of_finished {ch : Int} (h : Exchange url ch units d.client x d.toServer d.toClient m)
    (hfin : d.client.point = .finished) :
    m = toLex (0,0) ∧ ∃ counted waiting, units = counted ++ waiting ∧
      d.client.counters = counted.foldl Counters.packet {} := by
  cases h with
  | asking h => exact absurd (hfin.symm.trans h.point) (by simp)
  | asked h => rcases h.point with hp | hp <;> exact absurd (hfin.symm.trans hp) (by simp)
  | answered h => rcases h.point with hp | hp <;> exact absurd (hfin.symm.trans hp) (by simp)
  | counting h => rcases h.point with hp | hp | hp <;> exact absurd (hfin.symm.trans hp) (by simp)
  | finished _ hsplit hcounters => exact ⟨rfl,_,_,hsplit,hcounters⟩

theorem Exchange.left {ch : Int} (h : Exchange url ch units d.client x d.toServer d.toClient m)
    (hfin : d.client.point = .finished) (y : Session) (more : List Bytes) (toServer toClient : Bytes) :
    Exchange url ch (units ++ more) d.client y toServer toClient m := by
  obtain ⟨rfl,counted,waiting,hsplit,hcounters⟩ := h.of_finished hfin
  exact .finished hfin (by rw [hsplit,List.append_assoc]) hcounters

theorem Exchange.queued (h : Exchange url channel.channelId units d.client x d.toServer d.toClient m)
    (queue : BoundedFrameQueue) :
    Exchange url channel.channelId units d.client { x with queue := queue } d.toServer d.toClient m := by
  have hserving : ∀ state, Serving state x → Serving state { x with queue := queue } := fun state hx =>
    ⟨hx.control,hx.looping,hx.attends,hx.still⟩
  cases h with
  | asking h => exact .asking (h.serves (hserving _ h.serving) rfl)
  | asked h =>
    exact .asked ⟨h.point,h.prepared,h.buffer,hserving _ h.serving,h.request,h.whole,h.received,h.media⟩
  | answered h =>
    exact .answered ⟨h.point,h.prepared,h.served,hserving _ h.serving,h.input,h.sent,h.stream,h.short,h.media⟩
  | counting h =>
    exact .counting ⟨h.point,h.session,hserving _ h.serving,h.input,h.sent,h.split,h.counters,h.stream⟩
  | finished h hsplit hcounters => exact .finished h hsplit hcounters

end

end RtspsClient

end RpiVms

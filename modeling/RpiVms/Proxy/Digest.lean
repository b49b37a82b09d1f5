import RpiVms.Live.Control
import RpiVms.Proxy.Rewriter
import RpiVms.Rtsp.Blocks

namespace RpiVms

open Search Segments

-- the raw digest is openssl's
def md5Hex (md5 : Bytes → Bytes) (input : Bytes) : Bytes :=
  (md5 input).flatMap fun b =>
    [hexDigit ⟨b.toNat / 16,Nat.div_lt_of_lt_mul b.toNat_lt⟩,
      hexDigit ⟨b.toNat % 16,Nat.mod_lt _ (by decide)⟩]

def digestParam (auth key : Bytes) : Bytes :=
  let needle := key ++ ascii "="
  match find (lowerCopy needle) (lowerCopy auth) with
  | none => []
  | some pos =>
      match auth.drop (pos + needle.length) with
      | [] => []
      | 34 :: quoted =>
          match find [34] quoted with
          | none => []
          | some e => quoted.take e
      | value =>
          match find [44] value with
          | none => trimCopy value
          | some e => trimCopy (value.take e)

theorem blank_plain : Plain [] ∧ Plain [] := by decide

structure DigestChallenge where
  valid : Bool := false
  realm : Bytes := []
  nonce : Bytes := []
  qop : Bytes := []
  plain : Plain realm ∧ Plain nonce := by exact blank_plain
  deriving DecidableEq

theorem digestParam_within (auth key : Bytes) : digestParam auth key <:+: auth := by
  unfold digestParam
  simp only
  split
  · exact List.nil_infix
  · rename_i pos _
    split
    · exact List.nil_infix
    · rename_i quoted hq
      have hsuffix : quoted <:+: auth :=
        ((List.suffix_cons _ _).trans (hq ▸ List.drop_suffix _ _)).isInfix
      split
      · exact List.nil_infix
      · exact (List.take_prefix _ _).isInfix.trans hsuffix
    · rename_i hv
      have hsuffix := (List.drop_suffix (pos + (key ++ ascii "=").length) auth).isInfix
      split
      · exact (trimCopy_within _).trans hsuffix
      · exact (trimCopy_within _).trans ((List.take_prefix _ _).isInfix.trans hsuffix)

theorem digestParam_plain (message key : Bytes) :
    Plain (digestParam (headerValue message (ascii "WWW-Authenticate")) key) :=
  (headerValue_plain _ _).infix_of (digestParam_within _ _)

def firstQop (qop : Bytes) : Bytes :=
  match find [44] qop with
  | none => trimCopy qop
  | some comma => trimCopy (qop.take comma)

def parseDigestChallenge (message : Bytes) : DigestChallenge :=
  let auth := headerValue message (ascii "WWW-Authenticate")
  if auth.isEmpty || (find (ascii "digest") (lowerCopy auth)).isNone then {}
  else
    let realm := digestParam auth (ascii "realm")
    let nonce := digestParam auth (ascii "nonce")
    { valid := !realm.isEmpty && !nonce.isEmpty
      realm := realm
      nonce := nonce
      qop := firstQop (digestParam auth (ascii "qop"))
      plain := ⟨digestParam_plain message _,digestParam_plain message _⟩ }

def makeNc (value : UInt32) : Bytes := hexField value

def addAuthorizationHeader (request authHeader : Bytes) : Bytes :=
  match find headerEnd request with
  | none => request
  | some headerEnd =>
      match find (ascii "\r\nauthorization:") (lowerCopy request) with
      | some lineStart =>
          if lineStart < headerEnd then
            request.take (lineStart + 2) ++ authHeader ++
              match find crlf (request.drop (lineStart + 2)) with
              | none => []
              | some k => request.drop (lineStart + 2 + k)
          else request.take (headerEnd + 2) ++ authHeader ++ crlf ++ request.drop (headerEnd + 2)
      | none => request.take (headerEnd + 2) ++ authHeader ++ crlf ++ request.drop (headerEnd + 2)

structure DigestAuthenticator where
  challenge : DigestChallenge := {}
  nc : UInt32 := 1
  deriving DecidableEq

namespace DigestAuthenticator

variable (config : AppConfig) (md5 : Bytes → Bytes) (a : DigestAuthenticator)

def hasChallenge : Bool := a.challenge.valid

def updateFromUnauthorized (response : Bytes) : Option DigestAuthenticator :=
  let parsed := parseDigestChallenge response
  if parsed.valid then some { a with challenge := parsed } else none

def digestResponse (method uri qop nc cnonce : Bytes) : Bytes :=
  let colon := ascii ":"
  let ha1 := md5Hex md5 (config.cameraUser ++ colon ++ a.challenge.realm ++ colon ++ config.cameraPassword)
  let ha2 := md5Hex md5 (method ++ colon ++ uri)
  if qop.isEmpty then md5Hex md5 (ha1 ++ colon ++ a.challenge.nonce ++ colon ++ ha2)
  else
    md5Hex md5 (ha1 ++ colon ++ a.challenge.nonce ++ colon ++ nc ++ colon ++ cnonce ++ colon ++ qop ++
      colon ++ ha2)

def buildAuthorization (method uri : Bytes) (ncValue : UInt32) : Bytes :=
  let qop := if a.challenge.qop.isEmpty then [] else ascii "auth"
  let nc := makeNc ncValue
  let cnonce := ascii "rpi-rtsps-proxy"
  let response := a.digestResponse config md5 method uri qop nc cnonce
  ascii "Authorization: Digest username=\"" ++ config.cameraUser ++ ascii "\", realm=\"" ++
    a.challenge.realm ++ ascii "\", nonce=\"" ++ a.challenge.nonce ++ ascii "\", uri=\"" ++ uri ++
    ascii "\", response=\"" ++ response ++ ascii "\"" ++
    if qop.isEmpty then []
    else ascii ", qop=" ++ qop ++ ascii ", nc=" ++ nc ++ ascii ", cnonce=\"" ++ cnonce ++ ascii "\""

def authorize (request : Bytes) : Bytes × DigestAuthenticator :=
  if !a.challenge.valid then (request,a)
  else
    let method := readWord (getFirstLine request)
    let uri := readWord method.rest
    if method.text.isEmpty || uri.text.isEmpty then (request,a)
    else
      (addAuthorizationHeader request (a.buildAuthorization config md5 method.text uri.text a.nc),
        { a with nc := a.nc + 1 })

end DigestAuthenticator

theorem plain_value {value text rest : Bytes} (hv : Plain value)
    (ht : (13 : UInt8) ∉ text ∧ text ≠ [] ∧ text.head? ≠ some 10) (hr : Plain rest) :
    Plain (value ++ (text ++ rest)) := by
  refine plain_glue hv (plain_append ht.1 hr) ?_
  rw [List.head?_append_of_ne_nil _ ht.2.1]
  exact ht.2.2

theorem md5Hex_plain (md5 : Bytes → Bytes) (input : Bytes) : (13 : UInt8) ∉ md5Hex md5 input := by
  have hd : ∀ d, hexDigit d ≠ 13 := by decide
  simp [md5Hex,(hd _).symm]

theorem hexField_plain (n : UInt32) : (13 : UInt8) ∉ hexField n := by
  have hd : ∀ d, hexDigit d ≠ 13 := by decide
  simp [hexField,(hd _).symm]

theorem word_plain (s : Bytes) : (13 : UInt8) ∉ (readWord s).text := by
  intro h
  have := List.mem_takeWhile_imp h
  exact absurd this (by decide)

def authorizationName : Bytes := ascii "authorization:"

namespace DigestAuthenticator

variable {config : AppConfig} {md5 : Bytes → Bytes} {a : DigestAuthenticator} {method uri : Bytes}
  {nc : UInt32}

theorem build_starts :
    startsWithCi (a.buildAuthorization config md5 method uri nc) authorizationName = true := by
  have hcut : ascii "Authorization: Digest username=\"" =
      ascii "Authorization:" ++ ascii " Digest username=\"" := by decide
  simp only [buildAuthorization,List.append_assoc]
  rw [hcut,List.append_assoc]
  exact startsWithCi_lower _ (by decide)

theorem build_plain (hu : Plain config.cameraUser) (huri : (13 : UInt8) ∉ uri) :
    Plain (a.buildAuthorization config md5 method uri nc) := by
  have hresponse (qop nc cnonce : Bytes) :
      (13 : UInt8) ∉ a.digestResponse config md5 method uri qop nc cnonce := by
    unfold digestResponse
    split <;> exact md5Hex_plain _ _
  simp only [buildAuthorization,List.append_assoc]
  refine plain_append (by decide) (plain_value hu (by decide) (plain_value a.challenge.plain.1 (by decide)
    (plain_value a.challenge.plain.2 (by decide) (plain_append huri (plain_append (by decide)
      (plain_append (hresponse _ _ _) (plain_append (by decide) ?_)))))))
  by_cases hq : a.challenge.qop.isEmpty
  · simp only [if_pos hq,List.isEmpty_nil,if_true]
    decide
  · rw [if_neg hq,if_neg (by decide)]
    exact plain_append (by decide) (plain_append (by decide) (plain_append (by decide)
      (plain_append (hexField_plain nc) (by decide))))

end DigestAuthenticator

theorem not_cseq {line : Bytes} (h : startsWithCi line authorizationName = true) :
    startsWithCi line (lowerCopy (ascii "CSeq") ++ ascii ":") = false := by
  rw [Bool.eq_false_iff]
  intro hc
  have ha := congrArg List.head? (startsWithCi_eq h).2
  have hb := congrArg List.head? (startsWithCi_eq hc).2
  simp only [lowerCopy,List.head?_map,List.head?_take] at ha hb
  rw [if_neg (by decide)] at ha hb
  rw [ha] at hb
  exact absurd hb (by decide)

theorem authorization_line {request : Bytes} {p n : Nat} (hs : ¬ crlf <+: request)
    (h : find headerEnd request = some n)
    (hf : find (crlf ++ authorizationName) (lowerCopy request) = some p) (hpn : p < n) :
    ∃ before old after body, request = headerBlock (before ++ old :: after) ++ body ∧
      HeaderLines (before ++ old :: after) ∧ (before.flatMap (· ++ crlf)).length = p + 2 ∧
      startsWithCi old authorizationName = true := by
  obtain ⟨-,hpre,-⟩ := find_eq_some.mp hf
  rw [lowerCopy,← List.map_drop] at hpre
  have hbreak : crlf <+: request.drop p :=
    (crlf_prefix_lower _).mp ((List.prefix_append _ _).trans hpre)
  have hname : authorizationName <+: lowerCopy (request.drop (p + 2)) := by
    obtain ⟨t,ht⟩ := hpre
    have := congrArg (List.drop 2) ht
    rw [← List.map_drop,List.drop_drop] at this
    exact ⟨t,this⟩
  have hend : crlf <+: request.drop n :=
    (show crlf <+: headerEnd by decide).trans (find_eq_some.mp h).2.1
  have hp2 : p + 2 ≤ n := by
    by_contra hc
    obtain rfl : n = p + 1 := by omega
    obtain ⟨t,ht⟩ := hbreak
    rw [← List.drop_drop,← ht] at hend
    exact absurd (List.cons_prefix_cons.mp hend).1 (by decide)
  have hstart : ¬ crlf <+: request.drop (p + 2) := by
    intro hc
    have h1 := (crlf_prefix_lower _).mpr hc
    obtain ⟨t,ht⟩ := hname
    rw [← ht] at h1
    exact absurd (List.cons_prefix_cons.mp h1).1 (by decide)
  obtain ⟨before,old,after,hlines,hbody,hlength,hrest⟩ := block_at_break h hs hbreak hp2 hstart
  refine ⟨before,old,after,_,hbody,hlines,hlength,?_⟩
  rw [hrest,headerBlock_cons,List.append_assoc] at hname
  exact startsWithCi_of_prefix (by decide) (by decide) hname

structure AuthorizedLines (request auth : Bytes) (before old after : List Bytes) (body : Bytes) : Prop where
  source : request = headerBlock (before ++ old ++ after) ++ body
  authorized : addAuthorizationHeader request auth = headerBlock (before ++ auth :: after) ++ body
  lines : HeaderLines (before ++ old ++ after)
  old : ∀ l ∈ old, startsWithCi l authorizationName = true

theorem authorized_lines {request : Bytes} (auth : Bytes) {n : Nat}
    (h : find headerEnd request = some n) (hs : ¬ crlf <+: request) :
    ∃ before old after body, AuthorizedLines request auth before old after body := by
  obtain ⟨ls,hls,hsplit,hlen⟩ := block_of_find h hs
  have hinsert : request.take (n + 2) ++ auth ++ crlf ++ request.drop (n + 2) =
      headerBlock (ls ++ [auth]) ++ request.drop (n + 4) := by
    have hl : (ls.flatMap (· ++ crlf)).length = n + 2 := by
      have := hlen
      simp only [headerBlock,List.length_append,crlf,List.length_cons,List.length_nil] at this
      simpa [crlf] using this
    have hcut : request = ls.flatMap (· ++ crlf) ++ (crlf ++ request.drop (n + 4)) := by
      rw [← List.append_assoc]
      exact hsplit
    have htake : request.take (n + 2) = ls.flatMap (· ++ crlf) := by
      rw [hcut,List.take_left' hl]
    have hdrop : request.drop (n + 2) = crlf ++ request.drop (n + 4) := by
      nth_rewrite 1 [hcut]
      exact List.drop_left' hl
    rw [htake,hdrop,headerBlock_append]
    simp [headerBlock]
  have hend : addAuthorizationHeader request auth = headerBlock (ls ++ [auth]) ++ request.drop (n + 4) →
      ∃ before old after body, AuthorizedLines request auth before old after body := fun hout =>
    ⟨ls,[],[],_,by simpa using hsplit,hout,by simpa using hls,by simp⟩
  cases hf : find (ascii "\r\nauthorization:") (lowerCopy request) with
  | none =>
    refine hend (Eq.trans ?_ hinsert)
    simp only [addAuthorizationHeader,h,hf]
  | some p =>
    by_cases hpn : p < n
    · obtain ⟨before,old,after,body,hreq,hlines,hbefore,hold⟩ := authorization_line hs h hf hpn
      have hcut : request = before.flatMap (· ++ crlf) ++ (old ++ (crlf ++ (headerBlock after ++ body))) := by
        rw [hreq,headerBlock_append,headerBlock_cons]
        simp
      have htake : request.take (p + 2) = before.flatMap (· ++ crlf) := by
        rw [hcut,List.take_left' hbefore]
      have hdrop : request.drop (p + 2) = old ++ crlf ++ (headerBlock after ++ body) := by
        rw [hcut,List.drop_left' hbefore,List.append_assoc]
      have hplain : Plain old := hlines.allPlain old (by simp)
      refine ⟨before,[old],after,body,by simpa using hreq,?_,by simpa using hlines,by simpa using hold⟩
      simp only [addAuthorizationHeader,h,hf,if_pos hpn,htake,hdrop,
        find_append (clean_iff_plain.mpr hplain)]
      rw [← List.drop_drop,hdrop,List.append_assoc old,List.drop_left,headerBlock_append,
        headerBlock_cons]
      simp
    · refine hend (Eq.trans ?_ hinsert)
      simp only [addAuthorizationHeader,h,hf,if_neg hpn]

theorem cseq_lines {ls : List Bytes} (h : HeaderLines ls) (body : Bytes) :
    cseqFromMessage (headerBlock ls ++ body) =
      match (ls ++ [[]]).find? (startsWithCi · (lowerCopy (ascii "CSeq") ++ ascii ":")) with
      | none => []
      | some line => trimCopy (line.drop 5) := by
  rw [cseqFromMessage,messageHeaderPart_block h.ne_nil h.plain,headerValue,segments_block ls h.allPlain]
  rfl

theorem cseq_authorized {request auth : Bytes} (hs : ¬ crlf <+: request) (hp : Plain auth)
    (ha : startsWithCi auth authorizationName = true) :
    cseqFromMessage (addAuthorizationHeader request auth) = cseqFromMessage request := by
  cases h : find headerEnd request with
  | none => rw [addAuthorizationHeader,h]
  | some n =>
    obtain ⟨before,old,after,body,hl⟩ := authorized_lines auth h hs
    have hne : auth ≠ [] := by
      rintro rfl
      exact absurd ha (by decide)
    have hlines : HeaderLines (before ++ auth :: after) := hl.lines.replace hp hne
    have hold : ∀ l ∈ old, startsWithCi l (lowerCopy (ascii "CSeq") ++ ascii ":") = false :=
      fun l hm => not_cseq (hl.old l hm)
    rw [hl.authorized,cseq_lines hlines,hl.source,cseq_lines hl.lines]
    simp only [List.append_assoc,List.find?_append,List.cons_append,List.find?_cons,not_cseq ha,
      List.find?_eq_none.mpr fun l hm => Bool.not_eq_true _ ▸ hold l hm,Option.none_or]

namespace DigestAuthenticator

variable {config : AppConfig} {md5 : Bytes → Bytes} {a : DigestAuthenticator}

theorem authorize_cseq (hu : Plain config.cameraUser) (request : Bytes) :
    cseqFromMessage (a.authorize config md5 request).1 = cseqFromMessage request := by
  unfold authorize
  split
  · rfl
  · simp only
    split
    · rfl
    · rename_i hw
      refine cseq_authorized ?_ (build_plain hu (word_plain _)) build_starts
      intro hc
      have hfirst : getFirstLine request = [] := by
        have hf : find crlf request = some 0 := by
          obtain ⟨t,ht⟩ := hc
          exact find_eq_some.mpr ⟨by rw [← ht]; simp [crlf],by rw [List.drop_zero]; exact ⟨t,ht⟩,by simp⟩
        rw [getFirstLine,hf]
        rfl
      rw [hfirst] at hw
      exact hw (by decide)

end DigestAuthenticator

end RpiVms

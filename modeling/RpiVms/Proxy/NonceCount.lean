import RpiVms.Library.Positional
import RpiVms.Library.Runs
import RpiVms.Proxy.Digest

namespace RpiVms

open Runs Positional

inductive DigestCall where
  | unauthorized (response : Bytes)
  | authorize (request : Bytes)
  deriving DecidableEq, Repr

-- the checks of authorize: a challenge is there and the request line has a method and a URI
def DigestChallenge.builds (c : DigestChallenge) (request : Bytes) : Bool :=
  let method := readWord (getFirstLine request)
  c.valid && !method.text.isEmpty && !(readWord method.rest).text.isEmpty

namespace DigestAuthenticator

variable (config : AppConfig) (md5 : Bytes → Bytes)

-- the line that authorize passes to add_authorization_header
def builtHeader (a : DigestAuthenticator) (request : Bytes) : Option Bytes :=
  let method := readWord (getFirstLine request)
  if a.challenge.builds request then
    some (a.buildAuthorization config md5 method.text (readWord method.rest).text a.nc)
  else none

def afterCall (a : DigestAuthenticator) : DigestCall → DigestAuthenticator
  | .unauthorized response => (a.updateFromUnauthorized response).getD a
  | .authorize request => (a.authorize config md5 request).2

def afterCalls (a : DigestAuthenticator) (calls : List DigestCall) : DigestAuthenticator :=
  calls.foldl (afterCall config md5) a

end DigestAuthenticator

def cnonceField : Bytes := ascii ", cnonce=\"rpi-rtsps-proxy\""

def ncField (header : Bytes) : Bytes := (header.drop (header.length - (cnonceField.length + 8))).take 8

structure NonceUse where
  challenge : DigestChallenge := {}
  headers : Nat := 0
  earlier : Nat := 0
  deriving DecidableEq

def NonceUse.next (u : NonceUse) : DigestCall → NonceUse
  | .unauthorized response =>
      let parsed := parseDigestChallenge response
      if !parsed.valid then u
      else if parsed.nonce = u.challenge.nonce then { u with challenge := parsed }
      else { challenge := parsed, headers := 0, earlier := u.earlier + u.headers }
  | .authorize request => if u.challenge.builds request then { u with headers := u.headers + 1 } else u

def nonceUse (calls : List DigestCall) : NonceUse := calls.foldl NonceUse.next {}

def HasBuilt (calls : List DigestCall) : Prop :=
  ∃ pre call post, calls = pre ++ call :: post ∧
    ∃ request, call = .authorize request ∧ (nonceUse pre).challenge.builds request = true

def AdoptsNonce (c : DigestChallenge) (response : Bytes) : Prop :=
  (parseDigestChallenge response).valid = true ∧ (parseDigestChallenge response).nonce ≠ c.nonce

def NonceReplaced (calls : List DigestCall) : Prop :=
  ∃ pre call post, calls = pre ++ call :: post ∧
    ∃ response, call = .unauthorized response ∧ AdoptsNonce (nonceUse pre).challenge response ∧ HasBuilt pre

theorem builds_iff {c : DigestChallenge} {request : Bytes} :
    c.builds request = true ↔ c.valid = true ∧ (readWord (getFirstLine request)).text.isEmpty = false ∧
      (readWord (readWord (getFirstLine request)).rest).text.isEmpty = false := by
  simp [DigestChallenge.builds,and_assoc]

section

variable {u : NonceUse} {response request : Bytes}

theorem next_rejected (h : (parseDigestChallenge response).valid = false) : u.next (.unauthorized response) = u := by
  simp [NonceUse.next,h]

theorem next_again (hv : (parseDigestChallenge response).valid = true)
    (hn : (parseDigestChallenge response).nonce = u.challenge.nonce) :
    u.next (.unauthorized response) = { u with challenge := parseDigestChallenge response } := by
  simp [NonceUse.next,hv,hn]

theorem next_adopts (h : AdoptsNonce u.challenge response) :
    u.next (.unauthorized response) = ⟨parseDigestChallenge response,0,u.earlier + u.headers⟩ := by
  simp [NonceUse.next,h.1,h.2]

theorem next_builds (h : u.challenge.builds request = true) :
    u.next (.authorize request) = { u with headers := u.headers + 1 } := if_pos h

theorem next_idle (h : u.challenge.builds request = false) : u.next (.authorize request) = u :=
  if_neg (by simp [h])

end

inductive CallCase (u : NonceUse) : DigestCall → Prop
  | rejected {response} : (parseDigestChallenge response).valid = false → CallCase u (.unauthorized response)
  | again {response} : (parseDigestChallenge response).valid = true →
      (parseDigestChallenge response).nonce = u.challenge.nonce → CallCase u (.unauthorized response)
  | adopted {response} : AdoptsNonce u.challenge response → CallCase u (.unauthorized response)
  | built {request} : u.challenge.builds request = true → CallCase u (.authorize request)
  | idle {request} : u.challenge.builds request = false → CallCase u (.authorize request)

theorem call_case (u : NonceUse) (call : DigestCall) : CallCase u call := by
  cases call with
  | unauthorized response =>
    cases hv : (parseDigestChallenge response).valid with
    | false => exact .rejected hv
    | true =>
      by_cases hn : (parseDigestChallenge response).nonce = u.challenge.nonce
      · exact .again hv hn
      · exact .adopted ⟨hv,hn⟩
  | authorize request =>
    cases hb : u.challenge.builds request with
    | false => exact .idle hb
    | true => exact .built hb

section

variable {config : AppConfig} {md5 : Bytes → Bytes} {a : DigestAuthenticator} {response request : Bytes}

theorem update_rejected (h : (parseDigestChallenge response).valid = false) :
    a.updateFromUnauthorized response = none := if_neg (by simp [h])

theorem update_accepted (h : (parseDigestChallenge response).valid = true) :
    a.updateFromUnauthorized response = some { a with challenge := parseDigestChallenge response } := if_pos h

theorem builtHeader_eq_some {header : Bytes} :
    a.builtHeader config md5 request = some header ↔ a.challenge.builds request = true ∧
      a.buildAuthorization config md5 (readWord (getFirstLine request)).text
        (readWord (readWord (getFirstLine request)).rest).text a.nc = header := by
  unfold DigestAuthenticator.builtHeader
  cases a.challenge.builds request <;> simp

theorem authorize_built {header : Bytes} (h : a.builtHeader config md5 request = some header) :
    a.authorize config md5 request = (addAuthorizationHeader request header,{ a with nc := a.nc + 1 }) := by
  obtain ⟨hb,hheader⟩ := builtHeader_eq_some.mp h
  obtain ⟨hv,hm,hu⟩ := builds_iff.mp hb
  simp [DigestAuthenticator.authorize,hv,hm,hu,hheader]

theorem authorize_idle (h : a.challenge.builds request = false) : a.authorize config md5 request = (request,a) := by
  unfold DigestAuthenticator.authorize
  cases hv : a.challenge.valid with
  | false => rfl
  | true =>
    have hwords : ((readWord (getFirstLine request)).text.isEmpty ||
        (readWord (readWord (getFirstLine request)).rest).text.isEmpty) = true := by
      rw [← Bool.not_eq_true,builds_iff] at h
      by_contra hc
      rw [Bool.not_eq_true,Bool.or_eq_false_iff] at hc
      exact h ⟨hv,hc⟩
    simp only [Bool.not_true,Bool.false_eq_true,if_false,hwords,if_true]

end

section

variable {config : AppConfig} {md5 : Bytes → Bytes} {calls : List DigestCall} {call : DigestCall}

theorem nonceUse_snoc : nonceUse (calls ++ [call]) = (nonceUse calls).next call := by
  simp [nonceUse]

theorem afterCalls_snoc (a : DigestAuthenticator) :
    a.afterCalls config md5 (calls ++ [call]) = (a.afterCalls config md5 calls).afterCall config md5 call := by
  simp [DigestAuthenticator.afterCalls]

-- nc_ counts every header of the authenticator's life
theorem afterCalls_counts (config : AppConfig) (md5 : Bytes → Bytes) (calls : List DigestCall) :
    ({} : DigestAuthenticator).afterCalls config md5 calls =
      ⟨(nonceUse calls).challenge,UInt32.ofNat ((nonceUse calls).earlier + (nonceUse calls).headers + 1)⟩ := by
  induction calls using List.reverseRecOn with
  | nil => rfl
  | append_singleton calls call ih =>
    rw [afterCalls_snoc,ih,nonceUse_snoc]
    generalize nonceUse calls = u
    cases call_case u call with
    | rejected hv => rw [next_rejected hv,DigestAuthenticator.afterCall,update_rejected hv,Option.getD_none]
    | again hv hn => rw [next_again hv hn,DigestAuthenticator.afterCall,update_accepted hv,Option.getD_some]
    | adopted hn =>
      rw [next_adopts hn,DigestAuthenticator.afterCall,update_accepted hn.1,Option.getD_some]
      rfl
    | idle hb => rw [next_idle hb,DigestAuthenticator.afterCall,authorize_idle hb]
    | built hb =>
      rw [next_builds hb,DigestAuthenticator.afterCall,authorize_built (builtHeader_eq_some.mpr ⟨hb,rfl⟩),
        ← Nat.add_assoc]
      simp only [DigestAuthenticator.mk.injEq,true_and]
      exact (UInt32.ofNat_add _ 1).symm

theorem nonceUse_bound (calls : List DigestCall) :
    (nonceUse calls).earlier + (nonceUse calls).headers ≤ calls.length := by
  induction calls using List.reverseRecOn with
  | nil => exact Nat.le_refl 0
  | append_singleton calls call ih =>
    rw [nonceUse_snoc,List.length_append,List.length_singleton]
    cases call_case (nonceUse calls) call with
    | rejected hv =>
      rw [next_rejected hv]
      omega
    | again hv hn =>
      rw [next_again hv hn]
      exact Nat.le_succ_of_le ih
    | adopted hn =>
      rw [next_adopts hn]
      exact Nat.le_succ_of_le ih
    | idle hb =>
      rw [next_idle hb]
      omega
    | built hb =>
      rw [next_builds hb]
      exact Nat.succ_le_succ ih

theorem hasBuilt_iff (calls : List DigestCall) :
    HasBuilt calls ↔ 0 < (nonceUse calls).earlier + (nonceUse calls).headers := by
  induction calls using List.reverseRecOn with
  | nil =>
    refine iff_of_false ?_ (Nat.lt_irrefl 0)
    rintro ⟨pre,c,post,he,-⟩
    simp at he
  | append_singleton calls call ih =>
    rw [HasBuilt,exists_split_snoc,← HasBuilt,ih,nonceUse_snoc]
    generalize nonceUse calls = u
    cases call_case u call with
    | rejected hv => simp [next_rejected hv]
    | again hv hn => simp [next_again hv hn]
    | adopted hn => simp [next_adopts hn]
    | idle hb => simp [next_idle hb,hb]
    | built hb => simp [next_builds hb,hb,← Nat.add_assoc]

theorem nonceReplaced_iff (calls : List DigestCall) : NonceReplaced calls ↔ 0 < (nonceUse calls).earlier := by
  induction calls using List.reverseRecOn with
  | nil =>
    refine iff_of_false ?_ (Nat.lt_irrefl 0)
    rintro ⟨pre,c,post,he,-⟩
    simp at he
  | append_singleton calls call ih =>
    rw [NonceReplaced,exists_split_snoc,← NonceReplaced,ih,nonceUse_snoc,hasBuilt_iff]
    generalize nonceUse calls = u
    cases call_case u call with
    | rejected hv => simp [next_rejected hv,AdoptsNonce,hv]
    | again hv hn => simp [next_again hv hn,AdoptsNonce,hn]
    | adopted hn =>
      rw [next_adopts hn]
      simp only [DigestCall.unauthorized.injEq,exists_eq_left',hn,true_and]
      omega
    | idle hb => simp [next_idle hb]
    | built hb => simp [next_builds hb]

end

theorem hexDigit_inj : ∀ d e, hexDigit d = hexDigit e → d = e := by decide

theorem makeNc_inj {m n : UInt32} (h : makeNc m = makeNc n) : m = n := by
  unfold makeNc hexField at h
  have hdigits : ∀ i < 8, m.toNat / 16 ^ i % 16 = n.toNat / 16 ^ i % 16 := by
    intro i hi
    have hmem : i ∈ [7,6,5,4,3,2,1,0] := by
      simp only [List.mem_cons,List.not_mem_nil,or_false]
      omega
    exact congrArg Fin.val (hexDigit_inj _ _ (List.map_inj_left.mp h i hmem))
  have hvalue := mod_pow_of_digits hdigits
  have hm : m.toNat < 16 ^ 8 := m.toNat_lt
  have hn : n.toNat < 16 ^ 8 := n.toNat_lt
  rw [Nat.mod_eq_of_lt hm,Nat.mod_eq_of_lt hn] at hvalue
  exact UInt32.toNat_inj.mp hvalue

theorem ncField_suffix {header : Bytes} {nc : UInt32} (h : makeNc nc ++ cnonceField <:+ header) :
    ncField header = makeNc nc := by
  obtain ⟨w,rfl⟩ := h
  have hl : (makeNc nc).length = 8 := by simp [makeNc,hexField]
  have hlength : (w ++ (makeNc nc ++ cnonceField)).length - (cnonceField.length + 8) = w.length := by
    simp only [List.length_append,hl]
    omega
  rw [ncField,hlength,List.drop_left,List.take_left' hl]

theorem build_ncField {config : AppConfig} {md5 : Bytes → Bytes} {a : DigestAuthenticator} {method uri : Bytes}
    (h : a.challenge.qop ≠ []) (nc : UInt32) :
    ncField (a.buildAuthorization config md5 method uri nc) = makeNc nc := by
  have hq : a.challenge.qop.isEmpty = false := by simpa using h
  have hauth : (ascii "auth").isEmpty = false := by decide
  have hc : cnonceField = ascii ", cnonce=\"" ++ (ascii "rpi-rtsps-proxy" ++ ascii "\"") := by decide
  apply ncField_suffix
  simp only [DigestAuthenticator.buildAuthorization,hq,hauth,Bool.false_eq_true,if_false,hc,List.append_assoc]
  repeat first | exact List.suffix_rfl | apply List.suffix_append_of_suffix

theorem counts_iff {earlier headers : Nat} (h : earlier + headers + 1 < 2 ^ 32) :
    makeNc (UInt32.ofNat (earlier + headers + 1)) = makeNc (UInt32.ofNat (headers + 1)) ↔ ¬ 0 < earlier := by
  constructor
  · intro he
    have hn := congrArg UInt32.toNat (makeNc_inj he)
    rw [UInt32.toNat_ofNat_of_lt' h,UInt32.toNat_ofNat_of_lt' (show headers + 1 < 2 ^ 32 by omega)] at hn
    omega
  · intro h0
    rw [Nat.eq_zero_of_not_pos h0,Nat.zero_add]

theorem nonce_counts_iff (config : AppConfig) (md5 : Bytes → Bytes) {calls : List DigestCall}
    (h : calls.length < 2 ^ 32) :
    ((∀ before request after header, calls = before ++ .authorize request :: after →
        (({} : DigestAuthenticator).afterCalls config md5 before).builtHeader config md5 request = some header →
        (({} : DigestAuthenticator).afterCalls config md5 before).challenge.qop ≠ [] →
        ncField header = makeNc (UInt32.ofNat ((nonceUse before).headers + 1))) ∧
      ∀ before response after, calls = before ++ .unauthorized response :: after →
        (({} : DigestAuthenticator).afterCalls config md5 before).updateFromUnauthorized response = none →
        ({} : DigestAuthenticator).afterCalls config md5 (before ++ [.unauthorized response]) =
          ({} : DigestAuthenticator).afterCalls config md5 before) ↔
    ∀ before request after, calls = before ++ .authorize request :: after →
      (nonceUse before).challenge.builds request = true → (nonceUse before).challenge.qop ≠ [] →
      ¬ NonceReplaced before := by
  have hrejected : ∀ before response after, calls = before ++ .unauthorized response :: after →
      (({} : DigestAuthenticator).afterCalls config md5 before).updateFromUnauthorized response = none →
      ({} : DigestAuthenticator).afterCalls config md5 (before ++ [.unauthorized response]) =
        ({} : DigestAuthenticator).afterCalls config md5 before := by
    rintro before response after - hnone
    rw [afterCalls_snoc,DigestAuthenticator.afterCall,hnone,Option.getD_none]
  rw [and_iff_left hrejected]
  have hcount {before : List DigestCall} {request : Bytes} {after : List DigestCall}
      (he : calls = before ++ .authorize request :: after) :
      makeNc (UInt32.ofNat ((nonceUse before).earlier + (nonceUse before).headers + 1)) =
        makeNc (UInt32.ofNat ((nonceUse before).headers + 1)) ↔ ¬ NonceReplaced before := by
    have hbound := nonceUse_bound before
    rw [he,List.length_append,List.length_cons] at h
    rw [nonceReplaced_iff,counts_iff (by omega)]
  constructor
  · intro hall before request after he hb hq
    have hstate := afterCalls_counts config md5 before
    have hfield := hall before request after _ he
      (by rw [hstate]; exact builtHeader_eq_some.mpr ⟨hb,rfl⟩) (by rwa [hstate])
    rw [build_ncField hq] at hfield
    exact (hcount he).mp hfield
  · intro hall before request after header he hheader hq
    rw [afterCalls_counts] at hheader hq
    obtain ⟨hb,rfl⟩ := builtHeader_eq_some.mp hheader
    rw [build_ncField hq]
    exact (hcount he).mpr (hall before request after he hb hq)

def unauthorizedReply (nonce : Bytes) : Bytes :=
  ascii "RTSP/1.0 401 Unauthorized\r\nWWW-Authenticate: Digest realm=\"cam\", nonce=\"" ++ nonce ++
    ascii "\", qop=\"auth\"\r\n\r\n"

def optionsCall : DigestCall := .authorize (ascii "OPTIONS /1 RTSP/1.0\r\n\r\n")

def plainCamera : AppConfig := { cameraHost := ascii "cam", cameraPassword := ascii "pw" }

theorem nonce_counts_one_nonce :
    let calls := [.unauthorized (unauthorizedReply (ascii "a")),optionsCall,optionsCall]
    calls.length < 2 ^ 32 ∧
    ∀ before request after header, calls = before ++ .authorize request :: after →
      (({} : DigestAuthenticator).afterCalls plainCamera id before).builtHeader plainCamera id request = some header →
      (({} : DigestAuthenticator).afterCalls plainCamera id before).challenge.qop ≠ [] →
      ncField header = makeNc (UInt32.ofNat ((nonceUse before).headers + 1)) := by
  intro calls
  refine ⟨by decide,((nonce_counts_iff plainCamera id (by decide)).mpr ?_).1⟩
  rintro before request after he - - hr
  rw [nonceReplaced_iff] at hr
  have hprefix : before ∈ calls.inits := (List.mem_inits _ _).mpr ⟨_,he.symm⟩
  have hnone : ∀ b ∈ calls.inits, (nonceUse b).earlier = 0 := by decide +kernel
  have hzero := hnone before hprefix
  omega

theorem nonce_count_not_restarted :
    let calls := [.unauthorized (unauthorizedReply (ascii "a")),optionsCall,
      .unauthorized (unauthorizedReply (ascii "b"))]
    let a := ({} : DigestAuthenticator).afterCalls plainCamera id calls
    a.challenge.nonce = ascii "b" ∧ a.challenge.qop = ascii "auth" ∧ (nonceUse calls).headers = 0 ∧
    (a.builtHeader plainCamera id (ascii "OPTIONS /1 RTSP/1.0\r\n\r\n")).map ncField = some (ascii "00000002") := by
  decide +kernel

end RpiVms

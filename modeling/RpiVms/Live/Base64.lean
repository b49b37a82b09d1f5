import RpiVms.Library.BitGroups
import RpiVms.Live.AccessUnits
import RpiVms.Live.Parameters

namespace RpiVms

open BitGroups

def base64Char (n : Nat) : UInt8 := base64Alphabet.getD n 0

def base64Text : Bytes → Bytes
  | [] => []
  | [a] =>
      let n := a.toNat * 16
      [base64Char (n / 64),base64Char (n % 64),61,61]
  | [a,b] =>
      let n := (a.toNat * 256 + b.toNat) * 4
      [base64Char (n / 4096),base64Char (n / 64 % 64),base64Char (n % 64),61]
  | a :: b :: c :: rest =>
      let n := (a.toNat * 256 + b.toNat) * 256 + c.toNat
      base64Char (n / 262144) :: base64Char (n / 4096 % 64) :: base64Char (n / 64 % 64) ::
        base64Char (n % 64) :: base64Text rest

theorem base64Value (a b c : UInt8) :
    ((a.toUInt32 <<< 16) ||| (b.toUInt32 <<< 8) ||| c.toUInt32).toNat =
      (a.toNat * 256 + b.toNat) * 256 + c.toNat := by
  have h := readU32_bytes 0 a b c []
  have hread : readU32 [0,a,b,c] = (a.toUInt32 <<< 16) ||| (b.toUInt32 <<< 8) ||| c.toUInt32 := by
    simp [readU32]
  rw [hread] at h
  rw [h]
  simp
  omega

theorem base64Digit_eq (value : UInt32) {k m : Nat} (hk : k < 32) (hm : 2 ^ k = m) :
    base64Digit value (UInt32.ofNat k) = base64Char (value.toNat / m % 64) := by
  have hand (n : Nat) : n &&& 63 = n % 64 := Nat.and_two_pow_sub_one_eq_mod n 6
  unfold base64Digit base64Char
  congr 1
  simp [Nat.shiftRight_eq_div_pow,hand,Nat.mod_eq_of_lt hk,hm]

theorem base64Group_text (a b c : UInt8) (remaining : Nat) :
    base64Group a b c remaining =
      let n := (a.toNat * 256 + b.toNat) * 256 + c.toNat
      [base64Char (n / 262144),base64Char (n / 4096 % 64),
        if remaining > 1 then base64Char (n / 64 % 64) else 61,
        if remaining > 2 then base64Char (n % 64) else 61] := by
  have hlt : ((a.toNat * 256 + b.toNat) * 256 + c.toNat) / 262144 < 64 := by
    have ha := a.toNat_lt
    have hb := b.toNat_lt
    have hc := c.toNat_lt
    omega
  simp only [base64Group]
  generalize hv : (a.toUInt32 <<< 16) ||| (b.toUInt32 <<< 8) ||| c.toUInt32 = value
  have hn : value.toNat = (a.toNat * 256 + b.toNat) * 256 + c.toNat := hv ▸ base64Value a b c
  have h18 : base64Digit value 18 = base64Char (value.toNat / 262144 % 64) :=
    base64Digit_eq value (by decide) rfl
  have h12 : base64Digit value 12 = base64Char (value.toNat / 4096 % 64) :=
    base64Digit_eq value (by decide) rfl
  have h6 : base64Digit value 6 = base64Char (value.toNat / 64 % 64) :=
    base64Digit_eq value (by decide) rfl
  have h0 : base64Digit value 0 = base64Char (value.toNat / 1 % 64) :=
    base64Digit_eq value (by decide) rfl
  rw [h18,h12,h6,h0,hn,Nat.div_one,Nat.mod_eq_of_lt hlt]

theorem base64Encode_text (data : Bytes) : base64Encode data = base64Text data := by
  fun_induction base64Encode data with
  | case1 => rfl
  | case2 a =>
    have h1 : a.toNat * 256 * 256 / 262144 = a.toNat * 16 / 64 := by omega
    have h2 : a.toNat * 256 * 256 / 4096 % 64 = a.toNat * 16 % 64 := by omega
    simp [base64Group_text,base64Text,h1,h2]
  | case3 a b =>
    have h1 : (a.toNat * 256 + b.toNat) * 256 / 262144 =
        (a.toNat * 256 + b.toNat) * 4 / 4096 := by omega
    have h2 : (a.toNat * 256 + b.toNat) * 256 / 4096 % 64 =
        (a.toNat * 256 + b.toNat) * 4 / 64 % 64 := by omega
    have h3 : (a.toNat * 256 + b.toNat) * 256 / 64 % 64 =
        (a.toNat * 256 + b.toNat) * 4 % 64 := by omega
    simp [base64Group_text,base64Text,h1,h2,h3]
  | case4 a b c rest ih => simp [base64Group_text,base64Text,ih]

-- written from the standard, apart from the table of the source
def standardAlphabet : Alphabet UInt8 6 where
  symbols := (List.range' 65 26 ++ List.range' 97 26 ++ List.range' 48 10 ++ [43,47]).map UInt8.ofNat
  pad := 61
  size := by decide
  distinct := by decide +kernel
  pad_notMem := by decide +kernel

theorem base64Alphabet_standard : base64Alphabet = standardAlphabet.symbols := by decide +kernel

theorem base64Char_symbol (n : Nat) : base64Char (n % 64) = standardAlphabet.symbol (n % 64) := by
  have hlen : n % 64 < standardAlphabet.symbols.length :=
    standardAlphabet.size ▸ Nat.mod_lt n (by decide)
  rw [base64Char,base64Alphabet_standard,Alphabet.symbol,List.getD_eq_getElem _ _ hlen,
    List.getD_eq_getElem _ _ hlen]

theorem base64Text_encode (data : Bytes) : base64Text data = encode standardAlphabet data := by
  fun_induction base64Text data with
  | case1 => rfl
  | case2 a n =>
    have ha := a.toNat_lt
    have htop : n / 64 % 64 = n / 64 := Nat.mod_eq_of_lt (by omega)
    rw [encode,sextets_one,← htop,base64Char_symbol,base64Char_symbol]
    rfl
  | case3 a b n =>
    have ha := a.toNat_lt
    have hb := b.toNat_lt
    have htop : n / 4096 % 64 = n / 4096 := Nat.mod_eq_of_lt (by omega)
    rw [encode,sextets_two,← htop,base64Char_symbol,base64Char_symbol,base64Char_symbol]
    rfl
  | case4 a b c rest n ih =>
    have ha := a.toNat_lt
    have hb := b.toNat_lt
    have hc := c.toNat_lt
    have htop : n / 262144 % 64 = n / 262144 := Nat.mod_eq_of_lt (by omega)
    have hpads : ((sextets rest).length + 1 + 1 + 1 + 1) % 4 = (sextets rest).length % 4 := by omega
    rw [encode,sextets_three a b c rest (n := n) rfl,← htop,base64Char_symbol,base64Char_symbol,base64Char_symbol,
      base64Char_symbol,ih,encode]
    simp [hpads]

theorem base64Encode_encode (data : Bytes) : base64Encode data = encode standardAlphabet data := by
  rw [base64Encode_text,base64Text_encode]

theorem base64_read_iff {text data : Bytes} :
    decode standardAlphabet true text = some data ↔ text = base64Encode data := by
  rw [base64Encode_encode]
  exact ⟨fun h => (encode_of_decode h).symm,fun h => h ▸ decode_encode true data⟩

example : decode standardAlphabet true (ascii "Zm9=") = none ∧
    decode standardAlphabet false (ascii "Zm9=") = some (ascii "fo") := by decide +kernel

theorem notMem_base64Encode {c : UInt8} (hc : c ∉ standardAlphabet.symbols) (hpad : c ≠ 61) (data : Bytes) :
    c ∉ base64Encode data := by
  rw [base64Encode_encode]
  exact fun h => (mem_encode h).elim hc hpad

theorem comma_notMem (data : Bytes) : 44 ∉ base64Encode data :=
  notMem_base64Encode (by decide +kernel) (by decide) data

theorem semicolon_notMem (data : Bytes) : 59 ∉ base64Encode data :=
  notMem_base64Encode (by decide +kernel) (by decide) data

def formatText (parameters : List (Bytes × List Bytes)) : Bytes :=
  [59].intercalate (parameters.map fun p => p.1 ++ 61 :: [44].intercalate p.2)

def formatParameters (fmtp : Bytes) : List (Bytes × List Bytes) :=
  (fmtp.splitOn 59).map fun p => (p.takeWhile (· != 61),((p.dropWhile (· != 61)).drop 1).splitOn 44)

def Readable (p : Bytes × List Bytes) : Prop :=
  59 ∉ p.1 ∧ 61 ∉ p.1 ∧ p.2 ≠ [] ∧ ∀ value ∈ p.2, 44 ∉ value ∧ 59 ∉ value

theorem notMem_intercalate {a sep : UInt8} (hsep : a ≠ sep) {parts : List Bytes} (h : ∀ part ∈ parts, a ∉ part) :
    a ∉ [sep].intercalate parts := by
  induction parts with
  | nil => simp
  | cons part parts ih =>
    have hrest := ih fun other hother => h other (by simp [hother])
    have hpart := h part (by simp)
    cases parts with
    | nil => simpa using hpart
    | cons next parts => simpa [List.intercalate_cons_cons,hpart,hsep] using hrest

theorem formatParameter_read {p : Bytes × List Bytes} (hp : Readable p) :
    ((p.1 ++ 61 :: [44].intercalate p.2).takeWhile (· != 61),
      (((p.1 ++ 61 :: [44].intercalate p.2).dropWhile (· != 61)).drop 1).splitOn 44) = p := by
  obtain ⟨-,hname,hne,hvalues⟩ := hp
  have hbefore : ∀ c ∈ p.1, (c != 61) = true := fun c hc => bne_iff_ne.mpr fun heq => hname (heq ▸ hc)
  have hsplit : ([44].intercalate p.2).splitOn 44 = p.2 :=
    List.splitOn_intercalate 44 (fun value hvalue => (hvalues value hvalue).1) hne
  rw [List.takeWhile_append_of_pos hbefore,List.dropWhile_append_of_pos hbefore]
  simp [hsplit]

theorem formatParameters_text {parameters : List (Bytes × List Bytes)} (hne : parameters ≠ [])
    (h : ∀ p ∈ parameters, Readable p) : formatParameters (formatText parameters) = parameters := by
  have hclean : ∀ part ∈ parameters.map (fun p => p.1 ++ 61 :: [44].intercalate p.2), 59 ∉ part := by
    intro part hpart
    obtain ⟨p,hp,rfl⟩ := List.mem_map.mp hpart
    obtain ⟨hname,-,-,hvalues⟩ := h p hp
    have hvalue : 59 ∉ [44].intercalate p.2 :=
      notMem_intercalate (by decide) fun value hvalue => (hvalues value hvalue).2
    simp [hname,hvalue]
  rw [formatParameters,formatText,List.splitOn_intercalate 59 hclean (by simpa using hne),List.map_map]
  exact (List.map_congr_left fun p hp => formatParameter_read (h p hp)).trans (List.map_id _)

def codecParameters (sets : ParameterSets) : VideoCodec → List (Bytes × List Bytes)
  | .h264 => [(ascii "packetization-mode",[ascii "1"]),
      (ascii "sprop-parameter-sets",[base64Encode sets.h264Sps,base64Encode sets.h264Pps])]
  | .h265 => [(ascii "sprop-vps",[base64Encode sets.h265Vps]),(ascii "sprop-sps",[base64Encode sets.h265Sps]),
      (ascii "sprop-pps",[base64Encode sets.h265Pps])]

section

variable {sets other : ParameterSets} {codec : VideoCodec}

theorem h264_complete : (!sets.h264Sps.isEmpty && !sets.h264Pps.isEmpty) = true ↔ [] ∉ parameterSets sets .h264 := by
  simp [parameterSets,@eq_comm _ ([] : Bytes)]

theorem h265_complete : (!sets.h265Vps.isEmpty && !sets.h265Sps.isEmpty && !sets.h265Pps.isEmpty) = true ↔
    [] ∉ parameterSets sets .h265 := by
  simp [parameterSets,@eq_comm _ ([] : Bytes),and_assoc]

theorem codecFmtp_absent (h : [] ∈ parameterSets sets codec) : codecFmtp sets codec = [] := by
  cases codec with
  | h264 => exact if_neg fun hsets => h264_complete.mp hsets h
  | h265 => exact if_neg fun hsets => h265_complete.mp hsets h

theorem codecFmtp_text (h : [] ∉ parameterSets sets codec) :
    codecFmtp sets codec = formatText (codecParameters sets codec) := by
  cases codec with
  | h264 =>
    have hname : ascii "packetization-mode=1;sprop-parameter-sets=" =
        ascii "packetization-mode" ++ 61 :: ascii "1" ++ 59 :: (ascii "sprop-parameter-sets" ++ [61]) := by
      decide +kernel
    have hcomma : ascii "," = [44] := by decide +kernel
    rw [codecFmtp,if_pos (h264_complete.mpr h),hname,hcomma]
    simp [formatText,codecParameters,List.intercalate_cons_cons]
  | h265 =>
    have hvps : ascii "sprop-vps=" = ascii "sprop-vps" ++ [61] := by decide +kernel
    have hsps : ascii ";sprop-sps=" = 59 :: (ascii "sprop-sps" ++ [61]) := by decide +kernel
    have hpps : ascii ";sprop-pps=" = 59 :: (ascii "sprop-pps" ++ [61]) := by decide +kernel
    rw [codecFmtp,if_pos (h265_complete.mpr h),hvps,hsps,hpps]
    simp [formatText,codecParameters,List.intercalate_cons_cons]

theorem readable_encoded {name : Bytes} (hname : 59 ∉ name ∧ 61 ∉ name) {sets : List Bytes} (hne : sets ≠ []) :
    Readable (name,sets.map base64Encode) := by
  refine ⟨hname.1,hname.2,by simpa using hne,fun value hvalue => ?_⟩
  obtain ⟨data,-,rfl⟩ := List.mem_map.mp hvalue
  exact ⟨comma_notMem data,semicolon_notMem data⟩

theorem codecParameters_readable (sets : ParameterSets) (codec : VideoCodec) :
    ∀ p ∈ codecParameters sets codec, Readable p := by
  intro p hp
  cases codec with
  | h264 =>
    rcases List.mem_pair.mp hp with rfl | rfl
    · exact ⟨by decide +kernel,by decide +kernel,by decide +kernel,by decide +kernel⟩
    · exact @readable_encoded _ (by decide +kernel) [sets.h264Sps,sets.h264Pps] (by simp)
  | h265 =>
    simp only [codecParameters,List.mem_cons,List.not_mem_nil,or_false] at hp
    rcases hp with rfl | rfl | rfl
    · exact @readable_encoded _ (by decide +kernel) [sets.h265Vps] (by simp)
    · exact @readable_encoded _ (by decide +kernel) [sets.h265Sps] (by simp)
    · exact @readable_encoded _ (by decide +kernel) [sets.h265Pps] (by simp)

theorem formatParameters_codecFmtp (h : [] ∉ parameterSets sets codec) :
    formatParameters (codecFmtp sets codec) = codecParameters sets codec := by
  rw [codecFmtp_text h]
  exact formatParameters_text (by cases codec <;> simp [codecParameters]) (codecParameters_readable sets codec)

def spropValues (fmtp : Bytes) : List Bytes :=
  ((formatParameters fmtp).filter fun p => (ascii "sprop-").isPrefixOf p.1).flatMap Prod.snd

theorem spropValues_codecFmtp (h : [] ∉ parameterSets sets codec) :
    spropValues (codecFmtp sets codec) = (parameterSets sets codec).map base64Encode := by
  rw [spropValues,formatParameters_codecFmtp h]
  cases codec with
  | h264 => rfl
  | h265 => rfl

theorem spropValues_absent (h : [] ∈ parameterSets sets codec) : spropValues (codecFmtp sets codec) = [] := by
  rw [codecFmtp_absent h]
  decide +kernel

theorem base64Encode_inj {data other : Bytes} : base64Encode data = base64Encode other ↔ data = other := by
  rw [base64Encode_encode,base64Encode_encode]
  exact encode_injective.eq_iff

theorem spropValues_inj (h : [] ∉ parameterSets sets codec)
    (hsame : spropValues (codecFmtp other codec) = spropValues (codecFmtp sets codec)) :
    parameterSets other codec = parameterSets sets codec := by
  rw [spropValues_codecFmtp h] at hsame
  by_cases hother : [] ∈ parameterSets other codec
  · rw [spropValues_absent hother] at hsame
    cases codec <;> simp [parameterSets] at hsame
  · rw [spropValues_codecFmtp hother] at hsame
    exact List.map_injective_iff.mpr (fun _ _ => base64Encode_inj.mp) hsame

end

theorem base64Encode_standard :
    (∀ v : Bytes,
      (∀ canonical, decode standardAlphabet canonical (base64Encode v) = some v) ∧
        (base64Encode v).length = 4 * ((v.length + 2) / 3) ∧
        (∀ i : Nat, (base64Encode v)[i]? = some 61 → (base64Encode v).length ≤ i + 2) ∧
        44 ∉ base64Encode v ∧ 59 ∉ base64Encode v ∧ ∀ w, w ≠ v → base64Encode w ≠ base64Encode v) ∧
      ∀ sets codec, [] ∉ parameterSets sets codec →
        spropValues (codecFmtp sets codec) = (parameterSets sets codec).map base64Encode ∧
          (∀ canonical, (spropValues (codecFmtp sets codec)).mapM (decode standardAlphabet canonical) =
            some (parameterSets sets codec)) ∧
          ∀ other, parameterSets other codec ≠ parameterSets sets codec →
            spropValues (codecFmtp other codec) ≠ spropValues (codecFmtp sets codec) := by
  have hread (canonical : Bool) (v : Bytes) : decode standardAlphabet canonical (base64Encode v) = some v :=
    base64Encode_encode v ▸ decode_encode canonical v
  constructor
  · intro v
    refine ⟨fun canonical => hread canonical v,?_,?_,comma_notMem v,semicolon_notMem v,fun w hne => ?_⟩
    · exact base64Encode_encode v ▸ encode_length v
    · intro i hi
      rw [base64Encode_encode] at hi ⊢
      exact pad_position hi
    · exact fun heq => hne (base64Encode_inj.mp heq)
  · intro sets codec h
    refine ⟨spropValues_codecFmtp h,fun canonical => ?_,fun other hne heq => hne (spropValues_inj h heq)⟩
    rw [spropValues_codecFmtp h]
    exact mapM_written fun v _ => hread canonical v

theorem base64Encode_standard_h264 :
    let sets : ParameterSets := ⟨[0x67,0x42,0x00],[0x68,0xce],[],[],[]⟩
    [] ∉ parameterSets sets .h264 ∧ (base64Encode sets.h264Pps)[3]? = some 61 ∧
      (base64Encode sets.h264Pps).length ≤ 3 + 2 ∧
      spropValues (codecFmtp sets .h264) = [ascii "Z0IA",ascii "aM4="] :=
  ⟨by decide,by decide +kernel,(base64Encode_standard.1 [0x68,0xce]).2.2.1 3 (by decide +kernel),
    (base64Encode_standard.2 _ .h264 (by decide)).1.trans (by decide +kernel)⟩

end RpiVms

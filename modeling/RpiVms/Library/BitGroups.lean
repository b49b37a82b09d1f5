import Mathlib.Data.List.DropRight
import Mathlib.Data.List.GetD
import Mathlib.Data.List.Nodup
import RpiVms.Library.Positional

namespace BitGroups

open Positional

def bits : Nat → Nat → List Bool
  | 0,_ => []
  | w + 1,n => n.testBit w :: bits w n

def number (s : List Bool) : Nat := value 2 Bool.toNat s

def groups (w : Nat) (s : List Bool) : List Nat :=
  (List.range (s.length / w)).map fun i => number ((s.drop (w * i)).take w)

def stream (w : Nat) (xs : List Nat) : List Bool := xs.flatMap (bits w)

section

variable {w v m n : Nat} {s t : List Bool} {xs ys : List Nat}

theorem bool_numerals : Numerals 2 Bool.toNat (fun _ => True) where
  bound := fun {x} _ => Bool.toNat_lt x
  lt_iff := fun {x y} _ _ => by revert x y; decide
  inj := fun {x y} _ _ h => by revert x y; decide

theorem bits_length (w n : Nat) : (bits w n).length = w := by
  induction w with
  | zero => rfl
  | succ w ih => rw [bits,List.length_cons,ih]

theorem bits_congr (h : m % 2 ^ w = n % 2 ^ w) : bits w m = bits w n := by
  induction w with
  | zero => rfl
  | succ w ih =>
    have hbit : m.testBit w = n.testBit w := by
      have := congrArg (Nat.testBit · w) h
      simpa [Nat.testBit_mod_two_pow] using this
    have hlow : m % 2 ^ w = n % 2 ^ w := by
      have := congrArg (· % 2 ^ w) h
      simpa [Nat.mod_mod_of_dvd _ (Nat.pow_dvd_pow 2 (Nat.le_succ w))] using this
    rw [bits,bits,hbit,ih hlow]

theorem bits_add (w v n : Nat) : bits (w + v) n = bits w (n / 2 ^ v) ++ bits v n := by
  induction w with
  | zero => rw [Nat.zero_add,bits,List.nil_append]
  | succ w ih =>
    rw [Nat.add_right_comm,bits,ih,bits,Nat.testBit_div_two_pow,List.cons_append]

theorem bits_append (h : n < 2 ^ v) : bits w m ++ bits v n = bits (w + v) (m * 2 ^ v + n) := by
  have hdiv : (m * 2 ^ v + n) / 2 ^ v = m := by
    rw [Nat.mul_comm,Nat.mul_add_div (Nat.two_pow_pos v),Nat.div_eq_of_lt h,Nat.add_zero]
  have hlow : bits v (m * 2 ^ v + n) = bits v n := bits_congr (by rw [Nat.mul_comm,Nat.mul_add_mod])
  rw [bits_add,hdiv,hlow]

theorem bits_zero (w : Nat) : bits w 0 = List.replicate w false := by
  induction w with
  | zero => rfl
  | succ w ih => rw [bits,ih,Nat.zero_testBit,List.replicate_succ]

theorem number_bits (w n : Nat) : number (bits w n) = n % 2 ^ w := by
  induction w with
  | zero => rw [Nat.pow_zero,Nat.mod_one]; rfl
  | succ w ih =>
    have hbit : (n.testBit w).toNat = n / 2 ^ w % 2 := Nat.toNat_testBit n w
    rw [number,bits,value_cons,bits_length]
    rw [number] at ih
    rw [ih,hbit,Nat.mod_pow_succ]
    ring

theorem bits_number (s : List Bool) : bits s.length (number s) = s := by
  induction s with
  | nil => rfl
  | cons b s ih =>
    have hbound : number s < 2 ^ s.length := value_bound bool_numerals fun _ _ => trivial
    have hcons : number (b :: s) = b.toNat * 2 ^ s.length + number s := value_cons b s
    have hfront : bits 1 b.toNat = [b] := by cases b <;> rfl
    rw [hcons,List.length_cons,Nat.add_comm,← bits_append hbound,hfront,ih]
    rfl

theorem groups_short (h : s.length < w) : groups w s = [] := by
  rw [groups,Nat.div_eq_of_lt h]
  rfl

theorem groups_front (hw : 0 < w) (hs : s.length = w) : groups w (s ++ t) = number s :: groups w t := by
  have hcount : (s ++ t).length / w = t.length / w + 1 := by
    rw [List.length_append,hs,Nat.add_comm,Nat.add_div_right _ hw]
  have hrest (i : Nat) : (s ++ t).drop (w * (i + 1)) = t.drop (w * i) := by
    rw [Nat.mul_succ,Nat.add_comm,← List.drop_drop,← hs,List.drop_left]
  rw [groups,groups,hcount,List.range_succ_eq_map,List.map_cons,List.map_map]
  congr 1
  · rw [Nat.mul_zero,List.drop_zero,← hs,List.take_left]
  · refine List.map_congr_left fun i _ => ?_
    rw [Function.comp_apply,Nat.succ_eq_add_one,hrest]

theorem groups_bits (hw : 0 < w) (n : Nat) : groups w (bits w n ++ t) = n % 2 ^ w :: groups w t := by
  rw [groups_front hw (bits_length w n),number_bits]

theorem groups_next (hw : 0 < w) (v n : Nat) :
    groups w (bits (w + v) n ++ t) = n / 2 ^ v % 2 ^ w :: groups w (bits v n ++ t) := by
  rw [bits_add,List.append_assoc,groups_bits hw]

theorem groups_stream (hw : 0 < w) (hxs : ∀ x ∈ xs, x < 2 ^ w) (ht : t.length < w) :
    groups w (stream w xs ++ t) = xs := by
  induction xs with
  | nil => exact groups_short ht
  | cons x xs ih =>
    rw [stream,List.flatMap_cons,List.append_assoc,groups_bits hw,Nat.mod_eq_of_lt (hxs x (by simp))]
    exact congrArg _ (ih fun y hy => hxs y (by simp [hy]))

theorem stream_groups (hw : 0 < w) {k : Nat} (hk : s.length / w = k) : stream w (groups w s) = s.take (w * k) := by
  induction k generalizing s with
  | zero =>
    rw [groups,hk]
    rfl
  | succ k ih =>
    have hle : w ≤ s.length := (Nat.div_pos_iff.mp (by omega)).2
    have hfront : (s.take w).length = w := List.length_take_of_le hle
    have hback : (s.drop w).length / w = k := by
      have hstep := Nat.add_div_right (s.drop w).length hw
      rw [List.length_drop,Nat.sub_add_cancel hle,hk] at hstep
      rw [List.length_drop]
      omega
    have hcut : groups w s = number (s.take w) :: groups w (s.drop w) := by
      rw [← groups_front hw hfront,List.take_append_drop]
    have hbits := bits_number (s.take w)
    rw [hfront] at hbits
    have hrest := ih hback
    rw [stream] at hrest
    rw [hcut,stream,List.flatMap_cons,hbits,hrest,Nat.mul_succ,Nat.add_comm,List.take_add]

theorem stream_length (w : Nat) (xs : List Nat) : (stream w xs).length = w * xs.length := by
  induction xs with
  | nil => rfl
  | cons x xs ih =>
    rw [stream] at ih
    rw [stream,List.flatMap_cons,List.length_append,bits_length,ih,List.length_cons]
    ring

theorem groups_length (w : Nat) (s : List Bool) : (groups w s).length = s.length / w := by
  rw [groups,List.length_map,List.length_range]

theorem groups_lt : ∀ x ∈ groups w s, x < 2 ^ w := by
  intro x hx
  obtain ⟨i,-,rfl⟩ := List.mem_map.mp hx
  have hbound : number ((s.drop (w * i)).take w) < 2 ^ ((s.drop (w * i)).take w).length :=
    value_bound bool_numerals fun _ _ => trivial
  exact Nat.lt_of_lt_of_le hbound (Nat.pow_le_pow_right (by decide) (List.length_take_le _ _))

end

theorem mapM_written {α β : Type} {write : α → β} {read : β → Option α} {xs : List α}
    (h : ∀ x ∈ xs, read (write x) = some x) : (xs.map write).mapM read = some xs := by
  induction xs with
  | nil => rfl
  | cons x xs ih =>
    rw [List.map_cons,List.mapM_cons,h x (by simp),ih fun y hy => h y (by simp [hy])]
    rfl

structure Alphabet (α : Type) (w : Nat) where
  symbols : List α
  pad : α
  size : symbols.length = 2 ^ w
  distinct : symbols.Nodup
  pad_notMem : pad ∉ symbols

namespace Alphabet

variable {α : Type} {w : Nat} (A : Alphabet α w)

def symbol (n : Nat) : α := A.symbols.getD n A.pad

theorem symbol_mem {n : Nat} (h : n < 2 ^ w) : A.symbol n ∈ A.symbols := by
  have hlen : n < A.symbols.length := A.size ▸ h
  rw [symbol,List.getD_eq_getElem _ _ hlen]
  exact List.getElem_mem hlen

variable [DecidableEq α]

def digit (c : α) : Option Nat := A.symbols.idxOf? c

theorem digit_symbol {n : Nat} (h : n < 2 ^ w) : A.digit (A.symbol n) = some n := by
  have hlen : n < A.symbols.length := A.size ▸ h
  rw [digit,symbol,List.getD_eq_getElem _ _ hlen,List.idxOf?_eq_some_iff]
  refine ⟨hlen,rfl,fun j hj heq => ?_⟩
  exact Nat.ne_of_lt hj ((A.distinct.getElem_inj_iff).mp heq)

theorem symbol_digit {c : α} {n : Nat} (h : A.digit c = some n) : n < 2 ^ w ∧ A.symbol n = c := by
  obtain ⟨hlen,hc,-⟩ := List.idxOf?_eq_some_iff.mp h
  exact ⟨A.size ▸ hlen,by rw [symbol,List.getD_eq_getElem _ _ hlen,hc]⟩

theorem mapM_symbol {text : List α} {xs : List Nat} (h : text.mapM A.digit = some xs) :
    (∀ x ∈ xs, x < 2 ^ w) ∧ xs.map A.symbol = text := by
  induction text generalizing xs with
  | nil =>
    obtain rfl : [] = xs := by simpa using h
    simp
  | cons c text ih =>
    rw [List.mapM_cons] at h
    obtain ⟨x,hx,h⟩ := Option.bind_eq_some_iff.mp h
    obtain ⟨ys,hys,h⟩ := Option.bind_eq_some_iff.mp h
    obtain rfl : x :: ys = xs := by simpa using h
    have hc := A.symbol_digit hx
    have hrest := ih hys
    exact ⟨List.forall_mem_cons.mpr ⟨hc.1,hrest.1⟩,by rw [List.map_cons,hc.2,hrest.2]⟩

theorem padded (text : List α) :
    ∃ k, text = text.rdropWhile (fun c => decide (c = A.pad)) ++ List.replicate k A.pad := by
  have hpads : text.rtakeWhile (fun c => decide (c = A.pad)) = List.replicate _ A.pad :=
    List.eq_replicate_iff.mpr ⟨rfl,fun c hc => by simpa using List.mem_rtakeWhile_imp hc⟩
  exact ⟨_,by rw [← hpads,List.rdropWhile_append_rtakeWhile]⟩

theorem unpadded {xs : List Nat} (h : ∀ x ∈ xs, x < 2 ^ w) (k : Nat) :
    (xs.map A.symbol ++ List.replicate k A.pad).rdropWhile (fun c => decide (c = A.pad)) = xs.map A.symbol := by
  induction k with
  | zero =>
    rw [List.replicate_zero,List.append_nil,List.rdropWhile_eq_self_iff]
    intro hne hlast
    have hmem := List.getLast_mem hne
    rw [of_decide_eq_true hlast] at hmem
    obtain ⟨x,hx,hpad⟩ := List.mem_map.mp hmem
    exact A.pad_notMem (hpad ▸ A.symbol_mem (h x hx))
  | succ k ih =>
    rw [List.replicate_succ',← List.append_assoc,List.rdropWhile_concat_pos _ _ _ (by simp),ih]

end Alphabet

section

variable {α : Type} (A : Alphabet α 6)

def octetBits (data : List UInt8) : List Bool := stream 8 (data.map UInt8.toNat)

def sextets (data : List UInt8) : List Nat :=
  groups 6 (octetBits data ++ List.replicate ((6 - 8 * data.length % 6) % 6) false)

def encode (data : List UInt8) : List α :=
  (sextets data).map A.symbol ++ List.replicate ((4 - (sextets data).length % 4) % 4) A.pad

def decode [DecidableEq α] (canonical : Bool) (text : List α) : Option (List UInt8) :=
  let body := text.rdropWhile fun c => decide (c = A.pad)
  if text.length % 4 ≠ 0 ∨ body.length + 2 < text.length then none
  else do
    let digits ← body.mapM A.digit
    let read := stream 6 digits
    if canonical && (read.drop (read.length / 8 * 8)).any id then none
    else some ((groups 8 read).map UInt8.ofNat)

variable {A} {data rest : List UInt8}

theorem octetBits_length (data : List UInt8) : (octetBits data).length = 8 * data.length := by
  rw [octetBits,stream_length,List.length_map]

theorem sextets_length (data : List UInt8) : (sextets data).length = (8 * data.length + 5) / 6 := by
  rw [sextets,groups_length,List.length_append,octetBits_length,List.length_replicate]
  omega

theorem sextets_lt (data : List UInt8) : ∀ x ∈ sextets data, x < 2 ^ 6 := groups_lt

theorem stream_sextets (data : List UInt8) :
    stream 6 (sextets data) = octetBits data ++ List.replicate ((6 - 8 * data.length % 6) % 6) false := by
  rw [sextets,stream_groups (by decide) rfl,List.take_of_length_le]
  rw [List.length_append,octetBits_length,List.length_replicate]
  omega

theorem groups_octetBits {t : List Bool} (ht : t.length < 8) :
    (groups 8 (octetBits data ++ t)).map UInt8.ofNat = data := by
  have hlt : ∀ x ∈ data.map UInt8.toNat, x < 2 ^ 8 := by
    intro x hx
    obtain ⟨a,-,rfl⟩ := List.mem_map.mp hx
    exact a.toNat_lt
  rw [octetBits,groups_stream (by decide) hlt ht,List.map_map]
  exact List.map_id'' (fun _ => UInt8.ofNat_toNat) data

theorem decode_encode [DecidableEq α] (canonical : Bool) (data : List UInt8) :
    decode A canonical (encode A data) = some data := by
  have hlen := sextets_length data
  have hbody := A.unpadded (sextets_lt data) ((4 - (sextets data).length % 4) % 4)
  have hstream := stream_sextets data
  have hoctets := octetBits_length data
  have hfill : (6 - 8 * data.length % 6) % 6 < 8 := by omega
  generalize (6 - 8 * data.length % 6) % 6 = fill at hstream hfill
  have hwhole : (8 * data.length + fill) / 8 * 8 = 8 * data.length := by omega
  unfold decode
  dsimp only
  rw [encode,hbody,if_neg,mapM_written fun x hx => A.digit_symbol (sextets_lt data x hx)]
  · show (if _ then none else some _) = some data
    rw [hstream,List.length_append,hoctets,List.length_replicate,hwhole,← hoctets,List.drop_left,
      groups_octetBits (by rwa [List.length_replicate])]
    simp
  · simp only [List.length_append,List.length_map,List.length_replicate,hlen]
    omega

theorem octetBits_groups (s : List Bool) :
    octetBits ((groups 8 s).map UInt8.ofNat) = s.take (8 * (s.length / 8)) := by
  have hsame : ((groups 8 s).map UInt8.ofNat).map UInt8.toNat = groups 8 s := by
    rw [List.map_map]
    refine (List.map_congr_left fun x hx => ?_).trans (List.map_id _)
    exact UInt8.toNat_ofNat_of_lt (groups_lt x hx)
  rw [octetBits,hsame,stream_groups (by decide) rfl]

theorem decode_cases [DecidableEq α] {canonical : Bool} {text : List α}
    (h : decode A canonical text = some data) :
    ∃ digits k, text = digits.map A.symbol ++ List.replicate k A.pad ∧ text.length % 4 = 0 ∧ k ≤ 2 ∧
      (∀ x ∈ digits, x < 2 ^ 6) ∧ (groups 8 (stream 6 digits)).map UInt8.ofNat = data ∧
        (canonical = true → ∀ b ∈ (stream 6 digits).drop (8 * (6 * digits.length / 8)), b = false) := by
  obtain ⟨k,hk⟩ := A.padded text
  unfold decode at h
  dsimp only at h
  generalize text.rdropWhile (fun c => decide (c = A.pad)) = body at h hk
  have hlen : text.length = body.length + k := by rw [hk,List.length_append,List.length_replicate]
  split at h
  · cases h
  · next hshape =>
    obtain ⟨digits,hdigits,h⟩ := Option.bind_eq_some_iff.mp h
    obtain ⟨hlt,hbody⟩ := A.mapM_symbol hdigits
    split at h
    · cases h
    · next hzeros =>
      refine ⟨digits,k,hbody ▸ hk,by omega,by omega,hlt,Option.some.inj h,?_⟩
      rintro rfl
      simpa [stream_length,Nat.mul_comm] using hzeros

theorem sextets_octets {digits : List Nat} (hlt : ∀ x ∈ digits, x < 2 ^ 6) (hlen : digits.length % 4 ≠ 1)
    (hzeros : ∀ b ∈ (stream 6 digits).drop (8 * (6 * digits.length / 8)), b = false) :
    sextets ((groups 8 (stream 6 digits)).map UInt8.ofNat) = digits := by
  have hcount : ((groups 8 (stream 6 digits)).map UInt8.ofNat).length = 6 * digits.length / 8 := by
    rw [List.length_map,groups_length,stream_length]
  have hfill : (6 - 8 * (6 * digits.length / 8) % 6) % 6 = 6 * digits.length % 8 := by
    rcases (by omega : digits.length % 4 = 0 ∨ digits.length % 4 = 2 ∨ digits.length % 4 = 3) with h | h | h <;> omega
  have htail : (stream 6 digits).drop (8 * (6 * digits.length / 8)) =
      List.replicate (6 * digits.length % 8) false := by
    rw [List.eq_replicate_iff,List.length_drop,stream_length]
    exact ⟨by omega,hzeros⟩
  rw [sextets,hcount,hfill,octetBits_groups,stream_length,← htail,List.take_append_drop,
    ← List.append_nil (stream 6 digits)]
  exact groups_stream (by decide) hlt (by decide)

theorem encode_of_decode [DecidableEq α] {text : List α} (h : decode A true text = some data) :
    encode A data = text := by
  obtain ⟨digits,k,rfl,hlen,hk,hlt,rfl,hzeros⟩ := decode_cases h
  rw [List.length_append,List.length_map,List.length_replicate] at hlen
  have hpads : (4 - digits.length % 4) % 4 = k := by omega
  rw [encode,sextets_octets hlt (by omega) (hzeros rfl),hpads]

theorem encode_injective [DecidableEq α] : Function.Injective (encode A) := by
  intro data other h
  have hsame := congrArg (decode A true) h
  rw [decode_encode,decode_encode] at hsame
  exact Option.some.inj hsame

theorem encode_length (data : List UInt8) : (encode A data).length = 4 * ((data.length + 2) / 3) := by
  rw [encode,List.length_append,List.length_map,List.length_replicate,sextets_length]
  omega

theorem mem_encode {c : α} (h : c ∈ encode A data) : c ∈ A.symbols ∨ c = A.pad := by
  rcases List.mem_append.mp h with h | h
  · obtain ⟨x,hx,rfl⟩ := List.mem_map.mp h
    exact .inl (A.symbol_mem (sextets_lt data x hx))
  · exact .inr (List.eq_of_mem_replicate h)

theorem pad_position {i : Nat} (h : (encode A data)[i]? = some A.pad) : (encode A data).length ≤ i + 2 := by
  have hlen := sextets_length data
  have hpast : (sextets data).length ≤ i := by
    by_contra hlt
    have hi : i < ((sextets data).map A.symbol).length := by
      rw [List.length_map]
      omega
    rw [encode,List.getElem?_append_left hi] at h
    obtain ⟨x,hx,hpad⟩ := List.mem_map.mp (List.mem_of_getElem? h)
    exact A.pad_notMem (hpad ▸ A.symbol_mem (sextets_lt data x hx))
  rw [encode_length]
  omega

theorem octetBits_cons (a : UInt8) (data : List UInt8) : octetBits (a :: data) = bits 8 a.toNat ++ octetBits data := by
  rw [octetBits,List.map_cons,stream,List.flatMap_cons]
  rfl

theorem sextets_one (a : UInt8) : sextets [a] = [a.toNat * 2 ^ 4 / 2 ^ 6 % 2 ^ 6,a.toNat * 2 ^ 4 % 2 ^ 6] := by
  have hfill : (6 - 8 * [a].length % 6) % 6 = 4 := by simp
  have hjoin : octetBits [a] ++ List.replicate 4 false = bits 12 (a.toNat * 2 ^ 4) ++ [] := by
    rw [octetBits_cons,← bits_zero,octetBits,List.map_nil,stream,List.flatMap_nil,List.append_nil,
      bits_append (Nat.two_pow_pos 4),List.append_nil]
    rfl
  rw [sextets,hfill,hjoin,groups_next (by decide) 6,groups_bits (by decide),groups_short (by decide)]

theorem sextets_two (a b : UInt8) :
    sextets [a,b] = [(a.toNat * 2 ^ 8 + b.toNat) * 2 ^ 2 / 2 ^ 12 % 2 ^ 6,
      (a.toNat * 2 ^ 8 + b.toNat) * 2 ^ 2 / 2 ^ 6 % 2 ^ 6,(a.toNat * 2 ^ 8 + b.toNat) * 2 ^ 2 % 2 ^ 6] := by
  have hfill : (6 - 8 * [a,b].length % 6) % 6 = 2 := by simp
  have hjoin : octetBits [a,b] ++ List.replicate 2 false =
      bits 18 ((a.toNat * 2 ^ 8 + b.toNat) * 2 ^ 2) ++ [] := by
    rw [octetBits_cons,octetBits_cons,← bits_zero,octetBits,List.map_nil,stream,List.flatMap_nil,List.append_nil,
      bits_append b.toNat_lt,List.append_nil]
    exact bits_append (Nat.two_pow_pos 2)
  rw [sextets,hfill,hjoin,groups_next (by decide) 12,groups_next (by decide) 6,groups_bits (by decide),
    groups_short (by decide)]

theorem sextets_three (a b c : UInt8) (rest : List UInt8) {n : Nat}
    (hn : n = (a.toNat * 2 ^ 8 + b.toNat) * 2 ^ 8 + c.toNat) :
    sextets (a :: b :: c :: rest) =
      n / 2 ^ 18 % 2 ^ 6 :: n / 2 ^ 12 % 2 ^ 6 :: n / 2 ^ 6 % 2 ^ 6 :: n % 2 ^ 6 :: sextets rest := by
  have hfill : (6 - 8 * (a :: b :: c :: rest).length % 6) % 6 = (6 - 8 * rest.length % 6) % 6 := by
    simp only [List.length_cons]
    omega
  have hjoin : octetBits (a :: b :: c :: rest) = bits 24 n ++ octetBits rest := by
    rw [octetBits_cons,octetBits_cons,octetBits_cons,← List.append_assoc,bits_append b.toNat_lt,← List.append_assoc,
      bits_append c.toNat_lt,hn]
  rw [sextets,hfill,hjoin,List.append_assoc,groups_next (by decide) 18,groups_next (by decide) 12,
    groups_next (by decide) 6,groups_bits (by decide),sextets]

end

end BitGroups

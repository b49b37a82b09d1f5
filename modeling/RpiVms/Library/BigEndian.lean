import Mathlib.Data.List.Basic
import Mathlib.Tactic.Ring

namespace BigEndian

def encode : Nat → Nat → List UInt8
  | 0,_ => []
  | width + 1,n => encode width (n / 256) ++ [UInt8.ofNat n]

def decode (bytes : List UInt8) : Nat :=
  bytes.foldl (fun n b => n * 256 + b.toNat) 0

@[simp] theorem encode_length (width n : Nat) : (encode width n).length = width := by
  induction width generalizing n with
  | zero => rfl
  | succ width ih => simp [encode,ih]

theorem decode_append_singleton (bytes : List UInt8) (b : UInt8) :
    decode (bytes ++ [b]) = decode bytes * 256 + b.toNat := by
  simp [decode]

theorem decode_encode (width n : Nat) : decode (encode width n) = n % 256 ^ width := by
  induction width generalizing n with
  | zero => simp [encode,decode,Nat.mod_one]
  | succ width ih =>
    have hb : (UInt8.ofNat n).toNat = n % 256 := rfl
    rw [encode,decode_append_singleton,ih,hb,Nat.pow_succ',Nat.mod_mul]
    ring

end BigEndian

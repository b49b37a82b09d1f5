import RpiVms.Live.Media

namespace RpiVms

def base64Alphabet : Bytes :=
  ascii "ABCDEFGHIJKLMNOPQRSTUVWXYZabcdefghijklmnopqrstuvwxyz0123456789+/"

def base64Digit (value shift : UInt32) : UInt8 :=
  base64Alphabet.getD ((value >>> shift) &&& 0x3f).toNat 0

def base64Group (a b c : UInt8) (remaining : Nat) : Bytes :=
  let value := (a.toUInt32 <<< 16) ||| (b.toUInt32 <<< 8) ||| c.toUInt32
  [base64Digit value 18,base64Digit value 12,
    if remaining > 1 then base64Digit value 6 else 61,
    if remaining > 2 then base64Digit value 0 else 61]

def base64Encode : Bytes → Bytes
  | [] => []
  | [a] => base64Group a 0 0 1
  | [a,b] => base64Group a b 0 2
  | a :: b :: c :: rest => base64Group a b c (rest.length + 3) ++ base64Encode rest

example : base64Encode (ascii "light work") = ascii "bGlnaHQgd29yaw==" := by decide +kernel

def codecFmtp (sets : ParameterSets) : VideoCodec → Bytes
  | .h264 =>
      if !sets.h264Sps.isEmpty && !sets.h264Pps.isEmpty then
        ascii "packetization-mode=1;sprop-parameter-sets=" ++ base64Encode sets.h264Sps ++ ascii "," ++
          base64Encode sets.h264Pps
      else []
  | .h265 =>
      if !sets.h265Vps.isEmpty && !sets.h265Sps.isEmpty && !sets.h265Pps.isEmpty then
        ascii "sprop-vps=" ++ base64Encode sets.h265Vps ++ ascii ";sprop-sps=" ++
          base64Encode sets.h265Sps ++ ascii ";sprop-pps=" ++ base64Encode sets.h265Pps
      else []

def noteNal (codec : VideoCodec) (sets : ParameterSets) : Bytes → ParameterSets
  | [] => sets
  | first :: rest =>
      match codec with
      | .h264 =>
          match (first &&& 0x1f).toNat with
          | 7 => { sets with h264Sps := first :: rest }
          | 8 => { sets with h264Pps := first :: rest }
          | _ => sets
      | .h265 =>
          if (first :: rest).length ≥ 2 then
            match ((first >>> 1) &&& 0x3f).toNat with
            | 32 => { sets with h265Vps := first :: rest }
            | 33 => { sets with h265Sps := first :: rest }
            | 34 => { sets with h265Pps := first :: rest }
            | _ => sets
          else sets

def updateParameterSets (sets : ParameterSets) (frame : OwnedLiveFrame) : ParameterSets :=
  (splitAccessUnit frame.data).foldl (noteNal frame.codec) sets

end RpiVms

import RpiVms.Library.Segments
import Mathlib.Data.List.DropRight

namespace RpiVms

open Search Segments

abbrev Bytes := List UInt8

def ascii (s : String) : Bytes := s.toList.map Char.toUInt8

def crlf : Bytes := [13,10]

def headerEnd : Bytes := [13,10,13,10]

def intMax : Nat := 2147483647

def isDigit (b : UInt8) : Bool := 48 ≤ b && b ≤ 57

def isSpace (b : UInt8) : Bool := b == 32 || (9 ≤ b && b ≤ 13)

def toLower (b : UInt8) : UInt8 := if 65 ≤ b && b ≤ 90 then b + 32 else b

def lowerCopy (s : Bytes) : Bytes := s.map toLower

def startsWithCi (s pre : Bytes) : Bool :=
  if s.length < pre.length then false
  else lowerCopy (s.take pre.length) == lowerCopy pre

def isTrimmed (b : UInt8) : Bool := b == 32 || b == 9 || b == 13 || b == 10

def trimCopy (s : Bytes) : Bytes := (s.dropWhile isTrimmed).rdropWhile isTrimmed

def splitLinesKeepEmpty (header : Bytes) : List Bytes :=
  let r := segments crlf header
  if r.2.isEmpty then r.1 else r.1 ++ [r.2]

def getFirstLine (message : Bytes) : Bytes :=
  match find crlf message with
  | none => message
  | some firstEol => message.take firstEol

def messageHeaderPart (message : Bytes) : Bytes :=
  match find headerEnd message with
  | none => message
  | some n => message.take (n + 4)

def headerValue (header name : Bytes) : Bytes :=
  -- only lines that a CRLF ends are looked at, unlike splitLinesKeepEmpty
  match (segments crlf header).1.find? (startsWithCi · (lowerCopy name ++ ascii ":")) with
  | none => []
  | some line => trimCopy (line.drop (name.length + 1))

def digitsValue (ds : Bytes) : Nat := ds.foldl (fun n b => n * 10 + (b.toNat - 48)) 0

structure Numeral where
  negative : Bool
  digits : Bytes
  rest : Bytes
  deriving DecidableEq, Repr

def scanNumeral (s : Bytes) : Numeral :=
  let t := s.dropWhile isSpace
  let (negative,u) : Bool × Bytes := match t with
    | 43 :: u => (false,u)
    | 45 :: u => (true,u)
    | _ => (false,t)
  ⟨negative,u.takeWhile isDigit,u.dropWhile isDigit⟩

def Numeral.value (n : Numeral) : Int :=
  if n.negative then -(digitsValue n.digits : Int) else digitsValue n.digits

def fitsInt (v : Int) : Bool := -(intMax : Int) - 1 ≤ v && v ≤ intMax

inductive StoiError where
  | invalidArgument
  | outOfRange
  deriving DecidableEq, Repr

structure Stoi where
  value : Int
  consumed : Nat
  deriving DecidableEq, Repr

def stoi (s : Bytes) : Except StoiError Stoi :=
  let n := scanNumeral s
  if n.digits.isEmpty then .error .invalidArgument
  else if fitsInt n.value then .ok ⟨n.value,s.length - n.rest.length⟩
  else .error .outOfRange

structure IntField where
  value : Int
  good : Bool
  rest : Bytes
  deriving DecidableEq, Repr

def readInt (s : Bytes) : IntField :=
  let n := scanNumeral s
  if n.digits.isEmpty then ⟨0,false,n.rest⟩
  else if fitsInt n.value then ⟨n.value,true,n.rest⟩
  else ⟨if n.negative then -(intMax : Int) - 1 else intMax,false,n.rest⟩

structure Word where
  text : Bytes
  rest : Bytes
  deriving DecidableEq, Repr

def readWord (s : Bytes) : Word :=
  let t := s.dropWhile isSpace
  ⟨t.takeWhile (!isSpace ·),t.dropWhile (!isSpace ·)⟩

def decimal (n : Nat) : Bytes := (Nat.toDigits 10 n).map Char.toUInt8

def toDecimal (v : Int) : Bytes :=
  if v < 0 then 45 :: decimal v.natAbs else decimal v.natAbs

def contentLengthFromHeader (header : Bytes) : Int :=
  match (splitLinesKeepEmpty header).find? (startsWithCi · (ascii "Content-Length:")) with
  | none => 0
  | some line =>
      let value := trimCopy (line.drop (ascii "Content-Length:").length)
      if value.isEmpty || !value.all isDigit then -1
      else match stoi value with
        | .ok r => r.value
        | .error _ => -1

def rtspStatusCode (message : Bytes) : Int :=
  let version := readWord (getFirstLine message)
  if version.text.isEmpty then 0 else (readInt version.rest).value

def rtspMethodFromRequest (request : Bytes) : Bytes :=
  (readWord (getFirstLine request)).text

def extractRequestTarget (message : Bytes) : Bytes :=
  let method := readWord (getFirstLine message)
  if method.text.isEmpty then [] else (readWord method.rest).text

def cseqFromMessage (message : Bytes) : Bytes :=
  headerValue (messageHeaderPart message) (ascii "CSeq")

end RpiVms

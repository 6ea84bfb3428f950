import Masthead.Text.Quoted

/-! Texts as bytes. Reading stops at the first byte that does not continue a well-formed UTF-8 text,
and says which bytes are at fault. -/

namespace Masthead.Utf8

inductive Cause where
  | invalidStart
  | invalidContinuation
  | unexpectedEnd
deriving DecidableEq, Repr

structure Fault where
  byte : UInt8
  position : Nat
  count : Nat
  cause : Cause
deriving DecidableEq, Repr

def Cause.message : Cause → Text
  | .invalidStart => "invalid start byte"
  | .invalidContinuation => "invalid continuation byte"
  | .unexpectedEnd => "unexpected end of data"

def Fault.message (f : Fault) : Text :=
  let place :=
    if f.count = 1 then
      "byte 0x" ++ Text.hex 2 f.byte.toNat ++ " in position " ++ Text.ofNat f.position
    else
      "bytes in position " ++ Text.ofNat f.position ++ "-" ++ Text.ofNat (f.position + f.count - 1)
  "'utf-8' codec can't decode " ++ place ++ ": " ++ f.cause.message

def encode (s : Text) : List UInt8 := s.flatMap String.utf8EncodeChar

def isContinuation (b : UInt8) : Bool := 0x80 ≤ b && b < 0xc0

/-- Whether `b` may follow `lead` in a sequence of three or four bytes: the value is not too small
for the length, no surrogate, and not above the last code point. -/
def mayFollow (lead b : UInt8) : Bool :=
  isContinuation b &&
    (if lead = 0xe0 then 0xa0 ≤ b
     else if lead = 0xed then b < 0xa0
     else if lead = 0xf0 then 0x90 ≤ b
     else if lead = 0xf4 then b < 0x90
     else true)

def charOf (lead : Nat) (tail : List UInt8) : Char :=
  Char.ofNat (tail.foldl (fun n b => 64 * n + (b.toNat - 0x80)) lead)

def decodeFrom (position : Nat) : List UInt8 → Except Fault Text
  | [] => .ok []
  | lead :: rest =>
    let fail (count : Nat) (cause : Cause) : Except Fault Text :=
      .error ⟨lead, position, count, cause⟩
    if lead < 0x80 then
      (decodeFrom (position + 1) rest).map (Char.ofNat lead.toNat :: ·)
    else if lead < 0xc2 then fail 1 .invalidStart
    else if lead < 0xe0 then
      match rest with
      | [] => fail 1 .unexpectedEnd
      | b :: rest =>
        if isContinuation b then
          (decodeFrom (position + 2) rest).map (charOf (lead.toNat - 0xc0) [b] :: ·)
        else fail 1 .invalidContinuation
    else if lead < 0xf0 then
      match rest with
      | [] => fail 1 .unexpectedEnd
      | [b] => if mayFollow lead b then fail 2 .unexpectedEnd else fail 1 .invalidContinuation
      | b :: b' :: rest =>
        if !mayFollow lead b then fail 1 .invalidContinuation
        else if !isContinuation b' then fail 2 .invalidContinuation
        else (decodeFrom (position + 3) rest).map (charOf (lead.toNat - 0xe0) [b, b'] :: ·)
    else if lead < 0xf5 then
      match rest with
      | [] => fail 1 .unexpectedEnd
      | [b] => if mayFollow lead b then fail 2 .unexpectedEnd else fail 1 .invalidContinuation
      | [b, b'] =>
        if !mayFollow lead b then fail 1 .invalidContinuation
        else if !isContinuation b' then fail 2 .invalidContinuation
        else fail 3 .unexpectedEnd
      | b :: b' :: b'' :: rest =>
        if !mayFollow lead b then fail 1 .invalidContinuation
        else if !isContinuation b' then fail 2 .invalidContinuation
        else if !isContinuation b'' then fail 3 .invalidContinuation
        else (decodeFrom (position + 4) rest).map (charOf (lead.toNat - 0xf0) [b, b', b''] :: ·)
    else fail 1 .invalidStart

def decode (bytes : List UInt8) : Except Fault Text := decodeFrom 0 bytes

end Masthead.Utf8

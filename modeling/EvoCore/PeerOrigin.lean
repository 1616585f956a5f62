import Mathlib

namespace EvoCore.PeerOrigin

inductive IpAddr where
  | v4 (octets : UInt8 × UInt8 × UInt8 × UInt8)
  | v6 (segments : UInt16 × UInt16 × UInt16 × UInt16 × UInt16 × UInt16 × UInt16 × UInt16)
deriving DecidableEq,Repr

-- The reader of IpAddr::from_str: a number of a radix with at most so many digits.
def toDigit (radix : Nat) (c : Char) : Option Nat :=
  let digit := if c.isDigit then some (c.toNat - 48)
    else if 97 ≤ c.toNat ∧ c.toNat ≤ 122 then some (c.toNat - 87)
    else if 65 ≤ c.toNat ∧ c.toNat ≤ 90 then some (c.toNat - 55)
    else none
  digit.filter (· < radix)

def readNumber (radix maxDigits bound : Nat) (allowZeroPrefix : Bool) (text : List Char) : Option (Nat × List Char) :=
  let digits := text.takeWhile fun c => (toDigit radix c).isSome
  let value := digits.foldl (fun n c => n * radix + (toDigit radix c).getD 0) 0
  if digits.length = 0 ∨ maxDigits < digits.length then none
  else if !allowZeroPrefix && digits.head? = some '0' && 1 < digits.length then none
  else if bound ≤ value then none
  else some (value,text.drop digits.length)

def afterSeparator (sep : Char) (first : Bool) (text : List Char) : Option (List Char) :=
  if first then some text
  else match text with
    | c::rest => if c = sep then some rest else none
    | [] => none

def readOctet (first : Bool) (text : List Char) : Option (UInt8 × List Char) := do
  let rest ← afterSeparator '.' first text
  let (n,rest) ← readNumber 10 3 256 false rest
  return (UInt8.ofNat n,rest)

def readIpv4 (text : List Char) : Option ((UInt8 × UInt8 × UInt8 × UInt8) × List Char) := do
  let (a,rest) ← readOctet true text
  let (b,rest) ← readOctet false rest
  let (c,rest) ← readOctet false rest
  let (d,rest) ← readOctet false rest
  return ((a,b,c,d),rest)

def joined (high low : UInt8) : UInt16 := UInt16.ofNat (high.toNat * 256 + low.toNat)

-- Groups while they last. An address in dotted form may stand for two groups and ends the reading.
def readGroups (first : Bool) : Nat → List Char → List UInt16 × Bool × List Char
  | 0,text => ([],false,text)
  | n+1,text =>
    match (if n = 0 then none else (afterSeparator ':' first text).bind readIpv4) with
    | some ((a,b,c,d),rest) => ([joined a b,joined c d],true,rest)
    | none =>
      match (afterSeparator ':' first text).bind (readNumber 16 4 65536 true) with
      | some (group,rest) =>
        let (groups,dotted,rest) := readGroups false n rest
        (UInt16.ofNat group::groups,dotted,rest)
      | none => ([],false,text)

def ofGroups : List UInt16 → Option IpAddr
  | [a,b,c,d,e,f,g,h] => some (.v6 (a,b,c,d,e,f,g,h))
  | _ => none

def readIpv6 (text : List Char) : Option (IpAddr × List Char) :=
  let (head,dotted,rest) := readGroups true 8 text
  if head.length = 8 then (ofGroups head).map (·,rest)
  else if dotted then none
  else match rest with
    | ':' :: ':' :: rest =>
      let (tail,_,rest) := readGroups true (7 - head.length) rest
      (ofGroups (head ++ List.replicate (8 - head.length - tail.length) 0 ++ tail)).map (·,rest)
    | _ => none

def parseIp (text : List Char) : Option IpAddr :=
  match readIpv4 text with
  | some (octets,rest) => if rest = [] then some (.v4 octets) else none
  | none =>
    match readIpv6 text with
    | some (addr,rest) => if rest = [] then some addr else none
    | none => none

def toIpv4Mapped : UInt16 × UInt16 × UInt16 × UInt16 × UInt16 × UInt16 × UInt16 × UInt16 → Option (UInt8 × UInt8 × UInt8 × UInt8)
  | (0,0,0,0,0,0xffff,high,low) =>
    some (UInt8.ofNat (high.toNat / 256),UInt8.ofNat high.toNat,UInt8.ofNat (low.toNat / 256),UInt8.ofNat low.toNat)
  | _ => none

def v4Loopback (octets : UInt8 × UInt8 × UInt8 × UInt8) : Bool := octets.1 == 127
def v6Loopback (segments : UInt16 × UInt16 × UInt16 × UInt16 × UInt16 × UInt16 × UInt16 × UInt16) : Bool :=
  segments == (0,0,0,0,0,0,0,1)

def isLoopbackAddr : IpAddr → Bool
  | .v4 octets => v4Loopback octets
  | .v6 segments => v6Loopback segments || ((toIpv4Mapped segments).map v4Loopback).getD false

def v4Lan (octets : UInt8 × UInt8 × UInt8 × UInt8) : Bool :=
  octets.1 == 10 || (octets.1 == 172 && 16 ≤ octets.2.1 && octets.2.1 ≤ 31) || (octets.1 == 192 && octets.2.1 == 168) ||
    v4Loopback octets || (octets.1 == 169 && octets.2.1 == 254)

def isLanOrigin : IpAddr → Bool
  | .v4 octets => v4Lan octets
  | .v6 segments => v6Loopback segments || segments.1 &&& 0xffc0 == 0xfe80 || segments.1 &&& 0xfe00 == 0xfc00 ||
    ((toIpv4Mapped segments).map v4Lan).getD false

-- Header values are bytes. Only printable ASCII and tabs are read as text.
abbrev HeaderMap := List (String × List UInt8)

def HeaderMap.header (headers : HeaderMap) (name : String) : Option (List UInt8) := headers.lookup name

def toStr (value : List UInt8) : Option (List Char) :=
  if value.all fun b => b == 9 || (32 ≤ b && b < 127) then some (value.map fun b => Char.ofNat b.toNat) else none

def HeaderMap.text (headers : HeaderMap) (name : String) : Option (List Char) := (headers.header name).bind toStr

def isBlank (c : Char) : Bool := c = ' ' || c = '\t'
def trim (text : List Char) : List Char := ((text.dropWhile isBlank).reverse.dropWhile isBlank).reverse

def effectiveOrigin (peer : IpAddr) (headers : HeaderMap) : IpAddr :=
  if !isLoopbackAddr peer then peer
  else match headers.text "x-forwarded-for" with
    | none => peer
    | some forwarded => (parseIp (trim (forwarded.takeWhile (· ≠ ',')))).getD peer

-- Nobody but a process on the host moves its origin.
theorem origin_remote (remote : isLoopbackAddr peer = false) : effectiveOrigin peer headers = peer := by
  simp [effectiveOrigin,remote]

example : parseIp "::ffff:192.168.1.9".toList = some (.v6 (0,0,0,0,0,0xffff,0xc0a8,0x0109)) := by decide
example : parseIp "10.0.0.01".toList = none := by decide

end EvoCore.PeerOrigin

import Mathlib.Algebra.Group.Int.Defs
import MPSsh.Foundation

namespace MPSsh

namespace MPHost

/-- `INET6_ADDRSTRLEN`. -/
def INET6_ADDRSTRLEN : Nat := 46

/-- What the system knows of a host name. An address can be a null pointer, and
`getnameinfo` writes the text of the others unless it fails. `stack` is what the
array `ipAddress` holds when the method is entered. -/
structure Resolution where
  success : Bool
  addressing : Option (List (Option (Option (List UInt8))))
  stack : CharArray INET6_ADDRSTRLEN

/-- The loop over the addresses. It stops at a null pointer, and adding the `nil`
that text with invalid UTF-8 is boxed to raises. -/
def addressTexts (ipAddress : CharArray INET6_ADDRSTRLEN) :
    List (Option (Option (List UInt8))) → List String → Except Unit (List String)
  | [], addresses => .ok addresses
  | none :: _, addresses => .ok addresses
  | some nameinfo :: rest, addresses =>
    let ipAddress := match nameinfo with
      | some text => ipAddress.fill (text ++ [0])
      | none => ipAddress
    match boxed (ipAddress.stringAt 0) with
    | some iii => addressTexts ipAddress rest (addresses ++ [iii])
    | none => .error ()

/-- `none` is the `nil` returned when nothing could be resolved. -/
def addressesForHostname (r : Resolution) : Except Unit (Option (List String)) :=
  if r.success then
    match r.addressing with
    | some addresses => (addressTexts r.stack addresses []).map some
    | none => .ok none
  else .ok none

def addressForHostname (r : Resolution) : Except Unit (Option String) :=
  (addressesForHostname r).map fun addresses => addresses.bind List.head?

end MPHost

/-- `INADDR_NONE`. -/
def INADDR_NONE : UInt32 := 0xffffffff

def digitValue (c : Char) : Option Nat :=
  if '0' ≤ c ∧ c ≤ '9' then some (c.toNat - 48)
  else if 'a' ≤ c ∧ c ≤ 'f' then some (c.toNat - 87)
  else if 'A' ≤ c ∧ c ≤ 'F' then some (c.toNat - 55)
  else none

/-- The number that digits stand for, if they are all digits of the base. -/
def numberInBase (base : Nat) : List Char → Nat → Option Nat
  | [], n => some n
  | c :: digits, n =>
    match digitValue c with
    | some d => if d < base then numberInBase base digits (n * base + d) else none
    | none => none

/-- A part of a dotted address, written as a number of C. -/
def inetNumber : List Char → Option Nat
  | [] => none
  | '0' :: 'x' :: digits => numberInBase 16 digits 0
  | '0' :: 'X' :: digits => numberInBase 16 digits 0
  | '0' :: digits => numberInBase 8 digits 0
  | digits => numberInBase 10 digits 0

/-- The library function `isspace`: the space, and what lies from the tab to the carriage
return. -/
def isSpace (c : Char) : Bool :=
  c = ' ' || ('\t' ≤ c && c ≤ '\r')

/-- The library function `inet_addr`: up to four parts, of which the last one fills
the bytes that are left. The result is read in network byte order. -/
def inet_addr (text : String) : UInt32 :=
  match ((text.toList.takeWhile (! isSpace ·)).splitOn '.').mapM inetNumber with
  | some [a] => if a < 2 ^ 32 then .ofNat a else INADDR_NONE
  | some [a, b] => if a < 256 ∧ b < 2 ^ 24 then .ofNat (a * 2 ^ 24 + b) else INADDR_NONE
  | some [a, b, c] =>
    if a < 256 ∧ b < 256 ∧ c < 2 ^ 16 then .ofNat (a * 2 ^ 24 + b * 2 ^ 16 + c) else INADDR_NONE
  | some [a, b, c, d] =>
    if a < 256 ∧ b < 256 ∧ c < 256 ∧ d < 256 then .ofNat (a * 2 ^ 24 + b * 2 ^ 16 + c * 2 ^ 8 + d)
    else INADDR_NONE
  | _ => INADDR_NONE

/-- `htons`, as the port number that the network reads: the argument is cut to 16 bits. -/
def htons (port : Int) : UInt16 :=
  .ofNat (port % 2 ^ 16).toNat

/-- `struct sockaddr_in`, in network byte order. -/
structure SockAddrIn where
  sin_port : UInt16
  sin_addr : UInt32
  deriving DecidableEq, Repr

end MPSsh

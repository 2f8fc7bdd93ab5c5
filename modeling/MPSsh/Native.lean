import MPSsh.Base.Ownership
import MPSsh.Session

namespace MPSsh

open Interaction Ownership

/-- A Core Foundation reference, or a pointer to a list of `struct addrinfo`. `NULL` is 0. -/
abbrev Ref := Nat

/-- `CFHostInfoType`, as far as it is used. -/
inductive CFHostInfoType where
  | addresses
  | names
  deriving DecidableEq, Repr

inductive CFSocketError where
  | success
  | error
  | timeout
  deriving DecidableEq, Repr

/-- What `CFDataCreate` copies: the first address of a list, or an address of the caller. -/
inductive AddressBytes where
  | addrinfo (list : Ref)
  | sockaddr (address : SockAddrIn)
  deriving DecidableEq, Repr

/-- The calls behind name resolution and behind the socket. The array that
`CFHostGetAddressing` returns belongs to the host, and `getnameinfo` reads the address at
an index of it. `ipAddress` stands for the array of that name, which is not initialised. -/
inductive NativeCall where
  | getaddrinfo (hostname : Option (List UInt8))
  | freeaddrinfo (list : Ref)
  | CFDataCreate (bytes : AddressBytes)
  | CFHostCreateWithName (hostname : Option String)
  | CFHostCreateWithAddress (address : Ref)
  | CFHostStartInfoResolution (theHost : Ref) (info : CFHostInfoType)
  | CFHostGetAddressing (theHost : Ref)
  | CFHostGetNames (theHost : Ref)
  | ipAddress
  | getnameinfo (theHost : Ref) (index : Nat)
  | CFSocketCreate
  | CFSocketConnectToAddress (s address : Ref)
  | CFSocketGetNative (s : Ref)
  | CFRelease (cf : Ref)
  | session (c : SessionCall)

namespace NativeCall

/-- `getaddrinfo` returns its status and the list. An address in the array can be a null
pointer; the names that the host has are Objective-C strings. -/
@[reducible] def Reply : NativeCall → Type
  | .getaddrinfo _ => Int × Ref
  | .CFDataCreate _ => Ref
  | .CFHostCreateWithName _ => Ref
  | .CFHostCreateWithAddress _ => Ref
  | .CFHostStartInfoResolution _ _ => Bool
  | .CFHostGetAddressing _ => Option (List Bool)
  | .CFHostGetNames _ => Option (List String)
  | .ipAddress => CharArray MPHost.INET6_ADDRSTRLEN
  | .getnameinfo _ _ => Option (List UInt8)
  | .CFSocketCreate => Ref
  | .CFSocketConnectToAddress _ _ => CFSocketError
  | .CFSocketGetNative _ => Nat
  | .session c => c.Reply
  | _ => Unit

/-- A reference that is not `NULL`. -/
def created (cf : Ref) : Option Ref :=
  if cf = 0 then none else some cf

def acquires : (c : NativeCall) → c.Reply → Option Ref
  | .getaddrinfo _, reply => if reply.1 = 0 then some reply.2 else none
  | .CFDataCreate _, cf => created cf
  | .CFHostCreateWithName _, cf => created cf
  | .CFHostCreateWithAddress _, cf => created cf
  | .CFSocketCreate, cf => created cf
  | _, _ => none

def uses : NativeCall → List Ref
  | .CFDataCreate (.addrinfo list) => [list]
  | .CFHostCreateWithAddress address => [address]
  | .CFHostStartInfoResolution theHost _ => [theHost]
  | .CFHostGetAddressing theHost => [theHost]
  | .CFHostGetNames theHost => [theHost]
  | .getnameinfo theHost _ => [theHost]
  | .CFSocketConnectToAddress s address => [s, address]
  | .CFSocketGetNative s => [s]
  | _ => []

def releases : NativeCall → Option Ref
  | .freeaddrinfo list => some list
  | .CFRelease cf => some cf
  | _ => none

def effects : Effects NativeCall NativeCall.Reply Ref where
  acquires := acquires
  uses := uses
  releases := releases

/-- The creations that the callers do not test for `NULL` succeed. -/
def granted : (c : NativeCall) → c.Reply → Prop
  | .CFHostCreateWithName _, cf => cf ≠ 0
  | .CFSocketCreate, cf => cf ≠ 0
  | .CFDataCreate (.sockaddr _), cf => cf ≠ 0
  | _, _ => True

end NativeCall

abbrev NativeMethod (σ α : Type) := Method NativeCall NativeCall.Reply σ α

abbrev NativeProg (α : Type) := Prog NativeCall NativeCall.Reply α

def native {σ : Type} (c : NativeCall) : NativeMethod σ c.Reply :=
  Method.perform c

/-- A call of code that raises nothing. -/
def nativeCall (c : NativeCall) : NativeProg c.Reply :=
  Prog.perform c

/-- The owner of the references of a program. -/
abbrev owner : Monitor NativeCall NativeCall.Reply (Ledger NativeCall NativeCall.Reply Ref) :=
  owning NativeCall.effects NativeCall.granted

section Rules

variable {α : Type} {c : NativeCall} {next : c.Reply → NativeProg α}
  {Q : α → Ledger NativeCall NativeCall.Reply Ref → Prop} {held : List Ref} {log : List (Sigma NativeCall.Reply)}

/-- A creation that is not checked. -/
theorem sat_granted (cf : c.Reply → Ref) (hacquires : ∀ r, NativeCall.acquires c r = NativeCall.created (cf r))
    (hgranted : ∀ r, NativeCall.granted c r → cf r ≠ 0) (huses : ∀ o ∈ NativeCall.uses c, o ∈ held)
    (hreleases : NativeCall.releases c = none) (hnext : ∀ r, (next r).Sat owner Q ⟨cf r :: held, log ++ [⟨c, r⟩]⟩) :
    (Prog.act c next).Sat owner Q ⟨held, log⟩ := by
  refine sat_create huses hreleases fun r hr _ => ?_
  have hcreated : NativeCall.effects.acquires c r = some (cf r) := (hacquires r).trans (if_neg (hgranted r hr))
  rw [hcreated]
  exact hnext r

end Rules

end MPSsh

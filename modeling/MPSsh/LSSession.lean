import MPSsh.Session

namespace MPSsh

open Interaction Method

namespace MPLSSession

/-- `[[MPLSSession alloc] init]`. -/
def init : SessionMethod MPLSSession := do
  let _ ← call .sessionInit
  return { userauthlist := none }

/-- Boxing the `NULL` that the library may return raises. -/
def userauthListWithUser (self : MPLSSession) (user : Option String) : SessionMethod MPLSSession := do
  if self.userauthlist.isNone then
    match ← call (.userauthList (user.map utf8) (user.elim 0 utf16Length)) with
    | none => raise
    | some ual => return { self with userauthlist := boxed (cString ual) }
  else
    return self

def hexDigit (n : Nat) : Char :=
  if n < 10 then Char.ofNat (48 + n) else Char.ofNat (55 + n)

/-- The format `%02X`. -/
def hexByte (b : UInt8) : List Char :=
  [hexDigit (b.toNat / 16), hexDigit (b.toNat % 16)]

def hexGroups : List UInt8 → List Char
  | [] => []
  | [b] => hexByte b
  | b :: bytes => hexByte b ++ ':' :: hexGroups bytes

def fingerprintText (hash : HostkeyHash) : String :=
  String.ofList (hexGroups hash.bytes)

/-- `LIBSSH2_HOSTKEY_HASH_SHA1`. -/
def HOSTKEY_HASH_SHA1 : Int := 2

/-- The loop over the hash reads through the pointer without a test. -/
def hostkeyHash (type : Int) : SessionMethod (Option String) := do
  match ← call (.hostkeyHash type) with
  | none => crash
  | some ret => return some (fingerprintText ret)

/-- Boxing a `NULL` text raises. -/
def lastError : SessionMethod (Option String) := do
  match ← call .lastError with
  | none => raise
  | some err_msg => return boxed (cString err_msg)

def userauthPublickeyFromfileWithUser (user rsa passphrase : Option String) : SessionMethod Int :=
  call (.userauthPublickeyFromfile (user.map utf8) none (rsa.map utf8) (passphrase.map utf8))

def userauthPasswordWithUser (user password : Option String) : SessionMethod Int :=
  call (.userauthPassword (user.map utf8) (password.map utf8))

def userauthKeyboardInteractiveWithUser (user password : Option String) : SessionMethod Int :=
  call (.userauthKeyboardInteractive (user.map utf8) password)

/-- `[self.userauthlist rangeOfString:method].length > 0`, which is false on `nil`. -/
def allows (self : MPLSSession) (method : String) : Bool :=
  self.userauthlist.elim false fun list => containsString list method

def allowPublickKeyAuthentication (self : MPLSSession) : Bool :=
  self.allows "publickey"

def allowPasswordAuthentication (self : MPLSSession) : Bool :=
  self.allows "password"

def allowKeyboardInteractiveAuthentication (self : MPLSSession) : Bool :=
  self.allows "keyboard-interactive"

end MPLSSession

end MPSsh

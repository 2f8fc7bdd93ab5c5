import MPSsh.Base.Interaction
import MPSsh.Host

namespace MPSsh

open Interaction

/-- A value of type `LIBSSH2_SESSION *`. -/
abbrev SessionHandle := Nat

/-- The 20 bytes of a SHA-1 host key hash. -/
structure HostkeyHash where
  bytes : List UInt8
  length_eq : bytes.length = 20
  deriving DecidableEq, Repr

structure MPConnectionParams where
  ip : Option String
  port : Int
  user : Option String
  password : Option String
  rsaPub : Option String
  rsa : Option String
  passphrase : Option String
  requestPassword : Bool
  requestPassphrase : Bool
  deriving DecidableEq, Repr

inductive MPSshSessionState where
  | connected
  | established
  | authenticated
  | initialized
  | opened
  deriving DecidableEq, Repr

/-- The methods of the session delegate protocol that the delegate implements. A
`nil` delegate implements none. -/
structure Delegate where
  didChangeState : Bool
  fingerprint : Bool
  requestPassword : Bool
  deriving DecidableEq, Repr

structure MPLSSession where
  userauthlist : Option String
  deriving DecidableEq, Repr

structure MPSshSession where
  sock : Int
  connected : Bool
  session : Option MPLSSession
  delegate : Delegate
  deriving DecidableEq, Repr

/-- `[[MPSshSession alloc] init]`. Allocation clears the instance variables, and
`init` leaves `sock` as it is. -/
def MPSshSession.init (delegate : Delegate) : MPSshSession where
  sock := 0
  connected := false
  session := none
  delegate := delegate

structure NSError where
  code : Int
  localizedDescription : String
  deriving DecidableEq, Repr

/-- What the outcome of `CFSocketConnectToAddress` gives `createSocket:`. -/
inductive ConnectResult where
  | error
  | timeout
  | connected (descriptor : Nat)
  deriving DecidableEq, Repr

/-- What the session methods call outside their own code. The first two only mark
that an attempt and that a shutdown begin. C strings are given by their bytes,
`none` being `NULL`. The libssh2 functions work on the session in the file-scope
variable, and the keyboard-interactive one is called with the password just stored in
`ppwwdd`. -/
inductive SessionCall where
  | attempt
  | shutdown
  | resolve (hostname : Option String)
  | connectSocket (address : SockAddrIn)
  | close (descriptor : Int)
  | sessionInit
  | trace
  | startup (sock : Int)
  | hostkeyHash (type : Int)
  | lastError
  | disconnect (description : List UInt8)
  | userauthList (username : Option (List UInt8)) (length : Nat)
  | userauthPublickeyFromfile (username publickey privatekey passphrase : Option (List UInt8))
  | userauthPassword (username password : Option (List UInt8))
  | userauthKeyboardInteractive (username : Option (List UInt8)) (ppwwdd : Option String)
  | setBlocking (blocking : Int)
  | didChangeState (state : MPSshSessionState)
  | fingerprint (text : Option String)
  | requestPassword
  | NSLog (format : String)
  deriving DecidableEq, Repr

namespace SessionCall

@[reducible] def Reply : SessionCall → Type
  | .resolve _ => MPHost.Resolution
  | .connectSocket _ => ConnectResult
  | .sessionInit => SessionHandle
  | .startup _ => Int
  | .hostkeyHash _ => Option HostkeyHash
  | .lastError => Option (List UInt8)
  | .userauthList _ _ => Option (List UInt8)
  | .userauthPublickeyFromfile _ _ _ _ => Int
  | .userauthPassword _ _ => Int
  | .userauthKeyboardInteractive _ _ => Int
  | .fingerprint _ => Bool
  | .requestPassword => Option String
  | _ => Unit

/-- The call is made on the session in the file-scope variable. -/
def usesSession : SessionCall → Bool
  | .trace | .startup _ | .hostkeyHash _ | .lastError | .disconnect _ | .userauthList _ _
  | .userauthPublickeyFromfile _ _ _ _ | .userauthPassword _ _ | .userauthKeyboardInteractive _ _
  | .setBlocking _ => true
  | _ => false

/-- The four `libssh2_userauth_*` functions. -/
def isUserauth : SessionCall → Bool
  | .userauthList _ _ | .userauthPublickeyFromfile _ _ _ _ | .userauthPassword _ _
  | .userauthKeyboardInteractive _ _ => true
  | _ => false

end SessionCall

/-- What a session method works on: the object, and the arguments of the call of
`connectUsingParams:error:` it belongs to. -/
structure Frame extends MPSshSession where
  params : MPConnectionParams
  wantsError : Bool
  error : Option NSError
  deriving DecidableEq, Repr

abbrev SessionMethod := Method SessionCall SessionCall.Reply Frame

def call (c : SessionCall) : SessionMethod c.Reply :=
  Method.perform c

end MPSsh

import MPSsh.LSSession

namespace MPSsh.MPSshSession

open Interaction Method

/-- `ERROR_AUTH_FAILED`. -/
def ERROR_AUTH_FAILED : Int := 101

def fillError (code : Int) (msg : String) : SessionMethod Unit :=
  modify fun s => if s.wantsError then { s with error := some { code, localizedDescription := msg } } else s

/-- A message to `self.session`, which does nothing and returns `absent` on `nil`. -/
def toSession {α : Type} (absent : α) (message : MPLSSession → SessionMethod α) : SessionMethod α := do
  match (← get).session with
  | none => return absent
  | some session => message session

def lastError : SessionMethod (Option String) :=
  toSession none fun _ => MPLSSession.lastError

def notify (state : MPSshSessionState) : SessionMethod Unit := do
  if (← get).delegate.didChangeState then call (.didChangeState state)

def disconnect : SessionMethod Unit :=
  toSession () fun _ => call (.disconnect (utf8 "Normal Shutdown, Thank you for playing"))

/-- The property `sock` keeps the closed descriptor. -/
def closeSocket : SessionMethod Unit := do
  let s ← get
  if s.sock ≠ -1 then call (.close s.sock)

def shutdown : SessionMethod Unit := do
  call .shutdown
  disconnect
  closeSocket
  modify fun s => { s with connected := false }

def createSocket : SessionMethod Bool := do
  modify fun s => { s with sock := -1 }
  let s ← get
  match MPHost.addressForHostname (← call (.resolve s.params.ip)) with
  | .error _ => raise
  | .ok none =>
    fillError 100 "unable to resolve address"
    return false
  | .ok (some ipAdr) =>
    match ← call (.connectSocket { sin_port := htons s.params.port, sin_addr := inet_addr ipAdr }) with
    | .error =>
      fillError 100 "failed to connect"
      return false
    | .timeout =>
      fillError 100 "connection timeout"
      return false
    | .connected descriptor =>
      modify fun s => { s with sock := descriptor }
      return true

def manageFingerprint : SessionMethod Bool := do
  let fingerprint ← toSession none fun _ => MPLSSession.hostkeyHash MPLSSession.HOSTKEY_HASH_SHA1
  if (← get).delegate.fingerprint then
    if ← call (.fingerprint fingerprint) then
      return true
    else
      fillError 100 "fingerprint not accepted"
      shutdown
      return false
  else
    return true

/-- One authentication method, with the text of its error. -/
def authenticate (method : MPConnectionParams → SessionMethod Int) (failure : String) : SessionMethod Bool := do
  let rc ← toSession 0 fun _ => do method (← get).params
  if rc ≠ 0 then
    let _ ← lastError
    fillError ERROR_AUTH_FAILED failure
    return false
  else
    return true

def authenticateWithPublickKey : SessionMethod Bool :=
  authenticate (fun params => MPLSSession.userauthPublickeyFromfileWithUser params.user params.rsa params.passphrase)
    "Authentication by public key failed"

def authenticateWithPassword : SessionMethod Bool :=
  authenticate (fun params => MPLSSession.userauthPasswordWithUser params.user params.password)
    "Authentication by password failed"

def authenticateWithKeyboard : SessionMethod Bool :=
  authenticate (fun params => MPLSSession.userauthKeyboardInteractiveWithUser params.user params.password)
    "Authentication by keyboard-interactive failed"

/-- The text of the current session's list mentions a method. -/
def sessionAllows (allows : MPLSSession → Bool) : SessionMethod Bool :=
  toSession false fun session => return allows session

/-- One step of the fallback, if it is `wanted`: the method is tried, and a flag of
the parameters is set from its outcome. -/
def tryMethod (wanted auth : Bool) (method : SessionMethod Bool)
    (flag : Bool → MPConnectionParams → MPConnectionParams) : SessionMethod Bool := do
  if wanted then
    let auth ← method
    modify fun s => { s with params := flag auth s.params }
    return auth
  else
    return auth

def userauthList : SessionMethod Unit :=
  toSession () fun session => do
    let session ← session.userauthListWithUser (← get).params.user
    modify fun s => { s with session := some session }

/-- The end of `authenticateWithParams:error:`. -/
def concludeAuthentication (tryed auth : Bool) : SessionMethod Bool := do
  reportUntried
  if auth then
    return true
  else
    shutdown
    return false
where
  reportUntried : SessionMethod Unit :=
    if tryed then pure () else fillError ERROR_AUTH_FAILED "No supported authentication methods found"

def authenticateWithParams : SessionMethod Bool := do
  userauthList
  let byKey ← sessionAllows MPLSSession.allowPublickKeyAuthentication
  let auth ← tryMethod byKey false authenticateWithPublickKey
    fun auth params => { params with requestPassphrase := !auth }
  let byPassword ← sessionAllows MPLSSession.allowPasswordAuthentication
  let tryed := byKey || !auth && byPassword
  let auth ← tryMethod (!auth && byPassword) auth authenticateWithPassword
    fun auth params => { params with requestPassword := !auth }
  let byKeyboard ← sessionAllows MPLSSession.allowKeyboardInteractiveAuthentication
  let tryed := tryed || !auth && byKeyboard
  let auth ← tryMethod (!auth && byKeyboard) auth authenticateWithKeyboard
    fun _ params => { params with requestPassword := true }
  concludeAuthentication tryed auth

/-- How an iteration of the loop in `connectUsingParams:error:` ends. -/
inductive AttemptResult where
  | failed
  | retry
  | succeeded
  deriving DecidableEq, Repr

/-- After a failed authentication the delegate can give another password. -/
def requestRetry : SessionMethod AttemptResult := do
  let s ← get
  if s.params.requestPassword && s.delegate.requestPassword then
    match ← call .requestPassword with
    | none => return .failed
    | some pwd =>
      shutdown
      modify fun s => { s with params := { s.params with password := some pwd } }
      return .retry
  else
    return .failed

/-- The text of the library's error is used as a format string. -/
def startupFailed : SessionMethod AttemptResult := do
  let msg := (← lastError).getD "(null)"
  call (.NSLog msg)
  fillError 100 msg
  return .failed

/-- The rest of an iteration once the session has been started on the socket. -/
def established : SessionMethod AttemptResult := do
  notify .established
  if ← manageFingerprint then
    if ← authenticateWithParams then return .succeeded else requestRetry
  else
    return .failed

/-- The rest of an iteration once the socket is connected. -/
def openSession : SessionMethod AttemptResult := do
  notify .connected
  let session ← MPLSSession.init
  modify fun s => { s with session := some session }
  call .trace
  let rc ← call (.startup (← get).sock)
  if rc ≠ 0 then startupFailed else established

def attempt : SessionMethod AttemptResult := do
  call .attempt
  if ← createSocket then openSession else return .failed

/-- What follows the loop. -/
def authenticated : SessionMethod Unit := do
  notify .authenticated
  modify fun s => { s with connected := true }
  call (.setBlocking 1)

/-- One iteration of the loop, with what follows the loop if it is the last. -/
def iteration : SessionMethod AttemptResult := do
  match ← attempt with
  | .succeeded =>
    authenticated
    return .succeeded
  | result => return result

/-- The defaults that `connectUsingParams:error:` puts in its parameters. -/
def defaults (params : MPConnectionParams) : MPConnectionParams :=
  { params with
    user := some (params.user.getD "")
    password := some (params.password.getD "")
    rsa := some (params.rsa.getD "")
    rsaPub := some (params.rsaPub.getD "")
    port := if params.port = 0 then 22 else params.port }

end MPSsh.MPSshSession

import MPSsh.Session.Process
import MPSsh.Session.Rules

namespace MPSsh.MPSshSession

open Interaction Method

/-- What the calls of an object say about its current attempt. `current` is the
session of its last `libssh2_session_init`; the other fields start over with each
attempt, and those after `socket` with each session. -/
structure Progress where
  current : SessionHandle
  socket : Option Int
  created : Bool
  started : Bool
  hash : Option HostkeyHash
  shown : Option (Option String × Bool)
  authenticated : Bool
  shutdown : Bool

namespace Progress

def start : Progress where
  current := 0
  socket := none
  created := false
  started := false
  hash := none
  shown := none
  authenticated := false
  shutdown := false

/-- The effect of a call on a session. A call on a session other than the
object's current one says nothing about it. -/
def onSession (v : Progress) (handle : Option SessionHandle) (next : Progress) : Progress :=
  if handle = some v.current then next else v

/-- A method call that was answered with 0 has authenticated the user. -/
def authenticatedBy (v : Progress) (rc : Int) : Progress :=
  if rc = 0 then { v with authenticated := true } else v

def next (v : Progress) (handle : Option SessionHandle) : (c : SessionCall) → c.Reply → Progress
  | .attempt, _ => { start with current := v.current }
  | .shutdown, _ => { v with shutdown := true }
  | .connectSocket _, .connected descriptor => { v with socket := some descriptor }
  | .sessionInit, h =>
    { v with current := h, created := true, started := false, hash := none, shown := none, authenticated := false }
  | .startup sock, rc => v.onSession handle { v with started := v.socket = some sock ∧ rc = 0 }
  | .hostkeyHash _, hash => v.onSession handle { v with hash := hash }
  | .fingerprint text, answer => { v with shown := some (text, answer) }
  | .userauthPublickeyFromfile _ _ _ _, rc => v.onSession handle (v.authenticatedBy rc)
  | .userauthPassword _ _, rc => v.onSession handle (v.authenticatedBy rc)
  | .userauthKeyboardInteractive _ _, rc => v.onSession handle (v.authenticatedBy rc)
  | _, _ => v

/-- The progress after a sequence of calls. -/
def of (log : List Entry) : Progress :=
  log.foldl (fun v entry => v.next entry.handle entry.call entry.reply) start

/-- The attempt has created its session, has started it on its socket and has shown
its host key hash to the delegate, who has given this answer. -/
structure Shown (v : Progress) (answer : Bool) : Prop where
  created : v.created = true
  started : v.started = true
  text : ∃ hash, v.hash = some hash ∧ v.shown = some (some (MPLSSession.fingerprintText hash), answer)

end Progress

/-- The calls that an attempt may make, in which order: the session is started and its
hash is taken before it is shown, what is shown is the hash of the session that
was started, nothing is sent to authenticate the user before the delegate has
accepted it, and nothing is disconnected that was not shown. -/
def guarded : Monitor SessionCall SessionCall.Reply Progress where
  allows v
    | .userauthList _ _ | .userauthPublickeyFromfile _ _ _ _ | .userauthPassword _ _
    | .userauthKeyboardInteractive _ _ => v.Shown true
    | .startup _ | .hostkeyHash _ => v.shown = none
    | .fingerprint text =>
      v.created = true ∧ v.started = true ∧ ∃ hash, v.hash = some hash ∧ text = some (MPLSSession.fingerprintText hash)
    | .disconnect _ => ∃ answer, v.Shown answer
    | _ => True
  expects _ _ _ := True
  next v c r := v.next (some v.current) c r

theorem guarded_ignores {c : SessionCall} (hc : c = .trace ∨ c = .lastError ∨ c = .setBlocking 1 ∨ c = .requestPassword ∨
    (∃ state, c = .didChangeState state) ∨ (∃ format, c = .NSLog format) ∨ (∃ hostname, c = .resolve hostname) ∨
    ∃ descriptor, c = .close descriptor) : Ignores guarded c := by
  obtain rfl | rfl | rfl | rfl | ⟨_, rfl⟩ | ⟨_, rfl⟩ | ⟨_, rfl⟩ | ⟨_, rfl⟩ := hc <;>
    exact ⟨fun _ => trivial, fun _ _ => rfl⟩

/-- An attempt whose fingerprint has been accepted. -/
structure Accepted (delegate : Delegate) (s : Frame) (v : Progress) : Prop where
  connected : s.connected = false
  delegate : s.delegate = delegate
  session : ∃ session, s.session = some session
  shown : v.Shown true
  socket : v.socket = some s.sock
  shutdown : v.shutdown = false

/-- An object that is not connected. -/
structure Disconnected (delegate : Delegate) (s : Frame) : Prop where
  connected : s.connected = false
  delegate : s.delegate = delegate

variable {delegate : Delegate} {s : Frame} {v : Progress}

theorem Accepted.disconnected (h : Accepted delegate s v) : Disconnected delegate s := ⟨h.connected, h.delegate⟩

theorem Accepted.agrees (h : Accepted delegate s v) {s' : Frame} (hagrees : s.Agrees s') : Accepted delegate s' v := by
  constructor
  · exact hagrees.connected.trans h.connected
  · exact hagrees.delegate.trans h.delegate
  · rw [hagrees.session]
    exact h.session
  · exact h.shown
  · rw [hagrees.sock]
    exact h.socket
  · exact h.shutdown

theorem Disconnected.agrees (h : Disconnected delegate s) {s' : Frame} (hagrees : s.Agrees s') :
    Disconnected delegate s' :=
  ⟨hagrees.connected.trans h.connected, hagrees.delegate.trans h.delegate⟩

theorem shutdown_guarded {Q : Outcome Unit → Frame → Progress → Prop}
    (hshown : s.session ≠ none → ∃ answer, v.Shown answer)
    (hpost : Q (.returns ()) { s with connected := false } { v with shutdown := true }) :
    Sat guarded shutdown Q s v := by
  unfold shutdown
  rw [sat_bind]
  refine sat_call.mpr ⟨trivial, fun _ _ => ?_⟩
  rw [andThen_returns, sat_bind]
  have hclose : Sat guarded (do
      closeSocket
      modify fun s => { s with connected := false }) Q s { v with shutdown := true } := by
    unfold closeSocket
    rw [sat_bind, sat_bind, sat_get, andThen_returns]
    split
    · exact sat_ignored (guarded_ignores (by simp)) fun _ => hpost
    · exact hpost
  unfold disconnect
  cases hsession : s.session with
  | none =>
    rw [sat_toSession_nil hsession]
    exact hclose
  | some session =>
    rw [sat_toSession hsession]
    obtain ⟨answer, hanswer⟩ := hshown (by simp [hsession])
    exact sat_call.mpr ⟨⟨answer, hanswer.created, hanswer.started, hanswer.text⟩, fun _ _ => hclose⟩

theorem createSocket_guarded {Q : Outcome Bool → Frame → Progress → Prop} (hstart : Disconnected delegate s)
    (hfailed : ∀ s' result, Disconnected delegate s' → result ≠ .returns true → Q result s' v)
    (hsocket : ∀ descriptor : Nat,
      Q (.returns true) { s with sock := descriptor } { v with socket := some (descriptor : Int) }) :
    Sat guarded createSocket Q s v := by
  have hunset : Disconnected delegate { s with sock := -1 } := ⟨hstart.connected, hstart.delegate⟩
  unfold createSocket
  rw [sat_bind, sat_modify, andThen_returns, sat_bind, sat_get, andThen_returns, sat_bind]
  apply sat_ignored (guarded_ignores (by simp))
  intro resolution
  rw [andThen_returns]
  split
  · exact hfailed _ _ hunset (by simp)
  · rw [sat_bind]
    apply fillError_sat
    exact fun s' hagrees => hfailed _ _ (hunset.agrees hagrees) (by simp)
  · rw [sat_bind]
    refine sat_call.mpr ⟨trivial, fun result _ => ?_⟩
    rw [andThen_returns]
    cases result with
    | error | timeout =>
      rw [sat_bind]
      apply fillError_sat
      exact fun s' hagrees => hfailed _ _ (hunset.agrees hagrees) (by simp)
    | connected descriptor => exact hsocket descriptor

/-- A rejected fingerprint shuts the session down; an accepted one is on record. -/
theorem manageFingerprint_guarded {Q : Outcome Bool → Frame → Progress → Prop} (hstart : Disconnected delegate s)
    (hdelegate : delegate.fingerprint = true) (hsession : ∃ session, s.session = some session)
    (hcreated : v.created = true) (hstarted : v.started = true) (hfresh : v.shown = none)
    (hsocket : v.socket = some s.sock) (hopen : v.shutdown = false)
    (haccepted : ∀ v', Accepted delegate s v' → Q (.returns true) s v')
    (hfailed : ∀ s' v' result, Disconnected delegate s' → result ≠ .returns true → Q result s' v') :
    Sat guarded manageFingerprint Q s v := by
  obtain ⟨session, hsome⟩ := hsession
  unfold manageFingerprint
  rw [sat_bind, sat_toSession hsome]
  unfold MPLSSession.hostkeyHash
  rw [sat_bind]
  refine sat_call.mpr ⟨hfresh, fun ret _ => ?_⟩
  cases ret with
  | none => exact hfailed _ _ _ hstart (by simp)
  | some hash =>
    rw [andThen_returns, sat_pure, andThen_returns, sat_bind, sat_get, andThen_returns, hstart.delegate, hdelegate,
      if_pos rfl, sat_bind]
    have hshown : guarded.next v (.hostkeyHash MPLSSession.HOSTKEY_HASH_SHA1) (some hash) = { v with hash := some hash } := by
      simp [guarded, Progress.next, Progress.onSession]
    rw [hshown]
    refine sat_call.mpr ⟨⟨hcreated, hstarted, hash, rfl, rfl⟩, fun answer _ => ?_⟩
    rw [andThen_returns]
    cases answer with
    | true =>
      apply haccepted
      exact ⟨hstart.connected, hstart.delegate, ⟨session, hsome⟩, ⟨hcreated, hstarted, hash, rfl, rfl⟩, hsocket, hopen⟩
    | false =>
      rw [if_neg (by simp), sat_bind]
      apply fillError_sat
      intro s' hagrees
      rw [andThen_returns, sat_bind]
      apply shutdown_guarded
      · exact fun _ => ⟨false, hcreated, hstarted, hash, rfl, rfl⟩
      · have hend := hstart.agrees hagrees
        exact hfailed _ _ _ ⟨rfl, hend.delegate⟩ (by simp)

theorem userauthList_guarded {Q : Outcome Unit → Frame → Progress → Prop} (haccepted : Accepted delegate s v)
    (hpost : ∀ s', Accepted delegate s' v → Q (.returns ()) s' v)
    (hraised : ∀ s' v', Disconnected delegate s' → Q .raised s' v') :
    Sat guarded userauthList Q s v := by
  obtain ⟨session, hsession⟩ := haccepted.session
  unfold userauthList
  rw [sat_toSession hsession, sat_bind, sat_get, andThen_returns, sat_bind]
  unfold MPLSSession.userauthListWithUser
  have hset (session : MPLSSession) : Accepted delegate { s with session := some session } v :=
    ⟨haccepted.connected, haccepted.delegate, ⟨session, rfl⟩, haccepted.shown, haccepted.socket, haccepted.shutdown⟩
  split
  · rw [sat_bind]
    refine sat_call.mpr ⟨haccepted.shown, fun ual _ => ?_⟩
    cases ual with
    | none => exact hraised _ _ haccepted.disconnected
    | some ual => exact hpost _ (hset _)
  · exact hpost _ (hset _)

/-- A method that authenticates leaves the attempt accepted, and one that succeeds
has authenticated the user. -/
def Authenticates (delegate : Delegate) (method : SessionMethod Bool) : Prop :=
  ∀ (Q : Outcome Bool → Frame → Progress → Prop) (s : Frame) (v : Progress), Accepted delegate s v →
    (∀ s' v', Accepted delegate s' v' → v'.authenticated = true → Q (.returns true) s' v') →
    (∀ s' v', Accepted delegate s' v' → Q (.returns false) s' v') →
    (∀ s' v', Disconnected delegate s' → Q .raised s' v') → Sat guarded method Q s v

theorem Accepted.authenticatedBy (haccepted : Accepted delegate s v) (rc : Int) :
    Accepted delegate s (v.authenticatedBy rc) := by
  unfold Progress.authenticatedBy
  split
  · exact ⟨haccepted.connected, haccepted.delegate, haccepted.session,
      ⟨haccepted.shown.created, haccepted.shown.started, haccepted.shown.text⟩, haccepted.socket, haccepted.shutdown⟩
  · exact haccepted

theorem authenticate_guarded {method : MPConnectionParams → SessionMethod Int} {failure : String}
    (hmethod : ∀ (Q : Outcome Int → Frame → Progress → Prop) (s : Frame) (v : Progress), v.Shown true →
      (∀ rc, Q (.returns rc) s (v.authenticatedBy rc)) → Sat guarded (method s.params) Q s v) :
    Authenticates delegate (authenticate method failure) := by
  intro Q s v haccepted htrue hfalse hraised
  obtain ⟨session, hsession⟩ := haccepted.session
  apply authenticate_sat (guarded_ignores (by simp)) hsession
  apply hmethod _ s v haccepted.shown
  intro rc
  refine ⟨rfl, rc, rfl, ?_, ?_⟩
  · rintro rfl
    exact htrue _ _ (haccepted.authenticatedBy 0) rfl
  · intro _
    have hafter := haccepted.authenticatedBy rc
    exact ⟨fun s' hagrees => hfalse _ _ (hafter.agrees hagrees), hraised _ _ hafter.disconnected⟩

theorem authenticateWithPublickKey_guarded : Authenticates delegate authenticateWithPublickKey := by
  apply authenticate_guarded
  intro Q s v hshown hpost
  refine sat_call.mpr ⟨hshown, fun rc _ => ?_⟩
  simpa [guarded, Progress.next, Progress.onSession] using hpost rc

theorem authenticateWithPassword_guarded : Authenticates delegate authenticateWithPassword := by
  apply authenticate_guarded
  intro Q s v hshown hpost
  refine sat_call.mpr ⟨hshown, fun rc _ => ?_⟩
  simpa [guarded, Progress.next, Progress.onSession] using hpost rc

theorem authenticateWithKeyboard_guarded : Authenticates delegate authenticateWithKeyboard := by
  apply authenticate_guarded
  intro Q s v hshown hpost
  refine sat_call.mpr ⟨hshown, fun rc _ => ?_⟩
  simpa [guarded, Progress.next, Progress.onSession] using hpost rc

theorem tryMethod_guarded {wanted auth : Bool} {method : SessionMethod Bool}
    {flag : Bool → MPConnectionParams → MPConnectionParams} {Q : Outcome Bool → Frame → Progress → Prop}
    (hmethod : Authenticates delegate method) (haccepted : Accepted delegate s v)
    (hauth : auth = true → v.authenticated = true)
    (hpost : ∀ auth s' v', Accepted delegate s' v' → (auth = true → v'.authenticated = true) → Q (.returns auth) s' v')
    (hraised : ∀ s' v', Disconnected delegate s' → Q .raised s' v') :
    Sat guarded (tryMethod wanted auth method flag) Q s v := by
  have hflag (auth : Bool) (s' : Frame) (v' : Progress) (h : Accepted delegate s' v') :
      Accepted delegate { s' with params := flag auth s'.params } v' :=
    ⟨h.connected, h.delegate, h.session, h.shown, h.socket, h.shutdown⟩
  unfold tryMethod
  split
  · rw [sat_bind]
    apply hmethod _ s v haccepted
    · intro s' v' h hdone
      exact hpost true _ _ (hflag true s' v' h) fun _ => hdone
    · intro s' v' h
      exact hpost false _ _ (hflag false s' v' h) (by simp)
    · exact hraised
  · exact hpost auth s v haccepted hauth

theorem concludeAuthentication_guarded {tryed auth : Bool} {Q : Outcome Bool → Frame → Progress → Prop}
    (haccepted : Accepted delegate s v) (hauth : auth = true → v.authenticated = true)
    (htrue : ∀ s' v', Accepted delegate s' v' → v'.authenticated = true → Q (.returns true) s' v')
    (hfalse : ∀ s' v', Disconnected delegate s' → v'.Shown true → Q (.returns false) s' v') :
    Sat guarded (concludeAuthentication tryed auth) Q s v := by
  have hend (s : Frame) (haccepted : Accepted delegate s v) :
      Sat guarded (if auth = true then pure true else do
        shutdown
        pure false) Q s v := by
    split
    · rename_i h
      exact htrue s v haccepted (hauth h)
    · rw [sat_bind]
      apply shutdown_guarded
      · exact fun _ => ⟨true, haccepted.shown⟩
      · apply hfalse
        · exact ⟨rfl, haccepted.delegate⟩
        · exact ⟨haccepted.shown.created, haccepted.shown.started, haccepted.shown.text⟩
  unfold concludeAuthentication
  rw [sat_bind]
  unfold concludeAuthentication.reportUntried
  split
  · exact hend s haccepted
  · apply fillError_sat
    exact fun s' hagrees => hend s' (haccepted.agrees hagrees)

theorem authenticateWithParams_guarded {Q : Outcome Bool → Frame → Progress → Prop} (haccepted : Accepted delegate s v)
    (htrue : ∀ s' v', Accepted delegate s' v' → v'.authenticated = true → Q (.returns true) s' v')
    (hfalse : ∀ s' v', Disconnected delegate s' → v'.Shown true → Q (.returns false) s' v')
    (hraised : ∀ s' v', Disconnected delegate s' → Q .raised s' v') :
    Sat guarded authenticateWithParams Q s v := by
  unfold authenticateWithParams
  rw [sat_bind]
  apply userauthList_guarded haccepted
  · intro s haccepted
    rw [andThen_returns, sat_bind]
    apply sessionAllows_sat
    intro byKey
    rw [andThen_returns, sat_bind]
    apply tryMethod_guarded authenticateWithPublickKey_guarded haccepted (by simp)
    · intro auth s v haccepted hauth
      rw [andThen_returns, sat_bind]
      apply sessionAllows_sat
      intro byPassword
      rw [andThen_returns, sat_bind]
      apply tryMethod_guarded authenticateWithPassword_guarded haccepted hauth
      · intro auth s v haccepted hauth
        rw [andThen_returns, sat_bind]
        apply sessionAllows_sat
        intro byKeyboard
        rw [andThen_returns, sat_bind]
        apply tryMethod_guarded authenticateWithKeyboard_guarded haccepted hauth
        · intro auth s v haccepted hauth
          exact concludeAuthentication_guarded haccepted hauth htrue hfalse
        · exact hraised
      · exact hraised
    · exact hraised
  · exact hraised

/-- How an iteration may end: connected after a successful authentication on the
session and the socket of the attempt, or not connected. -/
def Ends (delegate : Delegate) (result : Outcome AttemptResult) (s : Frame) (v : Progress) : Prop :=
  match result with
  | .returns .succeeded => Accepted delegate s v ∧ v.authenticated = true
  | _ => Disconnected delegate s

theorem requestRetry_guarded (hstart : Disconnected delegate s) (hshown : ∃ answer, v.Shown answer) :
    Sat guarded requestRetry (Ends delegate) s v := by
  unfold requestRetry
  rw [sat_bind, sat_get, andThen_returns]
  split
  · rw [sat_bind]
    apply sat_ignored (guarded_ignores (by simp))
    intro answer
    rw [andThen_returns]
    cases answer with
    | none => exact hstart
    | some pwd =>
      rw [sat_bind]
      apply shutdown_guarded fun _ => hshown
      exact ⟨rfl, hstart.delegate⟩
  · exact hstart

theorem startupFailed_guarded (hstart : Disconnected delegate s) :
    Sat guarded startupFailed (Ends delegate) s v := by
  unfold startupFailed
  rw [sat_bind]
  refine lastError_sat (guarded_ignores (by simp)) (fun text => ?_) hstart
  rw [andThen_returns, sat_bind]
  apply sat_ignored (guarded_ignores (by simp))
  intro _
  rw [andThen_returns, sat_bind]
  apply fillError_sat
  exact fun s' hagrees => hstart.agrees hagrees

theorem established_guarded (hstart : Disconnected delegate s) (hdelegate : delegate.fingerprint = true)
    (hsession : ∃ session, s.session = some session) (hcreated : v.created = true) (hstarted : v.started = true)
    (hfresh : v.shown = none) (hsocket : v.socket = some s.sock) (hopen : v.shutdown = false) :
    Sat guarded established (Ends delegate) s v := by
  unfold established
  rw [sat_bind]
  apply notify_sat (guarded_ignores (by simp))
  rw [andThen_returns, sat_bind]
  apply manageFingerprint_guarded hstart hdelegate hsession hcreated hstarted hfresh hsocket hopen
  · intro v haccepted
    rw [andThen_returns, if_pos rfl, sat_bind]
    apply authenticateWithParams_guarded haccepted
    · exact fun s' v' h hdone => ⟨h, hdone⟩
    · intro s' v' h hshown
      exact requestRetry_guarded h ⟨true, hshown⟩
    · exact fun s' v' h => h
  · intro s' v' result h hresult
    cases result with
    | returns accepted =>
      have hrejected : accepted = false := by simpa using hresult
      rw [hrejected]
      exact h
    | raised | crashed => exact h

/-- The attempt has a socket, and a session that is started on it counts. -/
theorem openSession_guarded (hstart : Disconnected delegate s) (hdelegate : delegate.fingerprint = true)
    (hsocket : v.socket = some s.sock) (hopen : v.shutdown = false) :
    Sat guarded openSession (Ends delegate) s v := by
  unfold openSession
  rw [sat_bind]
  apply notify_sat (guarded_ignores (by simp))
  rw [andThen_returns, sat_bind]
  unfold MPLSSession.init
  rw [sat_bind]
  refine sat_call.mpr ⟨trivial, fun h _ => ?_⟩
  rw [andThen_returns, sat_pure, andThen_returns, sat_bind, sat_modify, andThen_returns, sat_bind]
  apply sat_ignored (guarded_ignores (by simp))
  intro _
  rw [andThen_returns, sat_bind, sat_get, andThen_returns, sat_bind]
  refine sat_call.mpr ⟨rfl, fun rc _ => ?_⟩
  rw [andThen_returns]
  have hend : Disconnected delegate { s with session := some { userauthlist := none } } :=
    ⟨hstart.connected, hstart.delegate⟩
  split
  · exact startupFailed_guarded hend
  · rename_i hrc
    have hzero : rc = 0 := not_not.mp hrc
    apply established_guarded hend hdelegate ⟨_, rfl⟩ <;>
      simp [guarded, Progress.next, Progress.onSession, hsocket, hopen, hzero]

theorem attempt_guarded (hstart : Disconnected delegate s) (hdelegate : delegate.fingerprint = true) :
    Sat guarded attempt (Ends delegate) s v := by
  unfold attempt
  rw [sat_bind]
  refine sat_call.mpr ⟨trivial, fun _ _ => ?_⟩
  rw [andThen_returns, sat_bind]
  apply createSocket_guarded hstart
  · intro s' result h hresult
    cases result with
    | returns connected =>
      have hfailed : connected = false := by simpa using hresult
      rw [hfailed]
      exact h
    | raised | crashed => exact h
  · intro descriptor
    exact openSession_guarded ⟨hstart.connected, hstart.delegate⟩ hdelegate rfl rfl

/-- A connected object: the current attempt has started its session on the socket of
the object, has had its fingerprint accepted and has authenticated the user, and
nothing has been shut down since. -/
structure Connected (object : MPSshSession) (v : Progress) : Prop where
  shown : v.Shown true
  socket : v.socket = some object.sock
  authenticated : v.authenticated = true
  shutdown : v.shutdown = false

/-- What an iteration leaves behind. -/
structure Left (delegate : Delegate) (object : MPSshSession) (v : Progress) : Prop where
  delegate : object.delegate = delegate
  connected : object.connected = true → Connected object v

theorem Disconnected.left (h : Disconnected delegate s) : Left delegate s.toMPSshSession v :=
  ⟨h.delegate, by simp [h.connected]⟩

theorem authenticated_guarded (haccepted : Accepted delegate s v) (hdone : v.authenticated = true) :
    Sat guarded authenticated (fun _ s' v' => Left delegate s'.toMPSshSession v') s v := by
  unfold authenticated
  rw [sat_bind]
  apply notify_sat (guarded_ignores (by simp))
  rw [andThen_returns, sat_bind, sat_modify, andThen_returns]
  apply sat_ignored (guarded_ignores (by simp))
  exact fun _ => ⟨haccepted.delegate, fun _ => ⟨haccepted.shown, haccepted.socket, hdone, haccepted.shutdown⟩⟩

/-- An iteration makes only guarded calls and leaves the object connected only as it
should be. A retry starts without a connection. -/
theorem iteration_guarded (hstart : Disconnected delegate s) (hdelegate : delegate.fingerprint = true) :
    Sat guarded iteration (fun result s' v' => Left delegate s'.toMPSshSession v' ∧
      (result = .returns .retry → Disconnected delegate s')) s v := by
  unfold iteration
  rw [sat_bind]
  apply (attempt_guarded hstart hdelegate).mono
  intro result s' v' hends
  cases result with
  | returns ended =>
    cases ended with
    | succeeded =>
      obtain ⟨haccepted, hdone⟩ := hends
      rw [andThen_returns, sat_bind]
      apply (authenticated_guarded haccepted hdone).mono
      intro result s' v' hleft
      cases result <;> exact ⟨hleft, by simp⟩
    | failed => exact ⟨Disconnected.left hends, by simp⟩
    | retry => exact ⟨Disconnected.left hends, fun _ => hends⟩
  | raised | crashed => exact ⟨Disconnected.left hends, by simp⟩

end MPSsh.MPSshSession

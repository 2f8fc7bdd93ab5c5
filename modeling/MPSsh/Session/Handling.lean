import MPSsh.Base.Exactness
import MPSsh.Session.Connect

namespace MPSsh

/-- The conversions of a format string that take an argument. -/
def isConversion (c : Char) : Bool :=
  "diouxXDOUcCsSp@eEfFgGaAn".toList.contains c

/-- What may stand between `%` and the conversion. -/
def isModifier (c : Char) : Bool :=
  "0123456789 .#+-'$hqlLztj".toList.contains c

/-- Reads a format string, with a mark for the part after a `%`. A `*` takes an
argument too. -/
def takesArgument : Bool → List Char → Bool
  | _, [] => false
  | false, c :: cs => takesArgument (c = '%') cs
  | true, c :: cs =>
    if isModifier c then takesArgument true cs
    else if c = '*' || isConversion c then true
    else takesArgument false cs

/-- A format string applied to no arguments takes one that is missing. -/
def consumesArgument (format : String) : Bool :=
  takesArgument false format.toList

namespace MPSshSession

open Interaction Method

/-- The text that a library error is shown as. -/
def shownError (text : List UInt8) : String :=
  (boxed (cString text)).getD "(null)"

/-- The methods provide for the reply. `startup` tells that the error text is asked for
right after a startup. -/
def Handled (startup : Bool) : (c : SessionCall) → c.Reply → Prop
  | .resolve _, resolution => MPHost.addressForHostname resolution ≠ .error ()
  | .sessionInit, handle => handle ≠ 0
  | .hostkeyHash _, ret => ret ≠ none
  | .userauthList _ _, ual => ual ≠ none
  | .lastError, err_msg =>
    ∃ text, err_msg = some text ∧ (startup = true → consumesArgument (shownError text) = false)
  | _, _ => True

/-- The arguments of the call have what it reads: a C string is not `NULL`, and a format
has its arguments. -/
def Passable : SessionCall → Prop
  | .userauthList username _ => username ≠ none
  | .userauthPublickeyFromfile username _ privatekey _ => username ≠ none ∧ privatekey ≠ none
  | .userauthPassword username password => username ≠ none ∧ password ≠ none
  | .userauthKeyboardInteractive username ppwwdd => username ≠ none ∧ ppwwdd ≠ none
  | .NSLog format => consumesArgument format = false
  | _ => True

/-- What an object's calls have left: the session it has initialised last, and whether
its last call was a startup. -/
structure Watch where
  session : Option SessionHandle
  startup : Bool

namespace Watch

def start : Watch where
  session := none
  startup := false

def next (v : Watch) : (c : SessionCall) → c.Reply → Watch
  | .sessionInit, handle => { session := some handle, startup := false }
  | .startup _, _ => { v with startup := true }
  | _, _ => { v with startup := false }

/-- The object has a session of the library. -/
def Opened (v : Watch) : Prop :=
  ∃ handle, v.session = some handle ∧ handle ≠ 0

/-- The call is made on `NULL`, or with arguments that it cannot read. -/
def Wrong (v : Watch) (c : SessionCall) : Prop :=
  c.usesSession = true ∧ v.session = some 0 ∨ ¬ Passable c

end Watch

/-- Calls on the session need one, and every reply has to be provided for. -/
def attentive : Monitor SessionCall SessionCall.Reply Watch where
  allows v c := (c.usesSession = true → v.Opened) ∧ Passable c
  expects v c r := Handled v.startup c r
  next := Watch.next

theorem next_session {v : Watch} {c : SessionCall} (hinit : c ≠ .sessionInit) (r : c.Reply) :
    (v.next c r).session = v.session := by
  cases c <;> first | rfl | exact absurd rfl hinit

theorem next_opened {v : Watch} {c : SessionCall} (hinit : c ≠ .sessionInit) (r : c.Reply) :
    (v.next c r).Opened ↔ v.Opened := by
  rw [Watch.Opened, next_session hinit]
  rfl

/-- Where an attempt stands: it has a session if it is `opened`, and the error is set if
it is `reported`. -/
structure Standing (opened reported : Bool) (s : Frame) (v : Watch) : Prop where
  user : s.params.user ≠ none
  password : s.params.password ≠ none
  rsa : s.params.rsa ≠ none
  session : s.session ≠ none → v.Opened
  opened : opened = true → v.Opened
  reported : reported = true → s.wantsError = true → s.error ≠ none

section Attempt

variable {opened reported : Bool} {s : Frame} {v : Watch}

/-- What a method makes of where an attempt stands. -/
abbrev Keeping {α : Type} (P : Frame → Watch → Prop) (m : SessionMethod α) (Q : α → Frame → Watch → Prop) : Prop :=
  Triple attentive Watch.Wrong P m Q

theorem Standing.weaken {opened' reported' : Bool} (h : Standing opened reported s v)
    (hopened : opened' = true → opened = true) (hreported : reported' = true → reported = true) :
    Standing opened' reported' s v := by
  obtain ⟨huser, hpassword, hrsa, hsession, hopen, hreport⟩ := h
  exact ⟨huser, hpassword, hrsa, hsession, hopen ∘ hopened, hreport ∘ hreported⟩

/-- Neither the socket nor the connection matters. -/
theorem Standing.of_same (h : Standing opened reported s v) {s' : Frame} (hparams : s'.params = s.params)
    (hsession : s'.session = s.session) (hwants : s'.wantsError = s.wantsError) (herror : s'.error = s.error) :
    Standing opened reported s' v := by
  obtain ⟨huser, hpassword, hrsa, hs, hopened, hreported⟩ := h
  exact ⟨by rwa [hparams], by rwa [hparams], by rwa [hparams], by rwa [hsession], hopened, by rwa [hwants, herror]⟩

theorem Standing.next (h : Standing opened reported s v) {c : SessionCall} (hinit : c ≠ .sessionInit) (r : c.Reply) :
    Standing opened reported s (v.next c r) := by
  obtain ⟨huser, hpassword, hrsa, hsession, hopened, hreported⟩ := h
  exact ⟨huser, hpassword, hrsa, fun hs => (next_opened hinit r).mpr (hsession hs),
    fun ho => (next_opened hinit r).mpr (hopened ho), hreported⟩

theorem Standing.setSession (h : Standing opened reported s v) (hopened : v.Opened) (session : Option MPLSSession)
    (opened' : Bool) : Standing opened' reported { s with session } v := by
  obtain ⟨huser, hpassword, hrsa, -, -, hreported⟩ := h
  exact ⟨huser, hpassword, hrsa, fun _ => hopened, fun _ => hopened, hreported⟩

/-- A call off the session whose reply does not matter. -/
theorem call_standing {c : SessionCall} (hoff : c.usesSession = false) (hinit : c ≠ .sessionInit)
    (hpassable : Passable c) (hhandled : ∀ startup r, Handled startup c r) :
    Keeping (Standing opened reported) (call c) (fun _ => Standing opened reported) :=
  fun _ _ h => exact_perform ⟨fun hon => by simp [hoff] at hon, hpassable⟩ (hhandled _) fun r => h.next hinit r

/-- A call on the session whose reply does not matter. -/
theorem use_standing {c : SessionCall} (hinit : c ≠ .sessionInit) (hpassable : Passable c)
    (hhandled : ∀ startup r, Handled startup c r) :
    Keeping (fun s v => Standing opened reported s v ∧ v.Opened) (call c) (fun _ => Standing opened reported) :=
  fun _ _ h => exact_perform ⟨fun _ => h.2, hpassable⟩ (hhandled _) fun r => h.1.next hinit r

theorem toSession_standing {α : Type} {absent : α} {message : MPLSSession → SessionMethod α}
    {Q : α → Frame → Watch → Prop} (habsent : ∀ s v, Standing opened reported s v → Q absent s v)
    (hmessage : ∀ session, Keeping (fun s v => Standing opened reported s v ∧ v.Opened) (message session) Q) :
    Keeping (Standing opened reported) (toSession absent message) Q := by
  refine triple_get_bind fun s v h => ?_
  cases hsession : s.session with
  | none => exact habsent s v h
  | some session => exact hmessage session s v ⟨h, h.session (by simp [hsession])⟩

/-- The rule for a call some of whose replies are not provided for. -/
theorem exact_call_bind {α : Type} {c : SessionCall} {f : c.Reply → SessionMethod α} {Q : α → Frame → Watch → Prop}
    (hallows : attentive.allows v c)
    (hhandled : ∀ r, Handled v.startup c r → Exact attentive Watch.Wrong (f r) Q s (v.next c r))
    (hfails : ∀ r, ¬ Handled v.startup c r → (f r s).Fails Watch.Wrong (v.next c r)) :
    Exact attentive Watch.Wrong (call c >>= f) Q s v :=
  exact_perform_bind.mpr ⟨hallows, fun r => ⟨hhandled r, hfails r⟩⟩

theorem fillError_standing {code : Int} {msg : String} :
    Keeping (Standing opened reported) (fillError code msg) (fun _ => Standing opened true) := by
  rintro s v ⟨huser, hpassword, hrsa, hsession, hopened, -⟩
  unfold fillError
  rw [exact_modify]
  split
  · exact ⟨huser, hpassword, hrsa, hsession, hopened, fun _ _ => by simp⟩
  · rename_i hwants
    exact ⟨huser, hpassword, hrsa, hsession, hopened, fun _ h => absurd h hwants⟩

theorem notify_standing {state : MPSshSessionState} :
    Keeping (Standing opened reported) (notify state) (fun _ => Standing opened reported) := by
  refine triple_get_bind fun s v h => ?_
  split
  · exact call_standing (c := .didChangeState state) rfl nofun trivial (fun _ _ => trivial) s v h
  · exact h

/-- The error text of a failed startup has to be harmless as a format, and any other one
only has to be there. -/
theorem lastError_bind {α : Type} {f : Option String → SessionMethod α} {Q : α → Frame → Watch → Prop}
    (h : Standing opened reported s v) (habsent : Exact attentive Watch.Wrong (f none) Q s v)
    (hshown : ∀ text, (v.startup = true → consumesArgument (shownError text) = false) →
      Exact attentive Watch.Wrong (f (boxed (cString text))) Q s (v.next .lastError (some text)))
    (hharmful : ∀ text, v.startup = true → consumesArgument (shownError text) = true →
      (f (boxed (cString text)) s).Fails Watch.Wrong (v.next .lastError (some text))) :
    Exact attentive Watch.Wrong (lastError >>= f) Q s v := by
  unfold lastError toSession
  rw [bind_assoc, exact_get_bind]
  cases hsession : s.session with
  | none => exact habsent
  | some session =>
    simp only [MPLSSession.lastError]
    rw [bind_assoc]
    refine exact_call_bind ⟨fun _ => h.session (by simp [hsession]), trivial⟩ ?_ ?_
    · rintro _ ⟨text, rfl, hharmless⟩
      exact hshown text hharmless
    · intro err_msg hnot
      cases err_msg with
      | none => trivial
      | some text =>
        have hstartup : v.startup = true := by
          by_contra hno
          exact hnot ⟨text, rfl, fun hyes => absurd hyes hno⟩
        refine hharmful text hstartup ?_
        by_contra hno
        exact hnot ⟨text, rfl, fun _ => by simpa using hno⟩

theorem shutdown_standing :
    Keeping (Standing opened reported) shutdown (fun _ => Standing opened reported) := by
  unfold shutdown disconnect closeSocket
  refine triple_bind (call_standing (c := .shutdown) rfl nofun trivial fun _ _ => trivial) fun _ => ?_
  apply triple_bind (R := fun _ => Standing opened reported)
  · refine toSession_standing (fun _ _ h => h) ?_
    exact fun _ => use_standing (c := .disconnect _) nofun trivial fun _ _ => trivial
  intro _
  apply triple_bind (R := fun _ => Standing opened reported)
  · refine triple_get_bind fun s v h => ?_
    split
    · exact call_standing (c := .close s.sock) rfl nofun trivial (fun _ _ => trivial) s v h
    · exact h
  · exact fun _ => triple_modify fun _ _ h => h.of_same rfl rfl rfl rfl

/-- A failure that is only reported. -/
theorem failure_standing {code : Int} {msg : String} :
    Keeping (Standing opened reported) (do
      fillError code msg
      return false) (fun ok => Standing opened (!ok)) :=
  triple_bind fillError_standing fun _ => triple_pure fun _ _ h => h

theorem createSocket_standing :
    Keeping (Standing opened reported) createSocket (fun created => Standing opened (!created)) := by
  unfold createSocket
  intro s v h
  replace h : Standing opened reported { s with sock := -1 } v := h.of_same rfl rfl rfl rfl
  rw [exact_modify_bind, exact_get_bind]
  refine exact_call_bind ⟨nofun, trivial⟩ ?_ ?_
  · intro resolution hhandled
    have h₁ := h.next (c := .resolve s.params.ip) nofun resolution
    split
    · rename_i hraised
      exact absurd hraised hhandled
    · exact failure_standing _ _ h₁
    · refine exact_call_bind ⟨nofun, trivial⟩ ?_ fun _ hnot => absurd trivial hnot
      intro result _
      have h₂ := h₁.next (c := .connectSocket _) nofun result
      cases result with
      | error | timeout => exact failure_standing _ _ h₂
      | connected descriptor =>
        have h₃ : Standing opened false { s with sock := -1 } _ := h₂.weaken id nofun
        exact h₃.of_same rfl rfl rfl rfl
  · intro resolution hnot
    rw [show MPHost.addressForHostname resolution = .error () from not_not.mp hnot]
    trivial

theorem hostkeyHash_standing (type : Int) :
    Keeping (fun s v => Standing opened reported s v ∧ v.Opened) (MPLSSession.hostkeyHash type)
      (fun _ => Standing opened reported) := by
  rintro s v ⟨h, hopened⟩
  refine exact_call_bind ⟨fun _ => hopened, trivial⟩ ?_ ?_
  · intro ret hhandled
    obtain ⟨hash, rfl⟩ := Option.ne_none_iff_exists'.mp hhandled
    exact h.next (c := .hostkeyHash type) nofun (some hash)
  · intro ret hnot
    obtain rfl : ret = none := not_not.mp hnot
    trivial

theorem manageFingerprint_standing :
    Keeping (Standing opened false) manageFingerprint (fun accepted => Standing opened (!accepted)) := by
  unfold manageFingerprint
  apply triple_bind (R := fun _ => Standing opened false)
  · exact toSession_standing (fun _ _ h => h) fun _ => hostkeyHash_standing _
  intro fingerprint
  refine triple_get_bind fun s v h => ?_
  split
  · refine exact_call_bind ⟨nofun, trivial⟩ ?_ fun _ hnot => absurd trivial hnot
    intro accepted _
    have h₁ := h.next (c := .fingerprint fingerprint) nofun accepted
    cases accepted with
    | true => exact h₁
    | false =>
      refine triple_bind fillError_standing (fun _ => ?_) s _ h₁
      exact triple_bind shutdown_standing fun _ => triple_pure fun _ _ h => h
  · exact h

/-- A method of authentication asks for the error text only after its own call. -/
theorem authenticate_standing {method : MPConnectionParams → SessionMethod Int} {failure : String}
    (hmethod : ∀ s v, Standing opened reported s v → v.Opened →
      Exact attentive Watch.Wrong (method s.params)
        (fun _ s v => Standing opened reported s v ∧ v.startup = false) s v) :
    Keeping (Standing opened reported) (authenticate method failure)
      (fun auth => Standing opened (reported || !auth)) := by
  unfold authenticate
  apply triple_bind (R := fun rc s v => Standing opened reported s v ∧ (rc ≠ 0 → v.startup = false))
  · refine toSession_standing (fun _ _ h => ⟨h, fun hrc => absurd rfl hrc⟩) fun _ => ?_
    exact triple_get_bind fun s v h => (hmethod s v h.1 h.2).mono fun _ _ _ h => ⟨h.1, fun _ => h.2⟩
  intro rc s v h
  split
  · rename_i hrc
    have hstartup := h.2 hrc
    have hfailed : Keeping (Standing opened reported) (do
        fillError ERROR_AUTH_FAILED failure
        return false) (fun auth => Standing opened (reported || !auth)) :=
      triple_bind fillError_standing fun _ => triple_pure fun _ _ h => h.weaken id fun _ => rfl
    apply lastError_bind h.1
    · exact hfailed s v h.1
    · exact fun text _ => hfailed s _ (h.1.next (c := .lastError) nofun (some text))
    · intro text hyes
      simp [hstartup] at hyes
  · exact h.1.weaken id (by simp)

theorem userauthList_standing :
    Keeping (Standing opened reported) userauthList (fun _ => Standing opened reported) := by
  unfold userauthList
  refine toSession_standing (fun _ _ h => h) fun session => ?_
  rintro s v ⟨h, hopened⟩
  rw [exact_get_bind]
  unfold MPLSSession.userauthListWithUser
  split
  · rw [bind_assoc]
    refine exact_call_bind ⟨fun _ => hopened, by simpa [Passable] using h.user⟩ ?_ ?_
    · intro ual hhandled
      obtain ⟨text, rfl⟩ := Option.ne_none_iff_exists'.mp hhandled
      have h₁ := h.next (c := .userauthList (s.params.user.map utf8) (s.params.user.elim 0 utf16Length)) nofun (some text)
      exact h₁.setSession ((next_opened (c := .userauthList _ _) nofun _).mpr hopened) _ _
    · intro ual hnot
      obtain rfl : ual = none := not_not.mp hnot
      trivial
  · exact h.setSession hopened _ _

theorem sessionAllows_standing {allows : MPLSSession → Bool} :
    Keeping (Standing opened reported) (sessionAllows allows) (fun _ => Standing opened reported) :=
  toSession_standing (fun _ _ h => h) fun _ => triple_pure fun _ _ h => h.1

/-- A step of the fallback leaves the error set if a method has been tried and the user
is not authenticated. -/
theorem tryMethod_standing (tryed : Bool) {wanted auth : Bool} {method : SessionMethod Bool}
    {flag : Bool → MPConnectionParams → MPConnectionParams}
    (hmethod : ∀ {reported}, Keeping (Standing opened reported) method
      (fun auth => Standing opened (reported || !auth)))
    (hflag : ∀ auth params, (flag auth params).user = params.user ∧ (flag auth params).password = params.password ∧
      (flag auth params).rsa = params.rsa) :
    Keeping (Standing opened (tryed && !auth)) (tryMethod wanted auth method flag)
      (fun auth' => Standing opened ((tryed || wanted) && !auth')) := by
  unfold tryMethod
  cases wanted with
  | false => exact triple_pure fun _ _ h => h.weaken id (by simp)
  | true =>
    apply triple_bind hmethod
    intro auth'
    have hset : Keeping (Standing opened (tryed && !auth || !auth'))
        (modify fun s => { s with params := flag auth' s.params })
        (fun _ => Standing opened ((tryed || true) && !auth')) := by
      apply triple_modify
      rintro s v ⟨huser, hpassword, hrsa, hsession, hopened, hreported⟩
      obtain ⟨hu, hp, hr⟩ := hflag auth' s.params
      refine ⟨by rwa [hu], by rwa [hp], by rwa [hr], hsession, hopened, fun hfailed => hreported ?_⟩
      obtain rfl : auth' = false := by simpa using hfailed
      rw [Bool.not_false, Bool.or_true]
    exact triple_bind hset fun _ => triple_pure fun _ _ h => h

theorem concludeAuthentication_standing {tryed auth : Bool} :
    Keeping (Standing opened (tryed && !auth)) (concludeAuthentication tryed auth)
      (fun auth => Standing opened (!auth)) := by
  unfold concludeAuthentication concludeAuthentication.reportUntried
  apply triple_bind (R := fun _ => Standing opened (!auth))
  · refine triple_ite (fun htryed => triple_pure fun _ _ h => ?_) fun _ => ?_
    · simpa [htryed] using h
    · exact fillError_standing.imp (fun _ _ h => h) fun _ _ _ h => h.weaken id fun _ => rfl
  · intro _
    cases auth with
    | true => exact triple_pure fun _ _ h => h
    | false => exact triple_bind shutdown_standing fun _ => triple_pure fun _ _ h => h

/-- The call of an authentication method. -/
theorem request_standing {c : SessionCall} (hinit : c ≠ .sessionInit) (hhandled : ∀ startup r, Handled startup c r)
    (hquiet : ∀ (v : Watch) r, (v.next c r).startup = false) (hpassable : Passable c)
    (h : Standing opened reported s v) (hopened : v.Opened) :
    Exact attentive Watch.Wrong (call c) (fun _ s v => Standing opened reported s v ∧ v.startup = false) s v :=
  exact_perform ⟨fun _ => hopened, hpassable⟩ (hhandled _) fun r => ⟨h.next hinit r, hquiet v r⟩

theorem authenticateWithPublickKey_standing :
    Keeping (Standing opened reported) authenticateWithPublickKey (fun auth => Standing opened (reported || !auth)) :=
  authenticate_standing fun s v h hopened =>
    request_standing (c := .userauthPublickeyFromfile _ _ _ _) nofun (fun _ _ => trivial) (fun _ _ => rfl)
      ⟨by simpa using h.user, by simpa using h.rsa⟩ h hopened

theorem authenticateWithPassword_standing :
    Keeping (Standing opened reported) authenticateWithPassword (fun auth => Standing opened (reported || !auth)) :=
  authenticate_standing fun s v h hopened =>
    request_standing (c := .userauthPassword _ _) nofun (fun _ _ => trivial) (fun _ _ => rfl)
      ⟨by simpa using h.user, by simpa using h.password⟩ h hopened

theorem authenticateWithKeyboard_standing :
    Keeping (Standing opened reported) authenticateWithKeyboard (fun auth => Standing opened (reported || !auth)) :=
  authenticate_standing fun s v h hopened =>
    request_standing (c := .userauthKeyboardInteractive _ _) nofun (fun _ _ => trivial) (fun _ _ => rfl)
      ⟨by simpa using h.user, h.password⟩ h hopened

theorem authenticateWithParams_standing :
    Keeping (Standing opened false) authenticateWithParams (fun auth => Standing opened (!auth)) := by
  unfold authenticateWithParams
  apply triple_bind userauthList_standing
  intro _
  apply triple_bind sessionAllows_standing
  intro byKey
  apply triple_bind
  · exact tryMethod_standing false authenticateWithPublickKey_standing fun _ _ => ⟨rfl, rfl, rfl⟩
  intro auth
  apply triple_bind sessionAllows_standing
  intro byPassword
  apply triple_bind
  · exact tryMethod_standing _ authenticateWithPassword_standing fun _ _ => ⟨rfl, rfl, rfl⟩
  intro auth
  apply triple_bind sessionAllows_standing
  intro byKeyboard
  apply triple_bind
  · exact tryMethod_standing _ authenticateWithKeyboard_standing fun _ _ => ⟨rfl, rfl, rfl⟩
  intro auth
  exact concludeAuthentication_standing

/-- What an attempt leaves: a session if it has succeeded, and the error if it has
failed. -/
abbrev AttemptLeaves (result : AttemptResult) : Frame → Watch → Prop :=
  Standing (result = .succeeded) (result = .failed)

theorem requestRetry_standing : Keeping (Standing opened true) requestRetry AttemptLeaves := by
  unfold requestRetry
  refine triple_get_bind fun s v h => ?_
  split
  · refine exact_call_bind ⟨nofun, trivial⟩ ?_ fun _ hnot => absurd trivial hnot
    intro answer _
    have h₁ := h.next (c := .requestPassword) nofun answer
    cases answer with
    | none => exact h₁.weaken nofun fun _ => rfl
    | some pwd =>
      refine triple_bind shutdown_standing (fun _ => ?_) s _ h₁
      rintro s v ⟨huser, hpassword, hrsa, hsession, hopened, hreported⟩
      exact ⟨huser, by simp, hrsa, hsession, nofun, nofun⟩
  · exact h.weaken nofun fun _ => rfl

/-- The error text is a format that gets no arguments. -/
theorem startupFailed_standing (h : Standing opened false s v) (hstartup : v.startup = true) :
    Exact attentive Watch.Wrong startupFailed AttemptLeaves s v := by
  have hreport (msg : String) {s : Frame} {v : Watch} (h : Standing opened false s v)
      (hmsg : consumesArgument msg = false) :
      Exact attentive Watch.Wrong (do
        call (.NSLog msg)
        fillError 100 msg
        return AttemptResult.failed) AttemptLeaves s v := by
    refine exact_call_bind ⟨nofun, hmsg⟩ (fun r _ => ?_) fun _ hnot => absurd trivial hnot
    refine triple_bind fillError_standing (fun _ => triple_pure fun s v h => ?_) s _ (h.next (c := .NSLog msg) nofun r)
    exact h.weaken nofun fun _ => rfl
  unfold startupFailed
  apply lastError_bind h
  · exact hreport "(null)" h (by decide)
  · intro text hharmless
    exact hreport _ (h.next (c := .lastError) nofun (some text)) (hharmless hstartup)
  · intro text _ hconsumes
    refine Or.inr fun hpassable => ?_
    rw [show consumesArgument (shownError text) = false from hpassable] at hconsumes
    cases hconsumes

theorem established_standing : Keeping (Standing true false) established AttemptLeaves := by
  unfold established
  apply triple_bind notify_standing
  intro _
  apply triple_bind manageFingerprint_standing
  intro accepted
  refine triple_ite (fun haccepted => ?_) fun hrefused => triple_pure fun s v h => ?_
  · subst haccepted
    apply triple_bind authenticateWithParams_standing
    intro auth
    refine triple_ite (fun hauth => triple_pure fun s v h => ?_) fun hfailed => ?_
    · exact h.weaken (fun _ => rfl) nofun
    · obtain rfl : auth = false := by simpa using hfailed
      exact requestRetry_standing
  · obtain rfl : accepted = false := by simpa using hrefused
    exact h.weaken nofun fun _ => rfl

/-- The error text of a startup is asked for right after it. -/
theorem startup_standing : Keeping (Standing true false) (do
    let rc ← call (.startup (← get).sock)
    if rc ≠ 0 then startupFailed else established) AttemptLeaves := by
  refine triple_get_bind fun s v h => ?_
  refine exact_call_bind ⟨fun _ => h.opened rfl, trivial⟩ (fun rc _ => ?_) fun _ hnot => absurd trivial hnot
  have h₁ := h.next (c := .startup s.sock) nofun rc
  split
  · exact startupFailed_standing h₁ rfl
  · exact established_standing s _ h₁

theorem openSession_standing : Keeping (Standing false false) openSession AttemptLeaves := by
  unfold openSession
  apply triple_bind notify_standing
  intro _ s v h
  unfold MPLSSession.init
  rw [bind_assoc]
  refine exact_call_bind ⟨nofun, trivial⟩ ?_ ?_
  · intro handle hhandled
    have hopened : (v.next .sessionInit handle).Opened := ⟨handle, rfl, hhandled⟩
    obtain ⟨huser, hpassword, hrsa, -, -, hreported⟩ := h
    have h₁ : Standing true false { s with session := some { userauthlist := none } } (v.next .sessionInit handle) :=
      ⟨huser, hpassword, hrsa, fun _ => hopened, fun _ => hopened, hreported⟩
    refine exact_call_bind ⟨fun _ => hopened, trivial⟩ (fun r _ => ?_) fun _ hnot => absurd trivial hnot
    exact startup_standing _ _ (h₁.next (c := .trace) nofun r)
  · intro handle hnot
    obtain rfl : handle = 0 := not_not.mp hnot
    exact Or.inl ⟨rfl, rfl⟩

theorem attempt_standing : Keeping (Standing false false) attempt AttemptLeaves := by
  unfold attempt
  refine triple_bind (call_standing (c := .attempt) rfl nofun trivial fun _ _ => trivial) fun _ => ?_
  apply triple_bind createSocket_standing
  intro created
  refine triple_ite (fun hcreated => ?_) fun hfailed => triple_pure fun s v h => ?_
  · subst hcreated
    exact openSession_standing
  · obtain rfl : created = false := by simpa using hfailed
    exact h.weaken nofun fun _ => rfl

/-- An iteration that is not the last leaves the next one where it started itself, and a
call that returns NO has set the error. -/
abbrev LoopLeaves (result : AttemptResult) : Frame → Watch → Prop :=
  Standing false (result = .failed)

theorem iteration_standing : Keeping (Standing false false) iteration LoopLeaves := by
  unfold iteration
  apply triple_bind attempt_standing
  intro result
  cases result with
  | failed | retry => exact triple_pure fun _ _ h => h
  | succeeded =>
    apply triple_bind (R := fun _ => Standing false false)
    · unfold authenticated
      apply triple_bind notify_standing
      intro _ s v h
      rw [exact_modify_bind]
      have h₁ : Standing false false s v := h.weaken nofun nofun
      have h₂ : Standing false false { s with connected := true } v := h₁.of_same rfl rfl rfl rfl
      exact use_standing (c := .setBlocking 1) nofun trivial (fun _ _ => trivial) _ _ ⟨h₂, h.opened rfl⟩
    · exact fun _ => triple_pure fun _ _ h => h

end Attempt

end MPSshSession

end MPSsh

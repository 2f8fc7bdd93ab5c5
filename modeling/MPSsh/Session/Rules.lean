import MPSsh.Session.Connect

namespace MPSsh

/-- Frames that agree in what the rest of an attempt depends on. -/
structure Frame.Agrees (s s' : Frame) : Prop where
  sock : s'.sock = s.sock
  connected : s'.connected = s.connected
  session : s'.session = s.session
  delegate : s'.delegate = s.delegate
  params : s'.params = s.params

namespace MPSshSession

open Interaction Method

variable {τ : Type} {M : Monitor SessionCall SessionCall.Reply τ} {s : Frame} {t : τ}

@[simp] theorem sat_call {c : SessionCall} {Q : Outcome c.Reply → Frame → τ → Prop} :
    Sat M (call c) Q s t ↔ M.allows t c ∧ ∀ r, M.expects t c r → Q (.returns r) s (M.next t c r) := Iff.rfl

theorem sat_toSession {α : Type} {absent : α} {message : MPLSSession → SessionMethod α} {session : MPLSSession}
    {Q : Outcome α → Frame → τ → Prop} (hsession : s.session = some session) :
    Sat M (toSession absent message) Q s t ↔ Sat M (message session) Q s t := by
  unfold toSession
  rw [sat_bind, sat_get, andThen_returns, hsession]

theorem sat_toSession_nil {α : Type} {absent : α} {message : MPLSSession → SessionMethod α}
    {Q : Outcome α → Frame → τ → Prop} (hsession : s.session = none) :
    Sat M (toSession absent message) Q s t ↔ Q (.returns absent) s t := by
  unfold toSession
  rw [sat_bind, sat_get, andThen_returns, hsession, sat_pure]

theorem keeps_toSession {α γ : Type} {part : Frame → γ} {absent : α} {message : MPLSSession → SessionMethod α}
    (hmessage : ∀ session, Keeps M part (message session)) : Keeps M part (toSession absent message) := by
  unfold toSession
  apply keeps_bind keeps_get
  intro s
  cases s.session with
  | none => exact keeps_pure absent
  | some session => exact hmessage session

theorem fillError_sat {code : Int} {msg : String} {Q : Outcome Unit → Frame → τ → Prop}
    (hpost : ∀ s', s.Agrees s' → Q (.returns ()) s' t) : Sat M (fillError code msg) Q s t := by
  unfold fillError
  rw [sat_modify]
  apply hpost
  split <;> exact ⟨rfl, rfl, rfl, rfl, rfl⟩

theorem notify_sat {state : MPSshSessionState} (hignores : Ignores M (.didChangeState state))
    {Q : Outcome Unit → Frame → τ → Prop} (hpost : Q (.returns ()) s t) : Sat M (notify state) Q s t := by
  unfold notify
  rw [sat_bind, sat_get, andThen_returns]
  split
  · exact sat_ignored hignores fun _ => hpost
  · exact hpost

theorem lastError_sat (hignores : Ignores M .lastError) {Q : Outcome (Option String) → Frame → τ → Prop}
    (hreturns : ∀ text, Q (.returns text) s t) (hraised : Q .raised s t) : Sat M lastError Q s t := by
  unfold lastError
  cases hsession : s.session with
  | none => exact (sat_toSession_nil hsession).mpr (hreturns none)
  | some session =>
    rw [sat_toSession hsession]
    unfold MPLSSession.lastError
    rw [sat_bind]
    apply sat_ignored hignores
    intro err_msg
    cases err_msg with
    | none => exact hraised
    | some text => exact hreturns _

theorem sessionAllows_sat {allows : MPLSSession → Bool} {Q : Outcome Bool → Frame → τ → Prop}
    (hpost : ∀ allowed, Q (.returns allowed) s t) : Sat M (sessionAllows allows) Q s t := by
  unfold sessionAllows
  cases hsession : s.session with
  | none => exact (sat_toSession_nil hsession).mpr (hpost false)
  | some session => exact (sat_toSession hsession).mpr (hpost _)

/-- A failed method leaves only its error, unless asking for the library's text
raises. -/
theorem authenticate_sat {method : MPConnectionParams → SessionMethod Int} {failure : String} {session : MPLSSession}
    {Q : Outcome Bool → Frame → τ → Prop} (hignores : Ignores M .lastError) (hsession : s.session = some session)
    (hmethod : Sat M (method s.params) (fun result s' t' => s' = s ∧ ∃ rc, result = .returns rc ∧
      (rc = 0 → Q (.returns true) s t') ∧
      (rc ≠ 0 → (∀ s', s.Agrees s' → Q (.returns false) s' t') ∧ Q .raised s t')) s t) :
    Sat M (authenticate method failure) Q s t := by
  unfold authenticate
  rw [sat_bind, sat_toSession hsession, sat_bind, sat_get, andThen_returns]
  apply hmethod.mono
  rintro result s' t' ⟨rfl, rc, rfl, hzero, hfailed⟩
  rw [andThen_returns]
  split
  · rename_i hrc
    obtain ⟨hreturns, hraised⟩ := hfailed hrc
    rw [sat_bind]
    refine lastError_sat hignores (fun text => ?_) hraised
    rw [andThen_returns, sat_bind]
    exact fillError_sat hreturns
  · rename_i hrc
    exact hzero (not_not.mp hrc)

section Fallback

variable {P : Frame → τ → Prop}

theorem maintains_toSession {α : Type} {absent : α} {message : MPLSSession → SessionMethod α}
    (hmessage : ∀ session, Maintains M P (message session)) : Maintains M P (toSession absent message) := by
  unfold toSession
  apply maintains_bind maintains_get
  intro s
  cases s.session with
  | none => exact maintains_pure absent
  | some session => exact hmessage session

theorem notify_maintains {state : MPSshSessionState} (hignores : Ignores M (.didChangeState state)) :
    Maintains M P (notify state) :=
  maintains_bind maintains_get fun _ => maintains_ite (maintains_ignored hignores) (maintains_pure _)

theorem tryMethod_maintains {wanted auth : Bool} {method : SessionMethod Bool}
    {flag : Bool → MPConnectionParams → MPConnectionParams} (hmethod : Maintains M P method)
    (hflag : ∀ auth s t, P s t → P { s with params := flag auth s.params } t) :
    Maintains M P (tryMethod wanted auth method flag) := by
  unfold tryMethod
  refine maintains_ite ?_ (maintains_pure auth)
  apply maintains_bind hmethod
  intro auth'
  exact maintains_bind (maintains_modify (hflag auth')) fun _ => maintains_pure auth'

/-- The rule of the fallback: its methods and its end maintain the relation, which does
not go by the flags. -/
theorem fallback_maintains (hlist : Maintains M P userauthList)
    (hkey : Maintains M P authenticateWithPublickKey) (hpassword : Maintains M P authenticateWithPassword)
    (hkeyboard : Maintains M P authenticateWithKeyboard)
    (hflags : ∀ s t requestPassword requestPassphrase, P s t →
      P { s with params := { s.params with requestPassword, requestPassphrase } } t)
    (hconclude : ∀ tryed auth, Maintains M P (concludeAuthentication tryed auth)) :
    Maintains M P authenticateWithParams := by
  have hallows {allows : MPLSSession → Bool} : Maintains M P (sessionAllows allows) :=
    maintains_toSession fun _ => maintains_pure _
  unfold authenticateWithParams
  apply maintains_bind hlist
  intro _
  apply maintains_bind hallows
  intro byKey
  apply maintains_bind (tryMethod_maintains hkey fun auth s t h => hflags s t s.params.requestPassword (!auth) h)
  intro auth
  apply maintains_bind hallows
  intro byPassword
  apply maintains_bind (tryMethod_maintains hpassword fun auth s t h => hflags s t (!auth) s.params.requestPassphrase h)
  intro auth
  apply maintains_bind hallows
  intro byKeyboard
  apply maintains_bind (tryMethod_maintains hkeyboard fun _ s t h => hflags s t true s.params.requestPassphrase h)
  intro auth
  exact hconclude _ auth

end Fallback

/-- A relation between frame and observer that goes by what an attempt leaves to the
next one: the session, the delegate and the parameters. -/
def Framed (P : Frame → τ → Prop) : Prop :=
  ∀ s s' v, s'.session = s.session → s'.delegate = s.delegate → s'.params = s.params → P s v → P s' v

/-- The calls that tell neither of the socket, of the states and of the password of an
attempt nor of its authentication. -/
def isSilent : SessionCall → Bool
  | .resolve _ | .sessionInit | .trace | .hostkeyHash _ | .fingerprint _ | .lastError | .shutdown | .disconnect _
  | .close _ | .setBlocking _ | .NSLog _ => true
  | _ => false

section Framed

variable {P : Frame → τ → Prop} (hframed : Framed P) (hsilent : ∀ c, isSilent c = true → Ignores M c)

include hframed in
theorem fillError_maintains {code : Int} {msg : String} : Maintains M P (fillError code msg) := by
  refine maintains_modify fun s v h => ?_
  split
  · exact hframed s _ v rfl rfl rfl h
  · exact h

include hsilent

theorem silent_maintains {c : SessionCall} (hc : isSilent c = true) : Maintains M P (call c) :=
  maintains_ignored (hsilent c hc)

theorem lastError_maintains : Maintains M P lastError := by
  refine maintains_toSession fun _ => maintains_bind (silent_maintains hsilent rfl) fun text => ?_
  cases text with
  | none => exact maintains_raise
  | some text => exact maintains_pure _

theorem hostkeyHash_maintains {type : Int} : Maintains M P (MPLSSession.hostkeyHash type) := by
  refine maintains_bind (silent_maintains hsilent rfl) fun hash => ?_
  cases hash with
  | none => exact maintains_crash
  | some hash => exact maintains_pure _

include hframed

theorem shutdown_maintains : Maintains M P shutdown := by
  unfold shutdown disconnect closeSocket
  apply maintains_bind (silent_maintains hsilent rfl)
  intro _
  apply maintains_bind
  · exact maintains_toSession fun _ => silent_maintains hsilent rfl
  intro _
  apply maintains_bind
  · apply maintains_bind maintains_get
    exact fun s => maintains_ite (silent_maintains hsilent rfl) (maintains_pure _)
  · exact fun _ => maintains_modify fun s v h => hframed s _ v rfl rfl rfl h

theorem createSocket_maintains (hconnect : ∀ address, Ignores M (.connectSocket address)) :
    Maintains M P createSocket := by
  have hfill (msg : String) : Maintains M P (do
      fillError 100 msg
      return false) :=
    maintains_bind (fillError_maintains hframed) fun _ => maintains_pure false
  unfold createSocket
  apply maintains_bind
  · exact maintains_modify fun s v h => hframed s _ v rfl rfl rfl h
  intro _
  apply maintains_bind maintains_get
  intro s
  apply maintains_bind (silent_maintains hsilent rfl)
  intro resolution
  split
  · exact maintains_raise
  · exact hfill "unable to resolve address"
  · apply maintains_bind (maintains_ignored (hconnect _))
    intro result
    cases result with
    | error => exact hfill "failed to connect"
    | timeout => exact hfill "connection timeout"
    | connected descriptor =>
      apply maintains_bind
      · exact maintains_modify fun s v h => hframed s _ v rfl rfl rfl h
      · exact fun _ => maintains_pure true

theorem manageFingerprint_maintains : Maintains M P manageFingerprint := by
  unfold manageFingerprint
  apply maintains_bind (maintains_toSession fun _ => hostkeyHash_maintains hsilent)
  intro fingerprint
  apply maintains_bind maintains_get
  intro s
  apply maintains_ite
  · apply maintains_bind (silent_maintains hsilent rfl)
    intro accepted
    apply maintains_ite (maintains_pure true)
    apply maintains_bind (fillError_maintains hframed)
    exact fun _ => maintains_bind (shutdown_maintains hframed hsilent) fun _ => maintains_pure false
  · exact maintains_pure true

theorem startupFailed_returning {Q : AttemptResult → Frame → τ → Prop} (h : P s t)
    (hfailed : ∀ s' t', P s' t' → Q .failed s' t') : Sat M startupFailed (Returning Q) s t := by
  unfold startupFailed
  refine (lastError_maintains hsilent).andThen_returning h ?_
  intro text s₁ t₁ h₁
  refine (silent_maintains hsilent rfl).andThen_returning h₁ ?_
  intro _ s₂ t₂ h₂
  refine (fillError_maintains hframed).andThen_returning h₂ ?_
  exact fun _ s₃ t₃ h₃ => hfailed s₃ t₃ h₃

/-- A method is asked for the parameters of the moment. -/
theorem authenticate_maintains {method : MPConnectionParams → SessionMethod Int} {failure : String}
    (hmethod : ∀ s t, P s t → Sat M (method s.params) (fun _ s t => P s t) s t) :
    Maintains M P (authenticate method failure) := by
  unfold authenticate
  apply maintains_bind
  · apply maintains_toSession
    intro _ s t h
    rw [sat_bind, sat_get, andThen_returns]
    exact hmethod s t h
  · intro rc
    refine maintains_ite ?_ (maintains_pure true)
    apply maintains_bind (lastError_maintains hsilent)
    exact fun _ => maintains_bind (fillError_maintains hframed) fun _ => maintains_pure false

theorem concludeAuthentication_maintains {tryed auth : Bool} : Maintains M P (concludeAuthentication tryed auth) := by
  unfold concludeAuthentication concludeAuthentication.reportUntried
  apply maintains_bind
  · exact maintains_ite (maintains_pure _) (fillError_maintains hframed)
  · intro _
    apply maintains_ite (maintains_pure true)
    exact maintains_bind (shutdown_maintains hframed hsilent) fun _ => maintains_pure false

/-- The fallback maintains what each of its methods does, if the flags do not matter. -/
theorem authenticateWithParams_maintains (hlist : Maintains M P userauthList)
    (hkey : Maintains M P authenticateWithPublickKey) (hpassword : Maintains M P authenticateWithPassword)
    (hkeyboard : Maintains M P authenticateWithKeyboard)
    (hflags : ∀ s t requestPassword requestPassphrase, P s t →
      P { s with params := { s.params with requestPassword, requestPassphrase } } t) :
    Maintains M P authenticateWithParams :=
  fallback_maintains hlist hkey hpassword hkeyboard hflags fun _ _ => concludeAuthentication_maintains hframed hsilent

end Framed

end MPSshSession

end MPSsh

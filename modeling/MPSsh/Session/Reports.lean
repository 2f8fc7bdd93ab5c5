import MPSsh.Session.Requests

namespace MPSsh

/-- The text of the list mentions one of the three methods. -/
def MPLSSession.allowsAny (session : MPLSSession) : Bool :=
  session.allowPublickKeyAuthentication || session.allowPasswordAuthentication ||
    session.allowKeyboardInteractiveAuthentication

namespace MPSshSession

open Interaction Method Schedule

/-- What an observer has seen fail. -/
structure Report where
  /-- The error of the step that has failed last. -/
  failed : Option NSError
  /-- The library has not started the session of the attempt. -/
  refused : Bool

namespace Report

def start : Report where
  failed := none
  refused := false

/-- The error for a server whose list mentions none of the three methods in its text. -/
def untried : NSError where
  code := ERROR_AUTH_FAILED
  localizedDescription := "No supported authentication methods found"

/-- The error of an authentication method with this result. -/
def rejected (text : String) (rc : Int) : Option NSError :=
  if rc = 0 then none else some { code := ERROR_AUTH_FAILED, localizedDescription := text }

/-- The error of the step that a reply shows to have failed. The library is asked for the
text of a failed start. -/
def failure (refused : Bool) : (c : SessionCall) → c.Reply → Option NSError
  | .resolve _, resolution =>
    match MPHost.addressForHostname resolution with
    | .ok none => some { code := 100, localizedDescription := "unable to resolve address" }
    | _ => none
  | .connectSocket _, .error => some { code := 100, localizedDescription := "failed to connect" }
  | .connectSocket _, .timeout => some { code := 100, localizedDescription := "connection timeout" }
  | .lastError, some text =>
    if refused then some { code := 100, localizedDescription := (boxed (cString text)).getD "(null)" } else none
  | .fingerprint _, accepted =>
    if accepted then none else some { code := 100, localizedDescription := "fingerprint not accepted" }
  | .userauthList _ _, some ual => if MPLSSession.allowsAny ⟨boxed (cString ual)⟩ then none else some untried
  | .userauthPublickeyFromfile _ _ _ _, rc => rejected "Authentication by public key failed" rc
  | .userauthPassword _ _, rc => rejected "Authentication by password failed" rc
  | .userauthKeyboardInteractive _ _, rc => rejected "Authentication by keyboard-interactive failed" rc
  | _, _ => none

def refusedAfter (refused : Bool) : (c : SessionCall) → c.Reply → Bool
  | .startup _, rc => rc ≠ 0
  | _, _ => refused

def next (v : Report) (c : SessionCall) (r : c.Reply) : Report where
  failed := (failure v.refused c r).or v.failed
  refused := refusedAfter v.refused c r

end Report

/-- The observer remembers the last failure. -/
def failures : Monitor SessionCall SessionCall.Reply Report where
  allows _ _ := True
  expects _ _ _ := True
  next := Report.next

/-- The error of the call is this one, if its caller wants one. -/
structure Told (wantsError : Bool) (failed : Option NSError) (s : Frame) : Prop where
  wants : s.wantsError = wantsError
  error : s.error = if wantsError then failed else none

/-- An attempt in which the caller has been told of the last failure. -/
structure Reported (wantsError : Bool) (session : Option MPLSSession) (s : Frame) (v : Report) : Prop where
  session : s.session = session
  told : Told wantsError v.failed s

/-- A session that has been started. -/
structure Started (wantsError : Bool) (session : MPLSSession) (s : Frame) (v : Report) : Prop where
  reported : Reported wantsError (some session) s v
  accepted : v.refused = false

/-- A session that has the list of the server. When nothing in it can be tried, that is the
failure that the caller has still to be told of. -/
structure Listed (wantsError : Bool) (session : MPLSSession) (s : Frame) (v : Report) : Prop where
  current : s.session = some session
  accepted : v.refused = false
  pending : ∃ failed, Told wantsError failed s ∧ v.failed = if session.allowsAny then failed else some Report.untried

/-- An attempt, and so a call that ends with it, leaves the caller with the last failure. -/
def Reports (wantsError : Bool) (_ : AttemptResult) (s : Frame) (v : Report) : Prop :=
  Told wantsError v.failed s

section Attempt

variable {wantsError : Bool} {failed : Option NSError} {session : Option MPLSSession} {s : Frame} {v : Report}

theorem failures_ignores {c : SessionCall} (hnext : ∀ v r, Report.next v c r = v) : Ignores failures c :=
  ⟨fun _ => trivial, hnext⟩

/-- An error takes the place of the one that the caller has been given. -/
theorem fillError_tells {code : Int} {msg : String} {Q : Unit → Frame → Report → Prop} (htold : Told wantsError failed s)
    (hpost : ∀ s', s'.session = s.session → Told wantsError (some { code, localizedDescription := msg }) s' →
      Q () s' v) : Sat failures (fillError code msg) (Returning Q) s v := by
  obtain ⟨rfl, herror⟩ := htold
  unfold fillError
  rw [sat_modify]
  split
  · rename_i hwants
    exact hpost _ rfl ⟨rfl, by rw [if_pos hwants]⟩
  · rename_i hwants
    rw [if_neg hwants] at herror
    exact hpost s rfl ⟨rfl, by rw [if_neg hwants, herror]⟩

/-- A step that ends with an error returns NO. -/
theorem fillError_fails {α : Type} {code : Int} {msg : String} {result : α} {Q : α → Frame → Report → Prop}
    (htold : Told wantsError failed s)
    (hpost : ∀ s', Told wantsError (some { code, localizedDescription := msg }) s' → Q result s' v) :
    Sat failures (do
      fillError code msg
      return result) (Returning Q) s v := by
  apply sat_bind_returning
  exact fillError_tells htold fun s' _ htold' => hpost s' htold'

theorem shutdown_reported : Maintains failures (Reported wantsError session) shutdown := by
  unfold shutdown disconnect closeSocket
  apply maintains_bind (maintains_ignored (failures_ignores fun _ _ => rfl))
  intro _
  apply maintains_bind
  · exact maintains_toSession fun _ => maintains_ignored (failures_ignores fun _ _ => rfl)
  intro _
  apply maintains_bind
  · apply maintains_bind maintains_get
    exact fun s => maintains_ite (maintains_ignored (failures_ignores fun _ _ => rfl)) (maintains_pure _)
  · exact fun _ => maintains_modify fun _ _ h => ⟨h.session, h.told.wants, h.told.error⟩

theorem createSocket_reports (htold : Told wantsError v.failed s) :
    Sat failures createSocket (Returning fun _ s v => Told wantsError v.failed s) s v := by
  have htold₁ : Told wantsError v.failed { s with sock := -1 } := ⟨htold.wants, htold.error⟩
  unfold createSocket
  rw [sat_bind, sat_modify, andThen_returns, sat_bind, sat_get, andThen_returns, sat_bind]
  refine sat_call.mpr ⟨trivial, fun resolution _ => ?_⟩
  rw [andThen_returns]
  simp only [failures, Report.next, Report.failure, Report.refusedAfter]
  cases haddress : MPHost.addressForHostname resolution with
  | error _ => trivial
  | ok ipAdr =>
    cases ipAdr with
    | none => exact fillError_fails htold₁ fun _ htold' => htold'
    | some ipAdr =>
      dsimp only
      rw [sat_bind]
      refine sat_call.mpr ⟨trivial, fun result _ => ?_⟩
      rw [andThen_returns]
      cases result with
      | error | timeout => exact fillError_fails htold₁ fun _ htold' => htold'
      | connected descriptor => exact ⟨htold.wants, htold.error⟩

/-- The error of a failed start has the text that the library gives for it. -/
theorem startupFailed_reports (hreported : Reported wantsError session s v) (hrefused : v.refused = true)
    (hsession : session ≠ none) : Sat failures startupFailed (Returning (Reports wantsError)) s v := by
  obtain ⟨current, rfl⟩ := Option.ne_none_iff_exists'.mp hsession
  unfold startupFailed lastError
  rw [sat_bind, sat_toSession hreported.session]
  unfold MPLSSession.lastError
  rw [sat_bind]
  refine sat_call.mpr ⟨trivial, fun text _ => ?_⟩
  rw [andThen_returns]
  cases text with
  | none => trivial
  | some text =>
    rw [sat_pure, andThen_returns, sat_bind]
    refine sat_call.mpr ⟨trivial, fun _ _ => ?_⟩
    rw [andThen_returns]
    refine fillError_fails hreported.told fun s' htold' => ?_
    simpa [Reports, failures, Report.next, Report.failure, Report.refusedAfter, hrefused] using htold'

theorem manageFingerprint_reports {Q : Bool → Frame → Report → Prop} (hreported : Reported wantsError session s v)
    (haccepted : ∀ s', Reported wantsError session s' v → Q true s' v)
    (hrefused : ∀ s' v', Told wantsError v'.failed s' → Q false s' v') :
    Sat failures manageFingerprint (Returning Q) s v := by
  have hhash : Maintains failures (fun s' v' => s' = s ∧ v' = v) (MPLSSession.hostkeyHash MPLSSession.HOSTKEY_HASH_SHA1) := by
    refine maintains_bind (maintains_ignored (failures_ignores fun _ _ => rfl)) fun hash => ?_
    cases hash with
    | none => exact maintains_crash
    | some hash => exact maintains_pure _
  unfold manageFingerprint
  refine (maintains_toSession fun _ => hhash).andThen_returning ⟨rfl, rfl⟩ ?_
  rintro fingerprint s₁ v₁ ⟨rfl, rfl⟩
  rw [sat_bind, sat_get, andThen_returns]
  split
  · rw [sat_bind]
    refine sat_call.mpr ⟨trivial, fun accepted _ => ?_⟩
    rw [andThen_returns]
    cases accepted with
    | true => exact haccepted s₁ hreported
    | false =>
      apply sat_bind_returning
      refine fillError_tells hreported.told fun s₂ _ h₂ => ?_
      refine shutdown_reported.andThen_returning ⟨rfl, h₂⟩ ?_
      exact fun _ s₃ v₃ h₃ => hrefused s₃ v₃ h₃.told
  · exact haccepted s₁ hreported

section Fallback

variable {current : MPLSSession}

/-- A method that fails leaves its error, and one that succeeds leaves the last failure. -/
theorem authenticate_reports {method : MPConnectionParams → SessionMethod Int} {text : String}
    (hmethod : ∀ params s v, Sat failures (method params) (fun result s' v' => s' = s ∧ ∃ rc, result = .returns rc ∧
      v' = { v with failed := (Report.rejected text rc).or v.failed }) s v) (h : Started wantsError current s v) :
    Sat failures (authenticate method text) (Returning fun _ s v => Started wantsError current s v) s v := by
  obtain ⟨⟨hsession, htold⟩, haccepted⟩ := h
  unfold authenticate
  rw [sat_bind, sat_toSession hsession, sat_bind, sat_get, andThen_returns]
  apply (hmethod s.params s v).mono
  rintro _ s₁ _ ⟨rfl, rc, rfl, rfl⟩
  rw [andThen_returns]
  split
  · rename_i hrc
    unfold lastError
    rw [sat_bind, sat_toSession hsession]
    unfold MPLSSession.lastError
    rw [sat_bind]
    refine sat_call.mpr ⟨trivial, fun text' _ => ?_⟩
    rw [andThen_returns]
    cases text' with
    | none => trivial
    | some text' =>
      rw [sat_pure, andThen_returns]
      apply sat_bind_returning
      refine fillError_tells htold fun s₂ hsame htold' => ?_
      refine ⟨⟨hsame.trans hsession, ?_⟩, haccepted⟩
      simpa [failures, Report.next, Report.failure, Report.rejected, haccepted, hrc] using htold'
  · rename_i hrc
    rw [not_not] at hrc
    exact ⟨⟨hsession, by simpa [Report.rejected, hrc] using htold⟩, haccepted⟩

theorem key_reports (h : Started wantsError current s v) :
    Sat failures authenticateWithPublickKey (Returning fun _ s v => Started wantsError current s v) s v :=
  authenticate_reports (fun _ _ _ => sat_call.mpr ⟨trivial, fun rc _ => ⟨rfl, rc, rfl, rfl⟩⟩) h

theorem password_reports (h : Started wantsError current s v) :
    Sat failures authenticateWithPassword (Returning fun _ s v => Started wantsError current s v) s v :=
  authenticate_reports (fun _ _ _ => sat_call.mpr ⟨trivial, fun rc _ => ⟨rfl, rc, rfl, rfl⟩⟩) h

theorem keyboard_reports (h : Started wantsError current s v) :
    Sat failures authenticateWithKeyboard (Returning fun _ s v => Started wantsError current s v) s v :=
  authenticate_reports (fun _ _ _ => sat_call.mpr ⟨trivial, fun rc _ => ⟨rfl, rc, rfl, rfl⟩⟩) h

theorem Listed.started (h : Listed wantsError current s v) (hany : current.allowsAny = true) :
    Started wantsError current s v := by
  obtain ⟨hsession, haccepted, failed, htold, hfailed⟩ := h
  rw [if_pos hany] at hfailed
  exact ⟨⟨hsession, hfailed ▸ htold⟩, haccepted⟩

/-- A method is tried only when there is one, and otherwise the outcome stays as it is. -/
theorem tryMethod_reports {wanted auth : Bool} {method : SessionMethod Bool}
    {flag : Bool → MPConnectionParams → MPConnectionParams} {Q : Bool → Frame → Report → Prop}
    (hmethod : ∀ s v, Started wantsError current s v →
      Sat failures method (Returning fun _ s v => Started wantsError current s v) s v)
    (hwanted : wanted = true → current.allowsAny = true) (h : Listed wantsError current s v)
    (hpost : ∀ auth' s' v', (wanted = false → auth' = auth) → Listed wantsError current s' v' → Q auth' s' v') :
    Sat failures (tryMethod wanted auth method flag) (Returning Q) s v := by
  unfold tryMethod
  cases wanted with
  | false => exact hpost auth s v (fun _ => rfl) h
  | true =>
    have hany := hwanted rfl
    apply sat_bind_returning
    apply (hmethod s v (h.started hany)).mono
    rintro (auth' | _ | _) s₁ v₁ h₁
    · obtain ⟨⟨hsession, hwants, herror⟩, haccepted⟩ := h₁
      exact hpost auth' _ v₁ nofun ⟨hsession, haccepted, v₁.failed, ⟨hwants, herror⟩, (if_pos hany).symm⟩
    · trivial
    · trivial

theorem concludeAuthentication_reports {tryed auth : Bool} (htold : Told wantsError failed s)
    (hfailed : v.failed = if tryed then failed else some Report.untried) :
    Sat failures (concludeAuthentication tryed auth) (Returning fun _ s v => Told wantsError v.failed s) s v := by
  have hend (s₁ : Frame) (h : Told wantsError v.failed s₁) : Sat failures (if auth then return true else do
      shutdown
      return false) (Returning fun _ s v => Told wantsError v.failed s) s₁ v := by
    split
    · exact h
    · exact shutdown_reported.andThen_returning ⟨rfl, h⟩ fun _ _ _ h' => h'.told
  unfold concludeAuthentication concludeAuthentication.reportUntried
  apply sat_bind_returning
  cases tryed with
  | true => exact hend s (hfailed ▸ htold)
  | false =>
    refine fillError_tells htold fun s₁ _ htold' => hend s₁ ?_
    rw [hfailed]
    exact htold'

/-- Something has been tried exactly if there is something to try. -/
theorem allowsAny_eq {byKey byPassword : Bool} (hkey : current.allowPublickKeyAuthentication = false → byKey = false)
    (hpassword : (!byKey && current.allowPasswordAuthentication) = false → byPassword = byKey) :
    current.allowsAny = (current.allowPublickKeyAuthentication || !byKey && current.allowPasswordAuthentication ||
      !byPassword && current.allowKeyboardInteractiveAuthentication) := by
  unfold MPLSSession.allowsAny
  cases hallowed : current.allowPublickKeyAuthentication with
  | true => rfl
  | false =>
    obtain rfl := hkey hallowed
    cases hallowed' : current.allowPasswordAuthentication with
    | true => rfl
    | false =>
      rw [hallowed'] at hpassword
      obtain rfl := hpassword rfl
      simp

theorem sessionAllows_reports {allows : MPLSSession → Bool} {Q : Bool → Frame → Report → Prop}
    (hsession : s.session = some current) (hpost : Q (allows current) s v) :
    Sat failures (sessionAllows allows) (Returning Q) s v := by
  unfold sessionAllows
  exact (sat_toSession hsession).mpr hpost

/-- The three methods, and the error of a list that mentions none of them. -/
theorem authenticateWithParams_reports (h : Started wantsError { userauthlist := none } s v) :
    Sat failures authenticateWithParams (Returning fun _ s v => Told wantsError v.failed s) s v := by
  obtain ⟨⟨hsession, htold⟩, haccepted⟩ := h
  unfold authenticateWithParams userauthList
  rw [sat_bind, sat_toSession hsession, sat_bind, sat_get, andThen_returns, sat_bind]
  unfold MPLSSession.userauthListWithUser
  rw [if_pos (by rfl), sat_bind]
  refine sat_call.mpr ⟨trivial, fun list _ => ?_⟩
  cases list with
  | none => trivial
  | some ual =>
    rw [andThen_returns, sat_pure, andThen_returns, sat_modify, andThen_returns]
    have hlisted : Listed wantsError ⟨boxed (cString ual)⟩ { s with session := some ⟨boxed (cString ual)⟩ }
        (v.next (.userauthList (s.params.user.map utf8) (s.params.user.elim 0 utf16Length)) (some ual)) := by
      refine ⟨rfl, haccepted, v.failed, ⟨htold.wants, htold.error⟩, ?_⟩
      simp only [Report.next, Report.failure]
      split
      · rfl
      · rfl
    apply sat_bind_returning
    apply sessionAllows_reports hlisted.current
    apply sat_bind_returning
    refine tryMethod_reports (fun _ _ => key_reports) (by simp +contextual [MPLSSession.allowsAny]) hlisted ?_
    intro byKey s₁ v₁ hkey h₁
    apply sat_bind_returning
    apply sessionAllows_reports h₁.current
    apply sat_bind_returning
    refine tryMethod_reports (fun _ _ => password_reports) (by simp +contextual [MPLSSession.allowsAny]) h₁ ?_
    intro byPassword s₂ v₂ hpassword h₂
    apply sat_bind_returning
    apply sessionAllows_reports h₂.current
    apply sat_bind_returning
    refine tryMethod_reports (fun _ _ => keyboard_reports) (by simp +contextual [MPLSSession.allowsAny]) h₂ ?_
    rintro byKeyboard s₃ v₃ - ⟨-, -, failed, htold₃, hfailed₃⟩
    apply concludeAuthentication_reports htold₃
    rw [hfailed₃, allowsAny_eq hkey hpassword]

end Fallback

theorem requestRetry_reports (htold : Told wantsError v.failed s) :
    Sat failures requestRetry (Returning (Reports wantsError)) s v := by
  unfold requestRetry
  rw [sat_bind, sat_get, andThen_returns]
  split
  · rw [sat_bind]
    refine sat_call.mpr ⟨trivial, fun answer _ => ?_⟩
    rw [andThen_returns]
    cases answer with
    | none => exact htold
    | some pwd =>
      refine shutdown_reported.andThen_returning ⟨rfl, htold⟩ ?_
      exact fun _ _ _ h => ⟨h.told.wants, h.told.error⟩
  · exact htold

theorem didChangeState_ignored {state : MPSshSessionState} : Ignores failures (.didChangeState state) :=
  failures_ignores fun _ _ => rfl

theorem established_reports (h : Started wantsError { userauthlist := none } s v) :
    Sat failures established (Returning (Reports wantsError)) s v := by
  unfold established
  rw [sat_bind]
  refine notify_sat didChangeState_ignored ?_
  rw [andThen_returns]
  apply sat_bind_returning
  refine manageFingerprint_reports h.reported ?_ fun _ _ htold => htold
  intro s₁ h₁
  apply sat_bind_returning
  apply (authenticateWithParams_reports ⟨h₁, h.accepted⟩).mono
  rintro (auth | _ | _) s₂ v₂ h₂
  · cases auth with
    | true => exact h₂
    | false => exact requestRetry_reports h₂
  · trivial
  · trivial

theorem openSession_reports (htold : Told wantsError v.failed s) :
    Sat failures openSession (Returning (Reports wantsError)) s v := by
  unfold openSession
  rw [sat_bind]
  refine notify_sat didChangeState_ignored ?_
  rw [andThen_returns]
  unfold MPLSSession.init
  rw [sat_bind, sat_bind, sat_call]
  refine ⟨trivial, fun handle _ => ?_⟩
  rw [andThen_returns, sat_pure, andThen_returns, sat_bind, sat_modify, andThen_returns, sat_bind, sat_call]
  refine ⟨trivial, fun _ _ => ?_⟩
  rw [andThen_returns, sat_bind, sat_get, andThen_returns, sat_bind]
  refine sat_call.mpr ⟨trivial, fun rc _ => ?_⟩
  rw [andThen_returns]
  split
  · rename_i hrc
    exact startupFailed_reports ⟨rfl, htold.wants, htold.error⟩ (decide_eq_true hrc) nofun
  · rename_i hrc
    exact established_reports ⟨⟨rfl, htold.wants, htold.error⟩, decide_eq_false hrc⟩

theorem iteration_reports (htold : Told wantsError v.failed s) :
    Sat failures iteration (Returning (Reports wantsError)) s v := by
  have hattempt : Sat failures attempt (Returning (Reports wantsError)) s v := by
    unfold attempt
    rw [sat_bind]
    refine sat_call.mpr ⟨trivial, fun _ _ => ?_⟩
    rw [andThen_returns]
    apply sat_bind_returning
    apply (createSocket_reports htold).mono
    rintro (connected | _ | _) s₁ v₁ h₁
    · cases connected with
      | true => exact openSession_reports h₁
      | false => exact h₁
    · trivial
    · trivial
  unfold iteration
  apply sat_bind_returning
  apply hattempt.mono
  rintro (result | _ | _) s₁ v₁ h₁
  · cases result with
    | retry | failed => exact h₁
    | succeeded =>
      have hauthenticated : Maintains failures (Reports wantsError .succeeded) authenticated := by
        unfold authenticated
        apply maintains_bind (notify_maintains didChangeState_ignored)
        intro _
        apply maintains_bind (maintains_modify fun _ _ h => ⟨h.wants, h.error⟩)
        exact fun _ => maintains_ignored (failures_ignores fun _ _ => rfl)
      exact hauthenticated.andThen_returning h₁ fun _ _ _ h₂ => h₂
  · trivial
  · trivial

end Attempt

namespace Phase

/-- The rest of an attempt leaves the caller with the last failure. -/
def Reporting (wantsError : Bool) (v : Report) : Phase → Prop
  | .connecting rest => rest.Sat failures (fun result v => Returning (Reports wantsError) result.1 result.2 v) v
  | .idle _ _ | .crashed => True
  | .shuttingDown _ => False

theorem ofConnect_reporting {wantsError : Bool} {v : Report} {rest : Body AttemptResult}
    (hrest : rest.Sat failures (fun result v => Returning (Reports wantsError) result.1 result.2 v) v) :
    (Phase.ofConnect rest).Reporting wantsError v := by
  cases rest with
  | act c next => exact hrest
  | done result =>
    obtain ⟨result, s⟩ := result
    cases result with
    | raised | crashed => trivial
    | returns result =>
      cases result with
      | retry => exact iteration_reports hrest
      | failed | succeeded => trivial

/-- How an attempt ends with this answer, and the error that the caller has by then. -/
def attemptEnd (answer : (c : SessionCall) → c.Reply) : Phase → Option (AttemptResult × Option NSError)
  | .connecting (.act c next) =>
    match next (answer c) with
    | .done (.returns result, s) => some (result, s.error)
    | _ => none
  | _ => none

/-- An answer that ends an attempt leaves the caller with the last failure. -/
theorem Reporting.attemptEnd {wantsError : Bool} {v : Report} {phase : Phase} (h : phase.Reporting wantsError v)
    {answer : (c : SessionCall) → c.Reply} {result : AttemptResult} {error : Option NSError}
    (hends : phase.attemptEnd answer = some (result, error)) : ∃ c, phase.nextCall = some c ∧
      error = if wantsError then (v.next c (answer c)).failed else none := by
  unfold Phase.attemptEnd at hends
  split at hends
  · rename_i c next
    have hnext := h.2 (answer c) trivial
    split at hends
    · rename_i result' s hdone
      obtain ⟨rfl, rfl⟩ : result' = result ∧ s.error = error := by simpa using hends
      rw [hdone] at hnext
      exact ⟨c, rfl, hnext.error⟩
    · cases hends
  · cases hends

end Phase

namespace Process

variable {ι : Type} [DecidableEq ι] {s t u : Process ι} {a : ι} {wantsError : Bool}

/-- A call that is under way leaves the caller with the last failure since a state in its run. -/
def Telling (wantsError : Bool) (a : ι) (s t : Process ι) : Prop :=
  ∃ entries, t.logOf a = s.logOf a ++ entries ∧ (t.objects a).Reporting wantsError (observe failures .start entries)

theorem step_telling {e : ι × SessionEvent} (htelling : Telling wantsError a s t) (hcontinues : Continues a e)
    (hstep : step t e = some u) : Telling wantsError a s u := by
  obtain ⟨entries, hlog, hreporting⟩ := htelling
  by_cases hself : e.1 = a
  · obtain ⟨answer, hreply⟩ := hcontinues hself
    obtain ⟨b, event⟩ := e
    obtain rfl : b = a := hself
    obtain rfl : event = .reply answer := hreply
    cases step_moves hstep with
    | @connecting c next _ hphase =>
      rw [hphase] at hreporting
      refine ⟨entries ++ [⟨c, answer c, if c.usesSession then some t.session else none⟩], ?_, ?_⟩
      · rw [logOf_record_self, hlog, List.append_assoc]
      · rw [observe_concat]
        simp only [record, Function.update_self]
        exact Phase.ofConnect_reporting (hreporting.2 (answer c) trivial)
    | shuttingDown _ hphase =>
      rw [hphase] at hreporting
      exact hreporting.elim
  · obtain ⟨hobject, hsame⟩ := step_of_ne hself hstep
    exact ⟨entries, hsame.trans hlog, hobject ▸ hreporting⟩

theorem run_telling {params : MPConnectionParams} {es : List (ι × SessionEvent)} (hcontinues : ∀ e ∈ es, Continues a e)
    (hrun : run step s ((a, .connectUsingParams params wantsError) :: es) = some t) : Telling wantsError a s t := by
  obtain ⟨mid, hstep, hrest⟩ := Option.bind_eq_some_iff.mp hrun
  refine run_preserves_of (Telling wantsError a s) ?_ hcontinues ?_ hrest
  · exact fun _ _ _ htelling hevent hstep => step_telling htelling hevent hstep
  · cases step_moves hstep with
    | connect =>
      refine ⟨[], (List.append_nil _).symm, ?_⟩
      simp only [Function.update_self, Phase.connect]
      split
      · trivial
      · exact iteration_reports ⟨rfl, by simp [observe, Report.start]⟩

/-- For every call of `connectUsingParams:error:`, with any answers of the library and of
the delegate, any number of attempts and whatever other objects do meanwhile: when an
attempt ends, so also when the call returns NO or YES, the caller that wants an error has
been given that of the step that has failed last in the whole call, and none if no step
has failed. -/
theorem connect_reports {params : MPConnectionParams} {es : List (ι × SessionEvent)}
    {answer : (c : SessionCall) → c.Reply} {result : AttemptResult} {error : Option NSError}
    (hcontinues : ∀ e ∈ es, Continues a e)
    (hrun : run step s ((a, .connectUsingParams params wantsError) :: es) = some t)
    (hends : (t.objects a).attemptEnd answer = some (result, error)) :
    ∃ c entries, (t.objects a).nextCall = some c ∧ t.logOf a = s.logOf a ++ entries ∧
      error = if wantsError then ((observe failures .start entries).next c (answer c)).failed else none := by
  obtain ⟨entries, hlog, hreporting⟩ := run_telling hcontinues hrun
  obtain ⟨c, hnext, herror⟩ := hreporting.attemptEnd hends
  exact ⟨c, entries, hnext, hlog, herror⟩

/-- The call returns YES, and leaves the error of the password that was rejected first. -/
theorem connect_reports_insisting :
    ∃ t c entries, run step (start fun _ => fullDelegate) (calls portless insisting 33) = some t ∧
      (t.objects ()).nextCall = some c ∧ t.logOf () = entries ∧
      (some { code := ERROR_AUTH_FAILED, localizedDescription := "Authentication by password failed" } : Option NSError) =
        ((observe failures .start entries).next c (insisting c)).failed := by
  have hended : (run step (start fun _ => fullDelegate) (calls portless insisting 33)).map
      (fun t => (t.objects ()).attemptEnd insisting) = some (some (.succeeded,
        some { code := ERROR_AUTH_FAILED, localizedDescription := "Authentication by password failed" })) := by
    decide +kernel
  obtain ⟨t, hrun, hends⟩ := Option.map_eq_some_iff.mp hended
  obtain ⟨c, entries, hnext, hlog, herror⟩ :=
    connect_reports (by simp [Continues]) hrun hends
  exact ⟨t, c, entries, hrun, hnext, hlog, herror⟩

end Process

end MPSshSession

end MPSsh

import MPSsh.Session.Language

namespace MPSsh.MPSshSession

open Interaction Method Schedule

/-- What an attempt has been told so far, and the password that the call was given last. -/
structure Basis where
  resolution : Option MPHost.Resolution
  socket : Option Nat
  hash : Option HostkeyHash
  password : String

namespace Basis

/-- No attempt has begun, and the password is that of the parameters. -/
def start (params : MPConnectionParams) : Basis where
  resolution := none
  socket := none
  hash := none
  password := params.password.getD ""

def next (v : Basis) : (c : SessionCall) → c.Reply → Basis
  | .attempt, _ => { v with resolution := none, socket := none, hash := none }
  | .resolve _, resolution => { v with resolution := some resolution }
  | .connectSocket _, .connected descriptor => { v with socket := some descriptor }
  | .hostkeyHash _, hash => { v with hash }
  | .requestPassword, some pwd => { v with password := pwd }
  | _, _ => v

end Basis

/-- A request carries what the caller has given, what the same attempt has been told,
and the password given last. The public key file is never passed on. -/
def Carries (params : MPConnectionParams) (v : Basis) : SessionCall → Prop
  | .resolve hostname => hostname = params.ip
  | .connectSocket address => ∃ resolution ipAdr, v.resolution = some resolution ∧
      MPHost.addressForHostname resolution = .ok (some ipAdr) ∧
      address = { sin_port := htons (if params.port = 0 then 22 else params.port), sin_addr := inet_addr ipAdr }
  | .startup sock | .close sock => ∃ descriptor : Nat, v.socket = some descriptor ∧ sock = descriptor
  | .hostkeyHash type => type = MPLSSession.HOSTKEY_HASH_SHA1
  | .fingerprint text => ∃ hash, v.hash = some hash ∧ text = some (MPLSSession.fingerprintText hash)
  | .userauthList username length =>
    username = some (utf8 (params.user.getD "")) ∧ length = utf16Length (params.user.getD "")
  | .userauthPublickeyFromfile username publickey privatekey passphrase =>
    username = some (utf8 (params.user.getD "")) ∧ publickey = none ∧
      privatekey = some (utf8 (params.rsa.getD "")) ∧ passphrase = params.passphrase.map utf8
  | .userauthPassword username password =>
    username = some (utf8 (params.user.getD "")) ∧ password = some (utf8 v.password)
  | .userauthKeyboardInteractive username ppwwdd =>
    username = some (utf8 (params.user.getD "")) ∧ ppwwdd = some v.password
  | _ => True

def requests (params : MPConnectionParams) : Monitor SessionCall SessionCall.Reply Basis where
  allows := Carries params
  expects _ _ _ := True
  next := Basis.next

/-- The parameters are those of the call but for the flags and the password. -/
def Kept (params : MPConnectionParams) (given : String) (s : Frame) : Prop :=
  ∃ requestPassword requestPassphrase,
    s.params = { defaults params with password := some given, requestPassword, requestPassphrase }

/-- The loop between two attempts. -/
structure Given (params : MPConnectionParams) (s : Frame) (v : Basis) : Prop where
  params : Kept params v.password s

/-- An attempt on a socket. The parameters have one password, and the call was given one
last. -/
structure Holding (params : MPConnectionParams) (given latest : String) (s : Frame) (v : Basis) : Prop where
  params : Kept params given s
  password : v.password = latest
  socket : ∃ descriptor : Nat, v.socket = some descriptor ∧ s.sock = descriptor

section Attempt

variable {params : MPConnectionParams} {given latest : String} {s s' : Frame} {v : Basis}

theorem requests_ignores {c : SessionCall} (hc : c = .trace ∨ c = .lastError ∨ c = .shutdown ∨ c = .sessionInit ∨
    (∃ b, c = .setBlocking b) ∨ (∃ state, c = .didChangeState state) ∨ (∃ text, c = .disconnect text) ∨
      ∃ format, c = .NSLog format) : Ignores (requests params) c := by
  obtain rfl | rfl | rfl | rfl | ⟨b, rfl⟩ | ⟨state, rfl⟩ | ⟨text, rfl⟩ | ⟨format, rfl⟩ := hc <;>
    exact ⟨fun _ => trivial, fun _ _ => rfl⟩

theorem Holding.of_frame (h : Holding params given latest s v) (hparams : s'.params = s.params) (hsock : s'.sock = s.sock) :
    Holding params given latest s' v := by
  obtain ⟨hkept, hpassword, hsocket⟩ := h
  refine ⟨?_, hpassword, ?_⟩
  · rwa [Kept, hparams]
  · rwa [hsock]

/-- Another password leaves the rest of the parameters as they are. -/
theorem Kept.answered (hkept : Kept params given s) (pwd : String) :
    Kept params pwd { s with params := { s.params with password := some pwd } } := by
  obtain ⟨requestPassword, requestPassphrase, hparams⟩ := hkept
  refine ⟨requestPassword, requestPassphrase, ?_⟩
  simp only [hparams]

theorem fillError_requests {code : Int} {msg : String} :
    Maintains (requests params) (Holding params given latest) (fillError code msg) :=
  fun _ _ h => fillError_sat fun _ hagrees => h.of_frame hagrees.params hagrees.sock

theorem lastError_requests : Maintains (requests params) (Holding params given latest) lastError :=
  fun _ _ h => lastError_sat (requests_ignores (by simp)) (fun _ => h) h

theorem shutdown_requests : Maintains (requests params) (Holding params given latest) shutdown := by
  unfold shutdown disconnect closeSocket
  apply maintains_bind (maintains_ignored (requests_ignores (by simp)))
  intro _
  apply maintains_bind
  · exact maintains_toSession fun _ => maintains_ignored (requests_ignores (by simp))
  intro _
  apply maintains_bind
  · intro s v h
    rw [sat_bind, sat_get, andThen_returns]
    split
    · exact sat_call.mpr ⟨h.socket, fun _ _ => h⟩
    · exact h
  · exact fun _ => maintains_modify fun _ _ h => h.of_frame rfl rfl

/-- The socket is connected to the address that the host name has been resolved to. -/
theorem createSocket_requests {Q : Bool → Frame → Basis → Prop} (hgiven : Given params s v)
    (hcreated : ∀ s' v', Holding params v.password v.password s' v' → Q true s' v')
    (hfailed : ∀ s' v', Q false s' v') : Sat (requests params) createSocket (Returning Q) s v := by
  obtain ⟨hkept⟩ := hgiven
  obtain ⟨requestPassword, requestPassphrase, hparams⟩ := hkept
  unfold createSocket
  rw [sat_bind, sat_modify, andThen_returns, sat_bind, sat_get, andThen_returns, sat_bind]
  refine sat_call.mpr ⟨by rw [hparams]; rfl, fun resolution _ => ?_⟩
  have hfill (msg : String) (v' : Basis) : Sat (requests params) (do
      fillError 100 msg
      return false) (Returning Q) { s with sock := -1 } v' := by
    rw [sat_bind]
    exact fillError_sat fun s' _ => hfailed s' v'
  rw [andThen_returns]
  split
  · trivial
  · exact hfill "unable to resolve address" _
  · rename_i ipAdr haddress
    rw [sat_bind]
    refine sat_call.mpr ⟨⟨resolution, ipAdr, rfl, haddress, by rw [hparams]; rfl⟩, fun result _ => ?_⟩
    rw [andThen_returns]
    cases result with
    | error => exact hfill "failed to connect" _
    | timeout => exact hfill "connection timeout" _
    | connected descriptor =>
      exact hcreated _ _ ⟨⟨requestPassword, requestPassphrase, hparams⟩, rfl, descriptor, rfl, rfl⟩

/-- The delegate is shown the hash that the library has just returned. -/
theorem manageFingerprint_requests {Q : Bool → Frame → Basis → Prop} {session : MPLSSession}
    (h : Holding params given latest s v) (hsession : s.session = some session)
    (haccepted : ∀ v', Holding params given latest s v' → Q true s v') (hrefused : ∀ s' v', Q false s' v') :
    Sat (requests params) manageFingerprint (Returning Q) s v := by
  unfold manageFingerprint
  rw [sat_bind, sat_toSession hsession]
  unfold MPLSSession.hostkeyHash
  rw [sat_bind]
  refine sat_call.mpr ⟨rfl, fun hash _ => ?_⟩
  cases hash with
  | none => trivial
  | some hash =>
    have hholding : Holding params given latest s { v with hash := some hash } := ⟨h.params, h.password, h.socket⟩
    rw [andThen_returns, sat_pure, andThen_returns, sat_bind, sat_get, andThen_returns]
    split
    · rw [sat_bind]
      refine sat_call.mpr ⟨⟨hash, rfl, rfl⟩, fun accepted _ => ?_⟩
      rw [andThen_returns]
      cases accepted with
      | true => exact haccepted _ hholding
      | false =>
        refine fillError_requests.andThen_returning hholding ?_
        intro _ s₁ v₁ h₁
        refine shutdown_requests.andThen_returning h₁ ?_
        exact fun _ s₂ v₂ _ => hrefused s₂ v₂
    · exact haccepted _ hholding

theorem userauthList_requests : Maintains (requests params) (Holding params given latest) userauthList := by
  unfold userauthList
  refine maintains_toSession fun session s v h => ?_
  obtain ⟨requestPassword, requestPassphrase, hparams⟩ := h.params
  rw [sat_bind, sat_get, andThen_returns, sat_bind]
  unfold MPLSSession.userauthListWithUser
  split
  · rw [sat_bind]
    refine sat_call.mpr ⟨by rw [hparams]; exact ⟨rfl, rfl⟩, fun ual _ => ?_⟩
    cases ual with
    | none => exact h
    | some ual => exact h.of_frame rfl rfl
  · exact h.of_frame rfl rfl

theorem authenticate_requests {method : MPConnectionParams → SessionMethod Int} {failure : String}
    (hmethod : ∀ s v, Holding params given latest s v →
      Sat (requests params) (method s.params) (fun _ s v => Holding params given latest s v) s v) :
    Maintains (requests params) (Holding params given latest) (authenticate method failure) := by
  unfold authenticate
  apply maintains_bind
  · refine maintains_toSession fun _ s v h => ?_
    rw [sat_bind, sat_get, andThen_returns]
    exact hmethod s v h
  · intro rc
    refine maintains_ite ?_ (maintains_pure true)
    apply maintains_bind lastError_requests
    exact fun _ => maintains_bind fillError_requests fun _ => maintains_pure false

theorem concludeAuthentication_requests {tryed auth : Bool} :
    Maintains (requests params) (Holding params given latest) (concludeAuthentication tryed auth) := by
  unfold concludeAuthentication concludeAuthentication.reportUntried
  apply maintains_bind
  · exact maintains_ite (maintains_pure _) fillError_requests
  · intro _
    apply maintains_ite (maintains_pure true)
    exact maintains_bind shutdown_requests fun _ => maintains_pure false

/-- The three methods send the user name, and what the parameters have for them. -/
theorem authenticateWithParams_requests :
    Maintains (requests params) (Holding params latest latest) authenticateWithParams := by
  refine fallback_maintains userauthList_requests ?_ ?_ ?_ ?_ fun _ _ => concludeAuthentication_requests
  · refine authenticate_requests fun s v h => sat_call.mpr ⟨?_, fun _ _ => h⟩
    obtain ⟨requestPassword, requestPassphrase, hparams⟩ := h.params
    rw [hparams]
    exact ⟨rfl, rfl, rfl, rfl⟩
  · refine authenticate_requests fun s v h => sat_call.mpr ⟨?_, fun _ _ => h⟩
    obtain ⟨requestPassword, requestPassphrase, hparams⟩ := h.params
    rw [hparams]
    exact ⟨rfl, by rw [h.password]; rfl⟩
  · refine authenticate_requests fun s v h => sat_call.mpr ⟨?_, fun _ _ => h⟩
    obtain ⟨requestPassword, requestPassphrase, hparams⟩ := h.params
    rw [hparams]
    exact ⟨rfl, by rw [h.password]⟩
  · rintro s v requestPassword requestPassphrase ⟨⟨_, _, hparams⟩, hpassword, hsocket⟩
    exact ⟨⟨requestPassword, requestPassphrase, by rw [hparams]⟩, hpassword, hsocket⟩

/-- The delegate's answer is the password of the next attempt. -/
theorem requestRetry_requests (h : Holding params latest latest s v) :
    Sat (requests params) requestRetry (Returning (LoopPost (Given params) fun _ _ => True)) s v := by
  unfold requestRetry
  rw [sat_bind, sat_get, andThen_returns]
  split
  · rw [sat_bind]
    refine sat_call.mpr ⟨trivial, fun answer _ => ?_⟩
    rw [andThen_returns]
    cases answer with
    | none => trivial
    | some pwd =>
      have hanswered : Holding params latest pwd s { v with password := pwd } := ⟨h.params, rfl, h.socket⟩
      refine shutdown_requests.andThen_returning hanswered ?_
      rintro - s₁ v₁ ⟨hkept, rfl, -⟩
      exact ⟨hkept.answered v₁.password⟩
  · trivial

theorem startupFailed_requests (h : Holding params given latest s v) :
    Sat (requests params) startupFailed (Returning (LoopPost (Given params) fun _ _ => True)) s v := by
  unfold startupFailed
  refine lastError_requests.andThen_returning h ?_
  intro text s₁ v₁ h₁
  refine (maintains_ignored (requests_ignores (by simp))).andThen_returning h₁ ?_
  intro _ s₂ v₂ h₂
  refine fillError_requests.andThen_returning h₂ ?_
  exact fun _ _ _ _ => trivial

theorem openSession_requests (h : Holding params latest latest s v) :
    Sat (requests params) openSession (Returning (LoopPost (Given params) fun _ _ => True)) s v := by
  unfold openSession established
  refine (notify_maintains (requests_ignores (by simp))).andThen_returning h ?_
  intro _ s₁ v₁ h₁
  unfold MPLSSession.init
  rw [sat_bind, sat_bind, sat_call]
  refine ⟨trivial, fun handle _ => ?_⟩
  rw [andThen_returns, sat_pure, andThen_returns, sat_bind, sat_modify, andThen_returns, sat_bind, sat_call]
  refine ⟨trivial, fun _ _ => ?_⟩
  rw [andThen_returns, sat_bind, sat_get, andThen_returns, sat_bind]
  refine sat_call.mpr ⟨h₁.socket, fun rc _ => ?_⟩
  rw [andThen_returns]
  have hstarted : Holding params latest latest { s₁ with session := some { userauthlist := none } } v₁ :=
    h₁.of_frame rfl rfl
  split
  · exact startupFailed_requests hstarted
  · rw [sat_bind]
    refine notify_sat (requests_ignores (by simp)) ?_
    rw [andThen_returns]
    apply sat_bind_returning
    refine manageFingerprint_requests hstarted rfl ?_ fun _ _ => trivial
    intro v₂ h₂
    refine authenticateWithParams_requests.andThen_returning h₂ ?_
    intro auth s₃ v₃ h₃
    cases auth with
    | true => trivial
    | false => exact requestRetry_requests h₃

theorem iteration_requests (hgiven : Given params s v) :
    Sat (requests params) iteration (Returning (LoopPost (Given params) fun _ _ => True)) s v := by
  have hattempt : Sat (requests params) attempt (Returning (LoopPost (Given params) fun _ _ => True)) s v := by
    unfold attempt
    rw [sat_bind]
    refine sat_call.mpr ⟨trivial, fun _ _ => ?_⟩
    rw [andThen_returns]
    apply sat_bind_returning
    refine createSocket_requests ⟨hgiven.params⟩ ?_ fun _ _ => trivial
    exact fun s₁ v₁ h₁ => openSession_requests h₁
  unfold iteration
  apply sat_bind_returning
  apply hattempt.mono
  rintro (result | _ | _) s₁ v₁ h₁
  · cases result with
    | retry | failed => exact h₁
    | succeeded =>
      have hauthenticated : Maintains (requests params) (fun _ _ => True) authenticated := by
        unfold authenticated
        apply maintains_bind (notify_maintains (requests_ignores (by simp)))
        intro _
        apply maintains_bind (maintains_modify fun _ _ _ => trivial)
        exact fun _ => maintains_ignored (requests_ignores (by simp))
      exact hauthenticated.andThen_returning trivial fun _ _ _ _ => trivial
  · trivial
  · trivial

end Attempt

namespace Process

variable {ι : Type} [DecidableEq ι]

/-- For every call of `connectUsingParams:error:` with a parameters object that no other
call uses meanwhile, with any answers of the library and of the delegate and any number
of attempts: each call that the object makes next carries the parameters of the call,
what the same attempt has been told, and of all passwords the one given last. For the
keyboard-interactive method that is the password it is given, which the callback answers
if no other object stores its own in `ppwwdd` during the exchange. -/
theorem connect_requests {s t : Process ι} {a : ι} {object : MPSshSession} {returned : Option Return}
    {params : MPConnectionParams} {wantsError : Bool} {es : List (ι × SessionEvent)} {c : SessionCall}
    (hidle : s.objects a = .idle object returned) (hcontinues : ∀ e ∈ es, Continues a e)
    (hrun : run step s ((a, .connectUsingParams params wantsError) :: es) = some t)
    (hnext : (t.objects a).nextCall = some c) :
    ∃ entries, t.logOf a = s.logOf a ++ entries ∧ Carries params (observe (requests params) (.start params) entries) c := by
  have hseen : Seen (requests params) (Given params) (fun _ _ => True) (fun _ => True) a (.start params) s t :=
    run_connect (fun _ _ h => iteration_requests h) (fun _ _ _ => trivial) (fun _ _ _ _ _ => trivial) hidle hcontinues hrun
      (fun _ => trivial) (fun _ => ⟨⟨_, _, rfl⟩⟩) trivial
  obtain ⟨entries, hlog, hfollows, -⟩ := hseen
  refine ⟨entries, hlog, ?_⟩
  cases hphase : t.objects a with
  | connecting rest =>
    rw [hphase] at hfollows hnext
    cases rest with
    | done result => cases hnext
    | act c' next =>
      obtain rfl := Option.some.inj hnext
      exact hfollows.1
  | shuttingDown rest =>
    rw [hphase] at hfollows
    exact hfollows.elim
  | idle | crashed =>
    rw [hphase] at hnext
    cases hnext

/-- Parameters without a port and without keys. -/
def portless : MPConnectionParams :=
  ⟨some "host", 0, some "user", some "secret", none, none, none, false, false⟩

theorem connect_requests_insisting :
    ∃ t entries, run step (start fun _ => fullDelegate) (calls portless insisting 31) = some t ∧ t.logOf () = entries ∧
      Carries portless (observe (requests portless) (.start portless) entries)
        (.userauthPassword (some (utf8 "user")) (some (utf8 "other"))) := by
  have hnext : (run step (start fun _ => fullDelegate) (calls portless insisting 31)).map (fun t => (t.objects ()).nextCall) =
      some (some (.userauthPassword (some (utf8 "user")) (some (utf8 "other")))) := by
    decide +kernel
  obtain ⟨t, hrun, hcall⟩ := Option.map_eq_some_iff.mp hnext
  obtain ⟨entries, hlog, hcarries⟩ :=
    connect_requests (s := start fun _ => fullDelegate) rfl (by simp [Continues]) hrun hcall
  exact ⟨t, entries, hrun, hlog, hcarries⟩

end Process

end MPSsh.MPSshSession

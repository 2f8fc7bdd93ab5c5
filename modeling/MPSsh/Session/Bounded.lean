import MPSsh.Base.Budget
import MPSsh.Session.Requests

namespace MPSsh.MPSshSession

open Interaction Method Schedule Budget

/-- The calls that an attempt is granted, the marks of the attempt and of the shutdowns
included. -/
def attemptCalls : Nat := 24

/-- A password that the delegate gives is worth another attempt. -/
def worth : (c : SessionCall) → c.Reply → Nat
  | .requestPassword, some _ => attemptCalls
  | _, _ => 0

abbrev expenses : Monitor SessionCall SessionCall.Reply Account := account worth

section Attempt

variable {s : Frame} {v : Account} {n : Nat}

theorem call_spends (c : SessionCall) : Spends worth 1 (call c) := spends_perform c

theorem toSession_spends {α : Type} {absent : α} {message : MPLSSession → SessionMethod α} {k : Nat}
    (hmessage : ∀ session, Spends worth k (message session)) : Spends worth k (toSession absent message) := by
  unfold toSession
  refine (spends_bind (j := k) spends_get fun s => ?_).mono (Nat.zero_add k).le
  cases s.session with
  | none => exact (spends_pure absent).mono (Nat.zero_le k)
  | some session => exact hmessage session

theorem fillError_spends (code : Int) (msg : String) : Spends worth 0 (fillError code msg) := spends_modify _

theorem lastError_spends : Spends worth 1 lastError := by
  refine toSession_spends fun _ => spends_bind (j := 0) (call_spends _) fun text => ?_
  cases text with
  | none => exact spends_raise
  | some text => exact spends_pure _

theorem notify_spends (state : MPSshSessionState) : Spends worth 1 (notify state) :=
  spends_bind (j := 1) spends_get fun _ => spends_ite (call_spends _) ((spends_pure _).mono (Nat.zero_le 1))

theorem shutdown_spends : Spends worth 3 shutdown := by
  unfold shutdown disconnect closeSocket
  refine spends_bind (j := 2) (call_spends _) fun _ => ?_
  refine spends_bind (j := 1) (toSession_spends fun _ => call_spends _) fun _ => ?_
  refine spends_bind (j := 0) ?_ fun _ => spends_modify _
  refine spends_bind (i := 0) (j := 1) spends_get fun s => ?_
  exact spends_ite (call_spends _) ((spends_pure _).mono (Nat.zero_le 1))

theorem createSocket_spends : Spends worth 2 createSocket := by
  have hfill (msg : String) : Spends worth 0 (do
      fillError 100 msg
      return false) :=
    spends_bind (fillError_spends 100 msg) fun _ => spends_pure false
  unfold createSocket
  refine spends_bind (i := 0) (j := 2) (spends_modify _) fun _ => ?_
  refine spends_bind (i := 0) (j := 2) spends_get fun s => ?_
  refine spends_bind (i := 1) (j := 1) (call_spends _) fun resolution => ?_
  split
  · exact spends_raise.mono (Nat.zero_le 1)
  · exact (hfill "unable to resolve address").mono (Nat.zero_le 1)
  · refine spends_bind (i := 1) (j := 0) (call_spends _) fun result => ?_
    cases result with
    | error => exact hfill "failed to connect"
    | timeout => exact hfill "connection timeout"
    | connected descriptor => exact spends_bind (spends_modify _) fun _ => spends_pure true

theorem hostkeyHash_spends (type : Int) : Spends worth 1 (MPLSSession.hostkeyHash type) := by
  refine spends_bind (j := 0) (call_spends _) fun hash => ?_
  cases hash with
  | none => exact spends_crash
  | some hash => exact spends_pure _

/-- The key that is not accepted costs a shutdown. -/
theorem manageFingerprint_spends (hleft : v.Left (5 + n)) :
    Sat expenses manageFingerprint (Returning fun accepted _ v => v.Left (if accepted then 3 + n else n)) s v := by
  unfold manageFingerprint
  refine (toSession_spends fun _ => hostkeyHash_spends _).andThen (n := 4 + n) (hleft.mono (by omega)) ?_
  intro fingerprint s₁ v₁ h₁
  rw [sat_bind, sat_get, andThen_returns]
  split
  · refine (call_spends _).andThen (n := 3 + n) (h₁.mono (by omega)) ?_
    intro accepted s₂ v₂ h₂
    cases accepted with
    | true => exact h₂
    | false =>
      refine (fillError_spends _ _).andThen (n := 3 + n) (h₂.mono (by omega)) ?_
      intro _ s₃ v₃ h₃
      refine shutdown_spends.andThen h₃ ?_
      exact fun _ _ _ h₄ => h₄
  · exact Account.Left.mono (k := 3 + n) h₁ (by omega)

theorem authenticate_spends {method : MPConnectionParams → SessionMethod Int} {failure : String}
    (hmethod : ∀ params, Spends worth 1 (method params)) : Spends worth 2 (authenticate method failure) := by
  unfold authenticate
  refine spends_bind (j := 1) (toSession_spends fun _ => spends_bind (i := 0) (j := 1) spends_get fun s => hmethod _) ?_
  intro rc
  refine spends_ite ?_ ((spends_pure true).mono (Nat.zero_le 1))
  refine spends_bind (j := 0) lastError_spends fun _ => ?_
  exact spends_bind (fillError_spends _ _) fun _ => spends_pure false

theorem userauthList_spends : Spends worth 1 userauthList := by
  refine toSession_spends fun session => spends_bind (i := 0) (j := 1) spends_get fun s => ?_
  refine spends_bind (i := 1) (j := 0) ?_ fun _ => spends_modify _
  unfold MPLSSession.userauthListWithUser
  refine spends_ite ?_ ((spends_pure session).mono (Nat.zero_le 1))
  refine spends_bind (j := 0) (call_spends _) fun ual => ?_
  cases ual with
  | none => exact spends_raise
  | some ual => exact spends_pure _

theorem tryMethod_spends {wanted auth : Bool} {method : SessionMethod Bool}
    {flag : Bool → MPConnectionParams → MPConnectionParams} (hmethod : Spends worth 2 method) :
    Spends worth 2 (tryMethod wanted auth method flag) := by
  unfold tryMethod
  refine spends_ite ?_ ((spends_pure auth).mono (Nat.zero_le 2))
  refine spends_bind (j := 0) hmethod fun auth' => ?_
  exact spends_bind (spends_modify _) fun _ => spends_pure auth'

theorem concludeAuthentication_spends (tryed auth : Bool) : Spends worth 3 (concludeAuthentication tryed auth) := by
  unfold concludeAuthentication concludeAuthentication.reportUntried
  refine spends_bind (i := 0) (j := 3) (spends_ite (spends_pure _) (fillError_spends _ _)) fun _ => ?_
  refine spends_ite ((spends_pure true).mono (Nat.zero_le 3)) ?_
  exact spends_bind (j := 0) shutdown_spends fun _ => spends_pure false

theorem authenticateWithParams_spends : Spends worth 10 authenticateWithParams := by
  have hallows {allows : MPLSSession → Bool} : Spends worth 0 (sessionAllows allows) :=
    toSession_spends fun _ => spends_pure _
  unfold authenticateWithParams
  refine spends_bind (i := 1) (j := 9) userauthList_spends fun _ => ?_
  refine spends_bind (i := 0) (j := 9) hallows fun byKey => ?_
  refine spends_bind (i := 2) (j := 7) (tryMethod_spends (authenticate_spends fun _ => call_spends _)) fun auth => ?_
  refine spends_bind (i := 0) (j := 7) hallows fun byPassword => ?_
  refine spends_bind (i := 2) (j := 5) (tryMethod_spends (authenticate_spends fun _ => call_spends _)) fun auth => ?_
  refine spends_bind (i := 0) (j := 5) hallows fun byKeyboard => ?_
  refine spends_bind (i := 2) (j := 3) (tryMethod_spends (authenticate_spends fun _ => call_spends _)) fun auth => ?_
  exact concludeAuthentication_spends _ auth

/-- The calls that may follow on an attempt. -/
def following : AttemptResult → Nat
  | .retry => attemptCalls
  | .succeeded => 2
  | .failed => 0

def Supplied (result : AttemptResult) (_ : Frame) (v : Account) : Prop :=
  v.Left (following result)

theorem requestRetry_spends (hleft : v.Left 4) : Sat expenses requestRetry (Returning Supplied) s v := by
  unfold requestRetry
  rw [sat_bind, sat_get, andThen_returns]
  split
  · rw [sat_bind]
    refine sat_call.mpr ⟨hleft.mono (by omega), fun pwd _ => ?_⟩
    cases pwd with
    | none => exact Account.Left.mono (Account.left_next (n := 3) hleft _ _) (Nat.zero_le _)
    | some pwd =>
      have hgranted : Account.Left (3 + attemptCalls) (expenses.next v .requestPassword (some pwd)) :=
        Account.left_next (n := 3) hleft _ _
      refine shutdown_spends.andThen (n := attemptCalls) hgranted fun _ s₁ v₁ h₁ => ?_
      refine (spends_modify _).andThen (n := attemptCalls) (h₁.mono (by omega)) fun _ s₂ v₂ h₂ => ?_
      exact h₂
  · exact hleft.mono (Nat.zero_le 4)

theorem startupFailed_spends (hleft : v.Left 2) : Sat expenses startupFailed (Returning Supplied) s v := by
  unfold startupFailed
  refine lastError_spends.andThen (n := 1) hleft fun _ s₁ v₁ h₁ => ?_
  refine (call_spends _).andThen (n := 0) h₁ fun _ s₂ v₂ h₂ => ?_
  refine (fillError_spends _ _).andThen (n := 0) h₂ fun _ s₃ v₃ h₃ => ?_
  exact h₃

theorem established_spends (hleft : v.Left 17) : Sat expenses established (Returning Supplied) s v := by
  unfold established
  refine (notify_spends _).andThen (n := 16) hleft fun _ s₁ v₁ h₁ => ?_
  apply sat_bind_returning
  refine (manageFingerprint_spends (n := 11) h₁).mono ?_
  rintro (accepted | _ | _) s₂ v₂ h₂
  · cases accepted with
    | false => exact h₂.mono (Nat.zero_le 11)
    | true =>
      refine authenticateWithParams_spends.andThen (n := 4) h₂ ?_
      intro auth s₃ v₃ h₃
      cases auth with
      | true => exact h₃.mono (by decide)
      | false => exact requestRetry_spends h₃
  · trivial
  · trivial

theorem openSession_spends (hleft : v.Left 21) : Sat expenses openSession (Returning Supplied) s v := by
  unfold openSession
  refine (notify_spends _).andThen (n := 20) hleft fun _ s₁ v₁ h₁ => ?_
  have hinit : Spends worth 1 MPLSSession.init := spends_bind (j := 0) (call_spends _) fun _ => spends_pure _
  refine hinit.andThen (n := 19) h₁ fun session s₂ v₂ h₂ => ?_
  refine (spends_modify _).andThen (n := 19) (h₂.mono (by omega)) fun _ s₃ v₃ h₃ => ?_
  refine (call_spends _).andThen (n := 18) h₃ fun _ s₄ v₄ h₄ => ?_
  refine spends_get.andThen (n := 18) (h₄.mono (by omega)) fun s₅ s₆ v₆ h₆ => ?_
  refine (call_spends _).andThen (n := 17) h₆ fun rc s₇ v₇ h₇ => ?_
  split
  · exact startupFailed_spends (h₇.mono (by omega))
  · exact established_spends h₇

theorem attempt_spends (hleft : v.Left attemptCalls) : Sat expenses attempt (Returning Supplied) s v := by
  unfold attempt
  refine (call_spends _).andThen (n := 23) hleft fun _ s₁ v₁ h₁ => ?_
  refine createSocket_spends.andThen (n := 21) h₁ fun created s₂ v₂ h₂ => ?_
  cases created with
  | true => exact openSession_spends h₂
  | false => exact h₂.mono (Nat.zero_le 21)

theorem authenticated_spends : Spends worth 2 authenticated := by
  unfold authenticated
  refine spends_bind (j := 1) (notify_spends _) fun _ => ?_
  exact spends_bind (i := 0) (spends_modify _) fun _ => call_spends _

theorem iteration_spends (hleft : v.Left attemptCalls) :
    Sat expenses iteration (Returning (LoopPost (fun _ v => v.Left attemptCalls) fun _ _ => True)) s v := by
  unfold iteration
  apply sat_bind_returning
  apply (attempt_spends hleft).mono
  rintro (result | _ | _) s₁ v₁ h₁
  · cases result with
    | retry => exact h₁
    | failed => trivial
    | succeeded =>
      exact authenticated_spends.andThen (n := 0) h₁ fun _ _ _ _ => trivial
  · trivial
  · trivial

end Attempt

/-- The delegate has given a password. -/
def Entry.givesPassword (entry : Entry) : Bool :=
  worth entry.call entry.reply = attemptCalls

theorem observe_expenses (v : Account) (entries : List Entry) :
    observe expenses v entries =
      ⟨v.spent + entries.length, v.granted + attemptCalls * entries.countP Entry.givesPassword⟩ := by
  induction entries generalizing v with
  | nil => rfl
  | cons entry entries ih =>
    have hworth : worth entry.call entry.reply = if entry.givesPassword then attemptCalls else 0 := by
      unfold Entry.givesPassword worth
      split <;> rfl
    have hnext : observe expenses v (entry :: entries) =
        observe expenses ⟨v.spent + 1, v.granted + worth entry.call entry.reply⟩ entries := rfl
    rw [hnext, ih, hworth, List.countP_cons, List.length_cons, Nat.mul_add]
    simp only [Account.mk.injEq]
    split <;> omega

namespace Process

variable {ι : Type} [DecidableEq ι]

/-- Every answer to the object is an entry of its log. -/
theorem length_logOf {s t : Process ι} {a : ι} {es : List (ι × SessionEvent)} (hcontinues : ∀ e ∈ es, Continues a e)
    (hrun : run step s es = some t) : (t.logOf a).length = (s.logOf a).length + es.countP (·.1 = a) := by
  induction es generalizing s with
  | nil =>
    obtain rfl := Option.some.inj hrun
    rfl
  | cons e es ih =>
    obtain ⟨he, hes⟩ := List.forall_mem_cons.mp hcontinues
    obtain ⟨mid, hstep, hrest⟩ := Option.bind_eq_some_iff.mp hrun
    rw [ih hes hrest, List.countP_cons]
    by_cases hself : e.1 = a
    · obtain ⟨answer, hreply⟩ := he hself
      obtain ⟨b, event⟩ := e
      obtain rfl : b = a := hself
      obtain rfl : event = .reply answer := hreply
      cases step_moves hstep with
      | connecting | shuttingDown =>
        rw [logOf_record_self, List.length_append, List.length_singleton]
        simp only [decide_true, if_true]
        omega
    · rw [(step_of_ne hself hstep).2]
      simp [hself]

/-- Every call of `connectUsingParams:error:` comes to an end unless the delegate goes on
giving passwords: whatever the answers are and other objects do meanwhile, it makes at
most 24 calls for itself and 24 for each password that it has been given. -/
theorem connect_bounded {s t : Process ι} {a : ι} {object : MPSshSession} {returned : Option Return}
    {params : MPConnectionParams} {wantsError : Bool} {es : List (ι × SessionEvent)}
    (hidle : s.objects a = .idle object returned) (hcontinues : ∀ e ∈ es, Continues a e)
    (hrun : run step s ((a, .connectUsingParams params wantsError) :: es) = some t) :
    ∃ entries, t.logOf a = s.logOf a ++ entries ∧ entries.length = es.countP (·.1 = a) ∧
      entries.length ≤ attemptCalls * (entries.countP Entry.givesPassword + 1) := by
  have hseen : Seen expenses (fun _ v => v.Left attemptCalls) (fun _ _ => True) (fun v => v.Left 0) a
      ⟨0, attemptCalls⟩ s t := by
    refine run_connect (fun _ _ h => iteration_spends h) (fun _ _ _ => trivial) ?_ hidle hcontinues hrun ?_ ?_ ?_
    · exact fun v c r _ hallows => Account.Left.mono (Account.left_next (n := 0) hallows c r) (Nat.zero_le _)
    · exact fun _ => trivial
    · exact fun _ => (Nat.zero_add _).le
    · exact Nat.zero_le _
  obtain ⟨entries, hlog, -, hleft⟩ := hseen
  refine ⟨entries, hlog, ?_, ?_⟩
  · obtain ⟨mid, hstep, hrest⟩ := Option.bind_eq_some_iff.mp hrun
    have hsame : mid.logOf a = s.logOf a := by
      cases step_moves hstep with
      | connect => rfl
    have hlength := length_logOf hcontinues hrest
    rw [hlog, hsame, List.length_append] at hlength
    omega
  · rw [observe_expenses] at hleft
    simp only [Account.Left] at hleft
    rw [Nat.mul_add]
    omega

theorem connect_bounded_insisting :
    ∃ t entries, run step (start fun _ => fullDelegate) (calls portless insisting 31) = some t ∧ t.logOf () = entries ∧
      entries.length = 31 ∧ entries.length ≤ 24 * (entries.countP Entry.givesPassword + 1) := by
  have hsome : (run step (start fun _ => fullDelegate) (calls portless insisting 31)).isSome = true := by
    decide +kernel
  obtain ⟨t, hrun⟩ := Option.isSome_iff_exists.mp hsome
  obtain ⟨entries, hlog, hlength, hbounded⟩ :=
    connect_bounded (s := start fun _ => fullDelegate) rfl (by simp [Continues]) hrun
  exact ⟨t, entries, hrun, hlog, hlength, hbounded⟩

end Process

end MPSsh.MPSshSession

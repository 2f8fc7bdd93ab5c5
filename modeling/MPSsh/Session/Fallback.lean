import MPSsh.Session.Rules

namespace MPSsh.MPSshSession

open Interaction Method

/-- The authentication methods that a session can use. -/
inductive UserauthMethod where
  | publickey
  | password
  | keyboardInteractive
  deriving DecidableEq, Repr

namespace UserauthMethod

def name : UserauthMethod → String
  | .publickey => "publickey"
  | .password => "password"
  | .keyboardInteractive => "keyboard-interactive"

/-- The order in which the methods are tried. -/
def order : List UserauthMethod :=
  [.publickey, .password, .keyboardInteractive]

end UserauthMethod

/-- The name of the method is an element of the comma-separated list. -/
def advertised (ual : List UInt8) (method : UserauthMethod) : Bool :=
  utf8 method.name ∈ (cString ual).splitOn 44

/-- The name of the method occurs in the text of the list. -/
def mentioned (ual : List UInt8) (method : UserauthMethod) : Bool :=
  (boxed (cString ual)).elim false fun list => containsString list method.name

/-- The methods that are invoked when some are available: each in turn until one
succeeds. -/
def prescribed (available : UserauthMethod → Bool) (rc : UserauthMethod → Int) : List UserauthMethod → List UserauthMethod
  | [] => []
  | method :: methods =>
    if available method then method :: (if rc method = 0 then [] else prescribed available rc methods)
    else prescribed available rc methods

/-- Two ways to tell which methods are available agree on each method, up to the first
one that is available and succeeds. -/
def Agree (p q : UserauthMethod → Bool) (rc : UserauthMethod → Int) : List UserauthMethod → Prop
  | [] => True
  | method :: methods => p method = q method ∧ (p method = true → rc method ≠ 0 → Agree p q rc methods) ∧
      (p method = false → Agree p q rc methods)

theorem subset_prescribed (available : UserauthMethod → Bool) (rc : UserauthMethod → Int) (methods : List UserauthMethod) :
    prescribed available rc methods ⊆ methods := by
  induction methods with
  | nil => simp [prescribed]
  | cons method methods ih =>
    unfold prescribed
    split
    · split
      · simp
      · exact List.cons_subset_cons method ih
    · exact List.subset_cons_of_subset method ih

/-- The same methods are invoked exactly when the two ways agree. -/
theorem prescribed_eq_iff {p q : UserauthMethod → Bool} {rc : UserauthMethod → Int} {methods : List UserauthMethod}
    (hnodup : methods.Nodup) : prescribed p rc methods = prescribed q rc methods ↔ Agree p q rc methods := by
  induction methods with
  | nil => simp [prescribed, Agree]
  | cons method methods ih =>
    obtain ⟨hnew, hrest⟩ := List.nodup_cons.mp hnodup
    have hfresh (available : UserauthMethod → Bool) (tail : List UserauthMethod) :
        prescribed available rc methods ≠ method :: tail := by
      intro heq
      exact hnew (subset_prescribed available rc methods (by simp [heq]))
    cases hp : p method <;> cases hq : q method
    · simp [prescribed, Agree, hp, hq, ih hrest]
    · simp [prescribed, Agree, hp, hq, hfresh]
    · simp [prescribed, Agree, hp, hq, Ne.symm (hfresh q _)]
    · by_cases hrc : rc method = 0 <;> simp [prescribed, Agree, hp, hq, hrc, ih hrest]

/-- The methods invoked so far, and whether the session has been disconnected. -/
structure Attempted where
  invoked : List UserauthMethod
  disconnected : Bool

def Attempted.invoke (v : Attempted) (method : UserauthMethod) : Attempted :=
  { v with invoked := v.invoked ++ [method] }

/-- The server sends this list and answers each method in this way. The library has a
text for every error. -/
def outcomes (ual : List UInt8) (rc : UserauthMethod → Int) : Monitor SessionCall SessionCall.Reply Attempted where
  allows _ _ := True
  expects _
    | .userauthList _ _, r => r = some ual
    | .userauthPublickeyFromfile _ _ _ _, r => r = rc .publickey
    | .userauthPassword _ _, r => r = rc .password
    | .userauthKeyboardInteractive _ _, r => r = rc .keyboardInteractive
    | .lastError, r => r ≠ none
    | _, _ => True
  next v
    | .userauthPublickeyFromfile _ _ _ _, _ => v.invoke .publickey
    | .userauthPassword _ _, _ => v.invoke .password
    | .userauthKeyboardInteractive _ _, _ => v.invoke .keyboardInteractive
    | .disconnect _, _ => { v with disconnected := true }
    | _, _ => v

/-- What the fallback does when some methods are available: it invokes the ones
prescribed, succeeds if one of them does, and otherwise sets an error and shuts the
session down. -/
structure Follows (available : UserauthMethod → Bool) (rc : UserauthMethod → Int) (wantsError : Bool)
    (result : Outcome Bool) (s : Frame) (v : Attempted) : Prop where
  invoked : v.invoked = prescribed available rc UserauthMethod.order
  returns : result = .returns (v.invoked.any (rc · = 0))
  failed : (∀ method ∈ v.invoked, rc method ≠ 0) →
    (wantsError = true → ∃ msg, s.error = some { code := ERROR_AUTH_FAILED, localizedDescription := msg }) ∧
      s.connected = false ∧ v.disconnected = true

section Run

variable {ual : List UInt8} {rc : UserauthMethod → Int} {s : Frame} {v : Attempted}

/-- The fallback before the methods in `rest` are tried. -/
structure Underway (ual : List UInt8) (rc : UserauthMethod → Int) (wantsError : Bool) (rest : List UserauthMethod)
    (tryed auth : Bool) (s : Frame) (v : Attempted) : Prop where
  session : s.session = some { userauthlist := boxed (cString ual) }
  wantsError : s.wantsError = wantsError
  invoked : v.invoked ++ (if auth = true then [] else prescribed (mentioned ual) rc rest) =
    prescribed (mentioned ual) rc UserauthMethod.order
  auth_eq : auth = v.invoked.any (rc · = 0)
  tryed_eq : tryed = !v.invoked.isEmpty
  error : tryed = true → auth = false → s.wantsError = true →
    ∃ msg, s.error = some { code := ERROR_AUTH_FAILED, localizedDescription := msg }

/-- A method that fails leaves its error. -/
theorem authenticate_outcomes {method : UserauthMethod} {message : MPConnectionParams → SessionMethod Int}
    {failure : String} {session : MPLSSession} {Q : Outcome Bool → Frame → Attempted → Prop}
    (hsession : s.session = some session)
    (hmessage : ∀ {Q : Outcome Int → Frame → Attempted → Prop},
      Q (.returns (rc method)) s (v.invoke method) → Sat (outcomes ual rc) (message s.params) Q s v)
    (hsucceeds : rc method = 0 → Q (.returns true) s (v.invoke method))
    (hfails : rc method ≠ 0 → ∀ error, (s.wantsError = true →
      error = some { code := ERROR_AUTH_FAILED, localizedDescription := failure }) →
        Q (.returns false) { s with error := error } (v.invoke method)) :
    Sat (outcomes ual rc) (authenticate message failure) Q s v := by
  unfold authenticate
  rw [sat_bind, sat_toSession hsession, sat_bind, sat_get, andThen_returns]
  apply hmessage
  rw [andThen_returns]
  split
  · rename_i hrc
    rw [sat_bind]
    unfold lastError
    rw [sat_toSession hsession]
    unfold MPLSSession.lastError
    rw [sat_bind, sat_call]
    refine ⟨trivial, fun text htext => ?_⟩
    cases text with
    | none => exact absurd rfl htext
    | some text =>
      rw [andThen_returns, sat_pure, andThen_returns, sat_bind]
      unfold fillError
      rw [sat_modify, andThen_returns, sat_pure]
      split
      · exact hfails hrc _ fun _ => rfl
      · rename_i hwants
        exact hfails hrc s.error fun h => absurd h hwants
  · rename_i hrc
    exact hsucceeds (not_not.mp hrc)

/-- One step of the fallback. -/
theorem tryMethod_outcomes {wantsError tryed auth : Bool} {method : UserauthMethod} {rest : List UserauthMethod}
    {message : MPConnectionParams → SessionMethod Int} {failure : String}
    {flag : Bool → MPConnectionParams → MPConnectionParams} {Q : Outcome Bool → Frame → Attempted → Prop}
    (hinv : Underway ual rc wantsError (method :: rest) tryed auth s v)
    (hmessage : ∀ {Q : Outcome Int → Frame → Attempted → Prop},
      Q (.returns (rc method)) s (v.invoke method) → Sat (outcomes ual rc) (message s.params) Q s v)
    (hpost : ∀ auth' s' v', Underway ual rc wantsError rest (tryed || !auth && mentioned ual method) auth' s' v' →
      Q (.returns auth') s' v') :
    Sat (outcomes ual rc) (tryMethod (!auth && mentioned ual method) auth (authenticate message failure) flag) Q s v := by
  obtain ⟨hsession, hwants, hinvoked, hauth, htryed, herror⟩ := hinv
  unfold tryMethod
  cases auth with
  | true =>
    refine hpost true s v ?_
    rw [Bool.not_true, Bool.false_and, Bool.or_false]
    exact ⟨hsession, hwants, by simpa using hinvoked, hauth, htryed, by simp⟩
  | false =>
    cases hmentioned : mentioned ual method with
    | false =>
      rw [hmentioned] at hpost
      refine hpost false s v ?_
      rw [Bool.and_false, Bool.or_false]
      exact ⟨hsession, hwants, by simpa [prescribed, hmentioned] using hinvoked, hauth, htryed, herror⟩
    | true =>
      rw [hmentioned] at hpost
      rw [if_pos (by rfl), sat_bind]
      have hnone : ∀ other ∈ v.invoked, rc other ≠ 0 := by
        simpa using hauth.symm
      apply authenticate_outcomes hsession hmessage
      · intro hrc
        refine hpost true _ _ ⟨hsession, hwants, ?_, ?_, ?_, by simp⟩
        · simpa [prescribed, hmentioned, hrc, Attempted.invoke] using hinvoked
        · simp [Attempted.invoke, hrc]
        · simp [Attempted.invoke]
      · intro hrc error hset
        refine hpost false _ _ ⟨hsession, hwants, ?_, ?_, ?_, ?_⟩
        · simpa [prescribed, hmentioned, hrc, Attempted.invoke] using hinvoked
        · simpa [Attempted.invoke, hrc] using hauth
        · simp [Attempted.invoke]
        · exact fun _ _ hwanted => ⟨failure, hset hwanted⟩

theorem shutdown_outcomes {session : MPLSSession} {Q : Outcome Unit → Frame → Attempted → Prop}
    (hsession : s.session = some session)
    (hpost : Q (.returns ()) { s with connected := false } { v with disconnected := true }) :
    Sat (outcomes ual rc) shutdown Q s v := by
  unfold shutdown disconnect closeSocket
  rw [sat_bind, sat_call]
  refine ⟨trivial, fun _ _ => ?_⟩
  rw [andThen_returns, sat_bind, sat_toSession hsession, sat_call]
  refine ⟨trivial, fun _ _ => ?_⟩
  rw [andThen_returns, sat_bind, sat_bind, sat_get, andThen_returns]
  split
  · rw [sat_call]
    exact ⟨trivial, fun _ _ => hpost⟩
  · exact hpost

theorem concludeAuthentication_outcomes {wantsError tryed auth : Bool}
    (hinv : Underway ual rc wantsError [] tryed auth s v) :
    Sat (outcomes ual rc) (concludeAuthentication tryed auth)
      (fun result s' v' => Follows (mentioned ual) rc wantsError result s' v') s v := by
  obtain ⟨hsession, rfl, hinvoked, hauth, htryed, herror⟩ := hinv
  have hall : v.invoked = prescribed (mentioned ual) rc UserauthMethod.order := by
    rw [← hinvoked]
    cases auth <;> simp [prescribed]
  have hend (s' : Frame) (hsession' : s'.session = s.session)
      (herror' : auth = false → s.wantsError = true →
        ∃ msg, s'.error = some { code := ERROR_AUTH_FAILED, localizedDescription := msg }) :
      Sat (outcomes ual rc) (if auth then return true else do
        shutdown
        return false) (fun result s' v' => Follows (mentioned ual) rc s.wantsError result s' v') s' v := by
    cases auth with
    | true =>
      refine ⟨hall, by rw [← hauth], fun hfailed => ?_⟩
      obtain ⟨method, hmem, hrc⟩ := List.any_eq_true.mp hauth.symm
      exact absurd (of_decide_eq_true hrc) (hfailed method hmem)
    | false =>
      rw [if_neg (by simp), sat_bind]
      apply shutdown_outcomes (hsession'.trans hsession)
      exact ⟨hall, by rw [← hauth], fun _ => ⟨herror' rfl, rfl, rfl⟩⟩
  unfold concludeAuthentication concludeAuthentication.reportUntried
  rw [sat_bind]
  cases tryed with
  | true => exact hend s rfl (herror rfl)
  | false =>
    unfold fillError
    rw [if_neg (by simp), sat_modify, andThen_returns]
    by_cases hwants : s.wantsError = true
    · rw [if_pos hwants]
      exact hend _ rfl fun _ _ => ⟨_, rfl⟩
    · rw [if_neg hwants]
      exact hend s rfl fun _ h => absurd h hwants

/-- The session allows the methods whose names occur in the text of its list. -/
theorem sessionAllows_mentioned {τ : Type} {M : Monitor SessionCall SessionCall.Reply τ} {t : τ}
    {allows : MPLSSession → Bool} (method : UserauthMethod) {Q : Outcome Bool → Frame → τ → Prop}
    (hsession : s.session = some { userauthlist := boxed (cString ual) })
    (hsame : allows { userauthlist := boxed (cString ual) } = mentioned ual method)
    (hpost : Q (.returns (mentioned ual method)) s t) : Sat M (sessionAllows allows) Q s t := by
  unfold sessionAllows
  rw [sat_toSession hsession, sat_pure, hsame]
  exact hpost

/-- The fallback goes by the names that occur in the text of the list. -/
theorem authenticateWithParams_mentioned (hsession : s.session = some { userauthlist := none }) :
    Sat (outcomes ual rc) authenticateWithParams
      (fun result s' v' => Follows (mentioned ual) rc s.wantsError result s' v') s ⟨[], false⟩ := by
  unfold authenticateWithParams userauthList
  rw [sat_bind, sat_toSession hsession, sat_bind, sat_get, andThen_returns, sat_bind]
  unfold MPLSSession.userauthListWithUser
  rw [if_pos (by rfl), sat_bind, sat_call]
  refine ⟨trivial, fun list hlist => ?_⟩
  obtain rfl : list = some ual := hlist
  rw [andThen_returns, sat_pure, andThen_returns, sat_modify, andThen_returns]
  have hstart : Underway ual rc s.wantsError UserauthMethod.order false (!false && false)
      { s with session := some { userauthlist := boxed (cString ual) } } ⟨[], false⟩ :=
    ⟨rfl, rfl, rfl, rfl, rfl, by simp⟩
  rw [sat_bind]
  apply sessionAllows_mentioned .publickey rfl rfl
  rw [andThen_returns, sat_bind]
  apply tryMethod_outcomes hstart fun hpost => sat_call.mpr ⟨trivial, fun _ hr => hr ▸ hpost⟩
  intro byKey s₁ v₁ hkey
  rw [andThen_returns, sat_bind]
  apply sessionAllows_mentioned .password hkey.session rfl
  rw [andThen_returns, sat_bind]
  apply tryMethod_outcomes hkey fun hpost => sat_call.mpr ⟨trivial, fun _ hr => hr ▸ hpost⟩
  intro byPassword s₂ v₂ hpassword
  rw [andThen_returns, sat_bind]
  apply sessionAllows_mentioned .keyboardInteractive hpassword.session rfl
  rw [andThen_returns, sat_bind]
  apply tryMethod_outcomes hpassword fun hpost => sat_call.mpr ⟨trivial, fun _ hr => hr ▸ hpost⟩
  intro byKeyboard s₃ v₃ hkeyboard
  exact concludeAuthentication_outcomes hkeyboard

/-- Every call can be answered as the server and the library do. -/
theorem outcomes_answerable (ual : List UInt8) (rc : UserauthMethod → Int) (v : Attempted) (c : SessionCall) :
    ∃ r, (outcomes ual rc).expects v c r := by
  cases c with
  | userauthList => exact ⟨some ual, rfl⟩
  | userauthPublickeyFromfile | userauthPassword | userauthKeyboardInteractive => exact ⟨_, rfl⟩
  | lastError => exact ⟨some [], by simp [outcomes]⟩
  | resolve => exact ⟨⟨false, none, ⟨List.replicate 46 0, rfl⟩⟩, trivial⟩
  | connectSocket => exact ⟨.error, trivial⟩
  | sessionInit | startup => exact ⟨0, trivial⟩
  | hostkeyHash | requestPassword => exact ⟨none, trivial⟩
  | fingerprint => exact ⟨true, trivial⟩
  | attempt | shutdown | close | trace | disconnect | setBlocking | didChangeState | NSLog => exact ⟨(), trivial⟩

end Run

/-- For every list that the server sends and every outcome of the methods, the fallback
follows the advertised names if and only if, up to the first advertised method that
succeeds, each name occurs in the list exactly when it is one of its elements. -/
theorem authenticateWithParams_advertised_iff (ual : List UInt8) (rc : UserauthMethod → Int) {s : Frame}
    (hsession : s.session = some { userauthlist := none }) :
    Sat (outcomes ual rc) authenticateWithParams
        (fun result s' v' => Follows (advertised ual) rc s.wantsError result s' v') s ⟨[], false⟩ ↔
      Agree (mentioned ual) (advertised ual) rc UserauthMethod.order := by
  have hmentioned : Sat (outcomes ual rc) authenticateWithParams
      (fun result s' v' => Follows (mentioned ual) rc s.wantsError result s' v') s ⟨[], false⟩ :=
    authenticateWithParams_mentioned hsession
  rw [← prescribed_eq_iff (by decide)]
  constructor
  · intro hadvertised
    obtain ⟨_, _, v', hfirst, hsecond⟩ :=
      (hmentioned.and hadvertised).exists_end (outcomes_answerable ual rc)
    rw [← hfirst.invoked, hsecond.invoked]
  · intro hsame
    apply hmentioned.mono
    rintro result s' v' ⟨hinvoked, hreturns, hfailed⟩
    exact ⟨hinvoked.trans hsame, hreturns, hfailed⟩

/-- A session that has been started, and a password for it. -/
def startedFrame : Frame where
  sock := 5
  connected := false
  session := some { userauthlist := none }
  delegate := ⟨false, false, false⟩
  params := ⟨some "host", 22, some "user", some "secret", some "", some "", none, false, false⟩
  wantsError := true
  error := none

theorem authenticateWithParams_advertised_iff_password :
    Sat (outcomes (utf8 "publickey,password") fun _ => 0) authenticateWithParams
        (fun result s' v' => Follows (advertised (utf8 "publickey,password")) (fun _ => 0) startedFrame.wantsError
          result s' v') startedFrame ⟨[], false⟩ ↔
      Agree (mentioned (utf8 "publickey,password")) (advertised (utf8 "publickey,password")) (fun _ => 0)
        UserauthMethod.order :=
  authenticateWithParams_advertised_iff _ _ rfl

/-- The password goes to a server that advertises another method, with a longer name. -/
theorem password_unadvertised :
    ¬ ∀ (ual : List UInt8) (rc : UserauthMethod → Int) (s : Frame), s.session = some { userauthlist := none } →
      Sat (outcomes ual rc) authenticateWithParams
        (fun result s' v' => Follows (advertised ual) rc s.wantsError result s' v') s ⟨[], false⟩ := by
  intro halways
  have hadvertised := halways (utf8 "x-password") (fun _ => 0) startedFrame rfl
  have hmentioned : Sat (outcomes (utf8 "x-password") fun _ => 0) authenticateWithParams
      (fun result s' v' => Follows (mentioned (utf8 "x-password")) (fun _ => 0) startedFrame.wantsError result s' v')
      startedFrame ⟨[], false⟩ :=
    authenticateWithParams_mentioned rfl
  obtain ⟨_, _, v', hfirst, hsecond⟩ := (hmentioned.and hadvertised).exists_end (outcomes_answerable _ _)
  exact absurd (hfirst.invoked.symm.trans hsecond.invoked) (by decide +kernel)

end MPSsh.MPSshSession

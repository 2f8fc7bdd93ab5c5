import MPSsh.Session.Acceptance
import MPSsh.Session.Fallback
import MPSsh.Session.Loop

namespace MPSsh.MPSshSession

open Interaction Method Schedule

/-- An attempt of a call, by what it has asked for: whether it follows another attempt
of the call, the list that the server has sent, the methods tried, with their results,
and whether the delegate has been asked for a password. -/
structure Trial where
  later : Bool
  list : Option (List UInt8)
  tried : List (UserauthMethod × Int)
  prompted : Bool
  deriving DecidableEq, Repr

namespace Trial

/-- The server has sent this list, and no method has authenticated the user. -/
structure Fails (trial : Trial) (ual : List UInt8) : Prop where
  list : trial.list = some ual
  tried : ∀ result ∈ trial.tried, result.2 ≠ 0

/-- The method was advertised, and was rejected in this attempt. -/
def Rejected (trial : Trial) (ual : List UInt8) (method : UserauthMethod) : Prop :=
  advertised ual method = true ∧ ∃ rc, rc ≠ 0 ∧ (method, rc) ∈ trial.tried

/-- The delegate is asked for a password if and only if a method that uses one was
advertised and rejected. -/
def Justified (trial : Trial) (ual : List UInt8) : Prop :=
  trial.prompted = true ↔ trial.Rejected ual .password ∨ trial.Rejected ual .keyboardInteractive

end Trial

/-- There is a delegate to ask, and the flag was set or the text of the list has the name
of a method that uses a password, exactly if an element of the list that occurs in its
text is such a name. -/
def Consistent (asks flag : Bool) (ual : List UInt8) : Prop :=
  (asks = true ∧ (flag = true ∨ mentioned ual .password = true ∨ mentioned ual .keyboardInteractive = true)) ↔
    (advertised ual .password = true ∧ mentioned ual .password = true) ∨
      (advertised ual .keyboardInteractive = true ∧ mentioned ual .keyboardInteractive = true)

/-- In an attempt that fails, the list decides whether the prompt is justified. -/
def Trial.Settled (asks flag : Bool) (trial : Trial) : Prop :=
  ∀ ual, trial.Fails ual → (trial.Justified ual ↔ Consistent asks (flag || trial.later) ual)

/-- The attempts of a call. -/
structure History where
  past : List Trial
  current : Option Trial

namespace History

def start : History where
  past := []
  current := none

def update (v : History) (f : Trial → Trial) : History :=
  { v with current := v.current.map f }

def next (v : History) : (c : SessionCall) → c.Reply → History
  | .attempt, _ =>
    { past := v.past ++ v.current.toList
      current := some { later := v.current.isSome, list := none, tried := [], prompted := false } }
  | .userauthList _ _, list => v.update fun trial => { trial with list }
  | .userauthPublickeyFromfile _ _ _ _, rc =>
    v.update fun trial => { trial with tried := trial.tried ++ [(.publickey, rc)] }
  | .userauthPassword _ _, rc => v.update fun trial => { trial with tried := trial.tried ++ [(.password, rc)] }
  | .userauthKeyboardInteractive _ _, rc =>
    v.update fun trial => { trial with tried := trial.tried ++ [(.keyboardInteractive, rc)] }
  | .requestPassword, _ => v.update fun trial => { trial with prompted := true }
  | _, _ => v

def of (entries : List Entry) : History :=
  entries.foldl (fun v entry => v.next entry.call entry.reply) start

/-- The attempts that have ended: the last one has when the call has returned. -/
def finished (v : History) : Phase → List Trial
  | .idle _ (some (.connect _)) => v.past ++ v.current.toList
  | _ => v.past

end History

/-- The last attempt is settled. -/
def Ended (asks flag : Bool) (v : History) : Prop :=
  ∀ trial ∈ v.current, trial.Settled asks flag

/-- An attempt begins when the one before it is settled. -/
def trials (asks flag : Bool) : Monitor SessionCall SessionCall.Reply History where
  allows v
    | .attempt => Ended asks flag v
    | _ => True
  expects _ _ _ := True
  next := History.next

/-- The methods that have been tried before those in `rest`, and the flag that asks for
a password. -/
structure Course (flag : Bool) (ual : List UInt8) (rest : List UserauthMethod) (auth : Bool)
    (tried : List (UserauthMethod × Int)) (requestPassword : Bool) : Prop where
  auth_eq : auth = tried.any (·.2 = 0)
  methods : auth = false →
    tried.map Prod.fst ++ rest.filter (mentioned ual) = UserauthMethod.order.filter (mentioned ual)
  flag_eq : auth = false → requestPassword = (flag || tried.any (·.1 ≠ .publickey))

section Course

variable {asks flag later auth requestPassword : Bool} {ual : List UInt8} {method : UserauthMethod}
  {rest : List UserauthMethod} {tried : List (UserauthMethod × Int)}

theorem Course.skip (hcourse : Course flag ual (method :: rest) auth tried requestPassword)
    (hskip : (!auth && mentioned ual method) = false) : Course flag ual rest auth tried requestPassword := by
  refine ⟨hcourse.auth_eq, fun hauth => ?_, hcourse.flag_eq⟩
  have hunmentioned : mentioned ual method = false := by simpa [hauth] using hskip
  simpa [hunmentioned] using hcourse.methods hauth

theorem Course.invoke (hcourse : Course flag ual (method :: rest) false tried requestPassword)
    (hmentioned : mentioned ual method = true) {rc : Int} {requestPassword' : Bool}
    (hflag : rc ≠ 0 → requestPassword' = (requestPassword || decide (method ≠ .publickey))) :
    Course flag ual rest (decide (rc = 0)) (tried ++ [(method, rc)]) requestPassword' := by
  have hnone := hcourse.auth_eq
  constructor
  · simp [List.any_append, ← hnone]
  · intro _
    simpa [hmentioned] using hcourse.methods rfl
  · intro hrc
    rw [hflag (of_decide_eq_false hrc), hcourse.flag_eq rfl, List.any_append, Bool.or_assoc]
    simp

/-- When all methods have been tried in vain, those tried are the ones mentioned. -/
theorem Course.mem_tried (hcourse : Course flag ual [] false tried requestPassword) :
    method ∈ tried.map Prod.fst ↔ mentioned ual method = true := by
  have hmethods := hcourse.methods rfl
  rw [List.filter_nil, List.append_nil] at hmethods
  rw [hmethods, List.mem_filter, and_iff_right_iff_imp]
  intro _
  cases method <;> simp [UserauthMethod.order]

theorem Course.rejected_iff (hcourse : Course flag ual [] false tried requestPassword) {trial : Trial}
    (htried : trial.tried = tried) :
    trial.Rejected ual method ↔ advertised ual method = true ∧ mentioned ual method = true := by
  have hfailed : ∀ result ∈ tried, result.2 ≠ 0 := by
    simpa using hcourse.auth_eq.symm
  rw [Trial.Rejected, htried, ← hcourse.mem_tried, List.mem_map]
  refine and_congr_right fun _ => ⟨?_, ?_⟩
  · rintro ⟨rc, -, hmem⟩
    exact ⟨(method, rc), hmem, rfl⟩
  · rintro ⟨⟨method', rc⟩, hmem, rfl⟩
    exact ⟨rc, hfailed _ hmem, hmem⟩

/-- The flag is set in the end if it was set before or a method with a password is
mentioned. -/
theorem Course.requestPassword_iff (hcourse : Course flag ual [] false tried requestPassword) :
    requestPassword = true ↔
      flag = true ∨ mentioned ual .password = true ∨ mentioned ual .keyboardInteractive = true := by
  rw [hcourse.flag_eq rfl, Bool.or_eq_true, List.any_eq_true]
  refine or_congr_right ?_
  rw [← hcourse.mem_tried, ← hcourse.mem_tried, List.mem_map, List.mem_map]
  constructor
  · rintro ⟨⟨method, rc⟩, hmem, hmethod⟩
    cases method with
    | publickey => simp at hmethod
    | password => exact Or.inl ⟨_, hmem, rfl⟩
    | keyboardInteractive => exact Or.inr ⟨_, hmem, rfl⟩
  · rintro (⟨result, hmem, hmethod⟩ | ⟨result, hmem, hmethod⟩) <;> exact ⟨result, hmem, by simp [hmethod]⟩

/-- An attempt that asks for a password when the flag is set and there is a delegate to
ask is settled. -/
theorem Course.settled (hcourse : Course (flag || later) ual [] false tried requestPassword) {trial : Trial}
    (hlater : trial.later = later) (hlist : trial.list = some ual) (htried : trial.tried = tried)
    (hprompted : trial.prompted = (requestPassword && asks)) : trial.Settled asks flag := by
  rintro ual' ⟨hlist', -⟩
  obtain rfl : ual = ual' := Option.some.inj (hlist.symm.trans hlist')
  rw [Trial.Justified, Consistent, hlater, hcourse.rejected_iff htried, hcourse.rejected_iff htried, hprompted,
    Bool.and_eq_true, hcourse.requestPassword_iff, and_comm]

/-- An attempt in which a method succeeds does not fail. -/
theorem Course.settled_of_auth (hcourse : Course (flag || later) ual rest true tried requestPassword) {trial : Trial}
    (htried : trial.tried = tried) : trial.Settled asks flag := by
  rintro ual' ⟨-, hfailed⟩
  obtain ⟨result, hmem, hrc⟩ := List.any_eq_true.mp hcourse.auth_eq.symm
  exact absurd (of_decide_eq_true hrc) (hfailed result (htried ▸ hmem))

/-- An attempt that gets no list does not fail to authenticate. -/
theorem Trial.settled_of_none {trial : Trial} (hlist : trial.list = none) : trial.Settled asks flag := by
  rintro ual ⟨hlist', -⟩
  exact absurd (hlist.symm.trans hlist') (by simp)

end Course

/-- An attempt on a session, the parameters with this flag. -/
structure Within (asks requestPassword : Bool) (session : Option MPLSSession) (trial : Trial) (s : Frame) (v : History) :
    Prop where
  delegate : s.delegate.requestPassword = asks
  flag_eq : s.params.requestPassword = requestPassword
  session : s.session = session
  current : v.current = some trial

/-- The loop between two attempts. -/
structure Between (asks flag : Bool) (s : Frame) (v : History) : Prop where
  delegate : s.delegate.requestPassword = asks
  flag_eq : s.params.requestPassword = (flag || v.current.isSome)
  settled : Ended asks flag v

section Attempt

variable {asks flag later auth requestPassword : Bool} {ual : List UInt8} {session : Option MPLSSession}
  {method : UserauthMethod} {rest : List UserauthMethod} {tried : List (UserauthMethod × Int)} {trial : Trial}
  {s : Frame} {v : History}

theorem trials_silent (c : SessionCall) (hc : isSilent c = true) : Ignores (trials asks flag) c := by
  cases c <;> first | exact ⟨fun _ => trivial, fun _ _ => rfl⟩ | cases hc

theorem trials_ignores_didChangeState (state : MPSshSessionState) :
    Ignores (trials asks flag) (.didChangeState state) :=
  ⟨fun _ => trivial, fun _ _ => rfl⟩

theorem within_framed : Framed (Within asks requestPassword session trial) := by
  rintro s s' v hsession hdelegate hparams ⟨hasks, hflag, hcurrent, hrest⟩
  exact ⟨by rw [hdelegate, hasks], by rw [hparams, hflag], by rw [hsession, hcurrent], hrest⟩

/-- What a call tells of the current attempt. -/
theorem Within.update (h : Within asks requestPassword session trial s v) (f : Trial → Trial) :
    Within asks requestPassword session (f trial) s (v.update f) := by
  obtain ⟨hasks, hflag, hsession, hcurrent⟩ := h
  exact ⟨hasks, hflag, hsession, by rw [History.update, hcurrent, Option.map_some]⟩

theorem Within.ended (h : Within asks requestPassword session trial s v) (hsettled : trial.Settled asks flag) :
    Ended asks flag v := by
  intro trial' hmem
  obtain rfl : trial = trial' := Option.some.inj (h.current.symm.trans hmem)
  exact hsettled

theorem authenticate_trials {message : MPConnectionParams → SessionMethod Int} {failure : String} {session : MPLSSession}
    {Q : Bool → Frame → History → Prop} (h : Within asks requestPassword (some session) ⟨later, some ual, tried, false⟩ s v)
    (hmessage : ∀ {Q : Outcome Int → Frame → History → Prop},
      (∀ rc, Q (.returns rc) s (v.update fun trial => { trial with tried := trial.tried ++ [(method, rc)] })) →
        Sat (trials asks flag) (message s.params) Q s v)
    (hpost : ∀ rc s' v', Within asks requestPassword (some session)
      ⟨later, some ual, tried ++ [(method, rc)], false⟩ s' v' → Q (decide (rc = 0)) s' v') :
    Sat (trials asks flag) (authenticate message failure) (Returning Q) s v := by
  apply authenticate_sat (trials_silent .lastError rfl) h.session
  apply hmessage
  intro rc
  have htried := h.update fun trial => { trial with tried := trial.tried ++ [(method, rc)] }
  refine ⟨rfl, rc, rfl, fun hrc => ?_, fun hrc => ⟨fun s' hagrees => ?_, trivial⟩⟩
  · have hsucceeds := hpost rc _ _ htried
    rwa [decide_eq_true hrc] at hsucceeds
  · have hfails := hpost rc s' _ (within_framed s s' _ hagrees.session hagrees.delegate hagrees.params htried)
    rwa [decide_eq_false hrc] at hfails

/-- One step of the fallback. -/
theorem tryMethod_trials {message : MPConnectionParams → SessionMethod Int} {failure : String}
    {setFlag : Bool → MPConnectionParams → MPConnectionParams} {session : MPLSSession}
    {Q : Bool → Frame → History → Prop} (h : Within asks requestPassword (some session) ⟨later, some ual, tried, false⟩ s v)
    (hcourse : Course (flag || later) ual (method :: rest) auth tried requestPassword)
    (hmessage : ∀ {Q : Outcome Int → Frame → History → Prop},
      (∀ rc, Q (.returns rc) s (v.update fun trial => { trial with tried := trial.tried ++ [(method, rc)] })) →
        Sat (trials asks flag) (message s.params) Q s v)
    (hsetFlag : ∀ params, (setFlag false params).requestPassword =
      (params.requestPassword || decide (method ≠ .publickey)))
    (hpost : ∀ auth' requestPassword' tried' s' v',
      Within asks requestPassword' (some session) ⟨later, some ual, tried', false⟩ s' v' →
        Course (flag || later) ual rest auth' tried' requestPassword' → Q auth' s' v') :
    Sat (trials asks flag) (tryMethod (!auth && mentioned ual method) auth (authenticate message failure) setFlag)
      (Returning Q) s v := by
  unfold tryMethod
  cases hwanted : !auth && mentioned ual method with
  | false => exact hpost auth requestPassword tried s v h (hcourse.skip hwanted)
  | true =>
    obtain ⟨hauth, hmentioned⟩ := Bool.and_eq_true_iff.mp hwanted
    obtain rfl : auth = false := by simpa using hauth
    rw [if_pos rfl]
    apply sat_bind_returning
    refine authenticate_trials h hmessage fun rc s' v' h' => ?_
    rw [sat_bind, sat_modify, andThen_returns]
    obtain ⟨hdelegate, hflag, hsession, hcurrent⟩ := h'
    refine hpost _ _ _ _ _ ⟨hdelegate, rfl, hsession, hcurrent⟩ (hcourse.invoke hmentioned fun hrc => ?_)
    rw [decide_eq_false hrc, hsetFlag, hflag]

theorem concludeAuthentication_trials {tryed : Bool} {Q : Bool → Frame → History → Prop}
    (h : Within asks requestPassword session trial s v)
    (hpost : ∀ s' v', Within asks requestPassword session trial s' v' → Q auth s' v') :
    Sat (trials asks flag) (concludeAuthentication tryed auth) (Returning Q) s v := by
  unfold concludeAuthentication concludeAuthentication.reportUntried
  refine (maintains_ite (maintains_pure _) (fillError_maintains within_framed)).andThen_returning h ?_
  intro _ s₁ v₁ h₁
  cases auth with
  | true => exact hpost s₁ v₁ h₁
  | false =>
    refine (shutdown_maintains within_framed trials_silent).andThen_returning h₁ ?_
    exact fun _ s₂ v₂ h₂ => hpost s₂ v₂ h₂

/-- The fallback on a new session fails when all methods mentioned have been tried in
vain. -/
theorem authenticateWithParams_trials {Q : Bool → Frame → History → Prop}
    (h : Within asks (flag || later) (some { userauthlist := none }) ⟨later, none, [], false⟩ s v)
    (hpost : ∀ auth requestPassword session ual tried s' v',
      Within asks requestPassword session ⟨later, some ual, tried, false⟩ s' v' →
        Course (flag || later) ual [] auth tried requestPassword → Q auth s' v') :
    Sat (trials asks flag) authenticateWithParams (Returning Q) s v := by
  unfold authenticateWithParams userauthList
  rw [sat_bind, sat_toSession h.session, sat_bind, sat_get, andThen_returns, sat_bind]
  unfold MPLSSession.userauthListWithUser
  rw [if_pos (by rfl), sat_bind, sat_call]
  refine ⟨trivial, fun list _ => ?_⟩
  cases list with
  | none => trivial
  | some ual =>
    rw [andThen_returns, sat_pure, andThen_returns, sat_modify, andThen_returns]
    have h₀ : Within asks (flag || later) (some { userauthlist := boxed (cString ual) }) ⟨later, some ual, [], false⟩
        { s with session := some { userauthlist := boxed (cString ual) } }
        (v.update fun trial => { trial with list := some ual }) := by
      obtain ⟨hdelegate, hflag, -, hcurrent⟩ := h.update fun trial => { trial with list := some ual }
      exact ⟨hdelegate, hflag, rfl, hcurrent⟩
    have hstart : Course (flag || later) ual UserauthMethod.order (!false && false) [] (flag || later) :=
      ⟨rfl, fun _ => rfl, fun _ => (Bool.or_false _).symm⟩
    rw [sat_bind]
    apply sessionAllows_mentioned .publickey h₀.session rfl
    rw [andThen_returns]
    apply sat_bind_returning
    refine tryMethod_trials h₀ hstart (fun hpost => sat_call.mpr ⟨trivial, fun rc _ => hpost rc⟩) (by simp) ?_
    intro byKey _ _ s₁ v₁ h₁ hkey
    rw [sat_bind]
    apply sessionAllows_mentioned .password h₁.session rfl
    rw [andThen_returns]
    apply sat_bind_returning
    refine tryMethod_trials h₁ hkey (fun hpost => sat_call.mpr ⟨trivial, fun rc _ => hpost rc⟩) (by simp) ?_
    intro byPassword _ _ s₂ v₂ h₂ hpassword
    rw [sat_bind]
    apply sessionAllows_mentioned .keyboardInteractive h₂.session rfl
    rw [andThen_returns]
    apply sat_bind_returning
    refine tryMethod_trials h₂ hpassword (fun hpost => sat_call.mpr ⟨trivial, fun rc _ => hpost rc⟩) (by simp) ?_
    intro byKeyboard _ _ s₃ v₃ h₃ hkeyboard
    exact concludeAuthentication_trials h₃ fun s₄ v₄ h₄ => hpost _ _ _ _ _ s₄ v₄ h₄ hkeyboard

/-- The delegate is asked if the flag is set. -/
theorem requestRetry_trials (h : Within asks requestPassword session ⟨later, some ual, tried, false⟩ s v)
    (hcourse : Course (flag || later) ual [] false tried requestPassword) :
    Sat (trials asks flag) requestRetry (Returning (LoopPost (Between asks flag) fun _ => Ended asks flag)) s v := by
  unfold requestRetry
  rw [sat_bind, sat_get, andThen_returns, h.flag_eq, h.delegate]
  by_cases hasked : (requestPassword && asks) = true
  · rw [if_pos hasked, sat_bind]
    refine sat_call.mpr ⟨trivial, fun answer _ => ?_⟩
    rw [andThen_returns]
    have hsettled : Trial.Settled asks flag ⟨later, some ual, tried, true⟩ :=
      hcourse.settled rfl rfl rfl hasked.symm
    have hprompted := h.update fun trial => { trial with prompted := true }
    cases answer with
    | none => exact hprompted.ended hsettled
    | some pwd =>
      refine (shutdown_maintains within_framed trials_silent).andThen_returning hprompted ?_
      rintro - s₁ v₁ ⟨hdelegate, hflag, -, hcurrent⟩
      refine ⟨hdelegate, ?_, fun trial hmem => ?_⟩
      · obtain ⟨rfl, -⟩ := Bool.and_eq_true_iff.mp hasked
        rw [hcurrent, Option.isSome_some, Bool.or_true]
        exact hflag
      · obtain rfl := Option.some.inj (hcurrent.symm.trans hmem)
        exact hsettled
  · rw [if_neg hasked]
    exact h.ended (hcourse.settled rfl rfl rfl (by simpa using hasked))

theorem established_trials (h : Within asks (flag || later) (some { userauthlist := none }) ⟨later, none, [], false⟩ s v) :
    Sat (trials asks flag) established (Returning (LoopPost (Between asks flag) fun _ => Ended asks flag)) s v := by
  unfold established
  refine (notify_maintains (trials_ignores_didChangeState _)).andThen_returning h ?_
  intro _ s₁ v₁ h₁
  refine (manageFingerprint_maintains within_framed trials_silent).andThen_returning h₁ ?_
  intro accepted s₂ v₂ h₂
  cases accepted with
  | false => exact h₂.ended (Trial.settled_of_none rfl)
  | true =>
    apply sat_bind_returning
    refine authenticateWithParams_trials h₂ ?_
    intro auth requestPassword session ual tried s₃ v₃ h₃ hcourse
    cases auth with
    | true => exact h₃.ended (hcourse.settled_of_auth rfl)
    | false => exact requestRetry_trials h₃ hcourse

theorem openSession_trials (h : Within asks (flag || later) session ⟨later, none, [], false⟩ s v) :
    Sat (trials asks flag) openSession (Returning (LoopPost (Between asks flag) fun _ => Ended asks flag)) s v := by
  unfold openSession
  refine (notify_maintains (trials_ignores_didChangeState _)).andThen_returning h ?_
  rintro - s₁ v₁ ⟨hdelegate, hflag, -, hcurrent⟩
  unfold MPLSSession.init
  rw [sat_bind, sat_bind, sat_call]
  refine ⟨trivial, fun _ _ => ?_⟩
  rw [andThen_returns, sat_pure, andThen_returns, sat_bind, sat_modify, andThen_returns]
  have hnew : Within asks (flag || later) (some { userauthlist := none }) ⟨later, none, [], false⟩
      { s₁ with session := some { userauthlist := none } } v₁ :=
    ⟨hdelegate, hflag, rfl, hcurrent⟩
  refine (silent_maintains trials_silent rfl).andThen_returning hnew ?_
  intro _ s₂ v₂ h₂
  rw [sat_bind, sat_get, andThen_returns, sat_bind]
  refine sat_call.mpr ⟨trivial, fun rc _ => ?_⟩
  rw [andThen_returns]
  split
  · exact startupFailed_returning within_framed trials_silent h₂
      fun _ _ h₃ => h₃.ended (Trial.settled_of_none rfl)
  · exact established_trials h₂

theorem attempt_trials (h : Between asks flag s v) :
    Sat (trials asks flag) attempt (Returning (LoopPost (Between asks flag) fun _ => Ended asks flag)) s v := by
  unfold attempt
  rw [sat_bind]
  refine sat_call.mpr ⟨h.settled, fun _ _ => ?_⟩
  rw [andThen_returns]
  have hbegun : Within asks (flag || v.current.isSome) s.session ⟨v.current.isSome, none, [], false⟩ s
      (v.next .attempt ()) :=
    ⟨h.delegate, h.flag_eq, rfl, rfl⟩
  refine (createSocket_maintains within_framed trials_silent ?_).andThen_returning hbegun ?_
  · exact fun _ => ⟨fun _ => trivial, fun _ _ => rfl⟩
  · intro created s₁ v₁ h₁
    cases created with
    | false => exact h₁.ended (Trial.settled_of_none rfl)
    | true => exact openSession_trials h₁

theorem iteration_trials (h : Between asks flag s v) :
    Sat (trials asks flag) iteration (Returning (LoopPost (Between asks flag) fun _ => Ended asks flag)) s v := by
  unfold iteration
  apply sat_bind_returning
  apply (attempt_trials h).mono
  rintro (result | _ | _) s₁ v₁ h₁
  · cases result with
    | retry | failed => exact h₁
    | succeeded =>
      have hauthenticated : Maintains (trials asks flag) (fun _ v => Ended asks flag v) authenticated := by
        unfold authenticated
        apply maintains_bind (notify_maintains (trials_ignores_didChangeState _))
        intro _
        apply maintains_bind
        · exact maintains_modify fun _ _ hended => hended
        · exact fun _ => silent_maintains trials_silent rfl
      exact hauthenticated.andThen_returning h₁ (fun _ _ _ hended => hended)
  · trivial
  · trivial

end Attempt

namespace Process

variable {ι : Type} [DecidableEq ι]

/-- For every call of `connectUsingParams:error:`, whatever the parameters, the delegate
and the flags are and whatever is answered in each of its attempts: in an attempt
whose authentication fails the prompt is justified if and only if the list of that
attempt is consistent with the flag, which is set in every attempt but the first. -/
theorem prompt_justified_iff {s t : Process ι} {a : ι} {object : MPSshSession} {returned : Option Return}
    {params : MPConnectionParams} {wantsError : Bool} {es : List (ι × SessionEvent)}
    (hidle : s.objects a = .idle object returned) (hcontinues : ∀ e ∈ es, Continues a e)
    (hrun : run step s ((a, .connectUsingParams params wantsError) :: es) = some t) :
    ∃ entries, t.logOf a = s.logOf a ++ entries ∧
      ∀ trial ∈ (History.of entries).finished (t.objects a), ∀ ual, trial.Fails ual →
        (trial.Justified ual ↔ Consistent object.delegate.requestPassword (params.requestPassword || trial.later) ual) := by
  let asks := object.delegate.requestPassword
  let flag := params.requestPassword
  have hseen : Seen (trials asks flag) (Between asks flag) (fun _ => Ended asks flag)
      (fun v => ∀ trial ∈ v.past, trial.Settled asks flag) a .start s t := by
    refine run_connect (fun _ _ h => iteration_trials h) (fun _ _ _ => trivial) ?_ hidle hcontinues hrun ?_ ?_ ?_
    · intro v c r hpast hallows
      cases c with
      | attempt =>
        intro trial hmem
        obtain hmem | hmem := List.mem_append.mp hmem
        · exact hpast trial hmem
        · exact hallows trial (Option.mem_toList.mp hmem)
      | _ => exact hpast
    · exact fun _ _ hmem => nomatch hmem
    · exact fun _ => ⟨rfl, (Bool.or_false _).symm, fun _ hmem => nomatch hmem⟩
    · exact fun _ hmem => nomatch hmem
  obtain ⟨entries, hlog, hfollows, hpast⟩ := hseen
  refine ⟨entries, hlog, fun trial hmem => ?_⟩
  change trial.Settled asks flag
  unfold History.finished at hmem
  split at hmem
  · rename_i object' ok hphase
    rw [hphase] at hfollows
    obtain hmem | hmem := List.mem_append.mp hmem
    · exact hpast trial hmem
    · exact hfollows trial (Option.mem_toList.mp hmem)
  · exact hpast trial hmem

/-- A server that rejects every password, and a delegate that has no other. -/
def declining : (c : SessionCall) → c.Reply
  | .userauthPassword _ _ => -18
  | c => accepting 5 c

theorem prompt_justified_iff_declining :
    ∃ t entries,
      run step (start fun _ => fullDelegate)
        (calls ⟨some "host", 22, some "user", some "secret", none, none, none, false, false⟩ declining 17) = some t ∧
      t.logOf () = entries ∧
      ∀ trial ∈ (History.of entries).finished (t.objects ()), ∀ ual, trial.Fails ual →
        (trial.Justified ual ↔ Consistent true (false || trial.later) ual) := by
  have hended : (run step (start fun _ => fullDelegate)
      (calls ⟨some "host", 22, some "user", some "secret", none, none, none, false, false⟩ declining 17)).map
        (fun t => ((t.objects ()).ended.map Prod.snd)) = some (some (.connect false)) := by
    decide +kernel
  obtain ⟨t, hrun, -⟩ := Option.map_eq_some_iff.mp hended
  obtain ⟨entries, hlog, htrials⟩ :=
    prompt_justified_iff (s := start fun _ => fullDelegate) rfl (by simp [Continues]) hrun
  exact ⟨t, entries, hrun, hlog, htrials⟩

/-- A server that takes keys only, and rejects the user's. -/
def keyOnly : (c : SessionCall) → c.Reply
  | .userauthList _ _ => some (utf8 "publickey")
  | .userauthPublickeyFromfile _ _ _ _ => -18
  | c => accepting 5 c

/-- An earlier call has left the flag set, and the delegate is asked for a password that
no method uses. -/
theorem stale_flag_prompts :
    ¬ ∀ (s t : Process Unit) (object : MPSshSession) (returned : Option Return) (params : MPConnectionParams)
      (wantsError : Bool) (es : List (Unit × SessionEvent)) (entries : List Entry),
      s.objects () = .idle object returned → object.delegate.requestPassword = true → (∀ e ∈ es, Continues () e) →
      run step s (((), .connectUsingParams params wantsError) :: es) = some t → t.logOf () = s.logOf () ++ entries →
      ∀ trial ∈ (History.of entries).finished (t.objects ()), ∀ ual, trial.Fails ual → trial.Justified ual := by
  intro halways
  have hstate : (run step (start fun _ => fullDelegate)
      (calls ⟨some "host", 22, some "user", some "secret", none, some "key", none, true, false⟩ keyOnly 17)).map
        (fun t => ((t.objects ()).ended.map Prod.snd, (History.of (t.logOf ())).current)) =
      some (some (.connect false), some ⟨false, some (utf8 "publickey"), [(.publickey, -18)], true⟩) := by
    decide +kernel
  obtain ⟨t, hrun, ht⟩ := Option.map_eq_some_iff.mp hstate
  obtain ⟨hended, hcurrent⟩ := Prod.mk.inj ht
  obtain ⟨⟨object, returned⟩, hobject, rfl⟩ := Option.map_eq_some_iff.mp hended
  have hjustified := halways _ t _ _ _ _ _ (t.logOf ()) rfl rfl (by simp [Continues]) hrun rfl
    ⟨false, some (utf8 "publickey"), [(.publickey, -18)], true⟩
    (by simp [Phase.idle_of_ended hobject, History.finished, hcurrent]) (utf8 "publickey") ⟨rfl, by simp⟩
  simp [Trial.Justified, Trial.Rejected] at hjustified

end Process

end MPSsh.MPSshSession

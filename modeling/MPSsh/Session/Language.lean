import MPSsh.Session.Acceptance
import MPSsh.Session.Loop

namespace MPSsh.MPSshSession

open Interaction Method Schedule

/-- What a call of `connectUsingParams:error:` has told and has been told: its attempts,
the passwords the delegate has answered, the states the delegate has been notified of,
the password of every authentication with the number of its attempt, and how far the
last attempt has come. -/
structure Story where
  attempts : Nat
  answers : List String
  states : List MPSshSessionState
  used : List (Nat × Option (List UInt8))
  opened : Bool
  started : Bool

namespace Story

def start : Story where
  attempts := 0
  answers := []
  states := []
  used := []
  opened := false
  started := false

def next (v : Story) : (c : SessionCall) → c.Reply → Story
  | .attempt, _ => { v with attempts := v.attempts + 1, opened := false, started := false }
  | .connectSocket _, .connected _ => { v with opened := true }
  | .startup _, rc => { v with started := rc = 0 }
  | .userauthPassword _ password, _ => { v with used := v.used ++ [(v.attempts, password)] }
  | .userauthKeyboardInteractive _ ppwwdd, _ => { v with used := v.used ++ [(v.attempts, ppwwdd.map utf8)] }
  | .didChangeState state, _ => { v with states := v.states ++ [state] }
  | .requestPassword, some pwd => { v with answers := v.answers ++ [pwd] }
  | _, _ => v

/-- The first attempt uses the initial password, and attempt `i + 1` the answer `i`. -/
def UsesInOrder (initial : String) (v : Story) : Prop :=
  ∀ use ∈ v.used, ∃ i pwd, use = (i + 1, some (utf8 pwd)) ∧ (initial :: v.answers)[i]? = some pwd

/-- The notifications of the last attempt of a call that returns NO. -/
def lastStates (v : Story) : List MPSshSessionState :=
  if v.started then [.connected, .established] else if v.opened then [.connected] else []

end Story

/-- The notifications of a number of attempts that reach the fingerprint. -/
def rounds (n : Nat) : List MPSshSessionState :=
  (List.replicate n [.connected, .established]).flatten

/-- What a call that returns `ok` has told. -/
structure Language (initial : String) (ok : Bool) (v : Story) : Prop where
  attempts : v.attempts = v.answers.length + 1
  used : v.UsesInOrder initial
  states : v.states =
    if ok then rounds v.attempts ++ [.authenticated] else rounds (v.attempts - 1) ++ v.lastStates

def story : Monitor SessionCall SessionCall.Reply Story where
  allows _ _ := True
  expects _ _ _ := True
  next := Story.next

theorem story_silent (c : SessionCall) (hc : isSilent c = true) : Ignores story c := by
  refine ⟨fun _ => trivial, fun v r => ?_⟩
  cases c <;> first | rfl | cases hc

theorem rounds_succ (n : Nat) : rounds (n + 1) = rounds n ++ [.connected, .established] := by
  simp [rounds, List.replicate_succ']

/-- The loop between two attempts. -/
structure Turn (initial : String) (s : Frame) (v : Story) : Prop where
  delegate : s.delegate.didChangeState = true
  attempts : v.attempts = v.answers.length
  used : v.UsesInOrder initial
  password : ∃ pwd, s.params.password = some pwd ∧ (initial :: v.answers)[v.attempts]? = some pwd
  states : v.states = rounds v.attempts

/-- An attempt of the loop that has notified of these states. -/
structure Stage (initial : String) (told : List MPSshSessionState) (opened started : Bool) (s : Frame) (v : Story) :
    Prop where
  delegate : s.delegate.didChangeState = true
  attempts : v.attempts = v.answers.length + 1
  used : v.UsesInOrder initial
  password : ∃ pwd, s.params.password = some pwd ∧ (initial :: v.answers)[v.answers.length]? = some pwd
  states : v.states = rounds v.answers.length ++ told
  opened : v.opened = opened
  started : v.started = started

section Attempt

variable {initial : String} {told : List MPSshSessionState} {opened started : Bool} {s : Frame} {v : Story}

theorem Stage.of_password (h : Stage initial told opened started s v) {s' : Frame} (hdelegate : s'.delegate = s.delegate)
    (hpassword : s'.params.password = s.params.password) : Stage initial told opened started s' v := by
  obtain ⟨hdidChange, hattempts, hused, hgiven, hstates, hopened, hstarted⟩ := h
  rw [← hpassword] at hgiven
  exact ⟨by rw [hdelegate, hdidChange], hattempts, hused, hgiven, hstates, hopened, hstarted⟩

theorem stage_framed : Framed (Stage initial told opened started) :=
  fun _ _ _ _ hdelegate hparams h => h.of_password hdelegate (congrArg MPConnectionParams.password hparams)

/-- An authentication with the password of the parameters. -/
theorem Stage.use (h : Stage initial told opened started s v) :
    Stage initial told opened started s { v with used := v.used ++ [(v.attempts, s.params.password.map utf8)] } := by
  obtain ⟨hdelegate, hattempts, hused, ⟨pwd, hpwd, hanswer⟩, hstates, hopened, hstarted⟩ := h
  refine ⟨hdelegate, hattempts, ?_, ⟨pwd, hpwd, hanswer⟩, hstates, hopened, hstarted⟩
  intro use hmem
  obtain hold | hnew := List.mem_append.mp hmem
  · exact hused use hold
  · obtain rfl := List.mem_singleton.mp hnew
    exact ⟨v.answers.length, pwd, by rw [hattempts, hpwd]; rfl, hanswer⟩

theorem notify_story (h : Stage initial told opened started s v) (state : MPSshSessionState)
    {Q : Outcome Unit → Frame → Story → Prop}
    (hpost : ∀ v', Stage initial (told ++ [state]) opened started s v' → Q (.returns ()) s v') :
    Sat story (notify state) Q s v := by
  unfold notify
  rw [sat_bind, sat_get, andThen_returns, if_pos h.delegate]
  refine sat_call.mpr ⟨trivial, fun _ _ => hpost { v with states := v.states ++ [state] } ?_⟩
  obtain ⟨hdelegate, hattempts, hused, hpassword, hstates, hopened, hstarted⟩ := h
  exact ⟨hdelegate, hattempts, hused, hpassword, by rw [hstates, List.append_assoc], hopened, hstarted⟩

theorem userauthList_story : Maintains story (Stage initial told opened started) userauthList := by
  unfold userauthList
  apply maintains_toSession
  intro session
  apply maintains_bind maintains_get
  intro s
  apply maintains_bind
  · unfold MPLSSession.userauthListWithUser
    refine maintains_ite ?_ (maintains_pure session)
    apply maintains_bind
    · exact maintains_perform (fun _ => trivial) fun _ _ _ h => h
    · intro ual
      cases ual with
      | none => exact maintains_raise
      | some ual => exact maintains_pure _
  · exact fun _ => maintains_modify fun _ _ h => h.of_password rfl rfl

theorem authenticateWithParams_story : Maintains story (Stage initial told opened started) authenticateWithParams := by
  apply authenticateWithParams_maintains stage_framed story_silent userauthList_story
  · exact authenticate_maintains stage_framed story_silent fun _ _ h => sat_call.mpr ⟨trivial, fun _ _ => h⟩
  · exact authenticate_maintains stage_framed story_silent fun _ _ h => sat_call.mpr ⟨trivial, fun _ _ => h.use⟩
  · exact authenticate_maintains stage_framed story_silent fun _ _ h => sat_call.mpr ⟨trivial, fun _ _ => h.use⟩
  · exact fun _ _ _ _ h => h.of_password rfl rfl

theorem createSocket_story {Q : Bool → Frame → Story → Prop} (h : Stage initial [] false false s v)
    (hcreated : ∀ s' v', Stage initial [] true false s' v' → Q true s' v')
    (hfailed : ∀ s' v', Stage initial [] false false s' v' → Q false s' v') :
    Sat story createSocket (Returning Q) s v := by
  unfold createSocket
  rw [sat_bind, sat_modify, andThen_returns, sat_bind, sat_get, andThen_returns]
  replace h : Stage initial [] false false { s with sock := -1 } v := h.of_password rfl rfl
  have hfill (msg : String) : Sat story (do
      fillError 100 msg
      return false) (Returning Q) { s with sock := -1 } v :=
    (fillError_maintains stage_framed).andThen_returning h (fun _ s' v' h' => hfailed s' v' h')
  rw [sat_bind]
  refine sat_call.mpr ⟨trivial, fun resolution _ => ?_⟩
  rw [andThen_returns]
  split
  · trivial
  · exact hfill "unable to resolve address"
  · rw [sat_bind]
    refine sat_call.mpr ⟨trivial, fun result _ => ?_⟩
    rw [andThen_returns]
    cases result with
    | error => exact hfill "failed to connect"
    | timeout => exact hfill "connection timeout"
    | connected descriptor =>
      obtain ⟨hdelegate, hattempts, hused, hpassword, hstates, -, hstarted⟩ := h
      exact hcreated _ _ ⟨hdelegate, hattempts, hused, hpassword, hstates, rfl, hstarted⟩

/-- How an attempt ends. -/
def AttemptEnd (initial : String) : AttemptResult → Frame → Story → Prop
  | .retry, s, v => Turn initial s v
  | .failed, _, v => Language initial false v
  | .succeeded, s, v => Stage initial [.connected, .established] true true s v

theorem Stage.failed (h : Stage initial told opened started s v)
    (htold : told = if started then [.connected, .established] else if opened then [.connected] else []) :
    Language initial false v := by
  obtain ⟨-, hattempts, hused, -, hstates, rfl, rfl⟩ := h
  refine ⟨hattempts, hused, ?_⟩
  rw [hstates, htold, hattempts, Nat.add_sub_cancel]
  rfl

/-- The delegate's answer is the password of the next attempt. -/
theorem requestRetry_story (h : Stage initial [.connected, .established] true true s v) :
    Sat story requestRetry (Returning (AttemptEnd initial)) s v := by
  unfold requestRetry
  rw [sat_bind, sat_get, andThen_returns]
  split
  · rw [sat_bind]
    refine sat_call.mpr ⟨trivial, fun answer _ => ?_⟩
    rw [andThen_returns]
    cases answer with
    | none => exact h.failed rfl
    | some pwd =>
      let P (s : Frame) (v : Story) := Turn initial { s with params := { s.params with password := some pwd } } v
      have hframed : Framed P := by
        rintro s s' v - hdelegate hparams ⟨hdidChange, hattempts, hused, hpassword, hstates⟩
        exact ⟨by rw [hdelegate]; exact hdidChange, hattempts, hused, hpassword, hstates⟩
      have hturn : P s { v with answers := v.answers ++ [pwd] } := by
        obtain ⟨hdelegate, hattempts, hused, -, hstates, -, -⟩ := h
        refine ⟨hdelegate, by simp [hattempts], ?_, ⟨pwd, rfl, ?_⟩, ?_⟩
        · intro use hmem
          obtain ⟨i, old, huse, hold⟩ := hused use hmem
          refine ⟨i, old, huse, ?_⟩
          rw [← List.cons_append, List.getElem?_append_left (List.getElem?_eq_some_iff.mp hold).1]
          exact hold
        · simp [hattempts]
        · rw [hstates, hattempts, rounds_succ]
      exact (shutdown_maintains hframed story_silent).andThen_returning hturn (fun _ _ _ h' => h')
  · exact h.failed rfl

theorem established_story (h : Stage initial [.connected] true true s v) :
    Sat story established (Returning (AttemptEnd initial)) s v := by
  unfold established
  rw [sat_bind]
  refine notify_story h .established fun v₁ h₁ => ?_
  refine (manageFingerprint_maintains stage_framed story_silent).andThen_returning h₁ ?_
  intro accepted s₂ v₂ h₂
  cases accepted with
  | false => exact h₂.failed rfl
  | true =>
    refine authenticateWithParams_story.andThen_returning h₂ ?_
    intro auth s₃ v₃ h₃
    cases auth with
    | false => exact requestRetry_story h₃
    | true => exact h₃

theorem openSession_story (h : Stage initial [] true false s v) :
    Sat story openSession (Returning (AttemptEnd initial)) s v := by
  unfold openSession
  rw [sat_bind]
  refine notify_story h .connected fun v₁ h₁ => ?_
  rw [andThen_returns]
  refine (maintains_bind (silent_maintains story_silent rfl) fun _ => maintains_pure _).andThen_returning h₁ ?_
  intro session s₂ v₂ h₂
  rw [sat_bind, sat_modify, andThen_returns]
  replace h₂ : Stage initial [.connected] true false { s₂ with session := some session } v₂ := h₂.of_password rfl rfl
  refine (silent_maintains story_silent rfl).andThen_returning h₂ ?_
  intro _ s₃ v₃ h₃
  rw [sat_bind, sat_get, andThen_returns, sat_bind]
  refine sat_call.mpr ⟨trivial, fun rc _ => ?_⟩
  rw [andThen_returns]
  obtain ⟨hdelegate, hattempts, hused, hpassword, hstates, hopened, -⟩ := h₃
  have hstage (started : Bool) (hrc : decide (rc = 0) = started) :
      Stage initial [.connected] true started s₃ (story.next v₃ (.startup s₃.sock) rc) :=
    ⟨hdelegate, hattempts, hused, hpassword, hstates, hopened, hrc⟩
  split
  · rename_i hrc
    have h₄ := hstage false (decide_eq_false hrc)
    exact startupFailed_returning stage_framed story_silent h₄ fun _ _ h₅ => h₅.failed rfl
  · rename_i hrc
    exact established_story (hstage true (decide_eq_true (not_not.mp hrc)))

theorem attempt_story (h : Turn initial s v) : Sat story attempt (Returning (AttemptEnd initial)) s v := by
  unfold attempt
  rw [sat_bind]
  refine sat_call.mpr ⟨trivial, fun _ _ => ?_⟩
  rw [andThen_returns]
  obtain ⟨hdelegate, hattempts, hused, hpassword, hstates⟩ := h
  rw [hattempts] at hpassword hstates
  have hstage : Stage initial [] false false s
      { v with attempts := v.attempts + 1, opened := false, started := false } :=
    ⟨hdelegate, by rw [hattempts], hused, hpassword, by rw [hstates, List.append_nil], rfl, rfl⟩
  apply sat_bind_returning
  apply createSocket_story hstage
  · exact fun _ _ h₁ => openSession_story h₁
  · exact fun _ _ h₁ => h₁.failed rfl

theorem iteration_story (h : Turn initial s v) :
    Sat story iteration (Returning (LoopPost (Turn initial) (Language initial))) s v := by
  unfold iteration
  apply sat_bind_returning
  apply (attempt_story h).mono
  rintro (result | _ | _) s₁ v₁ h₁
  · cases result with
    | retry | failed => exact h₁
    | succeeded =>
      change Sat story (do
        authenticated
        return AttemptResult.succeeded) _ s₁ v₁
      unfold authenticated
      rw [sat_bind, sat_bind]
      refine notify_story h₁ .authenticated fun v₂ h₂ => ?_
      obtain ⟨-, hattempts, hused, -, hstates, -, -⟩ := h₂
      have hlanguage : Language initial true v₂ := by
        refine ⟨hattempts, hused, ?_⟩
        rw [if_pos rfl, hattempts, rounds_succ, hstates, List.append_assoc]
      rw [andThen_returns, sat_bind, sat_modify, andThen_returns]
      exact sat_call.mpr ⟨trivial, fun _ _ => hlanguage⟩
  · trivial
  · trivial

end Attempt

namespace Process

variable {ι : Type} [DecidableEq ι]

/-- For every call of `connectUsingParams:error:` on an object that is not connected and
whose delegate is notified, with a parameters object that no other call uses meanwhile
and any answers of the library and of the delegate: if no method of the object is called
during the call and the call returns, then it has made one attempt more than it has been
given passwords, each attempt has used the password given last, and the notifications
are those of its attempts. -/
theorem connect_language {s t : Process ι} {a : ι} {object object' : MPSshSession} {returned : Option Return}
    {params : MPConnectionParams} {wantsError ok : Bool} {es : List (ι × SessionEvent)}
    (hidle : s.objects a = .idle object returned) (hconnected : object.connected = false)
    (hnotified : object.delegate.didChangeState = true) (hcontinues : ∀ e ∈ es, Continues a e)
    (hrun : run step s ((a, .connectUsingParams params wantsError) :: es) = some t)
    (hreturns : t.objects a = .idle object' (some (.connect ok))) :
    ∃ entries, t.logOf a = s.logOf a ++ entries ∧
      Language (params.password.getD "") ok (observe story .start entries) := by
  have hstart : Turn (params.password.getD "")
      { toMPSshSession := object, params := defaults params, wantsError, error := none } .start :=
    ⟨hnotified, rfl, by simp [Story.UsesInOrder, Story.start], ⟨_, rfl, rfl⟩, rfl⟩
  have hseen : Seen story (Turn _) (Language _) (fun _ => True) a .start s t :=
    run_connect (fun _ _ h => iteration_story h) (fun _ _ _ => trivial) (fun _ _ _ _ _ => trivial) hidle hcontinues hrun
      (by simp [hconnected]) (fun _ => hstart) trivial
  obtain ⟨entries, hlog, hfollows, -⟩ := hseen
  rw [hreturns] at hfollows
  exact ⟨entries, hlog, hfollows⟩

/-- The server rejects every password but the one that the delegate answers. -/
def insisting : (c : SessionCall) → c.Reply
  | .userauthPassword _ password => if password = some (utf8 "other") then 0 else -18
  | .requestPassword => some "other"
  | c => accepting 5 c

theorem connect_language_insisting :
    ∃ t object' entries,
      run step (start fun _ => fullDelegate)
        (calls ⟨some "host", 22, some "user", some "secret", none, none, none, false, false⟩ insisting 34) = some t ∧
      t.objects () = .idle object' (some (.connect true)) ∧ t.logOf () = entries ∧
      Language "secret" true (observe story .start entries) := by
  have hended : (run step (start fun _ => fullDelegate)
      (calls ⟨some "host", 22, some "user", some "secret", none, none, none, false, false⟩ insisting 34)).map
        (fun t => ((t.objects ()).ended.map Prod.snd)) = some (some (.connect true)) := by
    decide +kernel
  obtain ⟨t, hrun, ht⟩ := Option.map_eq_some_iff.mp hended
  obtain ⟨⟨object', returned⟩, hobject, rfl⟩ := Option.map_eq_some_iff.mp ht
  have hreturns := Phase.idle_of_ended hobject
  obtain ⟨entries, hlog, hlanguage⟩ :=
    connect_language (s := start fun _ => fullDelegate) rfl rfl rfl (by simp [Continues]) hrun hreturns
  exact ⟨t, object', entries, hrun, hreturns, hlog, hlanguage⟩

end Process

end MPSsh.MPSshSession

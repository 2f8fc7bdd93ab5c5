import MPSsh.Session.Objects

open Schedule

namespace MPSsh.MPSshSession

namespace Process

variable {ι : Type} [DecidableEq ι]

/-- A userauth call is made on the session of the object's current attempt, whose
fingerprint the delegate has accepted. -/
def AcceptedFirst (s : Process ι) (e : ι × SessionEvent) : Prop :=
  ∀ c, (s.objects e.1).nextCall = some c → c.isUserauth = true →
    (s.progress e.1).current = s.session ∧ (s.progress e.1).Shown true

/-- Between two calls an object is connected only if its last attempt has started the
current session on the current socket, has had the fingerprint accepted and has
authenticated the user, with no shutdown since. -/
def ConnectedByAttempt (s : Process ι) : Prop :=
  ∀ a object returned, s.objects a = .idle object returned → object.connected = true →
    (s.progress a).current = s.session ∧ Connected object (s.progress a)

theorem current_next (v : Progress) (handle : Option SessionHandle) (c : SessionCall) (r : c.Reply) :
    (v.next handle c r).current = sessionAfter v.current c r := by
  cases c with
  | connectSocket => cases r <;> rfl
  | startup | hostkeyHash =>
    simp only [Progress.next, Progress.onSession]
    split <;> rfl
  | userauthPublickeyFromfile | userauthPassword | userauthKeyboardInteractive =>
    simp only [Progress.next, Progress.onSession, Progress.authenticatedBy]
    split
    · split <;> rfl
    · rfl
  | _ => rfl

/-- The only object of a process, over the file-scope variable. -/
structure AloneInv (delegate : Unit → Delegate) (s : Process Unit) : Prop extends ObjectsInv delegate s where
  session : (s.progress ()).current = s.session

theorem start_aloneInv (delegate : Unit → Delegate) : AloneInv delegate (start delegate) :=
  ⟨start_objectsInv delegate, rfl⟩

/-- What a step of the only object does to the file-scope variable. -/
theorem step_session {s t : Process ι} {e : ι × SessionEvent} (hstep : step s e = some t) :
    (t.session = s.session ∧ t.log = s.log) ∨ ∃ c r phase, (s.objects e.1).nextCall = some c ∧ t = s.record e.1 c r phase := by
  obtain ⟨a, event⟩ := e
  cases step_moves hstep with
  | connect | shutdown => exact Or.inl ⟨rfl, rfl⟩
  | connecting answer hphase | shuttingDown answer hphase =>
    exact Or.inr ⟨_, _, _, by simp [hphase, Phase.nextCall], rfl⟩

theorem step_aloneInv {delegate : Unit → Delegate} (hdelegate : (delegate ()).fingerprint = true) {s t : Process Unit}
    {e : Unit × SessionEvent} (hinv : AloneInv delegate s) (hstep : step s e = some t) : AloneInv delegate t := by
  have hown : s.OnOwnSession e := fun _ _ _ => hinv.session.symm
  refine ⟨step_objectsInv (fun _ => hdelegate) hinv.toObjectsInv hown hstep, ?_⟩
  obtain ⟨hsession, hlog⟩ | ⟨c, r, phase, hnext, rfl⟩ := step_session hstep
  · have hsame : t.progress () = s.progress () := by simp [progress, logOf, hlog]
    rw [hsame, hsession]
    exact hinv.session
  · rw [progress_record_self s () c r phase (hown c hnext), current_next, hinv.session]
    rfl

theorem userauth_shown {delegate : Delegate} {v : Progress} {phase : Phase} {c : SessionCall}
    (hphase : PhaseInv delegate v phase) (hnext : phase.nextCall = some c) (huserauth : c.isUserauth = true) :
    v.Shown true := by
  obtain hallows | hallows := nextCall_allowed hphase hnext
  · cases c with
    | userauthList | userauthPublickeyFromfile | userauthPassword | userauthKeyboardInteractive => exact hallows
    | _ => simp [SessionCall.isUserauth] at huserauth
  · cases c with
    | userauthList | userauthPublickeyFromfile | userauthPassword | userauthKeyboardInteractive => cases hallows
    | _ => simp [SessionCall.isUserauth] at huserauth

/-- For the only session object of a process, whose delegate is asked about
fingerprints, and for every run of its methods: no credential is sent before the
fingerprint of the session is accepted, and the object is connected only by an
attempt that has authenticated the user. -/
theorem credentials_after_acceptance {delegate : Unit → Delegate} (hdelegate : (delegate ()).fingerprint = true)
    (es : List (Unit × SessionEvent)) :
    Along step (fun s e t => AcceptedFirst s e ∧ ConnectedByAttempt t) (start delegate) es := by
  refine Along.of_preserved (AloneInv delegate) ?_ (start_aloneInv delegate) es
  intro s e t hinv hstep
  have hnext := step_aloneInv hdelegate hinv hstep
  refine ⟨⟨?_, ?_⟩, hnext⟩
  · intro c hc huserauth
    exact ⟨hinv.session, userauth_shown (hinv.phase _) hc huserauth⟩
  · intro a object returned hidle hconnected
    have hphase := hnext.phase a
    rw [hidle] at hphase
    exact ⟨hnext.session, hphase.connected hconnected⟩

/-- A delegate that implements everything. -/
def fullDelegate : Delegate where
  didChangeState := true
  fingerprint := true
  requestPassword := true

/-- A server that accepts the password, and a delegate that accepts its key. The
socket and the session are new ones. -/
def accepting (fresh : Nat) : (c : SessionCall) → c.Reply
  | .resolve _ => ⟨true, some [some (some (utf8 "10.0.0.1"))], ⟨List.replicate 46 0, rfl⟩⟩
  | .connectSocket _ => .connected fresh
  | .sessionInit => fresh
  | .startup _ => 0
  | .hostkeyHash _ => some ⟨List.replicate 20 0, rfl⟩
  | .lastError => some []
  | .userauthList _ _ => some (utf8 "password")
  | .userauthPublickeyFromfile _ _ _ _ => 0
  | .userauthPassword _ _ => 0
  | .userauthKeyboardInteractive _ _ => 0
  | .fingerprint _ => true
  | .requestPassword => none
  | .attempt | .shutdown | .close _ | .trace | .disconnect _ | .setBlocking _ | .didChangeState _ | .NSLog _ => ()

/-- A call of `connectUsingParams:error:`, with its first calls answered. -/
def connects (a : ι) (fresh calls : Nat) : List (ι × SessionEvent) :=
  (a, .connectUsingParams ⟨some "host", 22, some "user", some "secret", none, none, none, false, false⟩ true) ::
    List.replicate calls (a, .reply (accepting fresh))

/-- A call of `connectUsingParams:error:` whose first calls are all answered in this way. -/
def calls (params : MPConnectionParams) (answer : (c : SessionCall) → c.Reply) (n : Nat) : List (Unit × SessionEvent) :=
  ((), .connectUsingParams params true) :: List.replicate n ((), .reply answer)

theorem credentials_after_acceptance_connects :
    Along step (fun s e t => AcceptedFirst s e ∧ ConnectedByAttempt t) (start fun _ => fullDelegate)
      (connects () 5 14) :=
  credentials_after_acceptance rfl (connects () 5 14)

end Process

end MPSsh.MPSshSession

import MPSsh.Session.Acceptance

open Schedule

namespace MPSsh.MPSshSession

open Interaction Method

/-- What the calls of an object say about its sockets: the descriptors that it has
acquired and not closed yet, and whether the library has failed to start its
last session. -/
structure Sockets where
  opened : List Int
  unstarted : Bool

namespace Sockets

def start : Sockets where
  opened := []
  unstarted := false

def next (v : Sockets) : (c : SessionCall) → c.Reply → Sockets
  | .connectSocket _, .connected descriptor => { v with opened := (descriptor : Int) :: v.opened }
  | .close fd, _ => { v with opened := v.opened.erase fd }
  | .startup _, rc => { v with unstarted := rc ≠ 0 }
  | _, _ => v

/-- A session that could not be started has left no text of its error, and no other
password is offered when the user could not be authenticated. -/
def Expected (v : Sockets) : (c : SessionCall) → c.Reply → Prop
  | .lastError, err_msg => v.unstarted = true → err_msg = none
  | .requestPassword, pwd => pwd = none
  | _, _ => True

end Sockets

/-- Only open descriptors are closed. -/
def owning : Monitor SessionCall SessionCall.Reply Sockets where
  allows v
    | .close fd => fd ∈ v.opened
    | _ => True
  expects v := v.Expected
  next v := v.next

/-- The object holds its socket, and no other descriptor is open. -/
structure Holds (object : MPSshSession) (v : Sockets) : Prop where
  set : object.sock ≠ -1
  only : v.opened = [object.sock]

theorem Holds.of_sock {object object' : MPSshSession} {v : Sockets} (hholds : Holds object v)
    (hsock : object'.sock = object.sock) : Holds object' v :=
  ⟨hsock ▸ hholds.set, hsock ▸ hholds.only⟩

/-- A method that opens and closes nothing and leaves the socket alone. -/
abbrev KeepsSocket {α : Type} (m : SessionMethod α) : Prop :=
  Keeps owning (fun s : Frame => s.sock) m

/-- The calls that say nothing about the sockets. -/
def isUnrelated : SessionCall → Bool
  | .connectSocket _ | .close _ | .startup _ => false
  | _ => true

theorem owning_ignores {c : SessionCall} (hc : isUnrelated c = true) : Ignores owning c := by
  constructor
  · intro v
    cases c with
    | close fd => cases hc
    | _ => trivial
  · intro v r
    cases c with
    | connectSocket | close | startup => cases hc
    | _ => rfl

theorem keeps_unrelated {c : SessionCall} (hc : isUnrelated c = true) : KeepsSocket (call c) :=
  keeps_perform (owning_ignores hc)

theorem fillError_keeps {code : Int} {msg : String} : KeepsSocket (fillError code msg) :=
  fun _ _ _ hpost => fillError_sat fun _ hagrees => hpost _ _ hagrees.sock

theorem notify_keeps {state : MPSshSessionState} : KeepsSocket (notify state) :=
  fun _ _ _ hpost => notify_sat (owning_ignores rfl) (hpost _ _ rfl)

theorem init_keeps : KeepsSocket MPLSSession.init :=
  keeps_bind (keeps_unrelated rfl) fun _ => keeps_pure _

theorem lastError_keeps : KeepsSocket lastError :=
  fun _ _ _ hpost => lastError_sat (owning_ignores rfl) (fun _ => hpost _ _ rfl) (hpost _ _ rfl)

theorem hostkeyHash_keeps {type : Int} : KeepsSocket (MPLSSession.hostkeyHash type) := by
  apply keeps_bind (keeps_unrelated rfl)
  intro ret
  cases ret with
  | none => exact keeps_crash
  | some hash => exact keeps_pure _

theorem userauthList_keeps : KeepsSocket userauthList := by
  apply keeps_toSession
  intro session
  apply keeps_bind keeps_get
  intro s
  apply keeps_bind
  · apply keeps_ite
    · apply keeps_bind (keeps_unrelated rfl)
      intro ual
      cases ual with
      | none => exact keeps_raise
      | some text => exact keeps_pure _
    · exact keeps_pure _
  · exact fun session => keeps_modify fun s => rfl

theorem sessionAllows_keeps {allows : MPLSSession → Bool} : KeepsSocket (sessionAllows allows) :=
  fun _ _ _ hpost => sessionAllows_sat fun _ => hpost _ _ rfl

theorem authenticate_keeps {method : MPConnectionParams → SessionMethod Int} {failure : String}
    (hmethod : ∀ params, KeepsSocket (method params)) : KeepsSocket (authenticate method failure) := by
  apply keeps_bind
  · apply keeps_toSession
    exact fun session => keeps_bind keeps_get fun s => hmethod _
  · intro rc
    apply keeps_ite
    · apply keeps_bind lastError_keeps
      exact fun text => keeps_bind fillError_keeps fun _ => keeps_pure _
    · exact keeps_pure _

theorem tryMethod_keeps {wanted auth : Bool} {method : SessionMethod Bool}
    {flag : Bool → MPConnectionParams → MPConnectionParams} (hmethod : KeepsSocket method) :
    KeepsSocket (tryMethod wanted auth method flag) := by
  apply keeps_ite
  · apply keeps_bind hmethod
    exact fun auth => keeps_bind (keeps_modify fun s => rfl) fun _ => keeps_pure _
  · exact keeps_pure _

theorem authenticateWithPublickKey_keeps : KeepsSocket authenticateWithPublickKey :=
  authenticate_keeps fun _ => keeps_unrelated rfl

theorem authenticateWithPassword_keeps : KeepsSocket authenticateWithPassword :=
  authenticate_keeps fun _ => keeps_unrelated rfl

theorem authenticateWithKeyboard_keeps : KeepsSocket authenticateWithKeyboard :=
  authenticate_keeps fun _ => keeps_unrelated rfl

theorem reportUntried_keeps {tryed : Bool} : KeepsSocket (concludeAuthentication.reportUntried tryed) :=
  keeps_ite (keeps_pure _) fillError_keeps

theorem authenticated_keeps : KeepsSocket authenticated := by
  apply keeps_bind notify_keeps
  intro _
  apply keeps_bind
  · exact keeps_modify fun s => rfl
  · exact fun _ => keeps_unrelated rfl

section Methods

variable {s : Frame} {v : Sockets}

/-- What follows a method that keeps the socket of an object that holds it. -/
theorem Holds.andThen {α β : Type} {m : SessionMethod β} {f : β → SessionMethod α}
    {Q : Outcome α → Frame → Sockets → Prop} (hholds : Holds s.toMPSshSession v) (hkeeps : KeepsSocket m)
    (hreturns : ∀ b s', Holds s'.toMPSshSession v → Sat owning (f b) Q s' v)
    (hends : ∀ s', Holds s'.toMPSshSession v → Q .raised s' v ∧ Q .crashed s' v) :
    Sat owning (m >>= f) Q s v := by
  apply hkeeps.andThen
  · exact fun b s' hsock => hreturns b s' (hholds.of_sock hsock)
  · exact fun s' hsock => hends s' (hholds.of_sock hsock)

/-- A shutdown of an object that holds its socket, or has none, leaves nothing open. -/
theorem shutdown_owning {Q : Outcome Unit → Frame → Sockets → Prop}
    (howns : s.sock = -1 ∧ v.opened = [] ∨ Holds s.toMPSshSession v)
    (hpost : ∀ s' v', v'.opened = [] → Q (.returns ()) s' v') : Sat owning shutdown Q s v := by
  have hclose : Sat owning (do
      closeSocket
      modify fun s => { s with connected := false }) Q s v := by
    unfold closeSocket
    rw [sat_bind, sat_bind, sat_get, andThen_returns]
    obtain ⟨hsock, hnone⟩ | hholds := howns
    · rw [if_neg (not_not.mpr hsock)]
      exact hpost _ _ hnone
    · rw [if_pos hholds.set]
      have hopened := hholds.only
      refine sat_call.mpr ⟨?_, fun _ _ => ?_⟩
      · simp [owning, hopened]
      · apply hpost
        simp [owning, Sockets.next, hopened]
  unfold shutdown
  rw [sat_bind]
  apply sat_ignored (owning_ignores rfl)
  intro _
  rw [andThen_returns, sat_bind]
  unfold disconnect
  cases hsession : s.session with
  | none =>
    rw [sat_toSession_nil hsession]
    exact hclose
  | some session =>
    rw [sat_toSession hsession]
    exact sat_ignored (owning_ignores rfl) fun _ => hclose

theorem createSocket_owning {Q : Outcome Bool → Frame → Sockets → Prop} (hnone : v.opened = [])
    (hconnected : ∀ s' v', Holds s'.toMPSshSession v' → Q (.returns true) s' v')
    (hfailed : ∀ s', Q (.returns false) s' v) (hraised : ∀ s', Q .raised s' v) :
    Sat owning createSocket Q s v := by
  unfold createSocket
  rw [sat_bind, sat_modify, andThen_returns, sat_bind, sat_get, andThen_returns, sat_bind]
  apply sat_ignored (owning_ignores rfl)
  intro resolution
  rw [andThen_returns]
  split
  · exact hraised _
  · rw [sat_bind]
    exact fillError_sat fun s' _ => hfailed s'
  · rw [sat_bind]
    refine sat_call.mpr ⟨trivial, fun result _ => ?_⟩
    rw [andThen_returns]
    cases result with
    | error | timeout =>
      rw [sat_bind]
      exact fillError_sat fun s' _ => hfailed s'
    | connected descriptor =>
      apply hconnected
      exact ⟨by simp, by simp [owning, Sockets.next, hnone]⟩

/-- A rejected fingerprint closes the socket. -/
theorem manageFingerprint_owning {Q : Outcome Bool → Frame → Sockets → Prop} (hholds : Holds s.toMPSshSession v)
    (haccepted : ∀ s', Holds s'.toMPSshSession v → Q (.returns true) s' v)
    (hrejected : ∀ s' v', v'.opened = [] → Q (.returns false) s' v')
    (hends : ∀ s', Holds s'.toMPSshSession v → Q .raised s' v ∧ Q .crashed s' v) :
    Sat owning manageFingerprint Q s v := by
  unfold manageFingerprint
  apply hholds.andThen (keeps_toSession fun _ => hostkeyHash_keeps) _ hends
  intro fingerprint s hholds
  rw [sat_bind, sat_get, andThen_returns]
  split
  · rw [sat_bind]
    apply sat_ignored (owning_ignores rfl)
    intro answer
    rw [andThen_returns]
    cases answer with
    | true => exact haccepted s hholds
    | false =>
      rw [if_neg (by simp), sat_bind]
      apply fillError_sat
      intro s' hagrees
      rw [andThen_returns, sat_bind]
      apply shutdown_owning
      · exact Or.inr (hholds.of_sock hagrees.sock)
      · exact hrejected
  · exact haccepted s hholds

/-- A failed authentication closes the socket. -/
theorem authenticateWithParams_owning {Q : Outcome Bool → Frame → Sockets → Prop} (hholds : Holds s.toMPSshSession v)
    (hauth : ∀ s', Holds s'.toMPSshSession v → Q (.returns true) s' v)
    (hfailed : ∀ s' v', v'.opened = [] → Q (.returns false) s' v')
    (hends : ∀ s', Holds s'.toMPSshSession v → Q .raised s' v ∧ Q .crashed s' v) :
    Sat owning authenticateWithParams Q s v := by
  unfold authenticateWithParams
  apply hholds.andThen userauthList_keeps _ hends
  intro _ s hholds
  apply hholds.andThen sessionAllows_keeps _ hends
  intro byKey s hholds
  apply hholds.andThen (tryMethod_keeps authenticateWithPublickKey_keeps) _ hends
  intro auth s hholds
  apply hholds.andThen sessionAllows_keeps _ hends
  intro byPassword s hholds
  apply hholds.andThen (tryMethod_keeps authenticateWithPassword_keeps) _ hends
  intro auth s hholds
  apply hholds.andThen sessionAllows_keeps _ hends
  intro byKeyboard s hholds
  apply hholds.andThen (tryMethod_keeps authenticateWithKeyboard_keeps) _ hends
  intro auth s hholds
  unfold concludeAuthentication
  apply hholds.andThen reportUntried_keeps _ hends
  intro _ s hholds
  split
  · exact hauth s hholds
  · rw [sat_bind]
    apply shutdown_owning
    · exact Or.inr hholds
    · exact hfailed

/-- How an iteration may end. After an exception the socket may still be open. -/
def EndsOwning (result : Outcome AttemptResult) (s : Frame) (v : Sockets) : Prop :=
  match result with
  | .returns .failed => v.opened = []
  | .returns .retry => False
  | .returns .succeeded => Holds s.toMPSshSession v
  | .raised => v.opened = [] ∨ Holds s.toMPSshSession v
  | .crashed => True

theorem Holds.ends (hholds : Holds s.toMPSshSession v) : EndsOwning .raised s v ∧ EndsOwning .crashed s v :=
  ⟨Or.inr hholds, trivial⟩

/-- No other password is offered, so the shutdown of a retry is not reached. -/
theorem requestRetry_owning (hnone : v.opened = []) : Sat owning requestRetry EndsOwning s v := by
  unfold requestRetry
  rw [sat_bind, sat_get, andThen_returns]
  split
  · rw [sat_bind]
    refine sat_call.mpr ⟨trivial, fun pwd hpwd => ?_⟩
    obtain rfl : pwd = none := hpwd
    exact hnone
  · exact hnone

/-- Without a text of the error an exception leaves the object with its socket. -/
theorem startupFailed_owning (hholds : Holds s.toMPSshSession v) (hunstarted : v.unstarted = true)
    (hsession : ∃ session, s.session = some session) : Sat owning startupFailed EndsOwning s v := by
  obtain ⟨session, hsome⟩ := hsession
  unfold startupFailed lastError
  rw [sat_bind, sat_toSession hsome]
  unfold MPLSSession.lastError
  rw [sat_bind]
  refine sat_call.mpr ⟨trivial, fun err_msg hexpected => ?_⟩
  obtain rfl : err_msg = none := hexpected hunstarted
  exact Or.inr hholds

theorem established_owning (hholds : Holds s.toMPSshSession v) : Sat owning established EndsOwning s v := by
  unfold established
  apply hholds.andThen notify_keeps _ fun s hholds => hholds.ends
  intro _ s hholds
  rw [sat_bind]
  apply manageFingerprint_owning hholds
  · intro s hholds
    rw [andThen_returns, if_pos rfl, sat_bind]
    apply authenticateWithParams_owning hholds
    · exact fun s hholds => hholds
    · exact fun s v hnone => requestRetry_owning hnone
    · exact fun s hholds => hholds.ends
  · exact fun s v hnone => hnone
  · exact fun s hholds => hholds.ends

theorem openSession_owning (hholds : Holds s.toMPSshSession v) : Sat owning openSession EndsOwning s v := by
  unfold openSession
  apply hholds.andThen notify_keeps _ fun s hholds => hholds.ends
  intro _ s hholds
  apply hholds.andThen init_keeps _ fun s hholds => hholds.ends
  intro session s hholds
  rw [sat_bind, sat_modify, andThen_returns, sat_bind]
  apply sat_ignored (owning_ignores rfl)
  intro _
  rw [andThen_returns, sat_bind, sat_get, andThen_returns, sat_bind]
  refine sat_call.mpr ⟨trivial, fun rc _ => ?_⟩
  rw [andThen_returns]
  split
  · rename_i hrc
    apply startupFailed_owning
    · exact ⟨hholds.set, hholds.only⟩
    · simpa [owning, Sockets.next] using hrc
    · exact ⟨session, rfl⟩
  · exact established_owning ⟨hholds.set, hholds.only⟩

theorem attempt_owning (hnone : v.opened = []) : Sat owning attempt EndsOwning s v := by
  unfold attempt
  rw [sat_bind]
  apply sat_ignored (owning_ignores rfl)
  intro _
  rw [andThen_returns, sat_bind]
  apply createSocket_owning hnone
  · exact fun s v hholds => openSession_owning hholds
  · exact fun s => hnone
  · exact fun s => Or.inl hnone

/-- An iteration that fails has closed the socket it has opened. -/
theorem iteration_owning (hnone : v.opened = []) : Sat owning iteration EndsOwning s v := by
  unfold iteration
  rw [sat_bind]
  apply (attempt_owning hnone).mono
  intro result s v hends
  cases result with
  | returns ended =>
    cases ended with
    | succeeded =>
      rw [andThen_returns]
      apply Holds.andThen hends authenticated_keeps
      · exact fun _ s hholds => hholds
      · exact fun s hholds => hholds.ends
    | failed | retry => exact hends
  | raised | crashed => exact hends

end Methods

/-- An object has nothing open or holds its socket, and has nothing open after a failed
connection or a shutdown. A method that is running ends so. -/
def SocketInv (v : Sockets) : Phase → Prop
  | .idle object returned =>
    (v.opened = [] ∨ Holds object v) ∧
      (returned = some (.connect false) ∨ returned = some .shutdown → v.opened = [])
  | .connecting rest => rest.Sat owning (fun result v => EndsOwning result.1 result.2 v) v
  | .shuttingDown rest => rest.Sat owning (fun _ v => v.opened = []) v
  | .crashed => True

theorem socketInv_ofConnect {v : Sockets} {rest : Body AttemptResult}
    (hsat : rest.Sat owning (fun result v => EndsOwning result.1 result.2 v) v) : SocketInv v (.ofConnect rest) := by
  unfold Phase.ofConnect
  split
  · exact ⟨Or.inl hsat, fun _ => hsat⟩
  · exact ⟨Or.inr hsat, by simp⟩
  · cases hsat
  · exact ⟨hsat, by simp⟩
  · trivial
  · exact hsat

theorem socketInv_ofShutdown {v : Sockets} {rest : Body Unit} (hsat : rest.Sat owning (fun _ v => v.opened = []) v) :
    SocketInv v (.ofShutdown rest) := by
  unfold Phase.ofShutdown
  split
  · exact ⟨Or.inl hsat, fun _ => hsat⟩
  · exact ⟨Or.inl hsat, fun _ => hsat⟩
  · trivial
  · exact hsat

theorem close_opened {v : Sockets} {phase : Phase} {fd : Int} (hphase : SocketInv v phase)
    (hnext : phase.nextCall = some (.close fd)) : fd ∈ v.opened := by
  cases phase with
  | idle | crashed => simp [Phase.nextCall] at hnext
  | connecting rest | shuttingDown rest =>
    cases rest with
    | done result => simp [Phase.nextCall] at hnext
    | act c next =>
      obtain rfl := Option.some.inj hnext
      exact hphase.1

namespace Process

variable {ι : Type} [DecidableEq ι]

/-- The sockets of an object, by the calls it has made. -/
def sockets (s : Process ι) (a : ι) : Sockets :=
  (s.logOf a).foldl (fun v entry => v.next entry.call entry.reply) .start

theorem sockets_record_self (s : Process ι) (a : ι) (c : SessionCall) (r : c.Reply) (phase : Phase) :
    (s.record a c r phase).sockets a = (s.sockets a).next c r := by
  simp [sockets, logOf_record_self]

theorem sockets_record_of_ne (s : Process ι) {a b : ι} (hne : a ≠ b) (c : SessionCall) (r : c.Reply) (phase : Phase) :
    (s.record a c r phase).sockets b = s.sockets b := by
  rw [sockets, sockets, logOf_record_of_ne s hne]

/-- Only descriptors that the object has acquired and not closed since are closed. -/
def ClosesOwn (s : Process ι) (e : ι × SessionEvent) : Prop :=
  ∀ fd, (s.objects e.1).nextCall = some (.close fd) → fd ∈ (s.sockets e.1).opened

/-- After a call of `connectUsingParams:error:` that has returned NO, and after a
shutdown, nothing is open. -/
def NothingLeft (s : Process ι) : Prop :=
  ∀ a object returned, s.objects a = .idle object (some returned) →
    returned = .connect false ∨ returned = .shutdown → (s.sockets a).opened = []

/-- An object that is not connected connects only when it has nothing open, it is shut
down only when its socket is unset or open, and the replies are expected. -/
def Careful (s : Process ι) (e : ι × SessionEvent) (_ : Process ι) : Prop :=
  match e.2, s.objects e.1 with
  | .connectUsingParams _ _, .idle object _ => object.connected = false → (s.sockets e.1).opened = []
  | .shutdown, .idle object _ => object.sock = -1 ∨ object.sock ∈ (s.sockets e.1).opened
  | .reply answer, phase => ∀ c ∈ phase.nextCall, (s.sockets e.1).Expected c (answer c)
  | _, _ => True

/-- The invariant of every object of a process. -/
def SocketsInv (s : Process ι) : Prop :=
  ∀ a, SocketInv (s.sockets a) (s.objects a)

theorem start_socketsInv (delegate : ι → Delegate) : SocketsInv (start delegate) :=
  fun _ => ⟨Or.inl rfl, fun _ => rfl⟩

theorem socketsInv_update {s t : Process ι} {a : ι} {phase : Phase} (hinv : SocketsInv s)
    (hobjects : t.objects = Function.update s.objects a phase) (hothers : ∀ b, b ≠ a → t.sockets b = s.sockets b)
    (hphase : SocketInv (t.sockets a) phase) : SocketsInv t := by
  intro b
  by_cases hb : b = a
  · subst hb
    rw [hobjects, Function.update_self]
    exact hphase
  · rw [hobjects, Function.update_of_ne hb, hothers b hb]
    exact hinv b

theorem step_socketsInv {s t : Process ι} {e : ι × SessionEvent} (hinv : SocketsInv s) (hcareful : Careful s e t)
    (hstep : step s e = some t) : SocketsInv t := by
  obtain ⟨a, event⟩ := e
  have hobject := hinv a
  unfold Careful at hcareful
  cases step_moves hstep with
  | @connect object returned params wantsError hidle =>
    simp only [hidle] at hcareful hobject
    refine socketsInv_update hinv rfl (fun b _ => rfl) ?_
    unfold Phase.connect
    split
    · exact ⟨hobject.1, by simp⟩
    · rename_i hconnected
      exact iteration_owning (hcareful (by simpa using hconnected))
  | @shutdown object returned hidle =>
    simp only [hidle] at hcareful hobject
    refine socketsInv_update hinv rfl (fun b _ => rfl) ?_
    change Sat owning MPSshSession.shutdown (fun _ _ v => v.opened = []) _ (s.sockets a)
    apply shutdown_owning
    · obtain hnone | hholds := hobject.1
      · obtain hunset | hopen := hcareful
        · exact Or.inl ⟨hunset, hnone⟩
        · exact absurd hopen (by simp [hnone])
      · exact Or.inr hholds
    · exact fun s v hnone => hnone
  | @connecting c next answer hphase =>
    simp only [hphase] at hcareful hobject
    apply socketsInv_update hinv rfl fun b hb => sockets_record_of_ne s (Ne.symm hb) _ _ _
    rw [sockets_record_self]
    exact socketInv_ofConnect (hobject.2 (answer c) (hcareful c rfl))
  | @shuttingDown c next answer hphase =>
    simp only [hphase] at hcareful hobject
    apply socketsInv_update hinv rfl fun b hb => sockets_record_of_ne s (Ne.symm hb) _ _ _
    rw [sockets_record_self]
    exact socketInv_ofShutdown (hobject.2 (answer c) (hcareful c rfl))

/-- In every run in which each object is used with care, it closes only what it has
open, and has nothing open after a failed connection and after a shutdown. -/
theorem sockets_owned {delegate : ι → Delegate} {es : List (ι × SessionEvent)}
    (hcareful : Along step Careful (start delegate) es) :
    Along step (fun s e t => ClosesOwn s e ∧ NothingLeft t) (start delegate) es := by
  refine Along.of_invariant SocketsInv ?_ (start_socketsInv delegate) hcareful
  intro s e t hinv hcareful hstep
  have hnext := step_socketsInv hinv hcareful hstep
  refine ⟨⟨?_, ?_⟩, hnext⟩
  · exact fun fd hclose => close_opened (hinv e.1) hclose
  · intro a object returned hidle hreturned
    have hphase := hnext a
    rw [hidle] at hphase
    exact hphase.2 (hreturned.imp (congrArg some) (congrArg some))

instance (v : Sockets) (c : SessionCall) (r : c.Reply) : Decidable (v.Expected c r) := by
  unfold Sockets.Expected
  split <;> infer_instance

instance (s : Process ι) (e : ι × SessionEvent) (t : Process ι) : Decidable (Careful s e t) := by
  unfold Careful
  split <;> infer_instance

/-- A connection, a shutdown and another connection. -/
theorem sockets_owned_reconnects :
    Along step (fun s e t => ClosesOwn s e ∧ NothingLeft t) (start fun _ => fullDelegate)
      (connects () 5 14 ++ ((), .shutdown) :: List.replicate 3 ((), .reply (accepting 5)) ++ connects () 6 14) :=
  sockets_owned (by decide +kernel)

/-- A call of `shutdown`, with the call that marks it answered. -/
def freshShutdown : List (Unit × SessionEvent) :=
  [((), .shutdown), ((), .reply (accepting 5))]

/-- `shutdown` on an object that has only been initialised closes descriptor 0. -/
theorem shutdown_closes_other :
    ¬ ∀ (delegate : Unit → Delegate) (es : List (Unit × SessionEvent)),
      Along step (fun s e t => ClosesOwn s e ∧ NothingLeft t) (start delegate) es := by
  intro halways
  have halong := halways (fun _ => fullDelegate) (freshShutdown ++ [((), .reply (accepting 5))])
  have hstate : (run step (start fun _ => fullDelegate) freshShutdown).map
      (fun s => ((s.objects ()).nextCall, (s.sockets ()).opened)) = some (some (.close 0), []) := by
    decide +kernel
  obtain ⟨s, hrun, hs⟩ := Option.map_eq_some_iff.mp hstate
  simp only [Prod.mk.injEq] at hs
  obtain ⟨hnext, hopened⟩ := hs
  obtain ⟨t, hcloses, _⟩ := along_reply hrun hnext halong
  have hmem := hcloses 0 hnext
  rw [hopened] at hmem
  cases hmem

end Process

end MPSsh.MPSshSession

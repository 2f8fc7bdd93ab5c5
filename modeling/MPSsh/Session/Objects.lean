import MPSsh.Session.Progress

namespace MPSsh.MPSshSession

open Interaction Method Schedule

/-- The calls of a shutdown. -/
def closing : Monitor SessionCall SessionCall.Reply Progress where
  allows _
    | .shutdown | .disconnect _ | .close _ => True
    | _ => False
  expects _ _ _ := True
  next v c r := v.next (some v.current) c r

theorem shutdown_closing {delegate : Delegate} {s : Frame} (v : Progress) (hdelegate : s.delegate = delegate) :
    Sat closing shutdown (fun _ s' _ => Disconnected delegate s') s v := by
  have hend (v : Progress) : Sat closing (do
      closeSocket
      modify fun s => { s with connected := false }) (fun _ s' _ => Disconnected delegate s') s v := by
    unfold closeSocket
    rw [sat_bind, sat_bind, sat_get, andThen_returns]
    split
    · exact sat_call.mpr ⟨trivial, fun _ _ => ⟨rfl, hdelegate⟩⟩
    · exact ⟨rfl, hdelegate⟩
  unfold shutdown
  rw [sat_bind]
  refine sat_call.mpr ⟨trivial, fun _ _ => ?_⟩
  rw [andThen_returns, sat_bind]
  unfold disconnect
  cases hsession : s.session with
  | none =>
    rw [sat_toSession_nil hsession]
    exact hend _
  | some session =>
    rw [sat_toSession hsession]
    exact sat_call.mpr ⟨trivial, fun _ _ => hend _⟩

/-- What holds of an object between two of its calls. -/
def PhaseInv (delegate : Delegate) (v : Progress) : Phase → Prop
  | .idle object _ => Left delegate object v
  | .connecting rest =>
    rest.Sat guarded (fun result v' => Left delegate result.2.toMPSshSession v' ∧
      (result.1 = .returns .retry → Disconnected delegate result.2)) v
  | .shuttingDown rest => rest.Sat closing (fun result _ => Disconnected delegate result.2) v
  | .crashed => True

/-- The call that an object makes next is one that an attempt or a shutdown may make. -/
theorem nextCall_allowed {delegate : Delegate} {v : Progress} {phase : Phase} {c : SessionCall}
    (hphase : PhaseInv delegate v phase) (hnext : phase.nextCall = some c) :
    guarded.allows v c ∨ closing.allows v c := by
  cases phase with
  | idle | crashed => simp [Phase.nextCall] at hnext
  | connecting rest =>
    cases rest with
    | done result => simp [Phase.nextCall] at hnext
    | act c' next =>
      obtain rfl := Option.some.inj hnext
      exact Or.inl hphase.1
  | shuttingDown rest =>
    cases rest with
    | done result => simp [Phase.nextCall] at hnext
    | act c' next =>
      obtain rfl := Option.some.inj hnext
      exact Or.inr hphase.1

/-- What the delegate has been shown is the hash of the session of the attempt. -/
def Coherent (v : Progress) : Prop :=
  v.shown ≠ none → ∃ answer, v.Shown answer

theorem coherent_guarded {v : Progress} {c : SessionCall} (r : c.Reply) (hcoherent : Coherent v)
    (hallows : guarded.allows v c) : Coherent (guarded.next v c r) := by
  cases c with
  | attempt | sessionInit => simp [Coherent, guarded, Progress.next, Progress.start]
  | startup sock | hostkeyHash type =>
    have hnone : v.shown = none := hallows
    simp [Coherent, guarded, Progress.next, Progress.onSession, hnone]
  | fingerprint text =>
    obtain ⟨hcreated, hstarted, hash, hhash, rfl⟩ := hallows
    exact fun _ => ⟨r, hcreated, hstarted, hash, hhash, rfl⟩
  | shutdown =>
    intro h
    obtain ⟨answer, hanswer⟩ := hcoherent h
    exact ⟨answer, hanswer.created, hanswer.started, hanswer.text⟩
  | connectSocket address =>
    cases r with
    | error | timeout => exact hcoherent
    | connected descriptor =>
      intro h
      obtain ⟨answer, hanswer⟩ := hcoherent h
      exact ⟨answer, hanswer.created, hanswer.started, hanswer.text⟩
  | userauthPublickeyFromfile | userauthPassword | userauthKeyboardInteractive =>
    simp only [Coherent, guarded, Progress.next, Progress.onSession, if_true, Progress.authenticatedBy]
    split
    · intro h
      obtain ⟨answer, hanswer⟩ := hcoherent h
      exact ⟨answer, hanswer.created, hanswer.started, hanswer.text⟩
    · exact hcoherent
  | resolve | close | trace | lastError | disconnect | userauthList | setBlocking | didChangeState | requestPassword
  | NSLog => exact hcoherent

theorem coherent_closing {v : Progress} {c : SessionCall} (r : c.Reply) (hcoherent : Coherent v)
    (hallows : closing.allows v c) : Coherent (closing.next v c r) := by
  cases c with
  | shutdown =>
    intro h
    obtain ⟨answer, hanswer⟩ := hcoherent h
    exact ⟨answer, hanswer.created, hanswer.started, hanswer.text⟩
  | disconnect | close => exact hcoherent
  | _ => cases hallows

namespace Process

variable {ι : Type} [DecidableEq ι]

/-- The progress of an object, by the calls it has made. -/
def progress (s : Process ι) (a : ι) : Progress :=
  Progress.of (s.logOf a)

/-- The calls that start a session, take its hash, authenticate on it or disconnect it. -/
def actsOnSession : SessionCall → Bool
  | .startup _ | .hostkeyHash _ | .disconnect _ => true
  | c => c.isUserauth

/-- What an object does to a session it does to its own last one. -/
def OnOwnSession (s : Process ι) (e : ι × SessionEvent) : Prop :=
  ∀ c, (s.objects e.1).nextCall = some c → actsOnSession c = true → s.session = (s.progress e.1).current

theorem next_of_own {v : Progress} {c : SessionCall} (r : c.Reply) {session : SessionHandle}
    (hown : actsOnSession c = true → session = v.current) :
    v.next (if c.usesSession then some session else none) c r = v.next (some v.current) c r := by
  cases c with
  | startup | hostkeyHash | userauthPublickeyFromfile | userauthPassword | userauthKeyboardInteractive =>
    rw [hown rfl]
    rfl
  | connectSocket => cases r <;> rfl
  | _ => rfl

theorem progress_record_self (s : Process ι) (a : ι) (c : SessionCall) (r : c.Reply) (phase : Phase)
    (hown : actsOnSession c = true → s.session = (s.progress a).current) :
    (s.record a c r phase).progress a = (s.progress a).next (some (s.progress a).current) c r := by
  rw [← next_of_own r hown]
  simp [progress, Progress.of, logOf_record_self]

theorem progress_record_of_ne (s : Process ι) {a b : ι} (hne : a ≠ b) (c : SessionCall) (r : c.Reply) (phase : Phase) :
    (s.record a c r phase).progress b = s.progress b := by
  rw [progress, progress, logOf_record_of_ne s hne]

/-- The invariant of every object of a process. -/
structure ObjectsInv (delegate : ι → Delegate) (s : Process ι) : Prop where
  phase : ∀ a, PhaseInv (delegate a) (s.progress a) (s.objects a)
  coherent : ∀ a, Coherent (s.progress a)

theorem start_objectsInv (delegate : ι → Delegate) : ObjectsInv delegate (start delegate) := by
  constructor
  · exact fun a => ⟨rfl, by simp [start, MPSshSession.init]⟩
  · exact fun a h => absurd rfl h

theorem phaseInv_ofConnect {delegate : Delegate} (hdelegate : delegate.fingerprint = true) {v : Progress}
    {rest : Body AttemptResult}
    (hsat : rest.Sat guarded (fun result v' => Left delegate result.2.toMPSshSession v' ∧
      (result.1 = .returns .retry → Disconnected delegate result.2)) v) :
    PhaseInv delegate v (.ofConnect rest) := by
  unfold Phase.ofConnect
  split
  · exact hsat.1
  · exact hsat.1
  · exact iteration_guarded (hsat.2 rfl) hdelegate
  · exact hsat.1
  · trivial
  · exact hsat

theorem phaseInv_ofShutdown {delegate : Delegate} {v : Progress} {rest : Body Unit}
    (hsat : rest.Sat closing (fun result _ => Disconnected delegate result.2) v) :
    PhaseInv delegate v (.ofShutdown rest) := by
  unfold Phase.ofShutdown
  split
  · exact Disconnected.left hsat
  · exact Disconnected.left hsat
  · trivial
  · exact hsat

/-- Events of one object leave the phases and the progress of the others alone. -/
theorem objectsInv_update {delegate : ι → Delegate} {s t : Process ι} {a : ι} {phase : Phase} (hinv : ObjectsInv delegate s)
    (hobjects : t.objects = Function.update s.objects a phase) (hothers : ∀ b, b ≠ a → t.progress b = s.progress b)
    (hphase : PhaseInv (delegate a) (t.progress a) phase) (hcoherent : Coherent (t.progress a)) :
    ObjectsInv delegate t := by
  constructor
  · intro b
    by_cases hb : b = a
    · subst hb
      rw [hobjects, Function.update_self]
      exact hphase
    · rw [hobjects, Function.update_of_ne hb, hothers b hb]
      exact hinv.phase b
  · intro b
    by_cases hb : b = a
    · subst hb
      exact hcoherent
    · rw [hothers b hb]
      exact hinv.coherent b

theorem step_objectsInv {delegate : ι → Delegate} (hdelegate : ∀ a, (delegate a).fingerprint = true) {s t : Process ι}
    {e : ι × SessionEvent} (hinv : ObjectsInv delegate s) (hown : OnOwnSession s e) (hstep : step s e = some t) :
    ObjectsInv delegate t := by
  obtain ⟨a, event⟩ := e
  have hobject := hinv.phase a
  cases step_moves hstep with
  | connect params wantsError hidle =>
    rw [hidle] at hobject
    refine objectsInv_update hinv rfl (fun b _ => rfl) ?_ (hinv.coherent a)
    unfold Phase.connect
    split
    · exact hobject
    · rename_i hconnected
      apply iteration_guarded _ (hdelegate a)
      exact ⟨by simpa using hconnected, hobject.delegate⟩
  | shutdown hidle =>
    rw [hidle] at hobject
    refine objectsInv_update hinv rfl (fun b _ => rfl) ?_ (hinv.coherent a)
    exact shutdown_closing _ hobject.delegate
  | @connecting c next answer hphase =>
    rw [hphase] at hobject
    have hself := progress_record_self s a c (answer c) (.ofConnect (next (answer c)))
      (hown c (by simp [hphase, Phase.nextCall]))
    refine objectsInv_update hinv rfl ?_ ?_ ?_
    · exact fun b hb => progress_record_of_ne s (Ne.symm hb) _ _ _
    · rw [hself]
      exact phaseInv_ofConnect (hdelegate a) (hobject.2 (answer c) trivial)
    · rw [hself]
      exact coherent_guarded (answer c) (hinv.coherent a) hobject.1
  | @shuttingDown c next answer hphase =>
    rw [hphase] at hobject
    have hself := progress_record_self s a c (answer c) (.ofShutdown (next (answer c)))
      (hown c (by simp [hphase, Phase.nextCall]))
    refine objectsInv_update hinv rfl ?_ ?_ ?_
    · exact fun b hb => progress_record_of_ne s (Ne.symm hb) _ _ _
    · rw [hself]
      exact phaseInv_ofShutdown (hobject.2 (answer c) trivial)
    · rw [hself]
      exact coherent_closing (answer c) (hinv.coherent a) hobject.1

end Process

end MPSsh.MPSshSession

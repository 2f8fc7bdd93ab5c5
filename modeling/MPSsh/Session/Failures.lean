import MPSsh.Session.Acceptance
import MPSsh.Session.Handling
import MPSsh.Session.Loop

namespace MPSsh.MPSshSession

open Interaction Method Schedule

/-- The rest of an object's call is exact, and an idle object has a session of the library
if it has one at all. -/
def Phase.Careful (v : Watch) : Phase → Prop
  | .idle object _ => object.session ≠ none → v.Opened
  | .connecting rest => rest.Exact attentive Watch.Wrong LoopLeaves v
  | .shuttingDown rest => rest.Exact attentive Watch.Wrong (fun _ => Standing false false) v
  | .crashed => False

/-- A method of the object has raised or crashed. -/
def Phase.Broken : Phase → Prop
  | .idle _ (some .raised) | .crashed => True
  | _ => False

instance : DecidablePred Phase.Broken
  | .idle _ (some .raised) | .crashed => isTrue trivial
  | .idle _ none | .idle _ (some (.connect _)) | .idle _ (some .shutdown) | .connecting _ | .shuttingDown _ => isFalse id

/-- The object is broken, or makes a call that is wrong. -/
def Phase.Fails (v : Watch) (phase : Phase) : Prop :=
  phase.Broken ∨ ∃ c, phase.nextCall = some c ∧ v.Wrong c

theorem Phase.Careful.allows {v : Watch} {phase : Phase} (h : phase.Careful v) {c : SessionCall}
    (hnext : phase.nextCall = some c) : attentive.allows v c := by
  cases phase with
  | connecting rest | shuttingDown rest =>
    cases rest with
    | done result => simp [Phase.nextCall] at hnext
    | act c' next =>
      obtain rfl : c' = c := by simpa [Phase.nextCall] using hnext
      exact h.1
  | idle | crashed => simp [Phase.nextCall] at hnext

theorem ofConnect_careful {v : Watch} {rest : Body AttemptResult}
    (hrest : rest.Exact attentive Watch.Wrong LoopLeaves v) :
    (Phase.ofConnect rest).Careful v ∧ ¬ (Phase.ofConnect rest).Broken := by
  cases rest with
  | act c next => exact ⟨hrest, id⟩
  | done result =>
    obtain ⟨result, s⟩ := result
    cases result with
    | raised | crashed => exact hrest.elim
    | returns result =>
      cases result with
      | retry => exact ⟨iteration_standing s v hrest, id⟩
      | failed | succeeded => exact ⟨hrest.session, id⟩

theorem ofConnect_fails {v : Watch} {rest : Body AttemptResult} (hrest : rest.Fails Watch.Wrong v) :
    (Phase.ofConnect rest).Fails v := by
  cases rest with
  | act c next => exact Or.inr ⟨c, rfl, hrest⟩
  | done result =>
    obtain ⟨result, s⟩ := result
    cases result with
    | raised | crashed => exact Or.inl trivial
    | returns result => exact hrest.elim

theorem ofShutdown_careful {v : Watch} {rest : Body Unit}
    (hrest : rest.Exact attentive Watch.Wrong (fun _ => Standing false false) v) :
    (Phase.ofShutdown rest).Careful v ∧ ¬ (Phase.ofShutdown rest).Broken := by
  cases rest with
  | act c next => exact ⟨hrest, id⟩
  | done result =>
    obtain ⟨result, s⟩ := result
    cases result with
    | raised | crashed => exact hrest.elim
    | returns result => exact ⟨hrest.session, id⟩

theorem ofShutdown_fails {v : Watch} {rest : Body Unit} (hrest : rest.Fails Watch.Wrong v) :
    (Phase.ofShutdown rest).Fails v := by
  cases rest with
  | act c next => exact Or.inr ⟨c, rfl, hrest⟩
  | done result =>
    obtain ⟨result, s⟩ := result
    cases result with
    | raised | crashed => exact Or.inl trivial
    | returns result => exact hrest.elim

/-- A call begins as it has to. -/
theorem connect_careful {v : Watch} {object : MPSshSession} (hobject : object.session ≠ none → v.Opened)
    (params : MPConnectionParams) (wantsError : Bool) :
    (Phase.connect object params wantsError).Careful v ∧ ¬ (Phase.connect object params wantsError).Broken := by
  unfold Phase.connect
  split
  · exact ⟨hobject, id⟩
  · refine ⟨iteration_standing _ v ?_, id⟩
    exact ⟨by simp [defaults], by simp [defaults], by simp [defaults], hobject, nofun, nofun⟩

theorem shutdown_careful {v : Watch} {object : MPSshSession} (hobject : object.session ≠ none → v.Opened) :
    (Phase.shutdown object).Careful v ∧ ¬ (Phase.shutdown object).Broken := by
  refine ⟨shutdown_standing _ v ?_, id⟩
  exact ⟨by simp [defaults], by simp [defaults], by simp [defaults], hobject, nofun, nofun⟩

namespace Process

variable {ι : Type} [DecidableEq ι] {s t : Process ι} {a : ι}

/-- What the calls of an object have left. -/
def watch (s : Process ι) (a : ι) : Watch :=
  observe attentive .start (s.logOf a)

/-- The methods provide for the answer that an object gets. -/
def Provided (s : Process ι) (e : ι × SessionEvent) : Prop :=
  ∀ answer c, e.2 = .reply answer → (s.objects e.1).nextCall = some c → Handled (s.watch e.1).startup c (answer c)

/-- The object goes on as it has to: no method raises or crashes, a call is not made on
`NULL` and can read its arguments, and a call of `connectUsingParams:error:` that returns NO
has set the error. -/
structure Sound (s : Process ι) (e : ι × SessionEvent) (t : Process ι) : Prop where
  unbroken : ¬ (t.objects e.1).Broken
  calls : ∀ c, (t.objects e.1).nextCall = some c → Passable c ∧ (c.usesSession = true → t.session ≠ 0)
  reports : ∀ answer c next f, e.2 = .reply answer → s.objects e.1 = .connecting (.act c next) →
    next (answer c) = .done (.returns .failed, f) → f.wantsError = true → f.error ≠ none

/-- Every object goes on as it has to, and no session that has been initialised is
`NULL`. -/
structure CarefulInv (s : Process ι) : Prop where
  phase : ∀ a, (s.objects a).Careful (s.watch a)
  session : ∀ a handle, (s.watch a).session = some handle → handle ≠ 0 ∧ s.session ≠ 0

theorem start_carefulInv (delegate : ι → Delegate) : CarefulInv (start delegate) :=
  ⟨fun _ hsession => absurd rfl hsession, nofun⟩

theorem watch_record_self (c : SessionCall) (r : c.Reply) (phase : Phase) :
    (s.record a c r phase).watch a = (s.watch a).next c r := by
  rw [watch, logOf_record_self, observe_concat]
  rfl

theorem watch_record_of_ne {b : ι} (hne : a ≠ b) (c : SessionCall) (r : c.Reply) (phase : Phase) :
    (s.record a c r phase).watch b = s.watch b := by
  rw [watch, logOf_record_of_ne s hne]
  rfl

theorem sessionAfter_ne_zero {session : SessionHandle} {startup : Bool} {c : SessionCall} {r : c.Reply}
    (hhandled : Handled startup c r) (hsession : session ≠ 0) : sessionAfter session c r ≠ 0 := by
  cases c <;> first | exact hsession | exact hhandled

theorem CarefulInv.calls (hinv : CarefulInv s) {c : SessionCall} (hnext : (s.objects a).nextCall = some c) :
    Passable c ∧ (c.usesSession = true → s.session ≠ 0) := by
  obtain ⟨hon, hpassable⟩ := (hinv.phase a).allows hnext
  refine ⟨hpassable, fun huses => ?_⟩
  obtain ⟨handle, hhandle, -⟩ := hon huses
  exact (hinv.session a handle hhandle).2

/-- A method is called on an object. -/
theorem update_carefulInv (hinv : CarefulInv s) {phase : Phase} (hphase : phase.Careful (s.watch a)) :
    CarefulInv { s with objects := Function.update s.objects a phase } := by
  refine ⟨fun b => ?_, hinv.session⟩
  change (Function.update s.objects a phase b).Careful (s.watch b)
  by_cases hb : b = a
  · subst hb
    rwa [Function.update_self]
  · rw [Function.update_of_ne hb]
    exact hinv.phase b

/-- A call is answered as the methods provide for. -/
theorem record_carefulInv (hinv : CarefulInv s) {c : SessionCall} {r : c.Reply} {phase : Phase}
    (hhandled : Handled (s.watch a).startup c r) (hphase : phase.Careful ((s.watch a).next c r)) :
    CarefulInv (s.record a c r phase) := by
  have hother {b : ι} {handle : SessionHandle} (hhandle : (s.watch b).session = some handle) :
      handle ≠ 0 ∧ sessionAfter s.session c r ≠ 0 := by
    obtain ⟨hne, hsession⟩ := hinv.session b handle hhandle
    exact ⟨hne, sessionAfter_ne_zero hhandled hsession⟩
  constructor
  · intro b
    change (Function.update s.objects a phase b).Careful ((s.record a c r phase).watch b)
    by_cases hb : b = a
    · subst hb
      rwa [Function.update_self, watch_record_self]
    · rw [Function.update_of_ne hb, watch_record_of_ne (Ne.symm hb)]
      exact hinv.phase b
  · intro b handle hhandle
    by_cases hb : b = a
    · subst hb
      rw [watch_record_self] at hhandle
      by_cases hinit : c = .sessionInit
      · subst hinit
        obtain rfl : r = handle := Option.some.inj hhandle
        exact ⟨hhandled, hhandled⟩
      · rw [next_session hinit] at hhandle
        exact hother hhandle
    · rw [watch_record_of_ne (Ne.symm hb)] at hhandle
      exact hother hhandle

/-- An object that goes wrong is not sound. -/
theorem not_sound_of_fails (hinv : CarefulInv s) {c : SessionCall} {r : c.Reply} {phase : Phase} {event : SessionEvent}
    (hphase : phase.Fails ((s.watch a).next c r)) : ¬ Sound s (a, event) (s.record a c r phase) := by
  rintro ⟨hunbroken, hcalls, -⟩
  simp only [record, Function.update_self] at hunbroken hcalls
  obtain hbroken | ⟨c', hnext, ⟨huses, hnull⟩ | himpassable⟩ := hphase
  · exact hunbroken hbroken
  · refine (hcalls c' hnext).2 huses ?_
    by_cases hinit : c = .sessionInit
    · subst hinit
      exact Option.some.inj hnull
    · rw [next_session hinit] at hnull
      exact absurd rfl (hinv.session a 0 hnull).1
  · exact himpassable (hcalls c' hnext).1

/-- A call of a method is sound. -/
theorem update_sound (hinv : CarefulInv s) {phase : Phase} {event : SessionEvent}
    (hevent : ∀ answer, event ≠ .reply answer) (hphase : phase.Careful (s.watch a) ∧ ¬ phase.Broken) :
    Sound s (a, event) { s with objects := Function.update s.objects a phase } := by
  refine ⟨?_, fun _ hcall => (update_carefulInv hinv hphase.1).calls hcall, ?_⟩
  · change ¬ (Function.update s.objects a phase a).Broken
    rw [Function.update_self]
    exact hphase.2
  · exact fun answer _ _ _ hreply => absurd hreply (hevent answer)

/-- An answer that the methods provide for is sound if what it ends has set the error. -/
theorem record_sound (hinv : CarefulInv s) {c : SessionCall} {answer : (c : SessionCall) → c.Reply} {phase : Phase}
    (hhandled : Handled (s.watch a).startup c (answer c))
    (hphase : phase.Careful ((s.watch a).next c (answer c)) ∧ ¬ phase.Broken)
    (hreports : ∀ c next f, s.objects a = .connecting (.act c next) → next (answer c) = .done (.returns .failed, f) →
      f.wantsError = true → f.error ≠ none) : Sound s (a, .reply answer) (s.record a c (answer c) phase) := by
  refine ⟨?_, fun _ hcall => (record_carefulInv hinv hhandled hphase.1).calls hcall, ?_⟩
  · change ¬ (Function.update s.objects a phase a).Broken
    rw [Function.update_self]
    exact hphase.2
  · rintro _ c' next f ⟨⟩
    exact hreports c' next f

/-- The answer to the call that an object makes decides. -/
theorem provided_reply {c : SessionCall} (hnext : (s.objects a).nextCall = some c) {answer : (c : SessionCall) → c.Reply} :
    Provided s (a, .reply answer) ↔ Handled (s.watch a).startup c (answer c) := by
  constructor
  · exact fun hprovided => hprovided answer c rfl hnext
  · rintro hhandled _ c' ⟨⟩ hnext'
    obtain rfl : c = c' := Option.some.inj (hnext.symm.trans hnext')
    exact hhandled

/-- A step is sound exactly if the methods provide for the answer it brings, and then
the objects go on as they have to. -/
theorem step_sound_iff {e : ι × SessionEvent} (hinv : CarefulInv s) (hstep : step s e = some t) :
    (Sound s e t ↔ Provided s e) ∧ (Provided s e → CarefulInv t) := by
  obtain ⟨a, event⟩ := e
  have hobject := hinv.phase a
  cases step_moves hstep with
  | @connect object returned params wantsError hidle =>
    rw [hidle] at hobject
    have hphase := connect_careful hobject params wantsError
    refine ⟨iff_of_true (update_sound hinv (fun _ => nofun) hphase) ?_, fun _ => update_carefulInv hinv hphase.1⟩
    exact fun _ _ hreply => nomatch hreply
  | @shutdown object returned hidle =>
    rw [hidle] at hobject
    have hphase := shutdown_careful hobject
    refine ⟨iff_of_true (update_sound hinv (fun _ => nofun) hphase) ?_, fun _ => update_carefulInv hinv hphase.1⟩
    exact fun _ _ hreply => nomatch hreply
  | @connecting c next answer hconnecting =>
    rw [hconnecting] at hobject
    rw [provided_reply (by rw [hconnecting]; rfl)]
    by_cases hhandled : Handled (s.watch a).startup c (answer c)
    · have hexact := (hobject.2 (answer c)).1 hhandled
      have hphase := ofConnect_careful hexact
      refine ⟨iff_of_true (record_sound hinv hhandled hphase ?_) hhandled, fun _ => record_carefulInv hinv hhandled hphase.1⟩
      rintro c' next' f hsame hfailed
      rw [hconnecting] at hsame
      cases hsame
      rw [hfailed] at hexact
      exact hexact.reported rfl
    · have hfails := ofConnect_fails ((hobject.2 (answer c)).2 hhandled)
      exact ⟨iff_of_false (not_sound_of_fails hinv hfails) hhandled, fun h => absurd h hhandled⟩
  | @shuttingDown c next answer hshuttingDown =>
    rw [hshuttingDown] at hobject
    rw [provided_reply (by rw [hshuttingDown]; rfl)]
    by_cases hhandled : Handled (s.watch a).startup c (answer c)
    · have hphase := ofShutdown_careful ((hobject.2 (answer c)).1 hhandled)
      refine ⟨iff_of_true (record_sound hinv hhandled hphase ?_) hhandled, fun _ => record_carefulInv hinv hhandled hphase.1⟩
      intro c' next' f hsame
      rw [hshuttingDown] at hsame
      cases hsame
    · have hfails := ofShutdown_fails ((hobject.2 (answer c)).2 hhandled)
      exact ⟨iff_of_false (not_sound_of_fails hinv hfails) hhandled, fun h => absurd h hhandled⟩

/-- In every run of any objects and their methods, with any answers of the library and
of the delegates, the library's failures become errors if and only if the methods provide
for every one of the answers. The creations of Core Foundation objects, which the methods
do not check either, are taken to succeed. -/
theorem failures_reported_iff (delegate : ι → Delegate) (es : List (ι × SessionEvent)) :
    Along step Sound (start delegate) es ↔ Along step (fun s e _ => Provided s e) (start delegate) es := by
  refine along_iff_of_invariant CarefulInv ?_ ?_ (start_carefulInv delegate)
  · exact fun s e t hinv hstep => (step_sound_iff hinv hstep).1
  · exact fun s e t hinv hprovided hstep => (step_sound_iff hinv hstep).2 hprovided

/-- A library that has no hash of the host key. -/
def hashless : (c : SessionCall) → c.Reply
  | .hostkeyHash _ => none
  | c => accepting 5 c

/-- The loop over the hash of the host key reads through `NULL`. -/
theorem failures_crash :
    ¬ ∀ (delegate : Unit → Delegate) (es : List (Unit × SessionEvent)), Along step Sound (start delegate) es := by
  intro halways
  have hcrashes : (run step (start fun _ => fullDelegate)
      (calls ⟨some "host", 22, some "user", some "secret", none, none, none, false, false⟩ hashless 9)).map
        (fun t => decide (t.objects ()).Broken) = some true := by
    decide +kernel
  obtain ⟨t, hrun, hbroken⟩ := Option.map_eq_some_iff.mp hcrashes
  have hunbroken : ¬ (t.objects ()).Broken :=
    (halways _ _).reaches (R := fun t => ¬ (t.objects ()).Broken) (fun _ _ _ hsound => hsound.unbroken) id hrun
  exact hunbroken (of_decide_eq_true hbroken)

end Process

end MPSsh.MPSshSession

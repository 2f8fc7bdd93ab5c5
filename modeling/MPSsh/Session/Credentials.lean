import MPSsh.Session.Acceptance

open Schedule

namespace MPSsh.MPSshSession

namespace Process

variable {ι : Type} [DecidableEq ι]

def isDisconnect : SessionCall → Bool
  | .disconnect _ => true
  | _ => false

/-- Userauth calls and disconnects of an object are made on the session that its
current attempt has created and started on its own socket, and whose host key
hash its delegate has been shown. -/
def OnShownSession (s : Process ι) (e : ι × SessionEvent) (_ : Process ι) : Prop :=
  ∀ c, (s.objects e.1).nextCall = some c → c.isUserauth = true ∨ isDisconnect c = true →
    (s.progress e.1).current = s.session ∧ ∃ answer, (s.progress e.1).Shown answer

/-- The object that has called `libssh2_session_init` last. -/
def lastInit (s : Process ι) : Option ι :=
  (s.log.filter fun entry => entry.2.call = .sessionInit).getLast?.map Prod.fst

/-- An object acts on the session variable only while no other object has initialised a
session after it, and disconnects only when its current attempt has shown a
fingerprint. -/
def ByLastInit (s : Process ι) (e : ι × SessionEvent) (_ : Process ι) : Prop :=
  ∀ c, (s.objects e.1).nextCall = some c →
    (actsOnSession c = true → s.lastInit = some e.1) ∧ (isDisconnect c = true → (s.progress e.1).shown ≠ none)

/-- The variable holds the session of the object that has initialised one last. -/
structure SharedInv (delegate : ι → Delegate) (s : Process ι) : Prop extends ObjectsInv delegate s where
  session : ∀ a, s.lastInit = some a → s.session = (s.progress a).current

theorem start_sharedInv (delegate : ι → Delegate) : SharedInv delegate (start delegate) :=
  ⟨start_objectsInv delegate, by simp [lastInit, start]⟩

theorem lastInit_record (s : Process ι) (a : ι) (c : SessionCall) (r : c.Reply) (phase : Phase) :
    (s.record a c r phase).lastInit = if c = .sessionInit then some a else s.lastInit := by
  by_cases hc : c = .sessionInit <;> simp [lastInit, record, hc]

theorem step_sharedInv {delegate : ι → Delegate} (hdelegate : ∀ a, (delegate a).fingerprint = true) {s t : Process ι}
    {e : ι × SessionEvent} (hinv : SharedInv delegate s) (hcond : ByLastInit s e t) (hstep : step s e = some t) :
    SharedInv delegate t := by
  have hown : s.OnOwnSession e := fun c hc hacts => hinv.session _ ((hcond c hc).1 hacts)
  refine ⟨step_objectsInv hdelegate hinv.toObjectsInv hown hstep, ?_⟩
  obtain ⟨hsession, hlog⟩ | ⟨c, r, phase, hnext, rfl⟩ := step_session hstep
  · intro b hb
    have hsame : t.progress b = s.progress b := by simp [progress, logOf, hlog]
    rw [hsame, hsession]
    exact hinv.session b (by simpa [lastInit, hlog] using hb)
  · intro b hb
    rw [lastInit_record] at hb
    by_cases hself : e.1 = b
    · subst hself
      rw [progress_record_self s e.1 c r phase (hown c hnext), current_next]
      by_cases hc : c = .sessionInit
      · subst hc
        rfl
      · rw [if_neg hc] at hb
        rw [← hinv.session _ hb]
        rfl
    · by_cases hc : c = .sessionInit
      · rw [if_pos hc] at hb
        exact absurd (Option.some.inj hb) hself
      · rw [if_neg hc] at hb
        rw [progress_record_of_ne s hself, ← hinv.session _ hb]
        exact sessionAfter_of_ne hc _ r

/-- For any number of session objects whose delegates are asked about fingerprints:
in every interleaving in which each object acts on the session variable only while
its own session is the last one initialised, and disconnects only what it has
shown, credentials and disconnects go to the session the object's delegate has
been shown. -/
theorem credentials_on_shown_session {delegate : ι → Delegate} (hdelegate : ∀ a, (delegate a).fingerprint = true)
    {es : List (ι × SessionEvent)} (hcond : Along step ByLastInit (start delegate) es) :
    Along step OnShownSession (start delegate) es := by
  refine Along.of_invariant (SharedInv delegate) ?_ (start_sharedInv delegate) hcond
  intro s e t hinv hlast hstep
  refine ⟨?_, step_sharedInv hdelegate hinv hlast hstep⟩
  intro c hc hkind
  obtain ⟨hinit, hshown⟩ := hlast c hc
  have hacts : actsOnSession c = true := by
    cases c <;> simp [SessionCall.isUserauth, isDisconnect, actsOnSession] at hkind ⊢
  refine ⟨(hinv.session _ (hinit hacts)).symm, ?_⟩
  obtain huserauth | hdisconnect := hkind
  · exact ⟨true, userauth_shown (hinv.phase _) hc huserauth⟩
  · exact hinv.coherent _ (hshown hdisconnect)

instance ByLastInit.decidable (s : Process ι) (e : ι × SessionEvent) (t : Process ι) : Decidable (ByLastInit s e t) :=
  inferInstanceAs (Decidable (∀ c ∈ (s.objects e.1).nextCall,
    (actsOnSession c = true → s.lastInit = some e.1) ∧ (isDisconnect c = true → (s.progress e.1).shown ≠ none)))

/-- One object connects after the other. -/
theorem credentials_on_shown_session_connects :
    Along step OnShownSession (start fun _ => fullDelegate) (connects (0 : Fin 2) 5 14 ++ connects 1 6 14) :=
  credentials_on_shown_session (fun _ => rfl) (by decide +kernel)

/-- The first object has its key accepted, and the second initialises its session
before the password of the first is sent. -/
def crossed : List (Fin 2 × SessionEvent) :=
  connects 0 5 11 ++ connects 1 6 5

/-- The password of the first object goes to the session of the second. -/
theorem password_on_other_session :
    ¬ ∀ delegate : Fin 2 → Delegate, (∀ a, (delegate a).fingerprint = true) →
      ∀ es, Along step OnShownSession (start delegate) es := by
  intro halways
  have halong := halways (fun _ => fullDelegate) (fun _ => rfl) (crossed ++ [(0, .reply (accepting 5))])
  have hstate : (run step (start fun _ => fullDelegate) crossed).map
      (fun s => ((s.objects 0).nextCall, s.session, (s.progress 0).current)) =
        some (some (.userauthPassword (some (utf8 "user")) (some (utf8 "secret"))), 6, 5) := by
    decide +kernel
  obtain ⟨s, hrun, hs⟩ := Option.map_eq_some_iff.mp hstate
  simp only [Prod.mk.injEq] at hs
  obtain ⟨hnext, hsession, hcurrent⟩ := hs
  obtain ⟨t, hshown⟩ := along_reply hrun hnext halong
  have hown := (hshown _ hnext (Or.inl rfl)).1
  rw [hcurrent, hsession] at hown
  simp at hown

end Process

end MPSsh.MPSshSession

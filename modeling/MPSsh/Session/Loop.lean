import MPSsh.Session.Process
import MPSsh.Session.Rules

namespace MPSsh.MPSshSession

open Interaction Method Schedule

variable {τ : Type} {M : Monitor SessionCall SessionCall.Reply τ} {I : Frame → τ → Prop} {R : Bool → τ → Prop}
  {D : τ → Prop} {v : τ}

/-- What an observer of an object has seen after a sequence of its calls. -/
def observe (M : Monitor SessionCall SessionCall.Reply τ) (v : τ) (entries : List Entry) : τ :=
  entries.foldl (fun v entry => M.next v entry.call entry.reply) v

theorem observe_concat (entries : List Entry) (entry : Entry) :
    observe M v (entries ++ [entry]) = M.next (observe M v entries) entry.call entry.reply := by
  simp [observe]

/-- How an iteration of the loop has to end: with the invariant when another one
follows, and otherwise with what is said of the result of the call. -/
def LoopPost (I : Frame → τ → Prop) (R : Bool → τ → Prop) : AttemptResult → Frame → τ → Prop
  | .retry, s, v => I s v
  | .failed, _, v => R false v
  | .succeeded, _, v => R true v

/-- A call of `connectUsingParams:error:` is under way, or has ended as it has to. -/
def Phase.Follows (M : Monitor SessionCall SessionCall.Reply τ) (I : Frame → τ → Prop) (R : Bool → τ → Prop) (v : τ) :
    Phase → Prop
  | .connecting rest => rest.Sat M (fun result v => Returning (LoopPost I R) result.1 result.2 v) v
  | .idle _ (some (.connect ok)) => R ok v
  | .idle _ _ | .crashed => True
  | .shuttingDown _ => False

/-- An iteration that ends as it has to is followed by the next one. -/
theorem Phase.ofConnect_follows (hiteration : ∀ s v, I s v → Sat M iteration (Returning (LoopPost I R)) s v)
    {rest : Body AttemptResult} (hrest : rest.Sat M (fun result v => Returning (LoopPost I R) result.1 result.2 v) v) :
    (Phase.ofConnect rest).Follows M I R v := by
  cases rest with
  | act c next => exact hrest
  | done result =>
    obtain ⟨result, s⟩ := result
    cases result with
    | raised | crashed => trivial
    | returns result =>
      cases result with
      | retry => exact hiteration s v hrest
      | failed | succeeded => exact hrest

/-- How the last call of an idle object has ended. -/
def Phase.ended : Phase → Option (MPSshSession × Return)
  | .idle object (some returned) => some (object, returned)
  | _ => none

theorem Phase.idle_of_ended {phase : Phase} {object : MPSshSession} {returned : Return}
    (hended : phase.ended = some (object, returned)) : phase = .idle object (some returned) := by
  unfold Phase.ended at hended
  split at hended
  · simpa using hended
  · cases hended

namespace Process

variable {ι : Type} [DecidableEq ι] {s t : Process ι} {a : ι}

/-- An event in which no method of the object is called. -/
def Continues (a : ι) (e : ι × SessionEvent) : Prop :=
  e.1 = a → ∃ answer, e.2 = .reply answer

/-- An event of another object does not concern this one. -/
theorem step_of_ne {e : ι × SessionEvent} (hne : e.1 ≠ a) (hstep : step s e = some t) :
    t.objects a = s.objects a ∧ t.logOf a = s.logOf a := by
  obtain ⟨b, event⟩ := e
  have hupdate (phase : Phase) : Function.update s.objects b phase a = s.objects a :=
    Function.update_of_ne (Ne.symm hne) phase s.objects
  cases step_moves hstep with
  | connect | shutdown => exact ⟨hupdate _, rfl⟩
  | connecting | shuttingDown =>
    exact ⟨hupdate _, logOf_record_of_ne s hne _ _ _⟩

/-- What has been seen of a call since a state in its run. -/
def Seen (M : Monitor SessionCall SessionCall.Reply τ) (I : Frame → τ → Prop) (R : Bool → τ → Prop) (D : τ → Prop)
    (a : ι) (v : τ) (s t : Process ι) : Prop :=
  ∃ entries, t.logOf a = s.logOf a ++ entries ∧ (t.objects a).Follows M I R (observe M v entries) ∧
    D (observe M v entries)

section Run

variable (hiteration : ∀ s v, I s v → Sat M iteration (Returning (LoopPost I R)) s v)
  (hexpects : ∀ v c (r : SessionCall.Reply c), M.expects v c r)
  (hstable : ∀ v c (r : SessionCall.Reply c), D v → M.allows v c → D (M.next v c r))

include hiteration hexpects hstable

/-- An answer to a call of the object goes on with the loop. -/
theorem step_seen {u : Process ι} {e : ι × SessionEvent} (hseen : Seen M I R D a v s t) (hcontinues : Continues a e)
    (hstep : step t e = some u) : Seen M I R D a v s u := by
  obtain ⟨entries, hlog, hfollows, hD⟩ := hseen
  by_cases hself : e.1 = a
  · obtain ⟨answer, hreply⟩ := hcontinues hself
    obtain ⟨b, event⟩ := e
    obtain rfl : b = a := hself
    obtain rfl : event = .reply answer := hreply
    cases step_moves hstep with
    | @connecting c next _ hphase =>
      rw [hphase] at hfollows
      obtain ⟨hallows, hnext⟩ := hfollows
      refine ⟨entries ++ [⟨c, answer c, if c.usesSession then some t.session else none⟩], ?_, ?_, ?_⟩
      · rw [logOf_record_self, hlog, List.append_assoc]
      · rw [observe_concat]
        simp only [record, Function.update_self]
        exact Phase.ofConnect_follows hiteration (hnext _ (hexpects _ _ _))
      · rw [observe_concat]
        exact hstable _ _ _ hD hallows
    | shuttingDown _ hphase =>
      rw [hphase] at hfollows
      exact hfollows.elim
  · obtain ⟨hobject, hsame⟩ := step_of_ne hself hstep
    exact ⟨entries, hsame.trans hlog, hobject ▸ hfollows, hD⟩

/-- The rule of the loop. An iteration that keeps the invariant gives what is said of
the result of the whole call, whatever the other objects do meanwhile, and what no
allowed call takes away. -/
theorem run_connect {object : MPSshSession} {returned : Option Return} {params : MPConnectionParams} {wantsError : Bool}
    {es : List (ι × SessionEvent)} (hidle : s.objects a = .idle object returned)
    (hcontinues : ∀ e ∈ es, Continues a e) (hrun : run step s ((a, .connectUsingParams params wantsError) :: es) = some t)
    (hconnected : object.connected = true → R true v)
    (hstart : object.connected = false →
      I { toMPSshSession := object, params := defaults params, wantsError, error := none } v) (hD : D v) :
    Seen M I R D a v s t := by
  obtain ⟨mid, hstep, hrest⟩ := Option.bind_eq_some_iff.mp hrun
  refine run_preserves_of (Seen M I R D a v s) ?_ hcontinues ?_ hrest
  · exact fun _ _ _ hseen hevent hstep => step_seen hiteration hexpects hstable hseen hevent hstep
  · cases step_moves hstep with
    | @connect object' _ _ _ hidle' =>
      obtain ⟨rfl, -⟩ : object' = object ∧ _ := by simpa using hidle'.symm.trans hidle
      refine ⟨[], (List.append_nil _).symm, ?_, hD⟩
      simp only [Function.update_self, Phase.connect]
      split
      · rename_i hyes
        exact hconnected hyes
      · rename_i hno
        exact hiteration _ _ (hstart (by simpa using hno))

end Run

end Process

end MPSsh.MPSshSession

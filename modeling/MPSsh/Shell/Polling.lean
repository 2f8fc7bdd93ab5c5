import MPSsh.Shell.Attribution

open Schedule

namespace MPSsh.MPSshShell

/-- The steps of a call of `execCommand:` that polls as long as it can: the status, the
write, 100 polls and the last test. -/
def execSteps : Nat := 103

namespace Dialogue

/-- The client calls no method of the shell. -/
def isWithin : DialogueEvent → Bool
  | .execCommand _ | .execLongCommand _ | .stopLongCommand => false
  | _ => true

/-- After so many steps of a client in `execCommand:`. The call has returned at the last
of them, and with the status of a command only if it has polled to the end. -/
def Waited (before : List Returned) (steps : Nat) (s : Dialogue) : Prop :=
  match s.client with
  | .execStatus _ _ => s.returned = before ∧ steps = 0
  | .execWrite _ _ => s.returned = before ∧ steps = 1
  | .polling _ _ counter => s.returned = before ∧ steps = counter + 2 ∧ counter ≤ 100
  | .idle => steps ≤ execSteps ∧
      ∃ returned, s.returned = before ++ [returned] ∧ (returned.status = .command → steps = execSteps)
  | _ => False

/-- The steps of the client in a schedule. -/
def clientSteps (es : List DialogueEvent) : Nat :=
  es.countP (· = .client)

section Step

variable {before : List Returned} {steps : Nat} {s t : Dialogue}

theorem waited_of_client (hwaited : Waited before steps s) (hclient : t.client = s.client)
    (hreturned : t.returned = s.returned) : Waited before steps t := by
  unfold Waited at hwaited ⊢
  rwa [hclient, hreturned]

theorem clientStep_waited (hwaited : Waited before steps s) (hstep : s.clientStep = some t) :
    Waited before (steps + 1) t := by
  unfold clientStep at hstep
  unfold Waited at hwaited
  split at hstep
  · cases hstep
  · rename_i hclient
    obtain rfl := Option.some.inj hstep
    rw [hclient] at hwaited
    exact ⟨hwaited.1, congrArg (· + 1) hwaited.2⟩
  · rename_i hclient
    obtain rfl := Option.some.inj hstep
    rw [hclient] at hwaited
    exact ⟨hwaited.1, congrArg (· + 1) hwaited.2, Nat.zero_le 100⟩
  · rename_i command clean counter hclient
    rw [hclient] at hwaited
    obtain ⟨hreturned, hsteps, hcounter⟩ := hwaited
    split at hstep
    · obtain rfl := Option.some.inj hstep
      exact ⟨hreturned, by omega, by omega⟩
    · rename_i hends
      obtain rfl := Option.some.inj hstep
      refine ⟨by unfold execSteps; omega, _, congrArg (· ++ _) hreturned, fun hstatus => ?_⟩
      have hlast : ¬ counter < 100 := fun hless => hends ⟨hstatus, hless⟩
      unfold execSteps
      omega
  · rename_i hclient
    rw [hclient] at hwaited
    exact hwaited.elim
  · rename_i hclient
    rw [hclient] at hwaited
    exact hwaited.elim
  · rename_i hclient
    rw [hclient] at hwaited
    exact hwaited.elim

/-- A client in a method is never blocked. -/
theorem client_enabled (hbusy : s.client ≠ .idle) : ∃ u, s.step .client = some u := by
  simp only [step, clientStep]
  split
  · contradiction
  · exact ⟨_, rfl⟩
  · exact ⟨_, rfl⟩
  · split <;> exact ⟨_, rfl⟩
  · exact ⟨_, rfl⟩
  · exact ⟨_, rfl⟩
  · exact ⟨_, rfl⟩

theorem step_waited {e : DialogueEvent} (hwaited : Waited before steps s) (hwithin : isWithin e = true)
    (hstep : s.step e = some t) : Waited before (steps + if e = .client then 1 else 0) t := by
  cases e with
  | execCommand | execLongCommand | stopLongCommand => cases hwithin
  | client => exact clientStep_waited hwaited hstep
  | print line =>
    simp only [step] at hstep
    split at hstep
    · split at hstep
      · cases hstep
      · obtain rfl := Option.some.inj hstep
        exact waited_of_client hwaited rfl rfl
    · cases hstep
  | prompt | deliver =>
    simp only [step] at hstep
    split at hstep
    · obtain rfl := Option.some.inj hstep
      exact waited_of_client hwaited rfl rfl
    · cases hstep

theorem run_waited {es : List DialogueEvent} (hwaited : Waited before steps s)
    (hwithin : ∀ e ∈ es, isWithin e = true) (hrun : run step s es = some t) :
    Waited before (steps + clientSteps es) t := by
  induction es generalizing s steps with
  | nil =>
    obtain rfl := Option.some.inj hrun
    exact hwaited
  | cons e es ih =>
    obtain ⟨he, hes⟩ := List.forall_mem_cons.mp hwithin
    obtain ⟨mid, hstep, hrest⟩ := Option.bind_eq_some_iff.mp hrun
    have hlater := ih (step_waited hwaited he hstep) hes hrest
    have hsteps : clientSteps (e :: es) = clientSteps es + if e = .client then 1 else 0 := by
      simp [clientSteps, List.countP_cons]
    rwa [hsteps, Nat.add_comm (clientSteps es), ← Nat.add_assoc]

end Step

/-- Whatever the remote prints and however its lines are delivered meanwhile, a call of
`execCommand:` takes at most 103 steps. Before it returns its next step is possible, and
it returns without having seen the prompt only after its last poll. -/
theorem execCommand_returns {s entered t : Dialogue} {cmd : String} {es : List DialogueEvent}
    (hentered : s.step (.execCommand cmd) = some entered) (hwithin : ∀ e ∈ es, isWithin e = true)
    (hrun : run step entered es = some t) :
    clientSteps es ≤ execSteps ∧
      ((∃ u, t.step .client = some u) ∧ t.returned = s.returned ∨
        t.client = .idle ∧ ∃ returned, t.returned = s.returned ++ [returned] ∧
          (returned.status = .command → clientSteps es = execSteps)) := by
  have hstart : Waited s.returned 0 entered := by
    simp only [step] at hentered
    split at hentered
    · obtain rfl := Option.some.inj hentered
      exact ⟨rfl, rfl⟩
    · cases hentered
  have hwaited := run_waited hstart hwithin hrun
  rw [Nat.zero_add] at hwaited
  unfold Waited execSteps at hwaited
  unfold execSteps
  split at hwaited
  · rename_i hclient
    exact ⟨by omega, Or.inl ⟨client_enabled (by simp [hclient]), hwaited.1⟩⟩
  · rename_i hclient
    exact ⟨by omega, Or.inl ⟨client_enabled (by simp [hclient]), hwaited.1⟩⟩
  · rename_i hclient
    exact ⟨by omega, Or.inl ⟨client_enabled (by simp [hclient]), hwaited.1⟩⟩
  · rename_i hclient
    exact ⟨hwaited.1, Or.inr ⟨hclient, hwaited.2⟩⟩
  · exact hwaited.elim

/-- The remote does not answer. -/
theorem execCommand_returns_unanswered :
    ∃ entered t, (start idleShell).step (.execCommand "ls") = some entered ∧
      run step entered (List.replicate 103 .client) = some t ∧
      (clientSteps (List.replicate 103 .client) ≤ execSteps ∧
        ((∃ u, t.step .client = some u) ∧ t.returned = [] ∨
          t.client = .idle ∧ ∃ returned, t.returned = [] ++ [returned] ∧
            (returned.status = .command → clientSteps (List.replicate 103 .client) = execSteps))) := by
  have hsome : (run step (start idleShell) (.execCommand "ls" :: List.replicate 103 .client)).isSome = true := by
    decide +kernel
  obtain ⟨t, hall⟩ := Option.isSome_iff_exists.mp hsome
  obtain ⟨entered, hentered, hrun⟩ := Option.bind_eq_some_iff.mp hall
  have hwithin : ∀ e ∈ List.replicate 103 DialogueEvent.client, isWithin e = true := by simp [isWithin]
  exact ⟨entered, t, hentered, hrun, execCommand_returns hentered hwithin hrun⟩

end Dialogue

end MPSsh.MPSshShell

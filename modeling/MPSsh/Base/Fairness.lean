import MPSsh.Base.Schedule

namespace Fairness

variable {σ ε ι : Type*} (step : σ → ε → Option σ) (agent : ε → Option ι)

/-- Takes an event where it is enabled, and leaves the state where it is not. -/
def attempt (s : σ) (e : ε) : σ :=
  (step s e).getD s

def attempts (s : σ) (es : List ε) : σ :=
  es.foldl (attempt step) s

/-- Only the agents act, and each of them gets a turn. -/
structure Round (es : List ε) : Prop where
  inside : ∀ e ∈ es, (agent e).isSome = true
  turn : ∀ i, ∃ e ∈ es, agent e = some i

/-- A rank for the states that satisfy an invariant: an agent's step lowers it or changes
nothing, and as long as the system is not done some agent lowers it whatever it does. -/
structure Ranked (Inv done : σ → Prop) (rank : σ → Nat) : Prop where
  keeps : ∀ s e t, Inv s → (agent e).isSome = true → step s e = some t → Inv t
  falls : ∀ s e t, Inv s → (agent e).isSome = true → step s e = some t → t = s ∨ rank t < rank s
  serves : ∀ s, Inv s → ¬ done s →
    ∃ i, (∃ e, agent e = some i) ∧ ∀ e, agent e = some i → ∃ t, step s e = some t ∧ rank t < rank s
  rests : ∀ s e t, Inv s → done s → (agent e).isSome = true → step s e = some t → done t

section Rules

variable {step : σ → ε → Option σ} {agent : ε → Option ι}

@[simp] theorem attempts_nil (s : σ) : attempts step s [] = s := rfl

@[simp] theorem attempts_cons (s : σ) (e : ε) (es : List ε) :
    attempts step s (e :: es) = attempts step (attempt step s e) es := rfl

theorem attempts_append (s : σ) (es fs : List ε) :
    attempts step s (es ++ fs) = attempts step (attempts step s es) fs :=
  List.foldl_append

theorem attempt_of_some {s t : σ} {e : ε} (hstep : step s e = some t) : attempt step s e = t := by
  rw [attempt, hstep, Option.getD_some]

/-- An attempt is a step or leaves the state as it is. -/
theorem attempt_cases (step : σ → ε → Option σ) (s : σ) (e : ε) :
    step s e = some (attempt step s e) ∨ attempt step s e = s := by
  cases hstep : step s e with
  | none => exact Or.inr (by rw [attempt, hstep, Option.getD_none])
  | some t => exact Or.inl (by rw [attempt_of_some hstep])

variable {Inv done : σ → Prop} {rank : σ → Nat}

namespace Ranked

variable (hranked : Ranked step agent Inv done rank)

include hranked

theorem attempts_keeps {s : σ} {es : List ε} (hinv : Inv s) (hinside : ∀ e ∈ es, (agent e).isSome = true) :
    Inv (attempts step s es) := by
  induction es generalizing s with
  | nil => exact hinv
  | cons e es ih =>
    obtain ⟨he, hes⟩ := List.forall_mem_cons.mp hinside
    obtain hstep | hsame := attempt_cases step s e
    · exact ih (hranked.keeps s e _ hinv he hstep) hes
    · rw [attempts_cons, hsame]
      exact ih hinv hes

theorem attempts_rests {s : σ} {es : List ε} (hinv : Inv s) (hdone : done s)
    (hinside : ∀ e ∈ es, (agent e).isSome = true) : done (attempts step s es) := by
  induction es generalizing s with
  | nil => exact hdone
  | cons e es ih =>
    obtain ⟨he, hes⟩ := List.forall_mem_cons.mp hinside
    obtain hstep | hsame := attempt_cases step s e
    · exact ih (hranked.keeps s e _ hinv he hstep) (hranked.rests s e _ hinv hdone he hstep) hes
    · rw [attempts_cons, hsame]
      exact ih hinv hdone hes

/-- Attempts change nothing or lower the rank. -/
theorem attempts_falls {s : σ} {es : List ε} (hinv : Inv s) (hinside : ∀ e ∈ es, (agent e).isSome = true) :
    attempts step s es = s ∨ rank (attempts step s es) < rank s := by
  induction es generalizing s with
  | nil => exact Or.inl rfl
  | cons e es ih =>
    obtain ⟨he, hes⟩ := List.forall_mem_cons.mp hinside
    rw [attempts_cons]
    obtain hstep | hsame := attempt_cases step s e
    · have hlater := ih (hranked.keeps s e _ hinv he hstep) hes
      obtain hsame | hfalls := hranked.falls s e _ hinv he hstep
      · rwa [hsame] at hlater ⊢
      · right
        obtain hrest | hrest := hlater
        · rwa [hrest]
        · omega
    · rw [hsame]
      exact ih hinv hes

/-- A round in which every agent gets a turn lowers the rank of a system that is not done. -/
theorem round_falls {s : σ} {es : List ε} (hinv : Inv s) (hbusy : ¬ done s) (hround : Round agent es) :
    rank (attempts step s es) < rank s := by
  obtain ⟨i, -, hserves⟩ := hranked.serves s hinv hbusy
  obtain ⟨e, he, hagent⟩ := hround.turn i
  obtain ⟨before, after, rfl⟩ := List.append_of_mem he
  have hinside := hround.inside
  rw [List.forall_mem_append, List.forall_mem_cons] at hinside
  obtain ⟨hbefore, hturn, hafter⟩ := hinside
  rw [attempts_append, attempts_cons]
  have hmid := hranked.attempts_keeps hinv hbefore
  obtain hsame | hfalls := hranked.attempts_falls hinv hbefore
  · -- the agent that can lower the rank still can when its turn comes
    obtain ⟨t, hstep, hless⟩ := hserves e hagent
    rw [hsame, attempt_of_some hstep]
    obtain hrest | hrest := hranked.attempts_falls (hranked.keeps s e t hinv hturn hstep) hafter
    · rwa [hrest]
    · omega
  · have hlater : ∀ f ∈ e :: after, (agent f).isSome = true := List.forall_mem_cons.mpr ⟨hturn, hafter⟩
    rw [← attempts_cons]
    obtain hrest | hrest := hranked.attempts_falls hmid hlater
    · rwa [hrest]
    · omega

/-- As many rounds as the rank are enough for the system to be done. -/
theorem rounds_done {s : σ} {rounds : List (List ε)} (hinv : Inv s) (hrounds : ∀ es ∈ rounds, Round agent es)
    (henough : rank s ≤ rounds.length) : done (attempts step s rounds.flatten) := by
  induction rounds generalizing s with
  | nil =>
    by_contra hbusy
    obtain ⟨i, ⟨e, hagent⟩, hserves⟩ := hranked.serves s hinv hbusy
    obtain ⟨t, -, hless⟩ := hserves e hagent
    rw [List.length_nil] at henough
    omega
  | cons es rounds ih =>
    obtain ⟨hround, hlater⟩ := List.forall_mem_cons.mp hrounds
    rw [List.flatten_cons, attempts_append]
    by_cases hdone : done s
    · apply hranked.attempts_rests (hranked.attempts_keeps hinv hround.inside)
        (hranked.attempts_rests hinv hdone hround.inside)
      intro e he
      obtain ⟨fs, hfs, hmem⟩ := List.mem_flatten.mp he
      exact (hlater fs hfs).inside e hmem
    · have hfalls := hranked.round_falls hinv hdone hround
      refine ih (hranked.attempts_keeps hinv hround.inside) hlater ?_
      rw [List.length_cons] at henough
      omega

end Ranked

end Rules

end Fairness

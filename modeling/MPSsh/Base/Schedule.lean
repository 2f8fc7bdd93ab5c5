import Mathlib.Data.List.Infix

namespace Schedule

variable {σ ε ι α : Type*}

/-- Executes a schedule of events. The result is `none` when an event is not
enabled in the state it is scheduled in. -/
def run (step : σ → ε → Option σ) : σ → List ε → Option σ
  | s, [] => some s
  | s, e :: es => (step s e).bind fun t => run step t es

@[simp] theorem run_nil (step : σ → ε → Option σ) (s : σ) : run step s [] = some s := rfl

/-- Every transition the schedule takes satisfies `P`, up to the first event
that is not enabled. -/
def Along (step : σ → ε → Option σ) (P : σ → ε → σ → Prop) : σ → List ε → Prop
  | _, [] => True
  | s, e :: es =>
    match step s e with
    | none => True
    | some t => P s e t ∧ Along step P t es

instance Along.decidable (step : σ → ε → Option σ) (P : σ → ε → σ → Prop)
    [∀ s e t, Decidable (P s e t)] : ∀ s es, Decidable (Along step P s es)
  | _, [] => inferInstanceAs (Decidable True)
  | s, e :: es =>
    have := fun t => Along.decidable step P t es
    match hstep : step s e with
    | none => isTrue (by simp [Along, hstep])
    | some t => decidable_of_iff (P s e t ∧ Along step P t es) (by simp [Along, hstep])

section Rules

variable {step : σ → ε → Option σ} {P C : σ → ε → σ → Prop}

@[simp] theorem along_nil (s : σ) : Along step P s [] := trivial

theorem along_cons {s : σ} {e : ε} {es : List ε} :
    Along step P s (e :: es) ↔ ∀ t, step s e = some t → P s e t ∧ Along step P t es := by
  cases hstep : step s e <;> simp [Along, hstep]

theorem along_append {s : σ} {es fs : List ε} :
    Along step P s (es ++ fs) ↔
      Along step P s es ∧ ∀ t, run step s es = some t → Along step P t fs := by
  induction es generalizing s with
  | nil => simp
  | cons e es ih =>
    cases hstep : step s e with
    | none => simp [Along, run, hstep]
    | some t => simp [Along, run, hstep, ih, and_assoc]

theorem Along.mono {Q : σ → ε → σ → Prop} (himp : ∀ s e t, step s e = some t → P s e t → Q s e t)
    {s : σ} {es : List ε} (halong : Along step P s es) : Along step Q s es := by
  induction es generalizing s with
  | nil => trivial
  | cons e es ih =>
    rw [along_cons] at halong ⊢
    intro t hstep
    exact ⟨himp s e t hstep (halong t hstep).1, ih (halong t hstep).2⟩

/-- A condition on the transitions of a schedule gives `P` at each of them when
the condition lets every single transition keep the invariant and satisfy `P`. -/
theorem Along.of_invariant (Inv : σ → Prop)
    (hpreserve : ∀ s e t, Inv s → C s e t → step s e = some t → P s e t ∧ Inv t)
    {s : σ} {es : List ε} (hinv : Inv s) (hcond : Along step C s es) : Along step P s es := by
  induction es generalizing s with
  | nil => trivial
  | cons e es ih =>
    rw [along_cons] at hcond ⊢
    intro t hstep
    obtain ⟨hC, hrest⟩ := hcond t hstep
    obtain ⟨hP, ht⟩ := hpreserve s e t hinv hC hstep
    exact ⟨hP, ih ht hrest⟩

/-- A step that keeps the invariant and satisfies `P` wherever the invariant holds
gives `P` along every schedule. -/
theorem Along.of_preserved (Inv : σ → Prop) (hpreserve : ∀ s e t, Inv s → step s e = some t → P s e t ∧ Inv t)
    {s : σ} (hinv : Inv s) (es : List ε) : Along step P s es := by
  induction es generalizing s with
  | nil => trivial
  | cons e es ih =>
    rw [along_cons]
    intro t hstep
    obtain ⟨hP, ht⟩ := hpreserve s e t hinv hstep
    exact ⟨hP, ih ht⟩

/-- What every transition of a schedule brings about holds at the end of its run. -/
theorem Along.reaches {R : σ → Prop} (himp : ∀ s e t, P s e t → R t) {s t : σ} {es : List ε}
    (halong : Along step P s es) (hs : R s) (hrun : run step s es = some t) : R t := by
  induction es generalizing s with
  | nil =>
    simp only [run_nil, Option.some.injEq] at hrun
    exact hrun ▸ hs
  | cons e es ih =>
    obtain ⟨mid, hstep, hrest⟩ := Option.bind_eq_some_iff.mp hrun
    obtain ⟨hP, hmid⟩ := along_cons.mp halong mid hstep
    exact ih hmid (himp s e mid hP) hrest

/-- When the invariant makes property and condition equivalent transition by
transition, they are equivalent along every schedule. -/
theorem along_iff_of_invariant (Inv : σ → Prop)
    (hiff : ∀ s e t, Inv s → step s e = some t → (P s e t ↔ C s e t))
    (hpreserve : ∀ s e t, Inv s → C s e t → step s e = some t → Inv t)
    {s : σ} {es : List ε} (hinv : Inv s) : Along step P s es ↔ Along step C s es := by
  induction es generalizing s with
  | nil => exact Iff.rfl
  | cons e es ih =>
    rw [along_cons, along_cons]
    constructor
    · intro halong t hstep
      have hC := (hiff s e t hinv hstep).mp (halong t hstep).1
      exact ⟨hC, (ih (hpreserve s e t hinv hC hstep)).mp (halong t hstep).2⟩
    · intro halong t hstep
      have hC := (halong t hstep).1
      exact ⟨(hiff s e t hinv hstep).mpr hC, (ih (hpreserve s e t hinv hC hstep)).mpr (halong t hstep).2⟩

theorem run_singleton (step : σ → ε → Option σ) (s : σ) (e : ε) : run step s [e] = step s e := by
  simp [run]

theorem run_append {s t : σ} {es fs : List ε} (hrun : run step s es = some t) :
    run step s (es ++ fs) = run step t fs := by
  induction es generalizing s with
  | nil =>
    simp only [run_nil, Option.some.injEq] at hrun
    rw [hrun, List.nil_append]
  | cons e es ih =>
    obtain ⟨mid, hstep, hrest⟩ := Option.bind_eq_some_iff.mp hrun
    simpa [run, hstep] using ih hrest

/-- A relation that every step of one system lets some steps of another keep is kept
along whole runs. -/
theorem run_simulates {τ δ : Type*} {step' : τ → δ → Option τ} (R : σ → τ → Prop)
    (hsimulates : ∀ s e t u, R s u → step s e = some t → ∃ es v, run step' u es = some v ∧ R t v)
    {s t : σ} {u : τ} {es : List ε} (hrel : R s u) (hrun : run step s es = some t) :
    ∃ fs v, run step' u fs = some v ∧ R t v := by
  induction es generalizing s u with
  | nil =>
    simp only [run_nil, Option.some.injEq] at hrun
    exact ⟨[], u, rfl, hrun ▸ hrel⟩
  | cons e es ih =>
    obtain ⟨mid, hstep, hrest⟩ := Option.bind_eq_some_iff.mp hrun
    obtain ⟨first, v, hfirst, hmid⟩ := hsimulates s e mid u hrel hstep
    obtain ⟨later, w, hlater, hend⟩ := ih hmid hrest
    exact ⟨first ++ later, w, by rw [run_append hfirst, hlater], hend⟩

/-- A relation that every step of one system lets some steps of another keep, under a
condition on the step and with the same observations, is kept along the runs that meet
the condition, and the runs are observed alike. -/
theorem run_refines_along {τ δ γ : Type*} {step' : τ → δ → Option τ} (R : σ → τ → Prop) (seen : ε → Option γ)
    (seen' : δ → Option γ)
    (hsimulates : ∀ s e t u, R s u → C s e t → step s e = some t →
      ∃ es v, run step' u es = some v ∧ es.filterMap seen' = (seen e).toList ∧ R t v)
    {s t : σ} {u : τ} {es : List ε} (hrel : R s u) (hcond : Along step C s es) (hrun : run step s es = some t) :
    ∃ fs v, run step' u fs = some v ∧ fs.filterMap seen' = es.filterMap seen ∧ R t v := by
  induction es generalizing s u with
  | nil =>
    simp only [run_nil, Option.some.injEq] at hrun
    exact ⟨[], u, rfl, rfl, hrun ▸ hrel⟩
  | cons e es ih =>
    obtain ⟨mid, hstep, hrest⟩ := Option.bind_eq_some_iff.mp hrun
    obtain ⟨hfirst, hlater⟩ := along_cons.mp hcond mid hstep
    obtain ⟨front, v, hfront, hseen, hmid⟩ := hsimulates s e mid u hrel hfirst hstep
    obtain ⟨back, w, hback, hsame, hend⟩ := ih hmid hlater hrest
    refine ⟨front ++ back, w, by rw [run_append hfront, hback], ?_, hend⟩
    rw [List.filterMap_append, hseen, hsame, List.filterMap_cons]
    cases seen e <;> rfl

/-- An invariant of every step that meets a condition reaches the last state of every run
along which the condition is met. -/
theorem run_preserves_along (Inv : σ → Prop) (hpreserve : ∀ s e t, Inv s → C s e t → step s e = some t → Inv t)
    {s t : σ} {es : List ε} (hinv : Inv s) (hcond : Along step C s es) (hrun : run step s es = some t) : Inv t := by
  have hkept : Along step (fun _ _ t => Inv t) s es :=
    Along.of_invariant Inv (fun s e t hs he hstep => ⟨hpreserve s e t hs he hstep, hpreserve s e t hs he hstep⟩) hinv
      hcond
  exact hkept.reaches (R := Inv) (fun _ _ _ ht => ht) hinv hrun

/-- An invariant of every step with an allowed event reaches the last state of every run
of such events. -/
theorem run_preserves_of (Inv : σ → Prop) {allowed : ε → Prop}
    (hpreserve : ∀ s e t, Inv s → allowed e → step s e = some t → Inv t) {s t : σ} {es : List ε}
    (hallowed : ∀ e ∈ es, allowed e) (hinv : Inv s) (hrun : run step s es = some t) : Inv t := by
  induction es generalizing s with
  | nil =>
    simp only [run_nil, Option.some.injEq] at hrun
    exact hrun ▸ hinv
  | cons e es ih =>
    obtain ⟨mid, hstep, hrest⟩ := Option.bind_eq_some_iff.mp hrun
    obtain ⟨he, hes⟩ := List.forall_mem_cons.mp hallowed
    exact ih hes (hpreserve s e mid hinv he hstep) hrest

/-- An invariant of every step reaches the last state of every run. -/
theorem run_preserves (Inv : σ → Prop) (hpreserve : ∀ s e t, Inv s → step s e = some t → Inv t)
    {s t : σ} {es : List ε} (hinv : Inv s) (hrun : run step s es = some t) : Inv t :=
  run_preserves_of Inv (fun s e t hs _ hstep => hpreserve s e t hs hstep) (fun _ _ => trivial) hinv hrun

end Rules

section Interleaving

variable [DecidableEq ι]

/-- The events of one participant, in schedule order. -/
def project (i : ι) (es : List (ι × α)) : List α :=
  es.filterMap fun e => if e.1 = i then some e.2 else none

@[simp] theorem project_nil (i : ι) : project i ([] : List (ι × α)) = [] := rfl

@[simp] theorem project_cons_self (i : ι) (a : α) (es : List (ι × α)) :
    project i ((i, a) :: es) = a :: project i es := by
  simp [project]

theorem project_cons_of_ne {i j : ι} (hne : j ≠ i) (a : α) (es : List (ι × α)) :
    project i ((j, a) :: es) = project i es := by
  simp [project, hne]

theorem project_append (i : ι) (es fs : List (ι × α)) :
    project i (es ++ fs) = project i es ++ project i fs := by
  simp [project]

end Interleaving

end Schedule

import MPSsh.Base.Interaction

namespace Interaction

variable {Call : Type} {Reply : Call → Type} {σ τ α β γ : Type}

/-- The program goes wrong at once: it has ended without returning, or makes a call
that is wrong here. -/
def Prog.Fails (wrong : τ → Call → Prop) : Prog Call Reply (Outcome α × σ) → τ → Prop
  | .done (.returns _, _), _ => False
  | .done (.raised, _), _ | .done (.crashed, _), _ => True
  | .act c _, t => wrong t c

/-- As long as the replies are the expected ones, the program makes only calls that the
monitor allows, and returns with `Q`. After any other reply it goes wrong at once. -/
def Prog.Exact (M : Monitor Call Reply τ) (wrong : τ → Call → Prop) (Q : α → σ → τ → Prop) :
    Prog Call Reply (Outcome α × σ) → τ → Prop
  | .done (.returns a, s), t => Q a s t
  | .done (.raised, _), _ | .done (.crashed, _), _ => False
  | .act c next, t =>
    M.allows t c ∧ ∀ r, (M.expects t c r → (next r).Exact M wrong Q (M.next t c r)) ∧
      (¬ M.expects t c r → (next r).Fails wrong (M.next t c r))

namespace Method

theorem bind_assoc (m : Method Call Reply σ α) (f : α → Method Call Reply σ β) (g : β → Method Call Reply σ γ) :
    m >>= f >>= g = m >>= fun a => f a >>= g := by
  funext s
  change Method.bind (Method.bind m f) g s = Method.bind m (fun a => Method.bind (f a) g) s
  simp only [Method.bind, Prog.bind_assoc]
  congr 1
  funext result
  obtain ⟨result, s'⟩ := result
  cases result <;> rfl

/-- The rules of `Prog.Exact` for methods. -/
def Exact (M : Monitor Call Reply τ) (wrong : τ → Call → Prop) (m : Method Call Reply σ α) (Q : α → σ → τ → Prop)
    (s : σ) (t : τ) : Prop :=
  (m s).Exact M wrong Q t

section Exact

variable {M : Monitor Call Reply τ} {wrong : τ → Call → Prop} {Q : α → σ → τ → Prop} {s : σ} {t : τ}

@[simp] theorem exact_modify {f : σ → σ} {Q : PUnit → σ → τ → Prop} :
    Exact M wrong (modify f : Method Call Reply σ PUnit) Q s t ↔ Q () (f s) t := Iff.rfl

@[simp] theorem exact_get_bind {f : σ → Method Call Reply σ α} :
    Exact M wrong (get >>= f) Q s t ↔ Exact M wrong (f s) Q s t := Iff.rfl

@[simp] theorem exact_modify_bind {g : σ → σ} {f : PUnit → Method Call Reply σ α} :
    Exact M wrong (modify g >>= f) Q s t ↔ Exact M wrong (f ()) Q (g s) t := Iff.rfl

theorem exact_perform_bind {c : Call} {f : Reply c → Method Call Reply σ α} :
    Exact M wrong (perform c >>= f) Q s t ↔
      M.allows t c ∧ ∀ r, (M.expects t c r → Exact M wrong (f r) Q s (M.next t c r)) ∧
        (¬ M.expects t c r → (f r s).Fails wrong (M.next t c r)) := Iff.rfl

/-- A call of which every reply is expected. -/
theorem exact_perform {c : Call} {Q : Reply c → σ → τ → Prop} (hallows : M.allows t c)
    (hexpects : ∀ r, M.expects t c r) (hpost : ∀ r, Q r s (M.next t c r)) : Exact M wrong (perform c) Q s t :=
  ⟨hallows, fun r => ⟨fun _ => hpost r, fun hnot => absurd (hexpects r) hnot⟩⟩

theorem Exact.mono {m : Method Call Reply σ α} {R : α → σ → τ → Prop} (himp : ∀ a s t, Q a s t → R a s t)
    (hexact : Exact M wrong m Q s t) : Exact M wrong m R s t := by
  unfold Exact at hexact ⊢
  generalize m s = p at hexact ⊢
  induction p generalizing t with
  | done result =>
    obtain ⟨result, s'⟩ := result
    cases result with
    | returns a => exact himp a s' t hexact
    | raised | crashed => exact hexact
  | act c next ih => exact ⟨hexact.1, fun r => ⟨fun hr => ih r ((hexact.2 r).1 hr), (hexact.2 r).2⟩⟩

/-- What has gone wrong does so whatever would have followed. -/
theorem fails_bind {m : Method Call Reply σ β} {f : β → Method Call Reply σ α} (hfails : (m s).Fails wrong t) :
    ((m >>= f) s).Fails wrong t := by
  change (Method.bind m f s).Fails wrong t
  unfold Method.bind
  cases hm : m s with
  | act c next =>
    rw [hm] at hfails
    exact hfails
  | done result =>
    obtain ⟨result, s'⟩ := result
    rw [hm] at hfails
    cases result with
    | returns b => exact hfails.elim
    | raised | crashed => trivial

theorem exact_bind {m : Method Call Reply σ β} {f : β → Method Call Reply σ α}
    (hexact : Exact M wrong m (fun b s t => Exact M wrong (f b) Q s t) s t) : Exact M wrong (m >>= f) Q s t := by
  change Prog.Exact M wrong Q (Method.bind m f s) t
  unfold Exact at hexact
  unfold Method.bind
  generalize m s = p at hexact ⊢
  induction p generalizing t with
  | done result =>
    obtain ⟨result, s'⟩ := result
    cases result with
    | returns b => exact hexact
    | raised | crashed => exact hexact.elim
  | act c next ih =>
    obtain ⟨hallows, hnext⟩ := hexact
    refine ⟨hallows, fun r => ⟨fun hr => ih r ((hnext r).1 hr), fun hnot => ?_⟩⟩
    exact fails_bind (m := fun _ : σ => next r) (s := s) ((hnext r).2 hnot)

/-- From every state with `P` the method is exact, with `Q` at its end. -/
def Triple (M : Monitor Call Reply τ) (wrong : τ → Call → Prop) (P : σ → τ → Prop) (m : Method Call Reply σ α)
    (Q : α → σ → τ → Prop) : Prop :=
  ∀ s t, P s t → Exact M wrong m Q s t

variable {P : σ → τ → Prop}

theorem triple_pure {a : α} (himp : ∀ s t, P s t → Q a s t) : Triple M wrong P (pure a) Q := himp

theorem triple_modify {f : σ → σ} {Q : PUnit → σ → τ → Prop} (himp : ∀ s t, P s t → Q () (f s) t) :
    Triple M wrong P (modify f) Q := himp

theorem triple_get_bind {f : σ → Method Call Reply σ α} (hf : ∀ s t, P s t → Exact M wrong (f s) Q s t) :
    Triple M wrong P (get >>= f) Q := hf

theorem triple_bind {m : Method Call Reply σ β} {f : β → Method Call Reply σ α} {R : β → σ → τ → Prop}
    (hm : Triple M wrong P m R) (hf : ∀ b, Triple M wrong (R b) (f b) Q) : Triple M wrong P (m >>= f) Q :=
  fun s t h => exact_bind ((hm s t h).mono fun b s t h => hf b s t h)

theorem triple_ite {p : Prop} [Decidable p] {m n : Method Call Reply σ α} (hm : p → Triple M wrong P m Q)
    (hn : ¬ p → Triple M wrong P n Q) : Triple M wrong P (if p then m else n) Q := by
  split
  · exact hm ‹_›
  · exact hn ‹_›

theorem Triple.imp {m : Method Call Reply σ α} {P' : σ → τ → Prop} {R : α → σ → τ → Prop}
    (htriple : Triple M wrong P m Q) (hpre : ∀ s t, P' s t → P s t) (hpost : ∀ a s t, Q a s t → R a s t) :
    Triple M wrong P' m R :=
  fun s t h => (htriple s t (hpre s t h)).mono hpost

end Exact

end Method

end Interaction

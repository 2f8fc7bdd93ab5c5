import Mathlib.Logic.Basic

namespace Interaction

/-- A program that talks to its surroundings: it is done, or it makes a call and
goes on with the reply. -/
inductive Prog (Call : Type) (Reply : Call → Type) (α : Type) where
  | done (a : α)
  | act (c : Call) (next : Reply c → Prog Call Reply α)

/-- How a method ends. An exception leaves the state as it is at that point; a
crash ends the process. -/
inductive Outcome (α : Type) where
  | returns (a : α)
  | raised
  | crashed
  deriving DecidableEq, Repr

variable {Call : Type} {Reply : Call → Type} {σ τ α β γ : Type}

def Prog.bind (p : Prog Call Reply α) (f : α → Prog Call Reply β) : Prog Call Reply β :=
  match p with
  | .done a => f a
  | .act c next => .act c fun r => (next r).bind f

instance : Monad (Prog Call Reply) where
  pure := .done
  bind := .bind

/-- A program of one call. -/
def Prog.perform (c : Call) : Prog Call Reply (Reply c) :=
  .act c .done

/-- A method reads and writes a state, makes calls, and returns, raises or
crashes. -/
def Method (Call : Type) (Reply : Call → Type) (σ α : Type) : Type :=
  σ → Prog Call Reply (Outcome α × σ)

namespace Method

def bind (m : Method Call Reply σ α) (f : α → Method Call Reply σ β) : Method Call Reply σ β := fun s =>
  (m s).bind fun (result, s) =>
    match result with
    | .returns a => f a s
    | .raised => .done (.raised, s)
    | .crashed => .done (.crashed, s)

instance : Monad (Method Call Reply σ) where
  pure a s := .done (.returns a, s)
  bind := bind

instance : MonadStateOf σ (Method Call Reply σ) where
  get s := .done (.returns s, s)
  set t _ := .done (.returns (), t)
  modifyGet f s := .done (.returns (f s).1, (f s).2)

/-- Makes a call. -/
def perform (c : Call) : Method Call Reply σ (Reply c) := fun s =>
  .act c fun r => .done (.returns r, s)

def raise : Method Call Reply σ α := fun s => .done (.raised, s)

def crash : Method Call Reply σ α := fun s => .done (.crashed, s)

end Method

/-- An observer of a program's calls: which calls it allows, which replies it
counts with, and how its own state follows them. -/
structure Monitor (Call : Type) (Reply : Call → Type) (τ : Type) where
  allows : τ → Call → Prop
  expects : τ → (c : Call) → Reply c → Prop
  next : τ → (c : Call) → Reply c → τ

/-- Whatever the expected replies are, the program makes only calls that the
monitor allows, and ends with `Q`. -/
def Prog.Sat (M : Monitor Call Reply τ) (Q : α → τ → Prop) : Prog Call Reply α → τ → Prop
  | .done a, t => Q a t
  | .act c next, t => M.allows t c ∧ ∀ r, M.expects t c r → (next r).Sat M Q (M.next t c r)

/-- A program makes these calls, gets these replies to them, and returns this value. -/
inductive Prog.Makes : Prog Call Reply α → List (Sigma Reply) → α → Prop where
  | done (a : α) : Makes (.done a) [] a
  | act {c : Call} {next : Reply c → Prog Call Reply α} {calls : List (Sigma Reply)} {a : α} (r : Reply c)
      (hrest : Makes (next r) calls a) : Makes (.act c next) (⟨c, r⟩ :: calls) a

namespace Monitor

/-- What an observer has seen after a sequence of calls with their replies. -/
def follow (M : Monitor Call Reply τ) (t : τ) (calls : List (Sigma Reply)) : τ :=
  calls.foldl (fun t call => M.next t call.1 call.2) t

theorem follow_concat (M : Monitor Call Reply τ) (t : τ) (calls : List (Sigma Reply)) (c : Call) (r : Reply c) :
    M.follow t (calls ++ [⟨c, r⟩]) = M.next (M.follow t calls) c r := by
  simp [follow]

/-- The observer that remembers the calls themselves. -/
def recording (M : Monitor Call Reply τ) (t : τ) : Monitor Call Reply (List (Sigma Reply)) where
  allows calls c := M.allows (M.follow t calls) c
  expects calls c r := M.expects (M.follow t calls) c r
  next calls c r := calls ++ [⟨c, r⟩]

end Monitor

/-- The monitor lets a call pass and does not look at its reply. -/
structure Ignores (M : Monitor Call Reply τ) (c : Call) : Prop where
  allows : ∀ t, M.allows t c
  next : ∀ t r, M.next t c r = t

section Rules

variable {M : Monitor Call Reply τ}

theorem Prog.sat_act {Q : α → τ → Prop} {c : Call} {next : Reply c → Prog Call Reply α} {t : τ} :
    (Prog.act c next).Sat M Q t ↔
      M.allows t c ∧ ∀ r, M.expects t c r → (next r).Sat M Q (M.next t c r) := Iff.rfl

theorem Prog.Sat.mono {Q R : α → τ → Prop} (himp : ∀ a t, Q a t → R a t) {p : Prog Call Reply α} {t : τ}
    (hsat : p.Sat M Q t) : p.Sat M R t := by
  induction p generalizing t with
  | done a => exact himp a t hsat
  | act c next ih => exact ⟨hsat.1, fun r hr => ih r (hsat.2 r hr)⟩

theorem Prog.Sat.and {Q R : α → τ → Prop} {p : Prog Call Reply α} {t : τ} (hQ : p.Sat M Q t) (hR : p.Sat M R t) :
    p.Sat M (fun a t => Q a t ∧ R a t) t := by
  induction p generalizing t with
  | done a => exact ⟨hQ, hR⟩
  | act c next ih => exact ⟨hQ.1, fun r hr => ih r (hQ.2 r hr) (hR.2 r hr)⟩

/-- A program whose calls can be answered as expected has an end. -/
theorem Prog.Sat.exists_end {Q : α → τ → Prop} (hexpects : ∀ t c, ∃ r, M.expects t c r) {p : Prog Call Reply α}
    {t : τ} (hsat : p.Sat M Q t) : ∃ a t', Q a t' := by
  induction p generalizing t with
  | done a => exact ⟨a, t, hsat⟩
  | act c next ih =>
    obtain ⟨r, hr⟩ := hexpects t c
    exact ih r (hsat.2 r hr)

/-- What an observer has seen of a program at its end is what the calls that the program
has made show. -/
theorem Prog.sat_recording {Q : α → τ → Prop} {p : Prog Call Reply α} {t : τ} {calls : List (Sigma Reply)}
    (hsat : p.Sat M Q (M.follow t calls)) :
    p.Sat (M.recording t) (fun a seen => Q a (M.follow t seen) ∧ ∃ made, p.Makes made a ∧ seen = calls ++ made) calls := by
  induction p generalizing calls with
  | done a => exact ⟨hsat, [], .done a, (List.append_nil calls).symm⟩
  | act c next ih =>
    refine ⟨hsat.1, fun r hr => ?_⟩
    have hrest := hsat.2 r hr
    rw [← M.follow_concat] at hrest
    apply (ih r hrest).mono
    rintro a seen ⟨hQ, made, hmade, rfl⟩
    exact ⟨hQ, ⟨c, r⟩ :: made, .act r hmade, by simp⟩

theorem Prog.sat_bind {Q : β → τ → Prop} {p : Prog Call Reply α} {f : α → Prog Call Reply β} {t : τ} :
    (p.bind f).Sat M Q t ↔ p.Sat M (fun a t => (f a).Sat M Q t) t := by
  induction p generalizing t with
  | done a => exact Iff.rfl
  | act c next ih =>
    simp only [Prog.bind, Prog.sat_act]
    exact and_congr_right fun _ => forall_congr' fun r => imp_congr_right fun _ => ih r

end Rules

namespace Method

/-- The rules of `Prog.Sat` for methods: the postcondition sees how the method
ends and the state it leaves. -/
def Sat (M : Monitor Call Reply τ) (m : Method Call Reply σ α) (Q : Outcome α → σ → τ → Prop) (s : σ) (t : τ) : Prop :=
  (m s).Sat M (fun result t => Q result.1 result.2 t) t

/-- What follows a method that ends in this way. -/
def andThen (M : Monitor Call Reply τ) (f : α → Method Call Reply σ β) (Q : Outcome β → σ → τ → Prop) :
    Outcome α → σ → τ → Prop
  | .returns a, s, t => Sat M (f a) Q s t
  | .raised, s, t => Q .raised s t
  | .crashed, s, t => Q .crashed s t

/-- The postcondition that looks only at a method that returns. -/
def Returning (Q : α → σ → τ → Prop) : Outcome α → σ → τ → Prop
  | .returns a, s, t => Q a s t
  | .raised, _, _ | .crashed, _, _ => True

variable {M : Monitor Call Reply τ} {Q : Outcome α → σ → τ → Prop} {s : σ} {t : τ}

@[simp] theorem sat_pure {a : α} : Sat M (pure a : Method Call Reply σ α) Q s t ↔ Q (.returns a) s t := Iff.rfl

@[simp] theorem sat_get {Q : Outcome σ → σ → τ → Prop} :
    Sat M (get : Method Call Reply σ σ) Q s t ↔ Q (.returns s) s t := Iff.rfl

@[simp] theorem sat_modify {f : σ → σ} {Q : Outcome PUnit → σ → τ → Prop} :
    Sat M (modify f : Method Call Reply σ PUnit) Q s t ↔ Q (.returns ()) (f s) t := Iff.rfl

@[simp] theorem sat_perform {c : Call} {Q : Outcome (Reply c) → σ → τ → Prop} :
    Sat M (perform c : Method Call Reply σ (Reply c)) Q s t ↔
      M.allows t c ∧ ∀ r, M.expects t c r → Q (.returns r) s (M.next t c r) := Iff.rfl

theorem sat_bind {m : Method Call Reply σ β} {f : β → Method Call Reply σ α} :
    Sat M (m >>= f) Q s t ↔ Sat M m (andThen M f Q) s t := by
  change Prog.Sat M _ (Method.bind m f s) t ↔ _
  unfold Method.bind
  rw [Prog.sat_bind]
  unfold Sat
  have hsame : ∀ (result : Outcome β × σ) (t : τ),
      Prog.Sat M (fun result t => Q result.1 result.2 t)
        (match result with
          | (result, s) =>
            match result with
            | .returns a => f a s
            | .raised => .done (.raised, s)
            | .crashed => .done (.crashed, s)) t ↔ andThen M f Q result.1 result.2 t := by
    rintro ⟨result, s⟩ t
    cases result <;> exact Iff.rfl
  constructor
  · exact Prog.Sat.mono fun result t h => (hsame result t).mp h
  · exact Prog.Sat.mono fun result t h => (hsame result t).mpr h

@[simp] theorem andThen_returns {f : β → Method Call Reply σ α} {b : β} :
    andThen M f Q (.returns b) s t ↔ Sat M (f b) Q s t := Iff.rfl

theorem sat_bind_returning {m : Method Call Reply σ β} {f : β → Method Call Reply σ α} {Q : α → σ → τ → Prop}
    (hsat : Sat M m (Returning fun b s t => Sat M (f b) (Returning Q) s t) s t) :
    Sat M (m >>= f) (Returning Q) s t := by
  rw [sat_bind]
  unfold Sat at hsat ⊢
  apply Prog.Sat.mono _ hsat
  rintro ⟨result, s'⟩ t' h
  cases result with
  | returns b => exact h
  | raised | crashed => trivial

theorem Sat.mono {m : Method Call Reply σ α} {R : Outcome α → σ → τ → Prop}
    (himp : ∀ result s t, Q result s t → R result s t) (hsat : Sat M m Q s t) : Sat M m R s t := by
  unfold Sat at hsat ⊢
  exact Prog.Sat.mono (fun result t h => himp result.1 result.2 t h) hsat

theorem Sat.and {m : Method Call Reply σ α} {R : Outcome α → σ → τ → Prop} (hQ : Sat M m Q s t) (hR : Sat M m R s t) :
    Sat M m (fun result s t => Q result s t ∧ R result s t) s t :=
  Prog.Sat.and hQ hR

theorem Sat.exists_end (hexpects : ∀ t c, ∃ r, M.expects t c r) {m : Method Call Reply σ α} (hsat : Sat M m Q s t) :
    ∃ result s' t', Q result s' t' := by
  obtain ⟨result, t', hpost⟩ := Prog.Sat.exists_end hexpects hsat
  exact ⟨_, _, t', hpost⟩

theorem sat_ignored {c : Call} {Q : Outcome (Reply c) → σ → τ → Prop} (hignores : Ignores M c)
    (hpost : ∀ r, Q (.returns r) s t) : Sat M (perform c) Q s t := by
  refine sat_perform.mpr ⟨hignores.allows t, fun r _ => ?_⟩
  rw [hignores.next]
  exact hpost r

/-- A method whose calls the monitor ignores, and which keeps a part of the state. -/
def Keeps (M : Monitor Call Reply τ) (part : σ → γ) (m : Method Call Reply σ α) : Prop :=
  ∀ (Q : Outcome α → σ → τ → Prop) (s : σ) (t : τ),
    (∀ result s', part s' = part s → Q result s' t) → Sat M m Q s t

section Keeps

variable {part : σ → γ}

theorem keeps_pure (a : α) : Keeps M part (pure a) := fun _ _ _ hpost => hpost _ _ rfl

theorem keeps_raise : Keeps M part (raise : Method Call Reply σ α) := fun _ _ _ hpost => hpost _ _ rfl

theorem keeps_crash : Keeps M part (crash : Method Call Reply σ α) := fun _ _ _ hpost => hpost _ _ rfl

theorem keeps_get : Keeps M part (get : Method Call Reply σ σ) := fun _ _ _ hpost => hpost _ _ rfl

theorem keeps_modify {f : σ → σ} (hf : ∀ s, part (f s) = part s) :
    Keeps M part (modify f : Method Call Reply σ PUnit) :=
  fun _ s _ hpost => hpost _ _ (hf s)

theorem keeps_perform {c : Call} (hignores : Ignores M c) : Keeps M part (perform c) :=
  fun _ _ _ hpost => sat_ignored hignores fun _ => hpost _ _ rfl

/-- The rule for what follows a method that keeps the part. -/
theorem Keeps.andThen {m : Method Call Reply σ β} {f : β → Method Call Reply σ α} (hm : Keeps M part m)
    (hreturns : ∀ b s', part s' = part s → Sat M (f b) Q s' t)
    (hends : ∀ s', part s' = part s → Q .raised s' t ∧ Q .crashed s' t) : Sat M (m >>= f) Q s t := by
  rw [sat_bind]
  apply hm
  intro result s' hpart
  cases result with
  | returns b => exact hreturns b s' hpart
  | raised => exact (hends s' hpart).1
  | crashed => exact (hends s' hpart).2

theorem keeps_bind {m : Method Call Reply σ β} {f : β → Method Call Reply σ α} (hm : Keeps M part m)
    (hf : ∀ b, Keeps M part (f b)) : Keeps M part (m >>= f) := by
  intro Q s t hpost
  apply hm.andThen
  · intro b s' hpart
    apply hf b
    exact fun result s'' hpart' => hpost result s'' (hpart'.trans hpart)
  · exact fun s' hpart => ⟨hpost _ _ hpart, hpost _ _ hpart⟩

theorem keeps_ite {p : Prop} [Decidable p] {m n : Method Call Reply σ α} (hm : Keeps M part m)
    (hn : Keeps M part n) : Keeps M part (if p then m else n) := by
  split
  · exact hm
  · exact hn

end Keeps

/-- A method that leaves a relation between the state and the observer as it is, however
it ends. -/
def Maintains (M : Monitor Call Reply τ) (P : σ → τ → Prop) (m : Method Call Reply σ α) : Prop :=
  ∀ s t, P s t → Sat M m (fun _ s t => P s t) s t

section Maintains

variable {P : σ → τ → Prop}

theorem maintains_pure (a : α) : Maintains M P (pure a) := fun _ _ h => h

theorem maintains_raise : Maintains M P (raise : Method Call Reply σ α) := fun _ _ h => h

theorem maintains_crash : Maintains M P (crash : Method Call Reply σ α) := fun _ _ h => h

theorem maintains_get : Maintains M P (get : Method Call Reply σ σ) := fun _ _ h => h

theorem maintains_modify {f : σ → σ} (hf : ∀ s t, P s t → P (f s) t) :
    Maintains M P (modify f : Method Call Reply σ PUnit) := fun s t h => hf s t h

theorem maintains_perform {c : Call} (hallows : ∀ t, M.allows t c) (hnext : ∀ s t r, P s t → P s (M.next t c r)) :
    Maintains M P (perform c) :=
  fun s t h => sat_perform.mpr ⟨hallows t, fun r _ => hnext s t r h⟩

theorem maintains_ignored {c : Call} (hignores : Ignores M c) : Maintains M P (perform c) :=
  fun _ _ h => sat_ignored hignores fun _ => h

/-- The rule for what follows a method that maintains the relation. -/
theorem Maintains.andThen {m : Method Call Reply σ β} {f : β → Method Call Reply σ α} (hm : Maintains M P m)
    (hP : P s t) (hreturns : ∀ b s' t', P s' t' → Sat M (f b) Q s' t')
    (hends : ∀ s' t', P s' t' → Q .raised s' t' ∧ Q .crashed s' t') : Sat M (m >>= f) Q s t := by
  rw [sat_bind]
  apply (hm s t hP).mono
  intro result s' t' h
  cases result with
  | returns b => exact hreturns b s' t' h
  | raised => exact (hends s' t' h).1
  | crashed => exact (hends s' t' h).2

theorem Maintains.andThen_returning {m : Method Call Reply σ β} {f : β → Method Call Reply σ α} {Q : α → σ → τ → Prop}
    (hm : Maintains M P m) (hP : P s t) (hreturns : ∀ b s' t', P s' t' → Sat M (f b) (Returning Q) s' t') :
    Sat M (m >>= f) (Returning Q) s t :=
  hm.andThen hP hreturns fun _ _ _ => ⟨trivial, trivial⟩

theorem maintains_bind {m : Method Call Reply σ β} {f : β → Method Call Reply σ α} (hm : Maintains M P m)
    (hf : ∀ b, Maintains M P (f b)) : Maintains M P (m >>= f) :=
  fun _ _ hP => hm.andThen hP (fun b s' t' h => hf b s' t' h) fun _ _ h => ⟨h, h⟩

theorem maintains_ite {p : Prop} [Decidable p] {m n : Method Call Reply σ α} (hm : Maintains M P m)
    (hn : Maintains M P n) : Maintains M P (if p then m else n) := by
  split
  · exact hm
  · exact hn

end Maintains

end Method

section Interpretation

variable {Call' : Type} {Reply' : Call' → Type}

theorem Prog.bind_assoc (p : Prog Call Reply α) (f : α → Prog Call Reply β) (g : β → Prog Call Reply γ) :
    (p.bind f).bind g = p.bind fun a => (f a).bind g := by
  induction p with
  | done a => rfl
  | act c next ih =>
    simp only [Prog.bind]
    exact congrArg (Prog.act c) (funext ih)

/-- Every call is carried out by a program of other calls. -/
def Prog.interpret (handler : (c : Call) → Prog Call' Reply' (Reply c)) : Prog Call Reply α → Prog Call' Reply' α
  | .done a => .done a
  | .act c next => (handler c).bind fun r => (next r).interpret handler

/-- What holds of a program also holds when its calls are carried out, if the observers of
both stay related through every call that the one of the program allows. -/
theorem Prog.sat_interpret {τ' : Type} {M : Monitor Call Reply τ} {M' : Monitor Call' Reply' τ'} {R : τ → τ' → Prop}
    {handler : (c : Call) → Prog Call' Reply' (Reply c)}
    (hhandler : ∀ c t t', R t t' → M.allows t c →
      (handler c).Sat M' (fun r u => M.expects t c r ∧ R (M.next t c r) u) t')
    {Q : α → τ → Prop} {p : Prog Call Reply α} {t : τ} {t' : τ'} (hR : R t t') (hsat : p.Sat M Q t) :
    (p.interpret handler).Sat M' (fun a u => ∃ t, Q a t ∧ R t u) t' := by
  induction p generalizing t t' with
  | done a => exact ⟨t, hsat, hR⟩
  | act c next ih =>
    refine Prog.sat_bind.mpr ((hhandler c t t' hR hsat.1).mono ?_)
    rintro r u ⟨hexpects, hR'⟩
    exact ih r hR' (hsat.2 r hexpects)

/-- Every call of a method is carried out by a program. -/
def Method.interpret (handler : (c : Call) → Prog Call' Reply' (Reply c)) (m : Method Call Reply σ α) :
    Method Call' Reply' σ α := fun s =>
  (m s).interpret handler

theorem Method.bind_eq (m : Method Call Reply σ α) (f : α → Method Call Reply σ β) (s : σ) :
    (m >>= f) s = (m s).bind fun (result, s) =>
      match result with
      | .returns a => f a s
      | .raised => .done (.raised, s)
      | .crashed => .done (.crashed, s) := rfl

end Interpretation

end Interaction

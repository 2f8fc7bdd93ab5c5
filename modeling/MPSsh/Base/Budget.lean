import MPSsh.Base.Interaction

namespace Budget

open Interaction Method

variable {Call : Type} {Reply : Call → Type} {σ α β : Type}

/-- How many calls a program has made, and how many it has been granted. -/
structure Account where
  spent : Nat
  granted : Nat
  deriving DecidableEq, Repr

/-- So many calls are left. -/
def Account.Left (n : Nat) (v : Account) : Prop :=
  v.spent + n ≤ v.granted

/-- A call is allowed as long as one is left, and its reply can grant more. -/
def account (grant : (c : Call) → Reply c → Nat) : Monitor Call Reply Account where
  allows v _ := v.Left 1
  expects _ _ _ := True
  next v c r := { spent := v.spent + 1, granted := v.granted + grant c r }

/-- A method that makes at most so many calls, whatever it is granted meanwhile. -/
def Spends (grant : (c : Call) → Reply c → Nat) (k : Nat) (m : Method Call Reply σ α) : Prop :=
  ∀ n s v, v.Left (k + n) → Sat (account grant) m (fun _ _ v => v.Left n) s v

section Rules

variable {grant : (c : Call) → Reply c → Nat} {i j k l n : Nat} {m : Method Call Reply σ α} {v : Account}

theorem Account.Left.mono (hleft : v.Left n) (hle : k ≤ n) : v.Left k := by
  unfold Account.Left at hleft ⊢
  omega

theorem Account.left_next (hleft : v.Left (1 + n)) (c : Call) (r : Reply c) :
    ((account grant).next v c r).Left (n + grant c r) := by
  simp only [account, Account.Left] at hleft ⊢
  omega

theorem Spends.mono (hm : Spends grant k m) (hle : k ≤ l) : Spends grant l m :=
  fun n s v hleft => hm n s v (hleft.mono (Nat.add_le_add_right hle n))

theorem spends_pure (a : α) : Spends grant 0 (pure a : Method Call Reply σ α) :=
  fun n _ _ hleft => hleft.mono (Nat.le_add_left n 0)

theorem spends_raise : Spends grant 0 (raise : Method Call Reply σ α) :=
  fun n _ _ hleft => hleft.mono (Nat.le_add_left n 0)

theorem spends_crash : Spends grant 0 (crash : Method Call Reply σ α) :=
  fun n _ _ hleft => hleft.mono (Nat.le_add_left n 0)

theorem spends_get : Spends grant 0 (get : Method Call Reply σ σ) :=
  fun n _ _ hleft => hleft.mono (Nat.le_add_left n 0)

theorem spends_modify (f : σ → σ) : Spends grant 0 (modify f : Method Call Reply σ PUnit) :=
  fun n _ _ hleft => hleft.mono (Nat.le_add_left n 0)

theorem spends_perform (c : Call) : Spends grant 1 (perform c : Method Call Reply σ (Reply c)) := by
  intro n s v hleft
  refine sat_perform.mpr ⟨hleft.mono (Nat.le_add_right 1 n), fun r _ => ?_⟩
  exact (Account.left_next hleft c r).mono (Nat.le_add_right n _)

theorem spends_bind {f : α → Method Call Reply σ β} (hm : Spends grant i m) (hf : ∀ a, Spends grant j (f a)) :
    Spends grant (i + j) (m >>= f) := by
  intro n s v hleft
  rw [sat_bind]
  rw [Nat.add_assoc] at hleft
  apply (hm (j + n) s v hleft).mono
  intro result s' v' hleft'
  cases result with
  | returns a => exact hf a n s' v' hleft'
  | raised | crashed => exact hleft'.mono (Nat.le_add_left n j)

theorem spends_ite {p : Prop} [Decidable p] {m' : Method Call Reply σ α} (hm : Spends grant k m)
    (hm' : Spends grant k m') : Spends grant k (if p then m else m') := by
  split
  · exact hm
  · exact hm'

/-- The rule for what follows a method within a budget. -/
theorem Spends.andThen {f : α → Method Call Reply σ β} {Q : β → σ → Account → Prop} {s : σ} (hm : Spends grant k m)
    (hleft : v.Left (k + n)) (hreturns : ∀ a s' v', v'.Left n → Sat (account grant) (f a) (Returning Q) s' v') :
    Sat (account grant) (m >>= f) (Returning Q) s v := by
  apply sat_bind_returning
  apply (hm n s v hleft).mono
  intro result s' v' hleft'
  cases result with
  | returns a => exact hreturns a s' v' hleft'
  | raised | crashed => trivial

end Rules

end Budget

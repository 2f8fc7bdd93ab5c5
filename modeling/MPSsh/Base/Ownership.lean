import MPSsh.Base.Interaction
import Mathlib.Data.List.Basic

namespace Ownership

open Interaction

variable {Call : Type} {Reply : Call → Type} {Obj α : Type}

/-- What calls do to the objects that a program owns: the one that a reply hands over, the
ones that a call needs, and the one that it gives back. -/
structure Effects (Call : Type) (Reply : Call → Type) (Obj : Type) where
  acquires : (c : Call) → Reply c → Option Obj
  uses : Call → List Obj
  releases : Call → Option Obj

/-- The objects that a program holds, and the calls that it has made with their replies. -/
structure Ledger (Call : Type) (Reply : Call → Type) (Obj : Type) where
  held : List Obj
  log : List (Sigma Reply)

namespace Effects

variable (E : Effects Call Reply Obj)

def acquired (log : List (Sigma Reply)) : List Obj :=
  log.flatMap fun entry => (E.acquires entry.1 entry.2).toList

def released (log : List (Sigma Reply)) : List Obj :=
  log.flatMap fun entry => (E.releases entry.1).toList

variable [DecidableEq Obj]

/-- The objects held after a call. -/
def after (held : List Obj) (c : Call) (r : Reply c) : List Obj :=
  (E.acquires c r).toList ++ (E.releases c).elim held held.erase

def next (v : Ledger Call Reply Obj) (c : Call) (r : Reply c) : Ledger Call Reply Obj where
  held := E.after v.held c r
  log := v.log ++ [⟨c, r⟩]

/-- What is held besides some objects is what has been acquired and not been released. -/
def Balanced (base : List Obj) (v : Ledger Call Reply Obj) : Prop :=
  ∀ o, (E.acquired v.log).count o + base.count o = (E.released v.log).count o + v.held.count o

/-- Every object has been given back as often as it was handed over, but for these. -/
def Leaves (log : List (Sigma Reply)) (objects : List Obj) : Prop :=
  ∀ o, (E.acquired log).count o = (E.released log).count o + objects.count o

end Effects

variable [DecidableEq Obj]

/-- Only objects that are held are used and given back, whatever the replies are as long
as they are granted and hand over new objects only. -/
def owning (E : Effects Call Reply Obj) (granted : (c : Call) → Reply c → Prop) :
    Monitor Call Reply (Ledger Call Reply Obj) where
  allows v c := (∀ o ∈ E.uses c, o ∈ v.held) ∧ ∀ o ∈ E.releases c, o ∈ v.held
  expects v c r := granted c r ∧ ∀ o ∈ E.acquires c r, o ∉ v.held
  next := E.next

section Balance

variable {E : Effects Call Reply Obj} {granted : (c : Call) → Reply c → Prop} {base : List Obj}
  {v : Ledger Call Reply Obj}

theorem count_after {held : List Obj} {c : Call} (hheld : ∀ o ∈ E.releases c, o ∈ held) (r : Reply c) (o : Obj) :
    (E.after held c r).count o + (E.releases c).toList.count o = (E.acquires c r).toList.count o + held.count o := by
  unfold Effects.after
  cases hreleases : E.releases c with
  | none => simp
  | some released =>
    have hmem : released ∈ held := hheld released hreleases
    have hperm := (List.perm_cons_erase hmem).count_eq o
    rw [List.count_cons] at hperm
    simp only [Option.elim, Option.toList, List.count_append, List.count_singleton] at hperm ⊢
    omega

/-- An allowed call keeps the balance. -/
theorem balanced_next (hbalanced : E.Balanced base v) {c : Call} (hheld : ∀ o ∈ E.releases c, o ∈ v.held) (r : Reply c) :
    E.Balanced base (E.next v c r) := by
  intro o
  have hcount := count_after hheld r o
  have hold := hbalanced o
  simp only [Effects.next, Effects.acquired, Effects.released, List.flatMap_append, List.count_append,
    List.flatMap_singleton] at hold ⊢
  omega

/-- A program that only uses and gives back what it holds ends in balance. -/
theorem sat_balanced {Q : α → Ledger Call Reply Obj → Prop} {p : Prog Call Reply α}
    (hsat : p.Sat (owning E granted) Q v) (hbalanced : E.Balanced base v) :
    p.Sat (owning E granted) (fun a v => Q a v ∧ E.Balanced base v) v := by
  induction p generalizing v with
  | done a => exact ⟨hsat, hbalanced⟩
  | act c next ih => exact ⟨hsat.1, fun r hr => ih r (hsat.2 r hr) (balanced_next hbalanced hsat.1.2 r)⟩

/-- The log grows by the calls that the program makes. -/
theorem sat_makes {Q : α → Ledger Call Reply Obj → Prop} {p : Prog Call Reply α} (hsat : p.Sat (owning E granted) Q v) :
    p.Sat (owning E granted) (fun a v' => Q a v' ∧ ∃ made, p.Makes made a ∧ v'.log = v.log ++ made) v := by
  induction p generalizing v with
  | done a => exact ⟨hsat, [], .done a, (List.append_nil v.log).symm⟩
  | act c next ih =>
    refine ⟨hsat.1, fun r hr => ?_⟩
    apply (ih r (hsat.2 r hr)).mono
    rintro a v' ⟨hQ, made, hmade, hlog⟩
    exact ⟨hQ, ⟨c, r⟩ :: made, .act r hmade, by simp [hlog, owning, Effects.next]⟩

/-- The calls that have been made are kept. -/
theorem sat_grows {Q : α → Ledger Call Reply Obj → Prop} {p : Prog Call Reply α}
    (hsat : p.Sat (owning E granted) Q v) : p.Sat (owning E granted) (fun a v' => Q a v' ∧ v.log <+: v'.log) v := by
  apply (sat_makes hsat).mono
  rintro a v' ⟨hQ, made, -, hlog⟩
  exact ⟨hQ, made, hlog.symm⟩

/-- A program that starts with nothing leaves what it holds at its end. -/
theorem sat_leaves {Q : α → Ledger Call Reply Obj → Prop} {p : Prog Call Reply α}
    (hsat : p.Sat (owning E granted) Q ⟨[], []⟩) :
    p.Sat (owning E granted) (fun a v => Q a v ∧ E.Leaves v.log v.held) ⟨[], []⟩ := by
  have hbalanced := sat_balanced hsat (show E.Balanced [] _ from fun _ => rfl)
  refine hbalanced.mono ?_
  rintro a v ⟨hQ, hbalance⟩
  exact ⟨hQ, fun o => hbalance o⟩

end Balance

section Rules

variable {E : Effects Call Reply Obj} {granted : (c : Call) → Reply c → Prop} {c : Call}
  {next : Reply c → Prog Call Reply α} {Q : α → Ledger Call Reply Obj → Prop} {held : List Obj}
  {log : List (Sigma Reply)}

/-- A call that takes objects only to look at them. -/
theorem sat_use (huses : ∀ o ∈ E.uses c, o ∈ held) (hreleases : E.releases c = none)
    (hacquires : ∀ r, E.acquires c r = none)
    (hnext : ∀ r, (next r).Sat (owning E granted) Q ⟨held, log ++ [⟨c, r⟩]⟩) :
    (Prog.act c next).Sat (owning E granted) Q ⟨held, log⟩ := by
  refine ⟨⟨huses, by simp [hreleases]⟩, fun r _ => ?_⟩
  have hsame : E.after held c r = held := by simp [Effects.after, hreleases, hacquires]
  simp only [owning, Effects.next, hsame]
  exact hnext r

/-- A call that creates an object, or fails to. -/
theorem sat_create (huses : ∀ o ∈ E.uses c, o ∈ held) (hreleases : E.releases c = none)
    (hnext : ∀ r, granted c r → (∀ o ∈ E.acquires c r, o ∉ held) →
      (next r).Sat (owning E granted) Q ⟨(E.acquires c r).toList ++ held, log ++ [⟨c, r⟩]⟩) :
    (Prog.act c next).Sat (owning E granted) Q ⟨held, log⟩ := by
  refine ⟨⟨huses, by simp [hreleases]⟩, fun r hr => ?_⟩
  have hsame : E.after held c r = (E.acquires c r).toList ++ held := by simp [Effects.after, hreleases]
  simp only [owning, Effects.next, hsame]
  exact hnext r hr.1 hr.2

/-- A call that gives an object back. -/
theorem sat_release {o : Obj} (hreleases : E.releases c = some o) (hheld : o ∈ held) (huses : E.uses c = [])
    (hacquires : ∀ r, E.acquires c r = none)
    (hnext : ∀ r, (next r).Sat (owning E granted) Q ⟨held.erase o, log ++ [⟨c, r⟩]⟩) :
    (Prog.act c next).Sat (owning E granted) Q ⟨held, log⟩ := by
  refine ⟨⟨by simp [huses], by simpa [hreleases] using hheld⟩, fun r _ => ?_⟩
  have hsame : E.after held c r = held.erase o := by simp [Effects.after, hreleases, hacquires]
  simp only [owning, Effects.next, hsame]
  exact hnext r

/-- A call that gives back the object that was handed over last. -/
theorem sat_release_head {o : Obj} (hreleases : E.releases c = some o) (huses : E.uses c = [])
    (hacquires : ∀ r, E.acquires c r = none)
    (hnext : ∀ r, (next r).Sat (owning E granted) Q ⟨held, log ++ [⟨c, r⟩]⟩) :
    (Prog.act c next).Sat (owning E granted) Q ⟨o :: held, log⟩ := by
  refine sat_release hreleases List.mem_cons_self huses hacquires fun r => ?_
  rw [List.erase_cons_head]
  exact hnext r

end Rules

end Ownership

import Mathlib.Data.List.Nodup
import MPSsh.Base.Schedule
import MPSsh.Foundation

open Schedule

namespace MPSsh.MPLSSession

/-- What `kbd_callback` does to the response of the library's prompt. -/
inductive Response where
  | untouched
  | filled (text : List UInt8) (length : Nat)
  | nullDereference
  deriving DecidableEq, Repr

/-- The callback reads the password from the file-scope variable `ppwwdd`, with
`strdup` and `strlen` on its UTF-8 string. -/
def kbd_callback (ppwwdd : Option String) (num_prompts : Int) : Response :=
  if num_prompts = 1 then
    match ppwwdd with
    | none => .nullDereference
    | some password => .filled (cString (utf8 password)) (cString (utf8 password)).length
  else
    .untouched

/-- The variable `ppwwdd` and the calls under way of
`userauthKeyboardInteractiveWithUser:password:`, each with its session and the
password given for it. `storedBy` is the session whose call assigned the
variable last, or `none` after that call has cleared it. -/
structure Process (ι : Type*) where
  ppwwdd : Option String
  calls : List (ι × String)
  storedBy : Option ι

/-- The steps of the calls. Between the first and the last, the library invokes
the callback any number of times. -/
inductive Event (ι : Type*) where
  | store (a : ι) (password : String)
  | callback (a : ι) (num_prompts : Int)
  | clear (a : ι)

variable {ι : Type*} [DecidableEq ι]

def step (s : Process ι) : Event ι → Option (Process ι)
  | .store a password =>
    if a ∈ s.calls.map Prod.fst then none
    else some { ppwwdd := some password, calls := (a, password) :: s.calls, storedBy := some a }
  | .callback a _ =>
    if a ∈ s.calls.map Prod.fst then some s else none
  | .clear a =>
    if a ∈ s.calls.map Prod.fst then
      some { ppwwdd := none, calls := s.calls.filter (·.1 ≠ a), storedBy := none }
    else none

/-- No call has been made yet. -/
def start : Process ι where
  ppwwdd := none
  calls := []
  storedBy := none

/-- A one-prompt callback for a session answers with the password given for it. -/
def OwnPassword (s : Process ι) (e : Event ι) (_ : Process ι) : Prop :=
  match e with
  | .callback a 1 => ∀ c ∈ s.calls, c.1 = a → kbd_callback s.ppwwdd 1 = .filled (utf8 c.2) (utf8 c.2).length
  | _ => True

instance (s : Process ι) (e : Event ι) (t : Process ι) : Decidable (OwnPassword s e t) := by
  unfold OwnPassword
  split <;> infer_instance

/-- At a one-prompt callback for a session, no other call has stored or cleared
a password since this call stored its own, which contains no NUL. -/
def Undisputed (s : Process ι) (e : Event ι) (_ : Process ι) : Prop :=
  match e with
  | .callback a 1 => s.storedBy = some a ∧ ∀ c ∈ s.calls, c.1 = a → 0 ∉ utf8 c.2
  | _ => True

/-- The variable holds the password of the call that stored it last, for as
long as `storedBy` names one. -/
structure Inv (s : Process ι) : Prop where
  sessions : (s.calls.map Prod.fst).Nodup
  stored : ∀ a, s.storedBy = some a → ∃ password, (a, password) ∈ s.calls ∧ s.ppwwdd = some password

omit [DecidableEq ι] in
theorem start_inv : Inv (start : Process ι) := by
  constructor <;> simp [start]

theorem step_inv {s t : Process ι} {e : Event ι} (hinv : Inv s) (hstep : step s e = some t) : Inv t := by
  cases e with
  | store a password =>
    simp only [step] at hstep
    split at hstep
    · cases hstep
    rename_i hnew
    obtain rfl := Option.some.inj hstep
    constructor
    · simpa using ⟨by simpa using hnew, hinv.sessions⟩
    · intro b hb
      obtain rfl := Option.some.inj hb
      exact ⟨password, by simp, rfl⟩
  | callback a num_prompts =>
    simp only [step] at hstep
    split at hstep
    · obtain rfl := Option.some.inj hstep
      exact hinv
    · cases hstep
  | clear a =>
    simp only [step] at hstep
    split at hstep
    · obtain rfl := Option.some.inj hstep
      constructor
      · exact hinv.sessions.sublist (List.filter_sublist.map Prod.fst)
      · simp
    · cases hstep

/-- In every run in which no other call comes between the store of a call and a
callback for it, and no password contains NUL, every one-prompt callback
answers with exactly the password of its own session. -/
theorem callbacks_own_password {es : List (Event ι)} (hcond : Along step Undisputed start es) :
    Along step OwnPassword start es := by
  refine Along.of_invariant Inv ?_ start_inv hcond
  intro s e t hinv hundisputed hstep
  refine ⟨?_, step_inv hinv hstep⟩
  unfold OwnPassword
  split
  · rename_i a
    obtain ⟨hstored, hnul⟩ := hundisputed
    obtain ⟨password, hmem, hvalue⟩ := hinv.stored a hstored
    intro c hc hsession
    have hsame := List.inj_on_of_nodup_map hinv.sessions hc hmem hsession
    subst hsame
    have hwhole := cString_eq_self (hnul _ hmem hsession)
    simp [kbd_callback, hvalue, hwhole]
  · trivial

/-- Two authentications, one after the other. -/
def oneByOne : List (Event Nat) :=
  [.store 0 "a", .callback 0 1, .clear 0, .store 1 "b", .callback 1 1, .clear 1]

theorem callbacks_own_password_oneByOne : Along step OwnPassword start oneByOne :=
  callbacks_own_password (by simp [Along, oneByOne, step, start, Undisputed, utf8, String.utf8EncodeChar])

/-- The second authentication starts before the library asks for the first. -/
def overlapping : List (Event Nat) :=
  [.store 0 "a", .store 1 "b", .callback 0 1]

/-- The first session is answered with the password of the second. -/
theorem callback_leaks_password : ¬ ∀ es : List (Event Nat), Along step OwnPassword start es := by
  intro halways
  exact absurd (halways overlapping) (by decide)

end MPSsh.MPLSSession

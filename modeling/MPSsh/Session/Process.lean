import Mathlib.Logic.Function.Basic
import MPSsh.Base.Schedule
import MPSsh.Session.Connect

namespace MPSsh.MPSshSession

open Interaction

/-- A call that has been made, with its reply and, for the libssh2 functions, the
session it was made on. -/
structure Entry where
  call : SessionCall
  reply : call.Reply
  handle : Option SessionHandle

inductive Return where
  | connect (ok : Bool)
  | shutdown
  | raised
  deriving DecidableEq, Repr

abbrev Body (α : Type) : Type := Prog SessionCall SessionCall.Reply (Outcome α × Frame)

/-- What an object is doing. Between two calls it is idle, with the way in which the
last one ended. -/
inductive Phase where
  | idle (object : MPSshSession) (returned : Option Return)
  | connecting (rest : Body AttemptResult)
  | shuttingDown (rest : Body Unit)
  | crashed

/-- The objects of a process, over the file-scope variable `session`. -/
structure Process (ι : Type) where
  session : SessionHandle
  objects : ι → Phase
  log : List (ι × Entry)

/-- What happens next to an object: one of its methods is called, or the call it is
making is answered. -/
inductive SessionEvent where
  | connectUsingParams (params : MPConnectionParams) (wantsError : Bool)
  | shutdown
  | reply (answer : (c : SessionCall) → c.Reply)

/-- The loop of `connectUsingParams:error:`, with the rest of an iteration. -/
def Phase.ofConnect : Body AttemptResult → Phase
  | .done (.returns .failed, s) => .idle s.toMPSshSession (some (.connect false))
  | .done (.returns .succeeded, s) => .idle s.toMPSshSession (some (.connect true))
  | .done (.returns .retry, s) => .connecting (iteration s)
  | .done (.raised, s) => .idle s.toMPSshSession (some .raised)
  | .done (.crashed, _) => .crashed
  | .act c next => .connecting (.act c next)

def Phase.ofShutdown : Body Unit → Phase
  | .done (.returns (), s) => .idle s.toMPSshSession (some .shutdown)
  | .done (.raised, s) => .idle s.toMPSshSession (some .raised)
  | .done (.crashed, _) => .crashed
  | .act c next => .shuttingDown (.act c next)

/-- A call of `connectUsingParams:error:` on an idle object. The source keeps the caller's
parameters object, writes the defaults, the flags and another password into it, and would
see what a second call with the same object writes; here they are a copy of the call's own. -/
def Phase.connect (object : MPSshSession) (params : MPConnectionParams) (wantsError : Bool) : Phase :=
  if object.connected then .idle object (some (.connect true))
  else .connecting (iteration { toMPSshSession := object, params := defaults params, wantsError, error := none })

/-- A call of `shutdown` on an idle object. It has no parameters. -/
def Phase.shutdown (object : MPSshSession) : Phase :=
  .shuttingDown <| MPSshSession.shutdown
    { toMPSshSession := object
      params := defaults ⟨none, 0, none, none, none, none, none, false, false⟩
      wantsError := false
      error := none }

/-- The file-scope variable after a call. -/
def sessionAfter (session : SessionHandle) : (c : SessionCall) → c.Reply → SessionHandle
  | .sessionInit, h => h
  | _, _ => session

theorem sessionAfter_of_ne {c : SessionCall} (hc : c ≠ .sessionInit) (session : SessionHandle) (r : c.Reply) :
    sessionAfter session c r = session := by
  cases c <;> first | rfl | exact absurd rfl hc

/-- The call that an object makes next. -/
def Phase.nextCall : Phase → Option SessionCall
  | .connecting (.act c _) => some c
  | .shuttingDown (.act c _) => some c
  | _ => none

namespace Process

variable {ι : Type} [DecidableEq ι]

/-- An object's call is answered, and the object goes on. -/
def record (s : Process ι) (a : ι) (c : SessionCall) (r : c.Reply) (phase : Phase) : Process ι where
  session := sessionAfter s.session c r
  objects := Function.update s.objects a phase
  log := s.log ++ [(a, { call := c, reply := r, handle := if c.usesSession then some s.session else none })]

def step (s : Process ι) : ι × SessionEvent → Option (Process ι)
  | (a, .connectUsingParams params wantsError) =>
    match s.objects a with
    | .idle object _ => some { s with objects := Function.update s.objects a (.connect object params wantsError) }
    | _ => none
  | (a, .shutdown) =>
    match s.objects a with
    | .idle object _ => some { s with objects := Function.update s.objects a (.shutdown object) }
    | _ => none
  | (a, .reply answer) =>
    match s.objects a with
    | .connecting (.act c next) => some (s.record a c (answer c) (.ofConnect (next (answer c))))
    | .shuttingDown (.act c next) => some (s.record a c (answer c) (.ofShutdown (next (answer c))))
    | _ => none

omit [DecidableEq ι] in
/-- Freshly initialised objects. -/
def start (delegate : ι → Delegate) : Process ι where
  session := 0
  objects := fun a => .idle (.init (delegate a)) none
  log := []

/-- What an event does to the process when it happens to an object. -/
inductive Moves (s : Process ι) (a : ι) : SessionEvent → Process ι → Prop where
  | connect {object : MPSshSession} {returned : Option Return} (params : MPConnectionParams) (wantsError : Bool)
      (hidle : s.objects a = .idle object returned) :
      Moves s a (.connectUsingParams params wantsError)
        { s with objects := Function.update s.objects a (.connect object params wantsError) }
  | shutdown {object : MPSshSession} {returned : Option Return} (hidle : s.objects a = .idle object returned) :
      Moves s a .shutdown { s with objects := Function.update s.objects a (.shutdown object) }
  | connecting {c : SessionCall} {next : c.Reply → Body AttemptResult} (answer : (c : SessionCall) → c.Reply)
      (hphase : s.objects a = .connecting (.act c next)) :
      Moves s a (.reply answer) (s.record a c (answer c) (.ofConnect (next (answer c))))
  | shuttingDown {c : SessionCall} {next : c.Reply → Body Unit} (answer : (c : SessionCall) → c.Reply)
      (hphase : s.objects a = .shuttingDown (.act c next)) :
      Moves s a (.reply answer) (s.record a c (answer c) (.ofShutdown (next (answer c))))

theorem step_moves {s t : Process ι} {a : ι} {event : SessionEvent} (hstep : step s (a, event) = some t) :
    Moves s a event t := by
  cases event with
  | connectUsingParams params wantsError =>
    simp only [step] at hstep
    split at hstep
    · rename_i object returned hidle
      obtain rfl := Option.some.inj hstep
      exact .connect params wantsError hidle
    · cases hstep
  | shutdown =>
    simp only [step] at hstep
    split at hstep
    · rename_i object returned hidle
      obtain rfl := Option.some.inj hstep
      exact .shutdown hidle
    · cases hstep
  | reply answer =>
    simp only [step] at hstep
    split at hstep
    · rename_i c next hphase
      obtain rfl := Option.some.inj hstep
      exact .connecting answer hphase
    · rename_i c next hphase
      obtain rfl := Option.some.inj hstep
      exact .shuttingDown answer hphase
    · cases hstep

/-- The call that an object makes can be answered in any way. -/
theorem step_reply_of_nextCall {s : Process ι} {a : ι} {c : SessionCall} (hnext : (s.objects a).nextCall = some c)
    (answer : (c : SessionCall) → c.Reply) : ∃ t, step s (a, .reply answer) = some t := by
  simp only [step]
  cases hphase : s.objects a with
  | connecting rest | shuttingDown rest =>
    cases rest with
    | done result => simp [hphase, Phase.nextCall] at hnext
    | act c next => exact ⟨_, rfl⟩
  | idle | crashed => simp [hphase, Phase.nextCall] at hnext

/-- What holds along a schedule that ends with an answer holds of that answer. -/
theorem along_reply {P : Process ι → ι × SessionEvent → Process ι → Prop} {s t : Process ι}
    {es : List (ι × SessionEvent)} {a : ι} {c : SessionCall} {answer : (c : SessionCall) → c.Reply}
    (hrun : Schedule.run step s es = some t) (hnext : (t.objects a).nextCall = some c)
    (halong : Schedule.Along step P s (es ++ [(a, .reply answer)])) : ∃ u, P t (a, .reply answer) u := by
  obtain ⟨_, hlast⟩ := Schedule.along_append.mp halong
  obtain ⟨u, hstep⟩ := step_reply_of_nextCall hnext answer
  exact ⟨u, (Schedule.along_cons.mp (hlast t hrun) u hstep).1⟩

/-- The entries of one object. -/
def logOf (s : Process ι) (a : ι) : List Entry :=
  Schedule.project a s.log

theorem logOf_record_self (s : Process ι) (a : ι) (c : SessionCall) (r : c.Reply) (phase : Phase) :
    (s.record a c r phase).logOf a =
      s.logOf a ++ [{ call := c, reply := r, handle := if c.usesSession then some s.session else none }] := by
  simp [logOf, record, Schedule.project_append]

theorem logOf_record_of_ne (s : Process ι) {a b : ι} (hne : a ≠ b) (c : SessionCall) (r : c.Reply) (phase : Phase) :
    (s.record a c r phase).logOf b = s.logOf b := by
  simp [logOf, record, Schedule.project_append, Schedule.project_cons_of_ne hne]

end Process

end MPSsh.MPSshSession

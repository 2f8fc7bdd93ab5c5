import MPSsh.Shell.Dialogue

open Schedule

namespace MPSsh.MPSshShell

/-- Where the client thread is in the command methods. In `leaving`, the loop of
`execCommand:` has ended after `counter` polls. -/
inductive UsagePlace where
  | idle
  | execStatus (line : String)
  | execWrite (line : String)
  | polling (counter : Nat)
  | leaving (counter : Nat)
  | longWrite (line : String)
  | longStatus
  | longCounter
  | stopWrite
  | stopStatus
  deriving DecidableEq, Repr

/-- What a call of `execCommand:` returned: the array object, with its content and
the status at that time, the number of polls, and the lines that the receiver
delivered during the call. -/
structure ExecResult where
  array : Option Nat
  lines : Option (List String)
  status : MPShellStatus
  polls : Nat
  window : List String
  deriving DecidableEq, Repr

/-- The output of the long commands written since the last `execCommand:` or
`stopLongCommand`: how many notifications there were before the first of them,
the lines delivered while each of the earlier ones was the newest, and those
delivered since the newest was written. -/
structure LongOutput where
  before : Nat
  earlier : List (List String)
  current : List String
  deriving DecidableEq, Repr

/-- A shell that a client uses while lines arrive. `window` holds the lines delivered
since `execCommand:` was last entered. -/
structure Usage where
  shell : Shell
  client : UsagePlace
  written : List String
  window : List String
  long : Option LongOutput
  results : List ExecResult
  deriving DecidableEq, Repr

/-- What happens next. The client calls a method, sets the delegate or takes its next
step in a method, or the receiver delivers a line. -/
inductive UsageEvent where
  | execCommand (cmd : String)
  | execLongCommand (cmd : String)
  | stopLongCommand
  | setDelegate (present : Bool)
  | client
  | deliver (line : String)
  deriving DecidableEq, Repr

def UsageEvent.delivers : UsageEvent → Bool
  | .deliver _ => true
  | _ => false

namespace LongOutput

def deliver (output : LongOutput) (line : String) : LongOutput :=
  { output with current := output.current ++ [line] }

/-- Another long command is written. -/
def write (output : LongOutput) : LongOutput :=
  { output with earlier := output.earlier ++ [output.current], current := [] }

end LongOutput

namespace Usage

/-- The write of a long command. -/
def writeLong (s : Usage) (line : String) : Usage :=
  { s with
    written := s.written ++ [line]
    long := some <|
      match s.long with
      | none => { before := s.shell.notified.length, earlier := [], current := [] }
      | some output => output.write }

/-- The client's next step. The loop of `execCommand:` polls the status at most
100 times, and the array is read again after it. -/
def clientStep (s : Usage) : Option Usage :=
  match s.client with
  | .idle => none
  | .execStatus line =>
    some { s with shell := { s.shell with status := .command }, client := .execWrite line }
  | .execWrite line => some { s with written := s.written ++ [line], client := .polling 0 }
  | .polling counter =>
    some { s with
      client := if s.shell.status = .command ∧ counter < 100 then .polling (counter + 1) else .leaving counter }
  | .leaving counter =>
    some { s with
      client := .idle
      results := s.results ++
        [{ array := s.shell.cmdResult
           lines := s.shell.result
           status := s.shell.status
           polls := counter
           window := s.window }] }
  | .longWrite line => some { s.writeLong line with client := .longStatus }
  | .longStatus => some { s with shell := { s.shell with status := .onlineCommand }, client := .longCounter }
  | .longCounter => some { s with shell := { s.shell with cmdCounter := 0 }, client := .idle }
  | .stopWrite => some { s with written := s.written ++ ["\x03"], client := .stopStatus }
  | .stopStatus => some { s with shell := { s.shell with status := .idle }, client := .idle }

def step (s : Usage) : UsageEvent → Option Usage
  | .execCommand cmd =>
    match s.client, commandLine cmd with
    | .idle, some line =>
      some { s with shell := s.shell.newResult, client := .execStatus line, window := [], long := none }
    | _, _ => none
  | .execLongCommand cmd =>
    match s.client, commandLine cmd with
    | .idle, some line => some { s with client := .longWrite line }
    | _, _ => none
  | .stopLongCommand =>
    match s.client with
    | .idle => some { s with client := .stopWrite, long := none }
    | _ => none
  | .setDelegate present =>
    match s.client with
    | .idle => some { s with shell := { s.shell with delegate := present } }
    | _ => none
  | .client => s.clientStep
  | .deliver line =>
    some { s with
      shell := s.shell.dataReceived line
      window := s.window ++ [line]
      long := s.long.map (·.deliver line) }

/-- A shell that `initWithChannel:` has set up, before its first command. -/
def start : Usage where
  shell := { status := .idle, arrays := [], cmdResult := none, cmdCounter := 0, delegate := false, notified := [] }
  client := .idle
  written := []
  window := []
  long := none
  results := []

/-- What one step can do. -/
inductive Move (s : Usage) : UsageEvent → Usage → Prop where
  | execCommand {cmd line : String} (hclient : s.client = .idle) (hline : commandLine cmd = some line) :
    Move s (.execCommand cmd) { s with shell := s.shell.newResult, client := .execStatus line, window := [], long := none }
  | execLongCommand {cmd line : String} (hclient : s.client = .idle) (hline : commandLine cmd = some line) :
    Move s (.execLongCommand cmd) { s with client := .longWrite line }
  | stopLongCommand (hclient : s.client = .idle) :
    Move s .stopLongCommand { s with client := .stopWrite, long := none }
  | setDelegate {present : Bool} (hclient : s.client = .idle) :
    Move s (.setDelegate present) { s with shell := { s.shell with delegate := present } }
  | execStatus {line : String} (hclient : s.client = .execStatus line) :
    Move s .client { s with shell := { s.shell with status := .command }, client := .execWrite line }
  | execWrite {line : String} (hclient : s.client = .execWrite line) :
    Move s .client { s with written := s.written ++ [line], client := .polling 0 }
  | poll {counter : Nat} (hclient : s.client = .polling counter) (hstatus : s.shell.status = .command)
    (hcounter : counter < 100) : Move s .client { s with client := .polling (counter + 1) }
  | leave {counter : Nat} (hclient : s.client = .polling counter) (hend : counter < 100 → s.shell.status ≠ .command) :
    Move s .client { s with client := .leaving counter }
  | returns {counter : Nat} (hclient : s.client = .leaving counter) :
    Move s .client { s with
      client := .idle
      results := s.results ++
        [{ array := s.shell.cmdResult
           lines := s.shell.result
           status := s.shell.status
           polls := counter
           window := s.window }] }
  | longWrite {line : String} (hclient : s.client = .longWrite line) :
    Move s .client { s.writeLong line with client := .longStatus }
  | longStatus (hclient : s.client = .longStatus) :
    Move s .client { s with shell := { s.shell with status := .onlineCommand }, client := .longCounter }
  | longCounter (hclient : s.client = .longCounter) :
    Move s .client { s with shell := { s.shell with cmdCounter := 0 }, client := .idle }
  | stopWrite (hclient : s.client = .stopWrite) :
    Move s .client { s with written := s.written ++ ["\x03"], client := .stopStatus }
  | stopStatus (hclient : s.client = .stopStatus) :
    Move s .client { s with shell := { s.shell with status := .idle }, client := .idle }
  | deliver {line : String} :
    Move s (.deliver line) { s with
      shell := s.shell.dataReceived line
      window := s.window ++ [line]
      long := s.long.map (·.deliver line) }

theorem clientStep_move {s t : Usage} (hstep : s.clientStep = some t) : Move s .client t := by
  unfold clientStep at hstep
  split at hstep
  case h_1 => cases hstep
  all_goals obtain rfl := Option.some.inj hstep
  case h_2 hclient => exact .execStatus hclient
  case h_3 hclient => exact .execWrite hclient
  case h_4 counter hclient =>
    split
    · rename_i hpoll
      exact .poll hclient hpoll.1 hpoll.2
    · rename_i hpoll
      exact .leave hclient fun hcounter hstatus => hpoll ⟨hstatus, hcounter⟩
  case h_5 hclient => exact .returns hclient
  case h_6 hclient => exact .longWrite hclient
  case h_7 hclient => exact .longStatus hclient
  case h_8 hclient => exact .longCounter hclient
  case h_9 hclient => exact .stopWrite hclient
  case h_10 hclient => exact .stopStatus hclient

theorem step_move {s t : Usage} {e : UsageEvent} (hstep : step s e = some t) : Move s e t := by
  unfold step at hstep
  split at hstep
  · split at hstep
    · rename_i hclient hline
      obtain rfl := Option.some.inj hstep
      exact .execCommand hclient hline
    · cases hstep
  · split at hstep
    · rename_i hclient hline
      obtain rfl := Option.some.inj hstep
      exact .execLongCommand hclient hline
    · cases hstep
  · split at hstep
    · rename_i hclient
      obtain rfl := Option.some.inj hstep
      exact .stopLongCommand hclient
    · cases hstep
  · split at hstep
    · rename_i hclient
      obtain rfl := Option.some.inj hstep
      exact .setDelegate hclient
    · cases hstep
  · exact clientStep_move hstep
  · obtain rfl := Option.some.inj hstep
    exact .deliver

/-- The end of the loop of `execCommand:`. -/
theorem step_leaves {s : Usage} {counter : Nat} (hclient : s.client = .polling counter)
    (hend : counter < 100 → s.shell.status ≠ .command) : step s .client = some { s with client := .leaving counter } := by
  have hleaves : ¬ (s.shell.status = .command ∧ counter < 100) := fun ⟨hstatus, hcounter⟩ => hend hcounter hstatus
  simp only [step, clientStep, hclient, if_neg hleaves]

/-- The lines that come between the end of the loop and the return might as well have come
before the last test of the loop, so a client that leaves the loop and returns in one
step misses no result. -/
theorem run_leaving {s : Usage} {counter : Nat} (hclient : s.client = .polling counter)
    (hend : counter < 100 → s.shell.status ≠ .command) (lines : List String) :
    run step s (.client :: (lines.map .deliver ++ [.client])) =
      run step s (lines.map .deliver ++ [.client, .client]) := by
  induction lines generalizing s with
  | nil => rfl
  | cons line lines ih =>
    let s₁ : Usage := { s with
      shell := s.shell.dataReceived line
      window := s.window ++ [line]
      long := s.long.map (·.deliver line) }
    have hclient₁ : s₁.client = .polling counter := hclient
    have hend₁ : counter < 100 → s₁.shell.status ≠ .command :=
      fun hcounter hstatus => hend hcounter (Shell.dataReceived_command hstatus)
    calc run step s (.client :: ((line :: lines).map .deliver ++ [.client]))
        = run step { s₁ with client := .leaving counter } (lines.map .deliver ++ [.client]) := by
          rw [run, step_leaves hclient hend]
          rfl
      _ = run step s₁ (.client :: (lines.map .deliver ++ [.client])) := by
          rw [run, step_leaves hclient₁ hend₁]
          rfl
      _ = run step s₁ (lines.map .deliver ++ [.client, .client]) := ih hclient₁ hend₁
      _ = run step s ((line :: lines).map .deliver ++ [.client, .client]) := rfl

end Usage

/-- The place of the client when the remote is left out. -/
def CommandPlace.usage : CommandPlace → UsagePlace
  | .idle => .idle
  | .execStatus line _ => .execStatus line
  | .execWrite line _ => .execWrite line
  | .polling _ _ counter => .polling counter
  | .longStatus => .longStatus
  | .longCounter => .longCounter
  | .stopStatus => .stopStatus

/-- The shell and the client of a dialogue with a remote. -/
structure Dialogue.Forgets (d : Dialogue) (s : Usage) : Prop where
  shell : s.shell = d.shell
  client : s.client = d.client.usage

namespace Dialogue

theorem clientStep_simulated {d d' : Dialogue} {s : Usage} (hforgets : d.Forgets s) (hstep : d.clientStep = some d') :
    ∃ es s', run Usage.step s es = some s' ∧ d'.Forgets s' := by
  obtain ⟨hshell, hclient⟩ := hforgets
  cases hplace : d.client with
  | idle => simp [clientStep, hplace] at hstep
  | polling command clean counter =>
    rw [hplace] at hclient
    simp only [clientStep, hplace] at hstep
    split at hstep
    · rename_i hpoll
      obtain rfl := Option.some.inj hstep
      have hnext : Usage.step s .client = some { s with client := .polling (counter + 1) } := by
        simp [Usage.step, Usage.clientStep, hclient, CommandPlace.usage, hshell, hpoll]
      exact ⟨[.client], _, (run_singleton _ _ _).trans hnext, hshell, rfl⟩
    · rename_i hpoll
      obtain rfl := Option.some.inj hstep
      -- The end of the loop and the return are two steps of the client.
      have hleaves : run Usage.step s [.client] = some { s with client := .leaving counter } := by
        simp [run, Usage.step, Usage.clientStep, hclient, CommandPlace.usage, hshell, hpoll]
      have hreturns : ∃ s', run Usage.step { s with client := .leaving counter } [.client] = some s' ∧
          s'.shell = s.shell ∧ s'.client = .idle := ⟨_, rfl, rfl, rfl⟩
      obtain ⟨s', hs', hsame, hidle⟩ := hreturns
      exact ⟨[.client] ++ [.client], s', (run_append hleaves).trans hs', hsame.trans hshell, hidle⟩
  | execStatus | execWrite | longStatus | longCounter | stopStatus =>
    rw [hplace] at hclient
    simp only [clientStep, hplace, Option.some.injEq] at hstep
    subst hstep
    refine ⟨[.client], ?_⟩
    simp only [run_singleton, Usage.step, Usage.clientStep, hclient, CommandPlace.usage]
    exact ⟨_, rfl, by simp [hshell, write], rfl⟩

theorem step_simulated {d d' : Dialogue} {s : Usage} {e : DialogueEvent} (hforgets : d.Forgets s)
    (hstep : step d e = some d') : ∃ es s', run Usage.step s es = some s' ∧ d'.Forgets s' := by
  cases e with
  | client => exact clientStep_simulated hforgets hstep
  | execCommand cmd =>
    simp only [step] at hstep
    split at hstep
    · rename_i line hidle hline
      obtain rfl := Option.some.inj hstep
      have hclient : s.client = .idle := by rw [hforgets.client, hidle]; rfl
      have hnext : Usage.step s (.execCommand cmd) =
          some { s with shell := s.shell.newResult, client := .execStatus line, window := [], long := none } := by
        simp [Usage.step, hclient, hline]
      exact ⟨[.execCommand cmd], _, (run_singleton _ _ _).trans hnext, congrArg Shell.newResult hforgets.shell, rfl⟩
    · cases hstep
  | execLongCommand cmd =>
    simp only [step] at hstep
    split at hstep
    · rename_i line hidle hline
      obtain rfl := Option.some.inj hstep
      have hclient : s.client = .idle := by rw [hforgets.client, hidle]; rfl
      have henters : run Usage.step s [.execLongCommand cmd] = some { s with client := .longWrite line } := by
        simp [run, Usage.step, hclient, hline]
      have hwrites : ∃ s', run Usage.step { s with client := .longWrite line } [.client] = some s' ∧
          s'.shell = s.shell ∧ s'.client = .longStatus := ⟨_, rfl, rfl, rfl⟩
      obtain ⟨s', hs', hsame, hplace⟩ := hwrites
      exact ⟨[.execLongCommand cmd] ++ [.client], s', (run_append henters).trans hs', hsame.trans hforgets.shell, hplace⟩
    · cases hstep
  | stopLongCommand =>
    simp only [step] at hstep
    split at hstep
    · rename_i hidle
      obtain rfl := Option.some.inj hstep
      have hclient : s.client = .idle := by rw [hforgets.client, hidle]; rfl
      have henters : run Usage.step s [.stopLongCommand] = some { s with client := .stopWrite, long := none } := by
        simp [run, Usage.step, hclient]
      have hwrites : ∃ s', run Usage.step { s with client := .stopWrite, long := none } [.client] = some s' ∧
          s'.shell = s.shell ∧ s'.client = .stopStatus := ⟨_, rfl, rfl, rfl⟩
      obtain ⟨s', hs', hsame, hplace⟩ := hwrites
      exact ⟨[.stopLongCommand] ++ [.client], s', (run_append henters).trans hs', hsame.trans hforgets.shell, hplace⟩
    · cases hstep
  | print line =>
    -- What the remote does is no event of the shell before it is delivered.
    simp only [step] at hstep
    split at hstep
    · split at hstep
      · cases hstep
      · obtain rfl := Option.some.inj hstep
        exact ⟨[], s, rfl, hforgets.shell, hforgets.client⟩
    · cases hstep
  | prompt =>
    simp only [step] at hstep
    split at hstep
    · obtain rfl := Option.some.inj hstep
      exact ⟨[], s, rfl, hforgets.shell, hforgets.client⟩
    · cases hstep
  | deliver =>
    simp only [step] at hstep
    split at hstep
    · rename_i command line rest hwire
      obtain rfl := Option.some.inj hstep
      have hshell : s.shell.dataReceived line = d.shell.dataReceived line := by rw [hforgets.shell]
      exact ⟨[.deliver line], _, run_singleton _ _ _, hshell, hforgets.client⟩
    · cases hstep

/-- Whatever a shell does in a dialogue with a remote, it does while lines arrive. -/
theorem run_simulated {d d' : Dialogue} {s : Usage} {es : List DialogueEvent} (hforgets : d.Forgets s)
    (hrun : run step d es = some d') : ∃ fs s', run Usage.step s fs = some s' ∧ d'.Forgets s' :=
  run_simulates Forgets (fun _ _ _ _ => step_simulated) hforgets hrun

end Dialogue

end MPSsh.MPSshShell

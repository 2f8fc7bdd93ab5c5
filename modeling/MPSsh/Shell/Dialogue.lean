import MPSsh.Base.Schedule
import MPSsh.Shell.Status

namespace MPSsh.MPSshShell

/-- The text that a command method sends: the command, with a newline if it does
not end with one. `characterAtIndex:` raises on the empty string. -/
def commandLine (cmd : String) : Option String :=
  match cmd.toList.getLast? with
  | none => none
  | some last => if last = '\n' then some cmd else some (cmd ++ "\n")

/-- Where the client thread is. A command gets its number when it is written.
`clean` says that nothing was outstanding when `execCommand:` was entered. -/
inductive CommandPlace where
  | idle
  | execStatus (line : String) (clean : Bool)
  | execWrite (line : String) (clean : Bool)
  | polling (command : Nat) (clean : Bool) (counter : Nat)
  | longStatus
  | longCounter
  | stopStatus
  deriving DecidableEq, Repr

/-- A finished call of `execCommand:`: the array object that it returned, with the
content and the status at that time. -/
structure Returned where
  command : Nat
  clean : Bool
  array : Option Nat
  lines : Option (List String)
  status : MPShellStatus
  deriving DecidableEq, Repr

/-- A shell with its client thread and the remote. The remote has not answered the
commands in `pending` yet. What it prints is kept in `output`, and what the
receiver has not delivered of it, prompts included, in `wire`; each line comes
with the command it answers. -/
structure Dialogue where
  shell : Shell
  client : CommandPlace
  issued : Nat
  pending : List (Nat × String)
  wire : List (Nat × String)
  output : List (Nat × String)
  returned : List Returned
  deriving DecidableEq, Repr

/-- What happens next. The client calls a command method or takes its next step
in one, the remote prints a line for the oldest unanswered command or ends it
with a prompt, or the receiver delivers a line. -/
inductive DialogueEvent where
  | execCommand (cmd : String)
  | execLongCommand (cmd : String)
  | stopLongCommand
  | client
  | print (line : String)
  | prompt
  | deliver
  deriving DecidableEq, Repr

namespace Dialogue

/-- Everything the remote has printed so far for a command. -/
def outputOf (s : Dialogue) (command : Nat) : List String :=
  (s.output.filter (·.1 = command)).map Prod.snd

/-- No line and no prompt of an earlier command is still to be delivered. -/
def settled (s : Dialogue) : Bool :=
  s.pending.isEmpty && s.wire.isEmpty

def write (s : Dialogue) (line : String) : Dialogue :=
  { s with pending := s.pending ++ [(s.issued, line)], issued := s.issued + 1 }

/-- The client's next step. The loop of `execCommand:` polls the status at most
100 times. The last test and the return are one step: a line that comes between them
could have come before the test, with the same result. -/
def clientStep (s : Dialogue) : Option Dialogue :=
  match s.client with
  | .idle => none
  | .execStatus line clean =>
    some { s with shell := { s.shell with status := .command }, client := .execWrite line clean }
  | .execWrite line clean => some { s.write line with client := .polling s.issued clean 0 }
  | .polling command clean counter =>
    if s.shell.status = .command ∧ counter < 100 then
      some { s with client := .polling command clean (counter + 1) }
    else
      some { s with
        client := .idle
        returned := s.returned ++
          [{ command, clean, array := s.shell.cmdResult, lines := s.shell.result, status := s.shell.status }] }
  | .longStatus => some { s with shell := { s.shell with status := .onlineCommand }, client := .longCounter }
  | .longCounter => some { s with shell := { s.shell with cmdCounter := 0 }, client := .idle }
  | .stopStatus => some { s with shell := { s.shell with status := .idle }, client := .idle }

/-- A Ctrl-C may make the remote end a command early, which it is free to do anyway.
Empty lines never reach `dataReceived:`, and the prompt ends a command. -/
def step (s : Dialogue) : DialogueEvent → Option Dialogue
  | .execCommand cmd =>
    match s.client, commandLine cmd with
    | .idle, some line => some { s with shell := s.shell.newResult, client := .execStatus line s.settled }
    | _, _ => none
  | .execLongCommand cmd =>
    match s.client, commandLine cmd with
    | .idle, some line => some { s.write line with client := .longStatus }
    | _, _ => none
  | .stopLongCommand =>
    match s.client with
    | .idle => some { s with client := .stopStatus }
    | _ => none
  | .client => s.clientStep
  | .print line =>
    match s.pending with
    | (command, _) :: _ =>
      if line = "" ∨ line = LOGSPROMPT then none
      else some { s with wire := s.wire ++ [(command, line)], output := s.output ++ [(command, line)] }
    | [] => none
  | .prompt =>
    match s.pending with
    | (command, _) :: rest => some { s with pending := rest, wire := s.wire ++ [(command, LOGSPROMPT)] }
    | [] => none
  | .deliver =>
    match s.wire with
    | (_, line) :: rest => some { s with shell := s.shell.dataReceived line, wire := rest }
    | [] => none

/-- A shell on which no command has been called yet. -/
def start (shell : Shell) : Dialogue where
  shell := shell
  client := .idle
  issued := 0
  pending := []
  wire := []
  output := []
  returned := []

end Dialogue

end MPSsh.MPSshShell

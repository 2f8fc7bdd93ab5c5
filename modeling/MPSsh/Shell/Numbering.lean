import MPSsh.Shell.Usage

open Schedule

namespace MPSsh.MPSshShell

/-- Lines with the counters 1, 2, 3 and so on. -/
def numbered (lines : List String) : List (String × Int) :=
  lines.mapIdx fun i line => (line, (i : Int) + 1)

@[simp] theorem numbered_nil : numbered [] = [] := rfl

theorem numbered_concat (lines : List String) (line : String) :
    numbered (lines ++ [line]) = numbered lines ++ [(line, (lines.length : Int) + 1)] := by
  simp [numbered]

namespace LongOutput

/-- The notifications that the lines call for: each line once, numbered from the write
of its command. -/
def notices (output : LongOutput) : List (String × Int) :=
  (output.earlier ++ [output.current]).flatMap numbered

theorem notices_deliver (output : LongOutput) (line : String) :
    (output.deliver line).notices = output.notices ++ [(line, (output.current.length : Int) + 1)] := by
  simp [notices, deliver, numbered_concat]

@[simp] theorem notices_write (output : LongOutput) : output.write.notices = output.notices := by
  simp [notices, write]

end LongOutput

theorem Shell.dataReceived_online {shell : Shell} (hstatus : shell.status = .onlineCommand)
    (hdelegate : shell.delegate = true) (line : String) :
    shell.dataReceived line = { shell with
      cmdCounter := shell.cmdCounter + 1
      notified := shell.notified ++ [(line, shell.cmdCounter + 1)] } := by
  simp [dataReceived, notify, hstatus, hdelegate]

namespace UsagePlace

/-- A long command has been written, and its status and counter are still to be set. -/
def resetting : UsagePlace → Bool
  | .longStatus | .longCounter => true
  | _ => false

/-- The client is neither in `execCommand:` nor in `stopLongCommand`. -/
def counting : UsagePlace → Bool
  | .idle | .longWrite _ | .longStatus | .longCounter => true
  | _ => false

end UsagePlace

namespace Usage

/-- The delegate has been told every line delivered since the write of a long
command, in order, with the numbers of each command from 1 on. -/
def Numbered (s : Usage) : Prop :=
  ∀ output ∈ s.long, s.shell.notified.drop output.before = output.notices

instance (s : Usage) : Decidable (Numbered s) := by
  unfold Numbered
  infer_instance

/-- There is a delegate whenever a line of a long command is delivered. -/
def Attended (s : Usage) (e : UsageEvent) : Prop :=
  e.delivers = true → s.long.isSome = true → s.shell.delegate = true

/-- No line is delivered between the write of a long command and the reset of the counter. -/
def Settled (s : Usage) (e : UsageEvent) : Prop :=
  e.delivers = true → s.client.resetting = false

instance (s : Usage) (e : UsageEvent) : Decidable (Attended s e) :=
  inferInstanceAs (Decidable (_ → _))

instance (s : Usage) (e : UsageEvent) : Decidable (Settled s e) :=
  inferInstanceAs (Decidable (_ → _))

/-- What holds while the output of a long command is counted. -/
structure LongInv (s : Usage) (output : LongOutput) : Prop where
  before : output.before ≤ s.shell.notified.length
  notices : s.shell.notified.drop output.before = output.notices
  client : s.client.counting = true
  current : s.client.resetting = true → output.current = []
  status : s.client ≠ .longStatus → s.shell.status = .onlineCommand
  counter : s.client.resetting = false → s.shell.cmdCounter = output.current.length

theorem deliver_long {s : Usage} {output : LongOutput} {line : String} (hinv : LongInv s output)
    (hdelegate : s.shell.delegate = true) (hclient : s.client.resetting = false) :
    LongInv { s with
      shell := s.shell.dataReceived line
      window := s.window ++ [line]
      long := s.long.map (·.deliver line) } (output.deliver line) := by
  have hplace : s.client ≠ .longStatus := by
    intro h
    simp [h, UsagePlace.resetting] at hclient
  have hstatus := hinv.status hplace
  have hcounter := hinv.counter hclient
  rw [Shell.dataReceived_online hstatus hdelegate]
  constructor
  case before => simpa [LongOutput.deliver] using Nat.le_succ_of_le hinv.before
  case notices =>
    rw [LongOutput.notices_deliver, ← hinv.notices, ← hcounter]
    exact List.drop_append_of_le_length hinv.before
  case client => exact hinv.client
  case current => simp [hclient]
  case status => exact fun _ => hstatus
  case counter => simp [LongOutput.deliver, hcounter]

/-- The write of a long command starts its numbers, and goes on with the lines of the
one before it. -/
theorem write_long {s : Usage} (hinv : ∀ output ∈ s.long, LongInv s output) (line : String) :
    ∀ output ∈ (s.writeLong line).long, LongInv { s.writeLong line with client := .longStatus } output := by
  intro output houtput
  cases hlong : s.long with
  | none =>
    simp only [writeLong, hlong, Option.mem_def, Option.some.injEq] at houtput
    subst houtput
    constructor <;> simp [writeLong, LongOutput.notices, UsagePlace.counting, UsagePlace.resetting]
  | some earlier =>
    simp only [writeLong, hlong, Option.mem_def, Option.some.injEq] at houtput
    subst houtput
    obtain ⟨hbefore, hnotices, -, -, -, -⟩ := hinv earlier (by simp [hlong])
    constructor
    case before => exact hbefore
    case notices => rw [LongOutput.notices_write]; exact hnotices
    all_goals simp [LongOutput.write, UsagePlace.counting, UsagePlace.resetting]

theorem move_long {s t : Usage} {e : UsageEvent} (hinv : ∀ output ∈ s.long, LongInv s output)
    (hattended : Attended s e) (hsettled : Settled s e) (hmove : Move s e t) :
    ∀ output ∈ t.long, LongInv t output := by
  cases hmove with
  | execCommand | stopLongCommand => simp
  | execLongCommand hclient | setDelegate hclient | longStatus hclient | longCounter hclient =>
    intro output houtput
    obtain ⟨hbefore, hnotices, -, hcurrent, hstatus, hcounter⟩ := hinv output houtput
    constructor
    case before => exact hbefore
    case notices => exact hnotices
    all_goals simp_all [UsagePlace.counting, UsagePlace.resetting]
  | execStatus hclient | execWrite hclient | poll hclient | leave hclient | returns hclient | stopWrite hclient
  | stopStatus hclient =>
    -- No long command's output is counted in these methods.
    intro output houtput
    have hcounting := (hinv output houtput).client
    simp [hclient, UsagePlace.counting] at hcounting
  | longWrite hclient => exact write_long hinv _
  | deliver =>
    intro output houtput
    obtain ⟨earlier, hearlier, rfl⟩ := Option.map_eq_some_iff.mp houtput
    have hdelegate : s.shell.delegate = true := hattended rfl (Option.isSome_of_mem hearlier)
    exact deliver_long (hinv earlier hearlier) hdelegate (hsettled rfl)

/-- In every run in which there is a delegate for the lines of the long commands, and in
which no line is delivered between the write of one and the reset of the counter,
every line of a long command reaches the delegate once, in order and with its number. -/
theorem long_numbered {es : List UsageEvent}
    (hsettled : Along step (fun s e _ => Attended s e ∧ Settled s e) start es) :
    Along step (fun _ _ t => Numbered t) start es := by
  refine Along.of_invariant (fun s => ∀ output ∈ s.long, LongInv s output) ?_ (by simp [start]) hsettled
  intro s e t hinv hcond hstep
  have hnext := move_long hinv hcond.1 hcond.2 (step_move hstep)
  exact ⟨fun output houtput => (hnext output houtput).notices, hnext⟩

/-- Two long commands, the first of which is stopped. The first command of the shell
returns before there is a delegate. -/
def followed : List UsageEvent :=
  [.execCommand "export PS1", .client, .client, .deliver "export PS1", .deliver LOGSPROMPT, .client, .client,
    .setDelegate true, .execLongCommand "tail", .client, .client, .client, .deliver "a", .deliver "b", .stopLongCommand,
    .client, .deliver "c", .client, .execLongCommand "top", .client, .client, .client, .deliver "d"]

theorem long_numbered_followed : Along step (fun _ _ t => Numbered t) start followed :=
  long_numbered (by decide +kernel)

/-- A line comes right after the write of a long command. -/
def hasty : List UsageEvent :=
  [.setDelegate true, .execLongCommand "tail", .client, .deliver "a", .client, .client]

/-- The line is dropped, since the status is not yet that of a long command. -/
theorem first_line_dropped :
    ¬ ∀ es, Along step (fun s e _ => Attended s e) start es → Along step (fun _ _ t => Numbered t) start es := by
  intro halways
  exact absurd (halways hasty (by decide +kernel)) (by decide +kernel)

end Usage

end MPSsh.MPSshShell

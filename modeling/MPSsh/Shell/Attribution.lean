import MPSsh.Shell.Dialogue

open Schedule

namespace MPSsh.MPSshShell

namespace Dialogue

/-- The array of a finished call held exactly the lines that the remote has printed
for its command. -/
def NoCrossTalk (s : Dialogue) (r : Returned) : Prop :=
  ∃ lines, r.lines = some lines ∧ ∀ line, line ∈ lines ↔ line ∈ s.outputOf r.command

/-- The lines that a finished call returned are the first lines of its command, and
all of them when a prompt ended the call. -/
def OwnLines (s : Dialogue) (r : Returned) : Prop :=
  ∃ lines, r.lines = some lines ∧ lines <+: s.outputOf r.command ∧
    (r.status = .commandComplete → lines = s.outputOf r.command)

/-- What is on the wire while one command is answered: the lines in `late` and, once
the remote has come to its end, the prompt. -/
inductive Answering (s : Dialogue) (command : Nat) (late : List String) : Prop where
  | going (line : String) (hpending : s.pending = [(command, line)])
    (hwire : s.wire = late.map (command, ·))
  | ended (hpending : s.pending = []) (hwire : s.wire = late.map (command, ·) ++ [(command, LOGSPROMPT)])

/-- A clean call that polls: all that the remote has printed for its command has
been collected or is on the wire, or the prompt has been delivered. -/
inductive Collecting (s : Dialogue) (command : Nat) : Prop where
  | going (lines late : List String) (hstatus : s.shell.status = .command)
    (hresult : s.shell.result = some lines) (houtput : s.outputOf command = lines ++ late)
    (hlate : ∀ line ∈ late, line ≠ LOGSPROMPT) (hanswering : Answering s command late)
  | done (hstatus : s.shell.status = .commandComplete) (hresult : s.shell.result = some (s.outputOf command))
    (hsettled : s.settled = true)

/-- What holds of the call under way if it is clean. -/
def CallInv (s : Dialogue) : Prop :=
  match s.client with
  | .execStatus _ true => s.shell.result = some [] ∧ s.settled = true
  | .execWrite _ true => s.shell.status = .command ∧ s.shell.result = some [] ∧ s.settled = true
  | .polling command true _ => command < s.issued ∧ Collecting s command
  | _ => True

structure Inv (s : Dialogue) : Prop where
  pending : ∀ c ∈ s.pending, c.1 < s.issued
  output : ∀ l ∈ s.output, l.1 < s.issued
  call : CallInv s
  returned : ∀ r ∈ s.returned, r.clean = true → OwnLines s r ∧ r.command < s.issued ∧
    (r.status = .commandComplete → ∀ c ∈ s.pending, c.1 ≠ r.command)

theorem start_inv (shell : Shell) : Inv (start shell) := by
  constructor <;> simp [start, CallInv]

theorem settled_iff {s : Dialogue} : s.settled = true ↔ s.pending = [] ∧ s.wire = [] := by
  simp [settled, List.isEmpty_iff]

/-- A command that has not been issued has no output. -/
theorem outputOf_unissued {s : Dialogue} (hinv : Inv s) {command : Nat} (hcommand : s.issued ≤ command) :
    s.outputOf command = [] := by
  simp only [outputOf, List.map_eq_nil_iff, List.filter_eq_nil_iff, decide_eq_true_eq]
  intro l hl heq
  have := hinv.output l hl
  omega

theorem outputOf_print (s : Dialogue) (wire : List (Nat × String)) (command : Nat) (line : String) (c : Nat) :
    outputOf { s with wire := wire, output := s.output ++ [(command, line)] } c =
      s.outputOf c ++ if command = c then [line] else [] := by
  by_cases h : command = c <;> simp [outputOf, h]

/-- Writing a command leaves the finished calls alone. -/
theorem write_inv {s : Dialogue} (hinv : Inv s) (line : String) {place : CommandPlace} {shell : Shell}
    (hcall : CallInv { s.write line with client := place, shell }) :
    Inv { s.write line with client := place, shell } := by
  constructor
  · intro c hc
    simp only [write, List.mem_append, List.mem_singleton] at hc ⊢
    obtain hc | rfl := hc
    · exact Nat.lt_succ_of_lt (hinv.pending c hc)
    · exact Nat.lt_succ_self _
  · exact fun l hl => Nat.lt_succ_of_lt (hinv.output l hl)
  · exact hcall
  · intro r hr hclean
    obtain ⟨hown, hissued, hdone⟩ := hinv.returned r hr hclean
    refine ⟨hown, Nat.lt_succ_of_lt hissued, ?_⟩
    intro hcomplete c hc
    simp only [write, List.mem_append, List.mem_singleton] at hc
    obtain hc | rfl := hc
    · exact hdone hcomplete c hc
    · exact Nat.ne_of_gt hissued

theorem execCommand_inv {s t : Dialogue} {cmd : String} (hinv : Inv s) (hstep : step s (.execCommand cmd) = some t) :
    Inv t := by
  simp only [step] at hstep
  split at hstep
  · rename_i line hclient hline
    obtain rfl := Option.some.inj hstep
    refine ⟨hinv.pending, hinv.output, ?_, hinv.returned⟩
    unfold CallInv
    cases hsettled : s.settled with
    | true => exact ⟨Shell.newResult_result, hsettled⟩
    | false => trivial
  · cases hstep

theorem execLongCommand_inv {s t : Dialogue} {cmd : String} (hinv : Inv s)
    (hstep : step s (.execLongCommand cmd) = some t) : Inv t := by
  simp only [step] at hstep
  split at hstep
  · rename_i line hclient hline
    obtain rfl := Option.some.inj hstep
    exact write_inv hinv line trivial
  · cases hstep

theorem stopLongCommand_inv {s t : Dialogue} (hinv : Inv s) (hstep : step s .stopLongCommand = some t) : Inv t := by
  simp only [step] at hstep
  split at hstep
  · obtain rfl := Option.some.inj hstep
    exact ⟨hinv.pending, hinv.output, trivial, hinv.returned⟩
  · cases hstep

/-- A command that is pending while a clean call polls is the command of that call, and
the only one. -/
theorem Collecting.of_pending {s : Dialogue} {current command : Nat} {text : String} {rest : List (Nat × String)}
    (hcollecting : Collecting s current) (hpending : s.pending = (command, text) :: rest) :
    command = current ∧ rest = [] ∧ ∃ lines late, s.shell.status = .command ∧ s.shell.result = some lines ∧
      s.outputOf current = lines ++ late ∧ (∀ line ∈ late, line ≠ LOGSPROMPT) ∧ s.wire = late.map (current, ·) := by
  cases hcollecting with
  | going lines late hstatus hresult houtput hlate hanswering =>
    cases hanswering with
    | going text' hpending' hwire =>
      simp only [hpending', List.cons.injEq, Prod.mk.injEq] at hpending
      obtain ⟨⟨rfl, -⟩, rfl⟩ := hpending
      exact ⟨rfl, rfl, lines, late, hstatus, hresult, houtput, hlate, hwire⟩
    | ended hpending' => simp [hpending'] at hpending
  | done _ _ hsettled => simp [settled_iff, hpending] at hsettled

/-- A line is printed for the oldest unanswered command, which is the one of the
call under way if that call is clean. -/
theorem print_inv {s t : Dialogue} {line : String} (hinv : Inv s) (hstep : step s (.print line) = some t) : Inv t := by
  have hcall := hinv.call
  simp only [step] at hstep
  split at hstep
  · rename_i command text rest hpending
    split at hstep
    · cases hstep
    rename_i hline
    rw [not_or] at hline
    obtain rfl := Option.some.inj hstep
    have hmem : (command, text) ∈ s.pending := by simp [hpending]
    constructor
    · exact hinv.pending
    · intro l hl
      obtain hl | hl := List.mem_append.mp hl
      · exact hinv.output l hl
      · rw [List.mem_singleton.mp hl]
        exact hinv.pending (command, text) hmem
    · unfold CallInv at hcall ⊢
      simp only
      split at hcall
      · simp [settled_iff, hpending] at hcall
      · simp [settled_iff, hpending] at hcall
      · rename_i current counter hclient
        obtain ⟨rfl, rfl, lines, late, hstatus, hresult, houtput, hlate, hwire⟩ := hcall.2.of_pending hpending
        refine ⟨hcall.1, Collecting.going lines (late ++ [line]) hstatus hresult ?_ ?_ ?_⟩
        · rw [← List.append_assoc, ← houtput]
          simpa using outputOf_print s _ command line command
        · intro data hdata
          obtain hdata | hdata := List.mem_append.mp hdata
          · exact hlate data hdata
          · rw [List.mem_singleton.mp hdata]
            exact hline.2
        · exact Answering.going text hpending (by simp [hwire])
      · trivial
    · intro r hr hclean
      obtain ⟨⟨lines, hlines, hfirst, hall⟩, hissued, hdone⟩ := hinv.returned r hr hclean
      refine ⟨⟨lines, hlines, ?_, ?_⟩, hissued, hdone⟩
      · exact hfirst.trans (outputOf_print s (s.wire ++ [(command, line)]) command line r.command ▸ List.prefix_append _ _)
      · intro hcomplete
        have hother := hdone hcomplete _ hmem
        have hsame := outputOf_print s (s.wire ++ [(command, line)]) command line r.command
        rw [if_neg hother, List.append_nil] at hsame
        exact (hall hcomplete).trans hsame.symm
  · cases hstep

/-- The prompt ends the command, and nothing more is printed for it. -/
theorem prompt_inv {s t : Dialogue} (hinv : Inv s) (hstep : step s .prompt = some t) : Inv t := by
  have hcall := hinv.call
  simp only [step] at hstep
  split at hstep
  · rename_i command text rest hpending
    obtain rfl := Option.some.inj hstep
    have hrest : ∀ c ∈ rest, c ∈ s.pending := fun c hc => by simp [hpending, hc]
    constructor
    · exact fun c hc => hinv.pending c (hrest c hc)
    · exact hinv.output
    · unfold CallInv at hcall ⊢
      simp only
      split at hcall
      · simp [settled_iff, hpending] at hcall
      · simp [settled_iff, hpending] at hcall
      · rename_i current counter hclient
        obtain ⟨rfl, rfl, lines, late, hstatus, hresult, houtput, hlate, hwire⟩ := hcall.2.of_pending hpending
        refine ⟨hcall.1, Collecting.going lines late hstatus hresult houtput hlate ?_⟩
        exact Answering.ended rfl (by simp [hwire])
      · trivial
    · intro r hr hclean
      obtain ⟨hown, hissued, hdone⟩ := hinv.returned r hr hclean
      exact ⟨hown, hissued, fun hcomplete c hc => hdone hcomplete c (hrest c hc)⟩
  · cases hstep

/-- A delivered line is collected, or it is the prompt of the command. -/
theorem deliver_collecting {s : Dialogue} {command tag : Nat} {line : String} {rest : List (Nat × String)}
    (hcollecting : Collecting s command) (hwire : s.wire = (tag, line) :: rest) :
    Collecting { s with shell := s.shell.dataReceived line, wire := rest } command := by
  cases hcollecting with
  | going lines late hstatus hresult houtput hlate hanswering =>
    cases late with
    | nil =>
      cases hanswering with
      | going text hpending hwire' => simp [hwire'] at hwire
      | ended hpending hwire' =>
        simp only [hwire', List.map_nil, List.nil_append, List.cons.injEq, Prod.mk.injEq] at hwire
        obtain ⟨⟨-, rfl⟩, rfl⟩ := hwire
        rw [Shell.dataReceived_prompt hstatus]
        rw [List.append_nil] at houtput
        refine Collecting.done rfl ?_ (settled_iff.mpr ⟨hpending, rfl⟩)
        exact hresult.trans (congrArg some houtput.symm)
    | cons first late =>
      have hfirst := hlate first (by simp)
      have hsame : line = first ∧ Answering { s with shell := s.shell.dataReceived line, wire := rest } command late := by
        cases hanswering with
        | going text hpending hwire' =>
          simp only [hwire', List.map_cons, List.cons.injEq, Prod.mk.injEq] at hwire
          exact ⟨hwire.1.2.symm, Answering.going text hpending hwire.2.symm⟩
        | ended hpending hwire' =>
          simp only [hwire', List.map_cons, List.cons_append, List.cons.injEq, Prod.mk.injEq] at hwire
          exact ⟨hwire.1.2.symm, Answering.ended hpending hwire.2.symm⟩
      obtain ⟨rfl, hnext⟩ := hsame
      rw [Shell.dataReceived_line hstatus hfirst] at hnext ⊢
      refine Collecting.going (lines ++ [line]) late ?_ (Shell.addObject_result hresult) ?_ ?_ hnext
      · simpa using hstatus
      · exact houtput.trans (List.append_cons lines line late)
      · exact fun data hdata => hlate data (by simp [hdata])
  | done _ _ hsettled => simp [settled_iff, hwire] at hsettled

theorem deliver_inv {s t : Dialogue} (hinv : Inv s) (hstep : step s .deliver = some t) : Inv t := by
  have hcall := hinv.call
  simp only [step] at hstep
  split at hstep
  · rename_i tag line rest hwire
    obtain rfl := Option.some.inj hstep
    refine ⟨hinv.pending, hinv.output, ?_, hinv.returned⟩
    unfold CallInv at hcall ⊢
    simp only
    split at hcall
    · simp [settled_iff, hwire] at hcall
    · simp [settled_iff, hwire] at hcall
    · exact ⟨hcall.1, deliver_collecting hcall.2 hwire⟩
    · trivial
  · cases hstep

/-- A clean call has collected the first lines of its command, and all of them once the
prompt has been delivered. -/
theorem Collecting.result {s : Dialogue} {command : Nat} (hcollecting : Collecting s command) :
    ∃ lines, s.shell.result = some lines ∧ lines <+: s.outputOf command ∧
      (s.shell.status = .commandComplete → lines = s.outputOf command ∧ s.pending = []) := by
  cases hcollecting with
  | going lines late hstatus hresult houtput _ _ =>
    refine ⟨lines, hresult, ⟨late, houtput.symm⟩, ?_⟩
    intro hcomplete
    simp [hstatus] at hcomplete
  | done hstatus hresult hsettled =>
    exact ⟨s.outputOf command, hresult, List.prefix_refl _, fun _ => ⟨rfl, (settled_iff.mp hsettled).1⟩⟩

theorem Collecting.withClient {s : Dialogue} {command : Nat} (hcollecting : Collecting s command)
    (place : CommandPlace) : Collecting { s with client := place } command := by
  cases hcollecting with
  | going lines late hstatus hresult houtput hlate hanswering =>
    refine Collecting.going lines late hstatus hresult houtput hlate ?_
    cases hanswering with
    | going text hpending hwire => exact Answering.going text hpending hwire
    | ended hpending hwire => exact Answering.ended hpending hwire
  | done hstatus hresult hsettled => exact Collecting.done hstatus hresult hsettled

theorem client_inv {s t : Dialogue} (hinv : Inv s) (hstep : s.clientStep = some t) : Inv t := by
  have hcall := hinv.call
  cases hclient : s.client with
  | idle => simp [clientStep, hclient] at hstep
  | execStatus line clean =>
    simp only [clientStep, hclient, Option.some.injEq] at hstep
    subst hstep
    refine ⟨hinv.pending, hinv.output, ?_, hinv.returned⟩
    cases clean with
    | true =>
      simp only [CallInv, hclient] at hcall
      exact ⟨rfl, hcall⟩
    | false => trivial
  | execWrite line clean =>
    simp only [clientStep, hclient, Option.some.injEq] at hstep
    subst hstep
    apply write_inv hinv
    cases clean with
    | true =>
      simp only [CallInv, hclient] at hcall
      obtain ⟨hstatus, hresult, hsettled⟩ := hcall
      obtain ⟨hpending, hwire⟩ := settled_iff.mp hsettled
      refine ⟨Nat.lt_succ_self _, Collecting.going [] [] hstatus hresult ?_ (by simp) ?_⟩
      · exact outputOf_unissued hinv (Nat.le_refl _)
      · exact Answering.going line (by simp [write, hpending]) hwire
    | false => trivial
  | polling command clean counter =>
    simp only [clientStep, hclient] at hstep
    split at hstep
    · obtain rfl := Option.some.inj hstep
      refine ⟨hinv.pending, hinv.output, ?_, hinv.returned⟩
      cases clean with
      | true =>
        simp only [CallInv, hclient] at hcall
        exact ⟨hcall.1, hcall.2.withClient _⟩
      | false => trivial
    · obtain rfl := Option.some.inj hstep
      refine ⟨hinv.pending, hinv.output, trivial, ?_⟩
      intro r hr hclean
      obtain hr | hr := List.mem_append.mp hr
      · exact hinv.returned r hr hclean
      · obtain rfl := List.mem_singleton.mp hr
        simp only at hclean
        subst hclean
        simp only [CallInv, hclient] at hcall
        obtain ⟨hissued, hcollecting⟩ := hcall
        obtain ⟨lines, hresult, hprefix, hcomplete⟩ := hcollecting.result
        refine ⟨⟨lines, hresult, hprefix, fun h => (hcomplete h).1⟩, hissued, ?_⟩
        intro hprompt
        simp [(hcomplete hprompt).2]
  | longStatus | longCounter | stopStatus =>
    simp only [clientStep, hclient, Option.some.injEq] at hstep
    subst hstep
    exact ⟨hinv.pending, hinv.output, trivial, hinv.returned⟩

theorem step_inv {s t : Dialogue} {e : DialogueEvent} (hinv : Inv s) (hstep : step s e = some t) : Inv t := by
  cases e with
  | execCommand cmd => exact execCommand_inv hinv hstep
  | execLongCommand cmd => exact execLongCommand_inv hinv hstep
  | stopLongCommand => exact stopLongCommand_inv hinv hstep
  | client => exact client_inv hinv hstep
  | print line => exact print_inv hinv hstep
  | prompt => exact prompt_inv hinv hstep
  | deliver => exact deliver_inv hinv hstep

/-- In every run of commands, remote output, deliveries and polls, a call that was
entered with nothing outstanding returned only lines of its own command, the
first ones in order, and all of them if a prompt ended it. -/
theorem attributed {shell : Shell} {es : List DialogueEvent} {t : Dialogue} (hrun : run step (start shell) es = some t) :
    ∀ r ∈ t.returned, r.clean = true → OwnLines t r := by
  have hinv : Inv t := run_preserves Inv (fun _ _ _ hinv hstep => step_inv hinv hstep) (start_inv shell) hrun
  exact fun r hr hclean => (hinv.returned r hr hclean).1

/-- A shell that has just been set up. -/
def idleShell : Shell where
  status := .idle
  arrays := []
  cmdResult := none
  cmdCounter := 0
  delegate := false
  notified := []

/-- A command is answered while it polls. -/
def answered : List DialogueEvent :=
  [.execCommand "ls", .client, .client, .print "ls", .print "a", .deliver, .prompt, .deliver, .client, .deliver, .client]

def answer : Returned where
  command := 0
  clean := true
  array := some 0
  lines := some ["ls", "a"]
  status := .commandComplete

def answeredState : Dialogue where
  shell := { idleShell with status := .commandComplete, arrays := [["ls", "a"]], cmdResult := some 0 }
  client := .idle
  issued := 1
  pending := []
  wire := []
  output := [(0, "ls"), (0, "a")]
  returned := [answer]

theorem attributed_answered : OwnLines answeredState answer := by
  have hrun : run step (start idleShell) answered = some answeredState := by
    simp [answered, answeredState, answer, run, step, clientStep, start, idleShell, commandLine, write, settled,
      Shell.newResult, Shell.dataReceived, Shell.addObject, Shell.result, LOGSPROMPT]
  exact attributed hrun answer (List.mem_singleton_self _) rfl

/-- A long command is stopped while a line of it is on its way, and a command
follows at once. -/
def interrupted : List DialogueEvent :=
  [.execLongCommand "tail", .client, .client, .print "x", .stopLongCommand, .client, .execCommand "ls", .client,
    .client, .deliver, .prompt, .deliver, .client]

def interruptedState : Dialogue where
  shell := { idleShell with status := .commandComplete, arrays := [["x"]], cmdResult := some 0 }
  client := .idle
  issued := 2
  pending := [(1, "ls\n")]
  wire := []
  output := [(0, "x")]
  returned := [{ command := 1, clean := false, array := some 0, lines := some ["x"], status := .commandComplete }]

/-- The command returns the line of the long command. -/
theorem late_line_returned :
    ¬ ∀ (shell : Shell) (es : List DialogueEvent) (t : Dialogue), run step (start shell) es = some t →
      ∀ r ∈ t.returned, NoCrossTalk t r := by
  intro halways
  have hrun : run step (start idleShell) interrupted = some interruptedState := by
    simp [interrupted, interruptedState, run, step, clientStep, start, idleShell, commandLine, write, settled,
      Shell.newResult, Shell.dataReceived, Shell.addObject, Shell.result, LOGSPROMPT]
  obtain ⟨lines, hlines, hown⟩ := halways idleShell interrupted interruptedState hrun _ (List.mem_singleton_self _)
  obtain rfl := Option.some.inj hlines
  have hx := (hown "x").mp (by simp)
  simp [outputOf, interruptedState] at hx

end Dialogue

end MPSsh.MPSshShell

import Mathlib.Data.List.TakeWhile
import MPSsh.Shell.Usage

open Schedule

namespace MPSsh.MPSshShell

/-- The client is in `execCommand:`. -/
def UsagePlace.executing : UsagePlace → Bool
  | .execStatus _ | .execWrite _ | .polling _ | .leaving _ => true
  | _ => false

/-- The client is between the two assignments at the entry of `execCommand:`. -/
def UsagePlace.entering : UsagePlace → Bool
  | .execStatus _ => true
  | _ => false

/-- A call returned the lines delivered during it, cut before the first prompt; its
status tells whether there was one, and it polled to the end if there was none. -/
structure ExecResult.Exact (r : ExecResult) : Prop where
  lines : r.lines = some (r.window.takeWhile (· ≠ LOGSPROMPT))
  noPrompt : ∀ lines ∈ r.lines, LOGSPROMPT ∉ lines
  status : r.status = if LOGSPROMPT ∈ r.window then .commandComplete else .command
  polls : r.polls < 100 → LOGSPROMPT ∈ r.window

/-- The shell has taken in the lines delivered since the command was entered. -/
structure Answered (shell : Shell) (window : List String) : Prop where
  result : shell.result = some (window.takeWhile (· ≠ LOGSPROMPT))
  status : shell.status = if LOGSPROMPT ∈ window then .commandComplete else .command

theorem Answered.deliver {shell : Shell} {window : List String} (hanswered : Answered shell window) (line : String) :
    Answered (shell.dataReceived line) (window ++ [line]) := by
  obtain ⟨hresult, hstatus⟩ := hanswered
  by_cases hprompt : LOGSPROMPT ∈ window
  · -- The command is complete, and what comes later is ignored.
    rw [if_pos hprompt] at hstatus
    have hsame : shell.dataReceived line = shell := by simp [Shell.dataReceived, hstatus]
    have hcut : (window ++ [line]).takeWhile (· ≠ LOGSPROMPT) = window.takeWhile (· ≠ LOGSPROMPT) := by
      obtain ⟨before, after, rfl⟩ := List.append_of_mem hprompt
      simp [List.takeWhile_append]
    rw [hsame]
    exact ⟨by rw [hresult, hcut], by simp [hstatus, hprompt]⟩
  · rw [if_neg hprompt] at hstatus
    have hnone : ∀ data ∈ window, decide (data ≠ LOGSPROMPT) = true := by
      intro data hdata
      simpa using fun h : data = LOGSPROMPT => hprompt (h ▸ hdata)
    rw [List.takeWhile_eq_self_iff.mpr hnone] at hresult
    have hcut : (window ++ [line]).takeWhile (· ≠ LOGSPROMPT) = window ++ [line].takeWhile (· ≠ LOGSPROMPT) :=
      List.takeWhile_append_of_pos hnone
    by_cases hline : line = LOGSPROMPT
    · subst hline
      rw [Shell.dataReceived_prompt hstatus]
      refine ⟨?_, by simp⟩
      rw [hcut]
      simpa [Shell.result] using hresult
    · rw [Shell.dataReceived_line hstatus hline]
      refine ⟨?_, by simp [hstatus, hprompt, Ne.symm hline]⟩
      rw [Shell.addObject_result hresult, hcut]
      simp [hline]

namespace Usage

/-- No line is delivered between the two assignments at the entry of `execCommand:`. -/
def AtomicEntry (s : Usage) (e : UsageEvent) : Prop :=
  e.delivers = true → s.client.entering = false

instance (s : Usage) (e : UsageEvent) : Decidable (AtomicEntry s e) :=
  inferInstanceAs (Decidable (_ → _))

/-- What holds of the call under way. -/
def CallInv (s : Usage) : Prop :=
  match s.client with
  | .execStatus _ => s.shell.result = some [] ∧ s.window = []
  | .execWrite _ | .polling _ => Answered s.shell s.window
  | .leaving counter => Answered s.shell s.window ∧ (counter < 100 → LOGSPROMPT ∈ s.window)
  | _ => True

structure WindowInv (s : Usage) : Prop where
  call : CallInv s
  results : ∀ r ∈ s.results, r.Exact

theorem deliver_call {s : Usage} {line : String} (hinv : CallInv s) (hatomic : s.client.entering = false) :
    CallInv { s with
      shell := s.shell.dataReceived line
      window := s.window ++ [line]
      long := s.long.map (·.deliver line) } := by
  cases hclient : s.client with
  | execStatus cmd => simp [hclient, UsagePlace.entering] at hatomic
  | execWrite | polling =>
    simp only [CallInv, hclient] at hinv ⊢
    exact hinv.deliver line
  | leaving counter =>
    simp only [CallInv, hclient] at hinv ⊢
    exact ⟨hinv.1.deliver line, fun hcounter => List.mem_append_left _ (hinv.2 hcounter)⟩
  | _ => trivial

theorem move_window {s t : Usage} {e : UsageEvent} (hinv : WindowInv s) (hatomic : AtomicEntry s e)
    (hmove : Move s e t) : WindowInv t := by
  obtain ⟨hcall, hresults⟩ := hinv
  cases hmove with
  | execCommand hclient hline => exact ⟨⟨Shell.newResult_result, rfl⟩, hresults⟩
  | execLongCommand | stopLongCommand | longWrite | longStatus | longCounter | stopWrite | stopStatus =>
    exact ⟨trivial, hresults⟩
  | setDelegate hclient => exact ⟨by simp [CallInv, hclient], hresults⟩
  | execStatus hclient =>
    simp only [CallInv, hclient] at hcall
    obtain ⟨hresult, hwindow⟩ := hcall
    exact ⟨⟨by simpa [hwindow, Shell.result] using hresult, by simp [hwindow]⟩, hresults⟩
  | execWrite hclient =>
    simp only [CallInv, hclient] at hcall
    exact ⟨hcall, hresults⟩
  | poll hclient hstatus hcounter =>
    simp only [CallInv, hclient] at hcall
    exact ⟨hcall, hresults⟩
  | leave hclient hend =>
    simp only [CallInv, hclient] at hcall
    refine ⟨⟨hcall, fun hcounter => ?_⟩, hresults⟩
    have hstatus := hend hcounter
    rw [hcall.status] at hstatus
    by_contra hnone
    simp [hnone] at hstatus
  | returns hclient =>
    simp only [CallInv, hclient] at hcall
    obtain ⟨hanswered, hpolls⟩ := hcall
    refine ⟨trivial, ?_⟩
    simp only [List.mem_append, List.mem_singleton]
    rintro r (hr | rfl)
    · exact hresults r hr
    · refine ⟨hanswered.result, ?_, hanswered.status, hpolls⟩
      intro lines hlines hmem
      obtain rfl := Option.some.inj (hanswered.result.symm.trans hlines)
      simpa using List.mem_takeWhile_imp hmem
  | deliver => exact ⟨deliver_call hcall (hatomic rfl), hresults⟩

/-- In every run in which the entry of `execCommand:` is atomic, every call has
returned exactly the lines delivered during it, up to the prompt. -/
theorem returned_exact {es : List UsageEvent} (hatomic : Along step (fun s e _ => AtomicEntry s e) start es) :
    Along step (fun _ _ t => ∀ r ∈ t.results, r.Exact) start es := by
  have hstart : WindowInv start := ⟨trivial, by simp [start]⟩
  refine Along.of_invariant WindowInv ?_ hstart hatomic
  intro s e t hinv hentry hstep
  have hnext := move_window hinv hentry (step_move hstep)
  exact ⟨hnext.results, hnext⟩

/-- The array of every finished call has the content that it had then. -/
def Frozen (s : Usage) : Prop :=
  ∀ r ∈ s.results, (r.array.bind fun i => s.shell.arrays[i]?) = r.lines

instance (s : Usage) : Decidable (Frozen s) :=
  inferInstanceAs (Decidable (∀ r ∈ s.results, _))

/-- No line but the prompt is delivered while the status is that of a command whose
call has returned. -/
def NoLateLine (s : Usage) (e : UsageEvent) : Prop :=
  ∀ line, e = .deliver line → s.shell.status = .command → s.client.executing = false → line = LOGSPROMPT

/-- A call under way has an array of its own, and outside the calls a status that
waits for lines is that of a finished call. -/
structure FrozenInv (s : Usage) : Prop where
  frozen : Frozen s
  known : ∀ r ∈ s.results, ∃ i < s.shell.arrays.length, r.array = some i
  executing : s.client.executing = true →
    ∃ i < s.shell.arrays.length, s.shell.cmdResult = some i ∧ ∀ r ∈ s.results, r.array ≠ some i
  late : s.client.executing = false → s.shell.status = .command → ∃ r ∈ s.results, r.array = s.shell.cmdResult

/-- The other methods keep all arrays, and set no status that waits for lines. -/
theorem FrozenInv.frame {s t : Usage} (hinv : FrozenInv s) (harrays : t.shell.arrays = s.shell.arrays)
    (hcurrent : t.shell.cmdResult = s.shell.cmdResult) (hresults : t.results = s.results)
    (hclient : t.client.executing = s.client.executing)
    (hstatus : t.client.executing = false → t.shell.status = .command → s.shell.status = .command) :
    FrozenInv t := by
  refine ⟨?_, ?_, ?_, ?_⟩
  · rw [Frozen, hresults, harrays]
    exact hinv.frozen
  · rw [hresults, harrays]
    exact hinv.known
  · rw [hresults, harrays, hcurrent, hclient]
    exact hinv.executing
  · intro hout hcommand
    rw [hresults, hcurrent]
    exact hinv.late (hclient ▸ hout) (hstatus hout hcommand)

theorem move_frozen {s t : Usage} {e : UsageEvent} (hinv : FrozenInv s) (hlate : NoLateLine s e)
    (hmove : Move s e t) : FrozenInv t := by
  cases hmove with
  | execLongCommand hclient | stopLongCommand hclient | setDelegate hclient | poll hclient | leave hclient
  | execWrite hclient | longWrite hclient | longCounter hclient | stopWrite hclient =>
    exact hinv.frame rfl rfl rfl (by simp [hclient, UsagePlace.executing]) fun _ h => h
  | execStatus hclient | longStatus hclient | stopStatus hclient =>
    exact hinv.frame rfl rfl rfl (by simp [hclient, UsagePlace.executing]) (by simp [UsagePlace.executing])
  | execCommand hclient hline =>
    refine ⟨?_, ?_, ?_, by simp [UsagePlace.executing]⟩
    · intro r hr
      obtain ⟨i, hi, harray⟩ := hinv.known r hr
      have hfrozen := hinv.frozen r hr
      simpa [harray, Shell.newResult, List.getElem?_append_left hi] using hfrozen
    · intro r hr
      obtain ⟨i, hi, harray⟩ := hinv.known r hr
      exact ⟨i, by simp [Shell.newResult, Nat.lt_succ_of_lt hi], harray⟩
    · refine fun _ => ⟨s.shell.arrays.length, by simp [Shell.newResult], rfl, fun r hr harray => ?_⟩
      obtain ⟨i, hi, hknown⟩ := hinv.known r hr
      rw [harray, Option.some.injEq] at hknown
      omega
  | returns hclient =>
    obtain ⟨i, hi, hcurrent, -⟩ := hinv.executing (by rw [hclient]; rfl)
    refine ⟨?_, ?_, by simp [UsagePlace.executing], ?_⟩
    · simp only [Frozen, List.mem_append, List.mem_singleton]
      rintro r (hr | rfl)
      · exact hinv.frozen r hr
      · rfl
    · simp only [List.mem_append, List.mem_singleton]
      rintro r (hr | rfl)
      · exact hinv.known r hr
      · exact ⟨i, hi, hcurrent⟩
    · exact fun _ _ => ⟨_, List.mem_append_right _ (List.mem_singleton_self _), rfl⟩
  | deliver =>
    rename_i line
    -- Outside the calls only the prompt can be taken in, and in a call its own array changes.
    have hcontent : ∀ r ∈ s.results, ∀ i, r.array = some i →
        (s.shell.dataReceived line).arrays[i]? = s.shell.arrays[i]? := by
      intro r hr i harray
      rw [Shell.dataReceived_getElem?, if_neg]
      rintro ⟨hcommand, hline, hcurrent⟩
      cases hclient : s.client.executing with
      | false => exact hline (hlate line rfl hcommand hclient)
      | true =>
        obtain ⟨j, -, hown, hothers⟩ := hinv.executing hclient
        exact hothers r hr (by rw [harray, ← hcurrent, hown])
    refine ⟨?_, ?_, ?_, ?_⟩
    · intro r hr
      obtain ⟨i, hi, harray⟩ := hinv.known r hr
      have hfrozen := hinv.frozen r hr
      simp only [harray, Option.bind_some] at hfrozen ⊢
      rw [hcontent r hr i harray, hfrozen]
    · simpa using hinv.known
    · simpa using hinv.executing
    · intro hout hcommand
      simpa using hinv.late hout (Shell.dataReceived_command hcommand)

/-- A line that comes too late changes a finished call's array. -/
theorem deliver_late {s : Usage} (hinv : FrozenInv s) {line : String} (hcommand : s.shell.status = .command)
    (hout : s.client.executing = false) (hline : line ≠ LOGSPROMPT) :
    ¬ ∀ r ∈ s.results, (r.array.bind fun i => (s.shell.dataReceived line).arrays[i]?) = r.lines := by
  intro hfrozen
  obtain ⟨r, hr, hcurrent⟩ := hinv.late hout hcommand
  obtain ⟨i, hi, harray⟩ := hinv.known r hr
  have hbefore := hinv.frozen r hr
  have hafter := hfrozen r hr
  simp only [harray, Option.bind_some] at hbefore hafter
  rw [Shell.dataReceived_getElem?, if_pos ⟨hcommand, hline, by rw [← hcurrent, harray]⟩, ← hbefore,
    List.getElem?_eq_getElem hi] at hafter
  simp at hafter

/-- In every run, the arrays that `execCommand:` has returned keep their content if and
only if no line comes too late. -/
theorem returned_frozen_iff (es : List UsageEvent) :
    Along step (fun _ _ t => Frozen t) start es ↔ Along step (fun s e _ => NoLateLine s e) start es := by
  have hstart : FrozenInv start := by
    constructor <;> simp [start, Frozen, UsagePlace.executing]
  refine along_iff_of_invariant FrozenInv ?_ ?_ hstart
  · intro s e t hinv hstep
    have hmove := step_move hstep
    constructor
    · rintro hfrozen line rfl hcommand hout
      by_contra hline
      cases hmove
      exact deliver_late hinv hcommand hout hline hfrozen
    · exact fun hlate => (move_frozen hinv hlate hmove).frozen
  · exact fun s e t hinv hlate hstep => move_frozen hinv hlate (step_move hstep)

/-- A command that no prompt answers, and a line after its call has returned. -/
def lateLine : List UsageEvent :=
  [.execCommand "ls", .client, .client] ++ List.replicate 102 .client ++ [.deliver "x"]

/-- The line is added to the array that the call returned. -/
theorem late_line_changes_result : ¬ ∀ es, Along step (fun _ _ t => Frozen t) start es := by
  intro halways
  exact absurd (halways lateLine) (by decide +kernel)

/-- A line, the prompt and another line while the command polls. -/
def promptly : List UsageEvent :=
  [.execCommand "ls", .client, .client, .client, .deliver "x", .deliver LOGSPROMPT, .deliver "y", .client, .client]

theorem returned_exact_promptly : Along step (fun _ _ t => ∀ r ∈ t.results, r.Exact) start promptly :=
  returned_exact (by decide +kernel)

end Usage

end MPSsh.MPSshShell

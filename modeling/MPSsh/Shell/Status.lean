import Mathlib.Data.List.Basic

namespace MPSsh.MPSshShell

inductive MPShellStatus where
  | idle
  | command
  | commandComplete
  | onlineCommand
  deriving DecidableEq, Repr

/-- The line that the prompt set by `initWithChannel:` prints. -/
def LOGSPROMPT : String := "123logs123"

/-- The properties that `dataReceived:` and the command methods share. Mutable
arrays keep their identity: `cmdResult` is the position of the current one among
all those the shell has created. -/
structure Shell where
  status : MPShellStatus
  arrays : List (List String)
  cmdResult : Option Nat
  cmdCounter : Int
  delegate : Bool
  notified : List (String × Int)
  deriving DecidableEq, Repr

namespace Shell

/-- The content of the array that `cmdResult` points to. -/
def result (shell : Shell) : Option (List String) :=
  shell.cmdResult.bind fun i => shell.arrays[i]?

/-- `[self.cmdResult addObject:data]`, which does nothing on a `nil` array. -/
def addObject (shell : Shell) (data : String) : Shell :=
  match shell.cmdResult with
  | none => shell
  | some i => { shell with arrays := shell.arrays.modify i (· ++ [data]) }

/-- `self.cmdResult = [NSMutableArray arrayWithCapacity:2]`. -/
def newResult (shell : Shell) : Shell :=
  { shell with arrays := shell.arrays ++ [[]], cmdResult := some shell.arrays.length }

/-- `[self.delegate shellSession:self dataReceived:data counter:self.cmdCounter]`. -/
def notify (shell : Shell) (data : String) : Shell :=
  if shell.delegate then { shell with notified := shell.notified ++ [(data, shell.cmdCounter)] } else shell

def dataReceived (shell : Shell) (data : String) : Shell :=
  match shell.status with
  | .command =>
    if data = LOGSPROMPT then { shell with status := .commandComplete } else shell.addObject data
  | .onlineCommand => notify { shell with cmdCounter := shell.cmdCounter + 1 } data
  | _ => shell

section Lemmas

variable {shell : Shell} {data : String} {lines : List String}

@[simp] theorem addObject_status : (shell.addObject data).status = shell.status := by
  unfold addObject
  split <;> rfl

theorem addObject_result (hresult : shell.result = some lines) :
    (shell.addObject data).result = some (lines ++ [data]) := by
  obtain ⟨i, hi, hget⟩ := Option.bind_eq_some_iff.mp hresult
  simp [addObject, result, hi, hget]

@[simp] theorem newResult_result : shell.newResult.result = some [] := by
  simp [newResult, result]

theorem dataReceived_prompt (hstatus : shell.status = .command) :
    shell.dataReceived LOGSPROMPT = { shell with status := .commandComplete } := by
  simp [dataReceived, hstatus]

theorem dataReceived_line (hstatus : shell.status = .command) (hdata : data ≠ LOGSPROMPT) :
    shell.dataReceived data = shell.addObject data := by
  simp [dataReceived, hstatus, hdata]

@[simp] theorem addObject_cmdResult : (shell.addObject data).cmdResult = shell.cmdResult := by
  unfold addObject
  split <;> rfl

@[simp] theorem addObject_length : (shell.addObject data).arrays.length = shell.arrays.length := by
  unfold addObject
  split <;> simp

/-- Only the current array changes. -/
theorem addObject_getElem? (i : Nat) :
    (shell.addObject data).arrays[i]? =
      if shell.cmdResult = some i then shell.arrays[i]?.map (· ++ [data]) else shell.arrays[i]? := by
  unfold addObject
  split
  · rename_i hnone
    simp [hnone]
  · rename_i j hsome
    simp only [hsome, Option.some.injEq, List.getElem?_modify]
    split <;> simp

/-- A line that no command waits for changes no array and leaves the status as it is. -/
theorem dataReceived_other (hstatus : shell.status ≠ .command) :
    (shell.dataReceived data).arrays = shell.arrays ∧ (shell.dataReceived data).status = shell.status := by
  unfold dataReceived
  split
  · contradiction
  · rename_i honline
    unfold notify
    split <;> exact ⟨rfl, rfl⟩
  · exact ⟨rfl, rfl⟩

@[simp] theorem dataReceived_cmdResult : (shell.dataReceived data).cmdResult = shell.cmdResult := by
  unfold dataReceived
  split
  · split
    · rfl
    · simp
  · unfold notify
    split <;> rfl
  · rfl

@[simp] theorem dataReceived_length : (shell.dataReceived data).arrays.length = shell.arrays.length := by
  by_cases hstatus : shell.status = .command
  · simp only [dataReceived, hstatus]
    split <;> simp
  · rw [(dataReceived_other hstatus).1]

/-- A line changes the current array when a command waits for it, and nothing else. -/
theorem dataReceived_getElem? (i : Nat) :
    (shell.dataReceived data).arrays[i]? =
      if shell.status = .command ∧ data ≠ LOGSPROMPT ∧ shell.cmdResult = some i then
        shell.arrays[i]?.map (· ++ [data])
      else shell.arrays[i]? := by
  by_cases hstatus : shell.status = .command
  · by_cases hdata : data = LOGSPROMPT
    · simp [dataReceived, hstatus, hdata]
    · simp [dataReceived_line hstatus hdata, addObject_getElem?, hstatus, hdata]
  · simp [(dataReceived_other hstatus).1, hstatus]

theorem dataReceived_command (hafter : (shell.dataReceived data).status = .command) : shell.status = .command := by
  by_contra hstatus
  rw [(dataReceived_other hstatus).2] at hafter
  exact hstatus hafter

/-- Lines other than the prompt are collected, and the command goes on. -/
theorem foldl_dataReceived_lines {more : List String} (hstatus : shell.status = .command)
    (hresult : shell.result = some lines) (hmore : ∀ data ∈ more, data ≠ LOGSPROMPT) :
    (more.foldl dataReceived shell).status = .command ∧
      (more.foldl dataReceived shell).result = some (lines ++ more) := by
  induction more generalizing shell lines with
  | nil => simpa using ⟨hstatus, hresult⟩
  | cons data more ih =>
    simp only [List.mem_cons, forall_eq_or_imp] at hmore
    have hstep := dataReceived_line hstatus hmore.1
    have hstatus' : (shell.dataReceived data).status = .command := by
      rw [hstep, addObject_status, hstatus]
    have hresult' : (shell.dataReceived data).result = some (lines ++ [data]) := by
      rw [hstep, addObject_result hresult]
    simpa using ih hstatus' hresult' hmore.2

end Lemmas

end Shell

end MPSsh.MPSshShell

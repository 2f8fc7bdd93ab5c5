import Mathlib.Algebra.GroupWithZero.Nat
import Mathlib.Data.List.Basic

namespace MPSsh.MPLSChannel

/-- The size that `read:` passes to `libssh2_channel_read`. -/
def readLimit : Nat := 1023

theorem one_le_readLimit : 1 ≤ readLimit := by decide

/-- `LIBSSH2_ERROR_EAGAIN`. -/
def EAGAIN : Int := -37

/-- The data of one successful read. The library never returns more than the
limit it is given. -/
structure Chunk where
  bytes : List UInt8
  nonempty : bytes ≠ []
  bounded : bytes.length ≤ readLimit

/-- The result of `read:`, with what the library has put in the buffer. -/
inductive ReadResult where
  | bytes (chunk : Chunk)
  | failed (rc : Int) (h : rc ≤ 0)

/-- A value of type `LIBSSH2_CHANNEL *`. -/
abbrev Handle := Nat

/-- The library functions that the methods call on the channel. -/
inductive LibCall where
  | requestPty
  | shell
  | read
  | write
  | close
  | waitClosed
  | free
  deriving DecidableEq, Repr

/-- The atomic steps of the methods. A library call takes the handle from the
file-scope variable `channel` when it is entered. -/
inductive Instr where
  | setBlocked
  | call (f : LibCall)
  | returns
  | clearBlocked
  | waitUnblocked
  deriving DecidableEq, Repr

inductive Method where
  | requestPty
  | shell
  | read
  | write
  | ctrlC
  | shutdown
  | free
  deriving DecidableEq, Repr

/-- The body of each method. -/
def Method.code : Method → List Instr
  | .requestPty => [.call .requestPty, .returns]
  | .shell => [.call .shell, .returns]
  | .free => [.call .free, .returns]
  | .read => [.setBlocked, .call .read, .returns, .clearBlocked]
  | .write => [.call .write, .returns]
  | .ctrlC => [.call .write, .returns]
  | .shutdown =>
    [.call .close, .returns, .waitUnblocked, .call .waitClosed, .returns, .call .free, .returns]

/-- The methods after which the object is not used any more. -/
def Method.final : Method → Bool
  | .shutdown | .free => true
  | _ => false

/-- The file-scope variables `channel` and `blocked`, with the handles that
`libssh2_channel_free` has been called on. -/
structure Globals where
  channel : Handle
  blocked : Bool
  freed : List Handle
  deriving DecidableEq, Repr

/-- The effect of a step on the file-scope variables. -/
def Globals.exec (g : Globals) : Instr → Globals
  | .setBlocked => { g with blocked := true }
  | .clearBlocked => { g with blocked := false }
  | .call .free => { g with freed := g.freed ++ [g.channel] }
  | _ => g

/-- The loop that waits for `blocked` goes round while it is set. -/
def Globals.waits (g : Globals) (instr : Instr) : Bool :=
  instr = .waitUnblocked && g.blocked

/-- The objects created so far (the newest one first) and the method invocations
under way. -/
structure Process (ι : Type*) extends Globals where
  objects : List (ι × Handle)
  retired : List ι
  running : List (ι × List Instr)

inductive Event (ι : Type*) where
  /-- `[[MPLSChannel alloc] initWithChannel:h]` creates the object `a`. -/
  | initWithChannel (a : ι) (h : Handle)
  /-- A thread enters a method of the object `a`. -/
  | invoke (a : ι) (m : Method)
  /-- The invocation at position `k` takes its next step. -/
  | advance (k : Nat)

variable {ι : Type*}

variable [DecidableEq ι]

/-- Handles are distinct, an object is used only after its creation, and nothing
is started on it after a shutdown or a free. -/
def step (s : Process ι) : Event ι → Option (Process ι)
  | .initWithChannel a h =>
    if a ∈ s.objects.map Prod.fst ∨ h ∈ s.objects.map Prod.snd then none
    else some { s with channel := h, objects := (a, h) :: s.objects }
  | .invoke a m =>
    if a ∉ s.objects.map Prod.fst ∨ a ∈ s.retired then none
    else some { s with
      running := s.running ++ [(a, m.code)]
      retired := if m.final then a :: s.retired else s.retired }
  | .advance k =>
    match s.running[k]? with
    | some (a, instr :: rest) =>
      if s.waits instr then some s
      else some { s with toGlobals := s.exec instr, running := s.running.set k (a, rest) }
    | _ => none

/-- No object has been created yet. -/
def start : Process ι where
  channel := 0
  blocked := false
  objects := []
  retired := []
  running := []
  freed := []

/-- The step that an event makes an invocation take. -/
def Process.next (s : Process ι) : Event ι → Option (ι × Instr)
  | .advance k =>
    match s.running[k]? with
    | some (a, instr :: _) => some (a, instr)
    | _ => none
  | _ => none

/-- The rest of an invocation of `read:` that has set `blocked` and has yet to
clear it. -/
def midRead : List Instr → Bool
  | [.call .read, .returns, .clearBlocked] => true
  | [.returns, .clearBlocked] => true
  | [.clearBlocked] => true
  | _ => false

section Frame

variable (g : Globals) (instr : Instr)

@[simp] theorem exec_channel : (g.exec instr).channel = g.channel := by
  unfold Globals.exec
  split <;> rfl

/-- Only a call of `libssh2_channel_free` frees, and it frees the current handle. -/
theorem exec_freed :
    (g.exec instr).freed = g.freed ++ if instr = .call .free then [g.channel] else [] := by
  unfold Globals.exec
  split <;> simp_all

theorem exec_blocked :
    (g.exec instr).blocked = true ↔ instr = .setBlocked ∨ (g.blocked = true ∧ instr ≠ .clearBlocked) := by
  unfold Globals.exec
  split <;> simp_all

theorem waits_iff : g.waits instr = true ↔ instr = .waitUnblocked ∧ g.blocked = true := by
  simp [Globals.waits]

end Frame

/-- Along a method body, an invocation is between the two assignments of `read:`
once it has made the first and until it makes the second. -/
theorem midRead_tail {m : Method} {instr : Instr} {rest : List Instr} (hsuffix : instr :: rest <:+ m.code) :
    midRead rest = true ↔ instr = .setBlocked ∨ (midRead (instr :: rest) = true ∧ instr ≠ .clearBlocked) := by
  cases m <;> simp [Method.code, List.suffix_cons_iff] at hsuffix <;>
    rcases hsuffix with h | h | h | h | h | h | h <;> simp_all [midRead]

end MPSsh.MPLSChannel

import MPSsh.Shell.Boundary
import MPSsh.Shell.Dialogue

open Schedule Segments MPSsh.MPLSChannel

namespace MPSsh.MPSshShell

/-- A piece of what the remote has printed: its bytes, the command they answer, and
whether they are the prompt. -/
structure Printed where
  command : Nat
  prompt : Bool
  bytes : List UInt8
  deriving DecidableEq, Repr

/-- A shell with its client thread, its receiver and the remote, at the level of bytes.
What the receiver has not read yet is in `connection`, and the strings that it has cut
out of its last read but not passed to `dataReceived:` are in `receiver.sent`. -/
structure Console where
  shell : Shell
  client : CommandPlace
  issued : Nat
  pending : List (Nat × String)
  connection : List UInt8
  receiver : Receiver
  running : Bool
  printed : List Printed
  returned : List Returned

/-- What happens next. The remote prints bytes for the oldest unanswered command, or ends
it with the prompt and one or more line ends. A read of the receiver returns, or the
receiver passes on the next string. -/
inductive ConsoleEvent where
  | execCommand (cmd : String)
  | execLongCommand (cmd : String)
  | stopLongCommand
  | client
  | print (bytes : List UInt8)
  | prompt (ending : List UInt8)
  | read (result : ReadResult)
  | deliver

namespace Console

/-- The client's side, which is that of `Dialogue`. -/
def front (s : Console) : Dialogue where
  shell := s.shell
  client := s.client
  issued := s.issued
  pending := s.pending
  wire := []
  output := []
  returned := s.returned

def withFront (s : Console) (d : Dialogue) : Console :=
  { s with shell := d.shell, client := d.client, issued := d.issued, pending := d.pending, returned := d.returned }

/-- The bytes of the carried text. -/
def carry (s : Console) : List UInt8 :=
  utf8 (s.receiver.res.getD "")

/-- The text that is still to be cut into lines. -/
def underWay (s : Console) : List UInt8 :=
  s.carry ++ s.connection

/-- The line that the remote has begun to print. -/
def openLine (s : Console) : List UInt8 :=
  unterminated isNewline s.underWay

/-- Nothing but line ends is left of the answers to earlier commands. -/
def settled (s : Console) : Bool :=
  s.pending.isEmpty && s.receiver.sent.isEmpty && s.underWay.all isNewline

/-- What the remote has printed for a command, without the prompt. -/
def outputOf (s : Console) (command : Nat) : List UInt8 :=
  (s.printed.filter fun p => p.command = command && !p.prompt).flatMap Printed.bytes

/-- Everything the remote has printed for a command. -/
def bytesOf (s : Console) (command : Nat) : List UInt8 :=
  (s.printed.filter (·.command = command)).flatMap Printed.bytes

/-- What a read leaves in the connection. The library returns what comes next there. -/
def rest (s : Console) : ReadResult → Option (List UInt8)
  | .bytes chunk =>
    if chunk.bytes.isPrefixOf s.connection then some (s.connection.drop chunk.bytes.length) else none
  | .failed _ _ => some s.connection

/-- The receiver reads when it has passed on what it cut out of the last read, and its
loop ends with the first error other than `EAGAIN`. -/
def step (enc : SystemEncoding) (s : Console) : ConsoleEvent → Option Console
  | .execCommand cmd =>
    match s.client, commandLine cmd with
    | .idle, some line => some { s with shell := s.shell.newResult, client := .execStatus line s.settled }
    | _, _ => none
  | .execLongCommand cmd => (s.front.step (.execLongCommand cmd)).map s.withFront
  | .stopLongCommand => (s.front.step .stopLongCommand).map s.withFront
  | .client => s.front.clientStep.map s.withFront
  | .print bytes =>
    match s.pending with
    | (command, _) :: _ =>
      some { s with
        connection := s.connection ++ bytes
        printed := s.printed ++ [{ command, prompt := false, bytes }] }
    | [] => none
  | .prompt ending =>
    match s.pending with
    | (command, _) :: rest =>
      if ending = [] ∨ ending.all isNewline = false then none
      else some { s with
        pending := rest
        connection := s.connection ++ (utf8 LOGSPROMPT ++ ending)
        printed := s.printed ++ [{ command, prompt := true, bytes := utf8 LOGSPROMPT ++ ending }] }
    | [] => none
  | .read result =>
    if s.running = true ∧ s.receiver.sent = [] then
      (s.rest result).map fun connection =>
        { s with
          connection
          receiver := (receiverBody enc s.receiver result).1
          running := (receiverBody enc s.receiver result).2 ≥ 0 }
    else none
  | .deliver =>
    match s.receiver.sent with
    | data :: rest =>
      some { s with shell := s.shell.dataReceived data, receiver := { s.receiver with sent := rest } }
    | [] => none

/-- A shell on which no command has been called yet, with a receiver before its first read. -/
def start (shell : Shell) (stack : CharArray 1024) : Console where
  shell := shell
  client := .idle
  issued := 0
  pending := []
  connection := []
  receiver := { buffer := stack, res := none, sent := [] }
  running := true
  printed := []
  returned := []

/-- The remote prints plain lines other than the prompt, has none of them open when it
prints the prompt, and every read that finds text carried completes it. -/
def InLines (s : Console) : ConsoleEvent → Console → Prop
  | .print bytes, _ =>
    Plain bytes ∧ ∀ line ∈ terminated isNewline (s.openLine ++ bytes), line ≠ utf8 LOGSPROMPT
  | .prompt _, _ => s.openLine = []
  | .read (.bytes chunk), _ => s.receiver.res.getD "" ≠ "" → Completes chunk.bytes
  | _, _ => True

/-- The remote prints plain text. -/
def PrintsPlain (_ : Console) : ConsoleEvent → Console → Prop
  | .print bytes, _ => Plain bytes
  | _, _ => True

instance (bytes : List UInt8) : Decidable (Completes bytes) :=
  @instDecidableAnd _ _ (Option.decidableForallMem _) (List.decidableBEx _ bytes)

instance (s : Console) (e : ConsoleEvent) (t : Console) : Decidable (InLines s e t) := by
  unfold InLines
  split <;> infer_instance

instance (s : Console) (e : ConsoleEvent) (t : Console) : Decidable (PrintsPlain s e t) := by
  unfold PrintsPlain
  split <;> infer_instance

section Printing

variable (s : Console) (c : Nat)

theorem outputOf_print (connection bytes : List UInt8) (command : Nat) :
    outputOf { s with connection, printed := s.printed ++ [{ command, prompt := false, bytes }] } c =
      s.outputOf c ++ if command = c then bytes else [] := by
  by_cases h : command = c <;> simp [outputOf, h]

theorem outputOf_prompt (pending : List (Nat × String)) (connection bytes : List UInt8) (command : Nat) :
    outputOf { s with pending, connection, printed := s.printed ++ [{ command, prompt := true, bytes }] } c =
      s.outputOf c := by
  simp [outputOf]

end Printing

/-- A read that returns data takes it out of the connection. -/
theorem rest_bytes {s : Console} {chunk : Chunk} {rest : List UInt8} (hrest : s.rest (.bytes chunk) = some rest) :
    s.connection = chunk.bytes ++ rest := by
  simp only [Console.rest, List.isPrefixOf_iff_prefix, Option.ite_none_right_eq_some, Option.some.injEq] at hrest
  obtain ⟨hstart, rfl⟩ := hrest
  exact (List.prefix_iff_eq_append.mp hstart).symm

/-- The carried text of a plain stream is plain, and holds no line end. -/
structure PlainCarry (s : Console) : Prop where
  plain : Plain s.underWay
  text : s.receiver.res.getD "" = ascii s.carry
  single : ∀ b ∈ s.carry, isNewline b = false

theorem start_plainCarry (shell : Shell) (stack : CharArray 1024) : PlainCarry (start shell stack) := by
  constructor <;> simp [start, underWay, carry, utf8, Plain, ascii]

/-- What is printed on top of plain text may be anything plain. -/
theorem PlainCarry.extend {s t : Console} {bytes : List UInt8} (hcarry : PlainCarry s) (hplain : Plain bytes)
    (hreceiver : t.receiver = s.receiver) (hconnection : t.connection = s.connection ++ bytes) : PlainCarry t := by
  obtain ⟨hunder, htext, hsingle⟩ := hcarry
  have hsame : t.carry = s.carry := by rw [carry, hreceiver, carry]
  constructor
  · rw [underWay, hsame, hconnection, ← List.append_assoc]
    exact plain_append.mpr ⟨hunder, hplain⟩
  · rw [hsame, hreceiver, htext]
  · rw [hsame]
    exact hsingle

/-- What a read does on plain text: it sends what it cuts, the carried text in front, and
carries what it leaves open. -/
theorem PlainCarry.read {s : Console} (hcarry : PlainCarry s) (enc : SystemEncoding) {chunk : Chunk}
    {rest : List UInt8} (hrest : s.rest (.bytes chunk) = some rest) {t : Console}
    (hreceiver : t.receiver = (receiverBody enc s.receiver (.bytes chunk)).1) (hconnection : t.connection = rest) :
    PlainCarry t ∧ t.carry = unterminated isNewline chunk.bytes ∧
      t.receiver.sent = s.receiver.sent ++ (prepend s.carry (terminated isNewline chunk.bytes)).map ascii := by
  obtain ⟨hunder, htext, hsingle⟩ := hcarry
  rw [underWay, rest_bytes hrest, plain_append, plain_append] at hunder
  obtain ⟨-, hchunk, hlater⟩ := hunder
  have hopen : Plain (unterminated isNewline chunk.bytes) := hchunk.subset (unterminated_subset _)
  have hlines : ∀ line ∈ terminated isNewline chunk.bytes, Plain line :=
    fun line hline => hchunk.subset (subset_of_mem_terminated hline)
  obtain ⟨hsent, hres⟩ := receiverBody_bytes enc s.receiver chunk
  rw [withCarry_eq_prepend enc htext hlines] at hsent
  rw [hopen.cString_eq, boxed_ascii hopen.ascii] at hres
  have hsame : t.carry = unterminated isNewline chunk.bytes := by
    rw [carry, hreceiver, hres]
    exact utf8_ascii hopen.ascii
  refine ⟨⟨?_, ?_, ?_⟩, hsame, by rw [hreceiver, hsent]⟩
  · rw [underWay, hsame, hconnection]
    exact plain_append.mpr ⟨hopen, hlater⟩
  · rw [hsame, hreceiver, hres]
    rfl
  · rw [hsame]
    exact unterminated_none isNewline chunk.bytes

end Console

end MPSsh.MPSshShell

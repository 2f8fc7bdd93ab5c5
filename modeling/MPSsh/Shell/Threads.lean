import MPSsh.Base.Schedule
import MPSsh.Channel

namespace MPSsh.MPSshShell

open MPLSChannel

/-- An invocation of a channel method: the steps of its body that are left, and
what the library call it has made last returned. -/
structure Invocation (m : Method) where
  code : List Instr
  suffix : code <:+ m.code
  ret : Int
  deriving DecidableEq, Repr

def Invocation.of (m : Method) : Invocation m where
  code := m.code
  suffix := List.suffix_refl _
  ret := 0

/-- The next step of an invocation. A library call that returns at this step
returns `rc`. The result is `none` when the method has come to its end. -/
def Invocation.advance {m : Method} (call : Invocation m) (g : Globals) (rc : Int) : Option (Globals × Invocation m) :=
  match h : call.code with
  | [] => none
  | instr :: rest =>
    if g.waits instr then some (g, call)
    else
      some (g.exec instr,
        { code := rest
          suffix := (List.suffix_cons instr rest).trans (h ▸ call.suffix)
          ret := if instr = .returns then rc else call.ret })

inductive Command where
  | execCommand
  | execLongCommand
  | stopLongCommand
  | sendCtrlC
  deriving DecidableEq, Repr

/-- The channel method that a command calls. -/
def Command.method : Command → Method
  | .execCommand | .execLongCommand => .write
  | .stopLongCommand | .sendCtrlC => .ctrlC

/-- Where a thread is in `-[MPSshShell shutdown]`. -/
inductive Shutdown where
  | setStop
  | testChannel
  | channel (call : Invocation .shutdown)

/-- Where the client thread is. In `shutdown`, `command` and `sending`, the flag
says that `initWithChannel:` is the caller and goes on afterwards. -/
inductive Client where
  | unborn
  | requestPty (call : Invocation .requestPty)
  | free (call : Invocation .free)
  | released
  | shell (call : Invocation .shell)
  | shutdown (stage : Shutdown) (nested : Bool)
  | detach
  | command (c : Command) (nested : Bool)
  | sending (c : Command) (call : Invocation c.method) (nested : Bool)
  | setSession
  | readBuffer
  | read (call : Invocation .read)
  | idle

/-- Where the receiver thread is. The last states carry the variable `rc1`. -/
inductive ReceiverThread where
  | notStarted
  | start
  | fetch
  | read (call : Invocation .read)
  | process (rc1 : Int)
  | lastError (rc1 : Int)
  | test (rc1 : Int)
  | finished
  deriving DecidableEq, Repr

/-- A shell with its two threads, over the file-scope variables of its channel.
`hasChannel` and `hasSession` say that the properties are not `nil`. The last
two fields record that a shutdown has set `stopCmd`, and how many reads the
receiver has entered since. -/
structure Threads extends Globals where
  stopCmd : Bool
  hasChannel : Bool
  hasSession : Bool
  client : Client
  receiver : ReceiverThread
  stopRequested : Bool
  readsSinceStop : Nat

/-- What happens next: the client calls a method of the shell, or one of the
threads takes a step. A library call that returns at the step returns `rc`. -/
inductive ThreadEvent where
  | initWithChannel
  | command (c : Command)
  | readBuffer
  | shutdown
  | client (rc : Int)
  | receiver (rc : Int)
  deriving DecidableEq, Repr

namespace Threads

/-- Where `shutdown` returns to. -/
def afterShutdown (nested : Bool) : Client :=
  if nested then .detach else .idle

/-- Where a command returns to: `newSshShellWithError:` sets the session of a new
shell when `initWithChannel:` is done. The polls that `execCommand:` makes before
it returns touch nothing of this state. -/
def afterCommand (nested : Bool) : Client :=
  if nested then .setSession else .idle

/-- The client goes on in a channel method, or leaves it. -/
def clientCall (s : Threads) {m : Method} (call : Invocation m) (rc : Int) (during : Invocation m → Client)
    (after : Threads) : Threads :=
  match call.advance s.toGlobals rc with
  | some (g, call) => { s with toGlobals := g, client := during call }
  | none => after

def clientStep (s : Threads) (rc : Int) : Option Threads :=
  match s.client with
  | .unborn | .released | .idle => none
  | .requestPty call =>
    some <| s.clientCall call rc .requestPty <|
      if call.ret < 0 then
        { s with client := if s.hasChannel then .free (.of .free) else .released }
      else
        { s with client := .shell (.of .shell) }
  | .free call => some <| s.clientCall call rc .free { s with hasChannel := false, client := .released }
  | .shell call =>
    some <| s.clientCall call rc .shell
      { s with client := if call.ret ≠ 0 then .shutdown .setStop true else .detach }
  | .shutdown .setStop nested =>
    some { s with stopCmd := true, stopRequested := true, client := .shutdown .testChannel nested }
  | .shutdown .testChannel nested =>
    some { s with client := if s.hasChannel then .shutdown (.channel (.of .shutdown)) nested else afterShutdown nested }
  | .shutdown (.channel call) nested =>
    some <| s.clientCall call rc (fun call => .shutdown (.channel call) nested)
      { s with hasChannel := false, client := afterShutdown nested }
  | .detach => some { s with receiver := .start, client := .command .execCommand true }
  | .command c nested =>
    some { s with client := if s.hasChannel then .sending c (.of c.method) nested else afterCommand nested }
  | .sending c call nested =>
    some <| s.clientCall call rc (fun call => .sending c call nested) { s with client := afterCommand nested }
  | .setSession => some { s with hasSession := true, client := .idle }
  | .readBuffer => some { s with client := if s.hasChannel then .read (.of .read) else .idle }
  | .read call =>
    some <| s.clientCall call rc .read { s with client := if call.ret > 0 then .readBuffer else .idle }

/-- The receiver enters the library's read at this step. -/
def entersRead (call : Invocation .read) : Bool :=
  call.code.head? = some (.call .read)

/-- What follows a read: a chunk is scanned, `EAGAIN` counts as 0, and for any
other result the error text is asked for. -/
def afterRead (hasSession : Bool) (rc1 : Int) : ReceiverThread :=
  if rc1 > 0 then .test rc1
  else if rc1 = EAGAIN then .test 0
  else if hasSession then .lastError rc1
  else .test rc1

def receiverStep (s : Threads) (rc : Int) : Option Threads :=
  match s.receiver with
  | .notStarted | .finished => none
  | .start => some { s with stopCmd := false, receiver := .fetch }
  | .fetch => some { s with receiver := if s.hasChannel then .read (.of .read) else .process 0 }
  | .read call =>
    match call.advance s.toGlobals rc with
    | some (g, next) =>
      some { s with
        toGlobals := g
        receiver := .read next
        readsSinceStop := s.readsSinceStop + if s.stopRequested ∧ entersRead call then 1 else 0 }
    | none => some { s with receiver := .process call.ret }
  | .process rc1 => some { s with receiver := afterRead s.hasSession rc1 }
  | .lastError rc1 => some { s with receiver := .test rc1 }
  | .test rc1 => some { s with receiver := if rc1 ≥ 0 ∧ s.stopCmd = false then .fetch else .finished }

/-- A method of the shell can be called when no other call is under way. -/
def step (s : Threads) (e : ThreadEvent) : Option Threads :=
  match e, s.client with
  | .initWithChannel, .unborn =>
    some { s with stopCmd := false, hasChannel := true, client := .requestPty (.of .requestPty) }
  | .command c, .idle => some { s with client := .command c false }
  | .readBuffer, .idle => some { s with client := .readBuffer }
  | .shutdown, .idle => some { s with client := .shutdown .setStop false }
  | .client rc, _ => s.clientStep rc
  | .receiver rc, _ => s.receiverStep rc
  | _, _ => none

/-- The shell has not been created yet. -/
def start (channel : Handle) : Threads where
  channel := channel
  blocked := false
  freed := []
  stopCmd := false
  hasChannel := false
  hasSession := false
  client := .unborn
  receiver := .notStarted
  stopRequested := false
  readsSinceStop := 0

end Threads

namespace Client

/-- `initWithChannel:` has not started the receiver and may still do so, or it has
failed and never will. -/
def starting : Client → Bool
  | .unborn | .requestPty _ | .free _ | .released | .shell _ | .detach => true
  | .shutdown _ nested => nested
  | _ => false

/-- The client is in `readBuffer`. -/
def buffering : Client → Bool
  | .readBuffer | .read _ => true
  | _ => false

/-- The channel method that the client is in. -/
def call : Client → Option (Σ m, Invocation m)
  | .requestPty call => some ⟨_, call⟩
  | .free call => some ⟨_, call⟩
  | .shell call => some ⟨_, call⟩
  | .shutdown (.channel call) _ => some ⟨_, call⟩
  | .sending _ call _ => some ⟨_, call⟩
  | .read call => some ⟨_, call⟩
  | _ => none

/-- The second place can come right after the first without a call from outside. -/
structure Leads (c d : Client) : Prop where
  starting : d.starting = true → c.starting = true
  buffering : d.buffering = true → c.buffering = true
  born : d ≠ .unborn

end Client

/-- An invocation advances by the first step that its method has left, or waits. -/
theorem advance_cases {m : Method} {call next : Invocation m} {g g' : Globals} {rc : Int}
    (hnext : call.advance g rc = some (g', next)) :
    (next = call ∧ g' = g ∧ call.code.head? = some .waitUnblocked ∧ g.blocked = true) ∨
      ∃ instr, call.code = instr :: next.code ∧ g' = g.exec instr ∧ (instr = .waitUnblocked → g.blocked = false) := by
  unfold Invocation.advance at hnext
  split at hnext
  · cases hnext
  rename_i instr rest hcode
  split at hnext
  · rename_i hwaits
    obtain ⟨rfl, rfl⟩ := Option.some.inj hnext
    obtain ⟨rfl, hblocked⟩ := (waits_iff _ _).mp hwaits
    exact Or.inl ⟨rfl, rfl, by rw [hcode]; rfl, hblocked⟩
  · rename_i hwaits
    obtain ⟨rfl, rfl⟩ := Option.some.inj hnext
    refine Or.inr ⟨instr, hcode, rfl, ?_⟩
    intro hinstr
    simpa [waits_iff, hinstr] using hwaits

theorem advance_none {m : Method} {call : Invocation m} {g : Globals} {rc : Int}
    (hnext : call.advance g rc = none) : call.code = [] := by
  unfold Invocation.advance at hnext
  split at hnext
  · assumption
  · split at hnext <;> cases hnext

theorem afterRead_cases (hasSession : Bool) (rc1 : Int) :
    (∃ rc, Threads.afterRead hasSession rc1 = .test rc) ∨ Threads.afterRead hasSession rc1 = .lastError rc1 := by
  unfold Threads.afterRead
  split
  · exact Or.inl ⟨rc1, rfl⟩
  · split
    · exact Or.inl ⟨0, rfl⟩
    · split
      · exact Or.inr rfl
      · exact Or.inl ⟨rc1, rfl⟩

namespace Threads

/-- What one step of the client can do. -/
inductive ClientMove (s : Threads) (rc : Int) : Threads → Prop where
  | advance {m : Method} {call next : Invocation m} {g : Globals} {place : Client}
    (hcall : s.client.call = some ⟨m, call⟩) (hnext : call.advance s.toGlobals rc = some (g, next))
    (hplace : place.call = some ⟨m, next⟩) (hleads : s.client.Leads place) :
    ClientMove s rc { s with toGlobals := g, client := place }
  | setStop {nested : Bool} (hclient : s.client = .shutdown .setStop nested) :
    ClientMove s rc { s with stopCmd := true, stopRequested := true, client := .shutdown .testChannel nested }
  | detach (hclient : s.client = .detach) :
    ClientMove s rc { s with receiver := .start, client := .command .execCommand true }
  | dropChannel {m : Method} {call : Invocation m} {place : Client} (hcall : s.client.call = some ⟨m, call⟩)
    (hmethod : m = .free ∨ m = .shutdown) (hend : call.code = []) (hplace : place.call = none)
    (hleads : s.client.Leads place) :
    ClientMove s rc { s with hasChannel := false, client := place }
  | goOn {place : Client} {session : Bool}
    (hcall : ∀ call ∈ s.client.call, call.1 ≠ .free ∧ call.1 ≠ .shutdown)
    (hplace : ∀ call ∈ place.call, call.2 = .of call.1) (hleads : s.client.Leads place) :
    ClientMove s rc { s with hasSession := session, client := place }

/-- A place that the client comes to with no channel call under way there. -/
structure Opens (c d : Client) : Prop extends c.Leads d where
  call : ∀ call ∈ d.call, call.2 = .of call.1

theorem opens_iff {c d : Client} : Opens c d ↔
    (d.starting = true → c.starting = true) ∧ (d.buffering = true → c.buffering = true) ∧ d ≠ .unborn ∧
      ∀ call ∈ d.call, call.2 = .of call.1 :=
  ⟨fun h => ⟨h.starting, h.buffering, h.born, h.call⟩,
    fun ⟨hstarting, hbuffering, hborn, hcall⟩ => ⟨⟨hstarting, hbuffering, hborn⟩, hcall⟩⟩

theorem Opens.ite {p : Prop} [Decidable p] {c d e : Client} (hd : Opens c d) (he : Opens c e) :
    Opens c (if p then d else e) := by
  split
  · exact hd
  · exact he

theorem opens_afterShutdown (stage : Shutdown) (nested : Bool) : Opens (.shutdown stage nested) (afterShutdown nested) := by
  cases nested <;> simp [opens_iff, afterShutdown, Client.starting, Client.buffering, Client.call]

theorem opens_afterCommand (c : Client) (nested : Bool) : Opens c (afterCommand nested) := by
  cases nested <;> simp [opens_iff, afterCommand, Client.starting, Client.buffering, Client.call]

theorem call_afterShutdown (nested : Bool) : (afterShutdown nested).call = none := by
  cases nested <;> rfl

section Moves

variable {s : Threads} {c : Client} {rc : Int}

/-- The client goes on to another place. -/
theorem goOn_move {place : Client} (hclient : s.client = c)
    (hcall : ∀ call ∈ c.call, call.1 ≠ .free ∧ call.1 ≠ .shutdown) (hopens : Opens c place) :
    ClientMove s rc { s with client := place } := by
  subst hclient
  exact ClientMove.goOn hcall hopens.call hopens.toLeads

theorem clientCall_move {after : Threads} {m : Method} {call : Invocation m} {during : Invocation m → Client}
    (hclient : s.client = during call) (hduring : ∀ next, (during next).call = some ⟨m, next⟩)
    (hleads : ∀ next, (during call).Leads (during next)) (hafter : call.code = [] → ClientMove s rc after) :
    ClientMove s rc (s.clientCall call rc during after) := by
  unfold clientCall
  cases hnext : call.advance s.toGlobals rc with
  | some result => exact .advance (by rw [hclient, hduring]) hnext (hduring _) (hclient ▸ hleads _)
  | none => exact hafter (advance_none hnext)

/-- A channel call goes on, or ends and leaves the client at another place. -/
theorem callEnd_move {place : Client} {m : Method} {call : Invocation m} {during : Invocation m → Client}
    (hclient : s.client = during call) (hduring : ∀ next, (during next).call = some ⟨m, next⟩)
    (hleads : ∀ next, (during call).Leads (during next)) (hmethod : m ≠ .free ∧ m ≠ .shutdown)
    (hopens : Opens (during call) place) :
    ClientMove s rc (s.clientCall call rc during { s with client := place }) := by
  apply clientCall_move hclient hduring hleads
  intro _
  apply goOn_move hclient _ hopens
  rw [hduring]
  rintro call' hcall'
  obtain rfl := Option.some.inj hcall'
  exact hmethod

theorem clientStep_move {t : Threads} (hstep : s.clientStep rc = some t) : ClientMove s rc t := by
  cases hclient : s.client with
  | unborn | released | idle => simp [clientStep, hclient] at hstep
  | detach =>
    simp only [clientStep, hclient, Option.some.injEq] at hstep
    subst hstep
    exact .detach hclient
  | shutdown stage nested =>
    cases stage with
    | setStop =>
      simp only [clientStep, hclient, Option.some.injEq] at hstep
      subst hstep
      exact .setStop hclient
    | testChannel =>
      simp only [clientStep, hclient, Option.some.injEq] at hstep
      subst hstep
      apply goOn_move hclient (by simp [Client.call])
      refine .ite ?_ (opens_afterShutdown _ nested)
      simp [opens_iff, Client.starting, Client.buffering, Client.call]
    | channel call =>
      simp only [clientStep, hclient, Option.some.injEq] at hstep
      subst hstep
      apply clientCall_move hclient (fun next => rfl)
      · exact fun next => ⟨id, id, by simp⟩
      · intro hend
        apply ClientMove.dropChannel (by rw [hclient]; rfl) (Or.inr rfl) hend (call_afterShutdown nested)
        rw [hclient]
        exact (opens_afterShutdown _ nested).toLeads
  | requestPty call =>
    simp only [clientStep, hclient, Option.some.injEq] at hstep
    subst hstep
    apply clientCall_move hclient (fun next => rfl)
    · exact fun next => ⟨id, id, by simp⟩
    · intro hend
      split
      · apply goOn_move hclient (by simp [Client.call])
        apply Opens.ite <;> simp [opens_iff, Client.starting, Client.buffering, Client.call]
      · apply goOn_move hclient (by simp [Client.call])
        simp [opens_iff, Client.starting, Client.buffering, Client.call]
  | free call =>
    simp only [clientStep, hclient, Option.some.injEq] at hstep
    subst hstep
    apply clientCall_move hclient (fun next => rfl)
    · exact fun next => ⟨id, id, by simp⟩
    · intro hend
      apply ClientMove.dropChannel (by rw [hclient]; rfl) (Or.inl rfl) hend rfl
      rw [hclient]
      exact ⟨fun _ => rfl, by simp [Client.buffering], by simp⟩
  | shell call =>
    simp only [clientStep, hclient, Option.some.injEq] at hstep
    subst hstep
    apply callEnd_move hclient (fun next => rfl) (fun next => ⟨id, id, by simp⟩) (by simp)
    apply Opens.ite <;> simp [opens_iff, Client.starting, Client.buffering, Client.call]
  | command c nested =>
    simp only [clientStep, hclient, Option.some.injEq] at hstep
    subst hstep
    apply goOn_move hclient (by simp [Client.call])
    refine .ite ?_ (opens_afterCommand _ nested)
    simp [opens_iff, Client.starting, Client.buffering, Client.call]
  | sending c call nested =>
    simp only [clientStep, hclient, Option.some.injEq] at hstep
    subst hstep
    apply callEnd_move hclient (fun next => rfl) (fun next => ⟨id, id, by simp⟩)
    · cases c <;> simp [Command.method]
    · exact opens_afterCommand _ nested
  | setSession =>
    simp only [clientStep, hclient, Option.some.injEq] at hstep
    subst hstep
    apply ClientMove.goOn
    · simp [hclient, Client.call]
    · simp [Client.call]
    · constructor <;> simp [Client.starting, Client.buffering]
  | readBuffer =>
    simp only [clientStep, hclient, Option.some.injEq] at hstep
    subst hstep
    apply goOn_move hclient (by simp [Client.call])
    apply Opens.ite <;> simp [opens_iff, Client.starting, Client.buffering, Client.call]
  | read call =>
    simp only [clientStep, hclient, Option.some.injEq] at hstep
    subst hstep
    apply callEnd_move hclient (fun next => rfl) (fun next => ⟨id, id, by simp⟩) (by simp)
    apply Opens.ite <;> simp [opens_iff, Client.starting, Client.buffering, Client.call]

end Moves

/-- A step that an invocation takes is one of its method. -/
theorem mem_code {m : Method} {call : Invocation m} {instr : Instr} {rest : List Instr}
    (hcons : call.code = instr :: rest) : instr ∈ m.code :=
  call.suffix.subset (by simp [hcons])

/-- What one step of the receiver can do. -/
inductive ReceiverMove (s : Threads) (rc : Int) : Threads → Prop where
  | start (hreceiver : s.receiver = .start) : ReceiverMove s rc { s with stopCmd := false, receiver := .fetch }
  | fetch (hreceiver : s.receiver = .fetch) :
    ReceiverMove s rc { s with receiver := if s.hasChannel then .read (.of .read) else .process 0 }
  | advance {call next : Invocation .read} {g : Globals} (hreceiver : s.receiver = .read call)
    (hnext : call.advance s.toGlobals rc = some (g, next)) :
    ReceiverMove s rc { s with
      toGlobals := g
      receiver := .read next
      readsSinceStop := s.readsSinceStop + if s.stopRequested ∧ entersRead call then 1 else 0 }
  | returns {call : Invocation .read} (hreceiver : s.receiver = .read call) (hend : call.code = []) :
    ReceiverMove s rc { s with receiver := .process call.ret }
  | process {rc1 : Int} (hreceiver : s.receiver = .process rc1) :
    ReceiverMove s rc { s with receiver := afterRead s.hasSession rc1 }
  | lastError {rc1 : Int} (hreceiver : s.receiver = .lastError rc1) : ReceiverMove s rc { s with receiver := .test rc1 }
  | test {rc1 : Int} (hreceiver : s.receiver = .test rc1) :
    ReceiverMove s rc { s with receiver := if rc1 ≥ 0 ∧ s.stopCmd = false then .fetch else .finished }

theorem receiverStep_move {s t : Threads} {rc : Int} (hstep : s.receiverStep rc = some t) : ReceiverMove s rc t := by
  cases hreceiver : s.receiver with
  | notStarted | finished => simp [receiverStep, hreceiver] at hstep
  | start =>
    simp only [receiverStep, hreceiver, Option.some.injEq] at hstep
    exact hstep ▸ .start hreceiver
  | fetch =>
    simp only [receiverStep, hreceiver, Option.some.injEq] at hstep
    exact hstep ▸ .fetch hreceiver
  | read call =>
    simp only [receiverStep, hreceiver] at hstep
    split at hstep
    · rename_i g next hnext
      exact Option.some.inj hstep ▸ .advance hreceiver hnext
    · rename_i hnext
      exact Option.some.inj hstep ▸ .returns hreceiver (advance_none hnext)
  | process rc1 =>
    simp only [receiverStep, hreceiver, Option.some.injEq] at hstep
    exact hstep ▸ .process hreceiver
  | lastError rc1 =>
    simp only [receiverStep, hreceiver, Option.some.injEq] at hstep
    exact hstep ▸ .lastError hreceiver
  | test rc1 =>
    simp only [receiverStep, hreceiver, Option.some.injEq] at hstep
    exact hstep ▸ .test hreceiver

/-- The receiver frees nothing and writes none of the client's fields. -/
theorem ReceiverMove.frame {s t : Threads} {rc : Int} (hmove : ReceiverMove s rc t) :
    t.client = s.client ∧ t.hasChannel = s.hasChannel ∧ t.stopRequested = s.stopRequested ∧ t.freed = s.freed := by
  cases hmove with
  | start | fetch | returns | process | lastError | test => exact ⟨rfl, rfl, rfl, rfl⟩
  | advance hreceiver hnext =>
    refine ⟨rfl, rfl, rfl, ?_⟩
    obtain ⟨-, rfl, -⟩ | ⟨instr, hcons, rfl, -⟩ := advance_cases hnext
    · rfl
    · have hmem := mem_code hcons
      have hfree : instr ≠ .call .free := by
        rintro rfl
        simp [Method.code] at hmem
      simp [exec_freed, hfree]

/-- The order in which `initWithChannel:` does things: nothing has happened before
it, and the receiver has not been started before it is past its failures. -/
structure Ordered (s : Threads) : Prop where
  unborn : s.client = .unborn → s.stopRequested = false ∧ s.freed = []
  starting : s.client.starting = true → s.receiver = .notStarted

theorem start_ordered (channel : Handle) : Ordered (start channel) := by
  constructor <;> simp [start]

theorem client_ordered {s t : Threads} {rc : Int} (hinv : Ordered s) (hmove : ClientMove s rc t) : Ordered t := by
  cases hmove with
  | setStop hclient =>
    constructor
    · simp
    · simp only [Client.starting]
      rintro rfl
      exact hinv.starting (by simp [hclient, Client.starting])
  | detach hclient => constructor <;> simp [Client.starting]
  | advance _ _ _ hleads | dropChannel _ _ _ _ hleads | goOn _ _ hleads =>
    constructor
    · exact fun h => absurd h hleads.born
    · exact fun h => hinv.starting (hleads.starting h)

theorem step_ordered {s t : Threads} {e : ThreadEvent} (hinv : Ordered s) (hstep : step s e = some t) :
    Ordered t := by
  unfold step at hstep
  split at hstep
  · rename_i hunborn
    obtain rfl := Option.some.inj hstep
    exact ⟨by simp, fun _ => hinv.starting (by simp [hunborn, Client.starting])⟩
  · obtain rfl := Option.some.inj hstep
    constructor <;> simp [Client.starting]
  · obtain rfl := Option.some.inj hstep
    constructor <;> simp [Client.starting]
  · obtain rfl := Option.some.inj hstep
    constructor <;> simp [Client.starting]
  · exact client_ordered hinv (clientStep_move hstep)
  · rename_i rc
    obtain ⟨hclient, -, hrequested, hfreed⟩ := (receiverStep_move hstep).frame
    constructor
    · rw [hclient, hrequested, hfreed]
      exact hinv.unborn
    · intro h
      rw [hclient] at h
      simp [receiverStep, hinv.starting h] at hstep
  · cases hstep

end Threads

end MPSsh.MPSshShell

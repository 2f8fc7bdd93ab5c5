import MPSsh.Base.Fairness
import MPSsh.Shell.Free

open Schedule Fairness MPSsh.MPLSChannel

namespace MPSsh.MPSshShell

/-- The client has set `blocked` in `readBuffer` and has yet to clear it. -/
def Client.announced : Client → Bool
  | .read call => midRead call.code
  | _ => false

/-- The steps that a shutdown past its first has left. -/
def Client.left : Client → Nat
  | .shutdown .testChannel _ => 9
  | .shutdown (.channel call) _ => call.code.length + 1
  | _ => 0

/-- The steps that the receiver has left when its loop condition fails. -/
def ReceiverThread.left : ReceiverThread → Nat
  | .notStarted | .finished => 0
  | .start => 10
  | .fetch => 9
  | .read call => call.code.length + 4
  | .process _ => 3
  | .lastError _ => 2
  | .test _ => 1

/-- The two threads. -/
inductive Agent where
  | client
  | receiver
  deriving DecidableEq, Repr

/-- The thread that takes the step. A call from outside is nobody's. -/
def ThreadEvent.agent : ThreadEvent → Option Agent
  | .client _ => some .client
  | .receiver _ => some .receiver
  | _ => none

theorem call_read_iff {c : Client} {call : Invocation .read} : c.call = some ⟨.read, call⟩ ↔ c = .read call := by
  constructor
  · intro h
    cases c with
    | shutdown stage nested => cases stage <;> simp [Client.call] at h
    | sending c =>
      have hm : c.method = .read := congrArg Sigma.fst (Option.some.inj h)
      cases c <;> cases hm
    | read call => simpa [Client.call] using h
    | _ => simp [Client.call] at h
  · rintro rfl
    rfl

/-- Who leaves `blocked` set has announced a read, or found it set. -/
theorem advance_announced {call next : Invocation .read} {g g' : Globals} {rc : Int}
    (hnext : call.advance g rc = some (g', next)) (hblocked : g'.blocked = true) :
    midRead next.code = true ∨ g.blocked = true ∧ midRead call.code = false := by
  obtain ⟨rfl, rfl, -, -⟩ | ⟨instr, hcons, rfl, -⟩ := advance_cases hnext
  · cases hmid : midRead next.code with
    | true => exact Or.inl rfl
    | false => exact Or.inr ⟨hblocked, rfl⟩
  · have htail := midRead_tail (hcons ▸ call.suffix : instr :: next.code <:+ Method.read.code)
    obtain hset | ⟨hbefore, hclear⟩ := (exec_blocked g instr).mp hblocked
    · exact Or.inl (htail.mpr (Or.inl hset))
    · cases hmid : midRead call.code with
      | true => exact Or.inl (htail.mpr (Or.inr ⟨hcons ▸ hmid, hclear⟩))
      | false => exact Or.inr ⟨hbefore, rfl⟩

namespace Threads

/-- `blocked` is set only while one of the threads is between the two assignments of its
read. -/
structure AnnouncedInv (s : Threads) : Prop extends Ordered s where
  announced : s.blocked = true → s.receiver.announced = true ∨ s.client.announced = true

theorem start_announcedInv (channel : Handle) : AnnouncedInv (start channel) :=
  ⟨start_ordered channel, by simp [start]⟩

theorem client_announcedInv {s t : Threads} {rc : Int} (hinv : AnnouncedInv s) (hstep : s.clientStep rc = some t) :
    AnnouncedInv t := by
  have hmove := clientStep_move hstep
  refine ⟨client_ordered hinv.toOrdered hmove, ?_⟩
  have hannounced := hinv.announced
  by_cases hread : ∃ call, s.client = .read call
  · obtain ⟨call, hclient⟩ := hread
    rw [hclient] at hannounced
    simp only [clientStep, hclient, Option.some.injEq, clientCall] at hstep
    cases hnext : call.advance s.toGlobals rc with
    | some result =>
      rw [hnext] at hstep
      subst hstep
      intro hblocked
      obtain hmid | ⟨hbefore, hmid⟩ := advance_announced hnext hblocked
      · exact Or.inr hmid
      · exact Or.inl ((hannounced hbefore).resolve_right (by simp [Client.announced, hmid]))
    | none =>
      rw [hnext] at hstep
      subst hstep
      intro hblocked
      refine Or.inl ((hannounced hblocked).resolve_right ?_)
      simp [Client.announced, advance_none hnext, midRead]
  · -- elsewhere the client leaves `blocked` alone
    have hquiet : s.client.announced = false := by
      cases hclient : s.client with
      | read call => exact absurd ⟨call, hclient⟩ hread
      | _ => rfl
    simp only [hquiet, Bool.false_eq_true, or_false] at hannounced
    cases hmove with
    | @advance m call next g place hcall hnext hplace hleads =>
      have hm : m ≠ .read := by
        rintro rfl
        exact hread ⟨call, call_read_iff.mp hcall⟩
      intro hblocked
      exact Or.inl (hannounced ((blocked_of_ne_read hm hnext).symm.trans hblocked))
    | detach hclient =>
      intro hblocked
      have hreceiver := hannounced hblocked
      rw [hinv.starting (by simp [hclient, Client.starting])] at hreceiver
      cases hreceiver
    | setStop | dropChannel | goOn => exact fun hblocked => Or.inl (hannounced hblocked)

theorem receiver_announcedInv {s t : Threads} {rc : Int} (hinv : AnnouncedInv s) (hordered : Ordered t)
    (hmove : ReceiverMove s rc t) : AnnouncedInv t := by
  refine ⟨hordered, ?_⟩
  have hannounced := hinv.announced
  cases hmove with
  | advance hreceiver hnext =>
    rw [hreceiver] at hannounced
    intro hblocked
    obtain hmid | ⟨hbefore, hmid⟩ := advance_announced hnext hblocked
    · exact Or.inl hmid
    · exact Or.inr ((hannounced hbefore).resolve_left (by simp [ReceiverThread.announced, hmid]))
  | returns hreceiver hend =>
    intro hblocked
    refine Or.inr ((hannounced hblocked).resolve_left ?_)
    simp [hreceiver, ReceiverThread.announced, hend, midRead]
  | start hreceiver | fetch hreceiver | process hreceiver | lastError hreceiver | test hreceiver =>
    intro hblocked
    refine Or.inr ((hannounced hblocked).resolve_left ?_)
    simp [hreceiver, ReceiverThread.announced]

theorem step_announcedInv {s t : Threads} {e : ThreadEvent} (hinv : AnnouncedInv s) (hstep : step s e = some t) :
    AnnouncedInv t := by
  have hordered := step_ordered hinv.toOrdered hstep
  have hannounced := hinv.announced
  unfold step at hstep
  split at hstep
  · rename_i hunborn
    obtain rfl := Option.some.inj hstep
    rw [hunborn] at hannounced
    exact ⟨hordered, fun hblocked => Or.inl ((hannounced hblocked).resolve_right (by simp [Client.announced]))⟩
  · rename_i hidle
    obtain rfl := Option.some.inj hstep
    rw [hidle] at hannounced
    exact ⟨hordered, fun hblocked => Or.inl ((hannounced hblocked).resolve_right (by simp [Client.announced]))⟩
  · rename_i hidle
    obtain rfl := Option.some.inj hstep
    rw [hidle] at hannounced
    exact ⟨hordered, fun hblocked => Or.inl ((hannounced hblocked).resolve_right (by simp [Client.announced]))⟩
  · rename_i hidle
    obtain rfl := Option.some.inj hstep
    rw [hidle] at hannounced
    exact ⟨hordered, fun hblocked => Or.inl ((hannounced hblocked).resolve_right (by simp [Client.announced]))⟩
  · exact client_announcedInv hinv hstep
  · exact receiver_announcedInv hinv hordered (receiverStep_move hstep)
  · cases hstep

/-- The receiver has been started when `initWithChannel:` is over. -/
def Started (s : Threads) : Prop :=
  s.client.starting = false → s.receiver ≠ .notStarted

theorem clientCall_started {s after : Threads} {rc : Int} {m : Method} {call : Invocation m}
    {during : Invocation m → Client} (hinv : Started s) (hsame : ∀ next, (during next).starting = s.client.starting)
    (hafter : Started after) : Started (s.clientCall call rc during after) := by
  unfold clientCall
  split
  · rename_i g next hnext
    intro hstarting
    exact hinv (hsame next ▸ hstarting)
  · exact hafter

theorem starting_afterShutdown (nested : Bool) : (afterShutdown nested).starting = nested := by
  cases nested <;> rfl

theorem client_started {s t : Threads} {rc : Int} (hinv : Started s) (hstep : s.clientStep rc = some t) : Started t := by
  cases hclient : s.client with
  | unborn | released | idle => simp [clientStep, hclient] at hstep
  | detach =>
    simp only [clientStep, hclient, Option.some.injEq] at hstep
    subst hstep
    simp [Started]
  | requestPty call =>
    simp only [clientStep, hclient, Option.some.injEq] at hstep
    subst hstep
    apply clientCall_started hinv (by simp [hclient, Client.starting])
    split
    · split <;> simp [Started, Client.starting]
    · simp [Started, Client.starting]
  | free call =>
    simp only [clientStep, hclient, Option.some.injEq] at hstep
    subst hstep
    apply clientCall_started hinv (by simp [hclient, Client.starting])
    simp [Started, Client.starting]
  | shell call =>
    simp only [clientStep, hclient, Option.some.injEq] at hstep
    subst hstep
    apply clientCall_started hinv (by simp [hclient, Client.starting])
    split <;> simp [Started, Client.starting]
  | shutdown stage nested =>
    have hreceiver : nested = false → s.receiver ≠ .notStarted := by
      rintro rfl
      exact hinv (by rw [hclient]; rfl)
    cases stage with
    | setStop =>
      simp only [clientStep, hclient, Option.some.injEq] at hstep
      subst hstep
      exact hreceiver
    | testChannel =>
      simp only [clientStep, hclient, Option.some.injEq] at hstep
      subst hstep
      simp only [Started]
      split
      · exact hreceiver
      · rw [starting_afterShutdown]
        exact hreceiver
    | channel call =>
      simp only [clientStep, hclient, Option.some.injEq] at hstep
      subst hstep
      apply clientCall_started hinv (by simp [hclient, Client.starting])
      simp only [Started, starting_afterShutdown]
      exact hreceiver
  | command c nested =>
    have hreceiver : s.receiver ≠ .notStarted := hinv (by rw [hclient]; rfl)
    simp only [clientStep, hclient, Option.some.injEq] at hstep
    subst hstep
    exact fun _ => hreceiver
  | sending c call nested =>
    have hreceiver : s.receiver ≠ .notStarted := hinv (by rw [hclient]; rfl)
    simp only [clientStep, hclient, Option.some.injEq] at hstep
    subst hstep
    exact clientCall_started hinv (by simp [hclient, Client.starting]) fun _ => hreceiver
  | setSession | readBuffer =>
    have hreceiver : s.receiver ≠ .notStarted := hinv (by rw [hclient]; rfl)
    simp only [clientStep, hclient, Option.some.injEq] at hstep
    subst hstep
    exact fun _ => hreceiver
  | read call =>
    have hreceiver : s.receiver ≠ .notStarted := hinv (by rw [hclient]; rfl)
    simp only [clientStep, hclient, Option.some.injEq] at hstep
    subst hstep
    exact clientCall_started hinv (by simp [hclient, Client.starting]) fun _ => hreceiver

/-- Once started, the receiver is never unstarted again. -/
theorem ReceiverMove.started {s t : Threads} {rc : Int} (hmove : ReceiverMove s rc t) : t.receiver ≠ .notStarted := by
  cases hmove with
  | fetch | test =>
    simp only
    split <;> simp
  | @process rc1 =>
    obtain ⟨rc, hplace⟩ | hplace := afterRead_cases s.hasSession rc1 <;> simp [hplace]
  | start | advance | returns | lastError => simp

theorem step_started {s t : Threads} {e : ThreadEvent} (hinv : Started s) (hstep : step s e = some t) : Started t := by
  unfold step at hstep
  split at hstep
  · obtain rfl := Option.some.inj hstep
    simp [Started, Client.starting]
  · rename_i hidle
    obtain rfl := Option.some.inj hstep
    exact fun _ => hinv (by rw [hidle]; rfl)
  · rename_i hidle
    obtain rfl := Option.some.inj hstep
    exact fun _ => hinv (by rw [hidle]; rfl)
  · rename_i hidle
    obtain rfl := Option.some.inj hstep
    exact fun _ => hinv (by rw [hidle]; rfl)
  · exact client_started hinv hstep
  · exact fun _ => (receiverStep_move hstep).started
  · cases hstep

/-- A shutdown has set `stopCmd`, and nothing can clear it. -/
structure TearingDown (s : Threads) : Prop where
  client : s.client = .idle ∧ s.hasChannel = false ∨ ∃ stage, s.client = .shutdown stage false ∧ stage ≠ .setStop
  stopped : s.stopCmd = true
  receiver : s.receiver ≠ .start ∧ s.receiver ≠ .notStarted
  blocked : s.blocked = true → s.receiver.announced = true

/-- The shutdown has returned without its channel, and the receiver thread has ended. -/
def TornDown (s : Threads) : Prop :=
  (s.client = .idle ∧ s.hasChannel = false) ∧ s.receiver = .finished

/-- How many steps the two threads have left. -/
def left (s : Threads) : Nat :=
  s.client.left + s.receiver.left

/-- A step of the shutdown brings it nearer to its end, or waits for the receiver. -/
theorem client_tearingDown {s t : Threads} {rc : Int} (hinv : TearingDown s) (hstep : s.clientStep rc = some t) :
    TearingDown t ∧ t.receiver = s.receiver ∧
      (t = s ∧ s.blocked = true ∨ t.client.left < s.client.left) := by
  obtain ⟨hidle, -⟩ | ⟨stage, hclient, hstage⟩ := hinv.client
  · simp [clientStep, hidle] at hstep
  · cases stage with
    | setStop => exact absurd rfl hstage
    | testChannel =>
      simp only [clientStep, hclient, Option.some.injEq] at hstep
      subst hstep
      cases hchannel : s.hasChannel with
      | true =>
        refine ⟨⟨Or.inr ⟨_, rfl, by simp⟩, hinv.stopped, hinv.receiver, hinv.blocked⟩, rfl, Or.inr ?_⟩
        simp [hclient, Client.left, Invocation.of, Method.code]
      | false =>
        refine ⟨⟨Or.inl ⟨rfl, rfl⟩, hinv.stopped, hinv.receiver, hinv.blocked⟩, rfl, Or.inr ?_⟩
        simp [hclient, Client.left, afterShutdown]
    | channel call =>
      simp only [clientStep, hclient, Option.some.injEq, clientCall] at hstep
      cases hnext : call.advance s.toGlobals rc with
      | none =>
        rw [hnext] at hstep
        subst hstep
        refine ⟨⟨Or.inl ⟨rfl, rfl⟩, hinv.stopped, hinv.receiver, hinv.blocked⟩, rfl, Or.inr ?_⟩
        simp [hclient, afterShutdown, Client.left]
      | some result =>
        obtain ⟨g, next⟩ := result
        rw [hnext] at hstep
        subst hstep
        refine ⟨⟨Or.inr ⟨_, rfl, by simp⟩, hinv.stopped, hinv.receiver, ?_⟩, rfl, ?_⟩
        · exact fun hblocked => hinv.blocked ((blocked_of_ne_read (by simp) hnext).symm.trans hblocked)
        · obtain ⟨rfl, rfl, -, hblocked⟩ | ⟨instr, hcons, -, -⟩ := advance_cases hnext
          · refine Or.inl ⟨?_, hblocked⟩
            simp only
            rw [← hclient]
          · right
            simp [hclient, Client.left, hcons]

/-- The receiver's loop condition fails, so every step brings the thread nearer to its end. -/
theorem receiver_tearingDown {s t : Threads} {rc : Int} (hinv : TearingDown s) (hmove : ReceiverMove s rc t) :
    TearingDown t ∧ t.client = s.client ∧ t.receiver.left < s.receiver.left := by
  obtain ⟨hclient, hchannel, -, -⟩ := hmove.frame
  have hplace : t.client = .idle ∧ t.hasChannel = false ∨ ∃ stage, t.client = .shutdown stage false ∧ stage ≠ .setStop := by
    rw [hclient, hchannel]
    exact hinv.client
  have hblocked := hinv.blocked
  have hstarted := hmove.started
  cases hmove with
  | start hreceiver => exact absurd hreceiver hinv.receiver.1
  | fetch hreceiver =>
    rw [hreceiver] at hblocked
    refine ⟨⟨hplace, hinv.stopped, ⟨?_, hstarted⟩, fun h => absurd (hblocked h) (by simp [ReceiverThread.announced])⟩, rfl, ?_⟩
    · simp only
      split <;> simp
    · simp only [hreceiver]
      split <;> decide
  | @advance call next g hreceiver hnext =>
    rw [hreceiver] at hblocked
    refine ⟨⟨hplace, hinv.stopped, by simp, ?_⟩, rfl, ?_⟩
    · intro h
      obtain hmid | ⟨hbefore, hmid⟩ := advance_announced hnext h
      · exact hmid
      · exact absurd (hblocked hbefore) (by simp [ReceiverThread.announced, hmid])
    · obtain ⟨-, -, hwaits, -⟩ | ⟨instr, hcons, -, -⟩ := advance_cases hnext
      · have hmem := call.suffix.subset (List.mem_of_mem_head? hwaits)
        simp [Method.code] at hmem
      · simp [hreceiver, ReceiverThread.left, hcons]
  | returns hreceiver hend =>
    rw [hreceiver] at hblocked
    refine ⟨⟨hplace, hinv.stopped, by simp, fun h => ?_⟩, rfl, by simp [hreceiver, ReceiverThread.left]⟩
    have hannounced := hblocked h
    simp [ReceiverThread.announced, hend, midRead] at hannounced
  | @process rc1 hreceiver =>
    rw [hreceiver] at hblocked
    have hquiet : s.blocked ≠ true := fun h => absurd (hblocked h) (by simp [ReceiverThread.announced])
    obtain ⟨rc, hafter⟩ | hafter := afterRead_cases s.hasSession rc1
    · exact ⟨⟨hplace, hinv.stopped, by simp [hafter], fun h => absurd h hquiet⟩, rfl,
        by simp [hreceiver, hafter, ReceiverThread.left]⟩
    · exact ⟨⟨hplace, hinv.stopped, by simp [hafter], fun h => absurd h hquiet⟩, rfl,
        by simp [hreceiver, hafter, ReceiverThread.left]⟩
  | lastError hreceiver =>
    rw [hreceiver] at hblocked
    exact ⟨⟨hplace, hinv.stopped, by simp, fun h => absurd (hblocked h) (by simp [ReceiverThread.announced])⟩, rfl,
      by simp [hreceiver, ReceiverThread.left]⟩
  | test hreceiver =>
    rw [hreceiver] at hblocked
    refine ⟨⟨hplace, hinv.stopped, by simp [hinv.stopped],
      fun h => absurd (hblocked h) (by simp [ReceiverThread.announced])⟩, rfl, ?_⟩
    simp [hreceiver, hinv.stopped, ReceiverThread.left]

/-- Whoever has a step left while the other one waits can take it. -/
theorem serves {s : Threads} (hinv : TearingDown s) (hbusy : ¬ TornDown s) :
    ∃ i, (∃ e, ThreadEvent.agent e = some i) ∧
      ∀ e, ThreadEvent.agent e = some i → ∃ t, step s e = some t ∧ t.left < s.left := by
  by_cases hfinished : s.receiver = .finished
  · -- the receiver has ended and left `blocked` clear
    have hquiet : s.blocked = false := by
      rw [Bool.eq_false_iff]
      intro hblocked
      have hannounced := hinv.blocked hblocked
      rw [hfinished] at hannounced
      cases hannounced
    refine ⟨.client, ⟨.client 0, rfl⟩, ?_⟩
    intro e he
    cases e with
    | client rc =>
      obtain hidle | ⟨stage, hclient, hstage⟩ := hinv.client
      · exact absurd ⟨hidle, hfinished⟩ hbusy
      · have hsome : ∃ t, s.clientStep rc = some t := by
          apply Option.isSome_iff_exists.mp
          cases stage <;> simp [clientStep, hclient]
        obtain ⟨t, hstep⟩ := hsome
        obtain ⟨-, hreceiver, ⟨-, hblocked⟩ | hless⟩ := client_tearingDown hinv hstep
        · simp [hquiet] at hblocked
        · refine ⟨t, by simpa [step] using hstep, ?_⟩
          rw [left, left, hreceiver]
          omega
    | _ => cases he
  · refine ⟨.receiver, ⟨.receiver 0, rfl⟩, ?_⟩
    intro e he
    cases e with
    | receiver rc =>
      have hsome : ∃ t, s.receiverStep rc = some t := by
        apply Option.isSome_iff_exists.mp
        cases hreceiver : s.receiver with
        | notStarted => exact absurd hreceiver hinv.receiver.2
        | finished => exact absurd hreceiver hfinished
        | read call => cases hnext : call.advance s.toGlobals rc <;> simp [receiverStep, hreceiver, hnext]
        | start | fetch | process | lastError | test => simp [receiverStep, hreceiver]
      obtain ⟨t, hstep⟩ := hsome
      obtain ⟨-, hclient, hless⟩ := receiver_tearingDown hinv (receiverStep_move hstep)
      refine ⟨t, by simpa [step] using hstep, ?_⟩
      rw [left, left, hclient]
      omega
    | _ => cases he

theorem agent_cases {s t : Threads} {e : ThreadEvent} (hagent : (ThreadEvent.agent e).isSome = true)
    (hstep : step s e = some t) : ∃ rc, s.clientStep rc = some t ∨ s.receiverStep rc = some t := by
  cases e with
  | client rc => exact ⟨rc, Or.inl (by simpa [step] using hstep)⟩
  | receiver rc => exact ⟨rc, Or.inr (by simpa [step] using hstep)⟩
  | _ => cases hagent

theorem tearingDown_ranked : Ranked step ThreadEvent.agent TearingDown TornDown left where
  keeps s e t hinv hagent hstep := by
    obtain ⟨rc, hclient | hreceiver⟩ := agent_cases hagent hstep
    · exact (client_tearingDown hinv hclient).1
    · exact (receiver_tearingDown hinv (receiverStep_move hreceiver)).1
  falls s e t hinv hagent hstep := by
    obtain ⟨rc, hclient | hreceiver⟩ := agent_cases hagent hstep
    · obtain ⟨-, hsame, ⟨rfl, -⟩ | hless⟩ := client_tearingDown hinv hclient
      · exact Or.inl rfl
      · right
        rw [left, left, hsame]
        omega
    · obtain ⟨-, hsame, hless⟩ := receiver_tearingDown hinv (receiverStep_move hreceiver)
      right
      rw [left, left, hsame]
      omega
  serves s hinv hbusy := serves hinv hbusy
  rests s e t hinv hdone hagent hstep := by
    obtain ⟨⟨hidle, -⟩, hfinished⟩ := hdone
    obtain ⟨rc, hclient | hreceiver⟩ := agent_cases hagent hstep
    · simp [clientStep, hidle] at hclient
    · simp [receiverStep, hfinished] at hreceiver

theorem left_le {s : Threads} (hinv : TearingDown s) : s.left ≤ 18 := by
  have hclient : s.client.left ≤ 9 := by
    obtain ⟨hidle, -⟩ | ⟨stage, hclient, -⟩ := hinv.client
    · simp [hidle, Client.left]
    · cases stage with
      | setStop | testChannel => simp [hclient, Client.left]
      | channel call =>
        have hlength := call.suffix.length_le
        simp only [Method.code, List.length_cons, List.length_nil] at hlength
        simp only [hclient, Client.left]
        omega
  have hreceiver : s.receiver.left ≤ 9 := by
    cases hplace : s.receiver with
    | start => exact absurd hplace hinv.receiver.1
    | read call =>
      have hlength := call.suffix.length_le
      simp only [Method.code, List.length_cons, List.length_nil] at hlength
      simp only [ReceiverThread.left]
      omega
    | notStarted | finished | fetch | process | lastError | test => simp [ReceiverThread.left]
  rw [left]
  omega

/-- A shutdown that has set `stopCmd` always comes to its end: whenever the stop request
still stands, the threads cannot block each other, and within eighteen rounds in which
each of them gets a turn, in whatever order and whatever the library returns, the
shutdown has returned without its channel and the receiver thread has ended. -/
theorem shutdown_completes {channel : Handle} {es : List ThreadEvent} {s : Threads}
    (hrun : run step (start channel) es = some s) {stage : Shutdown} (hclient : s.client = .shutdown stage false)
    (hstage : stage ≠ .setStop) (hstop : s.stopCmd = true) (hstarted : s.receiver ≠ .start)
    {rounds : List (List ThreadEvent)} (hrounds : ∀ es ∈ rounds, Round ThreadEvent.agent es)
    (henough : 18 ≤ rounds.length) : TornDown (attempts step s rounds.flatten) := by
  have hannounced : AnnouncedInv s :=
    run_preserves AnnouncedInv (fun _ _ _ hinv hstep => step_announcedInv hinv hstep) (start_announcedInv channel) hrun
  have hbegun : Started s :=
    run_preserves Started (fun _ _ _ hinv hstep => step_started hinv hstep) (by simp [Started, start, Client.starting]) hrun
  have hinv : TearingDown s := by
    refine ⟨Or.inr ⟨stage, hclient, hstage⟩, hstop, ⟨hstarted, hbegun (by rw [hclient]; rfl)⟩, ?_⟩
    exact fun hblocked => (hannounced.announced hblocked).resolve_right (by simp [hclient, Client.announced])
  exact tearingDown_ranked.rounds_done hinv hrounds (Nat.le_trans (left_le hinv) henough)

theorem stage_of_atWait {client : Client} (hwait : client.atWait = true) (hstarting : client.starting = false) :
    ∃ call, client = .shutdown (.channel call) false := by
  unfold Client.atWait at hwait
  split at hwait
  · rename_i call nested
    cases nested with
    | false => exact ⟨call, rfl⟩
    | true => cases hstarting
  · cases hwait

/-- The shutdown waits while the receiver is inside the library. -/
def waitingShutdown : List ThreadEvent :=
  opened 4 ++ .shutdown :: List.replicate 4 (.client 0)

/-- In every round the client polls first. -/
def pollingRound : List ThreadEvent :=
  [.client 0, .client 0, .receiver 0]

theorem pollingRound_round : Round ThreadEvent.agent pollingRound where
  inside := by simp [pollingRound, ThreadEvent.agent]
  turn i := by cases i <;> simp [pollingRound, ThreadEvent.agent]

theorem shutdown_completes_waitingShutdown :
    ∃ s, run step (start 1) waitingShutdown = some s ∧ s.blocked = true ∧
      TornDown (attempts step s (List.replicate 18 pollingRound).flatten) := by
  have hreached : ((run step (start 1) waitingShutdown).any fun s =>
      s.client.atWait && !s.client.starting && s.stopCmd && s.blocked && s.receiver ≠ .start) = true := by
    decide
  obtain ⟨s, hrun, hs⟩ := (Option.any_eq_true _ _).mp hreached
  simp only [Bool.and_eq_true, Bool.not_eq_true', decide_eq_true_eq] at hs
  obtain ⟨⟨⟨⟨hwait, hstarting⟩, hstop⟩, hblocked⟩, hstarted⟩ := hs
  obtain ⟨call, hplace⟩ := stage_of_atWait hwait hstarting
  refine ⟨s, hrun, hblocked, shutdown_completes hrun hplace (by simp) hstop hstarted ?_ (by simp)⟩
  intro es hes
  rw [List.eq_of_mem_replicate hes]
  exact pollingRound_round

end Threads

end MPSsh.MPSshShell

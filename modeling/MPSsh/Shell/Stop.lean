import MPSsh.Shell.Threads

open Schedule

namespace MPSsh.MPSshShell

open MPLSChannel

/-- How many reads the receiver can enter before it tests its loop condition. -/
def ReceiverThread.readsLeft : ReceiverThread → Nat
  | .notStarted | .start | .fetch => 1
  | .read call => call.code.count (.call .read)
  | .process _ | .lastError _ | .test _ | .finished => 0

namespace Threads

/-- After a stop request `stopCmd` is set and the receiver has entered at most one
read, and its next test of the loop condition ends the loop. -/
def StopKept (s : Threads) (e : ThreadEvent) (t : Threads) : Prop :=
  (t.stopRequested = true → t.stopCmd = true ∧ t.readsSinceStop ≤ 1) ∧
    match s.receiver, e with
    | .test _, .receiver _ => s.stopRequested = true → t.receiver = .finished
    | _, _ => True

/-- The first step of the receiver, which clears `stopCmd`, comes before the
stop request. -/
def StartsBeforeStop (s : Threads) (e : ThreadEvent) (_ : Threads) : Prop :=
  match s.receiver, e with
  | .start, .receiver _ => s.stopRequested = false
  | _, _ => True

instance (s : Threads) (e : ThreadEvent) (t : Threads) : Decidable (StopKept s e t) := by
  unfold StopKept
  refine @instDecidableAnd _ _ inferInstance ?_
  split <;> infer_instance

structure StopInv (s : Threads) : Prop extends Ordered s where
  kept : s.stopRequested = true → s.stopCmd = true
  unrequested : s.stopRequested = false → s.readsSinceStop = 0
  budget : s.stopRequested = true → s.readsSinceStop + s.receiver.readsLeft ≤ 1

theorem start_stopInv (channel : Handle) : StopInv (start channel) :=
  ⟨start_ordered channel, by simp [start], by simp [start], by simp [start]⟩

theorem readsLeft_le (r : ReceiverThread) : r.readsLeft ≤ 1 := by
  cases r with
  | read call => exact call.suffix.sublist.count_le _
  | notStarted | start | fetch | process | lastError | test | finished => simp [ReceiverThread.readsLeft]

theorem receiver_stopInv {s t : Threads} {rc : Int} (hinv : StopInv s) (hordered : Ordered t)
    (hcond : StartsBeforeStop s (.receiver rc) t) (hmove : ReceiverMove s rc t) : StopInv t := by
  have hbudget := hinv.budget
  cases hmove with
  | start hreceiver =>
    simp only [StartsBeforeStop, hreceiver] at hcond
    exact ⟨hordered, by simp [hcond], hinv.unrequested, by simp [hcond]⟩
  | fetch hreceiver =>
    simp only [hreceiver, ReceiverThread.readsLeft] at hbudget
    refine ⟨hordered, hinv.kept, hinv.unrequested, ?_⟩
    intro h
    have hleft := hbudget h
    have := readsLeft_le (if s.hasChannel then .read (.of .read) else .process 0)
    simp only
    omega
  | @advance call next g hreceiver hnext =>
    simp only [hreceiver, ReceiverThread.readsLeft] at hbudget
    obtain ⟨rfl, -, hwaits, -⟩ | ⟨instr, hcons, -, -⟩ := advance_cases hnext
    · have henter : entersRead next = false := by simp [entersRead, hwaits]
      refine ⟨hordered, hinv.kept, ?_, ?_⟩
      · simpa [henter] using hinv.unrequested
      · simpa [henter, ReceiverThread.readsLeft] using hbudget
    · -- a read that the receiver enters is one of those it had left
      refine ⟨hordered, hinv.kept, ?_, ?_⟩
      · intro h
        have hzero := hinv.unrequested h
        simp only at h
        simp [h, hzero]
      · intro h
        have hleft := hbudget h
        simp only at h
        simp only [hcons, List.count_cons] at hleft
        simp only [h, entersRead, hcons, List.head?_cons, ReceiverThread.readsLeft]
        by_cases henter : instr = .call .read <;> simp [henter] at hleft ⊢ <;> omega
  | returns hreceiver hend =>
    exact ⟨hordered, hinv.kept, hinv.unrequested, fun h => Nat.le_of_add_right_le (hbudget h)⟩
  | @process rc1 hreceiver =>
    simp only [hreceiver, ReceiverThread.readsLeft] at hbudget
    obtain ⟨rc, hplace⟩ | hplace := afterRead_cases s.hasSession rc1
    · exact ⟨hordered, hinv.kept, hinv.unrequested, by simpa [hplace, ReceiverThread.readsLeft] using hbudget⟩
    · exact ⟨hordered, hinv.kept, hinv.unrequested, by simpa [hplace, ReceiverThread.readsLeft] using hbudget⟩
  | lastError hreceiver =>
    simp only [hreceiver, ReceiverThread.readsLeft] at hbudget
    exact ⟨hordered, hinv.kept, hinv.unrequested, hbudget⟩
  | test hreceiver =>
    simp only [hreceiver, ReceiverThread.readsLeft] at hbudget
    refine ⟨hordered, hinv.kept, hinv.unrequested, ?_⟩
    -- a loop that goes on has found `stopCmd` clear, so no stop has been requested
    intro h
    simpa [hinv.kept h, ReceiverThread.readsLeft] using hbudget h

theorem client_stopInv {s t : Threads} {rc : Int} (hinv : StopInv s) (hordered : Ordered t)
    (hmove : ClientMove s rc t) : StopInv t := by
  cases hmove with
  | setStop hclient =>
    refine ⟨hordered, fun _ => rfl, by simp, ?_⟩
    -- a read counted from here on is one that the receiver has left
    intro _
    have hleft := readsLeft_le s.receiver
    cases hrequested : s.stopRequested with
    | false => simpa [hinv.unrequested hrequested] using hleft
    | true => exact hinv.budget hrequested
  | detach hclient =>
    have hfirst := hinv.starting (by simp [hclient, Client.starting])
    have hbudget := hinv.budget
    rw [hfirst] at hbudget
    exact ⟨hordered, hinv.kept, hinv.unrequested, hbudget⟩
  | advance | dropChannel | goOn => exact ⟨hordered, hinv.kept, hinv.unrequested, hinv.budget⟩

theorem step_stopInv {s t : Threads} {e : ThreadEvent} (hinv : StopInv s) (hcond : StartsBeforeStop s e t)
    (hstep : step s e = some t) : StopInv t := by
  have hordered := step_ordered hinv.toOrdered hstep
  unfold step at hstep
  split at hstep
  · rename_i hunborn
    obtain rfl := Option.some.inj hstep
    have hrequested := (hinv.unborn hunborn).1
    exact ⟨hordered, by simp [hrequested], hinv.unrequested, hinv.budget⟩
  · obtain rfl := Option.some.inj hstep
    exact ⟨hordered, hinv.kept, hinv.unrequested, hinv.budget⟩
  · obtain rfl := Option.some.inj hstep
    exact ⟨hordered, hinv.kept, hinv.unrequested, hinv.budget⟩
  · obtain rfl := Option.some.inj hstep
    exact ⟨hordered, hinv.kept, hinv.unrequested, hinv.budget⟩
  · exact client_stopInv hinv hordered (clientStep_move hstep)
  · exact receiver_stopInv hinv hordered hcond (receiverStep_move hstep)
  · cases hstep

/-- Under the invariant a transition keeps the stop request exactly when it is not
the late start of the receiver. -/
theorem stopKept_iff {s t : Threads} {e : ThreadEvent} (hinv : StopInv s) (hstep : step s e = some t) :
    StopKept s e t ↔ StartsBeforeStop s e t := by
  constructor
  · rintro ⟨hkept, -⟩
    unfold StartsBeforeStop
    split
    · rename_i rc hreceiver
      simp only [step, receiverStep, hreceiver, Option.some.injEq] at hstep
      subst hstep
      cases hrequested : s.stopRequested with
      | false => rfl
      | true => simp [hrequested] at hkept
    · trivial
  · intro hcond
    have hnext := step_stopInv hinv hcond hstep
    refine ⟨fun h => ⟨hnext.kept h, Nat.le_of_add_right_le (hnext.budget h)⟩, ?_⟩
    split
    · rename_i rc1 rc hreceiver
      intro hrequested
      simp only [step, receiverStep, hreceiver, Option.some.injEq] at hstep
      subst hstep
      simp [hinv.kept hrequested]
    · trivial

/-- For every interleaving of the client and the receiver: no stop request is ever
lost if and only if the receiver never takes its first step after one. -/
theorem stop_kept_iff (channel : Handle) (es : List ThreadEvent) :
    Along step StopKept (start channel) es ↔ Along step StartsBeforeStop (start channel) es := by
  apply along_iff_of_invariant StopInv
  · exact fun s e t hinv hstep => stopKept_iff hinv hstep
  · exact fun s e t hinv hcond hstep => step_stopInv hinv hcond hstep
  · exact start_stopInv channel

/-- The request for a shell fails, and `initWithChannel:` shuts the shell down
before it starts the receiver. -/
def failedShellRequest : List ThreadEvent :=
  .initWithChannel :: List.replicate 3 (.client 0) ++ List.replicate 3 (.client (-1)) ++
    List.replicate 11 (.client 0) ++ [.receiver 0]

/-- The receiver clears the stop request of that shutdown. -/
theorem receiver_clears_stop :
    ¬ ∀ (channel : Handle) (es : List ThreadEvent), Along step StopKept (start channel) es := by
  intro halways
  exact absurd (halways 1 failedShellRequest) (by decide)

end Threads

end MPSsh.MPSshShell

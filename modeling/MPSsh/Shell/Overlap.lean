import MPSsh.Shell.Free

open Schedule MPSsh.MPLSChannel

namespace MPSsh.MPSshShell

/-- The functions of the library that a thread can be inside. -/
inductive Inside where
  | channel (f : LibCall)
  | sessionLastError
  deriving DecidableEq, Repr

/-- The library call that an invocation has entered and not left. -/
def Invocation.inside {m : Method} (call : Invocation m) : Option LibCall :=
  match call.code.head?, m.code[m.code.length - call.code.length - 1]? with
  | some .returns, some (.call f) => some f
  | _, _ => none

def Client.inside (client : Client) : Option LibCall :=
  client.call.bind fun call => call.2.inside

def ReceiverThread.inside : ReceiverThread → Option Inside
  | .read call => call.inside.map .channel
  | .lastError _ => some .sessionLastError
  | _ => none

theorem mem_of_inside {m : Method} {call : Invocation m} {f : LibCall} (hinside : call.inside = some f) :
    .call f ∈ m.code := by
  unfold Invocation.inside at hinside
  split at hinside
  · rename_i hcall
    obtain rfl := Option.some.inj hinside
    exact List.mem_of_getElem? hcall
  · cases hinside

/-- A read is the only call of the channel that the receiver makes. -/
theorem receiver_inside {receiver : ReceiverThread} {g : Inside} (hinside : receiver.inside = some g) :
    g = .channel .read ∨ g = .sessionLastError := by
  unfold ReceiverThread.inside at hinside
  split at hinside
  · obtain ⟨f, hf, rfl⟩ := Option.map_eq_some_iff.mp hinside
    have hmem := mem_of_inside hf
    simp only [Method.code, List.mem_cons, List.not_mem_nil, Instr.call.injEq, reduceCtorEq, or_false, false_or] at hmem
    exact Or.inl (congrArg Inside.channel hmem)
  · exact Or.inr (Option.some.inj hinside).symm
  · cases hinside

/-- The library's read is what the receiver may still come to. -/
theorem mayRead_of_inside {receiver : ReceiverThread} (hinside : receiver.inside = some (.channel .read)) :
    receiver.mayRead = true := by
  unfold ReceiverThread.inside at hinside
  split at hinside
  · rename_i call
    obtain ⟨f, hf, -⟩ := Option.map_eq_some_iff.mp hinside
    unfold Invocation.inside at hf
    split at hf
    · rename_i hhead _
      simpa [ReceiverThread.mayRead, ReceiverThread.reading] using List.mem_of_mem_head? hhead
    · cases hf
  · cases hinside
  · cases hinside

/-- The channel is waited for and freed after the wait, or before the receiver is started. -/
theorem pastWait_of_inside {client : Client} {f : LibCall} (hinside : client.inside = some f)
    (hafter : f = .waitClosed ∨ f = .free) : client.pastWait = true ∨ client.starting = true := by
  obtain ⟨⟨m, call⟩, hcall, hf⟩ := Option.bind_eq_some_iff.mp hinside
  have hmem := mem_of_inside hf
  have hmethod : m = .free ∨ m = .shutdown := by
    rcases hafter with rfl | rfl <;> cases m <;> simp [Method.code] at hmem ⊢
  rcases hmethod with rfl | rfl
  · rw [Threads.call_free_iff.mp hcall]
    exact Or.inr rfl
  · left
    rw [Threads.pastWait_of_call hcall]
    have hsuffix := call.suffix
    simp only [Method.code, List.suffix_cons_iff, List.suffix_nil] at hsuffix
    obtain h | h | h | h | h | h | h | h := hsuffix <;>
      rcases hafter with rfl | rfl <;> simp_all [Invocation.inside, Method.code]

/-- The terminal and the shell are requested before the receiver is started. -/
theorem starting_of_inside {client : Client} {f : LibCall} (hinside : client.inside = some f)
    (hrequest : f = .requestPty ∨ f = .shell) : client.starting = true := by
  obtain ⟨⟨m, call⟩, hcall, hf⟩ := Option.bind_eq_some_iff.mp hinside
  have hmem := mem_of_inside hf
  have hmethod : m = .requestPty ∨ m = .shell := by
    rcases hrequest with rfl | rfl <;> cases m <;> simp [Method.code] at hmem ⊢
  have hfirst := congrArg (Option.map Sigma.fst) hcall
  cases client with
  | requestPty | shell => rfl
  | unborn | released | detach | command | setSession | readBuffer | idle => cases hcall
  | shutdown stage nested =>
    cases stage with
    | setStop | testChannel => cases hcall
    | channel call => rcases hmethod with rfl | rfl <;> simp [Client.call] at hfirst
  | free | read => rcases hmethod with rfl | rfl <;> simp [Client.call] at hfirst
  | sending c => rcases hmethod with rfl | rfl <;> cases c <;> simp [Client.call, Command.method] at hfirst

namespace Threads

/-- Both threads are inside the library, in these functions. -/
def Overlap (s : Threads) (f : LibCall) (g : Inside) : Prop :=
  s.client.inside = some f ∧ s.receiver.inside = some g

instance (s : Threads) (f : LibCall) (g : Inside) : Decidable (Overlap s f g) :=
  inferInstanceAs (Decidable (_ ∧ _))

/-- The pairs of functions that nothing is meant to keep apart. The loop at the end of
`-[MPLSChannel shutdown]` is there for a read. -/
def ByDesign : LibCall → Inside → Prop
  | f, .channel .read => f = .write ∨ f = .read ∨ f = .close
  | f, .sessionLastError => f = .write ∨ f = .read ∨ f = .close ∨ f = .waitClosed ∨ f = .free
  | _, _ => False

/-- A shutdown that finds `blocked` clear does so while `stopCmd` is set and the
receiver comes back to no read. -/
def WaitsOut (s : Threads) (e : ThreadEvent) (_ : Threads) : Prop :=
  match e with
  | .client _ => s.client.atWait = true → s.blocked = false → s.stopCmd = true ∧ s.receiver.mayRead = false
  | _ => True

instance (s : Threads) (e : ThreadEvent) (t : Threads) : Decidable (WaitsOut s e t) :=
  match e with
  | .client _ => inferInstanceAs (Decidable (_ → _ → _ ∧ _))
  | .initWithChannel | .command _ | .readBuffer | .shutdown | .receiver _ => isTrue trivial

/-- The waits under which no freed channel is read wait the read out. -/
theorem waitsOut_of_waitCovers {channel : Handle} {es : List ThreadEvent}
    (hcovers : Along step WaitCovers (start channel) es) : Along step WaitsOut (start channel) es := by
  apply Along.of_invariant FreeInv _ (start_freeInv channel) hcovers
  intro s e t hinv hcond hstep
  refine ⟨?_, step_freeInv hinv hcond hstep⟩
  cases e with
  | client rc =>
    intro hwait hblocked
    obtain ⟨hstop, hunannounced⟩ := hcond hwait hblocked
    exact ⟨hstop, mayRead_of_quiet hunannounced (hinv.announced ▸ hblocked)⟩
  | initWithChannel | command | readBuffer | shutdown | receiver => trivial

/-- A shutdown that is past its wait leaves the receiver no read to come back to. -/
structure WaitedOut (s : Threads) : Prop extends Ordered s where
  covered : s.client.pastWait = true → s.stopCmd = true ∧ s.receiver.mayRead = false

theorem start_waitedOut (channel : Handle) : WaitedOut (start channel) :=
  ⟨start_ordered channel, by simp [start, Client.pastWait]⟩

theorem client_waitedOut {s t : Threads} {rc : Int} (hinv : WaitedOut s) (hordered : Ordered t)
    (hcond : s.client.atWait = true → s.blocked = false → s.stopCmd = true ∧ s.receiver.mayRead = false)
    (hmove : ClientMove s rc t) : WaitedOut t := by
  refine ⟨hordered, fun hpast => ?_⟩
  obtain ⟨hbefore, hstop, hreceiver⟩ := pastWait_of_move hmove hpast
  rw [hstop, hreceiver]
  obtain hpassed | ⟨hwait, hblocked⟩ := hbefore
  · exact hinv.covered hpassed
  · exact hcond hwait hblocked

/-- The receiver comes back to a read only through its loop condition, which `stopCmd`
closes. -/
theorem receiver_waitedOut {s t : Threads} {rc : Int} (hinv : WaitedOut s) (hordered : Ordered t)
    (hmove : ReceiverMove s rc t) : WaitedOut t := by
  refine ⟨hordered, fun hpast => ?_⟩
  rw [hmove.frame.1] at hpast
  obtain ⟨hstop, hmay⟩ := hinv.covered hpast
  cases hmove with
  | start hreceiver | fetch hreceiver => simp [hreceiver, ReceiverThread.mayRead] at hmay
  | advance hreceiver hnext =>
    rw [hreceiver] at hmay
    obtain ⟨rfl, rfl, -, -⟩ | ⟨instr, hcons, rfl, -⟩ := advance_cases hnext
    · exact ⟨hstop, hmay⟩
    · exact ⟨hstop, reading_advance hcons hmay⟩
  | returns | lastError => exact ⟨hstop, rfl⟩
  | @process rc1 =>
    obtain ⟨rc, hplace⟩ | hplace := afterRead_cases s.hasSession rc1
    · exact ⟨hstop, by simp only [hplace]; rfl⟩
    · exact ⟨hstop, by simp only [hplace]; rfl⟩
  | test => exact ⟨hstop, by simp [hstop, ReceiverThread.mayRead, ReceiverThread.reading]⟩

theorem step_waitedOut {s t : Threads} {e : ThreadEvent} (hinv : WaitedOut s) (hcond : WaitsOut s e t)
    (hstep : step s e = some t) : WaitedOut t := by
  have hordered := step_ordered hinv.toOrdered hstep
  unfold step at hstep
  split at hstep
  · obtain rfl := Option.some.inj hstep
    exact ⟨hordered, nofun⟩
  · obtain rfl := Option.some.inj hstep
    exact ⟨hordered, nofun⟩
  · obtain rfl := Option.some.inj hstep
    exact ⟨hordered, nofun⟩
  · obtain rfl := Option.some.inj hstep
    exact ⟨hordered, nofun⟩
  · exact client_waitedOut hinv hordered hcond (clientStep_move hstep)
  · exact receiver_waitedOut hinv hordered (receiverStep_move hstep)
  · cases hstep

theorem run_ordered {channel : Handle} {es : List ThreadEvent} {t : Threads}
    (hrun : run step (start channel) es = some t) : Ordered t :=
  run_preserves Ordered (fun _ _ _ hinv hstep => step_ordered hinv hstep) (start_ordered channel) hrun

/-- `initWithChannel:` is over, and so are the calls that set the session. -/
def created : List ThreadEvent :=
  .initWithChannel :: List.replicate 12 (.client 0)

/-- The client goes as far as to enter the function with its next step. -/
def approach : LibCall → List ThreadEvent
  | .write => [.command .sendCtrlC, .client 0]
  | .read => [.readBuffer, .client 0, .client 0]
  | .close => [.shutdown, .client 0, .client 0]
  | .waitClosed => .shutdown :: List.replicate 5 (.client 0)
  | .free => .shutdown :: List.replicate 7 (.client 0)
  | .requestPty | .shell => []

/-- The receiver enters the function. A read that fails leads to the error text. -/
def receives : Inside → List ThreadEvent
  | .channel _ => List.replicate 4 (.receiver 0)
  | .sessionLastError => List.replicate 8 (.receiver (-1))

/-- Neither thread is kept out of the library by the other. -/
theorem overlap_reached {f : LibCall} {g : Inside} (hdesign : ByDesign f g) :
    ∃ es t, Along step WaitsOut (start 0) es ∧ run step (start 0) es = some t ∧ Overlap t f g := by
  have hreached : Along step WaitsOut (start 0) (created ++ receives g ++ approach f ++ [.client 0]) ∧
      ((run step (start 0) (created ++ receives g ++ approach f ++ [.client 0])).any
        fun t => decide (Overlap t f g)) = true := by
    cases g with
    | sessionLastError =>
      cases f with
      | requestPty | shell => simp [ByDesign] at hdesign
      | read | write | close | waitClosed | free => decide +kernel
    | channel g =>
      cases g with
      | requestPty | shell | write | close | waitClosed | free => cases hdesign
      | read =>
        cases f with
        | requestPty | shell | waitClosed | free => simp [ByDesign] at hdesign
        | read | write | close => decide +kernel
  obtain ⟨t, hrun, hoverlap⟩ := (Option.any_eq_true _ _).mp hreached.2
  exact ⟨_, t, hreached.1, hrun, of_decide_eq_true hoverlap⟩

/-- The receiver calls the library only once `initWithChannel:` has started it. -/
theorem inside_of_starting {channel : Handle} {es : List ThreadEvent} {t : Threads}
    (hrun : run step (start channel) es = some t) (hclient : t.client.starting = true) : t.receiver.inside = none := by
  rw [(run_ordered hrun).starting hclient]
  rfl

/-- Whatever the shutdowns do, the receiver is in its read or in the error text. -/
theorem overlap_functions {channel : Handle} {es : List ThreadEvent} {t : Threads} {f : LibCall} {g : Inside}
    (hrun : run step (start channel) es = some t) (hoverlap : Overlap t f g) :
    (f ≠ .requestPty ∧ f ≠ .shell) ∧ (g = .channel .read ∨ g = .sessionLastError) := by
  obtain ⟨hclient, hreceiver⟩ := hoverlap
  have hlate : ¬ (f = .requestPty ∨ f = .shell) := by
    intro hrequest
    have hnone := inside_of_starting hrun (starting_of_inside hclient hrequest)
    rw [hreceiver] at hnone
    cases hnone
  exact ⟨not_or.mp hlate, receiver_inside hreceiver⟩

/-- A wait that waits the read out keeps the rest of the shutdown apart from it. -/
theorem overlap_byDesign {channel : Handle} {es : List ThreadEvent} {t : Threads} {f : LibCall} {g : Inside}
    (hwaits : Along step WaitsOut (start channel) es) (hrun : run step (start channel) es = some t)
    (hoverlap : Overlap t f g) : ByDesign f g := by
  have hinv : WaitedOut t := by
    refine run_preserves_along WaitedOut ?_ (start_waitedOut channel) hwaits hrun
    exact fun _ _ _ hinv hcond hstep => step_waitedOut hinv hcond hstep
  obtain ⟨⟨hpty, hshell⟩, rfl | rfl⟩ := overlap_functions hrun hoverlap
  · obtain ⟨hclient, hreceiver⟩ := hoverlap
    have hbefore : ¬ (f = .waitClosed ∨ f = .free) := by
      intro hafter
      obtain hpast | hstarting := pastWait_of_inside hclient hafter
      · have hmay := mayRead_of_inside hreceiver
        rw [(hinv.covered hpast).2] at hmay
        cases hmay
      · have hnone := inside_of_starting hrun hstarting
        rw [hreceiver] at hnone
        cases hnone
    cases f <;> simp_all [ByDesign]
  · cases f <;> simp_all [ByDesign]

/-- So do the waits under which no freed channel is read. -/
theorem overlap_of_waitCovers {channel : Handle} {es : List ThreadEvent} {t : Threads} {f : LibCall} {g : Inside}
    (hcovers : Along step WaitCovers (start channel) es) (hrun : run step (start channel) es = some t)
    (hoverlap : Overlap t f g) : ByDesign f g :=
  overlap_byDesign (waitsOut_of_waitCovers hcovers) hrun hoverlap

/-- In the interleavings in which every shutdown waits the receiver's read out, the two
threads can be inside the library at once in exactly the pairs of functions that nothing
is meant to keep apart. In all interleavings, the receiver is then in its read or in the
error text and the client past the requests that `initWithChannel:` makes before it
starts the receiver, which is outside the library as long as that method has not. -/
theorem overlap_iff (f : LibCall) (g : Inside) :
    ((∃ channel es t, Along step WaitsOut (start channel) es ∧ run step (start channel) es = some t ∧ Overlap t f g) ↔
        ByDesign f g) ∧
      (∀ channel es t, run step (start channel) es = some t → Overlap t f g →
        (f ≠ .requestPty ∧ f ≠ .shell) ∧ (g = .channel .read ∨ g = .sessionLastError)) ∧
      ∀ channel es t, run step (start channel) es = some t → t.client.starting = true → t.receiver.inside = none := by
  refine ⟨⟨?_, ?_⟩, fun _ _ _ => overlap_functions, fun _ _ _ => inside_of_starting⟩
  · rintro ⟨channel, es, t, hwaits, hrun, hoverlap⟩
    exact overlap_byDesign hwaits hrun hoverlap
  · intro hdesign
    obtain ⟨es, t, hwaits, hrun, hoverlap⟩ := overlap_reached hdesign
    exact ⟨0, es, t, hwaits, hrun, hoverlap⟩

/-- The Ctrl-C of the client is sent while the receiver reads. -/
theorem threads_overlap :
    ¬ ∀ (channel : Handle) (es : List ThreadEvent) (t : Threads), run step (start channel) es = some t →
      ¬ ((t.client.inside).isSome = true ∧ (t.receiver.inside).isSome = true) := by
  intro halways
  obtain ⟨es, t, -, hrun, hclient, hreceiver⟩ := overlap_reached (show ByDesign .write (.channel .read) from Or.inl rfl)
  exact halways 0 es t hrun ⟨by rw [hclient]; rfl, by rw [hreceiver]; rfl⟩

end Threads

end MPSsh.MPSshShell

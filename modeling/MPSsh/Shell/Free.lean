import MPSsh.Shell.Threads

open Schedule

namespace MPSsh.MPSshShell

open MPLSChannel

namespace ReceiverThread

/-- The receiver is inside the library's read. -/
def inRead : ReceiverThread → Bool
  | .read call => call.code.head? = some .returns
  | _ => false

/-- The receiver is in `read:` and has not come back from the library yet. -/
def reading : ReceiverThread → Bool
  | .read call => .returns ∈ call.code
  | _ => false

/-- The receiver has passed its loop condition, and comes back from the library
before it tests the condition again. -/
def mayRead : ReceiverThread → Bool
  | .start | .fetch => true
  | r => r.reading

/-- The receiver has set `blocked` and has yet to clear it. -/
def announced : ReceiverThread → Bool
  | .read call => midRead call.code
  | _ => false

/-- The receiver has passed its loop condition and has not set `blocked` yet. -/
def unannounced : ReceiverThread → Bool
  | .start | .fetch => true
  | .read call => call.code.head? = some .setBlocked
  | _ => false

end ReceiverThread

/-- The client is in `-[MPLSChannel shutdown]` and has found `blocked` clear. -/
def Client.pastWait : Client → Bool
  | .shutdown (.channel call) _ => .waitUnblocked ∉ call.code
  | _ => false

/-- The client is about to test `blocked`. -/
def Client.atWait : Client → Bool
  | .shutdown (.channel call) _ => call.code.head? = some .waitUnblocked
  | _ => false

namespace Threads

/-- No read of a freed channel is in progress. -/
def NoUseAfterFree (_ : Threads) (_ : ThreadEvent) (t : Threads) : Prop :=
  t.channel ∈ t.freed → t.receiver.inRead = false

instance (s : Threads) (e : ThreadEvent) (t : Threads) : Decidable (NoUseAfterFree s e t) := by
  unfold NoUseAfterFree
  infer_instance

/-- A shutdown that finds `blocked` clear does so while `stopCmd` is set and the
receiver is not between the test of its loop condition and the announcement of
the read that follows. The client does not read the channel itself. -/
def WaitCovers (s : Threads) (e : ThreadEvent) (_ : Threads) : Prop :=
  match e with
  | .readBuffer => False
  | .client _ =>
    s.client.atWait = true → s.blocked = false → s.stopCmd = true ∧ s.receiver.unannounced = false
  | _ => True

instance (s : Threads) (e : ThreadEvent) (t : Threads) : Decidable (WaitCovers s e t) := by
  unfold WaitCovers
  split <;> infer_instance

structure FreeInv (s : Threads) : Prop extends Ordered s where
  unread : s.client.buffering = false
  announced : s.blocked = s.receiver.announced
  covered : s.client.pastWait = true → s.stopCmd = true ∧ s.receiver.mayRead = false
  dropped : s.hasChannel = false → s.receiver.reading = false
  freed : s.freed ≠ [] → s.hasChannel = false ∨ s.client.pastWait = true ∨ ∃ call, s.client = .free call

theorem start_freeInv (channel : Handle) : FreeInv (start channel) :=
  ⟨start_ordered channel, rfl, rfl, by simp [start, Client.pastWait], fun _ => rfl, by simp [start]⟩

theorem reading_of_mayRead {r : ReceiverThread} (hmay : r.mayRead = false) : r.reading = false := by
  cases r <;> simp_all [ReceiverThread.mayRead, ReceiverThread.reading]

/-- Under the invariant a freed channel is not being read. -/
theorem FreeInv.unused {s : Threads} (hinv : FreeInv s) (hfreed : s.freed ≠ []) : s.receiver.reading = false := by
  obtain hdropped | hpast | ⟨call, hclient⟩ := hinv.freed hfreed
  · exact hinv.dropped hdropped
  · exact reading_of_mayRead (hinv.covered hpast).2
  · rw [hinv.starting (by simp [hclient, Client.starting])]
    rfl

theorem unread_of_leads {c d : Client} (hleads : c.Leads d) (hunread : c.buffering = false) : d.buffering = false := by
  rw [Bool.eq_false_iff] at hunread ⊢
  exact fun h => hunread (hleads.buffering h)

theorem call_shutdown_iff {c : Client} {call : Invocation .shutdown} :
    c.call = some ⟨.shutdown, call⟩ ↔ ∃ nested, c = .shutdown (.channel call) nested := by
  constructor
  · intro h
    cases c with
    | shutdown stage nested => cases stage <;> simp_all [Client.call]
    | sending c =>
      have hm : c.method = .shutdown := congrArg Sigma.fst (Option.some.inj h)
      cases c <;> cases hm
    | _ => simp [Client.call] at h
  · rintro ⟨nested, rfl⟩
    rfl

theorem call_free_iff {c : Client} {call : Invocation .free} : c.call = some ⟨.free, call⟩ ↔ c = .free call := by
  constructor
  · intro h
    cases c with
    | shutdown stage nested => cases stage <;> simp [Client.call] at h
    | sending c =>
      have hm : c.method = .free := congrArg Sigma.fst (Option.some.inj h)
      cases c <;> cases hm
    | free call => simpa [Client.call] using h
    | _ => simp [Client.call] at h
  · rintro rfl
    rfl

theorem buffering_of_call_read {c : Client} {call : Invocation .read} (hcall : c.call = some ⟨.read, call⟩) :
    c.buffering = true := by
  cases c with
  | shutdown stage nested => cases stage <;> simp [Client.call] at hcall
  | sending c =>
    have hm : c.method = .read := congrArg Sigma.fst (Option.some.inj hcall)
    cases c <;> cases hm
  | read call => rfl
  | _ => simp [Client.call] at hcall

theorem pastWait_of_call {c : Client} {call : Invocation .shutdown} (hcall : c.call = some ⟨.shutdown, call⟩) :
    c.pastWait = true ↔ .waitUnblocked ∉ call.code := by
  obtain ⟨nested, rfl⟩ := call_shutdown_iff.mp hcall
  simp [Client.pastWait]

theorem pastWait_cases {c : Client} (hpast : c.pastWait = true) :
    ∃ call : Invocation .shutdown, c.call = some ⟨.shutdown, call⟩ ∧ .waitUnblocked ∉ call.code := by
  unfold Client.pastWait at hpast
  split at hpast
  · rename_i call nested
    exact ⟨call, rfl, by simpa using hpast⟩
  · cases hpast

/-- Outside the channel methods only a shell without its channel has a freed one. -/
theorem FreeInv.dropped_of_freed {s : Threads} (hinv : FreeInv s) (hcall : s.client.call = none) (hfreed : s.freed ≠ []) :
    s.hasChannel = false := by
  obtain hdropped | hpast | ⟨call, hclient⟩ := hinv.freed hfreed
  · exact hdropped
  · obtain ⟨call, hcall', -⟩ := pastWait_cases hpast
    simp [hcall] at hcall'
  · simp [hclient, Client.call] at hcall

/-- A method other than `read:` leaves `blocked` alone. -/
theorem blocked_of_ne_read {m : Method} {call next : Invocation m} {g g' : Globals} {rc : Int} (hm : m ≠ .read)
    (hnext : call.advance g rc = some (g', next)) : g'.blocked = g.blocked := by
  obtain ⟨-, rfl, -⟩ | ⟨instr, hcons, rfl, -⟩ := advance_cases hnext
  · rfl
  · have hmem := mem_code hcons
    have hset : instr ≠ .setBlocked ∧ instr ≠ .clearBlocked := by
      constructor <;> rintro rfl <;> cases m <;> simp [Method.code] at hmem hm
    rw [Bool.eq_iff_iff, exec_blocked]
    simp [hset.1, hset.2]

/-- A receiver that has passed its loop condition either has announced its read or
has not yet. -/
theorem mayRead_of_quiet {r : ReceiverThread} (hunannounced : r.unannounced = false) (hannounced : r.announced = false) :
    r.mayRead = false := by
  cases r with
  | start | fetch => simp [ReceiverThread.unannounced] at hunannounced
  | read call =>
    have hsuffix := call.suffix
    simp only [Method.code, List.suffix_cons_iff, List.suffix_nil] at hsuffix
    simp only [ReceiverThread.unannounced, ReceiverThread.announced] at hunannounced hannounced
    obtain h | h | h | h | h := hsuffix <;>
      simp_all [ReceiverThread.mayRead, ReceiverThread.reading, midRead]
  | notStarted | process | lastError | test | finished => rfl

/-- After its call of `libssh2_channel_free` the shutdown has nothing left to wait for. -/
theorem passed_of_free {call next : Invocation .shutdown} (hcons : call.code = .call .free :: next.code) :
    .waitUnblocked ∉ next.code := by
  have hsuffix := call.suffix
  rw [hcons] at hsuffix
  simp [Method.code, List.suffix_cons_iff] at hsuffix
  simp [hsuffix]

/-- The client gets past its wait by finding `blocked` clear, and changes nothing else
there. -/
theorem pastWait_of_move {s t : Threads} {rc : Int} (hmove : ClientMove s rc t) (hpast : t.client.pastWait = true) :
    (s.client.pastWait = true ∨ s.client.atWait = true ∧ s.blocked = false) ∧ t.stopCmd = s.stopCmd ∧
      t.receiver = s.receiver := by
  cases hmove with
  | @advance m call next g place hcall hnext hplace hleads =>
    refine ⟨?_, rfl, rfl⟩
    obtain ⟨call', hcall', hpassed⟩ := pastWait_cases hpast
    obtain ⟨rfl, hsame⟩ := Sigma.mk.inj (Option.some.inj (hplace.symm.trans hcall'))
    obtain rfl := eq_of_heq hsame
    obtain ⟨rfl, -, -⟩ | ⟨instr, hcons, -, hwait⟩ := advance_cases hnext
    · exact Or.inl ((pastWait_of_call hcall).mpr hpassed)
    · by_cases hinstr : instr = .waitUnblocked
      · obtain ⟨nested, hclient⟩ := call_shutdown_iff.mp hcall
        exact Or.inr ⟨by simp [hclient, Client.atWait, hcons, hinstr], hwait hinstr⟩
      · left
        rw [pastWait_of_call hcall, hcons]
        simpa using ⟨Ne.symm hinstr, hpassed⟩
  | setStop | detach => cases hpast
  | dropChannel hcall hmethod hend hplace hleads =>
    obtain ⟨call', hcall', -⟩ := pastWait_cases hpast
    simp [hplace] at hcall'
  | goOn hcall hplace hleads =>
    obtain ⟨call, hcall', hpassed⟩ := pastWait_cases hpast
    have hfresh : call = .of .shutdown := hplace _ hcall'
    simp [hfresh, Invocation.of, Method.code] at hpassed

theorem client_covered {s t : Threads} {rc : Int} (hinv : FreeInv s)
    (hcond : s.client.atWait = true → s.blocked = false → s.stopCmd = true ∧ s.receiver.unannounced = false)
    (hmove : ClientMove s rc t) (hpast : t.client.pastWait = true) : t.stopCmd = true ∧ t.receiver.mayRead = false := by
  obtain ⟨hbefore, hstop, hreceiver⟩ := pastWait_of_move hmove hpast
  rw [hstop, hreceiver]
  obtain hpassed | ⟨hwait, hblocked⟩ := hbefore
  · exact hinv.covered hpassed
  · obtain ⟨hset, hunannounced⟩ := hcond hwait hblocked
    exact ⟨hset, mayRead_of_quiet hunannounced (hinv.announced ▸ hblocked)⟩

theorem advance_freed {s : Threads} {rc : Int} {m : Method} {call next : Invocation m} {g : Globals} {place : Client}
    (hinv : FreeInv s) (hcall : s.client.call = some ⟨m, call⟩)
    (hnext : call.advance s.toGlobals rc = some (g, next)) (hplace : place.call = some ⟨m, next⟩) (hfreed : g.freed ≠ []) :
    s.hasChannel = false ∨ place.pastWait = true ∨ ∃ call, place = .free call := by
  have hfree : m = .free → ∃ call, place = .free call := by
    rintro rfl
    exact ⟨next, call_free_iff.mp hplace⟩
  have hkept (hold : s.freed ≠ []) (hsub : next.code <:+ call.code) :
      s.hasChannel = false ∨ place.pastWait = true ∨ ∃ call, place = .free call := by
    obtain hdropped | hpast | ⟨call', hclient⟩ := hinv.freed hold
    · exact Or.inl hdropped
    · obtain ⟨call', hcall', hpassed⟩ := pastWait_cases hpast
      obtain ⟨rfl, hsame⟩ := Sigma.mk.inj (Option.some.inj (hcall.symm.trans hcall'))
      obtain rfl := eq_of_heq hsame
      exact Or.inr (Or.inl ((pastWait_of_call hplace).mpr fun h => hpassed (hsub.subset h)))
    · have hmethod := Option.some.inj (hcall.symm.trans (call_free_iff.mpr hclient))
      exact Or.inr (Or.inr (hfree (congrArg Sigma.fst hmethod)))
  obtain ⟨rfl, rfl, -⟩ | ⟨instr, hcons, rfl, -⟩ := advance_cases hnext
  · exact hkept hfreed (List.suffix_refl _)
  · by_cases hinstr : instr = .call .free
    · subst hinstr
      have hmem := mem_code hcons
      cases m with
      | free => exact Or.inr (Or.inr (hfree rfl))
      | shutdown => exact Or.inr (Or.inl ((pastWait_of_call hplace).mpr (passed_of_free hcons)))
      | _ => simp [Method.code] at hmem
    · rw [exec_freed, if_neg hinstr, List.append_nil] at hfreed
      exact hkept hfreed (hcons ▸ List.suffix_cons instr next.code)

theorem advance_freeInv {s : Threads} {rc : Int} {m : Method} {call next : Invocation m} {g : Globals} {place : Client}
    (hinv : FreeInv s) (hordered : Ordered { s with toGlobals := g, client := place })
    (hcovered : place.pastWait = true → s.stopCmd = true ∧ s.receiver.mayRead = false)
    (hcall : s.client.call = some ⟨m, call⟩) (hnext : call.advance s.toGlobals rc = some (g, next))
    (hplace : place.call = some ⟨m, next⟩) (hleads : s.client.Leads place) :
    FreeInv { s with toGlobals := g, client := place } := by
  have hm : m ≠ .read := by
    rintro rfl
    have := buffering_of_call_read hcall
    simp [hinv.unread] at this
  constructor
  · exact hordered
  · exact unread_of_leads hleads hinv.unread
  · simpa [blocked_of_ne_read hm hnext] using hinv.announced
  · exact hcovered
  · exact hinv.dropped
  · intro hfreed
    have hgone := advance_freed hinv hcall hnext hplace hfreed
    exact hgone

theorem client_freeInv {s t : Threads} {rc : Int} (hinv : FreeInv s) (hordered : Ordered t)
    (hcond : s.client.atWait = true → s.blocked = false → s.stopCmd = true ∧ s.receiver.unannounced = false)
    (hmove : ClientMove s rc t) : FreeInv t := by
  have hcovered : t.client.pastWait = true → t.stopCmd = true ∧ t.receiver.mayRead = false :=
    client_covered hinv hcond hmove
  cases hmove with
  | advance hcall hnext hplace hleads => exact advance_freeInv hinv hordered hcovered hcall hnext hplace hleads
  | setStop hclient =>
    refine ⟨hordered, rfl, hinv.announced, hcovered, hinv.dropped, ?_⟩
    exact fun hfreed => Or.inl (hinv.dropped_of_freed (by rw [hclient]; rfl) hfreed)
  | detach hclient =>
    have hannounced := hinv.announced
    rw [hinv.starting (by simp [hclient, Client.starting])] at hannounced
    refine ⟨hordered, rfl, hannounced, hcovered, fun _ => rfl, ?_⟩
    exact fun hfreed => Or.inl (hinv.dropped_of_freed (by rw [hclient]; rfl) hfreed)
  | @dropChannel m call place hcall hmethod hend hplace hleads =>
    refine ⟨hordered, ?_, hinv.announced, hcovered, ?_, fun _ => Or.inl rfl⟩
    · exact unread_of_leads hleads hinv.unread
    · intro _
      obtain rfl | rfl := hmethod
      · have hclient := call_free_iff.mp hcall
        have hfirst := hinv.starting (by simp [hclient, Client.starting])
        simp [hfirst, ReceiverThread.reading]
      · have hpast := (pastWait_of_call hcall).mpr (by simp [hend])
        exact reading_of_mayRead (hinv.covered hpast).2
  | @goOn place session hcall hplace hleads =>
    refine ⟨hordered, ?_, hinv.announced, hcovered, hinv.dropped, ?_⟩
    · exact unread_of_leads hleads hinv.unread
    · intro hfreed
      obtain hdropped | hpast | ⟨call, hclient⟩ := hinv.freed hfreed
      · exact Or.inl hdropped
      · obtain ⟨call, hcall', -⟩ := pastWait_cases hpast
        exact absurd rfl (hcall _ hcall').2
      · exact absurd rfl (hcall _ (call_free_iff.mpr hclient)).1

/-- `blocked` is set exactly from the announcement of a read to its end. -/
theorem exec_announced {call next : Invocation .read} {instr : Instr} {g : Globals}
    (hcons : call.code = instr :: next.code) (hannounced : g.blocked = midRead call.code) :
    (g.exec instr).blocked = midRead next.code := by
  have hsuffix : instr :: next.code <:+ Method.read.code := hcons ▸ call.suffix
  rw [Bool.eq_iff_iff, exec_blocked, midRead_tail hsuffix, hannounced, hcons]

theorem reading_advance {call next : Invocation .read} {instr : Instr} (hcons : call.code = instr :: next.code)
    (hreading : (ReceiverThread.read call).reading = false) : (ReceiverThread.read next).reading = false := by
  simp only [ReceiverThread.reading, hcons, decide_eq_false_iff_not] at hreading ⊢
  exact fun h => hreading (List.mem_cons_of_mem _ h)

/-- A receiver that may read has passed its loop condition, which a shutdown that
is past its wait has closed for good. -/
theorem receiver_freeInv {s t : Threads} {rc : Int} (hinv : FreeInv s) (hordered : Ordered t)
    (hmove : ReceiverMove s rc t) : FreeInv t := by
  obtain ⟨hclient, hchannel, -, hfreed⟩ := hmove.frame
  have hunread : t.client.buffering = false := by
    rw [hclient]
    exact hinv.unread
  have hgone : t.freed ≠ [] → t.hasChannel = false ∨ t.client.pastWait = true ∨ ∃ call, t.client = .free call := by
    rw [hclient, hchannel, hfreed]
    exact hinv.freed
  have hannounced := hinv.announced
  have hcovered := hinv.covered
  have hdropped := hinv.dropped
  cases hmove with
  | start hreceiver =>
    rw [hreceiver] at hannounced hcovered
    exact ⟨hordered, hunread, hannounced, fun h => by simpa [ReceiverThread.mayRead] using hcovered h, fun _ => rfl, hgone⟩
  | fetch hreceiver =>
    rw [hreceiver] at hannounced hcovered
    refine ⟨hordered, hunread, ?_, fun h => by simpa [ReceiverThread.mayRead] using hcovered h, ?_, hgone⟩
    · cases s.hasChannel <;> exact hannounced
    · intro h
      simp only at h
      simp [h, ReceiverThread.reading]
  | advance hreceiver hnext =>
    rw [hreceiver] at hannounced hcovered hdropped
    obtain ⟨rfl, rfl, -, -⟩ | ⟨instr, hcons, rfl, -⟩ := advance_cases hnext
    · exact ⟨hordered, hunread, hannounced, hcovered, hdropped, hgone⟩
    · refine ⟨hordered, hunread, exec_announced hcons hannounced, ?_, ?_, hgone⟩
      · intro hpast
        obtain ⟨hstop, hmay⟩ := hcovered hpast
        exact ⟨hstop, reading_advance hcons hmay⟩
      · exact fun h => reading_advance hcons (hdropped h)
  | returns hreceiver hend =>
    rw [hreceiver] at hannounced hcovered
    refine ⟨hordered, hunread, ?_, fun h => ⟨(hcovered h).1, rfl⟩, fun _ => rfl, hgone⟩
    simpa [ReceiverThread.announced, hend, midRead] using hannounced
  | @process rc1 hreceiver =>
    rw [hreceiver] at hannounced hcovered
    obtain ⟨rc, hplace⟩ | hplace := afterRead_cases s.hasSession rc1
    · simp only [hplace] at hordered ⊢
      exact ⟨hordered, hunread, hannounced, hcovered, fun _ => rfl, hgone⟩
    · simp only [hplace] at hordered ⊢
      exact ⟨hordered, hunread, hannounced, hcovered, fun _ => rfl, hgone⟩
  | lastError hreceiver =>
    rw [hreceiver] at hannounced hcovered
    exact ⟨hordered, hunread, hannounced, hcovered, fun _ => rfl, hgone⟩
  | test hreceiver =>
    rw [hreceiver] at hannounced hcovered
    refine ⟨hordered, hunread, ?_, ?_, ?_, hgone⟩
    · split <;> exact hannounced
    · intro hpast
      obtain ⟨hstop, -⟩ := hcovered hpast
      exact ⟨hstop, by simp [hstop, ReceiverThread.mayRead, ReceiverThread.reading]⟩
    · intro _
      simp only
      split <;> rfl

theorem step_freeInv {s t : Threads} {e : ThreadEvent} (hinv : FreeInv s) (hcond : WaitCovers s e t)
    (hstep : step s e = some t) : FreeInv t := by
  have hordered := step_ordered hinv.toOrdered hstep
  unfold step at hstep
  split at hstep
  · rename_i hunborn
    obtain rfl := Option.some.inj hstep
    have hfirst := hinv.starting (by simp [hunborn, Client.starting])
    have hnothing := (hinv.unborn hunborn).2
    exact ⟨hordered, rfl, hinv.announced, by simp [Client.pastWait], by simp, by simp [hnothing]⟩
  · rename_i hidle
    obtain rfl := Option.some.inj hstep
    refine ⟨hordered, rfl, hinv.announced, by simp [Client.pastWait], hinv.dropped, ?_⟩
    exact fun hfreed => Or.inl (hinv.dropped_of_freed (by rw [hidle]; rfl) hfreed)
  · cases hcond
  · rename_i hidle
    obtain rfl := Option.some.inj hstep
    refine ⟨hordered, rfl, hinv.announced, by simp [Client.pastWait], hinv.dropped, ?_⟩
    exact fun hfreed => Or.inl (hinv.dropped_of_freed (by rw [hidle]; rfl) hfreed)
  · exact client_freeInv hinv hordered hcond (clientStep_move hstep)
  · exact receiver_freeInv hinv hordered (receiverStep_move hstep)
  · cases hstep

/-- In every interleaving in which each shutdown that finds `blocked` clear does so
outside the window between the receiver's loop condition and its announcement of
a read, no read of the channel is in progress once it is freed. -/
theorem no_use_after_free {channel : Handle} {es : List ThreadEvent} (hcond : Along step WaitCovers (start channel) es) :
    Along step NoUseAfterFree (start channel) es := by
  apply Along.of_invariant FreeInv _ (start_freeInv channel) hcond
  intro s e t hinv hcovers hstep
  have hnext := step_freeInv hinv hcovers hstep
  refine ⟨?_, hnext⟩
  intro hfreed
  have hreading := hnext.unused (List.ne_nil_of_mem hfreed)
  cases hreceiver : t.receiver with
  | read call =>
    simp only [hreceiver, ReceiverThread.reading, decide_eq_false_iff_not] at hreading
    simp only [ReceiverThread.inRead, decide_eq_false_iff_not]
    exact fun h => hreading (List.mem_of_mem_head? h)
  | _ => rfl

/-- A shell is set up, and its receiver takes its first `n` steps. -/
def opened (n : Nat) : List ThreadEvent :=
  .initWithChannel :: List.replicate 12 (.client 0) ++ List.replicate n (.receiver 0)

/-- The shutdown comes while the receiver is inside the library, and waits for it. -/
def shutdownDuringRead : List ThreadEvent :=
  opened 4 ++ .shutdown :: List.replicate 6 (.client 0) ++ List.replicate 3 (.receiver 0) ++
    List.replicate 6 (.client 0) ++ List.replicate 2 (.receiver 0)

theorem no_use_after_free_shutdownDuringRead : Along step NoUseAfterFree (start 1) shutdownDuringRead :=
  no_use_after_free (by decide)

/-- The shutdown comes when the receiver has fetched the channel, before it has
announced its read. -/
def shutdownBeforeRead : List ThreadEvent :=
  opened 2 ++ .shutdown :: List.replicate 9 (.client 0) ++ List.replicate 2 (.receiver 0)

/-- The receiver enters the library's read on the channel that has been freed. -/
theorem read_after_free :
    ¬ ∀ (channel : Handle) (es : List ThreadEvent), Along step NoUseAfterFree (start channel) es := by
  intro halways
  exact absurd (halways 1 shutdownBeforeRead) (by decide)

end Threads

end MPSsh.MPSshShell

import MPSsh.Shell.Accounting
import MPSsh.Shell.Refinement

open Schedule Segments MPSsh.MPLSChannel

namespace MPSsh.MPSshShell

namespace Console

/-- What is still to be delivered, line ends left out. -/
def undelivered (s : Console) : List UInt8 :=
  (s.receiver.sent.map utf8).flatten ++ s.underWay.filter (! isNewline ·)

/-- The bytes that a command may show. -/
def textOf (s : Console) (command : Nat) : List UInt8 :=
  (s.bytesOf command).filter (! isNewline ·)

/-- Nothing is left of the answers to earlier commands, and nothing has been collected. -/
structure Ready (s : Console) : Prop where
  result : s.shell.result = some []
  settled : s.settled = true

/-- Only one command can be answered, and what has been collected since it was called or
can still be delivered is made of its bytes. -/
structure Answered (s : Console) (command : Nat) (lines : List String) : Prop where
  result : s.shell.result = some lines
  pending : ∀ c ∈ s.pending, c.1 = command
  bytes : List.Sublist ((lines.map utf8).flatten ++ s.undelivered) (s.textOf command)

/-- What holds of the call under way if it is clean. -/
def CallInv (s : Console) : Prop :=
  match s.client with
  | .execStatus _ true | .execWrite _ true => s.Ready
  | .polling command true _ => ∃ lines, s.Answered command lines
  | _ => True

/-- The result of a finished call is made of the bytes of its command. -/
def OwnBytes (s : Console) (r : Returned) : Prop :=
  ∃ lines, r.lines = some lines ∧ (lines.map utf8).flatten.Sublist (s.textOf r.command)

structure BytesInv (s : Console) : Prop extends PlainCarry s where
  call : CallInv s
  returned : ∀ r ∈ s.returned, r.clean = true → OwnBytes s r

theorem start_bytesInv (shell : Shell) (stack : CharArray 1024) : BytesInv (start shell stack) := by
  refine ⟨start_plainCarry shell stack, trivial, ?_⟩
  simp [start]

theorem settled_iff {s : Console} :
    s.settled = true ↔ s.pending = [] ∧ s.receiver.sent = [] ∧ ∀ b ∈ s.underWay, isNewline b = true := by
  simp [settled, List.isEmpty_iff, and_assoc]

/-- A settled console has nothing to deliver but line ends. -/
theorem undelivered_of_settled {s : Console} (hsettled : s.settled = true) : s.undelivered = [] := by
  obtain ⟨-, hsent, hunder⟩ := settled_iff.mp hsettled
  have hnone : s.underWay.filter (! isNewline ·) = [] := by
    rw [List.filter_eq_nil_iff]
    simpa using hunder
  rw [undelivered, hsent, hnone]
  rfl

/-- A command shows what it showed and what has been printed since. -/
theorem textOf_printed {s t : Console} {p : Printed} (hprinted : t.printed = s.printed ++ [p]) (c : Nat) :
    t.textOf c = s.textOf c ++ if p.command = c then p.bytes.filter (! isNewline ·) else [] := by
  by_cases h : p.command = c <;> simp [textOf, bytesOf, hprinted, h]

theorem OwnBytes.grow {s t : Console} {r : Returned} (hown : OwnBytes s r)
    (htext : s.textOf r.command <+: t.textOf r.command) : OwnBytes t r := by
  obtain ⟨lines, hlines, hbytes⟩ := hown
  exact ⟨lines, hlines, hbytes.trans htext.sublist⟩

/-- Printing adds to what can be delivered what it adds to the command's bytes. -/
theorem undelivered_printed {s t : Console} {bytes : List UInt8} (hreceiver : t.receiver = s.receiver)
    (hconnection : t.connection = s.connection ++ bytes) :
    t.undelivered = s.undelivered ++ bytes.filter (! isNewline ·) := by
  simp only [undelivered, underWay, carry, hreceiver, hconnection, List.filter_append, List.append_assoc]

/-- A read makes nothing up. -/
theorem read_undelivered {enc : SystemEncoding} {s t : Console} (hcarry : PlainCarry s) (hsent : s.receiver.sent = [])
    {chunk : Chunk} {rest : List UInt8} (hrest : s.rest (.bytes chunk) = some rest)
    (hreceiver : t.receiver = (receiverBody enc s.receiver (.bytes chunk)).1) (hconnection : t.connection = rest) :
    t.undelivered.Sublist s.undelivered := by
  obtain ⟨-, hopen, hcut⟩ := hcarry.read enc hrest hreceiver hconnection
  have hunder := hcarry.plain
  rw [underWay, rest_bytes hrest, ← List.append_assoc, plain_append] at hunder
  have hlines : ∀ line ∈ prepend s.carry (terminated isNewline chunk.bytes), Plain line :=
    fun line hline => hunder.1.subset (subset_of_mem_prepend hline)
  have hkeep (xs : List UInt8) (hxs : ∀ b ∈ xs, isNewline b = false) : xs.filter (! isNewline ·) = xs := by
    rw [List.filter_eq_self]
    simpa using hxs
  have hbefore : s.undelivered = s.carry ++ chunk.bytes.filter (! isNewline ·) ++ rest.filter (! isNewline ·) := by
    simp only [undelivered, hsent, underWay, rest_bytes hrest, List.filter_append, hkeep _ hcarry.single,
      List.append_assoc]
    rfl
  have hafter : t.undelivered = (prepend s.carry (terminated isNewline chunk.bytes)).flatten ++
      unterminated isNewline chunk.bytes ++ rest.filter (! isNewline ·) := by
    rw [undelivered, hcut, hsent, List.nil_append, utf8_map_ascii hlines, underWay, hopen, hconnection,
      List.filter_append, hkeep _ (unterminated_none _ _), List.append_assoc]
  rw [hbefore, hafter, read_accounts isNewline s.carry chunk.bytes]
  exact (List.sublist_append_right _ _).append_right _

/-- Reading line ends leaves the console settled. -/
theorem read_settled {enc : SystemEncoding} {s t : Console} (hcarry : PlainCarry s) (hsettled : s.settled = true)
    {chunk : Chunk} {rest : List UInt8} (hrest : s.rest (.bytes chunk) = some rest) (hpending : t.pending = s.pending)
    (hreceiver : t.receiver = (receiverBody enc s.receiver (.bytes chunk)).1) (hconnection : t.connection = rest) :
    t.settled = true := by
  obtain ⟨-, hopen, hcut⟩ := hcarry.read enc hrest hreceiver hconnection
  obtain ⟨hnone, hsent, hends⟩ := settled_iff.mp hsettled
  rw [underWay, rest_bytes hrest, List.forall_mem_append, List.forall_mem_append] at hends
  obtain ⟨-, hchunk, hrest⟩ := hends
  obtain ⟨hlines, hlast⟩ := (terminated_unterminated_nil_iff isNewline chunk.bytes).mpr hchunk
  rw [settled_iff, hpending, hcut, hsent, hlines, underWay, hopen, hlast, hconnection]
  exact ⟨hnone, rfl, hrest⟩

/-- Nothing but the receiver and the shell matters to a call under way. -/
theorem CallInv.same {s t : Console} (hcall : CallInv s) (hclient : t.client = s.client) (hshell : t.shell = s.shell)
    (hready : s.settled = true → t.settled = true) (hpending : t.pending = s.pending)
    (hundelivered : t.undelivered.Sublist s.undelivered) (htext : ∀ c, t.textOf c = s.textOf c) : CallInv t := by
  unfold CallInv at hcall ⊢
  rw [hclient]
  split at hcall
  · exact ⟨hshell ▸ hcall.result, hready hcall.settled⟩
  · exact ⟨hshell ▸ hcall.result, hready hcall.settled⟩
  · obtain ⟨lines, hresult, honly, hbytes⟩ := hcall
    refine ⟨lines, hshell ▸ hresult, hpending ▸ honly, ?_⟩
    rw [htext]
    exact (hundelivered.append_left _).trans hbytes
  · trivial

theorem read_bytesInv {enc : SystemEncoding} {s t : Console} {result : ReadResult} (hinv : BytesInv s)
    (hstep : step enc s (.read result) = some t) : BytesInv t := by
  simp only [step, Option.ite_none_right_eq_some, Option.map_eq_some_iff] at hstep
  obtain ⟨⟨-, hsent⟩, connection, hrest, rfl⟩ := hstep
  cases result with
  | failed rc h =>
    obtain rfl := Option.some.inj hrest
    refine ⟨⟨hinv.plain, hinv.text, hinv.single⟩, ?_, hinv.returned⟩
    exact hinv.call.same rfl rfl id rfl (List.Sublist.refl _) fun _ => rfl
  | bytes chunk =>
    have hcarry := hinv.toPlainCarry
    refine ⟨(hcarry.read enc hrest rfl rfl).1, ?_, hinv.returned⟩
    apply hinv.call.same
    · rfl
    · rfl
    · exact fun hsettled => read_settled hcarry hsettled hrest rfl rfl rfl
    · rfl
    · exact read_undelivered hcarry hsent hrest rfl rfl
    · exact fun _ => rfl

/-- The array changes only with a line that a command waits for. -/
theorem dataReceived_result {shell : Shell} {data : String}
    (hcollects : ¬ (shell.status = .command ∧ data ≠ LOGSPROMPT)) : (shell.dataReceived data).result = shell.result := by
  rw [Shell.result, Shell.dataReceived_cmdResult, Shell.result]
  refine Option.bind_congr fun i _ => ?_
  rw [Shell.dataReceived_getElem?, if_neg fun h => hcollects ⟨h.1, h.2.1⟩]

/-- A delivered string is collected, or it is the prompt, or nobody waits for it. -/
theorem deliver_answered {s : Console} {command : Nat} {lines : List String} (hanswered : s.Answered command lines)
    {data : String} {rest : List String} (hsent : s.receiver.sent = data :: rest) :
    ∃ lines, Answered { s with shell := s.shell.dataReceived data, receiver := { s.receiver with sent := rest } }
      command lines := by
  obtain ⟨hresult, honly, hbytes⟩ := hanswered
  have hless : undelivered { s with
      shell := s.shell.dataReceived data, receiver := { s.receiver with sent := rest } } =
      (rest.map utf8).flatten ++ s.underWay.filter (! isNewline ·) := rfl
  have hbefore : s.undelivered = utf8 data ++ ((rest.map utf8).flatten ++ s.underWay.filter (! isNewline ·)) := by
    rw [undelivered, hsent, List.map_cons, List.flatten_cons, List.append_assoc]
  rw [hbefore] at hbytes
  by_cases hcollects : s.shell.status = .command ∧ data ≠ LOGSPROMPT
  · refine ⟨lines ++ [data], ?_, honly, ?_⟩
    · simp only [Shell.dataReceived_line hcollects.1 hcollects.2]
      exact Shell.addObject_result hresult
    · rw [hless, List.map_append, List.flatten_append, List.map_singleton, List.flatten_singleton, List.append_assoc]
      exact hbytes
  · refine ⟨lines, ?_, honly, ?_⟩
    · exact (dataReceived_result hcollects).trans hresult
    · rw [hless]
      exact ((List.sublist_append_right _ _).append_left _).trans hbytes

theorem deliver_bytesInv {enc : SystemEncoding} {s t : Console} (hinv : BytesInv s)
    (hstep : step enc s .deliver = some t) : BytesInv t := by
  have hcall := hinv.call
  simp only [step] at hstep
  split at hstep
  · rename_i data rest hsent
    obtain rfl := Option.some.inj hstep
    refine ⟨⟨hinv.plain, hinv.text, hinv.single⟩, ?_, hinv.returned⟩
    unfold CallInv at hcall ⊢
    simp only
    split at hcall
    · simp [(settled_iff.mp hcall.settled).2.1] at hsent
    · simp [(settled_iff.mp hcall.settled).2.1] at hsent
    · obtain ⟨lines, hanswered⟩ := hcall
      exact deliver_answered hanswered hsent
    · trivial
  · cases hstep

/-- What is printed is printed for the call under way, if that call is clean. -/
theorem printed_bytesInv {s t : Console} (hinv : BytesInv s) {p : Printed} {text : String} {rest : List (Nat × String)}
    (hfirst : s.pending = (p.command, text) :: rest) (hplain : Plain p.bytes) (hclient : t.client = s.client)
    (hshell : t.shell = s.shell) (hpending : t.pending ⊆ s.pending) (hreceiver : t.receiver = s.receiver)
    (hconnection : t.connection = s.connection ++ p.bytes) (hprinted : t.printed = s.printed ++ [p])
    (hreturned : t.returned = s.returned) : BytesInv t := by
  have hcall := hinv.call
  refine ⟨hinv.toPlainCarry.extend hplain hreceiver hconnection, ?_, ?_⟩
  · unfold CallInv at hcall ⊢
    rw [hclient]
    split at hcall
    · simp [(settled_iff.mp hcall.settled).1] at hfirst
    · simp [(settled_iff.mp hcall.settled).1] at hfirst
    · obtain ⟨lines, hresult, honly, hbytes⟩ := hcall
      have hown := honly (p.command, text) (by simp [hfirst])
      refine ⟨lines, hshell ▸ hresult, fun c hc => honly c (hpending hc), ?_⟩
      rw [undelivered_printed hreceiver hconnection, textOf_printed hprinted, if_pos hown, ← List.append_assoc]
      exact hbytes.append_right _
    · trivial
  · rw [hreturned]
    intro r hr hclean
    exact (hinv.returned r hr hclean).grow (textOf_printed hprinted r.command ▸ List.prefix_append _ _)

theorem print_bytesInv {enc : SystemEncoding} {s t : Console} {bytes : List UInt8} (hinv : BytesInv s)
    (hplain : Plain bytes) (hstep : step enc s (.print bytes) = some t) : BytesInv t := by
  simp only [step] at hstep
  split at hstep
  · rename_i command text rest hpending
    obtain rfl := Option.some.inj hstep
    apply printed_bytesInv hinv (p := { command, prompt := false, bytes }) hpending hplain <;> first | rfl | simp
  · cases hstep

theorem prompt_bytesInv {enc : SystemEncoding} {s t : Console} {ending : List UInt8} (hinv : BytesInv s)
    (hstep : step enc s (.prompt ending) = some t) : BytesInv t := by
  simp only [step] at hstep
  split at hstep
  · rename_i command text rest hpending
    split at hstep
    · cases hstep
    rename_i hending
    rw [not_or, Bool.not_eq_false, List.all_eq_true] at hending
    obtain rfl := Option.some.inj hstep
    have hplain : Plain (utf8 LOGSPROMPT ++ ending) := plain_append.mpr ⟨plain_prompt, plain_ending hending.2⟩
    apply printed_bytesInv hinv (p := { command, prompt := true, bytes := utf8 LOGSPROMPT ++ ending }) hpending hplain <;>
      first | rfl | simp [hpending]
  · cases hstep

/-- What the client does is nothing to the receiver and the connection. -/
theorem client_bytesInv {s : Console} {d : Dialogue} (hinv : BytesInv s) (hcall : CallInv (s.withFront d))
    (hreturned : ∀ r ∈ d.returned, r ∈ s.returned ∨ (r.clean = true → OwnBytes s r)) : BytesInv (s.withFront d) := by
  refine ⟨⟨hinv.plain, hinv.text, hinv.single⟩, hcall, ?_⟩
  intro r hr hclean
  obtain hold | hnew := hreturned r hr
  · exact hinv.returned r hold hclean
  · exact hnew hclean

theorem execCommand_bytesInv {enc : SystemEncoding} {s t : Console} {cmd : String} (hinv : BytesInv s)
    (hstep : step enc s (.execCommand cmd) = some t) : BytesInv t := by
  simp only [step] at hstep
  split at hstep
  · obtain rfl := Option.some.inj hstep
    refine ⟨⟨hinv.plain, hinv.text, hinv.single⟩, ?_, hinv.returned⟩
    unfold CallInv
    cases hsettled : s.settled with
    | true => exact ⟨Shell.newResult_result, hsettled⟩
    | false => trivial
  · cases hstep

theorem execLongCommand_bytesInv {enc : SystemEncoding} {s t : Console} {cmd : String} (hinv : BytesInv s)
    (hstep : step enc s (.execLongCommand cmd) = some t) : BytesInv t := by
  simp only [step] at hstep
  obtain ⟨d, hd, rfl⟩ := Option.map_eq_some_iff.mp hstep
  simp only [Dialogue.step] at hd
  split at hd
  · obtain rfl := Option.some.inj hd
    exact client_bytesInv hinv trivial fun r hr => Or.inl hr
  · cases hd

theorem stopLongCommand_bytesInv {enc : SystemEncoding} {s t : Console} (hinv : BytesInv s)
    (hstep : step enc s .stopLongCommand = some t) : BytesInv t := by
  simp only [step] at hstep
  obtain ⟨d, hd, rfl⟩ := Option.map_eq_some_iff.mp hstep
  simp only [Dialogue.step] at hd
  split at hd
  · obtain rfl := Option.some.inj hd
    exact client_bytesInv hinv trivial fun r hr => Or.inl hr
  · cases hd

/-- A clean call starts with nothing undelivered, and returns what it has collected. -/
theorem clientStep_bytesInv {enc : SystemEncoding} {s t : Console} (hinv : BytesInv s)
    (hstep : step enc s .client = some t) : BytesInv t := by
  have hcall := hinv.call
  obtain ⟨d, hd, rfl⟩ := Option.map_eq_some_iff.mp hstep
  have hplace : s.front.client = s.client := rfl
  cases hclient : s.client with
  | idle => simp [Dialogue.clientStep, hplace, hclient] at hd
  | execStatus line clean =>
    simp only [Dialogue.clientStep, hplace, hclient, Option.some.injEq] at hd
    subst hd
    refine client_bytesInv hinv ?_ fun r hr => Or.inl hr
    cases clean with
    | true =>
      simp only [CallInv, hclient] at hcall
      exact ⟨hcall.result, hcall.settled⟩
    | false => trivial
  | execWrite line clean =>
    simp only [Dialogue.clientStep, hplace, hclient, Option.some.injEq] at hd
    subst hd
    refine client_bytesInv hinv ?_ fun r hr => Or.inl hr
    cases clean with
    | true =>
      simp only [CallInv, hclient] at hcall
      refine ⟨[], hcall.result, ?_, ?_⟩
      · simp [withFront, Dialogue.write, front, (settled_iff.mp hcall.settled).1]
      · change List.Sublist ([] ++ s.undelivered) _
        rw [undelivered_of_settled hcall.settled]
        exact List.nil_sublist _
    | false => trivial
  | polling command clean counter =>
    simp only [Dialogue.clientStep, hplace, hclient] at hd
    split at hd
    · obtain rfl := Option.some.inj hd
      refine client_bytesInv hinv ?_ fun r hr => Or.inl hr
      cases clean with
      | true =>
        simp only [CallInv, hclient] at hcall
        obtain ⟨lines, hresult, honly, hbytes⟩ := hcall
        exact ⟨lines, hresult, honly, hbytes⟩
      | false => trivial
    · obtain rfl := Option.some.inj hd
      refine client_bytesInv hinv trivial ?_
      intro r hr
      obtain hr | hr := List.mem_append.mp hr
      · exact Or.inl hr
      · obtain rfl := List.mem_singleton.mp hr
        refine Or.inr fun hclean => ?_
        obtain rfl : clean = true := hclean
        simp only [CallInv, hclient] at hcall
        obtain ⟨lines, hresult, -, hbytes⟩ := hcall
        exact ⟨lines, hresult, (List.sublist_append_left _ _).trans hbytes⟩
  | longStatus | longCounter | stopStatus =>
    simp only [Dialogue.clientStep, hplace, hclient, Option.some.injEq] at hd
    subst hd
    exact client_bytesInv hinv trivial fun r hr => Or.inl hr

theorem step_bytesInv {enc : SystemEncoding} {s t : Console} {e : ConsoleEvent} (hinv : BytesInv s)
    (hplain : PrintsPlain s e t) (hstep : step enc s e = some t) : BytesInv t := by
  cases e with
  | execCommand cmd => exact execCommand_bytesInv hinv hstep
  | execLongCommand cmd => exact execLongCommand_bytesInv hinv hstep
  | stopLongCommand => exact stopLongCommand_bytesInv hinv hstep
  | client => exact clientStep_bytesInv hinv hstep
  | print bytes => exact print_bytesInv hinv hplain hstep
  | prompt ending => exact prompt_bytesInv hinv hstep
  | read result => exact read_bytesInv hinv hstep
  | deliver => exact deliver_bytesInv hinv hstep

/-- However the reads cut plain text, whatever lines they join or lose and whether the
prompt is recognised or not: a call that was entered with nothing outstanding returned
text that the remote printed for its own command, in order and none of it twice. -/
theorem returned_own_bytes {enc : SystemEncoding} {shell : Shell} {stack : CharArray 1024} {es : List ConsoleEvent}
    {t : Console} (hrun : run (step enc) (start shell stack) es = some t)
    (hplain : Along (step enc) PrintsPlain (start shell stack) es) :
    ∀ r ∈ t.returned, r.clean = true → ∃ lines, r.lines = some lines ∧
      (lines.map utf8).flatten.Sublist ((t.bytesOf r.command).filter (! isNewline ·)) := by
  have hinv : BytesInv t := by
    apply run_preserves_along BytesInv _ (start_bytesInv shell stack) hplain hrun
    exact fun s e t hinv hcond hstep => step_bytesInv hinv hcond hstep
  exact fun r hr hclean => hinv.returned r hr hclean

/-- The line end of `"ab"` comes with the next read, and `"ab"` joins the prompt. -/
def joined : List ConsoleEvent :=
  [.execCommand "ls", .client, .client, .print [97, 98], .read (readOf [97, 98]), .print [10],
    .prompt [10], .read (readOf [10, 49, 50, 51, 108, 111, 103, 115, 49, 50, 51, 10]), .deliver] ++
    List.replicate 101 .client

theorem run_joined : ∃ t, run (step latin1) (start Dialogue.idleShell blankStack) joined = some t ∧
    t.returned = [{ command := 0, clean := true, array := some 0, lines := some ["ab123logs123"], status := .command }] :=
  Option.map_eq_some_iff.mp (by decide +kernel)

theorem returned_own_bytes_joined :
    ∃ t, run (step latin1) (start Dialogue.idleShell blankStack) joined = some t ∧
      (utf8 "ab123logs123").Sublist ((t.bytesOf 0).filter (! isNewline ·)) := by
  obtain ⟨t, hrun, hreturned⟩ := run_joined
  obtain ⟨lines, hlines, hbytes⟩ := returned_own_bytes hrun (by decide +kernel) _
    (hreturned ▸ List.mem_singleton_self _) rfl
  obtain rfl := Option.some.inj hlines
  exact ⟨t, hrun, by simpa using hbytes⟩

end Console

end MPSsh.MPSshShell

import MPSsh.Shell.Attribution
import MPSsh.Shell.Console
import MPSsh.Shell.Framing

open Schedule Segments MPSsh.MPLSChannel

namespace MPSsh.MPSshShell

namespace Dialogue

/-- The dialogue with another wire and another output. -/
def withTraffic (d : Dialogue) (wire output : List (Nat × String)) : Dialogue :=
  { d with wire, output }

/-- The client sees neither what is on the wire nor what has been printed. -/
theorem clientStep_withTraffic (d : Dialogue) (wire output : List (Nat × String)) :
    (d.withTraffic wire output).clientStep = d.clientStep.map (·.withTraffic wire output) := by
  unfold clientStep withTraffic
  cases d.client with
  | polling command clean counter =>
    simp only
    split <;> rfl
  | idle | execStatus | execWrite | longStatus | longCounter | stopStatus => rfl

theorem execLongCommand_withTraffic (d : Dialogue) (wire output : List (Nat × String)) (cmd : String) :
    (d.withTraffic wire output).step (.execLongCommand cmd) = (d.step (.execLongCommand cmd)).map (·.withTraffic wire output) := by
  simp only [step, withTraffic]
  split <;> rfl

theorem stopLongCommand_withTraffic (d : Dialogue) (wire output : List (Nat × String)) :
    (d.withTraffic wire output).step .stopLongCommand = (d.step .stopLongCommand).map (·.withTraffic wire output) := by
  simp only [step, withTraffic]
  split <;> rfl

/-- A client step answers no command, and may write one. -/
theorem clientStep_pending {d t : Dialogue} (hstep : d.clientStep = some t) : d.pending <+: t.pending := by
  cases hclient : d.client with
  | idle => simp [clientStep, hclient] at hstep
  | execWrite line clean =>
    simp only [clientStep, hclient, Option.some.injEq] at hstep
    subst hstep
    exact List.prefix_append _ _
  | polling command clean counter =>
    simp only [clientStep, hclient] at hstep
    split at hstep <;> exact Option.some.inj hstep ▸ List.prefix_refl _
  | execStatus | longStatus | longCounter | stopStatus =>
    simp only [clientStep, hclient, Option.some.injEq] at hstep
    subst hstep
    exact List.prefix_refl _

theorem command_pending {d t : Dialogue} {e : DialogueEvent} (he : (∃ cmd, e = .execLongCommand cmd) ∨ e = .stopLongCommand)
    (hstep : d.step e = some t) : d.pending <+: t.pending := by
  obtain ⟨cmd, rfl⟩ | rfl := he
  · simp only [step] at hstep
    split at hstep
    · exact Option.some.inj hstep ▸ List.prefix_append _ _
    · cases hstep
  · simp only [step] at hstep
    split at hstep
    · exact Option.some.inj hstep ▸ List.prefix_refl _
    · cases hstep

/-- The remote prints some lines for the oldest unanswered command. -/
theorem run_prints {d : Dialogue} {command : Nat} {text : String} {rest : List (Nat × String)}
    (hpending : d.pending = (command, text) :: rest) {lines : List String}
    (hlines : ∀ line ∈ lines, line ≠ "" ∧ line ≠ LOGSPROMPT) :
    run step d (lines.map .print) =
      some (d.withTraffic (d.wire ++ lines.map (command, ·)) (d.output ++ lines.map (command, ·))) := by
  induction lines generalizing d with
  | nil => simp [withTraffic]
  | cons line lines ih =>
    obtain ⟨hline, hlater⟩ := List.forall_mem_cons.mp hlines
    have hstep : d.step (.print line) = some (d.withTraffic (d.wire ++ [(command, line)]) (d.output ++ [(command, line)])) := by
      simp [step, hpending, hline.1, hline.2, withTraffic]
    rw [List.map_cons, run, hstep, Option.bind_some, ih (by exact hpending) hlater]
    simp [withTraffic]

end Dialogue

/-- What the two levels have in common: everything but prints and reads. -/
def DialogueEvent.seen : DialogueEvent → Option DialogueEvent
  | .print _ => none
  | e => some e

def ConsoleEvent.seen : ConsoleEvent → Option DialogueEvent
  | .execCommand cmd => some (.execCommand cmd)
  | .execLongCommand cmd => some (.execLongCommand cmd)
  | .stopLongCommand => some .stopLongCommand
  | .client => some .client
  | .prompt _ => some .prompt
  | .deliver => some .deliver
  | .print _ | .read _ => none

namespace Console

/-- The wire and the output of a dialogue say, line by line, what the console holds in
bytes. Only the command that is being answered may have a line open. -/
structure Matches (s : Console) (wire output : List (Nat × String)) : Prop extends PlainCarry s where
  wire : wire.map Prod.snd = s.receiver.sent ++ (terminated isNewline s.underWay).map ascii
  output : ∀ c, (output.filter (·.1 = c)).map Prod.snd = (terminated isNewline (s.outputOf c)).map ascii
  begun : ∀ c, unterminated isNewline (s.outputOf c) =
    if s.pending.head?.map Prod.fst = some c then s.openLine else []
  quiet : s.pending = [] → s.openLine = []

/-- A dialogue that shows the same as the console. -/
def Refines (s : Console) (d : Dialogue) : Prop :=
  ∃ wire output, d = s.front.withTraffic wire output ∧ Matches s wire output

theorem start_refines (shell : Shell) (stack : CharArray 1024) : Refines (start shell stack) (Dialogue.start shell) := by
  refine ⟨[], [], rfl, start_plainCarry shell stack, ?_, ?_, ?_, ?_⟩ <;>
    simp [start, underWay, carry, utf8, outputOf, openLine]

/-- Nothing of the match changes when a command is written. -/
theorem Matches.written {s t : Console} {wire output : List (Nat × String)} (hmatches : Matches s wire output)
    (hpending : s.pending <+: t.pending) (hreceiver : t.receiver = s.receiver) (hconnection : t.connection = s.connection)
    (hprinted : t.printed = s.printed) : Matches t wire output := by
  have hunder : t.underWay = s.underWay := by rw [underWay, carry, hreceiver, hconnection, underWay, carry]
  have houtput (c : Nat) : t.outputOf c = s.outputOf c := by rw [outputOf, hprinted, outputOf]
  have hopen : t.openLine = s.openLine := by rw [openLine, hunder, openLine]
  have hnone : t.connection = s.connection ++ [] := by rw [hconnection, List.append_nil]
  refine ⟨hmatches.toPlainCarry.extend (by simp [Plain]) hreceiver hnone, ?_, ?_, ?_, ?_⟩
  · rw [hreceiver, hunder]
    exact hmatches.wire
  · intro c
    rw [houtput]
    exact hmatches.output c
  · intro c
    rw [houtput, hmatches.begun c, hopen]
    obtain ⟨later, hlater⟩ := hpending
    cases hfirst : s.pending with
    | nil => simp [hmatches.quiet hfirst]
    | cons first rest => simp [← hlater, hfirst]
  · intro hnil
    rw [hopen]
    exact hmatches.quiet (List.prefix_nil.mp (hnil ▸ hpending))

/-- A step of the client's side is one of the dialogue. -/
theorem front_simulated {s t : Console} {d : Dialogue} (hrefines : Refines s d) {f : Dialogue → Option Dialogue}
    (hsame : ∀ wire output, f (s.front.withTraffic wire output) = (f s.front).map (·.withTraffic wire output))
    (hpending : ∀ t, f s.front = some t → s.front.pending <+: t.pending)
    (hstep : (f s.front).map s.withFront = some t) : ∃ d', f d = some d' ∧ Refines t d' := by
  obtain ⟨wire, output, rfl, hmatches⟩ := hrefines
  obtain ⟨front, hfront, rfl⟩ := Option.map_eq_some_iff.mp hstep
  refine ⟨front.withTraffic wire output, by rw [hsame, hfront]; rfl, wire, output, rfl, ?_⟩
  exact hmatches.written (hpending front hfront) rfl rfl rfl

theorem settled_eq {s : Console} {wire output : List (Nat × String)} (hmatches : Matches s wire output) :
    (s.front.withTraffic wire output).settled = s.settled := by
  have hwire := congrArg List.length hmatches.wire
  simp only [List.length_map, List.length_append] at hwire
  have hcut := terminated_unterminated_nil_iff isNewline s.underWay
  have hquiet := hmatches.quiet
  rw [Bool.eq_iff_iff, Dialogue.settled_iff]
  simp only [settled, Bool.and_eq_true, List.isEmpty_iff, List.all_eq_true, Dialogue.withTraffic, front, and_assoc]
  refine and_congr_right fun hpending => ?_
  rw [← hcut, ← openLine, hquiet hpending]
  simp only [and_true, ← List.length_eq_zero_iff]
  omega

/-- A call begins, clean on the console exactly when it is clean in the dialogue. -/
theorem execCommand_simulated {enc : SystemEncoding} {s t : Console} {d : Dialogue} {cmd : String} (hrefines : Refines s d)
    (hstep : step enc s (.execCommand cmd) = some t) : ∃ d', d.step (.execCommand cmd) = some d' ∧ Refines t d' := by
  obtain ⟨wire, output, rfl, hmatches⟩ := hrefines
  simp only [step] at hstep
  split at hstep
  · rename_i line hclient hline
    obtain rfl := Option.some.inj hstep
    refine ⟨_, ?_, wire, output, rfl, hmatches.written (List.prefix_refl _) rfl rfl rfl⟩
    simp only [Dialogue.step, Dialogue.withTraffic, front, hclient, hline]
    rw [← settled_eq hmatches]
    rfl
  · cases hstep

/-- Printed bytes put the lines that they complete on the wire. -/
theorem Matches.prints {s t : Console} {wire output : List (Nat × String)} (hmatches : Matches s wire output)
    {command : Nat} {text : String} {rest : List (Nat × String)} (hfirst : s.pending = (command, text) :: rest)
    {bytes : List UInt8} (hplain : Plain bytes) (hpending : t.pending = s.pending)
    (hreceiver : t.receiver = s.receiver) (hconnection : t.connection = s.connection ++ bytes)
    (houtput : ∀ c, t.outputOf c = s.outputOf c ++ if command = c then bytes else [])
    {lines : List (Nat × String)}
    (hlines : lines = ((terminated isNewline (s.openLine ++ bytes)).map ascii).map (command, ·)) :
    Matches t (wire ++ lines) (output ++ lines) := by
  have hunder : t.underWay = s.underWay ++ bytes := by
    rw [underWay, carry, hreceiver, hconnection, ← List.append_assoc, underWay, carry]
  have hcut : terminated isNewline t.underWay =
      terminated isNewline s.underWay ++ terminated isNewline (s.openLine ++ bytes) := by
    rw [hunder, terminated_append]
    rfl
  have hopen : t.openLine = unterminated isNewline (s.openLine ++ bytes) := by
    rw [openLine, hunder, unterminated_append]
    rfl
  refine ⟨hmatches.toPlainCarry.extend hplain hreceiver hconnection, ?_, ?_, ?_, ?_⟩
  · rw [hcut, hreceiver, List.map_append, List.map_append, ← List.append_assoc, ← hmatches.wire, hlines]
    simp [Function.comp_def]
  · intro c
    rw [houtput, terminated_append, hmatches.begun c, hfirst, hlines, List.filter_append, List.map_append,
      hmatches.output c]
    by_cases hc : command = c <;> simp [hc, Function.comp_def, List.filter_map]
  · intro c
    rw [houtput, unterminated_append, hmatches.begun c, hopen, hpending, hfirst]
    by_cases hc : command = c <;> simp [hc]
  · simp [hpending, hfirst]

theorem print_simulated {enc : SystemEncoding} {s t : Console} {d : Dialogue} {bytes : List UInt8} (hrefines : Refines s d)
    (hcond : InLines s (.print bytes) t) (hstep : step enc s (.print bytes) = some t) :
    ∃ lines : List String, ∃ d', run Dialogue.step d (lines.map .print) = some d' ∧ Refines t d' := by
  obtain ⟨wire, output, rfl, hmatches⟩ := hrefines
  obtain ⟨hplain, hprompt⟩ := hcond
  simp only [step] at hstep
  split at hstep
  · rename_i command text rest hpending
    obtain rfl := Option.some.inj hstep
    have hopenPlain : Plain (s.openLine ++ bytes) :=
      plain_append.mpr ⟨hmatches.plain.subset (unterminated_subset _), hplain⟩
    have hlines : ∀ line ∈ (terminated isNewline (s.openLine ++ bytes)).map ascii, line ≠ "" ∧ line ≠ LOGSPROMPT := by
      intro line hline
      obtain ⟨bs, hbs, rfl⟩ := List.mem_map.mp hline
      have hbsPlain : Plain bs := hopenPlain.subset (subset_of_mem_terminated hbs)
      refine ⟨fun heq => ?_, fun heq => hprompt bs hbs ?_⟩
      · have hkept := (List.mem_filter.mp hbs).2
        simp [ascii_eq_empty.mp heq] at hkept
      · rw [← ascii_prompt] at heq
        exact (ascii_inj hbsPlain.ascii plain_prompt.ascii).mp heq
    refine ⟨_, _, Dialogue.run_prints hpending hlines, _, _, rfl, ?_⟩
    apply hmatches.prints hpending hplain
    · rfl
    · rfl
    · rfl
    · exact fun c => outputOf_print s c _ bytes command
    · rfl
  · cases hstep

/-- Line ends are plain. -/
theorem plain_ending {ending : List UInt8} (hending : ∀ b ∈ ending, isNewline b = true) : Plain ending := by
  intro b hb
  have hnew := hending b hb
  simp only [isNewline, Bool.or_eq_true, beq_iff_eq] at hnew
  obtain rfl | rfl := hnew <;> simp

/-- The prompt is a line of its own when none is open. -/
theorem Matches.prompts {s t : Console} {wire output : List (Nat × String)} (hmatches : Matches s wire output)
    (hopen : s.openLine = []) {ending : List UInt8} (hne : ending ≠ []) (hending : ∀ b ∈ ending, isNewline b = true)
    (hreceiver : t.receiver = s.receiver) (hconnection : t.connection = s.connection ++ (utf8 LOGSPROMPT ++ ending))
    (houtput : ∀ c, t.outputOf c = s.outputOf c) (command : Nat) :
    Matches t (wire ++ [(command, LOGSPROMPT)]) output := by
  have hplain : Plain (utf8 LOGSPROMPT ++ ending) := plain_append.mpr ⟨plain_prompt, plain_ending hending⟩
  obtain ⟨first, ends, rfl⟩ := List.exists_cons_of_ne_nil hne
  obtain ⟨hfirst, hends⟩ := List.forall_mem_cons.mp hending
  obtain ⟨hlines, hlast⟩ := (terminated_unterminated_nil_iff isNewline ends).mpr hends
  have hunder : t.underWay = s.underWay ++ (utf8 LOGSPROMPT ++ first :: ends) := by
    rw [underWay, carry, hreceiver, hconnection, ← List.append_assoc, underWay, carry]
  have hcut : terminated isNewline t.underWay = terminated isNewline s.underWay ++ [utf8 LOGSPROMPT] := by
    rw [hunder, terminated_append, ← openLine, hopen, List.nil_append, terminated_first prompt_none hfirst, hlines,
      utf8_prompt]
    rfl
  have hnone : t.openLine = [] := by
    rw [openLine, hunder, ← List.append_assoc, unterminated_append_cons _ _ hfirst, hlast]
  refine ⟨hmatches.toPlainCarry.extend hplain hreceiver hconnection, ?_, ?_, ?_, fun _ => hnone⟩
  · rw [hcut, hreceiver, List.map_append, List.map_append, ← List.append_assoc, ← hmatches.wire, List.map_singleton,
      List.map_singleton, ascii_prompt]
  · intro c
    rw [houtput]
    exact hmatches.output c
  · intro c
    rw [houtput, hmatches.begun c, hopen, hnone]
    simp

theorem prompt_simulated {enc : SystemEncoding} {s t : Console} {d : Dialogue} {ending : List UInt8}
    (hrefines : Refines s d) (hcond : s.openLine = []) (hstep : step enc s (.prompt ending) = some t) :
    ∃ d', d.step .prompt = some d' ∧ Refines t d' := by
  obtain ⟨wire, output, rfl, hmatches⟩ := hrefines
  simp only [step] at hstep
  split at hstep
  · rename_i command text rest hpending
    split at hstep
    · cases hstep
    rename_i hending
    rw [not_or, Bool.not_eq_false, List.all_eq_true] at hending
    obtain rfl := Option.some.inj hstep
    refine ⟨{ s.front.withTraffic (wire ++ [(command, LOGSPROMPT)]) output with pending := rest }, ?_, _, _, rfl, ?_⟩
    · simp [Dialogue.step, Dialogue.withTraffic, front, hpending]
    · apply hmatches.prompts hcond hending.1 hending.2
      · rfl
      · rfl
      · exact fun c => outputOf_prompt s c _ _ _ command
  · cases hstep

/-- A read that completes what is carried leaves the same lines to deliver. -/
theorem Matches.reads {s t : Console} {wire output : List (Nat × String)} (hmatches : Matches s wire output)
    {enc : SystemEncoding} {chunk : Chunk} {rest : List UInt8} (hrest : s.rest (.bytes chunk) = some rest)
    (hcompletes : s.receiver.res.getD "" ≠ "" → Completes chunk.bytes) (hpending : t.pending = s.pending)
    (hreceiver : t.receiver = (receiverBody enc s.receiver (.bytes chunk)).1) (hconnection : t.connection = rest)
    (hprinted : t.printed = s.printed) : Matches t wire output := by
  obtain ⟨hcarry, hopen, hsent⟩ := hmatches.toPlainCarry.read enc hrest hreceiver hconnection
  have hline : s.carry ≠ [] → Completes chunk.bytes := by
    intro hne
    refine hcompletes ?_
    rwa [hmatches.text, Ne, ascii_eq_empty]
  obtain ⟨hlines, hlast⟩ := (prepend_terminated_iff hmatches.single chunk.bytes).mpr hline
  have hbefore : s.underWay = s.carry ++ chunk.bytes ++ rest := by
    rw [underWay, rest_bytes hrest, List.append_assoc]
  have hafter : t.underWay = unterminated isNewline (s.carry ++ chunk.bytes) ++ rest := by
    rw [underWay, hopen, hconnection, hlast]
  have hsame : t.openLine = s.openLine := by
    rw [openLine, openLine, hbefore, hafter, ← unterminated_append]
  have houtput (c : Nat) : t.outputOf c = s.outputOf c := by rw [outputOf, hprinted, outputOf]
  refine ⟨hcarry, ?_, ?_, ?_, ?_⟩
  · rw [hmatches.wire, hsent, hafter, hbefore, terminated_append, hlines, List.map_append, List.append_assoc]
  · intro c
    rw [houtput]
    exact hmatches.output c
  · intro c
    rw [houtput, hpending, hsame]
    exact hmatches.begun c
  · rw [hpending, hsame]
    exact hmatches.quiet

/-- A read is invisible in the dialogue. -/
theorem read_simulated {enc : SystemEncoding} {s t : Console} {d : Dialogue} {result : ReadResult}
    (hrefines : Refines s d) (hcond : InLines s (.read result) t) (hstep : step enc s (.read result) = some t) :
    Refines t d := by
  obtain ⟨wire, output, rfl, hmatches⟩ := hrefines
  simp only [step, Option.ite_none_right_eq_some, Option.map_eq_some_iff] at hstep
  obtain ⟨-, connection, hrest, rfl⟩ := hstep
  refine ⟨wire, output, rfl, ?_⟩
  cases result with
  | failed rc h =>
    obtain rfl := Option.some.inj hrest
    exact hmatches.written (List.prefix_refl _) rfl rfl rfl
  | bytes chunk => exact hmatches.reads hrest hcond rfl rfl rfl rfl

/-- A string that is passed on is the first line on the wire. -/
theorem deliver_simulated {enc : SystemEncoding} {s t : Console} {d : Dialogue} (hrefines : Refines s d)
    (hstep : step enc s .deliver = some t) : ∃ d', d.step .deliver = some d' ∧ Refines t d' := by
  obtain ⟨wire, output, rfl, hmatches⟩ := hrefines
  simp only [step] at hstep
  split at hstep
  · rename_i data rest hsent
    obtain rfl := Option.some.inj hstep
    have hwire := hmatches.wire
    rw [hsent, List.cons_append] at hwire
    obtain ⟨⟨tag, line⟩, later, rfl, rfl, hlater⟩ := List.map_eq_cons_iff.mp hwire
    refine ⟨_, rfl, later, output, rfl, ?_, hlater, hmatches.output, hmatches.begun, hmatches.quiet⟩
    exact ⟨hmatches.plain, hmatches.text, hmatches.single⟩
  · cases hstep

/-- Every step of the console that keeps to lines is the same step of the dialogue, but
for prints, which are those of the lines they complete, and for reads. -/
theorem step_simulated {enc : SystemEncoding} {s t : Console} {d : Dialogue} {e : ConsoleEvent} (hrefines : Refines s d)
    (hcond : InLines s e t) (hstep : step enc s e = some t) :
    ∃ es d', run Dialogue.step d es = some d' ∧ es.filterMap DialogueEvent.seen = e.seen.toList ∧ Refines t d' := by
  cases e with
  | execCommand cmd =>
    obtain ⟨d', hd, hnext⟩ := execCommand_simulated hrefines hstep
    exact ⟨[.execCommand cmd], d', (run_singleton _ _ _).trans hd, rfl, hnext⟩
  | execLongCommand cmd =>
    obtain ⟨d', hd, hnext⟩ := front_simulated hrefines (f := (Dialogue.step · (.execLongCommand cmd)))
      (Dialogue.execLongCommand_withTraffic _ · · cmd) (fun _ => Dialogue.command_pending (Or.inl ⟨cmd, rfl⟩)) hstep
    exact ⟨[.execLongCommand cmd], d', (run_singleton _ _ _).trans hd, rfl, hnext⟩
  | stopLongCommand =>
    obtain ⟨d', hd, hnext⟩ := front_simulated hrefines (f := (Dialogue.step · .stopLongCommand))
      (Dialogue.stopLongCommand_withTraffic _) (fun _ => Dialogue.command_pending (Or.inr rfl)) hstep
    exact ⟨[.stopLongCommand], d', (run_singleton _ _ _).trans hd, rfl, hnext⟩
  | client =>
    obtain ⟨d', hd, hnext⟩ := front_simulated hrefines (Dialogue.clientStep_withTraffic _)
      (fun _ => Dialogue.clientStep_pending) hstep
    exact ⟨[.client], d', (run_singleton _ _ _).trans hd, rfl, hnext⟩
  | print bytes =>
    obtain ⟨lines, d', hd, hnext⟩ := print_simulated hrefines hcond hstep
    refine ⟨lines.map .print, d', hd, ?_, hnext⟩
    rw [List.filterMap_map]
    exact List.filterMap_eq_nil_iff.mpr fun _ _ => rfl
  | prompt ending =>
    obtain ⟨d', hd, hnext⟩ := prompt_simulated hrefines hcond hstep
    exact ⟨[.prompt], d', (run_singleton _ _ _).trans hd, rfl, hnext⟩
  | read result => exact ⟨[], d, rfl, rfl, read_simulated hrefines hcond hstep⟩
  | deliver =>
    obtain ⟨d', hd, hnext⟩ := deliver_simulated hrefines hstep
    exact ⟨[.deliver], d', (run_singleton _ _ _).trans hd, rfl, hnext⟩

/-- Every run of the console that keeps to lines is a run of the dialogue. -/
theorem run_simulated {enc : SystemEncoding} {shell : Shell} {stack : CharArray 1024} {es : List ConsoleEvent}
    {t : Console} (hrun : run (step enc) (start shell stack) es = some t)
    (hcond : Along (step enc) InLines (start shell stack) es) :
    ∃ fs d, run Dialogue.step (Dialogue.start shell) fs = some d ∧
      fs.filterMap DialogueEvent.seen = es.filterMap ConsoleEvent.seen ∧ Refines t d := by
  apply run_refines_along Refines ConsoleEvent.seen DialogueEvent.seen _ (start_refines shell stack) hcond hrun
  exact fun s e t d hrefines hcond hstep => step_simulated hrefines hcond hstep

/-- A refined dialogue has printed, for every command, the lines that the console's bytes
terminate. -/
theorem Refines.outputOf_eq {s : Console} {d : Dialogue} (hrefines : Refines s d) (c : Nat) :
    d.outputOf c = (terminated isNewline (s.outputOf c)).map ascii := by
  obtain ⟨wire, output, rfl, hmatches⟩ := hrefines
  exact hmatches.output c

/-- The bytes that travel and the reads that cut them do not show: every run in which the
remote keeps to plain lines and every read that finds text carried completes it is the
run of a dialogue in lines, with the same calls, prompts and deliveries, the same shell
and the same results. -/
theorem refines_dialogue {enc : SystemEncoding} {shell : Shell} {stack : CharArray 1024} {es : List ConsoleEvent}
    {t : Console} (hrun : run (step enc) (start shell stack) es = some t)
    (hcond : Along (step enc) InLines (start shell stack) es) :
    ∃ fs d, run Dialogue.step (Dialogue.start shell) fs = some d ∧
      fs.filterMap DialogueEvent.seen = es.filterMap ConsoleEvent.seen ∧
      d.shell = t.shell ∧ d.client = t.client ∧ d.pending = t.pending ∧ d.settled = t.settled ∧
      d.returned = t.returned ∧ ∀ c, d.outputOf c = (terminated isNewline (t.outputOf c)).map ascii := by
  obtain ⟨fs, d, hd, hseen, hrefines⟩ := run_simulated hrun hcond
  refine ⟨fs, d, hd, hseen, ?_⟩
  have houtput := hrefines.outputOf_eq
  obtain ⟨wire, output, rfl, hmatches⟩ := hrefines
  exact ⟨rfl, rfl, rfl, settled_eq hmatches, rfl, houtput⟩

/-- A command is answered with a line in one read and another cut in two. -/
def answered : List ConsoleEvent :=
  [.execCommand "ls", .client, .client, .print [108, 115, 13, 10, 97],
    .read (readOf [108, 115, 13, 10, 97]), .deliver, .print [98, 10],
    .read (readOf [98, 10]), .deliver, .prompt [13, 10],
    .read (readOf [49, 50, 51, 108, 111, 103, 115, 49, 50, 51, 13, 10]), .deliver, .client]

theorem answered_inLines : Along (step latin1) InLines (start Dialogue.idleShell blankStack) answered := by
  decide +kernel

theorem run_answered : ∃ t, run (step latin1) (start Dialogue.idleShell blankStack) answered = some t ∧
    t.returned = [{ command := 0, clean := true, array := some 0, lines := some ["ls", "ab"], status := .commandComplete }] :=
  Option.map_eq_some_iff.mp (by decide +kernel)

theorem refines_dialogue_answered :
    ∃ t, run (step latin1) (start Dialogue.idleShell blankStack) answered = some t ∧
      ∃ fs d, run Dialogue.step (Dialogue.start Dialogue.idleShell) fs = some d ∧
        fs.filterMap DialogueEvent.seen = answered.filterMap ConsoleEvent.seen ∧
        d.shell = t.shell ∧ d.client = t.client ∧ d.pending = t.pending ∧ d.settled = t.settled ∧
        d.returned = t.returned ∧ ∀ c, d.outputOf c = (terminated isNewline (t.outputOf c)).map ascii := by
  obtain ⟨t, hrun, -⟩ := run_answered
  exact ⟨t, hrun, refines_dialogue hrun answered_inLines⟩

/-- Under the same conditions, a call that was entered with nothing outstanding returned
first lines of its own command, and all of them if the prompt ended it. -/
theorem returned_own_lines {enc : SystemEncoding} {shell : Shell} {stack : CharArray 1024} {es : List ConsoleEvent}
    {t : Console} (hrun : run (step enc) (start shell stack) es = some t)
    (hcond : Along (step enc) InLines (start shell stack) es) :
    ∀ r ∈ t.returned, r.clean = true → ∃ lines, r.lines = some lines ∧
      lines <+: (terminated isNewline (t.outputOf r.command)).map ascii ∧
      (r.status = .commandComplete → lines = (terminated isNewline (t.outputOf r.command)).map ascii) := by
  obtain ⟨fs, d, hd, -, hrefines⟩ := run_simulated hrun hcond
  have hinv : Dialogue.Inv d :=
    run_preserves Dialogue.Inv (fun _ _ _ hinv hstep => Dialogue.step_inv hinv hstep) (Dialogue.start_inv shell) hd
  intro r hr hclean
  rw [← hrefines.outputOf_eq r.command]
  obtain ⟨wire, output, rfl, -⟩ := hrefines
  exact (hinv.returned r hr hclean).1

theorem returned_own_lines_answered :
    ∃ t, run (step latin1) (start Dialogue.idleShell blankStack) answered = some t ∧
      ["ls", "ab"] = (terminated isNewline (t.outputOf 0)).map ascii := by
  obtain ⟨t, hrun, hreturned⟩ := run_answered
  obtain ⟨lines, hlines, -, hall⟩ := returned_own_lines hrun answered_inLines _ (hreturned ▸ List.mem_singleton_self _) rfl
  refine ⟨t, hrun, ?_⟩
  rw [← hall rfl]
  exact Option.some.inj hlines

end Console

end MPSsh.MPSshShell

import MPSsh.Shell.Chunking
import MPSsh.Shell.Status

open Segments MPSsh.MPLSChannel

namespace MPSsh.MPSshShell

/-- The non-empty lines of a command's output, a final unterminated one included. -/
def outputLines (output : List UInt8) : List (List UInt8) :=
  terminated isNewline output ++ if unterminated isNewline output = [] then [] else [unterminated isNewline output]

/-- The command's output as the remote shell sends it, with the prompt behind. -/
def framed (output : List UInt8) : List UInt8 :=
  output ++ utf8 LOGSPROMPT ++ [10]

/-- Every read ends at a line end. -/
def EndsAtNewlines (chunks : List (List UInt8)) : Prop :=
  ∀ chunk ∈ chunks, ∃ front b, chunk = front ++ [b] ∧ isNewline b = true

theorem ascii_prompt : ascii (utf8 LOGSPROMPT) = LOGSPROMPT := by decide

theorem utf8_prompt : utf8 LOGSPROMPT = [49, 50, 51, 108, 111, 103, 115, 49, 50, 51] := by decide

theorem plain_prompt : Plain (utf8 LOGSPROMPT) := by
  simp [Plain, utf8_prompt]

theorem prompt_none : ∀ b ∈ utf8 LOGSPROMPT, isNewline b = false := by
  simp [utf8_prompt, isNewline]

theorem unterminated_of_endsAtNewlines {chunks : List (List UInt8)} (hends : EndsAtNewlines chunks) :
    unterminated isNewline chunks.flatten = [] := by
  rcases List.eq_nil_or_concat chunks with rfl | ⟨before, last, rfl⟩
  · rfl
  · obtain ⟨front, b, rfl, hb⟩ := hends last (by simp)
    rw [List.concat_eq_append, List.flatten_append, List.flatten_singleton, ← List.append_assoc,
      unterminated_append_cons _ [] hb, unterminated_nil]

/-- Reads that end at line ends never find a line under way. -/
theorem carried_of_endsAtNewlines {chunks : List (List UInt8)} (hends : EndsAtNewlines chunks) :
    carried isNewline [] chunks = terminated isNewline chunks.flatten := by
  have hkept : KeptFrom isNewline [] chunks := by
    rintro before chunk after rfl hne
    have hbefore : EndsAtNewlines before := fun c hc => hends c (by simp [hc])
    exact absurd (unterminated_of_endsAtNewlines hbefore) hne
  rw [(carried_eq_terminated_iff (by simp) chunks).mpr hkept, List.nil_append]

/-- The prompt completes whatever line the output leaves open. -/
theorem terminated_framed (output : List UInt8) :
    terminated isNewline (framed output) =
      terminated isNewline output ++ [unterminated isNewline output ++ utf8 LOGSPROMPT] := by
  have hall : ∀ b ∈ unterminated isNewline output ++ utf8 LOGSPROMPT, isNewline b = false := by
    intro b hb
    rcases List.mem_append.mp hb with hb | hb
    · exact unterminated_none isNewline output b hb
    · exact prompt_none b hb
  have hne : unterminated isNewline output ++ utf8 LOGSPROMPT ≠ [] := by
    intro heq
    exact absurd (List.append_eq_nil_iff.mp heq).2 (by decide)
  rw [framed, List.append_assoc, terminated_append, ← List.append_assoc, terminated_first hall (by decide),
    if_neg hne]
  rfl

/-- The lines that the receiver sends for a framed output. -/
theorem receiver_framed (enc : SystemEncoding) {r : Receiver} (hcarry : r.res.getD "" = "") {output : List UInt8}
    (houtput : Plain output) {reads : List ReadResult} (hreads : Undisturbed reads)
    (hstream : stream reads = framed output) (hends : EndsAtNewlines (chunks reads)) :
    (receiverLoop enc r (reads.map (·, false))).sent = r.sent ++
      ((terminated isNewline output).map ascii ++ [ascii (unterminated isNewline output ++ utf8 LOGSPROMPT)]) := by
  have hplain : Plain (stream reads) := by
    rw [hstream, framed]
    exact plain_append.mpr ⟨plain_append.mpr ⟨houtput, plain_prompt⟩, by simp [Plain]⟩
  have hnone : r.res.getD "" = ascii [] := hcarry
  rw [receiverLoop_sent enc hnone hreads hplain, carried_of_endsAtNewlines hends]
  have hflat : (chunks reads).flatten = framed output := hstream
  rw [hflat, terminated_framed, List.map_append]
  rfl

/-- The shell after the receiver has handed it what the reads contain. -/
def receive (enc : SystemEncoding) (r : Receiver) (reads : List ReadResult) (shell : Shell) : Shell :=
  ((receiverLoop enc { r with sent := [] } (reads.map (·, false))).sent).foldl Shell.dataReceived shell

/-- The shell has recognised the prompt and collected exactly these lines. -/
def Decoded (shell : Shell) (lines : List String) : Prop :=
  shell.status = .commandComplete ∧ shell.result = some lines

instance (shell : Shell) (lines : List String) : Decidable (Decoded shell lines) :=
  inferInstanceAs (Decidable (_ ∧ _))

/-- What a waiting command makes of a framed output: the lines of the output,
then whatever the prompt's line has become. -/
theorem receive_framed (enc : SystemEncoding) {r : Receiver} (hcarry : r.res.getD "" = "") {output : List UInt8}
    (houtput : Plain output) (hlines : ∀ line ∈ outputLines output, ascii line ≠ LOGSPROMPT)
    {reads : List ReadResult} (hreads : Undisturbed reads) (hstream : stream reads = framed output)
    (hends : EndsAtNewlines (chunks reads)) {shell : Shell} (hstatus : shell.status = .command)
    (hempty : shell.result = some []) :
    ∃ before : Shell, before.status = .command ∧
      before.result = some ((terminated isNewline output).map ascii) ∧
      receive enc r reads shell =
        before.dataReceived (ascii (unterminated isNewline output ++ utf8 LOGSPROMPT)) := by
  have hempty' : ({ r with sent := [] } : Receiver).res.getD "" = "" := hcarry
  have hsent := receiver_framed enc hempty' houtput hreads hstream hends
  have hmore : ∀ data ∈ (terminated isNewline output).map ascii, data ≠ LOGSPROMPT := by
    intro data hdata
    obtain ⟨line, hline, rfl⟩ := List.mem_map.mp hdata
    exact hlines line (List.mem_append_left _ hline)
  obtain ⟨hafter, hcollected⟩ := Shell.foldl_dataReceived_lines hstatus hempty hmore
  refine ⟨_, hafter, hcollected, ?_⟩
  simp only [receive, hsent, List.nil_append, List.foldl_append, List.foldl_cons, List.foldl_nil]

/-- A waiting command decodes a framed output exactly when the output leaves no
line open for the prompt to join. -/
theorem receive_decodes_iff (enc : SystemEncoding) {r : Receiver} (hcarry : r.res.getD "" = "")
    {output : List UInt8} (houtput : Plain output)
    (hlines : ∀ line ∈ outputLines output, ascii line ≠ LOGSPROMPT) {reads : List ReadResult}
    (hreads : Undisturbed reads) (hstream : stream reads = framed output) (hends : EndsAtNewlines (chunks reads))
    {shell : Shell} (hstatus : shell.status = .command) (hempty : shell.result = some []) :
    Decoded (receive enc r reads shell) ((outputLines output).map ascii) ↔ unterminated isNewline output = [] := by
  obtain ⟨before, hbefore, hcollected, heq⟩ :=
    receive_framed enc hcarry houtput hlines hreads hstream hends hstatus hempty
  rw [heq]
  constructor
  · rintro ⟨hcomplete, -⟩
    by_contra hopen
    have hplain : Plain (unterminated isNewline output ++ utf8 LOGSPROMPT) :=
      plain_append.mpr ⟨houtput.subset (unterminated_subset output), plain_prompt⟩
    have hne : ascii (unterminated isNewline output ++ utf8 LOGSPROMPT) ≠ LOGSPROMPT := by
      intro hsame
      have hbytes := (ascii_inj hplain.ascii plain_prompt.ascii).mp (hsame.trans ascii_prompt.symm)
      exact hopen (List.append_left_eq_self.mp hbytes)
    rw [Shell.dataReceived_line hbefore hne, Shell.addObject_status, hbefore] at hcomplete
    cases hcomplete
  · intro hclosed
    rw [hclosed, List.nil_append, ascii_prompt, Shell.dataReceived_prompt hbefore]
    have hall : outputLines output = terminated isNewline output := by simp [outputLines, hclosed]
    rw [hall]
    exact ⟨rfl, hcollected⟩

/-- A shell that waits for a command's output. -/
def waiting : Shell where
  status := .command
  arrays := [[]]
  cmdResult := some 0
  cmdCounter := 0
  delegate := false
  notified := []

/-- A receiver before its first read. -/
def freshReceiver : Receiver where
  buffer := blankStack
  res := none
  sent := []

/-- `"hi\n"` and the prompt, in two reads. -/
def closedReads : List ReadResult :=
  [.bytes ⟨[104, 105, 10], by decide, by decide⟩, .bytes ⟨utf8 LOGSPROMPT ++ [10], by decide, by decide⟩]

theorem receive_decodes_iff_closedReads :
    Decoded (receive latin1 freshReceiver closedReads waiting) ((outputLines [104, 105, 10]).map ascii) ↔
      unterminated isNewline [104, 105, 10] = [] := by
  have hlines : outputLines [104, 105, 10] = [[104, 105]] := by decide
  have hne : ascii [104, 105] ≠ LOGSPROMPT := by decide
  refine receive_decodes_iff latin1 rfl (by simp [Plain]) (by simpa [hlines] using hne)
    (by simp [Undisturbed, closedReads]) (by decide) ?_ rfl rfl
  intro chunk hchunk
  simp only [chunks, closedReads, List.filterMap_cons, List.filterMap_nil, List.mem_cons, List.not_mem_nil,
    or_false] at hchunk
  rcases hchunk with rfl | rfl
  · exact ⟨[104, 105], 10, rfl, rfl⟩
  · exact ⟨utf8 LOGSPROMPT, 10, rfl, rfl⟩

/-- `"hi"` and the prompt in one read. -/
def openReads : List ReadResult :=
  [.bytes ⟨[104, 105] ++ utf8 LOGSPROMPT ++ [10], by decide, by decide⟩]

/-- The prompt behind an output without a final line end is not recognised. -/
theorem receive_misses_prompt :
    ¬ ∀ (enc : SystemEncoding) (r : Receiver) (output : List UInt8) (reads : List ReadResult) (shell : Shell),
      r.res.getD "" = "" → Plain output → (∀ line ∈ outputLines output, ascii line ≠ LOGSPROMPT) →
        Undisturbed reads → stream reads = framed output → EndsAtNewlines (chunks reads) →
          shell.status = .command → shell.result = some [] →
            Decoded (receive enc r reads shell) ((outputLines output).map ascii) := by
  intro halways
  have hplain : Plain [104, 105] := by simp [Plain]
  have hlines : ∀ line ∈ outputLines [104, 105], ascii line ≠ LOGSPROMPT := by
    have hall : outputLines [104, 105] = [[104, 105]] := by decide
    have hne : ascii [104, 105] ≠ LOGSPROMPT := by decide
    simpa [hall] using hne
  have hreads : Undisturbed openReads := by simp [Undisturbed, openReads]
  have hends : EndsAtNewlines (chunks openReads) := by
    intro chunk hchunk
    simp only [chunks, openReads, List.filterMap_cons, List.filterMap_nil, List.mem_singleton] at hchunk
    exact ⟨[104, 105] ++ utf8 LOGSPROMPT, 10, hchunk, rfl⟩
  have hdecoded := halways latin1 freshReceiver [104, 105] openReads waiting rfl hplain hlines hreads (by decide)
    hends rfl rfl
  obtain ⟨before, hbefore, -, heq⟩ :=
    receive_framed latin1 (show freshReceiver.res.getD "" = "" from rfl) hplain hlines hreads (by decide) hends
      (show waiting.status = .command from rfl) rfl
  have hne : ascii (unterminated isNewline [104, 105] ++ utf8 LOGSPROMPT) ≠ LOGSPROMPT := by decide
  rw [heq, Shell.dataReceived_line hbefore hne] at hdecoded
  have hcomplete := hdecoded.1
  rw [Shell.addObject_status, hbefore] at hcomplete
  cases hcomplete

end MPSsh.MPSshShell

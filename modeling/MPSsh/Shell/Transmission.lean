import MPSsh.Foundation
import MPSsh.Shell.Usage

open Schedule

namespace MPSsh.MPLSChannel

/-- What `libssh2_channel_write` returns for the bytes it is offered: an error, or how
many of them it accepts. -/
structure Library where
  channelWrite : List UInt8 → Int
  channelWrite_le : ∀ bytes, channelWrite bytes ≤ bytes.length

/-- The bytes that `write:` offers: `[cmd length]` ones of the C string `[cmd UTF8String]`. -/
def offered (cmd : String) : List UInt8 :=
  (utf8 cmd ++ [0]).take (utf16Length cmd)

/-- The bytes that the channel accepts in `write:`. -/
def write (library : Library) (cmd : String) : List UInt8 :=
  (offered cmd).take (library.channelWrite (offered cmd)).toNat

theorem offered_eq_take (cmd : String) : offered cmd = (utf8 cmd).take (utf16Length cmd) :=
  List.take_append_of_le_length (utf16Length_le_and_eq_iff cmd).1

theorem length_offered (cmd : String) : (offered cmd).length = utf16Length cmd := by
  have hle := (utf16Length_le_and_eq_iff cmd).1
  simp [offered_eq_take, hle]

/-- The UTF-16 length reaches the end of the bytes only when they are 7-bit characters. -/
theorem offered_eq_iff (cmd : String) : offered cmd = utf8 cmd ↔ IsAscii cmd := by
  obtain ⟨hle, heq⟩ := utf16Length_le_and_eq_iff cmd
  rw [offered_eq_take, List.take_eq_self_iff, ← heq]
  omega

theorem utf8_eq_nil {s : String} : utf8 s = [] ↔ s = "" := by
  constructor
  · intro hnil
    have hboxed := boxed_utf8 s
    rw [hnil] at hboxed
    exact (Option.some.inj hboxed).symm
  · rintro rfl
    rfl

/-- A text goes through `write:` whole when it is all offered and all accepted. -/
theorem write_eq_iff (library : Library) {cmd : String} (hne : cmd ≠ "") :
    write library cmd = utf8 cmd ↔
      IsAscii cmd ∧ library.channelWrite (offered cmd) = (offered cmd).length := by
  have hbound := library.channelWrite_le (offered cmd)
  have hpos := List.length_pos_iff.mpr (mt utf8_eq_nil.mp hne)
  obtain ⟨hle, heq⟩ := utf16Length_le_and_eq_iff cmd
  constructor
  · intro hwhole
    have hlength := congrArg List.length hwhole
    rw [write, List.length_take, length_offered] at hlength
    rw [length_offered] at hbound ⊢
    exact ⟨heq.mp (by omega), by omega⟩
  · rintro ⟨hascii, hall⟩
    rw [write, hall, Int.toNat_natCast, List.take_length, (offered_eq_iff cmd).mpr hascii]

end MPSsh.MPLSChannel

namespace MPSsh.MPSshShell

open MPLSChannel

theorem commandLine_none {cmd : String} : commandLine cmd = none ↔ cmd = "" := by
  unfold commandLine
  split
  · rename_i hnone
    rw [List.getLast?_eq_none_iff, String.toList_eq_nil_iff] at hnone
    simp [hnone]
  · rename_i last hlast
    have hne : cmd ≠ "" := by
      rintro rfl
      simp at hlast
    split <;> simp [hne]

/-- The line end that a command still needs. -/
def missingNewline (cmd : String) : String :=
  if cmd.toList.getLast? = some '\n' then "" else "\n"

theorem commandLine_some {cmd line : String} (hline : commandLine cmd = some line) :
    line = cmd ++ missingNewline cmd := by
  unfold commandLine at hline
  unfold missingNewline
  split at hline
  · cases hline
  · rename_i last hlast
    split at hline
    · rename_i hnewline
      obtain rfl := Option.some.inj hline
      simp [hlast, hnewline]
    · rename_i hnewline
      obtain rfl := Option.some.inj hline
      simp [hlast, hnewline]

theorem isAscii_missingNewline (cmd : String) : IsAscii (cmd ++ missingNewline cmd) ↔ IsAscii cmd := by
  have hnewline : ∀ c ∈ (missingNewline cmd).toList, c.toNat < 128 := by
    unfold missingNewline
    split <;> simp
  simp only [IsAscii, String.toList_append, List.forall_mem_append]
  exact and_iff_left hnewline

/-- The methods that send a command. -/
inductive Sender where
  | execCommand
  | execLongCommand
  deriving DecidableEq, Repr

/-- The steps of a method up to its write. -/
def Sender.untilWrite : Sender → String → List UsageEvent
  | .execCommand, cmd => [.execCommand cmd, .client, .client]
  | .execLongCommand, cmd => [.execLongCommand cmd, .client]

/-- What the channel accepts of a text. A message to `nil` does nothing. -/
def accepted (channel : Option Library) (line : String) : List UInt8 :=
  match channel with
  | none => []
  | some library => write library line

/-- The method reaches its write without an exception, and the channel accepts the
command and the line end it needs. -/
def Transmits (channel : Option Library) (method : Sender) (s : Usage) (cmd : String) : Prop :=
  ∃ t line, run Usage.step s (method.untilWrite cmd) = some t ∧ t.written = s.written ++ [line] ∧
    accepted channel line = utf8 (cmd ++ missingNewline cmd)

namespace Usage

/-- The empty command raises, and any other one is written with its line end. -/
theorem run_untilWrite {s : Usage} (hidle : s.client = .idle) (method : Sender) (cmd : String) :
    (commandLine cmd = none ∧ run step s (method.untilWrite cmd) = none) ∨
      ∃ t line, commandLine cmd = some line ∧ run step s (method.untilWrite cmd) = some t ∧
        t.written = s.written ++ [line] := by
  cases hline : commandLine cmd with
  | none =>
    refine Or.inl ⟨rfl, ?_⟩
    cases method <;> simp [Sender.untilWrite, run, step, hidle, hline]
  | some line =>
    refine Or.inr ?_
    cases method
    · simp [Sender.untilWrite, run, step, clientStep, hidle, hline]
    · simp [Sender.untilWrite, run, step, clientStep, writeLong, hidle, hline]

end Usage

/-- A command is transmitted whole if and only if it is a non-empty text of 7-bit
characters, and the channel is there and accepts all that it is offered. -/
theorem transmits_iff (channel : Option Library) (method : Sender) {s : Usage} (hidle : s.client = .idle)
    (cmd : String) :
    Transmits channel method s cmd ↔
      cmd ≠ "" ∧ IsAscii cmd ∧ ∃ library, channel = some library ∧
        ∀ line ∈ commandLine cmd, library.channelWrite (offered line) = (offered line).length := by
  obtain ⟨hnone, hraises⟩ | ⟨t, line, hline, hrun, hwritten⟩ := Usage.run_untilWrite hidle method cmd
  · have hempty := commandLine_none.mp hnone
    subst hempty
    simp [Transmits, hraises]
  · have hne : cmd ≠ "" := by
      rintro rfl
      cases hline
    have heq := commandLine_some hline
    have htransmits : Transmits channel method s cmd ↔ accepted channel line = utf8 line := by
      simp [Transmits, hrun, hwritten, heq]
    have hlineNe : line ≠ "" := by
      intro hempty
      simp [hempty, String.append_eq_empty_iff] at heq
      exact hne heq.1
    have hascii : IsAscii line ↔ IsAscii cmd := by rw [heq, isAscii_missingNewline]
    rw [htransmits]
    cases channel with
    | none => simp [accepted, Ne.symm (mt utf8_eq_nil.mp hlineNe)]
    | some library =>
      have hwhole := write_eq_iff library hlineNe
      simp [accepted, hwhole, hascii, hne, hline]

/-- A library that accepts whatever it is offered. -/
def eager : Library where
  channelWrite bytes := bytes.length
  channelWrite_le _ := Int.le_refl _

theorem transmits_iff_ls :
    Transmits (some eager) .execLongCommand Usage.start "ls" ↔
      "ls" ≠ "" ∧ IsAscii "ls" ∧ ∃ library, some eager = some library ∧
        ∀ line ∈ commandLine "ls", library.channelWrite (offered line) = (offered line).length :=
  transmits_iff (some eager) .execLongCommand rfl "ls"

/-- The last byte of `"é\n"` is not offered. -/
theorem command_truncated :
    ¬ ∀ (library : Library) (method : Sender) (s : Usage) (cmd : String),
      s.client = .idle → Transmits (some library) method s cmd := by
  intro halways
  obtain ⟨t, line, hrun, hwritten, haccepted⟩ := halways eager .execCommand Usage.start "é" rfl
  have hline : commandLine "é" = some "é\n" := by decide
  simp only [Sender.untilWrite, run, Usage.step, Usage.clientStep, Usage.start, hline, Option.bind_some,
    Option.some.injEq] at hrun
  subst hrun
  obtain rfl : "é\n" = line := by simpa [Usage.start] using hwritten
  exact absurd haccepted (by decide +kernel)

end MPSsh.MPSshShell

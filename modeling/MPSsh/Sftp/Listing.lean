import Mathlib.Data.List.Forall2
import MPSsh.SftpSession

namespace MPSsh

open MPLSChannel (EAGAIN)

variable {p : Platform}

/-- The name begins with a `'.'`. -/
def DirectoryEntry.Hidden (e : DirectoryEntry p) : Prop :=
  e.name.head? = some 46

instance (e : DirectoryEntry p) : Decidable e.Hidden :=
  inferInstanceAs (Decidable (_ = _))

/-- The bytes of the name are the text of a C string. For a hidden entry it is enough
that those up to its first NUL are a text. -/
def DirectoryEntry.Readable (e : DirectoryEntry p) : Prop :=
  (boxed (cString e.name)).isSome ∧ (¬ e.Hidden → 0 ∉ e.name)

namespace MPSftpSession

/-- What the library can return for a directory with these entries, and the entries
that are left when the loop ends. The length of an empty name looks like the end. -/
inductive Serves : List (DirectoryEntry p) → List (DirectoryEntry p) → Readdirs p → Prop where
  | finished (h : (0 : Int) ≤ 0 ∧ (0 : Int) ≠ EAGAIN) : Serves [] [] (.ended 0 h)
  | nameless (e : DirectoryEntry p) (entries : List (DirectoryEntry p)) (hname : e.name = [])
      (h : (0 : Int) ≤ 0 ∧ (0 : Int) ≠ EAGAIN) : Serves (e :: entries) (e :: entries) (.ended 0 h)
  | error (entries : List (DirectoryEntry p)) (rc : Int) (hrc : rc < 0) (h : rc ≤ 0 ∧ rc ≠ EAGAIN) :
      Serves entries entries (.ended rc h)
  | eagain {entries left : List (DirectoryEntry p)} {next : Readdirs p} (hnext : Serves entries left next) :
      Serves entries left (.eagain next)
  | entry (e : DirectoryEntry p) (h : 0 < e.name.length ∧ e.name.length < 512)
      {entries left : List (DirectoryEntry p)} {next : Readdirs p} (hnext : Serves entries left next) :
      Serves (e :: entries) left (.entry e h next)

theorem Serves.entries_eq {entries left : List (DirectoryEntry p)} {reads : Readdirs p}
    (hserves : Serves entries left reads) : entries = reads.delivered ++ left := by
  induction hserves with
  | finished | nameless | error => rfl
  | eagain hnext ih => exact ih
  | entry e h hnext ih => rw [Readdirs.delivered, List.cons_append, ← ih]

/-- The item has the name of the entry. -/
def Describes (item : MPSftpItem p) (e : DirectoryEntry p) : Prop :=
  item.name.map utf8 = some e.name

/-- An array that is returned holds an item for each of the entries that are not
hidden, in their order. -/
def Complete (entries : List (DirectoryEntry p)) (array : Option (List (MPSftpItem p))) : Prop :=
  ∀ items, array = some items → List.Forall₂ Describes items (entries.filter (¬ ·.Hidden))

theorem describes_directoryItem_iff (e : DirectoryEntry p) :
    Describes (directoryItem e) e ↔ (boxed (cString e.name)).isSome ∧ 0 ∉ e.name := by
  rw [Describes, directoryItem_name, ← cString_eq_self_iff]
  cases htext : boxed (cString e.name) with
  | none => simp
  | some text =>
    rw [boxed_eq_some_iff] at htext
    simp [htext]

theorem head_utf8_eq_dot_iff (text : String) : (utf8 text).head? = some 46 ↔ text.toList.head? = some '.' := by
  rw [utf8]
  cases text.toList with
  | nil => simp
  | cons c cs =>
    obtain ⟨b, rest, hencoded, hfirst⟩ := utf8EncodeChar_first c
    have hbyte : b = 46 ↔ b.toNat = 46 := UInt8.toNat_inj.symm
    have hdot : c = '.' ↔ c.toNat = 46 := Char.toNat_inj.symm
    rw [List.flatMap_cons, hencoded, List.cons_append, List.head?_cons, List.head?_cons, Option.some.injEq,
      Option.some.injEq, hbyte, hdot]
    omega

theorem hasPrefix_dot_iff (text : Option String) :
    hasPrefix text "." = true ↔ (text.map utf8).bind List.head? = some 46 := by
  cases text with
  | none => simp [hasPrefix]
  | some text =>
    rw [Option.map_some, Option.bind_some, head_utf8_eq_dot_iff]
    have hchars : ".".toList = ['.'] := rfl
    cases hlist : text.toList with
    | nil => simp [hasPrefix, hchars, hlist]
    | cons c cs => simp [hasPrefix, hchars, hlist, eq_comm (a := '.')]

/-- An entry is left out of the array when its name is a text that begins with a `'.'`. -/
theorem listed_iff (e : DirectoryEntry p) :
    listed e = true ↔ ((boxed (cString e.name)).isSome → ¬ e.Hidden) := by
  rw [listed, Bool.not_eq_true', ← Bool.not_eq_true, hasPrefix_dot_iff, directoryItem_name]
  cases htext : boxed (cString e.name) with
  | none => simp
  | some text =>
    rw [boxed_eq_some_iff] at htext
    have hhead : (cString e.name).head? = some 46 ↔ e.Hidden := by
      rw [DirectoryEntry.Hidden, cString]
      cases e.name with
      | nil => simp
      | cons b name =>
        by_cases hb : b = 0
        · simp [hb]
        · simp [hb]
    simp [htext, hhead]

theorem describes_directoryItem_iff_readable {e : DirectoryEntry p} (hlisted : listed e = true) :
    Describes (directoryItem e) e ↔ e.Readable ∧ ¬ e.Hidden := by
  rw [listed_iff] at hlisted
  rw [describes_directoryItem_iff, DirectoryEntry.Readable]
  constructor
  · rintro ⟨htext, hnul⟩
    exact ⟨⟨htext, fun _ => hnul⟩, hlisted htext⟩
  · rintro ⟨⟨htext, hnul⟩, hshown⟩
    exact ⟨htext, hnul hshown⟩

/-- The array lists the entries if and only if none but hidden ones are left and the
names of the others can be read. -/
theorem forall₂_describes_iff (delivered left : List (DirectoryEntry p)) :
    List.Forall₂ Describes ((delivered.filter listed).map directoryItem)
        ((delivered ++ left).filter (¬ ·.Hidden)) ↔
      (∀ e ∈ left, e.Hidden) ∧ ∀ e ∈ delivered, e.Readable := by
  induction delivered with
  | nil =>
    rw [List.filter_nil, List.map_nil, List.nil_append, List.forall₂_nil_left_iff, List.filter_eq_nil_iff]
    simp
  | cons e delivered ih =>
    rw [List.cons_append, List.forall_mem_cons]
    by_cases hhidden : e.Hidden
    · rw [List.filter_cons_of_neg (l := delivered ++ left) (by simpa using hhidden)]
      by_cases htext : (boxed (cString e.name)).isSome
      · -- The item is left out, as the entry is.
        have hout : ¬ listed e = true := fun h => (listed_iff e).mp h htext hhidden
        rw [List.filter_cons_of_neg hout, ih]
        have hreadable : e.Readable := ⟨htext, fun h => absurd hhidden h⟩
        simp only [hreadable, true_and]
      · -- The item has no name, and describes nothing.
        have hin : listed e = true := (listed_iff e).mpr fun h => absurd h htext
        rw [List.filter_cons_of_pos hin, List.map_cons]
        have hnone : (directoryItem e).name = none := by simpa [directoryItem_name] using htext
        constructor
        · intro hall
          obtain ⟨other, rest, hdescribes, -, -⟩ := List.forall₂_cons_left_iff.mp hall
          simp [Describes, hnone] at hdescribes
        · rintro ⟨-, hreadable, -⟩
          exact absurd hreadable.1 htext
    · have hin : listed e = true := (listed_iff e).mpr fun _ => hhidden
      rw [List.filter_cons_of_pos hin, List.filter_cons_of_pos (l := delivered ++ left) (by simpa using hhidden),
        List.map_cons, List.forall₂_cons, ih, describes_directoryItem_iff_readable hin]
      constructor
      · rintro ⟨⟨hreadable, -⟩, hleft, hrest⟩
        exact ⟨hleft, hreadable, hrest⟩
      · rintro ⟨hleft, hreadable, hrest⟩
        exact ⟨⟨hreadable, hhidden⟩, hleft, hrest⟩

/-- For every directory and everything the library can return for it, an array that is
returned lists the directory if and only if none but hidden entries are left when the
loop ends and the names of the others can be read. -/
theorem filesInDirectory_complete_iff (self : MPSftpSession) (directory : String) (opened : SftpHandle)
    {entries left : List (DirectoryEntry p)} {reads : Readdirs p} (hserves : Serves entries left reads) :
    Complete entries (self.filesInDirectory directory opened reads).2 ↔
      opened = 0 ∨ (∀ e ∈ left, e.Hidden) ∧ ∀ e ∈ reads.delivered, e.Readable := by
  rw [filesInDirectory_snd, hserves.entries_eq, ← forall₂_describes_iff]
  split
  · rename_i hnull
    simp [Complete, hnull]
  · rename_i hopened
    simp [Complete, hopened]

/-- A file of 3 bytes. -/
def plainAttributes : SftpAttributes p where
  flags := 0x5
  filesize := 3
  permissions := 0o100644

/-- `".profile"` and `"a.log"`. -/
def smallDirectory : List (DirectoryEntry .lp64) :=
  [⟨utf8 ".profile", plainAttributes⟩, ⟨utf8 "a.log", plainAttributes⟩]

/-- The listing is interrupted once, and finished. -/
def smallReads : Readdirs .lp64 :=
  .entry ⟨utf8 ".profile", plainAttributes⟩ (by decide)
    (.eagain (.entry ⟨utf8 "a.log", plainAttributes⟩ (by decide) (.ended 0 Readdirs.zero_ends)))

theorem filesInDirectory_complete_iff_smallReads :
    Complete smallDirectory ((initWithSftpSession 7).filesInDirectory "/var/log" 9 smallReads).2 ↔
      (9 : SftpHandle) = 0 ∨ (∀ e ∈ ([] : List (DirectoryEntry .lp64)), e.Hidden) ∧ ∀ e ∈ smallReads.delivered, e.Readable :=
  filesInDirectory_complete_iff _ _ _ (.entry _ _ (.eagain (.entry _ _ (.finished (by decide)))))

/-- An error of the transport after the first entry. -/
def brokenReads : Readdirs .lp64 :=
  .entry ⟨utf8 ".profile", plainAttributes⟩ (by decide) (.ended (-43) (by decide))

/-- A listing that an error has cut short is returned like a whole one. -/
theorem filesInDirectory_cut_short :
    ¬ ∀ (self : MPSftpSession) (directory : String) (opened : SftpHandle) (entries left : List (DirectoryEntry .lp64))
      (reads : Readdirs .lp64), Serves entries left reads →
        Complete entries (self.filesInDirectory directory opened reads).2 := by
  intro halways
  have hserves : Serves smallDirectory [⟨utf8 "a.log", plainAttributes⟩] brokenReads :=
    .entry _ _ (.error _ _ (by decide) _)
  have hlisted := halways (initWithSftpSession 7) "/var/log" 9 smallDirectory _ brokenReads hserves [] (by decide)
  rw [show smallDirectory.filter (¬ ·.Hidden) = [⟨utf8 "a.log", plainAttributes⟩] by decide] at hlisted
  cases hlisted

end MPSftpSession

end MPSsh

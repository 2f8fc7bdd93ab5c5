import MPSsh.SftpSession

namespace MPSsh

variable {p : Platform}

namespace SftpAttributes

/-- The size that the attributes tell, if they tell one. -/
def knownSize (attrs : SftpAttributes p) : Nat :=
  if attrs.flags &&& ATTR_SIZE ≠ 0 then attrs.filesize.toNat else 0

/-- The field `filesize` is kept by an `NSInteger`, and reads as 0 there when it means
nothing. -/
def Storable (attrs : SftpAttributes p) : Prop :=
  if attrs.flags &&& ATTR_SIZE ≠ 0 then attrs.filesize.toNat < 2 ^ (p.longWidth - 1)
  else 2 ^ p.longWidth ∣ attrs.filesize.toNat

end SftpAttributes

/-- A size that an `NSInteger` keeps is not negative. -/
theorem toInt_setWidth_eq_iff (filesize : BitVec 64) :
    (filesize.setWidth p.longWidth).toInt = filesize.toNat ↔ filesize.toNat < 2 ^ (p.longWidth - 1) := by
  have hbound := filesize.isLt
  have hwidth : p.longWidth = 32 ∨ p.longWidth = 64 := by cases p <;> simp [Platform.longWidth]
  rw [BitVec.toInt_eq_toNat_cond, BitVec.toNat_setWidth]
  rcases hwidth with hwidth | hwidth <;> rw [hwidth] <;> split <;> omega

theorem setWidth_eq_zero_iff (filesize : BitVec 64) :
    filesize.setWidth p.longWidth = 0 ↔ 2 ^ p.longWidth ∣ filesize.toNat := by
  have hzero : (0 : BitVec p.longWidth).toNat = 0 := BitVec.toNat_zero
  rw [← BitVec.toNat_inj, BitVec.toNat_setWidth, hzero, Nat.dvd_iff_mod_eq_zero]

namespace MPSftpSession

open SftpAttributes

/-- Two items for one file are the same, and have the size that its attributes tell. -/
structure Alike (attrs : SftpAttributes p) (listed asked : MPSftpItem p) : Prop where
  directory : listed.directory = asked.directory
  size : listed.size = asked.size
  exact : listed.size.toInt = attrs.knownSize

theorem directoryItem_alike_iff (path : String) (e : DirectoryEntry p) :
    Alike e.attrs (directoryItem e) (fileItem path e.attrs) ↔ e.attrs.Storable := by
  have hdirectory : (directoryItem e).directory = (fileItem path e.attrs).directory := by
    rw [Bool.eq_iff_iff, directoryItem_directory, fileItem_directory]
  have hsplit : Alike e.attrs (directoryItem e) (fileItem path e.attrs) ↔
      (directoryItem e).size = (fileItem path e.attrs).size ∧ (directoryItem e).size.toInt = e.attrs.knownSize :=
    ⟨fun h => ⟨h.size, h.exact⟩, fun h => ⟨hdirectory, h.1, h.2⟩⟩
  rw [hsplit, directoryItem_size, fileItem_size, Storable, knownSize]
  split
  · rw [toInt_setWidth_eq_iff]
    simp
  · rw [← setWidth_eq_zero_iff]
    constructor
    · exact fun h => h.1
    · intro hzero
      rw [hzero]
      exact ⟨rfl, BitVec.toInt_zero⟩

/-- For all attributes of a file, its items in the arrays of `filesInDirectory:` and the
ones that `file:` returns for it are alike if and only if the size can be stored. -/
theorem items_alike_iff (attrs : SftpAttributes p) :
    (∀ (self : MPSftpSession) (path : String) (opened : SftpHandle) (asked : MPSftpItem p),
      (self.file path opened (.succeeded attrs)).2 = some asked →
        ∀ (self : MPSftpSession) (directory : String) (opened : SftpHandle) (reads : Readdirs p)
          (items : List (MPSftpItem p)), (self.filesInDirectory directory opened reads).2 = some items →
            ∀ (i : Nat) (e : DirectoryEntry p) (item : MPSftpItem p), (reads.delivered.filter listed)[i]? = some e →
              e.attrs = attrs → items[i]? = some item → Alike attrs item asked) ↔
      attrs.Storable := by
  constructor
  · intro halike
    let e : DirectoryEntry p := ⟨[97], attrs⟩
    have hname : hasPrefix (boxed (cString [97])) "." = false := by decide +kernel
    have hlisted : listed e = true := by rw [listed, directoryItem_name, hname, Bool.not_false]
    have hlength : 0 < e.name.length ∧ e.name.length < 512 := by simp [e]
    have hfile : ((initWithSftpSession 1).file "a" 1 (.succeeded attrs)).2 = some (fileItem "a" attrs) := by
      simp [file, initWithSftpSession, made]
    have hlisting := filesInDirectory_snd (initWithSftpSession 1) "." 1 (.entry e hlength (.ended 0 Readdirs.zero_ends))
    rw [if_neg (by decide)] at hlisting
    have hfirst := halike _ _ _ _ hfile _ _ _ _ _ hlisting 0 e (directoryItem e) (by simp [Readdirs.delivered, hlisted])
      rfl (by simp [Readdirs.delivered, hlisted])
    exact (directoryItem_alike_iff "a" e).mp hfirst
  · rintro hstorable self path opened asked hasked self' directory opened' reads items hitems i e item he rfl hitem
    rw [filesInDirectory_snd] at hitems
    split at hitems
    · cases hitems
    · obtain rfl := Option.some.inj hitems
      obtain rfl : directoryItem e = item := by simpa [he] using hitem
      simp only [file] at hasked
      split at hasked
      · cases hasked
      · obtain rfl := Option.some.inj hasked
        exact (directoryItem_alike_iff path e).mpr hstorable

/-- No flag is set, and the size is not filled in. -/
def unknownAttributes : SftpAttributes .lp64 where
  flags := 0
  filesize := 3
  permissions := 0

/-- The listing takes a size that means nothing. -/
theorem items_differ :
    ¬ ∀ (attrs : SftpAttributes .lp64) (self : MPSftpSession) (path : String) (opened : SftpHandle)
      (asked : MPSftpItem .lp64), (self.file path opened (.succeeded attrs)).2 = some asked →
        ∀ (self : MPSftpSession) (directory : String) (opened : SftpHandle) (reads : Readdirs .lp64)
          (items : List (MPSftpItem .lp64)), (self.filesInDirectory directory opened reads).2 = some items →
            ∀ (i : Nat) (e : DirectoryEntry .lp64) (item : MPSftpItem .lp64),
              (reads.delivered.filter listed)[i]? = some e → e.attrs = attrs → items[i]? = some item →
                Alike attrs item asked := by
  intro halways
  have halike := halways unknownAttributes (initWithSftpSession 7) "/var/log/a" 9
    (fileItem "/var/log/a" unknownAttributes) rfl (initWithSftpSession 7) "/var/log" 9
    (.entry ⟨[97], unknownAttributes⟩ (by decide) (.ended 0 Readdirs.zero_ends)) [directoryItem ⟨[97], unknownAttributes⟩]
    (by decide +kernel) 0 ⟨[97], unknownAttributes⟩ (directoryItem ⟨[97], unknownAttributes⟩) (by decide +kernel) rfl rfl
  exact absurd halike.size (by decide +kernel)

end MPSftpSession

end MPSsh

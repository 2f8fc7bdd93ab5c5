import MPSsh.Channel
import MPSsh.Foundation

namespace MPSsh

open MPLSChannel (EAGAIN)

/-- The data models of the devices. -/
inductive Platform where
  | ilp32
  | lp64
  deriving DecidableEq, Repr

/-- The width of `unsigned long` and of `NSInteger`. -/
def Platform.longWidth : Platform → Nat
  | .ilp32 => 32
  | .lp64 => 64

/-- `LIBSSH2_SFTP_ATTRIBUTES`. A field is meaningful only if its flag is set. -/
structure SftpAttributes (p : Platform) where
  flags : BitVec p.longWidth
  filesize : BitVec 64
  permissions : BitVec p.longWidth
  deriving DecidableEq

namespace SftpAttributes

variable {p : Platform}

def ATTR_SIZE : BitVec p.longWidth := 0x1

def ATTR_PERMISSIONS : BitVec p.longWidth := 0x4

/-- The type of file mask. -/
def S_IFMT : BitVec p.longWidth := 0o170000

def S_ISDIR (m : BitVec p.longWidth) : Bool :=
  m &&& S_IFMT = 0o040000

def S_ISLNK (m : BitVec p.longWidth) : Bool :=
  m &&& S_IFMT = 0o120000

end SftpAttributes

/-- The property `size` is an `NSInteger`, read as a signed number. -/
structure MPSftpItem (p : Platform) where
  directory : Bool
  name : Option String
  size : BitVec p.longWidth
  deriving DecidableEq

/-- `[[MPSftpItem alloc] init]`. -/
def MPSftpItem.init {p : Platform} : MPSftpItem p where
  directory := false
  name := none
  size := 0

/-- An entry of a directory on the server. -/
structure DirectoryEntry (p : Platform) where
  name : List UInt8
  attrs : SftpAttributes p
  deriving DecidableEq

/-- The results of the calls of `libssh2_sftp_readdir_ex` in a listing, up to the one
that ends the loop. A positive result is the length of a name, which has been copied
to the array of 512 bytes with a NUL behind it. -/
inductive Readdirs (p : Platform) where
  | ended (rc : Int) (h : rc ≤ 0 ∧ rc ≠ EAGAIN)
  | eagain (next : Readdirs p)
  | entry (e : DirectoryEntry p) (h : 0 < e.name.length ∧ e.name.length < 512) (next : Readdirs p)

namespace Readdirs

variable {p : Platform}

/-- The result 0 says that the directory has no more entries. -/
theorem zero_ends : (0 : Int) ≤ 0 ∧ (0 : Int) ≠ EAGAIN := by decide

def length : Readdirs p → Nat
  | .ended _ _ => 1
  | .eagain next => next.length + 1
  | .entry _ _ next => next.length + 1

/-- The entries that the calls return. -/
def delivered : Readdirs p → List (DirectoryEntry p)
  | .ended _ _ => []
  | .eagain next => next.delivered
  | .entry e _ next => e :: next.delivered

end Readdirs

/-- The result of `libssh2_sftp_stat`, with the attributes that it has filled in. -/
inductive StatResult (p : Platform) where
  | succeeded (attrs : SftpAttributes p)
  | failed (rc : Int) (h : rc ≠ 0)

/-- A value of type `LIBSSH2_SFTP *`. -/
abbrev SftpPointer := Nat

/-- A value of type `LIBSSH2_SFTP_HANDLE *`. -/
abbrev SftpHandle := Nat

/-- The library calls of the methods. The first two come with what they return, and
`close` is the function behind `libssh2_sftp_closedir`. -/
inductive SftpCall where
  | openFile (path : List UInt8) (returned : SftpHandle)
  | opendir (path : List UInt8) (returned : SftpHandle)
  | stat (path : List UInt8)
  | readdir (handle : SftpHandle)
  | close (handle : SftpHandle)
  | shutdown (session : SftpPointer)
  deriving DecidableEq, Repr

/-- The object, with the library calls that its methods have made. -/
structure MPSftpSession where
  sftp_session : SftpPointer
  sftp_handle : SftpHandle
  calls : List SftpCall
  deriving DecidableEq, Repr

/-- `-[NSString lastPathComponent]`. -/
def lastPathComponent (path : String) : String :=
  match ((path.toList.splitOn '/').filter (!·.isEmpty)).getLast? with
  | some component => .ofList component
  | none => if path.isEmpty then "" else "/"

namespace MPSftpSession

open SftpAttributes

variable {p : Platform}

def initWithSftpSession (s : SftpPointer) : MPSftpSession where
  sftp_session := s
  sftp_handle := 0
  calls := []

def made (self : MPSftpSession) (c : SftpCall) : MPSftpSession :=
  { self with calls := self.calls ++ [c] }

/-- The item that `file:` builds. -/
def fileItem (path : String) (attrs : SftpAttributes p) : MPSftpItem p :=
  let ret : MPSftpItem p := { MPSftpItem.init with name := some (lastPathComponent path) }
  let ret :=
    if attrs.flags &&& ATTR_PERMISSIONS ≠ 0 then
      let ret := if S_ISDIR attrs.permissions then { ret with directory := true } else ret
      if S_ISLNK attrs.permissions then { ret with directory := true } else ret
    else ret
  if attrs.flags &&& ATTR_SIZE ≠ 0 then { ret with size := attrs.filesize.setWidth p.longWidth } else ret

theorem fileItem_directory (path : String) (attrs : SftpAttributes p) :
    (fileItem path attrs).directory = true ↔
      attrs.flags &&& ATTR_PERMISSIONS ≠ 0 ∧ (S_ISDIR attrs.permissions ∨ S_ISLNK attrs.permissions) := by
  simp only [fileItem, apply_ite MPSftpItem.directory, MPSftpItem.init, ite_self]
  by_cases hflag : attrs.flags &&& ATTR_PERMISSIONS = 0 <;> cases hdir : S_ISDIR attrs.permissions <;>
    simp [hflag]

theorem fileItem_size (path : String) (attrs : SftpAttributes p) :
    (fileItem path attrs).size = if attrs.flags &&& ATTR_SIZE ≠ 0 then attrs.filesize.setWidth p.longWidth else 0 := by
  simp only [fileItem, apply_ite MPSftpItem.size, MPSftpItem.init, ite_self]

/-- The result is `nil` unless the library opens the file and knows its attributes.
The path is not `nil`. -/
def file (self : MPSftpSession) (path : String) (opened : SftpHandle) (stat : StatResult p) :
    MPSftpSession × Option (MPSftpItem p) :=
  let self := { self.made (.openFile (cString (utf8 path)) opened) with sftp_handle := opened }
  if self.sftp_handle = 0 then (self, none)
  else
    match stat with
    | .succeeded attrs => (self.made (.stat (cString (utf8 path))), some (fileItem path attrs))
    | .failed _ _ => (self.made (.stat (cString (utf8 path))), none)

/-- The item that `filesInDirectory:` builds for an entry. -/
def directoryItem (e : DirectoryEntry p) : MPSftpItem p :=
  let item : MPSftpItem p := { MPSftpItem.init with name := boxed (cString e.name) }
  let item :=
    if e.attrs.flags &&& ATTR_PERMISSIONS ≠ 0 then
      let item := if S_ISDIR e.attrs.permissions then { item with directory := true } else item
      if S_ISLNK e.attrs.permissions then { item with directory := true } else item
    else item
  { item with size := e.attrs.filesize.setWidth p.longWidth }

theorem directoryItem_name (e : DirectoryEntry p) : (directoryItem e).name = boxed (cString e.name) := by
  simp only [directoryItem, apply_ite MPSftpItem.name, ite_self]

theorem directoryItem_directory (e : DirectoryEntry p) :
    (directoryItem e).directory = true ↔
      e.attrs.flags &&& ATTR_PERMISSIONS ≠ 0 ∧ (S_ISDIR e.attrs.permissions ∨ S_ISLNK e.attrs.permissions) := by
  simp only [directoryItem, apply_ite MPSftpItem.directory, MPSftpItem.init]
  by_cases hflag : e.attrs.flags &&& ATTR_PERMISSIONS = 0 <;> cases hdir : S_ISDIR e.attrs.permissions <;>
    simp [hflag]

theorem directoryItem_size (e : DirectoryEntry p) :
    (directoryItem e).size = e.attrs.filesize.setWidth p.longWidth := rfl

/-- The loop of `filesInDirectory:`. -/
def readEntries (self : MPSftpSession) : Readdirs p → List (MPSftpItem p) → MPSftpSession × List (MPSftpItem p)
  | .ended _ _, ret => (self.made (.readdir self.sftp_handle), ret)
  | .eagain next, ret => (self.made (.readdir self.sftp_handle)).readEntries next ret
  | .entry e _ next, ret =>
    let item := directoryItem e
    (self.made (.readdir self.sftp_handle)).readEntries next
      (if hasPrefix item.name "." then ret else ret ++ [item])

/-- The entry makes it into the array. -/
def listed (e : DirectoryEntry p) : Bool :=
  !hasPrefix (directoryItem e).name "."

theorem readEntries_eq (self : MPSftpSession) (reads : Readdirs p) (ret : List (MPSftpItem p)) :
    self.readEntries reads ret =
      ({ self with calls := self.calls ++ List.replicate reads.length (.readdir self.sftp_handle) },
        ret ++ (reads.delivered.filter listed).map directoryItem) := by
  induction reads generalizing self ret with
  | ended rc h => simp [readEntries, Readdirs.length, Readdirs.delivered, made]
  | eagain next ih => simp [readEntries, ih, Readdirs.length, Readdirs.delivered, made, List.replicate_succ]
  | entry e h next ih =>
    rw [readEntries, ih]
    by_cases hhidden : hasPrefix (directoryItem e).name "." = true
    · simp [Readdirs.length, Readdirs.delivered, listed, made, List.replicate_succ, hhidden]
    · simp [Readdirs.length, Readdirs.delivered, listed, made, List.replicate_succ, hhidden]

/-- The directory is not `nil`. -/
def filesInDirectory (self : MPSftpSession) (directory : String) (opened : SftpHandle) (reads : Readdirs p) :
    MPSftpSession × Option (List (MPSftpItem p)) :=
  let self := { self.made (.opendir (cString (utf8 directory)) opened) with sftp_handle := opened }
  if self.sftp_handle = 0 then (self, none)
  else
    let (self, ret) := self.readEntries reads []
    (self, some ret)

theorem filesInDirectory_snd (self : MPSftpSession) (directory : String) (opened : SftpHandle) (reads : Readdirs p) :
    (self.filesInDirectory directory opened reads).2 =
      if opened = 0 then none else some ((reads.delivered.filter listed).map directoryItem) := by
  simp only [filesInDirectory, readEntries_eq]
  split <;> rfl

def dealloc (self : MPSftpSession) : MPSftpSession :=
  let self :=
    if self.sftp_handle ≠ 0 then { self.made (.close self.sftp_handle) with sftp_handle := 0 } else self
  if self.sftp_session ≠ 0 then { self.made (.shutdown self.sftp_session) with sftp_session := 0 } else self

end MPSftpSession

end MPSsh

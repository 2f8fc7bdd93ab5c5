import MPSsh.Base.Schedule
import MPSsh.SftpSession

open Schedule

namespace MPSsh.MPSftpSession

variable {p : Platform}

/-- A call of one of the methods, with what the library returns in it. -/
inductive Request (p : Platform) where
  | file (path : String) (opened : SftpHandle) (stat : StatResult p)
  | filesInDirectory (directory : String) (opened : SftpHandle) (reads : Readdirs p)

namespace Request

/-- What the library returns for the handle. -/
def opened : Request p → SftpHandle
  | .file _ opened _ => opened
  | .filesInDirectory _ opened _ => opened

/-- The calls of the library. -/
def calls : Request p → List SftpCall
  | .file path opened _ =>
    .openFile (cString (utf8 path)) opened :: if opened = 0 then [] else [.stat (cString (utf8 path))]
  | .filesInDirectory directory opened reads =>
    .opendir (cString (utf8 directory)) opened ::
      if opened = 0 then [] else List.replicate reads.length (.readdir opened)

end Request

def perform (self : MPSftpSession) : Request p → MPSftpSession
  | .file path opened stat => (self.file path opened stat).1
  | .filesInDirectory directory opened reads => (self.filesInDirectory directory opened reads).1

/-- Every call puts the new handle in the place of the old one. -/
theorem perform_eq (self : MPSftpSession) (request : Request p) :
    self.perform request = { self with sftp_handle := request.opened, calls := self.calls ++ request.calls } := by
  cases request with
  | file path opened stat =>
    simp only [perform, file, Request.calls, Request.opened]
    split
    · rfl
    · cases stat <;> simp [made]
  | filesInDirectory directory opened reads =>
    simp only [perform, filesInDirectory, readEntries_eq, Request.calls, Request.opened]
    split
    · rfl
    · simp [made]

/-- The handles that are open, and whether the session has been shut down. -/
structure Library where
  opened : List SftpHandle
  shut : Bool
  deriving DecidableEq, Repr

/-- The library between the calls. There is no next state after a call on a handle
that is not open, a shutdown that leaves handles open, or a call that comes later. -/
def Library.step (library : Library) : SftpCall → Option Library
  | .openFile _ h | .opendir _ h =>
    if library.shut then none
    else if h = 0 then some library
    else some { library with opened := h :: library.opened }
  | .stat _ => if library.shut then none else some library
  | .readdir h => if h ∈ library.opened ∧ library.shut = false then some library else none
  | .close h =>
    if h ∈ library.opened ∧ library.shut = false then some { library with opened := library.opened.erase h } else none
  | .shutdown _ => if library.opened = [] ∧ library.shut = false then some { library with shut := true } else none

/-- Every handle that is returned is closed exactly once, before the session is shut
down, and none is used or closed after that. -/
def Tidy (calls : List SftpCall) : Prop :=
  ∃ shut, run Library.step ⟨[], false⟩ calls = some ⟨[], shut⟩

theorem run_readdirs {h : SftpHandle} {opened : List SftpHandle} (hopen : h ∈ opened) (n : Nat) :
    run Library.step ⟨opened, false⟩ (List.replicate n (.readdir h)) = some ⟨opened, false⟩ := by
  induction n with
  | zero => rfl
  | succ n ih => simpa [List.replicate_succ, run, Library.step, hopen] using ih

/-- A request leaves its handle open. -/
theorem run_request (opened : List SftpHandle) (request : Request p) :
    run Library.step ⟨opened, false⟩ request.calls =
      some ⟨if request.opened = 0 then opened else request.opened :: opened, false⟩ := by
  cases request with
  | file path h stat =>
    by_cases hnull : h = 0 <;> simp [Request.calls, Request.opened, run, Library.step, hnull]
  | filesInDirectory directory h reads =>
    by_cases hnull : h = 0
    · simp [Request.calls, Request.opened, run, Library.step, hnull]
    · have hreaddirs : run Library.step ⟨h :: opened, false⟩ (List.replicate reads.length (.readdir h)) =
          some ⟨h :: opened, false⟩ := run_readdirs List.mem_cons_self reads.length
      simpa [Request.calls, Request.opened, run, Library.step, hnull] using hreaddirs

/-- The handles that requests leave open. -/
def leftOpen (requests : List (Request p)) : List SftpHandle :=
  ((requests.map Request.opened).filter (· ≠ 0)).reverse

/-- The object after some requests, and the library. -/
theorem run_requests (s : SftpPointer) (requests : List (Request p)) :
    ∃ calls, requests.foldl perform (initWithSftpSession s) =
        { sftp_session := s, sftp_handle := (requests.getLast?.map Request.opened).getD 0, calls } ∧
      run Library.step ⟨[], false⟩ calls = some ⟨leftOpen requests, false⟩ := by
  induction requests using List.reverseRecOn with
  | nil => exact ⟨[], rfl, rfl⟩
  | append_singleton requests request ih =>
    obtain ⟨calls, hobject, hrun⟩ := ih
    refine ⟨calls ++ request.calls, ?_, ?_⟩
    · simp [hobject, perform_eq]
    · rw [run_append hrun, run_request]
      by_cases hnull : request.opened = 0 <;> simp [leftOpen, hnull]

theorem leftOpen_eq_nil_iff (requests : List (Request p)) : leftOpen requests = [] ↔ ∀ r ∈ requests, r.opened = 0 := by
  simp [leftOpen, List.filter_eq_nil_iff]

theorem leftOpen_append_singleton (requests : List (Request p)) (request : Request p) :
    leftOpen (requests ++ [request]) =
      if request.opened = 0 then leftOpen requests else request.opened :: leftOpen requests := by
  by_cases hnull : request.opened = 0 <;> simp [leftOpen, hnull]

/-- The only handle that the end of the object closes is the last one. -/
theorem dealloc_tidy_iff {self : MPSftpSession} {rest : List SftpHandle}
    (hrun : run Library.step ⟨[], false⟩ self.calls =
      some ⟨if self.sftp_handle = 0 then rest else self.sftp_handle :: rest, false⟩) :
    Tidy self.dealloc.calls ↔ rest = [] := by
  obtain ⟨session, handle, calls⟩ := self
  have hclosed : ∃ closed, (dealloc ⟨session, handle, calls⟩).calls =
      closed ++ (if session = 0 then [] else [.shutdown session]) ∧
        run Library.step ⟨[], false⟩ closed = some ⟨rest, false⟩ := by
    by_cases hnull : handle = 0
    · refine ⟨calls, ?_, by simpa [hnull] using hrun⟩
      by_cases hsession : session = 0 <;> simp [dealloc, made, hnull, hsession]
    · refine ⟨calls ++ [.close handle], ?_, ?_⟩
      · by_cases hsession : session = 0 <;> simp [dealloc, made, hnull, hsession]
      · rw [run_append hrun]
        simp [run, Library.step, hnull]
  obtain ⟨closed, hcalls, hrest⟩ := hclosed
  rw [Tidy, hcalls, run_append hrest]
  by_cases hsession : session = 0
  · simp [hsession]
  · cases rest <;> simp [run, Library.step, hsession]

/-- For every sequence of calls of the two methods and everything that the library
returns in them, the handles are all closed when the object is deallocated, and used
as they have to be, if and only if no call but the last one got a handle. -/
theorem requests_tidy_iff (s : SftpPointer) (requests : List (Request p)) :
    Tidy ((requests.foldl perform (initWithSftpSession s)).dealloc).calls ↔
      ∀ request ∈ requests.dropLast, request.opened = 0 := by
  obtain ⟨calls, hobject, hrun⟩ := run_requests s requests
  rw [hobject, ← leftOpen_eq_nil_iff]
  apply dealloc_tidy_iff
  rw [hrun]
  rcases List.eq_nil_or_concat requests with rfl | ⟨before, last, rfl⟩
  · rfl
  · simp [leftOpen_append_singleton]

/-- The size of a file is asked for, and its directory is listed. -/
def twoRequests : List (Request .lp64) :=
  [.file "/var/log/a.log" 9 (.failed (-31) (by decide)), .filesInDirectory "/var/log" 10 (.ended 0 (by decide))]

/-- The first of two handles is never closed. -/
theorem requests_leak :
    ¬ ∀ (s : SftpPointer) (requests : List (Request .lp64)),
      Tidy ((requests.foldl perform (initWithSftpSession s)).dealloc).calls := by
  intro halways
  obtain ⟨shut, hrun⟩ := halways 7 twoRequests
  revert shut
  decide

end MPSsh.MPSftpSession

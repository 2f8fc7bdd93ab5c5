import MPSsh.Shell.ReadBuffer
import MPSsh.Shell.Scan

open Interaction Segments MPSsh.MPLSChannel

namespace MPSsh.MPSshShell

/-- A receiver without memory of its own: the strings it has delivered, and the text it
carries. -/
structure Reader where
  sent : List String
  res : Option String
  deriving DecidableEq, Repr

namespace Reader

/-- Data delivers the segments that it terminates, each up to its first NUL, and its rest
takes the place of the carried text. -/
def read (enc : SystemEncoding) (r : Reader) : ReadResult → Reader
  | .bytes chunk =>
    { sent := r.sent ++ withCarry enc r.res (terminated isNewline chunk.bytes)
      res := boxed (cString (unterminated isNewline chunk.bytes)) }
  | .failed _ _ => r

/-- Data, a would-block result and the end of the file let the loop go on. -/
def goesOn : ReadResult → Bool
  | .bytes _ => true
  | .failed rc _ => rc = EAGAIN || rc = 0

/-- The reader makes its reads up to the first one that ends the loop. -/
def readAll (enc : SystemEncoding) : Reader → List (ReadResult × Bool) → Reader
  | r, [] => r
  | r, (result, stopCmd) :: reads =>
    if goesOn result = true ∧ stopCmd = false then readAll enc (r.read enc result) reads else r.read enc result

/-- What `readBuffer` makes of its reads, without a buffer. -/
def join (ret : String) : List ReadResult → Option (Outcome String)
  | [] => none
  | .bytes chunk :: reads =>
    match boxed (cString chunk.bytes) with
    | some line => join (ret ++ line) reads
    | none => some .raised
  | .failed _ _ :: _ => some (.returns ret)

end Reader

/-- The receiver seen without its buffer. -/
def Receiver.reader (r : Receiver) : Reader where
  sent := r.sent
  res := r.res

theorem goesOn_iff (enc : SystemEncoding) (r : Receiver) (result : ReadResult) :
    (receiverBody enc r result).2 ≥ 0 ↔ Reader.goesOn result = true := by
  cases result with
  | bytes chunk => simp [receiverBody, Reader.goesOn]
  | failed rc h =>
    simp only [receiverBody, Reader.goesOn, Bool.or_eq_true, decide_eq_true_eq]
    split
    · simp [*]
    · simp only [*, false_or]
      omega

/-- A read does to the receiver what it does to the reader. -/
theorem receiverBody_reader (enc : SystemEncoding) (r : Receiver) (result : ReadResult) :
    (receiverBody enc r result).1.reader = r.reader.read enc result := by
  cases result with
  | failed rc h => rfl
  | bytes chunk =>
    obtain ⟨hsent, hres⟩ := receiverBody_bytes enc r chunk
    rw [Receiver.reader, hsent, hres]
    rfl

theorem receiverLoop_reader (enc : SystemEncoding) (r : Receiver) (reads : List (ReadResult × Bool)) :
    (receiverLoop enc r reads).reader = r.reader.readAll enc reads := by
  induction reads generalizing r with
  | nil => rfl
  | cons read reads ih =>
    obtain ⟨result, stopCmd⟩ := read
    rw [receiverLoop, Reader.readAll]
    simp only [goesOn_iff, ← receiverBody_reader]
    split
    · exact ih _
    · rfl

/-- For every stack and every sequence of reads, whatever their bytes and wherever the
loop ends: the receiver delivers and carries what the reader does, in which nothing
stands for the memory that the receiver has found. -/
theorem receiver_refines_reader (enc : SystemEncoding) (stack : CharArray 1024) (reads : List (ReadResult × Bool)) :
    (receiver enc stack reads).reader = Reader.readAll enc { sent := [], res := none } reads :=
  receiverLoop_reader enc _ reads

/-- Neither does what `readBuffer` returns depend on the stack. -/
theorem readBuffer_refines_join (stack : CharArray 0x4000) (reads : List ReadResult) :
    readBuffer stack reads = Reader.join "" reads := by
  have hloop (buffer : CharArray 0x4000) (ret : String) : readBufferLoop buffer ret reads = Reader.join ret reads := by
    induction reads generalizing buffer ret with
    | nil => rfl
    | cons read reads ih =>
      cases read with
      | failed rc h => rfl
      | bytes chunk =>
        rw [readBufferLoop, Reader.join]
        simp only [stringAt_chunk]
        cases boxed (cString chunk.bytes) with
        | none => rfl
        | some line => exact ih _ _
  exact hloop stack ""

end MPSsh.MPSshShell

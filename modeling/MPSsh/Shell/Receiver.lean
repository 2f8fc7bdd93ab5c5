import MPSsh.Base.Segments
import MPSsh.Channel
import MPSsh.Foundation

namespace MPSsh.MPSshShell

open MPLSChannel

/-- The test `buffer[ii] == '\n' || buffer[ii] == '\r'`. -/
def isNewline (b : UInt8) : Bool :=
  b == 10 || b == 13

/-- The variables of the scan loop, with the strings that `dataReceived:` got. -/
structure Scan where
  buffer : CharArray 1024
  nextstart : Nat
  aChar : Bool
  res : Option String
  sent : List String

/-- The body of the scan loop at index `ii`. -/
def scanByte (enc : SystemEncoding) (s : Scan) (ii : Nat) : Scan :=
  if isNewline (s.buffer.read ii) then
    let buffer := s.buffer.write ii 0
    if s.aChar then
      { buffer
        nextstart := ii + 1
        aChar := false
        res := none
        sent := s.sent ++ [s.res.getD "" ++ enc.decode (buffer.stringAt s.nextstart)] }
    else
      { s with buffer, nextstart := ii + 1 }
  else
    { s with aChar := true }

/-- The scan loop before the iteration with index `ii`. -/
def scanTo (enc : SystemEncoding) (s : Scan) : Nat → Scan
  | 0 => s
  | ii + 1 => scanByte enc (scanTo enc s ii) ii

/-- What `receiver` keeps from one read to the next. -/
structure Receiver where
  buffer : CharArray 1024
  res : Option String
  sent : List String

/-- The state in which the scan loop starts after a read. -/
def scanStart (r : Receiver) (chunk : Chunk) : Scan where
  buffer := (r.buffer.fill chunk.bytes).write chunk.bytes.length 0
  nextstart := 0
  aChar := false
  res := r.res
  sent := r.sent

/-- One iteration of the read loop, with the value of `rc1` that the loop
condition tests. -/
def receiverBody (enc : SystemEncoding) (r : Receiver) : ReadResult → Receiver × Int
  | .bytes chunk =>
    let s := scanTo enc (scanStart r chunk) chunk.bytes.length
    ({ buffer := s.buffer, res := boxed (s.buffer.stringAt s.nextstart), sent := s.sent }, chunk.bytes.length)
  | .failed rc _ => (r, if rc = EAGAIN then 0 else rc)

/-- The loop `do … while (rc1>=0 && !self.stopCmd)`. Each read comes with the
value of `stopCmd` at the test that follows it. -/
def receiverLoop (enc : SystemEncoding) : Receiver → List (ReadResult × Bool) → Receiver
  | r, [] => r
  | r, (result, stopCmd) :: reads =>
    let (next, rc1) := receiverBody enc r result
    if rc1 ≥ 0 ∧ stopCmd = false then receiverLoop enc next reads else next

/-- The receiver thread, on a stack with arbitrary contents. -/
def receiver (enc : SystemEncoding) (stack : CharArray 1024) (reads : List (ReadResult × Bool)) : Receiver :=
  receiverLoop enc { buffer := stack, res := none, sent := [] } reads

end MPSsh.MPSshShell

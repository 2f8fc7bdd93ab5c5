import MPSsh.Shell.ReadBuffer
import MPSsh.Shell.Scan

open Interaction Segments MPSsh.MPLSChannel

namespace MPSsh

namespace CharArray

variable {size : Nat} (buffer : CharArray size)

/-- An offset into an array that `read:` fills: inside of the array, and at most one
byte behind the data that `read:` lets through. -/
def Inside (size offset : Nat) : Prop :=
  offset < size ∧ offset ≤ readLimit

instance (size offset : Nat) : Decidable (Inside size offset) :=
  inferInstanceAs (Decidable (_ ∧ _))

/-- The call of `read:`, which needs an array of at least the size that it passes on. -/
def checkedFill (chunk : Chunk) : Option (CharArray size) :=
  if readLimit ≤ size then some (buffer.fill chunk.bytes) else none

def checkedRead (offset : Nat) : Option UInt8 :=
  if Inside size offset then some (buffer.read offset) else none

def checkedWrite (offset : Nat) (b : UInt8) : Option (CharArray size) :=
  if Inside size offset then some (buffer.write offset b) else none

/-- The pointer `&buffer[offset]`. -/
def checkedPointer (_buffer : CharArray size) (offset : Nat) : Option Nat :=
  if Inside size offset then some offset else none

/-- The C string at `&buffer[offset]`, if the NUL that ends it is in the array and no
further than at offset `last`. -/
def checkedStringAt (offset last : Nat) : Option (List UInt8) :=
  let line := buffer.stringAt offset
  if buffer.bytes[offset + line.length]? = some 0 ∧ offset + line.length ≤ last then some line else none

variable {buffer}

theorem checkedFill_eq {chunk : Chunk} (hsize : readLimit ≤ size) :
    buffer.checkedFill chunk = some (buffer.fill chunk.bytes) :=
  if_pos hsize

theorem checkedRead_eq {offset : Nat} (hinside : Inside size offset) :
    buffer.checkedRead offset = some (buffer.read offset) :=
  if_pos hinside

theorem checkedWrite_eq {offset : Nat} {b : UInt8} (hinside : Inside size offset) :
    buffer.checkedWrite offset b = some (buffer.write offset b) :=
  if_pos hinside

theorem checkedPointer_eq {offset : Nat} (hinside : Inside size offset) :
    buffer.checkedPointer offset = some offset :=
  if_pos hinside

/-- A C string ends at the first NUL, which is not behind any other one. -/
theorem cString_end (front rest : List UInt8) :
    (front ++ 0 :: rest)[(cString front).length]? = some 0 ∧ (cString front).length ≤ front.length := by
  induction front with
  | nil => simp [cString]
  | cons b front ih =>
    by_cases hb : b = 0
    · simp [cString, hb]
    · simpa [cString, hb] using ih

/-- A string that starts in front of a NUL ends there at the latest. -/
theorem checkedStringAt_eq {offset last : Nat} {front rest : List UInt8} (hbytes : buffer.bytes = front ++ 0 :: rest)
    (hoffset : offset ≤ front.length) (hlast : front.length ≤ last) :
    buffer.checkedStringAt offset last = some (buffer.stringAt offset) := by
  have hdrop : buffer.bytes.drop offset = front.drop offset ++ 0 :: rest := by
    rw [hbytes, List.drop_append_of_le_length hoffset]
  have hstring : buffer.stringAt offset = cString (front.drop offset) := by
    rw [stringAt, hdrop, cString_append_nul]
  obtain ⟨hnul, hlength⟩ := cString_end (front.drop offset) rest
  rw [← hdrop, List.getElem?_drop, ← hstring] at hnul
  rw [← hstring, List.length_drop] at hlength
  exact if_pos ⟨hnul, by omega⟩

end CharArray

namespace MPSshShell

open CharArray

/-- The body of the scan loop, with every access checked. -/
def checkedScanByte (enc : SystemEncoding) (rc1 : Nat) (s : Scan) (ii : Nat) : Option Scan := do
  if isNewline (← s.buffer.checkedRead ii) then
    let buffer ← s.buffer.checkedWrite ii 0
    if s.aChar then
      let line ← buffer.checkedStringAt s.nextstart rc1
      let nextstart ← buffer.checkedPointer (ii + 1)
      some { buffer, nextstart, aChar := false, res := none, sent := s.sent ++ [s.res.getD "" ++ enc.decode line] }
    else
      let nextstart ← buffer.checkedPointer (ii + 1)
      some { s with buffer, nextstart }
  else
    some { s with aChar := true }

/-- The scan loop before the iteration with index `ii`. -/
def checkedScanTo (enc : SystemEncoding) (rc1 : Nat) (s : Scan) : Nat → Option Scan
  | 0 => some s
  | ii + 1 => do checkedScanByte enc rc1 (← checkedScanTo enc rc1 s ii) ii

/-- One iteration of the read loop. The log prints the whole text, and the text behind
the last line end is boxed. -/
def checkedBody (enc : SystemEncoding) (r : Receiver) : ReadResult → Option (Receiver × Int)
  | .bytes chunk => do
    let rc1 := chunk.bytes.length
    let buffer ← r.buffer.checkedFill chunk
    let buffer ← buffer.checkedWrite rc1 0
    let _ ← buffer.checkedStringAt 0 rc1
    let nextstart ← buffer.checkedPointer 0
    let s ← checkedScanTo enc rc1 { buffer, nextstart, aChar := false, res := r.res, sent := r.sent } rc1
    let rest ← s.buffer.checkedStringAt s.nextstart rc1
    some ({ buffer := s.buffer, res := boxed rest, sent := s.sent }, rc1)
  | .failed rc _ => some (r, if rc = EAGAIN then 0 else rc)

def checkedLoop (enc : SystemEncoding) : Receiver → List (ReadResult × Bool) → Option Receiver
  | r, [] => some r
  | r, (result, stopCmd) :: reads => do
    let (next, rc1) ← checkedBody enc r result
    if rc1 ≥ 0 ∧ stopCmd = false then checkedLoop enc next reads else some next

def checkedReceiver (enc : SystemEncoding) (stack : CharArray 1024) (reads : List (ReadResult × Bool)) :
    Option Receiver :=
  checkedLoop enc { buffer := stack, res := none, sent := [] } reads

/-- The loop of `readBuffer`, with every access checked. -/
def checkedReadBufferLoop (buffer : CharArray 0x4000) (ret : String) :
    List ReadResult → Option (Option (Outcome String))
  | [] => some none
  | .bytes chunk :: reads => do
    let buffer ← buffer.checkedFill chunk
    let buffer ← buffer.checkedWrite chunk.bytes.length 0
    let line ← buffer.checkedStringAt 0 chunk.bytes.length
    match boxed line with
    | some line => checkedReadBufferLoop buffer (ret ++ line) reads
    | none => some (some .raised)
  | .failed _ _ :: _ => some (some (.returns ret))

def checkedReadBuffer (stack : CharArray 0x4000) (reads : List ReadResult) : Option (Option (Outcome String)) :=
  checkedReadBufferLoop stack "" reads

section Checks

variable {enc : SystemEncoding} {r : Receiver} {chunk : List UInt8} {ii : Nat} {s : Scan}

theorem inside_receiver {offset : Nat} (hlimit : offset ≤ readLimit) : Inside 1024 offset :=
  ⟨Nat.lt_succ_of_le hlimit, hlimit⟩

theorem inside_readBuffer {offset : Nat} (hlimit : offset ≤ readLimit) : Inside 0x4000 offset := by
  refine ⟨?_, hlimit⟩
  simp only [readLimit] at hlimit
  omega

/-- The checks of one iteration pass: the line that is delivered ends at the line end
that has just been overwritten. -/
theorem checkedScanByte_eq (hinv : ScanInv enc r chunk ii s) (hii : ii < chunk.length)
    (hlimit : chunk.length ≤ readLimit) : checkedScanByte enc chunk.length s ii = some (scanByte enc s ii) := by
  have hinside : Inside 1024 ii := inside_receiver (by omega)
  have hnext : Inside 1024 (ii + 1) := inside_receiver (by omega)
  have hlength := length_blanked (Nat.le_of_lt hii)
  have hle := hinv.nextstart_le
  have hline : (s.buffer.write ii 0).checkedStringAt s.nextstart chunk.length =
      some ((s.buffer.write ii 0).stringAt s.nextstart) :=
    checkedStringAt_eq (hinv.write_bytes hii 0) (by omega) (by omega)
  unfold checkedScanByte scanByte
  simp only [checkedRead_eq hinside, checkedWrite_eq hinside, checkedPointer_eq hnext, Option.bind_eq_bind,
    Option.bind_some]
  split
  · split
    · rw [hline]
      rfl
    · rfl
  · rfl

theorem checkedScanTo_eq (enc : SystemEncoding) (r : Receiver) (chunk : Chunk) {ii : Nat}
    (hii : ii ≤ chunk.bytes.length) :
    checkedScanTo enc chunk.bytes.length (scanStart r chunk) ii = some (scanTo enc (scanStart r chunk) ii) := by
  induction ii with
  | zero => rfl
  | succ ii ih =>
    have hinv := scanTo_inv enc r chunk (Nat.le_of_succ_le hii)
    rw [checkedScanTo, ih (by omega)]
    exact checkedScanByte_eq hinv hii chunk.bounded

/-- The checks of one read pass, and the carried text ends at the terminator. -/
theorem checkedBody_eq (enc : SystemEncoding) (r : Receiver) (result : ReadResult) :
    checkedBody enc r result = some (receiverBody enc r result) := by
  cases result with
  | failed rc h => rfl
  | bytes chunk =>
    have hlimit := chunk.bounded
    have hroom : chunk.bytes.length < 1024 := Nat.lt_succ_of_le hlimit
    have hstart := checkedStringAt_eq (r.buffer.fill_write_bytes hroom) (Nat.zero_le _) (Nat.le_refl _)
    have hinv := scanTo_inv enc r chunk (Nat.le_refl _)
    have hend := hinv.buffer
    have hle := hinv.nextstart_le
    rw [List.drop_length, List.nil_append] at hend
    have hrest := checkedStringAt_eq hend (by simpa using hle) (by simp : _ ≤ chunk.bytes.length)
    have hscan := checkedScanTo_eq enc r chunk (Nat.le_refl _)
    rw [scanStart] at hscan hrest
    have hsize : readLimit ≤ 1024 := Nat.le_succ readLimit
    have hterminator : Inside 1024 chunk.bytes.length := inside_receiver hlimit
    have hfirst : Inside 1024 0 := inside_receiver (Nat.zero_le readLimit)
    simp only [checkedBody, receiverBody, scanStart, checkedFill_eq hsize, checkedWrite_eq hterminator,
      checkedPointer_eq hfirst, hstart, hscan, hrest, Option.bind_eq_bind, Option.bind_some]

theorem checkedLoop_eq (enc : SystemEncoding) (r : Receiver) (reads : List (ReadResult × Bool)) :
    checkedLoop enc r reads = some (receiverLoop enc r reads) := by
  induction reads generalizing r with
  | nil => rfl
  | cons head reads ih =>
    obtain ⟨result, stopCmd⟩ := head
    simp only [checkedLoop, receiverLoop, checkedBody_eq, Option.bind_eq_bind, Option.bind_some]
    split
    · exact ih _
    · rfl

theorem checkedReadBufferLoop_eq (buffer : CharArray 0x4000) (ret : String) (reads : List ReadResult) :
    checkedReadBufferLoop buffer ret reads = some (readBufferLoop buffer ret reads) := by
  induction reads generalizing buffer ret with
  | nil => rfl
  | cons result reads ih =>
    cases result with
    | failed rc h => rfl
    | bytes chunk =>
      have hsize : readLimit ≤ 0x4000 := by simp only [readLimit]; omega
      have hinside := inside_readBuffer chunk.bounded
      have hline := checkedStringAt_eq (buffer.fill_write_bytes hinside.1) (Nat.zero_le _) (Nat.le_refl _)
      simp only [checkedReadBufferLoop, readBufferLoop, checkedFill_eq hsize, checkedWrite_eq hinside, hline,
        Option.bind_eq_bind, Option.bind_some]
      cases boxed (((buffer.fill chunk.bytes).write chunk.bytes.length 0).stringAt 0) with
      | none => rfl
      | some line => exact ih _ (ret ++ line)

end Checks

/-- What holds at the head of the iteration with index `ii`, after a read of `rc1`
bytes: the text under way lies between `nextstart` and the index, and the flag says
whether there is any. -/
structure ScanHead (rc1 ii : Nat) (s : Scan) : Prop where
  nextstart_le : s.nextstart ≤ ii
  index_le : ii ≤ rc1
  pending : ∀ offset, s.nextstart ≤ offset → offset < ii → isNewline (s.buffer.read offset) = false
  aChar : s.aChar = true ↔ s.nextstart < ii

theorem ScanInv.head {enc : SystemEncoding} {r : Receiver} {chunk : List UInt8} {ii : Nat} {s : Scan}
    (hinv : ScanInv enc r chunk ii s) (hii : ii ≤ chunk.length) : ScanHead chunk.length ii s := by
  refine ⟨hinv.nextstart_le, hii, ?_, hinv.aChar⟩
  intro offset hstart hend
  have hlength := length_blanked hii
  have hbyte : s.buffer.bytes[offset]? = (unterminated isNewline (chunk.take ii))[offset - s.nextstart]? := by
    rw [← hinv.pending_blank, List.getElem?_drop, Nat.add_sub_cancel' hstart, hinv.buffer,
      List.getElem?_append_left (by omega)]
  rw [CharArray.read, List.getD_eq_getElem?_getD, hbyte]
  cases hfound : (unterminated isNewline (chunk.take ii))[offset - s.nextstart]? with
  | none => rfl
  | some b => exact unterminated_none isNewline _ b (List.mem_of_getElem? hfound)

/-- At the head of every iteration of the scan loop the text under way is free of line
ends, and the flag says whether there is any. No access of `receiver` or of `readBuffer`
is out of bounds, and every C string that they read ends within the data or at its
terminator. -/
theorem receiver_bounds (enc : SystemEncoding) :
    (∀ (r : Receiver) (chunk : Chunk) (ii : Fin (chunk.bytes.length + 1)), ∃ s,
      checkedScanTo enc chunk.bytes.length (scanStart r chunk) ii = some s ∧ ScanHead chunk.bytes.length ii s) ∧
    (∀ stack reads, checkedReceiver enc stack reads = some (receiver enc stack reads)) ∧
    ∀ stack reads, checkedReadBuffer stack reads = some (readBuffer stack reads) := by
  refine ⟨?_, fun stack => checkedLoop_eq enc _, fun stack => checkedReadBufferLoop_eq stack ""⟩
  intro r chunk ii
  have hii : ii.val ≤ chunk.bytes.length := Nat.le_of_lt_succ ii.isLt
  exact ⟨_, checkedScanTo_eq enc r chunk hii, (scanTo_inv enc r chunk hii).head hii⟩

end MPSshShell

end MPSsh

import MPSsh.Shell.Receiver

open Segments MPSsh.MPLSChannel

namespace MPSsh.MPSshShell

/-- What the scan loop leaves of a byte it has passed. -/
def blank (b : UInt8) : UInt8 :=
  if isNewline b then 0 else b

/-- The strings for a list of segments: the carried text goes in front of the
first one, and every segment is read as a C string. -/
def withCarry (enc : SystemEncoding) (res : Option String) : List (List UInt8) → List String
  | [] => []
  | line :: lines => (res.getD "" ++ enc.decode (cString line)) :: lines.map fun l => enc.decode (cString l)

theorem withCarry_append_singleton (enc : SystemEncoding) (res : Option String) (lines : List (List UInt8))
    (line : List UInt8) :
    withCarry enc res (lines ++ [line]) = withCarry enc res lines ++
      [(if lines = [] then res else none).getD "" ++ enc.decode (cString line)] := by
  cases lines <;> simp [withCarry]

section Passed

variable {chunk : List UInt8} {ii : Nat}

theorem length_blanked (hii : ii ≤ chunk.length) : ((chunk.take ii).map blank).length = ii := by
  rw [List.length_map, List.length_take, Nat.min_eq_left hii]

/-- A line end terminates the segment under way. -/
theorem passed_newline (hii : ii < chunk.length) (hnew : isNewline chunk[ii] = true) :
    (chunk.take (ii + 1)).map blank = (chunk.take ii).map blank ++ [0] ∧
      terminated isNewline (chunk.take (ii + 1)) = terminated isNewline (chunk.take ii) ++
        (if unterminated isNewline (chunk.take ii) = [] then [] else [unterminated isNewline (chunk.take ii)]) ∧
      unterminated isNewline (chunk.take (ii + 1)) = [] := by
  have hterm := terminated_append_cons (chunk.take ii) [] hnew
  have hunterm := unterminated_append_cons (chunk.take ii) [] hnew
  rw [terminated_nil, List.append_nil] at hterm
  rw [List.take_succ_eq_append_getElem hii]
  refine ⟨?_, hterm, hunterm⟩
  simp only [List.map_append, List.map_cons, List.map_nil, blank, hnew, if_true]

/-- Any other byte joins the segment under way. -/
theorem passed_other (hii : ii < chunk.length) (hother : isNewline chunk[ii] = false) :
    (chunk.take (ii + 1)).map blank = (chunk.take ii).map blank ++ [chunk[ii]] ∧
      terminated isNewline (chunk.take (ii + 1)) = terminated isNewline (chunk.take ii) ∧
      unterminated isNewline (chunk.take (ii + 1)) = unterminated isNewline (chunk.take ii) ++ [chunk[ii]] := by
  have hnone : ∀ b ∈ unterminated isNewline (chunk.take ii) ++ [chunk[ii]], isNewline b = false := by
    intro b hb
    rcases List.mem_append.mp hb with hb | hb
    · exact unterminated_none isNewline _ b hb
    · rw [List.mem_singleton.mp hb, hother]
  have hterm := terminated_append isNewline (chunk.take ii) [chunk[ii]]
  have hunterm := unterminated_append isNewline (chunk.take ii) [chunk[ii]]
  rw [terminated_of_none hnone, List.append_nil] at hterm
  rw [unterminated_of_none hnone] at hunterm
  rw [List.take_succ_eq_append_getElem hii]
  refine ⟨?_, hterm, hunterm⟩
  simp only [List.map_append, List.map_cons, List.map_nil, blank, hother, Bool.false_eq_true, if_false]

end Passed

/-- The state of the scan loop before index `ii`. The bytes already passed lie
in the buffer with every line end blanked, and the rest of the chunk, its
terminator and the old contents follow. -/
structure ScanInv (enc : SystemEncoding) (r : Receiver) (chunk : List UInt8) (ii : Nat) (s : Scan) : Prop where
  buffer : s.buffer.bytes =
    (chunk.take ii).map blank ++ (chunk.drop ii ++ 0 :: r.buffer.bytes.drop (chunk.length + 1))
  nextstart_le : s.nextstart ≤ ii
  pending : (chunk.take ii).drop s.nextstart = unterminated isNewline (chunk.take ii)
  aChar : s.aChar = true ↔ s.nextstart < ii
  res : s.res = if terminated isNewline (chunk.take ii) = [] then r.res else none
  sent : s.sent = r.sent ++ withCarry enc r.res (terminated isNewline (chunk.take ii))

namespace ScanInv

variable {enc : SystemEncoding} {r : Receiver} {chunk : List UInt8} {ii : Nat} {s : Scan}

theorem read_eq (hinv : ScanInv enc r chunk ii s) (hii : ii < chunk.length) :
    s.buffer.read ii = chunk[ii] := by
  have hlen := length_blanked (Nat.le_of_lt hii)
  rw [CharArray.read, hinv.buffer, List.getD_eq_getElem?_getD, List.getElem?_append_right (by omega), hlen,
    Nat.sub_self, List.drop_eq_getElem_cons hii]
  rfl

/-- Blanking leaves the segment under way as it is. -/
theorem pending_blank (hinv : ScanInv enc r chunk ii s) :
    ((chunk.take ii).map blank).drop s.nextstart = unterminated isNewline (chunk.take ii) := by
  rw [← List.map_drop, hinv.pending]
  have hnone := unterminated_none isNewline (chunk.take ii)
  refine (List.map_congr_left fun b hb => ?_).trans (List.map_id _)
  simp [blank, hnone b hb]

/-- The segment under way ends at the first NUL at or behind the loop index. -/
theorem stringAt_eq (hinv : ScanInv enc r chunk ii s) {buffer : CharArray 1024} {rest : List UInt8}
    (hbuffer : buffer.bytes = (chunk.take ii).map blank ++ 0 :: rest) (hii : ii ≤ chunk.length) :
    buffer.stringAt s.nextstart = cString (unterminated isNewline (chunk.take ii)) := by
  have hlen : s.nextstart ≤ ((chunk.take ii).map blank).length := by
    rw [length_blanked hii]
    exact hinv.nextstart_le
  rw [CharArray.stringAt, hbuffer, List.drop_append_of_le_length hlen, hinv.pending_blank, cString_append_nul]

theorem write_bytes (hinv : ScanInv enc r chunk ii s) (hii : ii < chunk.length) (b : UInt8) :
    (s.buffer.write ii b).bytes = (chunk.take ii).map blank ++
      b :: (chunk.drop (ii + 1) ++ 0 :: r.buffer.bytes.drop (chunk.length + 1)) := by
  have hlen := length_blanked (Nat.le_of_lt hii)
  rw [CharArray.write_bytes, hinv.buffer, List.set_append_right _ _ (by omega), hlen, Nat.sub_self,
    List.drop_eq_getElem_cons hii]
  rfl

/-- The segment under way is empty exactly when the flag is down. -/
theorem pending_nil_iff (hinv : ScanInv enc r chunk ii s) (hii : ii ≤ chunk.length) :
    unterminated isNewline (chunk.take ii) = [] ↔ s.aChar = false := by
  rw [← hinv.pending, List.drop_eq_nil_iff, List.length_take, Nat.min_eq_left hii, ← Nat.not_lt, ← hinv.aChar,
    Bool.not_eq_true]

/-- A line end behind an empty segment moves the start of the next one. -/
theorem step_skip (hinv : ScanInv enc r chunk ii s) (hii : ii < chunk.length) (hnew : isNewline chunk[ii] = true)
    (hflag : s.aChar = false) :
    ScanInv enc r chunk (ii + 1) { s with buffer := s.buffer.write ii 0, nextstart := ii + 1 } := by
  obtain ⟨hblank, hterm, hunterm⟩ := passed_newline hii hnew
  rw [if_pos ((hinv.pending_nil_iff (Nat.le_of_lt hii)).mpr hflag), List.append_nil] at hterm
  refine ⟨?_, Nat.le_refl _, ?_, by simp [hflag], ?_, ?_⟩
  · rw [hinv.write_bytes hii 0, hblank, List.append_assoc]
    rfl
  · rw [hunterm]
    simp
  · rw [hterm, hinv.res]
  · rw [hterm, hinv.sent]

/-- A line end behind a segment delivers it. -/
theorem step_deliver (hinv : ScanInv enc r chunk ii s) (hii : ii < chunk.length) (hnew : isNewline chunk[ii] = true)
    (hflag : s.aChar = true) :
    ScanInv enc r chunk (ii + 1)
      { buffer := s.buffer.write ii 0
        nextstart := ii + 1
        aChar := false
        res := none
        sent := s.sent ++ [s.res.getD "" ++ enc.decode ((s.buffer.write ii 0).stringAt s.nextstart)] } := by
  obtain ⟨hblank, hterm, hunterm⟩ := passed_newline hii hnew
  have hne : unterminated isNewline (chunk.take ii) ≠ [] := by
    rw [Ne, hinv.pending_nil_iff (Nat.le_of_lt hii), hflag]
    simp
  rw [if_neg hne] at hterm
  have hwritten := hinv.write_bytes hii 0
  refine ⟨?_, Nat.le_refl _, ?_, by simp, ?_, ?_⟩
  · rw [hwritten, hblank, List.append_assoc]
    rfl
  · rw [hunterm]
    simp
  · rw [hterm]
    simp
  · rw [hterm, withCarry_append_singleton, ← hinv.res, ← List.append_assoc, ← hinv.sent]
    simp only [hinv.stringAt_eq hwritten (Nat.le_of_lt hii)]

theorem step_other (hinv : ScanInv enc r chunk ii s) (hii : ii < chunk.length) (hother : isNewline chunk[ii] = false) :
    ScanInv enc r chunk (ii + 1) { s with aChar := true } := by
  obtain ⟨hblank, hterm, hunterm⟩ := passed_other hii hother
  have hle := hinv.nextstart_le
  refine ⟨?_, by simp only; omega, ?_, by simp only [true_iff]; omega, ?_, ?_⟩
  · rw [hinv.buffer, hblank, List.drop_eq_getElem_cons hii, List.append_assoc]
    rfl
  · have hstart : s.nextstart ≤ (chunk.take ii).length := by simp; omega
    rw [hunterm, ← hinv.pending, List.take_succ_eq_append_getElem hii, List.drop_append_of_le_length hstart]
  · rw [hterm, hinv.res]
  · rw [hterm, hinv.sent]

theorem step (hinv : ScanInv enc r chunk ii s) (hii : ii < chunk.length) :
    ScanInv enc r chunk (ii + 1) (scanByte enc s ii) := by
  unfold scanByte
  rw [hinv.read_eq hii]
  by_cases hnew : isNewline chunk[ii] = true
  · rw [if_pos hnew]
    by_cases hflag : s.aChar = true
    · rw [if_pos hflag]
      exact hinv.step_deliver hii hnew hflag
    · rw [if_neg hflag]
      exact hinv.step_skip hii hnew (by simpa using hflag)
  · rw [if_neg hnew]
    exact hinv.step_other hii (by simpa using hnew)

end ScanInv

theorem scanStart_inv (enc : SystemEncoding) (r : Receiver) (chunk : Chunk) :
    ScanInv enc r chunk.bytes 0 (scanStart r chunk) := by
  have hbound : chunk.bytes.length < 1024 := Nat.lt_succ_of_le chunk.bounded
  refine ⟨?_, Nat.le_refl _, rfl, by simp [scanStart], rfl, by simp [scanStart, withCarry]⟩
  simpa [scanStart] using r.buffer.fill_write_bytes hbound

/-- The invariant holds at the head of every iteration of the scan loop. -/
theorem scanTo_inv (enc : SystemEncoding) (r : Receiver) (chunk : Chunk) {ii : Nat}
    (hii : ii ≤ chunk.bytes.length) :
    ScanInv enc r chunk.bytes ii (scanTo enc (scanStart r chunk) ii) := by
  induction ii with
  | zero => exact scanStart_inv enc r chunk
  | succ ii ih => exact (ih (by omega)).step (by omega)

/-- One successful read sends the segments its data terminates, the carried
text in front of the first, and carries the unterminated rest. -/
theorem receiverBody_bytes (enc : SystemEncoding) (r : Receiver) (chunk : Chunk) :
    (receiverBody enc r (.bytes chunk)).1.sent =
        r.sent ++ withCarry enc r.res (terminated isNewline chunk.bytes) ∧
      (receiverBody enc r (.bytes chunk)).1.res = boxed (cString (unterminated isNewline chunk.bytes)) := by
  have hinv := scanTo_inv enc r chunk (Nat.le_refl _)
  have hbuffer := hinv.buffer
  simp only [List.drop_length, List.nil_append] at hbuffer
  have hstring := hinv.stringAt_eq hbuffer (Nat.le_refl _)
  have hsent := hinv.sent
  rw [List.take_length] at hstring hsent
  exact ⟨hsent, by simp only [receiverBody, hstring]⟩

end MPSsh.MPSshShell

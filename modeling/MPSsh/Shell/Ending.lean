import MPSsh.Shell.Framing

open Segments MPSsh.MPLSChannel

namespace MPSsh.MPSshShell

/-- The loop of the receiver ends within these reads. -/
def loopEnds (enc : SystemEncoding) : Receiver → List (ReadResult × Bool) → Bool
  | _, [] => false
  | r, (result, stopCmd) :: reads =>
    let (next, rc1) := receiverBody enc r result
    if rc1 ≥ 0 ∧ stopCmd = false then loopEnds enc next reads else true

/-- What a read returns from the remote's end of file on. -/
def eof : ReadResult := .failed 0 (Int.le_refl 0)

/-- Some reads, and any number of further ones at the end of the file. No shutdown is
under way. -/
def toTheEnd (reads : List ReadResult) (n : Nat) : List (ReadResult × Bool) :=
  (reads ++ List.replicate n eof).map (·, false)

/-- The receiver ends once the remote's output has, and has sent all of its lines, a
final unterminated one included. -/
def EndsWithStream (enc : SystemEncoding) (stack : CharArray 1024) (reads : List ReadResult) : Prop :=
  ∃ n, loopEnds enc { buffer := stack, res := none, sent := [] } (toTheEnd reads n) = true ∧
    (receiver enc stack (toTheEnd reads n)).sent = (outputLines (stream reads)).map ascii

/-- Neither data nor a result that is 0 by the time it is tested ends the loop. -/
theorem receiverBody_nonneg (enc : SystemEncoding) (r : Receiver) {reads : List ReadResult} (hreads : Undisturbed reads)
    {n : Nat} {read : ReadResult} (hread : read ∈ reads ++ List.replicate n eof) : (receiverBody enc r read).2 ≥ 0 := by
  cases read with
  | bytes chunk => simp [receiverBody]
  | failed rc h =>
    have hrc : rc = EAGAIN ∨ rc = 0 := by
      rcases List.mem_append.mp hread with hmem | hmem
      · exact Or.inl (hreads rc h hmem)
      · exact Or.inr (by simpa [eof] using List.eq_of_mem_replicate hmem)
    rcases hrc with rfl | rfl <;> simp [receiverBody]

theorem loopEnds_eq_false (enc : SystemEncoding) {reads : List (ReadResult × Bool)}
    (hreads : ∀ read ∈ reads, read.2 = false ∧ ∀ r, (receiverBody enc r read.1).2 ≥ 0) (r : Receiver) :
    loopEnds enc r reads = false := by
  induction reads generalizing r with
  | nil => rfl
  | cons read reads ih =>
    obtain ⟨⟨hstop, hrc⟩, hlater⟩ := List.forall_mem_cons.mp hreads
    obtain ⟨result, stopCmd⟩ := read
    obtain rfl : stopCmd = false := hstop
    simp only [loopEnds, hrc r, and_self, if_true]
    exact ih hlater _

/-- A read at the end of the file leaves the receiver as it is. -/
theorem receiverLoop_toTheEnd (enc : SystemEncoding) {reads : List ReadResult} (hreads : Undisturbed reads) (n : Nat)
    (r : Receiver) : receiverLoop enc r (toTheEnd reads n) = receiverLoop enc r (reads.map (·, false)) := by
  induction reads generalizing r with
  | nil =>
    induction n with
    | zero => rfl
    | succ n ih => simpa [toTheEnd, List.replicate_succ, receiverLoop, receiverBody, eof] using ih
  | cons read reads ih =>
    have hlater : Undisturbed reads := hreads.tail
    have hrc : (receiverBody enc r read).2 ≥ 0 := receiverBody_nonneg enc r hreads (n := 0) (by simp)
    simp only [toTheEnd, List.cons_append, List.map_cons, receiverLoop, hrc, and_self, if_true]
    exact ih hlater _

theorem not_endsWithStream (enc : SystemEncoding) (stack : CharArray 1024) {reads : List ReadResult}
    (hreads : Undisturbed reads) : ¬ EndsWithStream enc stack reads := by
  rintro ⟨n, hends, -⟩
  rw [loopEnds_eq_false] at hends
  · cases hends
  · intro read hread
    obtain ⟨result, hresult, rfl⟩ := List.mem_map.mp hread
    exact ⟨rfl, fun r => receiverBody_nonneg enc r hreads hresult⟩

/-- For every plain output and every cutting that keeps its lines, the receiver never
ends, however often it reads the end of the file, and sends the terminated lines only. -/
theorem receiver_outlives_stream (enc : SystemEncoding) (stack : CharArray 1024) {reads : List ReadResult}
    (hreads : Undisturbed reads) (hplain : Plain (stream reads)) (hkept : KeptFrom isNewline [] (chunks reads)) :
    ¬ EndsWithStream enc stack reads ∧
      ∀ n, (receiver enc stack (toTheEnd reads n)).sent = (terminated isNewline (stream reads)).map ascii := by
  refine ⟨not_endsWithStream enc stack hreads, fun n => ?_⟩
  have hsent := receiver_sent enc stack hreads hplain
  rw [receiver, (carried_eq_terminated_iff (by simp) (chunks reads)).mpr hkept] at hsent
  rw [receiver, receiverLoop_toTheEnd enc hreads]
  exact hsent

theorem keptReads_keptFrom : KeptFrom isNewline [] (chunks keptReads) :=
  (carried_eq_terminated_iff (by simp) _).mp (by decide)

theorem receiver_outlives_stream_keptReads :
    ¬ EndsWithStream latin1 blankStack keptReads ∧
      ∀ n, (receiver latin1 blankStack (toTheEnd keptReads n)).sent =
        (terminated isNewline (stream keptReads)).map ascii :=
  receiver_outlives_stream latin1 blankStack (by simp [Undisturbed, keptReads])
    (by simp [Plain, stream, chunks, keptReads]) keptReads_keptFrom

/-- The end of the file is taken for a read that would block. -/
theorem receiver_misses_end :
    ¬ ∀ (enc : SystemEncoding) (stack : CharArray 1024) (reads : List ReadResult), Undisturbed reads →
      Plain (stream reads) → KeptFrom isNewline [] (chunks reads) → EndsWithStream enc stack reads := by
  intro halways
  have hreads : Undisturbed keptReads := by simp [Undisturbed, keptReads]
  have hplain : Plain (stream keptReads) := by simp [Plain, stream, chunks, keptReads]
  exact not_endsWithStream latin1 blankStack hreads (halways latin1 blankStack keptReads hreads hplain keptReads_keptFrom)

end MPSsh.MPSshShell

import MPSsh.Shell.Carry
import MPSsh.Shell.Scan

open Segments MPSsh.MPLSChannel

namespace MPSsh.MPSshShell

/-- The chunks of data among the results of a sequence of reads. -/
def chunks (reads : List ReadResult) : List (List UInt8) :=
  reads.filterMap fun
    | .bytes chunk => some chunk.bytes
    | .failed _ _ => none

/-- The whole stream that a sequence of reads returns. -/
def stream (reads : List ReadResult) : List UInt8 :=
  (chunks reads).flatten

theorem eagain_nonpos : EAGAIN ≤ 0 := by decide

/-- A read that brings these bytes, if one read can. -/
def readOf (bytes : List UInt8) : ReadResult :=
  if h : bytes ≠ [] ∧ bytes.length ≤ readLimit then .bytes ⟨bytes, h.1, h.2⟩ else .failed EAGAIN eagain_nonpos

/-- Reads that return data or `LIBSSH2_ERROR_EAGAIN`. -/
def Undisturbed (reads : List ReadResult) : Prop :=
  ∀ rc h, .failed rc h ∈ reads → rc = EAGAIN

theorem Undisturbed.tail {read : ReadResult} {reads : List ReadResult} (hreads : Undisturbed (read :: reads)) :
    Undisturbed reads :=
  fun rc h hmem => hreads rc h (List.mem_cons_of_mem _ hmem)

/-- 7-bit text without NUL. -/
def Plain (bytes : List UInt8) : Prop :=
  ∀ b ∈ bytes, b ≠ 0 ∧ b < 128

theorem plain_append {xs ys : List UInt8} : Plain (xs ++ ys) ↔ Plain xs ∧ Plain ys := by
  simp only [Plain, List.forall_mem_append]

instance (bytes : List UInt8) : Decidable (Plain bytes) :=
  List.decidableBAll _ bytes

theorem Plain.ascii {bytes : List UInt8} (hplain : Plain bytes) : ∀ b ∈ bytes, b < 128 :=
  fun b hb => (hplain b hb).2

theorem Plain.subset {xs ys : List UInt8} (hplain : Plain ys) (hsub : xs ⊆ ys) : Plain xs :=
  fun b hb => hplain b (hsub hb)

theorem Plain.cString_eq {bytes : List UInt8} (hplain : Plain bytes) : cString bytes = bytes :=
  cString_eq_self fun hmem => (hplain 0 hmem).1 rfl

theorem Plain.decode_eq {bytes : List UInt8} (hplain : Plain bytes) (enc : SystemEncoding) :
    enc.decode (cString bytes) = MPSsh.ascii bytes := by
  rw [hplain.cString_eq, enc.decode_ascii bytes hplain.ascii]

/-- On plain text the strings of a read are its segments, the carry in front. -/
theorem withCarry_eq_prepend (enc : SystemEncoding) {res : Option String} {carry : List UInt8}
    (hres : res.getD "" = ascii carry) {lines : List (List UInt8)} (hplain : ∀ line ∈ lines, Plain line) :
    withCarry enc res lines = (prepend carry lines).map ascii := by
  cases lines with
  | nil => rfl
  | cons line lines =>
    simp only [List.mem_cons, forall_eq_or_imp] at hplain
    have htail : lines.map (fun l => enc.decode (cString l)) = lines.map ascii :=
      List.map_congr_left fun l hl => (hplain.2 l hl).decode_eq enc
    simp only [withCarry, prepend, List.map_cons, htail, hres, hplain.1.decode_eq enc, ascii_append]

/-- The strings that reads with data lead to, from the text that is carried to them. -/
def deliveries (enc : SystemEncoding) : Option String → List (List UInt8) → List String
  | _, [] => []
  | res, chunk :: chunks =>
    withCarry enc res (terminated isNewline chunk) ++
      deliveries enc (boxed (cString (unterminated isNewline chunk))) chunks

/-- The receiver sends what its reads with data lead to. -/
theorem receiverLoop_deliveries (enc : SystemEncoding) (r : Receiver) {reads : List ReadResult}
    (hreads : Undisturbed reads) :
    (receiverLoop enc r (reads.map (·, false))).sent = r.sent ++ deliveries enc r.res (chunks reads) := by
  induction reads generalizing r with
  | nil => simp [receiverLoop, chunks, deliveries]
  | cons read reads ih =>
    cases read with
    | failed rc h =>
      -- A read without data leaves text and carry as they are.
      obtain rfl : rc = EAGAIN := hreads rc h (by simp)
      simpa [receiverLoop, receiverBody, chunks] using ih r hreads.tail
    | bytes chunk =>
      obtain ⟨hsent, hcarry⟩ := receiverBody_bytes enc r chunk
      have hrc : (receiverBody enc r (.bytes chunk)).2 ≥ 0 := by simp [receiverBody]
      have hloop := ih (receiverBody enc r (.bytes chunk)).1 hreads.tail
      rw [List.map_cons, receiverLoop]
      simp only [hrc, and_self, if_true]
      rw [hloop, hsent, hcarry, List.append_assoc]
      rfl

/-- Plain text is delivered as the carrying splitter cuts it, from any carry. -/
theorem deliveries_plain (enc : SystemEncoding) {res : Option String} {carry : List UInt8}
    (hres : res.getD "" = ascii carry) {chunks : List (List UInt8)} (hplain : Plain chunks.flatten) :
    deliveries enc res chunks = (carried isNewline carry chunks).map ascii := by
  induction chunks generalizing res carry with
  | nil => rfl
  | cons chunk chunks ih =>
    rw [List.flatten_cons, plain_append] at hplain
    obtain ⟨hchunk, hlater⟩ := hplain
    have hrest : Plain (unterminated isNewline chunk) := hchunk.subset (unterminated_subset _)
    have hlines : ∀ line ∈ terminated isNewline chunk, Plain line :=
      fun line hline => hchunk.subset (subset_of_mem_terminated hline)
    have hnext : (boxed (cString (unterminated isNewline chunk))).getD "" = ascii (unterminated isNewline chunk) := by
      rw [hrest.cString_eq, boxed_ascii hrest.ascii]
      rfl
    rw [deliveries, carried, withCarry_eq_prepend enc hres hlines, ih hnext hlater, List.map_append]

/-- The receiver sends what the carrying splitter does, from any carry. -/
theorem receiverLoop_sent (enc : SystemEncoding) {r : Receiver} {carry : List UInt8}
    (hres : r.res.getD "" = ascii carry) {reads : List ReadResult} (hreads : Undisturbed reads)
    (hplain : Plain (stream reads)) :
    (receiverLoop enc r (reads.map (·, false))).sent =
      r.sent ++ (carried isNewline carry (chunks reads)).map ascii := by
  rw [receiverLoop_deliveries enc r hreads, deliveries_plain enc hres hplain]

/-- The strings of a whole run of the receiver on plain text. -/
theorem receiver_sent (enc : SystemEncoding) (stack : CharArray 1024) {reads : List ReadResult}
    (hreads : Undisturbed reads) (hplain : Plain (stream reads)) :
    (receiver enc stack (reads.map (·, false))).sent = (carried isNewline [] (chunks reads)).map ascii := by
  have hloop := receiverLoop_sent enc (show (Receiver.mk stack none []).res.getD "" = ascii [] from rfl) hreads hplain
  rwa [List.nil_append] at hloop

theorem ascii_map_inj {xs ys : List (List UInt8)} (hxs : ∀ x ∈ xs, Plain x) (hys : ∀ y ∈ ys, Plain y) :
    xs.map ascii = ys.map ascii ↔ xs = ys := by
  induction xs generalizing ys with
  | nil => cases ys <;> simp
  | cons x xs ih =>
    cases ys with
    | nil => simp
    | cons y ys =>
      simp only [List.mem_cons, forall_eq_or_imp] at hxs hys
      rw [List.map_cons, List.map_cons, List.cons.injEq, List.cons.injEq, ascii_inj hxs.1.ascii hys.1.ascii,
        ih hxs.2 hys.2]

/-- On plain text the receiver sends exactly the terminated lines of the stream
if and only if no chunk that is read while a line is under way begins with a
line end, or lacks one although the line is terminated later. -/
theorem receiver_sends_lines_iff (enc : SystemEncoding) (stack : CharArray 1024) {reads : List ReadResult}
    (hreads : Undisturbed reads) (hplain : Plain (stream reads)) :
    (receiver enc stack (reads.map (·, false))).sent = (terminated isNewline (stream reads)).map ascii ↔
      KeptFrom isNewline [] (chunks reads) := by
  have hlines : ∀ line ∈ terminated isNewline (stream reads), Plain line :=
    fun line hline => hplain.subset (subset_of_mem_terminated hline)
  have hcarried : ∀ line ∈ carried isNewline [] (chunks reads), Plain line :=
    fun line hline => hplain.subset (subset_of_mem_carried hline)
  rw [receiver_sent enc stack hreads hplain, ascii_map_inj hcarried hlines,
    ← carried_eq_terminated_iff (by simp), List.nil_append]
  rfl

/-- The platform encoding whose code points are the bytes. -/
def latin1 : SystemEncoding where
  decode := ascii
  decode_ascii _ _ := rfl

def blankStack : CharArray 1024 where
  bytes := List.replicate 1024 0
  length_eq := List.length_replicate

/-- `"ab"`, a would-block read, then `"c\r\nd"`. -/
def keptReads : List ReadResult :=
  [.bytes ⟨[97, 98], by decide, by decide⟩, .failed EAGAIN (by decide), .bytes ⟨[99, 13, 10, 100], by decide, by decide⟩]

theorem receiver_sends_lines_iff_keptReads :
    (receiver latin1 blankStack (keptReads.map (·, false))).sent =
        (terminated isNewline (stream keptReads)).map ascii ↔
      KeptFrom isNewline [] (chunks keptReads) :=
  receiver_sends_lines_iff latin1 blankStack (by simp [Undisturbed, keptReads]) (by simp [Plain, stream, chunks, keptReads])

/-- `"ab"`, then `"\n"`. -/
def lostReads : List ReadResult :=
  [.bytes ⟨[97, 98], by decide, by decide⟩, .bytes ⟨[10], by decide, by decide⟩]

/-- The line `"ab"` is never sent when its terminator comes with the next read. -/
theorem receiver_loses_line :
    ¬ ∀ (enc : SystemEncoding) (stack : CharArray 1024) (reads : List ReadResult),
      Undisturbed reads → Plain (stream reads) →
        (receiver enc stack (reads.map (·, false))).sent = (terminated isNewline (stream reads)).map ascii := by
  intro halways
  have hreads : Undisturbed lostReads := by simp [Undisturbed, lostReads]
  have hplain : Plain (stream lostReads) := by simp [Plain, stream, chunks, lostReads]
  have hsent := halways latin1 blankStack lostReads hreads hplain
  rw [receiver_sent latin1 blankStack hreads hplain] at hsent
  exact absurd hsent (by decide)

end MPSsh.MPSshShell

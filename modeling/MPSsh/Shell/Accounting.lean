import MPSsh.Shell.Chunking

open Segments MPSsh.MPLSChannel

namespace MPSsh.MPSshShell

section Carrying

variable {α : Type*} (p : α → Bool)

/-- The carried elements that are overwritten, each by a read that terminates no non-empty
segment, be it that the read holds separators only. -/
def dropped : List α → List (List α) → List (List α)
  | _, [] => []
  | carry, chunk :: chunks =>
    (if terminated p chunk = [] then [carry] else []) ++ dropped (unterminated p chunk) chunks

/-- What is carried after a sequence of reads. -/
def carriedRest : List α → List (List α) → List α
  | carry, [] => carry
  | _, chunk :: chunks => carriedRest (unterminated p chunk) chunks

variable {p}

theorem flatten_prepend (carry : List α) (lines : List (List α)) :
    (prepend carry lines).flatten = (if lines = [] then [] else carry) ++ lines.flatten := by
  cases lines <;> simp [prepend]

/-- A read sends the carried elements with its own or overwrites them. -/
theorem read_accounts (p : α → Bool) (carry chunk : List α) :
    carry ++ chunk.filter (! p ·) = (if terminated p chunk = [] then carry else []) ++
      ((prepend carry (terminated p chunk)).flatten ++ unterminated p chunk) := by
  rw [← flatten_terminated, flatten_prepend]
  split <;> simp

/-- Every element that is no separator is sent once, overwritten once or still carried. -/
theorem carried_perm (carry : List α) (chunks : List (List α)) :
    (carry ++ chunks.flatten.filter (! p ·)).Perm
      ((dropped p carry chunks).flatten ++ ((carried p carry chunks).flatten ++ carriedRest p carry chunks)) := by
  induction chunks generalizing carry with
  | nil => simp [dropped, carried, carriedRest]
  | cons chunk chunks ih =>
    have hlater := ih (unterminated p chunk)
    rw [List.flatten_cons, List.filter_append, ← List.append_assoc, read_accounts p carry chunk, List.append_assoc,
      List.append_assoc, dropped, carried, carriedRest, List.flatten_append, List.flatten_append]
    have hfirst : (if terminated p chunk = [] then [carry] else []).flatten =
        if terminated p chunk = [] then carry else [] := by
      split <;> simp
    rw [hfirst, List.append_assoc]
    refine List.Perm.append_left _ ?_
    rw [List.append_assoc]
    refine (List.Perm.append_left _ hlater).trans ?_
    simpa only [List.append_assoc] using List.perm_append_comm_assoc _ _ _

/-- What is sent or still carried comes in the order of the stream. -/
theorem carried_sublist (carry : List α) (chunks : List (List α)) :
    List.Sublist ((carried p carry chunks).flatten ++ carriedRest p carry chunks)
      (carry ++ chunks.flatten.filter (! p ·)) := by
  induction chunks generalizing carry with
  | nil => simp [carried, carriedRest]
  | cons chunk chunks ih =>
    rw [List.flatten_cons, List.filter_append, ← List.append_assoc, read_accounts p carry chunk, carried, carriedRest,
      List.flatten_append, List.append_assoc, List.append_assoc, List.append_assoc]
    exact List.Sublist.trans ((ih (unterminated p chunk)).append_left _) (List.sublist_append_right _ _)

theorem length_le_of_mem_flatten {xss : List (List α)} {xs : List α} (hmem : xs ∈ xss) : xs.length ≤ xss.flatten.length :=
  (List.sublist_flatten_of_mem hmem).length_le

/-- The separator that ends a segment takes up room in its chunk. -/
theorem length_lt_of_mem_terminated {chunk line : List α} (hline : line ∈ terminated p chunk) :
    line.length < chunk.length := by
  have hkept : line.length ≤ (chunk.filter (! p ·)).length := by
    rw [← flatten_terminated, List.length_append]
    exact Nat.le_add_right_of_le (length_le_of_mem_flatten hline)
  have hsep : ∃ x ∈ chunk, ¬ (! p x) = true := by
    by_contra hnone
    rw [terminated_of_none (by simpa using hnone)] at hline
    cases hline
  exact Nat.lt_of_le_of_lt hkept (List.length_filter_lt_length_iff_exists.mpr hsep)

theorem length_unterminated_le (p : α → Bool) (chunk : List α) : (unterminated p chunk).length ≤ chunk.length := by
  have hlength := congrArg List.length (flatten_terminated p chunk)
  have hfilter := List.length_filter_le (! p ·) chunk
  rw [List.length_append] at hlength
  omega

/-- With chunks of bounded length no segment is longer than two chunks less the separator. -/
theorem length_of_mem_carried {limit : Nat} {carry line : List α} {chunks : List (List α)}
    (hcarry : carry.length ≤ limit) (hchunks : ∀ chunk ∈ chunks, chunk.length ≤ limit)
    (hline : line ∈ carried p carry chunks) : line.length < 2 * limit := by
  induction chunks generalizing carry with
  | nil => cases hline
  | cons chunk chunks ih =>
    obtain ⟨hchunk, hlater⟩ := List.forall_mem_cons.mp hchunks
    rw [carried, List.mem_append] at hline
    obtain hline | hline := hline
    · cases hlines : terminated p chunk with
      | nil => simp [hlines, prepend] at hline
      | cons first rest =>
        have hshort (l : List α) (hl : l ∈ first :: rest) : l.length < limit :=
          Nat.lt_of_lt_of_le (length_lt_of_mem_terminated (hlines ▸ hl)) hchunk
        rw [hlines, prepend, List.mem_cons] at hline
        obtain rfl | hline := hline
        · have hfirst := hshort first (by simp)
          rw [List.length_append]
          omega
        · have hother := hshort line (by simp [hline])
          omega
    · exact ih (Nat.le_trans (length_unterminated_le p chunk) hchunk) hlater hline

end Carrying

/-- The bytes that a receiver has delivered, and those that it carries. -/
def Receiver.kept (r : Receiver) : List UInt8 :=
  (r.sent.map utf8).flatten ++ utf8 (r.res.getD "")

theorem utf8_map_ascii {lines : List (List UInt8)} (hplain : ∀ line ∈ lines, Plain line) :
    (lines.map ascii).map utf8 = lines := by
  rw [List.map_map]
  refine (List.map_congr_left fun line hline => ?_).trans (List.map_id _)
  exact utf8_ascii (hplain line hline).ascii

theorem length_of_mem_chunks {reads : List ReadResult} {chunk : List UInt8} (hchunk : chunk ∈ chunks reads) :
    chunk.length ≤ readLimit := by
  obtain ⟨read, -, hread⟩ := List.mem_filterMap.mp hchunk
  cases read with
  | failed rc h => cases hread
  | bytes c => exact Option.some.inj hread ▸ c.bounded

/-- The text that is carried when a run of the receiver on plain text ends. -/
theorem receiverLoop_res (enc : SystemEncoding) {r : Receiver} {carry : List UInt8} (hres : r.res.getD "" = ascii carry)
    {reads : List ReadResult} (hreads : Undisturbed reads) (hplain : Plain (stream reads)) :
    (receiverLoop enc r (reads.map (·, false))).res.getD "" = ascii (carriedRest isNewline carry (chunks reads)) := by
  induction reads generalizing r carry with
  | nil => simpa [receiverLoop, chunks, carriedRest] using hres
  | cons read reads ih =>
    cases read with
    | failed rc h =>
      obtain rfl : rc = EAGAIN := hreads rc h (by simp)
      simpa [receiverLoop, receiverBody, chunks] using ih hres hreads.tail hplain
    | bytes chunk =>
      obtain ⟨-, hcarry⟩ := receiverBody_bytes enc r chunk
      have hrc : (receiverBody enc r (.bytes chunk)).2 ≥ 0 := by simp [receiverBody]
      have hstream : stream (.bytes chunk :: reads) = chunk.bytes ++ stream reads := by simp [stream, chunks]
      rw [hstream, plain_append] at hplain
      have hrest : Plain (unterminated isNewline chunk.bytes) := hplain.1.subset (unterminated_subset _)
      rw [hrest.cString_eq, boxed_ascii hrest.ascii] at hcarry
      rw [List.map_cons, receiverLoop]
      simp only [hrc, and_self, if_true]
      exact ih (by rw [hcarry]; rfl) hreads.tail hplain.2

/-- On plain text and however the reads cut it, every byte that is no line end is
delivered once, carried at the end, or lost with a carry that is overwritten by a read that
terminates no non-empty segment; what is delivered or carried comes in the order of the
stream. -/
theorem receiver_accounts (enc : SystemEncoding) (stack : CharArray 1024) {reads : List ReadResult}
    (hreads : Undisturbed reads) (hplain : Plain (stream reads)) :
    ((stream reads).filter (! isNewline ·)).Perm
        ((dropped isNewline [] (chunks reads)).flatten ++ (receiver enc stack (reads.map (·, false))).kept) ∧
      (receiver enc stack (reads.map (·, false))).kept.Sublist ((stream reads).filter (! isNewline ·)) := by
  have hcarried : ∀ line ∈ carried isNewline [] (chunks reads), Plain line :=
    fun line hline => hplain.subset (subset_of_mem_carried hline)
  have hsub := carried_sublist (p := isNewline) [] (chunks reads)
  have hperm := carried_perm (p := isNewline) [] (chunks reads)
  rw [List.nil_append] at hsub hperm
  have hrest : Plain (carriedRest isNewline [] (chunks reads)) :=
    hplain.subset fun b hb => List.filter_sublist.subset (hsub.subset (List.mem_append_right _ hb))
  have hres := receiverLoop_res enc (show (Receiver.mk stack none []).res.getD "" = ascii [] from rfl) hreads hplain
  have hutf8 : utf8 ((receiver enc stack (reads.map (·, false))).res.getD "") = carriedRest isNewline [] (chunks reads) :=
    (congrArg utf8 hres).trans (utf8_ascii hrest.ascii)
  have hkept : (receiver enc stack (reads.map (·, false))).kept =
      (carried isNewline [] (chunks reads)).flatten ++ carriedRest isNewline [] (chunks reads) := by
    rw [Receiver.kept, hutf8, receiver_sent enc stack hreads hplain, utf8_map_ascii hcarried]
  rw [hkept]
  exact ⟨hperm, hsub⟩

/-- Pieces of these lengths are read as they are. -/
theorem reads_of_pieces {pieces : List (List UInt8)} (hpieces : ∀ piece ∈ pieces, piece ≠ [] ∧ piece.length ≤ readLimit) :
    Undisturbed (pieces.map readOf) ∧ chunks (pieces.map readOf) = pieces := by
  have hread (piece : List UInt8) (hpiece : piece ∈ pieces) : ∃ c, c.bytes = piece ∧ readOf piece = .bytes c :=
    ⟨_, rfl, dif_pos (hpieces piece hpiece)⟩
  constructor
  · intro rc h hmem
    obtain ⟨piece, hpiece, hfailed⟩ := List.mem_map.mp hmem
    obtain ⟨c, -, hc⟩ := hread piece hpiece
    cases hc.symm.trans hfailed
  · rw [chunks, List.filterMap_map]
    refine (List.filterMap_congr fun piece hpiece => ?_).trans List.filterMap_some
    obtain ⟨c, hbytes, hc⟩ := hread piece hpiece
    rw [Function.comp_apply, hc]
    exact congrArg some hbytes

/-- Between `"ab"` and the line end that would have terminated it comes `"c"` alone. -/
def overwritingReads : List ReadResult :=
  [[97, 98], [99], [100, 10]].map readOf

theorem receiver_accounts_overwritingReads :
    ((stream overwritingReads).filter (! isNewline ·)).Perm
        ((dropped isNewline [] (chunks overwritingReads)).flatten ++
          (receiver latin1 blankStack (overwritingReads.map (·, false))).kept) ∧
      (receiver latin1 blankStack (overwritingReads.map (·, false))).kept.Sublist
        ((stream overwritingReads).filter (! isNewline ·)) := by
  have hreads : Undisturbed overwritingReads ∧ chunks overwritingReads = [[97, 98], [99], [100, 10]] :=
    reads_of_pieces (by simp [readLimit])
  apply receiver_accounts latin1 blankStack hreads.1
  rw [stream, hreads.2]
  decide

/-- A line that is cut in two is put together again, when the second piece holds some of
it and its end. -/
theorem carried_cut {front back : List UInt8} (hnone : ∀ b ∈ front ++ back, isNewline b = false) (hback : back ≠ []) :
    carried isNewline [] ([front, back ++ [10]].filter (! ·.isEmpty)) = [front ++ back] := by
  obtain ⟨hfront, hrest⟩ := List.forall_mem_append.mp hnone
  have hend : isNewline 10 = true := by decide
  have hline : terminated isNewline (back ++ [10]) = [back] := by
    rw [terminated_first hrest hend, if_neg hback, terminated_nil, List.append_nil]
  cases front with
  | nil => simp [carried, hline]
  | cons b front =>
    simp [carried, terminated_of_none hfront, unterminated_of_none hfront, hline, prepend]

/-- A plain line can be delivered whole by some cutting of its bytes exactly when it is
no longer than a full read and a second one less its line end. -/
theorem receiver_delivers_whole_iff (enc : SystemEncoding) (stack : CharArray 1024) {line : List UInt8}
    (hplain : Plain line) (hnone : ∀ b ∈ line, isNewline b = false) (hne : line ≠ []) :
    (∃ reads, Undisturbed reads ∧ stream reads = line ++ [10] ∧
        (receiver enc stack (reads.map (·, false))).sent = [ascii line]) ↔
      line.length ≤ readLimit + (readLimit - 1) := by
  have hstreamPlain : Plain (line ++ [10]) := plain_append.mpr ⟨hplain, by simp [Plain]⟩
  constructor
  · rintro ⟨reads, hreads, hstream, hsent⟩
    have hreadsPlain : Plain (stream reads) := hstream ▸ hstreamPlain
    rw [receiver_sent enc stack hreads hreadsPlain, List.map_eq_singleton_iff] at hsent
    obtain ⟨sent, hcarried, hsame⟩ := hsent
    have hmem : sent ∈ carried isNewline [] (chunks reads) := by simp [hcarried]
    have hsentPlain : Plain sent := hreadsPlain.subset (subset_of_mem_carried hmem)
    obtain rfl := (ascii_inj hsentPlain.ascii hplain.ascii).mp hsame
    have hshort := length_of_mem_carried (Nat.zero_le readLimit) (fun _ => length_of_mem_chunks) hmem
    omega
  · intro hlength
    -- the first read leaves as much as the second one can take with the line end
    have hcut : ∃ front back, line = front ++ back ∧ back ≠ [] ∧ front.length ≤ readLimit ∧ back.length < readLimit := by
      refine ⟨line.take (line.length - (readLimit - 1)), line.drop (line.length - (readLimit - 1)),
        (List.take_append_drop _ _).symm, ?_, ?_, ?_⟩
      · have hpos := List.length_pos_iff.mpr hne
        rw [← List.length_pos_iff, List.length_drop]
        simp only [readLimit]
        omega
      · rw [List.length_take]
        omega
      · rw [List.length_drop]
        simp only [readLimit]
        omega
    obtain ⟨front, back, rfl, hback, hfront, hshort⟩ := hcut
    have hpieces : ∀ piece ∈ [front, back ++ [10]].filter (! ·.isEmpty), piece ≠ [] ∧ piece.length ≤ readLimit := by
      intro piece hpiece
      obtain ⟨hmem, hkept⟩ := List.mem_filter.mp hpiece
      refine ⟨by simpa using hkept, ?_⟩
      obtain rfl | hmem := List.mem_cons.mp hmem
      · exact hfront
      · rw [List.mem_singleton.mp hmem, List.length_append, List.length_singleton]
        omega
    obtain ⟨hreads, hchunks⟩ := reads_of_pieces hpieces
    have hstream : stream (([front, back ++ [10]].filter (! ·.isEmpty)).map readOf) = front ++ back ++ [10] := by
      rw [stream, hchunks, List.flatten_filter_not_isEmpty]
      simp
    refine ⟨_, hreads, hstream, ?_⟩
    rw [receiver_sent enc stack hreads (hstream ▸ hstreamPlain), hchunks, carried_cut hnone hback]
    rfl

theorem receiver_delivers_whole_iff_long :
    (∃ reads, Undisturbed reads ∧ stream reads = List.replicate 1500 97 ++ [10] ∧
        (receiver latin1 blankStack (reads.map (·, false))).sent = [ascii (List.replicate 1500 97)]) ↔
      (List.replicate 1500 (97 : UInt8)).length ≤ readLimit + (readLimit - 1) := by
  have hsame : ∀ b ∈ List.replicate 1500 (97 : UInt8), b = 97 := fun _ => List.eq_of_mem_replicate
  refine receiver_delivers_whole_iff latin1 blankStack ?_ ?_ (List.ne_nil_of_length_pos ?_)
  · intro b hb
    simp [hsame b hb]
  · intro b hb
    rw [hsame b hb]
    rfl
  · rw [List.length_replicate]
    omega

end MPSsh.MPSshShell

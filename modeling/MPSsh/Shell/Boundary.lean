import MPSsh.Shell.Chunking

open Segments MPSsh.MPLSChannel

namespace MPSsh.MPSshShell

/-- The lines delivered so far and the carried text, `nil` counted as empty. -/
def Receiver.observed (r : Receiver) : List String × String :=
  (r.sent, r.res.getD "")

/-- The lines that a stream terminates, and its unterminated tail. -/
def reference (bytes : List UInt8) : List String × String :=
  ((terminated isNewline bytes).map ascii, ascii (unterminated isNewline bytes))

/-- The receiver once it has made some reads, with `stopCmd` clear. -/
def afterReads (enc : SystemEncoding) (r : Receiver) (reads : List ReadResult) : Receiver :=
  receiverLoop enc r (reads.map (·, false))

/-- The chunk neither begins with a line end nor lacks one. -/
def Completes (bytes : List UInt8) : Prop :=
  (∀ b ∈ bytes.head?, isNewline b = false) ∧ ∃ b ∈ bytes, isNewline b = true

/-- Every chunk that is read while the carry is non-empty completes it. -/
def Unbroken (enc : SystemEncoding) (r : Receiver) (reads : List ReadResult) : Prop :=
  ∀ before chunk rest, reads = before ++ .bytes chunk :: rest →
    (afterReads enc r before).observed.2 ≠ "" → Completes chunk.bytes

section Step

variable (enc : SystemEncoding) (r : Receiver)

@[simp] theorem afterReads_nil : afterReads enc r [] = r := rfl

theorem afterReads_cons {read : ReadResult} {reads : List ReadResult} (hreads : Undisturbed (read :: reads)) :
    afterReads enc r (read :: reads) = afterReads enc (receiverBody enc r read).1 reads := by
  have hrc : (receiverBody enc r read).2 ≥ 0 := by
    cases read with
    | bytes chunk => simp [receiverBody]
    | failed rc h =>
      obtain rfl : rc = EAGAIN := hreads rc h (by simp)
      simp [receiverBody]
  simp only [afterReads, List.map_cons, receiverLoop]
  simp [hrc]

theorem undisturbed_append {xs ys : List ReadResult} :
    Undisturbed (xs ++ ys) ↔ Undisturbed xs ∧ Undisturbed ys := by
  simp only [Undisturbed, List.mem_append]
  grind

theorem Undisturbed.front {before reads : List ReadResult} (hreads : Undisturbed reads) (hfront : before <+: reads) :
    Undisturbed before := by
  obtain ⟨rest, rfl⟩ := hfront
  exact (undisturbed_append.mp hreads).1

/-- A would-block read leaves the receiver as it is. -/
theorem afterReads_eagain (before : List ReadResult) (h : EAGAIN ≤ 0) (hbefore : Undisturbed before) :
    afterReads enc r (before ++ [.failed EAGAIN h]) = afterReads enc r before := by
  induction before generalizing r with
  | nil => simp [afterReads, receiverLoop, receiverBody]
  | cons read before ih =>
    have hblocked : Undisturbed [.failed EAGAIN h] := by simp [Undisturbed]
    have hlater : Undisturbed before := hbefore.tail
    have hall : Undisturbed (read :: (before ++ [.failed EAGAIN h])) := undisturbed_append.mpr ⟨hbefore, hblocked⟩
    rw [List.cons_append, afterReads_cons enc r hall, afterReads_cons enc r hbefore, ih _ hlater]

/-- A property of the pair after every read is one of the pair before them, and one of
the pairs of the receiver that the first read leaves. -/
theorem observed_cons_iff {read : ReadResult} {reads : List ReadResult} (hreads : Undisturbed (read :: reads))
    {expected : List ReadResult → List String × String} (hexpected : r.observed = expected []) :
    (∀ before, before <+: read :: reads → (afterReads enc r before).observed = expected before) ↔
      ∀ before, before <+: reads →
        (afterReads enc (receiverBody enc r read).1 before).observed = expected (read :: before) := by
  have hfirst {before : List ReadResult} (h : before <+: reads) : Undisturbed (read :: before) :=
    hreads.front ((List.prefix_cons_inj read).mpr h)
  constructor
  · intro hall before h
    rw [← afterReads_cons enc r (hfirst h)]
    exact hall (read :: before) ((List.prefix_cons_inj read).mpr h)
  · intro hall before h
    rcases List.prefix_cons_iff.mp h with rfl | ⟨later, rfl, hlater⟩
    · exact hexpected
    · rw [afterReads_cons enc r (hfirst hlater)]
      exact hall later hlater

theorem unbroken_cons {read : ReadResult} {reads : List ReadResult} (hreads : Undisturbed (read :: reads)) :
    Unbroken enc r (read :: reads) ↔
      (∀ chunk, read = .bytes chunk → r.observed.2 ≠ "" → Completes chunk.bytes) ∧
        Unbroken enc (receiverBody enc r read).1 reads := by
  constructor
  · intro hunbroken
    refine ⟨?_, ?_⟩
    · rintro chunk rfl hcarry
      exact hunbroken [] chunk reads rfl hcarry
    · rintro before chunk rest rfl hcarry
      have hfirst : Undisturbed (read :: before) := hreads.front (by simp)
      refine hunbroken (read :: before) chunk rest rfl ?_
      rwa [afterReads_cons enc r hfirst]
  · rintro ⟨hhead, htail⟩ before chunk rest hsplit hcarry
    cases before with
    | nil =>
      obtain ⟨rfl, rfl⟩ := List.cons.inj hsplit
      exact hhead chunk rfl hcarry
    | cons first before =>
      obtain ⟨rfl, rfl⟩ := List.cons.inj hsplit
      have hfirst : Undisturbed (read :: before) := hreads.front (by simp)
      rw [afterReads_cons enc r hfirst] at hcarry
      exact htail before chunk rest rfl hcarry

theorem ascii_eq_empty {bytes : List UInt8} : ascii bytes = "" ↔ bytes = [] := by
  simp [ascii, ← String.toList_inj]

/-- From the reference pair, a chunk leads to the reference pair exactly when it
completes a carry that is there. -/
theorem observed_bytes_iff {past : List UInt8} (hpast : r.observed = reference past) (chunk : Chunk)
    (hplain : Plain (past ++ chunk.bytes)) :
    (receiverBody enc r (.bytes chunk)).1.observed = reference (past ++ chunk.bytes) ↔
      (r.observed.2 ≠ "" → Completes chunk.bytes) := by
  obtain ⟨hsent, hres⟩ := Prod.mk.inj hpast
  obtain ⟨hbefore, hchunk⟩ := plain_append.mp hplain
  have hpending := unterminated_none isNewline past
  have hlines : ∀ line ∈ terminated isNewline chunk.bytes, Plain line :=
    fun line hline => hchunk.subset (subset_of_mem_terminated hline)
  have hrest : Plain (unterminated isNewline chunk.bytes) := hchunk.subset (unterminated_subset _)
  have hjoined : Plain (unterminated isNewline past ++ chunk.bytes) :=
    plain_append.mpr ⟨hbefore.subset (unterminated_subset _), hchunk⟩
  obtain ⟨hbody, hcarry⟩ := receiverBody_bytes enc r chunk
  have hobserved : (receiverBody enc r (.bytes chunk)).1.observed =
      (r.sent ++ (prepend (unterminated isNewline past) (terminated isNewline chunk.bytes)).map ascii,
        ascii (unterminated isNewline chunk.bytes)) := by
    rw [Receiver.observed, hbody, hcarry, withCarry_eq_prepend enc hres hlines, hrest.cString_eq,
      boxed_ascii hrest.ascii]
    rfl
  have hreference : reference (past ++ chunk.bytes) =
      ((terminated isNewline past).map ascii ++ (terminated isNewline (unterminated isNewline past ++ chunk.bytes)).map ascii,
        ascii (unterminated isNewline (unterminated isNewline past ++ chunk.bytes))) := by
    rw [reference, terminated_append, unterminated_append, List.map_append]
  have hmine : ∀ line ∈ prepend (unterminated isNewline past) (terminated isNewline chunk.bytes), Plain line :=
    fun line hline => hjoined.subset (subset_of_mem_prepend hline)
  have htheirs : ∀ line ∈ terminated isNewline (unterminated isNewline past ++ chunk.bytes), Plain line :=
    fun line hline => hjoined.subset (subset_of_mem_terminated hline)
  have hbyLines := ascii_map_inj hmine htheirs
  have htail : Plain (unterminated isNewline (unterminated isNewline past ++ chunk.bytes)) :=
    hjoined.subset (unterminated_subset _)
  have hbyRest := ascii_inj hrest.ascii htail.ascii
  rw [hobserved, hreference, hsent, Prod.mk.injEq, List.append_right_inj, hbyLines, hbyRest,
    prepend_terminated_iff hpending, hpast]
  simp only [reference, ne_eq, ascii_eq_empty, Completes]

/-- A receiver whose pair is that of the text before goes on with the reference
pairs exactly as long as every chunk completes the carry. -/
theorem observed_eq_reference_iff {past : List UInt8} (hpast : r.observed = reference past) {reads : List ReadResult}
    (hreads : Undisturbed reads) (hplain : Plain (past ++ stream reads)) :
    (∀ before, before <+: reads → (afterReads enc r before).observed = reference (past ++ stream before)) ↔
      Unbroken enc r reads := by
  induction reads generalizing r past with
  | nil => simpa [Unbroken, stream, chunks] using hpast
  | cons read reads ih =>
    have hlater : Undisturbed reads := hreads.tail
    have hstart : r.observed = reference (past ++ stream []) := by
      simpa [stream, chunks] using hpast
    rw [observed_cons_iff enc r hreads hstart, unbroken_cons enc r hreads]
    cases read with
    | failed rc h =>
      -- Neither pair changes.
      obtain rfl : rc = EAGAIN := hreads rc h (by simp)
      have hrun := ih r hpast hlater hplain
      simpa [receiverBody, stream, chunks] using hrun
    | bytes chunk =>
      have hstream (before : List ReadResult) :
          past ++ stream (.bytes chunk :: before) = past ++ chunk.bytes ++ stream before := by
        simp [stream, chunks]
      rw [hstream] at hplain
      have hstep := observed_bytes_iff enc r hpast chunk (plain_append.mp hplain).1
      simp only [hstream, ReadResult.bytes.injEq, forall_eq']
      rw [← hstep]
      constructor
      · intro hall
        have hnext : (receiverBody enc r (.bytes chunk)).1.observed = reference (past ++ chunk.bytes) := by
          simpa [stream, chunks] using hall [] (List.nil_prefix)
        exact ⟨hnext, (ih _ hnext hlater hplain).mp hall⟩
      · rintro ⟨hnext, hrest⟩
        exact (ih _ hnext hlater hplain).mpr hrest

end Step

/-- On plain text the receiver's pair is the reference pair after every read if
and only if every chunk that is read while the carry is non-empty completes it;
a would-block read changes neither pair. -/
theorem receiver_observes_reference_iff (enc : SystemEncoding) (stack : CharArray 1024) {reads : List ReadResult}
    (hreads : Undisturbed reads) (hplain : Plain (stream reads)) :
    ((∀ before, before <+: reads →
        (receiver enc stack (before.map (·, false))).observed = reference (stream before)) ↔
      Unbroken enc { buffer := stack, res := none, sent := [] } reads) ∧
    ∀ before h, before ++ [.failed EAGAIN h] <+: reads →
      (receiver enc stack ((before ++ [.failed EAGAIN h]).map (·, false))).observed =
          (receiver enc stack (before.map (·, false))).observed ∧
        reference (stream (before ++ [.failed EAGAIN h])) = reference (stream before) := by
  have hstart : Receiver.observed { buffer := stack, res := none, sent := [] } = reference [] := rfl
  refine ⟨observed_eq_reference_iff enc _ hstart hreads hplain, ?_⟩
  rintro before h ⟨rest, rfl⟩
  have hbefore : Undisturbed before := hreads.front (by rw [List.append_assoc]; exact List.prefix_append _ _)
  refine ⟨congrArg Receiver.observed (afterReads_eagain enc _ before h hbefore), ?_⟩
  simp [stream, chunks]

theorem receiver_observes_reference_iff_keptReads :
    ((∀ before, before <+: keptReads →
        (receiver latin1 blankStack (before.map (·, false))).observed = reference (stream before)) ↔
      Unbroken latin1 { buffer := blankStack, res := none, sent := [] } keptReads) ∧
    ∀ before h, before ++ [.failed EAGAIN h] <+: keptReads →
      (receiver latin1 blankStack ((before ++ [.failed EAGAIN h]).map (·, false))).observed =
          (receiver latin1 blankStack (before.map (·, false))).observed ∧
        reference (stream (before ++ [.failed EAGAIN h])) = reference (stream before) :=
  receiver_observes_reference_iff latin1 blankStack (by simp [Undisturbed, keptReads])
    (by simp [Plain, stream, chunks, keptReads])

end MPSsh.MPSshShell

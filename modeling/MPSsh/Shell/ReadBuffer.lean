import MPSsh.Base.Interaction
import MPSsh.Channel
import MPSsh.Foundation

open Interaction MPSsh.MPLSChannel

namespace MPSsh.MPSshShell

/-- The loop of `readBuffer`. It has not ended while its reads return data, and
appending the `nil` that a chunk without a text is boxed to raises. -/
def readBufferLoop (buffer : CharArray 0x4000) (ret : String) : List ReadResult → Option (Outcome String)
  | [] => none
  | .bytes chunk :: reads =>
    let buffer := (buffer.fill chunk.bytes).write chunk.bytes.length 0
    match boxed (buffer.stringAt 0) with
    | some line => readBufferLoop buffer (ret ++ line) reads
    | none => some .raised
  | .failed _ _ :: _ => some (.returns ret)

/-- `readBuffer`, on a stack with arbitrary contents. -/
def readBuffer (stack : CharArray 0x4000) (reads : List ReadResult) : Option (Outcome String) :=
  readBufferLoop stack "" reads

/-- What the scan of a chunk finds in the buffer. -/
theorem stringAt_chunk (buffer : CharArray 0x4000) (chunk : Chunk) :
    ((buffer.fill chunk.bytes).write chunk.bytes.length 0).stringAt 0 = cString chunk.bytes := by
  have hroom : chunk.bytes.length < 0x4000 := by
    have hbounded := chunk.bounded
    simp only [readLimit] at hbounded
    omega
  rw [CharArray.stringAt, buffer.fill_write_bytes hroom, List.drop_zero, cString_append_nul]

section Loop

variable {rc : Int} {h : rc ≤ 0}

/-- A loop that returns has boxed every chunk. -/
theorem isSome_of_returns {chunks : List Chunk} {buffer : CharArray 0x4000} {ret text : String}
    (hreturns : readBufferLoop buffer ret (chunks.map .bytes ++ [.failed rc h]) = some (.returns text)) :
    ∀ chunk ∈ chunks, (boxed (cString chunk.bytes)).isSome := by
  induction chunks generalizing buffer ret with
  | nil => simp
  | cons chunk chunks ih =>
    simp only [List.map_cons, List.cons_append, readBufferLoop, stringAt_chunk] at hreturns
    split at hreturns
    · rename_i line hline
      rw [List.forall_mem_cons]
      exact ⟨by simp [hline], ih hreturns⟩
    · simp at hreturns

/-- A loop whose chunks all have a text joins the texts. -/
theorem returns_of_isSome {chunks : List Chunk} (hnul : ∀ chunk ∈ chunks, 0 ∉ chunk.bytes)
    (htexts : ∀ chunk ∈ chunks, (boxed chunk.bytes).isSome) (buffer : CharArray 0x4000) (ret : String) :
    ∃ text, readBufferLoop buffer ret (chunks.map .bytes ++ [.failed rc h]) = some (.returns text) ∧
      utf8 text = utf8 ret ++ (chunks.map Chunk.bytes).flatten := by
  induction chunks generalizing buffer ret with
  | nil => exact ⟨ret, rfl, by simp⟩
  | cons chunk chunks ih =>
    rw [List.forall_mem_cons] at hnul htexts
    obtain ⟨line, hline⟩ := Option.isSome_iff_exists.mp htexts.1
    simp only [List.map_cons, List.cons_append, readBufferLoop, stringAt_chunk, cString_eq_self hnul.1, hline]
    obtain ⟨text, hreturns, htext⟩ := ih hnul.2 htexts.2 ((buffer.fill chunk.bytes).write chunk.bytes.length 0) (ret ++ line)
    refine ⟨text, hreturns, ?_⟩
    rw [htext, utf8_append, boxed_eq_some_iff.mp hline, List.append_assoc, List.flatten_cons]

end Loop

/-- For every text and every cutting of its bytes into reads, `readBuffer` returns the
text if and only if no cut is inside a character, so that every chunk is a text of its
own. -/
theorem readBuffer_returns_iff (stack : CharArray 0x4000) {text : String} (hnul : 0 ∉ utf8 text) {chunks : List Chunk}
    (htext : (chunks.map Chunk.bytes).flatten = utf8 text) (rc : Int) (h : rc ≤ 0) :
    readBuffer stack (chunks.map .bytes ++ [.failed rc h]) = some (.returns text) ↔
      ∀ chunk ∈ chunks, (boxed chunk.bytes).isSome := by
  have hclean : ∀ chunk ∈ chunks, 0 ∉ chunk.bytes := by
    intro chunk hchunk hmem
    rw [← htext] at hnul
    exact hnul (List.mem_flatten.mpr ⟨chunk.bytes, List.mem_map_of_mem hchunk, hmem⟩)
  constructor
  · intro hreturns chunk hchunk
    have hboxed := isSome_of_returns hreturns chunk hchunk
    rwa [cString_eq_self (hclean chunk hchunk)] at hboxed
  · intro htexts
    obtain ⟨joined, hreturns, hjoined⟩ : ∃ joined,
        readBufferLoop stack "" (chunks.map .bytes ++ [.failed rc h]) = some (.returns joined) ∧
          utf8 joined = utf8 "" ++ (chunks.map Chunk.bytes).flatten := returns_of_isSome hclean htexts stack ""
    have hsame : joined = text := by
      have hbytes : utf8 joined = utf8 text := by rw [hjoined, htext]; rfl
      exact Option.some.inj ((boxed_utf8 joined).symm.trans (hbytes ▸ boxed_utf8 text))
    rw [readBuffer, hreturns, hsame]

/-- `"é!"` cut behind its first character. -/
def wholeCharacters : List Chunk :=
  [⟨[0xC3, 0xA9], nofun, by decide⟩, ⟨[0x21], nofun, one_le_readLimit⟩]

theorem readBuffer_returns_iff_wholeCharacters :
    readBuffer ⟨List.replicate 0x4000 0, List.length_replicate⟩ (wholeCharacters.map .bytes ++ [.failed 0 (by decide)]) =
        some (.returns "é!") ↔
      ∀ chunk ∈ wholeCharacters, (boxed chunk.bytes).isSome :=
  readBuffer_returns_iff _ (by decide +kernel) (by decide +kernel) _ _

/-- `"é"` in two reads. -/
def cutCharacter : List Chunk := [⟨[0xC3], nofun, one_le_readLimit⟩, ⟨[0xA9], nofun, one_le_readLimit⟩]

/-- A cut inside a character raises. -/
theorem readBuffer_raises :
    ¬ ∀ (stack : CharArray 0x4000) (text : String) (chunks : List Chunk) (rc : Int) (h : rc ≤ 0), 0 ∉ utf8 text →
      (chunks.map Chunk.bytes).flatten = utf8 text →
        readBuffer stack (chunks.map .bytes ++ [.failed rc h]) = some (.returns text) := by
  intro halways
  have hreturns := halways ⟨List.replicate 0x4000 0, List.length_replicate⟩ "é" cutCharacter 0 (by decide)
    (by decide +kernel) (by decide +kernel)
  have hboxed := isSome_of_returns hreturns ⟨[0xC3], by decide, by decide⟩ (by simp [cutCharacter])
  exact absurd hboxed (by decide +kernel)

end MPSsh.MPSshShell

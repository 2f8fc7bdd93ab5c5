import MPSsh.Shell.Boundary

open Segments MPSsh.MPLSChannel

namespace MPSsh.MPSshShell

/-- No chunk that is read while bytes of an unfinished line are pending begins with a
line end or lacks one. -/
def CompletesLines (chunks : List (List UInt8)) : Prop :=
  ∀ before chunk after, chunks = before ++ chunk :: after → unterminated isNewline before.flatten ≠ [] → Completes chunk

/-- The bytes of a line that the receiver sends: those carried to the read that
terminates it, and those that this read brings. -/
structure Route where
  carry : List UInt8
  rest : List UInt8
  deriving DecidableEq, Repr

/-- The routes of the lines that one chunk terminates. -/
def chunkRoutes (carry : List UInt8) : List (List UInt8) → List Route
  | [] => []
  | line :: lines => ⟨carry, line⟩ :: lines.map fun line => ⟨[], line⟩

/-- The routes of the lines over a sequence of reads. -/
def routes : List UInt8 → List (List UInt8) → List Route
  | _, [] => []
  | carry, chunk :: chunks =>
    chunkRoutes carry (terminated isNewline chunk) ++ routes (unterminated isNewline chunk) chunks

namespace Route

def line (route : Route) : List UInt8 :=
  route.carry ++ route.rest

/-- What the receiver makes of a line. -/
def text (enc : SystemEncoding) (route : Route) : String :=
  (boxed route.carry).getD "" ++ enc.decode route.rest

/-- The carried bytes are a text, and the platform reads the others as UTF-8; or what
the platform reads makes up for a carry that is no text. -/
def Faithful (enc : SystemEncoding) (route : Route) : Prop :=
  if (boxed route.carry).isSome then utf8 (enc.decode route.rest) = route.rest
  else utf8 (enc.decode route.rest) = route.line

theorem utf8_text_eq_line_iff (enc : SystemEncoding) (route : Route) :
    utf8 (route.text enc) = route.line ↔ route.Faithful enc := by
  rw [text, utf8_append, Faithful]
  cases hcarry : boxed route.carry with
  | none => simp [utf8]
  | some carried =>
    rw [boxed_eq_some_iff] at hcarry
    simp [line, hcarry]

end Route

theorem chunkRoutes_line (carry : List UInt8) (lines : List (List UInt8)) :
    (chunkRoutes carry lines).map Route.line = prepend carry lines := by
  cases lines with
  | nil => rfl
  | cons line lines => simp [chunkRoutes, prepend, Route.line, Function.comp_def]

/-- The routes lead to the lines that the carrying splitter sends. -/
theorem routes_line (carry : List UInt8) (chunks : List (List UInt8)) :
    (routes carry chunks).map Route.line = carried isNewline carry chunks := by
  induction chunks generalizing carry with
  | nil => rfl
  | cons chunk chunks ih => rw [routes, List.map_append, chunkRoutes_line, ih, carried]

/-- On bytes without NUL the strings of a read are the texts of its routes. -/
theorem withCarry_eq_texts (enc : SystemEncoding) {res : Option String} {carry : List UInt8}
    (hres : res.getD "" = (boxed carry).getD "") {lines : List (List UInt8)} (hnul : ∀ line ∈ lines, 0 ∉ line) :
    withCarry enc res lines = (chunkRoutes carry lines).map (Route.text enc) := by
  cases lines with
  | nil => rfl
  | cons line lines =>
    rw [List.forall_mem_cons] at hnul
    have hempty : boxed [] = some "" := boxed_utf8 ""
    have htail : lines.map (fun l => enc.decode (cString l)) =
        lines.map (Route.text enc ∘ fun line => ⟨[], line⟩) := by
      refine List.map_congr_left fun l hl => ?_
      simp [Route.text, hempty, cString_eq_self (hnul.2 l hl)]
    rw [withCarry, chunkRoutes, List.map_cons, List.map_map, htail, hres, cString_eq_self hnul.1]
    rfl

/-- Bytes without NUL are delivered as the texts of their routes. -/
theorem deliveries_texts (enc : SystemEncoding) {res : Option String} {carry : List UInt8}
    (hres : res.getD "" = (boxed carry).getD "") {chunks : List (List UInt8)} (hnul : 0 ∉ chunks.flatten) :
    deliveries enc res chunks = (routes carry chunks).map (Route.text enc) := by
  induction chunks generalizing res carry with
  | nil => rfl
  | cons chunk chunks ih =>
    rw [List.flatten_cons, List.mem_append, not_or] at hnul
    obtain ⟨hchunk, hlater⟩ := hnul
    have hlines : ∀ line ∈ terminated isNewline chunk, 0 ∉ line :=
      fun line hline hmem => hchunk (subset_of_mem_terminated hline hmem)
    have hrest : 0 ∉ unterminated isNewline chunk := fun hmem => hchunk (unterminated_subset _ hmem)
    rw [deliveries, routes, withCarry_eq_texts enc hres hlines, cString_eq_self hrest, ih rfl hlater, List.map_append]

/-- Reads that complete the lines keep them. -/
theorem CompletesLines.keptFrom {chunks : List (List UInt8)} (hcut : CompletesLines chunks) :
    KeptFrom isNewline [] chunks := by
  intro before chunk after hsplit hpending
  obtain ⟨hhead, hsome⟩ := hcut before chunk after hsplit hpending
  exact ⟨hhead, Or.inl hsome⟩

/-- The strings of a whole run of the receiver on bytes without NUL. -/
theorem receiver_sent_texts (enc : SystemEncoding) (stack : CharArray 1024) {reads : List ReadResult}
    (hreads : Undisturbed reads) (hnul : 0 ∉ stream reads) :
    (receiver enc stack (reads.map (·, false))).sent = (routes [] (chunks reads)).map (Route.text enc) := by
  have hstart : (Receiver.mk stack none []).res.getD "" = (boxed []).getD "" :=
    (congrArg (Option.getD · "") (boxed_utf8 "")).symm
  rw [receiver, receiverLoop_deliveries enc _ hreads, deliveries_texts enc hstart hnul, List.nil_append]

/-- For every stream without NUL and every cutting of it that completes the lines, the
receiver sends the text of every line, and nothing else, if and only if each line goes
by a faithful route. -/
theorem receiver_sends_texts_iff (enc : SystemEncoding) (stack : CharArray 1024) {reads : List ReadResult}
    (hreads : Undisturbed reads) (hnul : 0 ∉ stream reads) (hcut : CompletesLines (chunks reads)) :
    (receiver enc stack (reads.map (·, false))).sent.map utf8 = terminated isNewline (stream reads) ↔
      ∀ route ∈ routes [] (chunks reads), route.Faithful enc := by
  have hlines : terminated isNewline (stream reads) = (routes [] (chunks reads)).map Route.line := by
    have hkept := (carried_eq_terminated_iff (by simp) (chunks reads)).mpr hcut.keptFrom
    rw [routes_line, hkept]
    rfl
  rw [receiver_sent_texts enc stack hreads hnul, hlines, List.map_map, List.map_inj_left]
  exact forall₂_congr fun route _ => route.utf8_text_eq_line_iff enc

/-- `"é"` and a line end, cut inside the character. -/
def cutReads : List ReadResult :=
  [.bytes ⟨[0xC3], by decide, by decide⟩, .bytes ⟨[0xA9, 10], by decide, by decide⟩]

theorem cutReads_completesLines : CompletesLines (chunks cutReads) := by
  have hchunks : chunks cutReads = [[0xC3], [0xA9, 10]] := rfl
  rw [hchunks]
  intro before chunk after hsplit hpending
  match before with
  | [] => simp at hpending
  | [first] =>
    obtain ⟨-, rfl, -⟩ : [0xC3] = first ∧ [0xA9, 10] = chunk ∧ [] = after := by simpa using hsplit
    refine ⟨?_, 10, by simp, rfl⟩
    rintro b ⟨⟩
    rfl
  | first :: second :: before => simp at hsplit

theorem receiver_sends_texts_iff_cutReads :
    (receiver latin1 blankStack (cutReads.map (·, false))).sent.map utf8 = terminated isNewline (stream cutReads) ↔
      ∀ route ∈ routes [] (chunks cutReads), route.Faithful latin1 :=
  receiver_sends_texts_iff latin1 blankStack (by simp [Undisturbed, cutReads]) (by decide) cutReads_completesLines

/-- A character that is cut is lost in front, and read as another one behind. -/
theorem receiver_garbles_line :
    ¬ ∀ (enc : SystemEncoding) (stack : CharArray 1024) (reads : List ReadResult) (text : String),
      Undisturbed reads → 0 ∉ stream reads → stream reads = utf8 text → CompletesLines (chunks reads) →
        (receiver enc stack (reads.map (·, false))).sent.map utf8 = terminated isNewline (stream reads) := by
  intro halways
  have hreads : Undisturbed cutReads := by simp [Undisturbed, cutReads]
  have hnul : 0 ∉ stream cutReads := by decide
  have hsent := halways latin1 blankStack cutReads "é\n" hreads hnul (by decide +kernel) cutReads_completesLines
  rw [receiver_sent_texts latin1 blankStack hreads hnul] at hsent
  exact absurd hsent (by decide +kernel)

end MPSsh.MPSshShell

import MPSsh.Base.Segments

open Segments

namespace MPSsh.MPSshShell

variable {α : Type*} {p : α → Bool}

/-- Puts carried elements in front of the first segment, if there is one. -/
def prepend (carry : List α) : List (List α) → List (List α)
  | [] => []
  | line :: lines => (carry ++ line) :: lines

/-- The segments sent over a sequence of reads, when each read puts what it
finds carried in front of the first segment it terminates and then carries its
own unterminated rest. -/
def carried (p : α → Bool) : List α → List (List α) → List (List α)
  | _, [] => []
  | carry, chunk :: chunks => prepend carry (terminated p chunk) ++ carried p (unterminated p chunk) chunks

/-- Every chunk that is read while a line is under way neither begins with a
separator nor, if the line is ever terminated, lacks one. The line under way at
the start is `pending`. -/
def KeptFrom (p : α → Bool) (pending : List α) (chunks : List (List α)) : Prop :=
  ∀ before chunk after, chunks = before ++ chunk :: after → unterminated p (pending ++ before.flatten) ≠ [] →
    (∀ x ∈ chunk.head?, p x = false) ∧ ((∃ x ∈ chunk, p x = true) ∨ ∀ x ∈ after.flatten, p x = false)

theorem keptFrom_nil (pending : List α) : KeptFrom p pending [] := by
  intro before chunk after hsplit
  simp at hsplit

theorem keptFrom_cons {pending chunk : List α} {chunks : List (List α)} (hpending : ∀ x ∈ pending, p x = false) :
    KeptFrom p pending (chunk :: chunks) ↔
      (pending ≠ [] → (∀ x ∈ chunk.head?, p x = false) ∧
        ((∃ x ∈ chunk, p x = true) ∨ ∀ x ∈ chunks.flatten, p x = false)) ∧
      KeptFrom p (unterminated p (pending ++ chunk)) chunks := by
  have hshift (rest : List α) :
      unterminated p (pending ++ (chunk ++ rest)) = unterminated p (unterminated p (pending ++ chunk) ++ rest) := by
    rw [← List.append_assoc, unterminated_append]
  constructor
  · intro hkept
    refine ⟨fun hne => hkept [] chunk chunks rfl ?_, ?_⟩
    · simpa [unterminated_of_none hpending] using hne
    · rintro before next after rfl hne
      refine hkept (chunk :: before) next after rfl ?_
      rwa [List.flatten_cons, hshift]
  · rintro ⟨hhead, htail⟩ before next after hsplit hne
    cases before with
    | nil =>
      obtain ⟨rfl, rfl⟩ := List.cons.inj hsplit
      refine hhead ?_
      simpa [unterminated_of_none hpending] using hne
    | cons first before =>
      obtain ⟨rfl, hrest⟩ := List.cons.inj hsplit
      refine htail before next after hrest ?_
      rwa [List.flatten_cons, hshift] at hne

@[simp] theorem prepend_nil (lines : List (List α)) : prepend [] lines = lines := by
  cases lines <;> simp [prepend]

@[simp] theorem length_prepend (carry : List α) (lines : List (List α)) :
    (prepend carry lines).length = lines.length := by
  cases lines <;> simp [prepend]

/-- Without separators nothing is ever sent. -/
theorem carried_of_none (carry : List α) {chunks : List (List α)} (hnone : ∀ x ∈ chunks.flatten, p x = false) :
    carried p carry chunks = [] := by
  induction chunks generalizing carry with
  | nil => rfl
  | cons chunk chunks ih =>
    simp only [List.flatten_cons, List.mem_append, or_imp, forall_and] at hnone
    rw [carried, terminated_of_none hnone.1, ih _ hnone.2]
    rfl

/-- More text in front can only add a segment. -/
theorem length_terminated_le {pending : List α} (hpending : ∀ x ∈ pending, p x = false) (xs : List α) :
    (terminated p xs).length ≤ (terminated p (pending ++ xs)).length := by
  obtain hnone | ⟨front, x, rest, rfl, hfront, hx⟩ := first_separator p xs
  · simp [terminated_of_none hnone]
  · have hall : ∀ y ∈ pending ++ front, p y = false :=
      List.forall_mem_append.mpr ⟨hpending, hfront⟩
    rw [← List.append_assoc, terminated_first hfront hx, terminated_first hall hx]
    cases front <;> cases pending <;> simp

/-- The reads never send more segments than the stream has, whatever they carry
and whatever line is under way. -/
theorem length_carried_le (carry : List α) {pending : List α} (hpending : ∀ x ∈ pending, p x = false)
    (chunks : List (List α)) :
    (carried p carry chunks).length ≤ (terminated p (pending ++ chunks.flatten)).length := by
  induction chunks generalizing carry pending with
  | nil => simp [carried]
  | cons chunk chunks ih =>
    have hfirst := length_terminated_le hpending chunk
    have hrest := ih (unterminated p chunk) (unterminated_none p (pending ++ chunk))
    rw [carried, List.length_append, length_prepend, List.flatten_cons, ← List.append_assoc, terminated_append,
      List.length_append]
    omega

/-- A line end right after a line under way is sent by the stream and not by
the read that begins with it. -/
theorem length_carried_lt (carry : List α) {pending : List α} (hpending : ∀ x ∈ pending, p x = false)
    (hne : pending ≠ []) {x : α} (hx : p x = true) (rest : List α) (chunks : List (List α)) :
    (carried p carry ((x :: rest) :: chunks)).length <
      (terminated p (pending ++ ((x :: rest) :: chunks).flatten)).length := by
  have hcarried := length_carried_le (unterminated p rest) (unterminated_none p rest) chunks
  have hsplit := terminated_append p rest chunks.flatten
  rw [carried, terminated_cons hx, unterminated_cons hx, List.length_append, length_prepend, List.flatten_cons,
    List.cons_append, terminated_first hpending hx, if_neg hne, hsplit]
  simp only [List.length_append, List.length_singleton]
  omega

/-- Text lost from a line under way is missed once the line is terminated. -/
theorem carried_ne_of_shorter {carry pending : List α} (hpending : ∀ x ∈ pending, p x = false)
    (hshorter : carry.length < pending.length) {chunks : List (List α)} (hsome : ∃ x ∈ chunks.flatten, p x = true) :
    carried p carry chunks ≠ terminated p (pending ++ chunks.flatten) := by
  induction chunks generalizing carry pending with
  | nil => simp at hsome
  | cons chunk chunks ih =>
    have hne : pending ≠ [] := by
      rintro rfl
      simp at hshorter
    obtain hnone | ⟨front, x, rest, rfl, hfront, hx⟩ := first_separator p chunk
    · have hall : ∀ y ∈ pending ++ chunk, p y = false :=
        List.forall_mem_append.mpr ⟨hpending, hnone⟩
      have hlater : ∃ x ∈ chunks.flatten, p x = true := by
        obtain ⟨x, hmem, hx⟩ := hsome
        rcases List.mem_append.mp hmem with hmem | hmem
        · simp [hnone x hmem] at hx
        · exact ⟨x, hmem, hx⟩
      rw [carried, terminated_of_none hnone, unterminated_of_none hnone, List.flatten_cons, ← List.append_assoc]
      refine ih hall ?_ hlater
      have := List.length_pos_iff.mpr hne
      simp
      omega
    · intro heq
      cases front with
      | nil =>
        have hlt := length_carried_lt carry hpending hne hx rest chunks
        rw [List.nil_append] at heq
        rw [heq] at hlt
        exact Nat.lt_irrefl _ hlt
      | cons y front =>
        have hall : ∀ z ∈ pending ++ (y :: front), p z = false :=
          List.forall_mem_append.mpr ⟨hpending, hfront⟩
        have hstream : pending ++ ((y :: front ++ x :: rest) :: chunks).flatten =
            pending ++ (y :: front) ++ x :: (rest ++ chunks.flatten) := by simp
        rw [hstream, carried, terminated_first hfront hx, terminated_first hall hx] at heq
        have hhead := congrArg (fun lines => (lines.head?.map List.length)) heq
        simp [prepend] at hhead
        omega

/-- A chunk that begins inside a line and terminates it completes the line under way. -/
theorem prepend_terminated {pending front : List α} (hpending : ∀ x ∈ pending, p x = false)
    (hfront : ∀ x ∈ front, p x = false) (hne : front ≠ []) {x : α} (hx : p x = true) (rest : List α) :
    prepend pending (terminated p (front ++ x :: rest)) = terminated p (pending ++ (front ++ x :: rest)) := by
  have hall : ∀ y ∈ pending ++ front, p y = false :=
    List.forall_mem_append.mpr ⟨hpending, hfront⟩
  rw [← List.append_assoc, terminated_first hall hx, terminated_first hfront hx]
  simp [prepend, hne]

/-- A read keeps the line under way exactly when it does not begin with a separator
and has one. -/
theorem prepend_terminated_iff {pending : List α} (hpending : ∀ x ∈ pending, p x = false) (chunk : List α) :
    (prepend pending (terminated p chunk) = terminated p (pending ++ chunk) ∧
        unterminated p chunk = unterminated p (pending ++ chunk)) ↔
      (pending ≠ [] → (∀ x ∈ chunk.head?, p x = false) ∧ ∃ x ∈ chunk, p x = true) := by
  by_cases hne : pending = []
  · simp [hne]
  simp only [ne_eq, hne, not_false_eq_true, true_imp_iff]
  obtain hnone | ⟨front, x, rest, rfl, hfront, hx⟩ := first_separator p chunk
  · have hall : ∀ y ∈ pending ++ chunk, p y = false :=
      List.forall_mem_append.mpr ⟨hpending, hnone⟩
    rw [unterminated_of_none hnone, unterminated_of_none hall]
    constructor
    · rintro ⟨-, hsame⟩
      exact absurd (List.self_eq_append_left.mp hsame) hne
    · rintro ⟨-, x, hmem, hx⟩
      simp [hnone x hmem] at hx
  · cases front with
    | nil =>
      constructor
      · rintro ⟨hlines, -⟩
        rw [List.nil_append, terminated_cons hx, terminated_first hpending hx, if_neg hne] at hlines
        have hlength := congrArg List.length hlines
        simp at hlength
      · rintro ⟨hhead, -⟩
        have hfirst := hhead x (by simp)
        simp [hx] at hfirst
    | cons y front =>
      have hlines := prepend_terminated hpending hfront (by simp) hx rest
      have hrest : unterminated p (y :: front ++ x :: rest) = unterminated p (pending ++ (y :: front ++ x :: rest)) := by
        rw [← List.append_assoc, unterminated_append_cons _ rest hx, unterminated_append_cons _ rest hx]
      refine iff_of_true ⟨hlines, hrest⟩ ⟨?_, x, by simp, hx⟩
      simpa using hfront y (by simp)

/-- A read without a separator overwrites the text under way. It does no harm only
when the line is never terminated. -/
theorem carried_quiet_iff {pending chunk : List α} (hpending : ∀ x ∈ pending, p x = false) (hne : pending ≠ [])
    (hnone : ∀ x ∈ chunk, p x = false) (chunks : List (List α)) :
    carried p pending (chunk :: chunks) = terminated p (pending ++ chunk ++ chunks.flatten) ↔
      ∀ x ∈ chunks.flatten, p x = false := by
  have hall : ∀ y ∈ pending ++ chunk, p y = false :=
    List.forall_mem_append.mpr ⟨hpending, hnone⟩
  rw [carried, terminated_of_none hnone, unterminated_of_none hnone, prepend, List.nil_append]
  constructor
  · intro heq
    by_contra hlater
    have hsome : ∃ x ∈ chunks.flatten, p x = true := by
      simpa only [not_forall, Bool.not_eq_false, exists_prop] using hlater
    have hshorter : chunk.length < (pending ++ chunk).length := by
      have := List.length_pos_iff.mpr hne
      rw [List.length_append]
      omega
    exact carried_ne_of_shorter hall hshorter hsome heq
  · intro hlater
    have hquiet : ∀ y ∈ pending ++ chunk ++ chunks.flatten, p y = false :=
      List.forall_mem_append.mpr ⟨hall, hlater⟩
    rw [carried_of_none _ hlater, terminated_of_none hquiet]

/-- Reads that start from the line under way send the segments of the stream
exactly when every chunk keeps it. -/
theorem carried_eq_terminated_iff {pending : List α} (hpending : ∀ x ∈ pending, p x = false)
    (chunks : List (List α)) :
    carried p pending chunks = terminated p (pending ++ chunks.flatten) ↔ KeptFrom p pending chunks := by
  induction chunks generalizing pending with
  | nil => simp [carried, terminated_of_none hpending, keptFrom_nil]
  | cons chunk chunks ih =>
    have hstep := ih (unterminated_none p (pending ++ chunk))
    rw [keptFrom_cons hpending, ← hstep, List.flatten_cons, ← List.append_assoc]
    by_cases hne : pending = []
    · subst hne
      rw [List.nil_append, terminated_append]
      simp [carried]
    obtain hnone | ⟨front, x, rest, rfl, hfront, hx⟩ := first_separator p chunk
    · have hall : ∀ y ∈ pending ++ chunk, p y = false :=
        List.forall_mem_append.mpr ⟨hpending, hnone⟩
      have hhead : ∀ x ∈ chunk.head?, p x = false := fun x hx => hnone x (List.mem_of_mem_head? hx)
      have hnot : ¬ ∃ x ∈ chunk, p x = true := by
        rintro ⟨x, hmem, hx⟩
        simp [hnone x hmem] at hx
      rw [carried_quiet_iff hpending hne hnone, unterminated_of_none hall]
      constructor
      · intro hlater
        have hquiet : ∀ y ∈ pending ++ chunk ++ chunks.flatten, p y = false :=
          List.forall_mem_append.mpr ⟨hall, hlater⟩
        rw [carried_of_none _ hlater, terminated_of_none hquiet]
        exact ⟨fun _ => ⟨hhead, Or.inr hlater⟩, rfl⟩
      · rintro ⟨hkept, -⟩
        exact (hkept hne).2.resolve_left hnot
    · cases front with
      | nil =>
        -- The line end belongs to the line under way, and the read takes it for an empty line.
        constructor
        · intro heq
          have hlt := length_carried_lt pending hpending hne hx rest chunks
          rw [List.flatten_cons, ← List.append_assoc] at hlt
          rw [List.nil_append] at heq
          rw [heq] at hlt
          exact absurd hlt (Nat.lt_irrefl _)
        · rintro ⟨hkept, -⟩
          have := (hkept hne).1 x (by simp)
          simp [hx] at this
      | cons y front =>
        have hhead : ∀ z ∈ (y :: front ++ x :: rest).head?, p z = false := by simpa using hfront y (by simp)
        have hsep : ∃ z ∈ y :: front ++ x :: rest, p z = true := ⟨x, by simp, hx⟩
        obtain ⟨hlines, hrest⟩ := (prepend_terminated_iff hpending _).mpr fun _ => ⟨hhead, hsep⟩
        rw [carried, terminated_append p (pending ++ _) chunks.flatten, ← hlines, ← hrest, List.append_right_inj]
        exact (and_iff_right fun _ => ⟨hhead, Or.inl hsep⟩).symm

theorem subset_of_mem_prepend {carry chunk line : List α} (hline : line ∈ prepend carry (terminated p chunk)) :
    line ⊆ carry ++ chunk := by
  have hchunk : ∀ l ∈ terminated p chunk, l ⊆ chunk := fun l hl => subset_of_mem_terminated hl
  cases hlines : terminated p chunk with
  | nil => simp [hlines, prepend] at hline
  | cons first rest =>
    rw [hlines] at hline hchunk
    rw [prepend, List.mem_cons] at hline
    rcases hline with rfl | hline
    · exact List.append_subset.mpr ⟨List.subset_append_left _ _,
        List.Subset.trans (hchunk first (by simp)) (List.subset_append_right _ _)⟩
    · exact List.Subset.trans (hchunk line (by simp [hline])) (List.subset_append_right _ _)

theorem subset_of_mem_carried {carry line : List α} {chunks : List (List α)}
    (hline : line ∈ carried p carry chunks) : line ⊆ carry ++ chunks.flatten := by
  induction chunks generalizing carry with
  | nil => simp [carried] at hline
  | cons chunk chunks ih =>
    rw [carried, List.mem_append] at hline
    rw [List.flatten_cons, ← List.append_assoc]
    rcases hline with hline | hline
    · exact List.Subset.trans (subset_of_mem_prepend hline) (List.subset_append_left _ _)
    · intro x hx
      rcases List.mem_append.mp (ih hline hx) with hmem | hmem
      · simp [unterminated_subset chunk hmem]
      · exact List.mem_append_right _ hmem

end MPSsh.MPSshShell

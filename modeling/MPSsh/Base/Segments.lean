import Mathlib.Data.List.Basic

namespace Segments

variable {α : Type*} (p : α → Bool)

/-- The maximal non-empty runs of elements outside `p` that an element of `p`
terminates, in order. -/
def terminated (xs : List α) : List (List α) :=
  (xs.splitOnP p).dropLast.filter (! ·.isEmpty)

/-- What follows the last element of `p`. -/
def unterminated (xs : List α) : List α :=
  (xs.splitOnP p).getLast (List.splitOnP_ne_nil p xs)

variable {p}

/-- A list either avoids `p` or has a first element in `p`. -/
theorem first_separator (p : α → Bool) (xs : List α) :
    (∀ x ∈ xs, p x = false) ∨
      ∃ front x rest, xs = front ++ x :: rest ∧ (∀ y ∈ front, p y = false) ∧ p x = true := by
  induction xs with
  | nil => exact Or.inl (by simp)
  | cons y ys ih =>
    by_cases hy : p y = true
    · exact Or.inr ⟨[], y, ys, rfl, by simp, hy⟩
    · rw [Bool.not_eq_true] at hy
      obtain hnone | ⟨front, x, rest, rfl, hfront, hx⟩ := ih
      · exact Or.inl (by simpa [hy] using hnone)
      · exact Or.inr ⟨y :: front, x, rest, rfl, by simpa [hy] using hfront, hx⟩

/-- A list either avoids `p` or has a last element in `p`. -/
theorem last_separator (p : α → Bool) (xs : List α) :
    (∀ x ∈ xs, p x = false) ∨
      ∃ body x rest, xs = body ++ x :: rest ∧ (∀ y ∈ rest, p y = false) ∧ p x = true := by
  induction xs with
  | nil => exact Or.inl (by simp)
  | cons y ys ih =>
    obtain hnone | ⟨body, x, rest, rfl, hrest, hx⟩ := ih
    · by_cases hy : p y = true
      · exact Or.inr ⟨[], y, ys, rfl, hnone, hy⟩
      · exact Or.inl (by simpa [hy] using hnone)
    · exact Or.inr ⟨y :: body, x, rest, rfl, hrest, hx⟩

section Equations

variable {xs ys : List α} {x : α}

theorem terminated_of_none (hnone : ∀ x ∈ xs, p x = false) : terminated p xs = [] := by
  simp [terminated, List.splitOnP_eq_singleton hnone]

theorem unterminated_of_none (hnone : ∀ x ∈ xs, p x = false) : unterminated p xs = xs := by
  simp [unterminated, List.splitOnP_eq_singleton hnone]

@[simp] theorem terminated_nil : terminated p ([] : List α) = [] := rfl

@[simp] theorem unterminated_nil : unterminated p ([] : List α) = [] := rfl

theorem terminated_append_cons (xs ys : List α) (hx : p x = true) :
    terminated p (xs ++ x :: ys) =
      terminated p xs ++ (if unterminated p xs = [] then [] else [unterminated p xs]) ++ terminated p ys := by
  have hxs := List.dropLast_append_getLast (List.splitOnP_ne_nil p xs)
  have hfilter : (xs.splitOnP p).filter (! ·.isEmpty) =
      terminated p xs ++ if unterminated p xs = [] then [] else [unterminated p xs] := by
    rw [← hxs, List.filter_append, terminated, unterminated]
    split <;> simp_all
  rw [terminated, List.splitOnP_append_cons xs ys hx, List.dropLast_append_of_ne_nil (List.splitOnP_ne_nil p ys),
    List.filter_append, hfilter]
  rfl

theorem unterminated_append_cons (xs ys : List α) (hx : p x = true) :
    unterminated p (xs ++ x :: ys) = unterminated p ys := by
  have hne := List.splitOnP_ne_nil p ys
  simp only [unterminated, List.splitOnP_append_cons xs ys hx]
  rw [List.getLast_append_of_ne_nil _ hne]

/-- The first separator ends the first run, when there is anything before it. -/
theorem terminated_first (hxs : ∀ y ∈ xs, p y = false) (hx : p x = true) :
    terminated p (xs ++ x :: ys) = (if xs = [] then [] else [xs]) ++ terminated p ys := by
  rw [terminated_append_cons xs ys hx, terminated_of_none hxs, unterminated_of_none hxs, List.nil_append]

theorem terminated_cons (hx : p x = true) : terminated p (x :: ys) = terminated p ys := by
  simpa using terminated_append_cons [] ys hx

theorem unterminated_cons (hx : p x = true) : unterminated p (x :: ys) = unterminated p ys := by
  simpa using unterminated_append_cons [] ys hx

end Equations

/-- The unterminated part holds no separator. -/
theorem unterminated_none (p : α → Bool) (xs : List α) : ∀ x ∈ unterminated p xs, p x = false := by
  obtain hnone | ⟨body, x, rest, rfl, hrest, hx⟩ := last_separator p xs
  · rwa [unterminated_of_none hnone]
  · rwa [unterminated_append_cons body rest hx, unterminated_of_none hrest]

theorem subset_of_mem_splitOnP {xs line : List α} (hline : line ∈ xs.splitOnP p) : line ⊆ xs := by
  induction xs generalizing line with
  | nil => simpa using hline
  | cons x xs ih =>
    rw [List.splitOnP_cons_eq_if_modifyHead] at hline
    by_cases hx : p x = true
    · rw [if_pos hx, List.mem_cons] at hline
      rcases hline with rfl | hline
      · simp
      · exact List.subset_cons_of_subset x (ih hline)
    · rw [if_neg hx] at hline
      obtain ⟨first, rest, hsplit⟩ := List.exists_cons_of_ne_nil (List.splitOnP_ne_nil p xs)
      rw [hsplit, List.modifyHead_cons, List.mem_cons] at hline
      rcases hline with rfl | hline
      · exact List.cons_subset_cons x (ih (by simp [hsplit]))
      · exact List.subset_cons_of_subset x (ih (by simp [hsplit, hline]))

/-- An element that is no separator lies in one of the parts. -/
theorem exists_mem_splitOnP {xs : List α} {x : α} (hmem : x ∈ xs) (hx : p x = false) :
    ∃ part ∈ xs.splitOnP p, x ∈ part := by
  induction xs with
  | nil => simp at hmem
  | cons y ys ih =>
    rw [List.splitOnP_cons_eq_if_modifyHead]
    by_cases hy : p y = true
    · have hne : x ≠ y := by
        rintro rfl
        simp [hx] at hy
      obtain ⟨part, hpart, hxpart⟩ := ih (List.mem_of_ne_of_mem hne hmem)
      rw [if_pos hy]
      exact ⟨part, List.mem_cons_of_mem _ hpart, hxpart⟩
    · obtain ⟨first, rest, hsplit⟩ := List.exists_cons_of_ne_nil (List.splitOnP_ne_nil p ys)
      rw [if_neg hy, hsplit, List.modifyHead_cons]
      rcases List.mem_cons.mp hmem with rfl | hmem
      · exact ⟨x :: first, by simp, by simp⟩
      · obtain ⟨part, hpart, hxpart⟩ := ih hmem
        rw [hsplit, List.mem_cons] at hpart
        rcases hpart with rfl | hpart
        · exact ⟨y :: part, by simp, by simp [hxpart]⟩
        · exact ⟨part, by simp [hpart], hxpart⟩

theorem subset_of_mem_terminated {xs line : List α} (hline : line ∈ terminated p xs) : line ⊆ xs :=
  subset_of_mem_splitOnP (List.dropLast_subset _ (List.mem_filter.mp hline).1)

theorem unterminated_subset (xs : List α) : unterminated p xs ⊆ xs :=
  subset_of_mem_splitOnP (List.getLast_mem _)

/-- Splitting goes on from the unterminated part of what came before. -/
theorem terminated_append (p : α → Bool) (xs ys : List α) :
    terminated p (xs ++ ys) = terminated p xs ++ terminated p (unterminated p xs ++ ys) := by
  obtain hnone | ⟨body, x, rest, rfl, hrest, hx⟩ := last_separator p xs
  · rw [terminated_of_none hnone, unterminated_of_none hnone, List.nil_append]
  · rw [List.append_assoc, List.cons_append, terminated_append_cons body _ hx, terminated_append_cons body _ hx,
      unterminated_append_cons body rest hx, terminated_of_none hrest, unterminated_of_none hrest, List.append_nil]

theorem unterminated_append (p : α → Bool) (xs ys : List α) :
    unterminated p (xs ++ ys) = unterminated p (unterminated p xs ++ ys) := by
  obtain hnone | ⟨body, x, rest, rfl, hrest, hx⟩ := last_separator p xs
  · rw [unterminated_of_none hnone]
  · rw [List.append_assoc, List.cons_append, unterminated_append_cons body _ hx,
      unterminated_append_cons body rest hx, unterminated_of_none hrest]

theorem flatten_splitOnP (xs : List α) : (xs.splitOnP p).flatten = xs.filter (! p ·) := by
  induction xs with
  | nil => rfl
  | cons x xs ih =>
    obtain ⟨first, rest, hsplit⟩ := List.exists_cons_of_ne_nil (List.splitOnP_ne_nil p xs)
    rw [hsplit, List.flatten_cons] at ih
    by_cases hx : p x = true
    · simp [List.splitOnP_cons_eq_if_modifyHead, hsplit, hx, ih]
    · simp [List.splitOnP_cons_eq_if_modifyHead, hsplit, hx, ← ih]

/-- Cutting a list loses the separators and nothing else. -/
theorem flatten_terminated (p : α → Bool) (xs : List α) :
    (terminated p xs).flatten ++ unterminated p xs = xs.filter (! p ·) := by
  have hxs := List.dropLast_append_getLast (List.splitOnP_ne_nil p xs)
  rw [← flatten_splitOnP, ← hxs, List.flatten_append, List.flatten_singleton, terminated, unterminated,
    List.flatten_filter_not_isEmpty]

/-- Nothing is cut out of separators alone. -/
theorem terminated_unterminated_nil_iff (p : α → Bool) (xs : List α) :
    terminated p xs = [] ∧ unterminated p xs = [] ↔ ∀ x ∈ xs, p x = true := by
  have hflat := flatten_terminated p xs
  constructor
  · rintro ⟨hlines, hrest⟩
    rw [hlines, hrest, List.flatten_nil, List.nil_append, eq_comm, List.filter_eq_nil_iff] at hflat
    simpa using hflat
  · intro hall
    have hnone : xs.filter (! p ·) = [] := by
      rw [List.filter_eq_nil_iff]
      simpa using hall
    rw [hnone, List.append_eq_nil_iff, List.flatten_eq_nil_iff] at hflat
    refine ⟨?_, hflat.2⟩
    rw [List.eq_nil_iff_forall_not_mem]
    intro line hline
    have hkept := (List.mem_filter.mp hline).2
    simp [hflat.1 line hline] at hkept

end Segments

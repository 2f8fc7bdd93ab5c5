import Mathlib.Data.List.Basic
import Mathlib.Data.List.Induction

/-- A way to write the items of a list as words, with a separator between any two, such
that every item is read back from its word. -/
structure Codec (α χ : Type) where
  separator : χ
  write : α → List χ
  read : List χ → Option α
  read_write : ∀ x, read (write x) = some x
  separator_notMem : ∀ x, separator ∉ write x

namespace Codec

variable {α χ : Type} (codec : Codec α χ)

def writeAll (xs : List α) : List χ :=
  [codec.separator].intercalate (xs.map codec.write)

def readAll [DecidableEq χ] (text : List χ) : Option (List α) :=
  (text.splitOn codec.separator).mapM codec.read

@[simp] theorem writeAll_singleton (x : α) : codec.writeAll [x] = codec.write x := by
  simp [writeAll]

theorem writeAll_cons (x : α) {xs : List α} (hxs : xs ≠ []) :
    codec.writeAll (x :: xs) = codec.write x ++ codec.separator :: codec.writeAll xs := by
  cases xs with
  | nil => contradiction
  | cons y ys => simp [writeAll]

/-- Written from the front, every item but the last one gets a separator behind it. -/
theorem writeAll_concat (xs : List α) (x : α) :
    codec.writeAll (xs ++ [x]) = (xs.flatMap fun y => codec.write y ++ [codec.separator]) ++ codec.write x := by
  induction xs with
  | nil => simp
  | cons y ys ih =>
    rw [List.cons_append, codec.writeAll_cons y (by simp), ih, List.flatMap_cons]
    simp only [List.append_assoc, List.cons_append, List.nil_append]

/-- A text holds the separators and what the words hold. -/
theorem mem_writeAll {xs : List α} {c : χ} (hxs : xs ≠ []) (hc : c ∈ codec.writeAll xs) :
    c = codec.separator ∨ ∃ x ∈ xs, c ∈ codec.write x := by
  induction xs, hxs using List.recNeNil with
  | singleton x => exact Or.inr ⟨x, by simp, by simpa using hc⟩
  | cons x xs hxs ih =>
    rw [codec.writeAll_cons x hxs, List.mem_append, List.mem_cons] at hc
    obtain hword | rfl | hrest := hc
    · exact Or.inr ⟨x, by simp, hword⟩
    · exact Or.inl rfl
    · obtain rfl | ⟨y, hy, hword⟩ := ih hrest
      · exact Or.inl rfl
      · exact Or.inr ⟨y, by simp [hy], hword⟩

/-- Words of one length give texts whose length counts the items. -/
theorem length_writeAll {width : Nat} (hwidth : ∀ x, (codec.write x).length = width) {xs : List α} (hxs : xs ≠ []) :
    (codec.writeAll xs).length + 1 = xs.length * (width + 1) := by
  induction xs, hxs using List.recNeNil with
  | singleton x => simp [hwidth]
  | cons x xs hxs ih =>
    rw [codec.writeAll_cons x hxs, List.length_append, List.length_cons, List.length_cons, hwidth, Nat.succ_mul]
    omega

theorem mapM_read_write (xs : List α) : (xs.map codec.write).mapM codec.read = some xs := by
  induction xs with
  | nil => rfl
  | cons x xs ih =>
    rw [List.map_cons, List.mapM_cons, codec.read_write, ih]
    rfl

section Reading

variable [DecidableEq χ]

/-- There is one separator fewer than there are items. -/
theorem count_writeAll {xs : List α} (hxs : xs ≠ []) :
    (codec.writeAll xs).count codec.separator + 1 = xs.length := by
  have hnone (x : α) : (codec.write x).count codec.separator = 0 :=
    List.count_eq_zero.mpr (codec.separator_notMem x)
  induction xs, hxs using List.recNeNil with
  | singleton x => simp [hnone]
  | cons x xs hxs ih =>
    rw [codec.writeAll_cons x hxs, List.count_append, List.count_cons_self, hnone, List.length_cons]
    omega

/-- Cutting a text at its separators gives back the words. -/
theorem splitOn_writeAll {xs : List α} (hxs : xs ≠ []) :
    (codec.writeAll xs).splitOn codec.separator = xs.map codec.write := by
  refine List.splitOn_intercalate codec.separator ?_ (by simpa using hxs)
  intro word hword
  obtain ⟨x, -, rfl⟩ := List.mem_map.mp hword
  exact codec.separator_notMem x

theorem readAll_writeAll {xs : List α} (hxs : xs ≠ []) : codec.readAll (codec.writeAll xs) = some xs := by
  rw [readAll, codec.splitOn_writeAll hxs, codec.mapM_read_write]

end Reading

end Codec

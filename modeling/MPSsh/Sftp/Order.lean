import Mathlib.Data.List.Chain
import Mathlib.Data.Set.Defs
import MPSsh.SftpSession

namespace MPSsh

variable {p : Platform}

/-- `compare:options:` with `NSCaseInsensitiveSearch`: a total preorder of the strings.
What it returns for an argument that is `nil` is not specified. -/
structure CaseInsensitive where
  compare : String → String → Ordering
  preorder : Std.TransCmp compare
  compareNil : String → Ordering

attribute [instance] CaseInsensitive.preorder

/-- The message `[name compare:other options:NSCaseInsensitiveSearch]`, which returns
`NSOrderedSame` when it is sent to `nil`. -/
def CaseInsensitive.send (order : CaseInsensitive) : Option String → Option String → Ordering
  | none, _ => .eq
  | some name, none => order.compareNil name
  | some name, some other => order.compare name other

theorem CaseInsensitive.send_some (order : CaseInsensitive) (s t : String) :
    order.send (some s) (some t) = order.compare s t := rfl

namespace MPSftpItem

/-- `NSOrderedDescending` is `gt`. -/
def compare (order : CaseInsensitive) (self otherObject : MPSftpItem p) : Ordering :=
  if otherObject.directory && !self.directory then .gt
  else if !otherObject.directory && self.directory then .lt
  else order.send self.name otherObject.name

/-- The item does not come after the other one. -/
def NotAfter (order : CaseInsensitive) (a b : MPSftpItem p) : Prop :=
  a.compare order b ≠ .gt

/-- The comparison sorts the items of a set. -/
structure SortOrder (order : CaseInsensitive) (S : Set (MPSftpItem p)) : Prop where
  reverse : ∀ a ∈ S, ∀ b ∈ S, b.compare order a = (a.compare order b).swap
  notAfter_trans : ∀ a ∈ S, ∀ b ∈ S, ∀ c ∈ S, NotAfter order a b → NotAfter order b c → NotAfter order a c
  same_trans : ∀ a ∈ S, ∀ b ∈ S, ∀ c ∈ S, a.compare order b = .eq → b.compare order c = .eq → a.compare order c = .eq
  directories : ∀ a ∈ S, ∀ b ∈ S, a.directory = true → b.directory = false → a.compare order b = .lt
  sorts : ∀ items : List (MPSftpItem p), (∀ item ∈ items, item ∈ S) → items.IsChain (NotAfter order) →
    items.Pairwise (NotAfter order)

/-- Among the directories, and among the other items, one without a name does no harm:
the names of all the others are the same, and the same as `nil`. -/
def Harmless (order : CaseInsensitive) (S : Set (MPSftpItem p)) : Prop :=
  ∀ a ∈ S, a.name = none → ∀ b ∈ S, ∀ c ∈ S, b.directory = a.directory → c.directory = a.directory →
    ∀ s t, b.name = some s → c.name = some t → order.compareNil s = .eq ∧ order.compare s t = .eq

section Kinds

variable {order : CaseInsensitive} {a b c : MPSftpItem p}

theorem compare_of_same_kind (hkind : a.directory = b.directory) :
    a.compare order b = order.send a.name b.name := by
  simp [compare, hkind]

theorem compare_directory (ha : a.directory = true) (hb : b.directory = false) : a.compare order b = .lt := by
  simp [compare, ha, hb]

theorem compare_of_directory (ha : a.directory = false) (hb : b.directory = true) : a.compare order b = .gt := by
  simp [compare, ha, hb]

theorem same_kind_of_compare_eq (hsame : a.compare order b = .eq) : a.directory = b.directory := by
  cases ha : a.directory <;> cases hb : b.directory
  · rfl
  · rw [compare_of_directory ha hb] at hsame
    cases hsame
  · rw [compare_directory ha hb] at hsame
    cases hsame
  · rfl

/-- No directory comes after an item of the other kind. -/
theorem NotAfter.directory (hle : NotAfter order a b) (hb : b.directory = true) : a.directory = true := by
  cases ha : a.directory
  · exact absurd (compare_of_directory ha hb) hle
  · rfl

end Kinds

section Harmless

variable {order : CaseInsensitive} {S : Set (MPSftpItem p)} {a b c : MPSftpItem p}

/-- Where a name is missing, all items of the kind are the same. -/
theorem Harmless.send_eq (hharmless : Harmless order S) {n : MPSftpItem p} (hn : n ∈ S) (hname : n.name = none)
    (ha : a ∈ S) (hb : b ∈ S) (hakind : a.directory = n.directory) (hbkind : b.directory = n.directory) :
    order.send a.name b.name = .eq := by
  cases hs : a.name with
  | none => rfl
  | some s =>
    cases ht : b.name with
    | none => exact (hharmless n hn hname a ha a ha hakind hakind s s hs hs).1
    | some t => exact (hharmless n hn hname a ha b hb hakind hbkind s t hs ht).2

/-- The names of one kind are compared as strings are, or they are all the same. -/
theorem Harmless.names (hharmless : Harmless order S) (directory : Bool) :
    (∀ a ∈ S, ∀ b ∈ S, a.directory = directory → b.directory = directory → order.send a.name b.name = .eq) ∨
      ∀ a ∈ S, a.directory = directory → ∃ s, a.name = some s := by
  by_cases hnil : ∃ n ∈ S, n.directory = directory ∧ n.name = none
  · obtain ⟨n, hn, rfl, hname⟩ := hnil
    exact Or.inl fun a ha b hb hakind hbkind => hharmless.send_eq hn hname ha hb hakind hbkind
  · refine Or.inr fun a ha hkind => Option.ne_none_iff_exists'.mp fun hname => hnil ⟨a, ha, hkind, hname⟩

theorem Harmless.reverse (hharmless : Harmless order S) (ha : a ∈ S) (hb : b ∈ S) :
    b.compare order a = (a.compare order b).swap := by
  by_cases hkind : a.directory = b.directory
  · rw [compare_of_same_kind hkind, compare_of_same_kind hkind.symm]
    obtain hsame | hnamed := hharmless.names a.directory
    · rw [hsame a ha b hb rfl hkind.symm, hsame b hb a ha hkind.symm rfl]
      rfl
    · obtain ⟨s, hs⟩ := hnamed a ha rfl
      obtain ⟨t, ht⟩ := hnamed b hb hkind.symm
      rw [hs, ht, order.send_some, order.send_some]
      exact Std.OrientedCmp.eq_swap
  · cases hdir : a.directory <;> cases hdir' : b.directory
    · exact absurd (hdir.trans hdir'.symm) hkind
    · rw [compare_of_directory hdir hdir', compare_directory hdir' hdir]
      rfl
    · rw [compare_directory hdir hdir', compare_of_directory hdir' hdir]
      rfl
    · exact absurd (hdir.trans hdir'.symm) hkind

theorem Harmless.notAfter_trans (hharmless : Harmless order S) (ha : a ∈ S) (hb : b ∈ S) (hc : c ∈ S)
    (hab : NotAfter order a b) (hbc : NotAfter order b c) : NotAfter order a c := by
  by_cases hkind : a.directory = c.directory
  · -- An item between two of one kind is of this kind.
    have hmid : b.directory = a.directory := by
      cases hdir : b.directory
      · cases hdir' : a.directory
        · rfl
        · rw [hbc.directory (hkind ▸ hdir')] at hdir
          cases hdir
      · exact (hab.directory hdir).symm
    unfold NotAfter at hab hbc ⊢
    rw [compare_of_same_kind hmid.symm] at hab
    rw [compare_of_same_kind (hmid.trans hkind)] at hbc
    rw [compare_of_same_kind hkind]
    obtain hsame | hnamed := hharmless.names a.directory
    · rw [hsame a ha c hc rfl hkind.symm]
      simp
    · obtain ⟨s, hs⟩ := hnamed a ha rfl
      obtain ⟨t, ht⟩ := hnamed b hb hmid
      obtain ⟨u, hu⟩ := hnamed c hc hkind.symm
      rw [hs, ht, order.send_some, ne_eq, ← Ordering.isLE_iff_ne_gt] at hab
      rw [ht, hu, order.send_some, ne_eq, ← Ordering.isLE_iff_ne_gt] at hbc
      rw [hs, hu, order.send_some, ne_eq, ← Ordering.isLE_iff_ne_gt]
      exact Std.TransCmp.isLE_trans hab hbc
  · cases hdir : c.directory
    · have hother : a.directory = true := by simpa [hdir] using hkind
      rw [NotAfter, compare_directory hother hdir]
      simp
    · exact absurd ((hab.directory (hbc.directory hdir)).trans hdir.symm) hkind

theorem Harmless.same_trans (hharmless : Harmless order S) (ha : a ∈ S) (hb : b ∈ S) (hc : c ∈ S)
    (hab : a.compare order b = .eq) (hbc : b.compare order c = .eq) : a.compare order c = .eq := by
  have hkind := same_kind_of_compare_eq hab
  have hkind' := same_kind_of_compare_eq hbc
  rw [compare_of_same_kind hkind] at hab
  rw [compare_of_same_kind hkind'] at hbc
  rw [compare_of_same_kind (hkind.trans hkind')]
  obtain hsame | hnamed := hharmless.names a.directory
  · exact hsame a ha c hc rfl (hkind.trans hkind').symm
  · obtain ⟨s, hs⟩ := hnamed a ha rfl
    obtain ⟨t, ht⟩ := hnamed b hb hkind.symm
    obtain ⟨u, hu⟩ := hnamed c hc (hkind.trans hkind').symm
    rw [hs, ht, order.send_some] at hab
    rw [ht, hu, order.send_some] at hbc
    rw [hs, hu, order.send_some]
    exact Std.TransCmp.eq_trans hab hbc

end Harmless

/-- A list is sorted as a whole when every item is compared only with the next one, if
the comparison is transitive on its items. -/
theorem pairwise_of_isChain {order : CaseInsensitive} {S : Set (MPSftpItem p)}
    (htrans : ∀ a ∈ S, ∀ b ∈ S, ∀ c ∈ S, NotAfter order a b → NotAfter order b c → NotAfter order a c)
    {items : List (MPSftpItem p)} (hitems : ∀ item ∈ items, item ∈ S) (hchain : items.IsChain (NotAfter order)) :
    items.Pairwise (NotAfter order) := by
  induction items with
  | nil => exact .nil
  | cons a items ih =>
    obtain ⟨ha, hrest⟩ := List.forall_mem_cons.mp hitems
    obtain ⟨hnext, hchain⟩ := List.isChain_cons.mp hchain
    have hsorted := ih hrest hchain
    refine List.pairwise_cons.mpr ⟨fun b hb => ?_, hsorted⟩
    cases items with
    | nil => simp at hb
    | cons c items =>
      have hfirst : NotAfter order a c := hnext c (by simp)
      rcases List.mem_cons.mp hb with rfl | hlater
      · exact hfirst
      · have hc : c ∈ S := hrest c (by simp)
        exact htrans a ha c hc b (hrest b hb) hfirst ((List.pairwise_cons.mp hsorted).1 b hlater)

/-- On every set of items the comparison is a sort order if and only if the items
without a name do no harm. -/
theorem compare_sortOrder_iff (order : CaseInsensitive) (S : Set (MPSftpItem p)) :
    SortOrder order S ↔ Harmless order S := by
  constructor
  · intro hsort a ha hname b hb c hc hbkind hckind s t hs ht
    have hfront (d : MPSftpItem p) (hd : d.directory = a.directory) : a.compare order d = .eq := by
      rw [compare_of_same_kind hd.symm, hname]
      rfl
    have hback (d : MPSftpItem p) (hmem : d ∈ S) (hd : d.directory = a.directory) : d.compare order a = .eq := by
      rw [hsort.reverse a ha d hmem, hfront d hd]
      rfl
    have hnil := hback b hb hbkind
    rw [compare_of_same_kind hbkind, hname, hs] at hnil
    have hnames := hsort.same_trans b hb a ha c hc (hback b hb hbkind) (hfront c hckind)
    rw [compare_of_same_kind (hbkind.trans hckind.symm), hs, ht] at hnames
    exact ⟨hnil, hnames⟩
  · intro hharmless
    have htrans : ∀ a ∈ S, ∀ b ∈ S, ∀ c ∈ S, NotAfter order a b → NotAfter order b c → NotAfter order a c :=
      fun a ha b hb c hc hab hbc => hharmless.notAfter_trans ha hb hc hab hbc
    exact {
      reverse := fun a ha b hb => hharmless.reverse ha hb
      notAfter_trans := htrans
      same_trans := fun a ha b hb c hc hab hbc => hharmless.same_trans ha hb hc hab hbc
      directories := fun a _ b _ ha hb => compare_directory ha hb
      sorts := fun items hitems hchain => pairwise_of_isChain htrans hitems hchain }

/-- The order of the names in lower case. -/
def lowerCase (compareNil : String → Ordering) : CaseInsensitive where
  compare s t := Ord.compare (s.toList.map fun c => c.toLower.toNat) (t.toList.map fun c => c.toLower.toNat)
  preorder := { eq_swap := Std.OrientedCmp.eq_swap, isLE_trans := Std.TransCmp.isLE_trans }
  compareNil := compareNil

/-- A name that is no text between two files. -/
def mixedReads : Readdirs .lp64 :=
  .entry ⟨[97], ⟨0, 0, 0⟩⟩ (by decide)
    (.entry ⟨[255], ⟨0, 0, 0⟩⟩ (by decide) (.entry ⟨[98], ⟨0, 0, 0⟩⟩ (by decide) (.ended 0 Readdirs.zero_ends)))

def mixedItem (name : Option String) : MPSftpItem .lp64 where
  directory := false
  name := name
  size := 0

/-- The item without a name is the same as `"a"` and as `"b"`, or the order of the
arguments matters, whatever the comparison with `nil` returns. -/
theorem compare_not_sortOrder :
    ¬ ∃ compareNil : String → Ordering, ∀ (self : MPSftpSession) (directory : String) (opened : SftpHandle)
      (reads : Readdirs .lp64) (items : List (MPSftpItem .lp64)),
        (self.filesInDirectory directory opened reads).2 = some items →
          SortOrder (lowerCase compareNil) {item | item ∈ items} := by
  rintro ⟨compareNil, halways⟩
  have hitems : ((MPSftpSession.initWithSftpSession 7).filesInDirectory "/var/log" 9 mixedReads).2 =
      some ([some "a", none, some "b"].map mixedItem) := by decide +kernel
  have hsort := halways _ _ _ _ _ hitems
  have hmem {name : Option String} (hname : name ∈ [some "a", none, some "b"]) :
      mixedItem name ∈ {item | item ∈ [some "a", none, some "b"].map mixedItem} := List.mem_map_of_mem hname
  have hback : (mixedItem (some "a")).compare (lowerCase compareNil) (mixedItem none) = .eq :=
    hsort.reverse _ (hmem (by simp)) _ (hmem (by simp))
  have hsame := hsort.same_trans _ (hmem (by simp)) _ (hmem (by simp)) (mixedItem (some "b")) (hmem (by simp)) hback rfl
  have hnames : Ord.compare ("a".toList.map fun c => c.toLower.toNat) ("b".toList.map fun c => c.toLower.toNat) = .eq :=
    hsame
  exact absurd hnames (by decide +kernel)

end MPSftpItem

end MPSsh

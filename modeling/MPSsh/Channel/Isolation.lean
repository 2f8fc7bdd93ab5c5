import Mathlib.Data.List.Nodup
import MPSsh.Base.Schedule
import MPSsh.Channel

open Schedule

namespace MPSsh.MPLSChannel

variable {ι : Type*} [DecidableEq ι]

/-- A library call made by an operation on an object is made on the handle the
object was initialised with. -/
def OwnHandle (s : Process ι) (e : Event ι) : Prop :=
  match s.next e with
  | some (a, .call _) => (a, s.channel) ∈ s.objects
  | _ => True

/-- A shutdown that finds `blocked` set waits for a read of its own object, and
no read of another object is in progress. -/
def OwnWait (s : Process ι) (e : Event ι) : Prop :=
  match s.next e with
  | some (a, .waitUnblocked) => s.blocked = true →
      (∃ r ∈ s.running, r.1 = a ∧ midRead r.2 = true) ∧ ∀ r ∈ s.running, midRead r.2 = true → r.1 = a
  | _ => True

/-- The objects do not interfere in this transition. -/
def Isolated (s : Process ι) (e : Event ι) (t : Process ι) : Prop :=
  OwnHandle s e ∧ OwnWait s e ∧ t.freed.Nodup

/-- The operation that makes a library call is on the object created last, and
a shutdown that finds `blocked` set does so while no other object is read. -/
def OnNewest (s : Process ι) (e : Event ι) (_ : Process ι) : Prop :=
  match s.next e with
  | some (a, .call _) => (s.objects.head?.map Prod.fst) = some a
  | some (a, .waitUnblocked) => s.blocked = true → ∀ r ∈ s.running, midRead r.2 = true → r.1 = a
  | _ => True

instance (s : Process ι) (e : Event ι) (t : Process ι) : Decidable (Isolated s e t) := by
  unfold Isolated OwnHandle OwnWait
  refine @instDecidableAnd _ _ ?_ (@instDecidableAnd _ _ ?_ inferInstance) <;> split <;> infer_instance

/-- The calls of `libssh2_channel_free` that the invocations on `a` have ahead. -/
def pendingFrees (a : ι) (running : List (ι × List Instr)) : Nat :=
  (running.map fun r => if r.1 = a then r.2.count (.call .free) else 0).sum

structure Inv (s : Process ι) : Prop where
  names : (s.objects.map Prod.fst).Nodup
  handles : (s.objects.map Prod.snd).Nodup
  current : ∀ o ∈ s.objects.head?, s.channel = o.2
  known : ∀ r ∈ s.running, r.1 ∈ s.objects.map Prod.fst
  code : ∀ r ∈ s.running, ∃ m : Method, r.2 <:+ m.code
  reading : s.blocked = true → ∃ r ∈ s.running, midRead r.2 = true
  frees : ∀ o ∈ s.objects,
    pendingFrees o.1 s.running + s.freed.count o.2 ≤ if o.1 ∈ s.retired then 1 else 0
  freed : ∀ h ∈ s.freed, h ∈ s.objects.map Prod.snd

theorem start_inv : Inv (start : Process ι) := by
  constructor <;> simp [start]

/-- The object created last is the one that was initialised with the current handle. -/
theorem Inv.newest_iff {s : Process ι} (hinv : Inv s) {a : ι} :
    s.objects.head?.map Prod.fst = some a ↔ (a, s.channel) ∈ s.objects := by
  constructor
  · intro hnewest
    obtain ⟨newest, hhead, rfl⟩ := Option.map_eq_some_iff.mp hnewest
    rw [hinv.current newest hhead]
    exact List.mem_of_mem_head? hhead
  · intro hmem
    obtain ⟨newest, older, hobjects⟩ := List.exists_cons_of_ne_nil (List.ne_nil_of_mem hmem)
    have hhead : newest ∈ s.objects.head? := by simp [hobjects]
    have hsame := List.inj_on_of_nodup_map hinv.handles (List.mem_of_mem_head? hhead) hmem
      (hinv.current newest hhead).symm
    simp [hobjects, hsame]

theorem Inv.handle_eq_iff {s : Process ι} (hinv : Inv s) {a : ι} (hmem : (a, s.channel) ∈ s.objects)
    {o : ι × Handle} (ho : o ∈ s.objects) : o.2 = s.channel ↔ o.1 = a := by
  constructor
  · intro heq
    rw [List.inj_on_of_nodup_map hinv.handles ho hmem heq]
  · intro heq
    rw [List.inj_on_of_nodup_map hinv.names ho hmem heq]

/-- A step frees the handle of the object it belongs to, if it frees one at all. -/
theorem Inv.count_freed_exec {s : Process ι} (hinv : Inv s) {a : ι} {instr : Instr}
    (hcurrent : instr = .call .free → (a, s.channel) ∈ s.objects) {o : ι × Handle} (ho : o ∈ s.objects) :
    (s.exec instr).freed.count o.2 = s.freed.count o.2 + if a = o.1 ∧ instr = .call .free then 1 else 0 := by
  rw [exec_freed, List.count_append]
  by_cases hfree : instr = .call .free
  · have hiff := hinv.handle_eq_iff (hcurrent hfree) ho
    by_cases heq : o.1 = a
    · rw [hiff.mpr heq, if_pos hfree, if_pos ⟨heq.symm, hfree⟩, List.count_singleton_self]
    · have hne : o.2 ∉ [s.channel] := fun h => heq (hiff.mp (List.mem_singleton.mp h))
      rw [if_pos hfree, if_neg fun h => heq h.1.symm, List.count_eq_zero.mpr hne]
  · rw [if_neg hfree, if_neg fun h => hfree h.2, List.count_nil]

/-- What an advancing invocation does: it waits, or it executes its first step. -/
theorem step_advance {s t : Process ι} {k : Nat} (hstep : step s (.advance k) = some t) :
    ∃ before a instr rest after, s.running = before ++ (a, instr :: rest) :: after ∧
      s.next (.advance k) = some (a, instr) ∧
      ((instr = .waitUnblocked ∧ s.blocked = true ∧ t = s) ∨
        t = { s with toGlobals := s.exec instr, running := before ++ (a, rest) :: after }) := by
  simp only [step] at hstep
  split at hstep
  · rename_i a instr rest hget
    obtain ⟨hk, hgetk⟩ := List.getElem?_eq_some_iff.mp hget
    have hsplit : s.running = s.running.take k ++ (a, instr :: rest) :: s.running.drop (k + 1) := by
      rw [← hgetk, List.getElem_cons_drop, List.take_append_drop]
    refine ⟨s.running.take k, a, instr, rest, s.running.drop (k + 1), hsplit, by simp [Process.next, hget], ?_⟩
    split at hstep
    · rename_i hwait
      obtain ⟨hinstr, hblocked⟩ := (waits_iff _ _).mp hwait
      exact Or.inl ⟨hinstr, hblocked, (Option.some.inj hstep).symm⟩
    · right
      rw [← Option.some.inj hstep, List.set_eq_take_append_cons_drop, if_pos hk]
  · cases hstep

section Counting

@[simp] theorem pendingFrees_nil (a : ι) : pendingFrees a [] = 0 := rfl

variable (a b : ι) (before after : List (ι × List Instr)) (code rest : List Instr)

theorem pendingFrees_append :
    pendingFrees a (before ++ after) = pendingFrees a before + pendingFrees a after := by
  simp [pendingFrees]

theorem pendingFrees_cons :
    pendingFrees a ((b, code) :: after) =
      (if b = a then code.count (.call .free) else 0) + pendingFrees a after := by
  simp [pendingFrees]

/-- An instruction that is done is no longer ahead. -/
theorem pendingFrees_advance (instr : Instr) :
    pendingFrees a (before ++ (b, instr :: rest) :: after) =
      pendingFrees a (before ++ (b, rest) :: after) + if b = a ∧ instr = .call .free then 1 else 0 := by
  rw [pendingFrees_append, pendingFrees_append, pendingFrees_cons, pendingFrees_cons, List.count_cons]
  by_cases hname : b = a
  · by_cases hfree : instr = .call .free
    · simp only [hname, hfree, and_self, if_true, beq_self_eq_true]
      omega
    · simp [hname, hfree]
  · simp [hname]

theorem pendingFrees_of_unknown {a : ι} {running : List (ι × List Instr)} (hnew : ∀ r ∈ running, r.1 ≠ a) :
    pendingFrees a running = 0 := by
  simp only [pendingFrees, List.sum_eq_zero_iff_forall_eq_nat, List.mem_map]
  rintro n ⟨r, hr, rfl⟩
  rw [if_neg (hnew r hr)]

end Counting

theorem count_free_code (m : Method) : m.code.count (.call .free) ≤ if m.final then 1 else 0 := by
  cases m <;> decide

theorem initWithChannel_inv {s t : Process ι} {a : ι} {h : Handle} (hinv : Inv s)
    (hstep : step s (.initWithChannel a h) = some t) : Inv t := by
  simp only [step] at hstep
  split at hstep
  · cases hstep
  rename_i hnew
  rw [not_or] at hnew
  obtain ⟨ha, hh⟩ := hnew
  obtain rfl := Option.some.inj hstep
  have hunused : pendingFrees a s.running = 0 :=
    pendingFrees_of_unknown fun r hr heq => ha (heq ▸ hinv.known r hr)
  have hunfreed : s.freed.count h = 0 := List.count_eq_zero.mpr fun hmem => hh (hinv.freed h hmem)
  constructor
  · simpa using ⟨by simpa using ha, hinv.names⟩
  · simpa using ⟨by simpa using hh, hinv.handles⟩
  · simp
  · exact fun r hr => List.mem_cons_of_mem _ (hinv.known r hr)
  · exact hinv.code
  · exact hinv.reading
  · intro o ho
    rcases List.mem_cons.mp ho with rfl | ho
    · simp only [hunused, hunfreed]
      omega
    · exact hinv.frees o ho
  · exact fun b hb => List.mem_cons_of_mem _ (hinv.freed b hb)

theorem invoke_inv {s t : Process ι} {a : ι} {m : Method} (hinv : Inv s)
    (hstep : step s (.invoke a m) = some t) : Inv t := by
  simp only [step] at hstep
  split at hstep
  · cases hstep
  rename_i hok
  rw [not_or, not_not] at hok
  obtain ⟨hknown, hactive⟩ := hok
  obtain rfl := Option.some.inj hstep
  constructor
  · exact hinv.names
  · exact hinv.handles
  · exact hinv.current
  · exact List.forall_mem_append.mpr ⟨hinv.known, by simpa using hknown⟩
  · exact List.forall_mem_append.mpr ⟨hinv.code, by simpa using ⟨m, List.suffix_refl _⟩⟩
  · intro hblocked
    obtain ⟨r, hr, hmid⟩ := hinv.reading hblocked
    exact ⟨r, List.mem_append_left _ hr, hmid⟩
  · intro o ho
    have hbound := hinv.frees o ho
    have hcode := count_free_code m
    rw [pendingFrees_append, pendingFrees_cons]
    by_cases heq : a = o.1
    · subst heq
      rw [if_neg hactive] at hbound
      by_cases hfinal : m.final = true
      · simp only [hfinal, if_true, List.mem_cons, true_or, pendingFrees_nil] at hcode ⊢
        omega
      · simp only [hfinal, Bool.false_eq_true, if_false, if_true, hactive, pendingFrees_nil] at hcode ⊢
        omega
    · have hretired : o.1 ∈ (if m.final = true then a :: s.retired else s.retired) ↔ o.1 ∈ s.retired := by
        split <;> simp [Ne.symm heq]
      simp only [hretired, if_neg heq, pendingFrees_nil]
      simpa using hbound
  · exact hinv.freed

/-- An invocation that advances keeps the invariant when its library calls are
made on the object created last. -/
theorem advance_inv {s t : Process ι} {k : Nat} (hinv : Inv s) (hcond : OnNewest s (.advance k) t)
    (hstep : step s (.advance k) = some t) : Inv t := by
  obtain ⟨before, a, instr, rest, after, hrunning, hnext, ⟨-, -, rfl⟩ | rfl⟩ := step_advance hstep
  · exact hinv
  have hmem : (a, instr :: rest) ∈ s.running := by simp [hrunning]
  obtain ⟨m, hsuffix⟩ := hinv.code _ hmem
  have hrest : rest <:+ m.code := (List.suffix_cons instr rest).trans hsuffix
  have hsub : ∀ r ∈ before ++ (a, rest) :: after, r ∈ s.running ∨ r = (a, rest) := by
    intro r hr
    rw [hrunning]
    simp only [List.mem_append, List.mem_cons] at hr ⊢
    tauto
  have hpending (b : ι) : pendingFrees b s.running =
      pendingFrees b (before ++ (a, rest) :: after) + if a = b ∧ instr = .call .free then 1 else 0 := by
    rw [hrunning, pendingFrees_advance]
  have hcurrent (hfree : instr = .call .free) : (a, s.channel) ∈ s.objects := by
    simp only [OnNewest, hnext, hfree] at hcond
    exact hinv.newest_iff.mp hcond
  constructor
  · simpa using hinv.names
  · simpa using hinv.handles
  · simpa using hinv.current
  · intro r hr
    rcases hsub r hr with hr | rfl
    · exact hinv.known r hr
    · exact hinv.known (a, instr :: rest) hmem
  · intro r hr
    rcases hsub r hr with hr | rfl
    · exact hinv.code r hr
    · exact ⟨m, hrest⟩
  · intro hblocked
    rcases (exec_blocked s.toGlobals instr).mp hblocked with hset | ⟨hold, hclear⟩
    · exact ⟨(a, rest), by simp, (midRead_tail hsuffix).mpr (Or.inl hset)⟩
    · obtain ⟨r, hr, hmid⟩ := hinv.reading hold
      rw [hrunning, List.mem_append, List.mem_cons] at hr
      rcases hr with hr | rfl | hr
      · exact ⟨r, by simp [hr], hmid⟩
      · exact ⟨(a, rest), by simp, (midRead_tail hsuffix).mpr (Or.inr ⟨hmid, hclear⟩)⟩
      · exact ⟨r, by simp [hr], hmid⟩
  · intro o ho
    have hbound := hinv.frees o ho
    rw [hpending] at hbound
    have hcount := hinv.count_freed_exec hcurrent ho
    simp only [hcount]
    omega
  · intro h hh
    rw [exec_freed, List.mem_append] at hh
    rcases hh with hh | hh
    · exact hinv.freed h hh
    · by_cases hfree : instr = .call .free
      · simp only [hfree, if_true, List.mem_singleton] at hh
        rw [hh]
        exact List.mem_map_of_mem (hcurrent hfree)
      · simp [hfree] at hh

theorem step_inv {s t : Process ι} {e : Event ι} (hinv : Inv s) (hcond : OnNewest s e t)
    (hstep : step s e = some t) : Inv t := by
  cases e with
  | initWithChannel a h => exact initWithChannel_inv hinv hstep
  | invoke a m => exact invoke_inv hinv hstep
  | advance k => exact advance_inv hinv hcond hstep

/-- No handle is freed twice. -/
theorem Inv.freed_nodup {s : Process ι} (hinv : Inv s) : s.freed.Nodup := by
  rw [List.nodup_iff_count_le_one]
  intro h
  by_cases hmem : h ∈ s.freed
  · obtain ⟨o, ho, rfl⟩ := List.mem_map.mp (hinv.freed h hmem)
    have hbound := hinv.frees o ho
    split at hbound <;> omega
  · rw [List.count_eq_zero.mpr hmem]
    omega

/-- For a state that the condition has led to, no interference is the same as
the condition. -/
theorem isolated_iff_onNewest {s t : Process ι} {e : Event ι} (hinv : Inv s) (hstep : step s e = some t) :
    Isolated s e t ↔ OnNewest s e t := by
  constructor
  · rintro ⟨hhandle, hwait, -⟩
    unfold OnNewest
    split
    · rename_i a f hnext
      simp only [OwnHandle, hnext] at hhandle
      exact hinv.newest_iff.mpr hhandle
    · rename_i a hnext
      simp only [OwnWait, hnext] at hwait
      exact fun hblocked => (hwait hblocked).2
    · trivial
  · intro hcond
    refine ⟨?_, ?_, (step_inv hinv hcond hstep).freed_nodup⟩
    · unfold OwnHandle
      split
      · rename_i a f hnext
        simp only [OnNewest, hnext] at hcond
        exact hinv.newest_iff.mp hcond
      · trivial
    · unfold OwnWait
      split
      · rename_i a hnext
        simp only [OnNewest, hnext] at hcond
        intro hblocked
        obtain ⟨r, hr, hmid⟩ := hinv.reading hblocked
        exact ⟨⟨r, hr, hcond hblocked r hr hmid, hmid⟩, hcond hblocked⟩
      · trivial

/-- For every number of channel objects and every interleaving of the steps of
their methods: the objects do not interfere if and only if every library call
is made by an operation on the object created last and no shutdown waits while
another object is read. -/
theorem isolated_iff (es : List (Event ι)) :
    Along step Isolated start es ↔ Along step OnNewest start es :=
  along_iff_of_invariant Inv (fun _ _ _ hinv hstep => isolated_iff_onNewest hinv hstep)
    (fun _ _ _ hinv hcond hstep => step_inv hinv hcond hstep) start_inv

/-- Two objects are created, and the first one is shut down. -/
def crossedShutdown : List (Event Nat) :=
  [.initWithChannel 0 100, .initWithChannel 1 200, .invoke 0 .shutdown] ++ List.replicate 7 (.advance 0)

/-- Shutting the first object down closes and frees the channel of the second. -/
theorem shutdown_crosses : ¬ ∀ es : List (Event Nat), Along step Isolated start es := by
  intro halways
  exact absurd (halways crossedShutdown) (by decide)

end MPSsh.MPLSChannel

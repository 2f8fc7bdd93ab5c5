import MPSsh.Channel.Isolation
import MPSsh.Session.Credentials
import MPSsh.SftpSession

open Schedule

namespace MPSsh

open MPLSChannel (Handle OnNewest)
open MPSshSession (Phase Progress SessionEvent Connected)

/-- The object is idle, and connected. -/
def MPSshSession.Phase.connected : Phase → Bool
  | .idle object _ => object.connected
  | _ => false

/-- What the library has opened for an object that uses it: the libssh2 session it was
opened on, and the session object that asked for it, with its progress at the time. -/
structure Opening (α : Type) where
  user : α
  pointer : Nat
  session : SessionHandle
  object : MPSshSession
  progress : Progress

namespace Opening

/-- It was opened on the session that the object had created and started on its own
socket, whose fingerprint its delegate had accepted, and on which the user had been
authenticated. -/
def Trusted {α : Type} (opening : Opening α) : Prop :=
  opening.session = opening.progress.current ∧ Connected opening.object opening.progress

end Opening

/-- The session objects and the channel objects of a process, over the file-scope
variables of both classes, with the channels and the SFTP sessions that have been
opened. -/
structure System (ι κ : Type) where
  sessions : MPSshSession.Process ι
  channels : MPLSChannel.Process κ
  opened : List (Opening κ)
  sftp : List (Opening MPSftpSession)

inductive SystemEvent (ι κ : Type) where
  | session (e : ι × SessionEvent)
  /-- `newSshShellWithError:` on the object `a` makes the channel object `x` for what the
  library returns. -/
  | newSshShell (a : ι) (x : κ) (returned : Handle)
  | newSftpSession (a : ι) (returned : SftpPointer)
  | channel (e : MPLSChannel.Event κ)

namespace System

variable {ι κ : Type} [DecidableEq ι] [DecidableEq κ]

omit [DecidableEq κ] in
/-- The library opens something on the session in the file-scope variable. -/
def opening {α : Type} (s : System ι κ) (a : ι) (object : MPSshSession) (user : α) (pointer : Nat) : Opening α where
  user := user
  pointer := pointer
  session := s.sessions.session
  object := object
  progress := s.sessions.progress a

/-- A `NULL` that the library returns is put in the variable `channel` all the same. -/
def channelOpenSession (s : System ι κ) (a : ι) (object : MPSshSession) (x : κ) (returned : Handle) :
    Option (System ι κ) :=
  if returned = 0 then some { s with channels := { s.channels with channel := 0 } }
  else (MPLSChannel.step s.channels (.initWithChannel x returned)).map fun channels =>
    { s with channels, opened := s.opening a object x returned :: s.opened }

omit [DecidableEq κ] in
/-- There is no object for a `NULL`. -/
def sftpInit (s : System ι κ) (a : ι) (object : MPSshSession) (returned : SftpPointer) : System ι κ :=
  if returned = 0 then s
  else { s with sftp := s.opening a object (MPSftpSession.initWithSftpSession returned) returned :: s.sftp }

/-- Without a session object nothing is opened. Channel objects are made by
`newSshShellWithError:` only. -/
def step (s : System ι κ) : SystemEvent ι κ → Option (System ι κ)
  | .session e => (s.sessions.step e).map fun sessions => { s with sessions }
  | .newSshShell a x returned =>
    match s.sessions.objects a with
    | .idle object _ => if object.session.isSome then s.channelOpenSession a object x returned else none
    | _ => none
  | .newSftpSession a returned =>
    match s.sessions.objects a with
    | .idle object _ => if object.session.isSome then some (s.sftpInit a object returned) else none
    | _ => none
  | .channel (.initWithChannel _ _) => none
  | .channel e => (MPLSChannel.step s.channels e).map fun channels => { s with channels }

omit [DecidableEq ι] [DecidableEq κ] in
def start (delegate : ι → Delegate) : System ι κ where
  sessions := .start delegate
  channels := MPLSChannel.start
  opened := []
  sftp := []

/-- A library call that is made for a shell is made on the channel that was opened for
it. -/
def OnOwnChannel (s : System ι κ) (e : SystemEvent ι κ) : Prop :=
  match e with
  | .channel e =>
    match s.channels.next e with
    | some (x, .call _) => ∃ opening ∈ s.opened, opening.user = x ∧ opening.pointer = s.channels.channel
    | _ => True
  | _ => True

/-- The shells use their own channels, and all that has been opened was opened on a
session that was trusted then. -/
structure Routed (s : System ι κ) (e : SystemEvent ι κ) (t : System ι κ) : Prop where
  channel : s.OnOwnChannel e
  opened : ∀ opening ∈ t.opened, opening.Trusted
  sftp : ∀ opening ∈ t.sftp, opening.Trusted

/-- Session objects act on the session variable only while they have initialised a session
last; shells and SFTP sessions are opened by such objects when they are connected, and
the shells successfully; and a channel is used only while its object is the one created
last. -/
def Orderly (s : System ι κ) : SystemEvent ι κ → System ι κ → Prop
  | .session e, t => s.sessions.ByLastInit e t.sessions
  | .newSshShell a _ returned, _ =>
    s.sessions.lastInit = some a ∧ (s.sessions.objects a).connected = true ∧ returned ≠ 0
  | .newSftpSession a _, _ => s.sessions.lastInit = some a ∧ (s.sessions.objects a).connected = true
  | .channel e, t => OnNewest s.channels e t.channels

instance (s : MPLSChannel.Process κ) (e : MPLSChannel.Event κ) (t : MPLSChannel.Process κ) : Decidable (OnNewest s e t) := by
  unfold OnNewest
  split <;> infer_instance

instance Orderly.decidable (s : System ι κ) (e : SystemEvent ι κ) (t : System ι κ) : Decidable (Orderly s e t) := by
  unfold Orderly
  split <;> infer_instance

/-- What the two halves keep, and where the channel objects come from. -/
structure Inv (delegate : ι → Delegate) (s : System ι κ) : Prop where
  sessions : s.sessions.SharedInv delegate
  channels : MPLSChannel.Inv s.channels
  objects : ∀ o ∈ s.channels.objects, ∃ opening ∈ s.opened, opening.user = o.1 ∧ opening.pointer = o.2
  opened : ∀ opening ∈ s.opened, opening.Trusted
  sftp : ∀ opening ∈ s.sftp, opening.Trusted

theorem start_inv (delegate : ι → Delegate) : Inv delegate (start delegate : System ι κ) := by
  refine ⟨MPSshSession.Process.start_sharedInv delegate, MPLSChannel.start_inv, ?_, ?_, ?_⟩ <;>
    simp [start, MPLSChannel.start]

/-- What a connected object that has initialised a session last opens can be trusted. -/
theorem Inv.opening_trusted {delegate : ι → Delegate} {s : System ι κ} (hinv : Inv delegate s) {a : ι}
    {object : MPSshSession} {ended : Option MPSshSession.Return} (hidle : s.sessions.objects a = .idle object ended)
    (hlast : s.sessions.lastInit = some a) (hconnected : (s.sessions.objects a).connected = true) {α : Type} (user : α)
    (pointer : Nat) : (s.opening a object user pointer).Trusted := by
  have hphase := hinv.sessions.phase a
  rw [hidle] at hphase hconnected
  exact ⟨hinv.sessions.session a hlast, hphase.connected hconnected⟩

/-- Only `initWithChannel:` makes a channel object. -/
theorem objects_of_step {s t : MPLSChannel.Process κ} {e : MPLSChannel.Event κ} (hnew : ∀ x h, e ≠ .initWithChannel x h)
    (hstep : MPLSChannel.step s e = some t) : t.objects = s.objects := by
  cases e with
  | initWithChannel x h => exact absurd rfl (hnew x h)
  | invoke x m =>
    simp only [MPLSChannel.step] at hstep
    split at hstep
    · cases hstep
    · exact Option.some.inj hstep ▸ rfl
  | advance k =>
    obtain ⟨_, _, _, _, _, -, -, ⟨-, -, rfl⟩ | rfl⟩ := MPLSChannel.step_advance hstep <;> rfl

theorem newSshShell_inv {delegate : ι → Delegate} {s t : System ι κ} {a : ι} {x : κ} {returned : Handle}
    (hinv : Inv delegate s) (hlast : s.sessions.lastInit = some a) (hconnected : (s.sessions.objects a).connected = true)
    (hreturned : returned ≠ 0) (hstep : s.step (.newSshShell a x returned) = some t) : Inv delegate t := by
  simp only [step] at hstep
  split at hstep
  · rename_i object ended hidle
    split at hstep
    · simp only [channelOpenSession, if_neg hreturned, Option.map_eq_some_iff] at hstep
      obtain ⟨channels, hchannels, rfl⟩ := hstep
      have hobjects : channels.objects = (x, returned) :: s.channels.objects := by
        simp only [MPLSChannel.step] at hchannels
        split at hchannels
        · cases hchannels
        · exact Option.some.inj hchannels ▸ rfl
      refine ⟨hinv.sessions, MPLSChannel.initWithChannel_inv hinv.channels hchannels, fun o ho => ?_, ?_, hinv.sftp⟩
      · rw [hobjects] at ho
        obtain rfl | hold := List.mem_cons.mp ho
        · exact ⟨_, List.mem_cons_self, rfl, rfl⟩
        · obtain ⟨opening, hmem, hopening⟩ := hinv.objects o hold
          exact ⟨opening, List.mem_cons_of_mem _ hmem, hopening⟩
      · exact List.forall_mem_cons.mpr ⟨hinv.opening_trusted hidle hlast hconnected x returned, hinv.opened⟩
    · cases hstep
  · cases hstep

theorem newSftpSession_inv {delegate : ι → Delegate} {s t : System ι κ} {a : ι} {returned : SftpPointer}
    (hinv : Inv delegate s) (hlast : s.sessions.lastInit = some a) (hconnected : (s.sessions.objects a).connected = true)
    (hstep : s.step (.newSftpSession a returned) = some t) : Inv delegate t := by
  simp only [step] at hstep
  split at hstep
  · rename_i object ended hidle
    split at hstep
    · obtain rfl := Option.some.inj hstep
      unfold sftpInit
      split
      · exact hinv
      · refine ⟨hinv.sessions, hinv.channels, hinv.objects, hinv.opened, ?_⟩
        exact List.forall_mem_cons.mpr ⟨hinv.opening_trusted hidle hlast hconnected _ returned, hinv.sftp⟩
    · cases hstep
  · cases hstep

theorem step_inv {delegate : ι → Delegate} (hdelegate : ∀ a, (delegate a).fingerprint = true) {s t : System ι κ}
    {e : SystemEvent ι κ} (hinv : Inv delegate s) (hcond : Orderly s e t) (hstep : s.step e = some t) : Inv delegate t := by
  cases e with
  | session e =>
    obtain ⟨sessions, hsessions, rfl⟩ := Option.map_eq_some_iff.mp hstep
    exact ⟨MPSshSession.Process.step_sharedInv hdelegate hinv.sessions hcond hsessions, hinv.channels, hinv.objects, hinv.opened,
      hinv.sftp⟩
  | newSshShell a x returned => exact newSshShell_inv hinv hcond.1 hcond.2.1 hcond.2.2 hstep
  | newSftpSession a returned => exact newSftpSession_inv hinv hcond.1 hcond.2 hstep
  | channel e =>
    have hnew : ∀ x h, e ≠ .initWithChannel x h := by
      rintro x h rfl
      cases hstep
    have hmade : (MPLSChannel.step s.channels e).map (fun channels => { s with channels }) = some t := by
      cases e with
      | initWithChannel x h => exact absurd rfl (hnew x h)
      | invoke | advance => exact hstep
    obtain ⟨channels, hchannels, rfl⟩ := Option.map_eq_some_iff.mp hmade
    refine ⟨hinv.sessions, MPLSChannel.step_inv hinv.channels hcond hchannels, fun o ho => ?_, hinv.opened, hinv.sftp⟩
    exact hinv.objects o (objects_of_step hnew hchannels ▸ ho)

/-- The object created last is the one whose channel is in the variable. -/
theorem onOwnChannel_of_orderly {delegate : ι → Delegate} {s t : System ι κ} {e : SystemEvent ι κ} (hinv : Inv delegate s)
    (hcond : Orderly s e t) : s.OnOwnChannel e := by
  cases e with
  | session | newSshShell | newSftpSession => trivial
  | channel e =>
    unfold OnOwnChannel
    simp only
    split
    · rename_i x f hnext
      simp only [Orderly, OnNewest, hnext] at hcond
      exact hinv.objects _ (hinv.channels.newest_iff.mp hcond)
    · trivial

/-- For any number of session objects whose delegates are asked about fingerprints and any
number of shells that are opened successfully, in every orderly interleaving of connects,
shutdowns, new shells, new SFTP sessions and the operations on the channels: whatever a
shell sends or reads goes through the channel that was opened for it, and every channel
and SFTP session was opened on the session that the opening object had started on its
own socket, had had accepted and had authenticated on. -/
theorem shells_on_trusted_sessions {delegate : ι → Delegate} (hdelegate : ∀ a, (delegate a).fingerprint = true)
    {es : List (SystemEvent ι κ)} (hcond : Along step Orderly (start delegate) es) :
    Along step Routed (start delegate) es := by
  refine Along.of_invariant (Inv delegate) ?_ (start_inv delegate) hcond
  intro s e t hinv horderly hstep
  have hnext := step_inv hdelegate hinv horderly hstep
  exact ⟨⟨onOwnChannel_of_orderly hinv horderly, hnext.opened, hnext.sftp⟩, hnext⟩

/-- An object connects, opens an SFTP session and a shell, and a command is written. Then
another one does the same with its own shell. -/
def commanded : List (SystemEvent Bool Bool) :=
  (MPSshSession.Process.connects false 5 14).map .session ++
    [.newSftpSession false 7, .newSshShell false false 9, .channel (.invoke false .write), .channel (.advance 0)] ++
    (MPSshSession.Process.connects true 6 14).map .session ++
    [.newSftpSession true 8, .newSshShell true true 11, .channel (.invoke true .write), .channel (.advance 1)]

theorem shells_on_trusted_sessions_commanded :
    Along step Routed (start fun _ => MPSshSession.Process.fullDelegate) commanded :=
  shells_on_trusted_sessions (fun _ => rfl) (by decide +kernel)

end System

end MPSsh

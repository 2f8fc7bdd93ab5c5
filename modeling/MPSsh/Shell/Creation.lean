import Mathlib.Data.List.Forall2
import MPSsh.Channel
import MPSsh.Session

open Interaction

namespace MPSsh

open MPLSChannel (Handle)

/-- What the library returns in one call of `newSshShellWithError:`. The channel can be
`NULL`, and a request returns 0 on success. -/
structure ShellAnswers where
  channel : Handle
  requestPty : Int
  shell : Int
  deriving DecidableEq, Repr

inductive ShellEvent where
  | openSession (returned : Handle)
  | requestPty (channel : Handle) (rc : Int)
  | shell (channel : Handle) (rc : Int)
  | write (channel : Handle)
  | close (channel : Handle)
  | waitClosed (channel : Handle)
  | free (channel : Handle)
  | detachReceiver
  | didChangeState (state : MPSshSessionState)
  deriving DecidableEq, Repr

/-- The file-scope variable `channel`, the caller's error, and what has happened. -/
structure Creation where
  channel : Handle
  error : Option NSError
  events : List ShellEvent
  deriving DecidableEq, Repr

abbrev CreationM := StateM Creation

def happens (event : ShellEvent) : CreationM Unit :=
  modify fun s => { s with events := s.events ++ [event] }

namespace MPLSSession

/-- The channel object stands for the channel it is made for, and there is one also for
`NULL`. -/
def channelOpenSession (answers : ShellAnswers) : CreationM Handle := do
  happens (.openSession answers.channel)
  modify fun s => { s with channel := answers.channel }
  return answers.channel

end MPLSSession

namespace NewChannel

/-- The methods of `MPLSChannel` work on the file-scope variable. -/
def requestPty (answers : ShellAnswers) : CreationM Int := do
  happens (.requestPty (← get).channel answers.requestPty)
  return answers.requestPty

def shell (answers : ShellAnswers) : CreationM Int := do
  happens (.shell (← get).channel answers.shell)
  return answers.shell

def free : CreationM Unit := do
  happens (.free (← get).channel)

def write : CreationM Unit := do
  happens (.write (← get).channel)

/-- The wait for a read that is under way is left out. -/
def shutdown : CreationM Unit := do
  happens (.close (← get).channel)
  happens (.waitClosed (← get).channel)
  happens (.free (← get).channel)

end NewChannel

/-- The property `channel` of a shell object is `NULL` after a shutdown. -/
structure NewShell where
  channel : Option Handle
  deriving DecidableEq, Repr

namespace NewShell

def shutdown (self : NewShell) : CreationM NewShell := do
  if self.channel.isSome then
    NewChannel.shutdown
    return { self with channel := none }
  else
    return self

/-- The command that sets the prompt is written to the channel, if there is one. -/
def execCommand (self : NewShell) : CreationM Unit := do
  if self.channel.isSome then NewChannel.write

/-- `-[MPSshShell initWithChannel:]`. -/
def initWithChannel (ch : Handle) (answers : ShellAnswers) : CreationM (Option NewShell) := do
  let self : NewShell := { channel := some ch }
  let rc ← NewChannel.requestPty answers
  if rc < 0 then
    NewChannel.free
    return none
  else
    let rc ← NewChannel.shell answers
    let self ← if rc ≠ 0 then self.shutdown else pure self
    happens .detachReceiver
    self.execCommand
    return some self

/-- The shell that is returned for a channel. -/
def created (ch : Handle) (answers : ShellAnswers) : Option NewShell :=
  if answers.requestPty < 0 then none else some { channel := if answers.shell = 0 then some ch else none }

/-- What happens to a channel while its shell is made. -/
def creation (ch : Handle) (answers : ShellAnswers) : List ShellEvent :=
  .requestPty ch answers.requestPty ::
    if answers.requestPty < 0 then [.free ch]
    else .shell ch answers.shell ::
      if answers.shell = 0 then [.detachReceiver, .write ch]
      else [.close ch, .waitClosed ch, .free ch, .detachReceiver]

theorem initWithChannel_run (answers : ShellAnswers) (s : Creation) :
    (initWithChannel s.channel answers).run s =
      pure (created s.channel answers, { s with events := s.events ++ creation s.channel answers }) := by
  by_cases hpty : answers.requestPty < 0
  · simp [initWithChannel, NewChannel.requestPty, NewChannel.free, happens, created, creation, hpty]
  · by_cases hshell : answers.shell = 0
    · simp [initWithChannel, NewChannel.requestPty, NewChannel.shell, execCommand, NewChannel.write, happens, created,
        creation, hpty, hshell]
    · simp [initWithChannel, NewChannel.requestPty, NewChannel.shell, shutdown, NewChannel.shutdown, execCommand,
        happens, created, creation, hpty, hshell]

end NewShell

/-- A session object whose delegate may also respond to `didOpenSshSession:`, which is
no method of its protocol. -/
structure ShellOpener extends MPSshSession where
  didOpenSshSession : Bool
  deriving DecidableEq, Repr

namespace ShellOpener

/-- The delegate that responds to `didOpenSshSession:` is sent another message, which
raises if there is no method for it. -/
def newSshShellWithError (self : ShellOpener) (wantsError : Bool) (answers : ShellAnswers) :
    CreationM (Outcome (Option NewShell)) := do
  match self.session with
  | none =>
    if wantsError then
      modify fun s => { s with error := some { code := 100, localizedDescription := "Unable to open a session" } }
    return .returns none
  | some _ =>
    let c ← MPLSSession.channelOpenSession answers
    if self.didOpenSshSession then
      if self.delegate.didChangeState then
        happens (.didChangeState .opened)
        return .returns (← NewShell.initWithChannel c answers)
      else
        return .raised
    else
      return .returns (← NewShell.initWithChannel c answers)

/-- A call of the method, and what the library answers in it. -/
structure Request where
  wantsError : Bool
  answers : ShellAnswers

/-- What is seen of a call. -/
structure Call where
  outcome : Outcome (Option NewShell)
  error : Option NSError
  events : List ShellEvent
  deriving DecidableEq, Repr

/-- One call, and the file-scope variable after it. -/
def call (self : ShellOpener) (channel : Handle) (request : Request) : Call × Handle :=
  let result := Id.run ((self.newSshShellWithError request.wantsError request.answers).run
    { channel, error := none, events := [] })
  ({ outcome := result.1, error := result.2.error, events := result.2.events }, result.2.channel)

/-- The shell that is returned, if one is. -/
def Call.shell (made : Call) : Option NewShell :=
  match made.outcome with
  | .returns shell => shell
  | .raised | .crashed => none

/-- A sequence of calls. -/
def calls (self : ShellOpener) : Handle → List Request → List Call
  | _, [] => []
  | channel, request :: requests =>
    let (made, channel) := self.call channel request
    made :: self.calls channel requests

/-- The notification that a call sends. -/
def notification (self : ShellOpener) : List ShellEvent :=
  if self.didOpenSshSession then [.didChangeState .opened] else []

/-- How a call ends once the library has been asked for a channel. -/
def asked (self : ShellOpener) (answers : ShellAnswers) : Call where
  outcome := .returns (NewShell.created answers.channel answers)
  error := none
  events := .openSession answers.channel :: self.notification ++ NewShell.creation answers.channel answers

section Cases

variable {self : ShellOpener} {channel : Handle} {request : Request}

/-- Without a session there is no channel object. -/
theorem call_nil (hsession : self.session = none) :
    (self.call channel request).1 =
      { outcome := .returns none
        error := if request.wantsError then some { code := 100, localizedDescription := "Unable to open a session" } else none
        events := [] } := by
  by_cases hwants : request.wantsError = true <;> simp [call, newSshShellWithError, hsession, hwants]

theorem call_raised (hsession : self.session.isSome) (hopen : self.didOpenSshSession = true)
    (hchange : self.delegate.didChangeState = false) :
    (self.call channel request).1 =
      { outcome := .raised, error := none, events := [.openSession request.answers.channel] } := by
  obtain ⟨session, hsession⟩ := Option.isSome_iff_exists.mp hsession
  simp [call, newSshShellWithError, hsession, hopen, hchange, MPLSSession.channelOpenSession, happens]

/-- A channel that is `NULL` makes no difference. -/
theorem call_some (hsession : self.session.isSome)
    (hdelegate : self.didOpenSshSession = true → self.delegate.didChangeState = true) :
    (self.call channel request).1 = self.asked request.answers := by
  obtain ⟨session, hsession⟩ := Option.isSome_iff_exists.mp hsession
  by_cases hopen : self.didOpenSshSession = true
  · have hmade := NewShell.initWithChannel_run request.answers
      ⟨request.answers.channel, none, [.openSession request.answers.channel, .didChangeState .opened]⟩
    simp [call, newSshShellWithError, hsession, hopen, hdelegate hopen, MPLSSession.channelOpenSession, happens, asked,
      notification, hmade]
  · have hmade := NewShell.initWithChannel_run request.answers
      ⟨request.answers.channel, none, [.openSession request.answers.channel]⟩
    simp [call, newSshShellWithError, hsession, hopen, MPLSSession.channelOpenSession, happens, asked, notification,
      hmade]

end Cases

/-- What has been done with a channel. -/
structure ChannelState where
  opened : Bool
  pty : Bool
  shell : Bool
  deriving DecidableEq, Repr

def ChannelState.after (h : Handle) (state : ChannelState) : ShellEvent → ChannelState
  | .openSession returned => if returned = h then ⟨true, false, false⟩ else state
  | .requestPty channel rc => if channel = h ∧ rc = 0 then { state with pty := true } else state
  | .shell channel rc => if channel = h ∧ rc = 0 then { state with shell := true } else state
  | .close channel | .free channel => if channel = h then ⟨false, false, false⟩ else state
  | _ => state

/-- The channel is open with a pty and a running shell. -/
def Running (h : Handle) (events : List ShellEvent) : Prop :=
  h ≠ 0 ∧ events.foldl (ChannelState.after h) ⟨false, false, false⟩ = ⟨true, true, true⟩

/-- No channel is opened, or it gets no pty or no shell. -/
def Failed (self : ShellOpener) (answers : ShellAnswers) : Prop :=
  self.session = none ∨ answers.channel = 0 ∨ answers.requestPty ≠ 0 ∨ answers.shell ≠ 0

/-- How a call has to end. -/
structure Contract (opener : ShellOpener) (request : Request) (made : Call) : Prop where
  returns : made.outcome = .returns made.shell
  nil_iff : made.shell = none ↔ opener.Failed request.answers
  error : opener.Failed request.answers → request.wantsError = true → made.error.isSome = true
  receiver : opener.Failed request.answers → .detachReceiver ∉ made.events
  running : ∀ shell, made.shell = some shell → ∃ h, shell.channel = some h ∧ Running h made.events
  notified : opener.delegate.didChangeState = true →
    made.events.count (.didChangeState .opened) = if made.shell.isSome then 1 else 0

/-- Nothing is opened; or the pty is refused, and neither an error nor a notification is
asked for; or nothing fails, and the two methods of the delegate come together. -/
def Meets (self : ShellOpener) (request : Request) : Prop :=
  self.session = none ∨
    (request.answers.requestPty < 0 ∧ request.wantsError = false ∧ self.didOpenSshSession = false) ∨
      request.answers.channel ≠ 0 ∧ request.answers.requestPty = 0 ∧ request.answers.shell = 0 ∧
        self.didOpenSshSession = self.delegate.didChangeState

section Contract

variable {self : ShellOpener} {request : Request}

theorem contract_nil {made : Call} (hsession : self.session = none) (hshell : made.outcome = .returns none)
    (herror : request.wantsError = true → made.error.isSome = true) (hevents : made.events = []) :
    self.Contract request made where
  returns := by rw [Call.shell, hshell]
  nil_iff := iff_of_true (by rw [Call.shell, hshell]) (Or.inl hsession)
  error := fun _ => herror
  receiver := by simp [hevents]
  running := by simp [Call.shell, hshell]
  notified := by simp [Call.shell, hshell, hevents]

/-- The channel that a successful call has opened is running when it returns. -/
theorem running_creation {answers : ShellAnswers} (hchannel : answers.channel ≠ 0) (hpty : answers.requestPty = 0)
    (hshell : answers.shell = 0) :
    Running answers.channel
      (.openSession answers.channel :: self.notification ++ NewShell.creation answers.channel answers) := by
  refine ⟨hchannel, ?_⟩
  by_cases hopen : self.didOpenSshSession = true <;>
    simp [notification, NewShell.creation, hpty, hshell, hopen, ChannelState.after]

theorem notification_count :
    self.notification.count (.didChangeState .opened) = if self.didOpenSshSession then 1 else 0 := by
  unfold notification
  split <;> simp

theorem asked_shell (answers : ShellAnswers) : (self.asked answers).shell = NewShell.created answers.channel answers := rfl

/-- A call without a pty keeps the contract if nobody is told about it. -/
theorem asked_withoutPty_iff (hpty : request.answers.requestPty < 0) :
    self.Contract request (self.asked request.answers) ↔
      request.wantsError = false ∧ (self.delegate.didChangeState = true → self.didOpenSshSession = false) := by
  have hfailed : self.Failed request.answers := Or.inr (Or.inr (Or.inl (by omega)))
  have hcount : (self.asked request.answers).events.count (.didChangeState .opened) =
      if self.didOpenSshSession then 1 else 0 := by
    simp [asked, NewShell.creation, hpty, notification_count]
  constructor
  · intro hcontract
    constructor
    · cases hwants : request.wantsError
      · rfl
      · have herror := hcontract.error hfailed hwants
        cases herror
    · intro hchange
      have hnotified := hcontract.notified hchange
      rw [hcount, asked_shell, NewShell.created, if_pos hpty] at hnotified
      simpa using hnotified
  · rintro ⟨hwants, hsilent⟩
    exact {
      returns := rfl
      nil_iff := iff_of_true (by rw [asked_shell, NewShell.created, if_pos hpty]) hfailed
      error := by simp [hwants]
      receiver := by
        intro _
        unfold asked NewShell.creation notification
        split <;> simp
      running := by simp [asked_shell, NewShell.created, hpty]
      notified := by
        intro hchange
        rw [hcount, asked_shell, NewShell.created, if_pos hpty, hsilent hchange]
        rfl }

/-- A call with a pty and a shell keeps the contract if there is a channel behind them,
and a delegate that can be told of it is. -/
theorem asked_running_iff (hsession : self.session.isSome) (hpty : request.answers.requestPty = 0)
    (hshell : request.answers.shell = 0) :
    self.Contract request (self.asked request.answers) ↔
      request.answers.channel ≠ 0 ∧ (self.delegate.didChangeState = true → self.didOpenSshSession = true) := by
  have hcreated : NewShell.created request.answers.channel request.answers = some ⟨some request.answers.channel⟩ := by
    simp [NewShell.created, hpty, hshell]
  have hcount : (self.asked request.answers).events.count (.didChangeState .opened) =
      if self.didOpenSshSession then 1 else 0 := by
    simp [asked, NewShell.creation, hpty, hshell, notification_count]
  constructor
  · intro hcontract
    constructor
    · intro hnull
      have hnone := hcontract.nil_iff.mpr (Or.inr (Or.inl hnull))
      rw [asked_shell, hcreated] at hnone
      cases hnone
    · intro hchange
      have hnotified := hcontract.notified hchange
      rw [hcount, asked_shell, hcreated] at hnotified
      simpa using hnotified
  · rintro ⟨hchannel, htold⟩
    have hsucceeded : ¬ self.Failed request.answers := by
      rintro (hnone | hnull | hrefused | hrefused)
      · simp [hnone] at hsession
      · exact hchannel hnull
      · exact hrefused hpty
      · exact hrefused hshell
    exact {
      returns := rfl
      nil_iff := iff_of_false (by simp [asked_shell, hcreated]) hsucceeded
      error := fun hfailed => absurd hfailed hsucceeded
      receiver := fun hfailed => absurd hfailed hsucceeded
      running := by
        intro shell hsome
        obtain rfl : ⟨some request.answers.channel⟩ = shell := Option.some.inj (hcreated.symm.trans hsome)
        exact ⟨_, rfl, running_creation hchannel hpty hshell⟩
      notified := by
        intro hchange
        rw [hcount, asked_shell, hcreated, htold hchange]
        rfl }

/-- A failed request after which the pty is not taken for refused: a shell is returned
nevertheless. -/
theorem asked_withoutShell (hpty : ¬ request.answers.requestPty < 0)
    (hfailed : request.answers.requestPty ≠ 0 ∨ request.answers.shell ≠ 0) :
    ¬ self.Contract request (self.asked request.answers) := by
  intro hcontract
  have hnone := hcontract.nil_iff.mpr (Or.inr (Or.inr hfailed))
  simp [asked_shell, NewShell.created, hpty] at hnone

theorem asked_contract_iff (hsession : self.session.isSome)
    (hdelegate : self.didOpenSshSession = true → self.delegate.didChangeState = true) :
    self.Contract request (self.asked request.answers) ↔ self.Meets request := by
  have hpresent : self.session ≠ none := Option.isSome_iff_ne_none.mp hsession
  unfold Meets
  rw [or_iff_right hpresent]
  by_cases hpty : request.answers.requestPty < 0
  · rw [asked_withoutPty_iff hpty, or_iff_left (by omega), and_iff_right hpty]
    refine and_congr_right fun _ => ⟨fun hsilent => ?_, fun hclosed _ => hclosed⟩
    cases hopen : self.didOpenSshSession
    · rfl
    · rw [← hopen]
      exact hsilent (hdelegate hopen)
  · rw [or_iff_right (by omega)]
    by_cases hfailed : request.answers.requestPty ≠ 0 ∨ request.answers.shell ≠ 0
    · exact iff_of_false (asked_withoutShell hpty hfailed) fun hall => hfailed.elim (· hall.2.1) (· hall.2.2.1)
    · obtain ⟨hzero, hshell⟩ : request.answers.requestPty = 0 ∧ request.answers.shell = 0 := by
        simpa [not_or] using hfailed
      rw [asked_running_iff hsession hzero hshell]
      refine and_congr_right fun _ => ⟨fun htold => ⟨hzero, hshell, ?_⟩, fun hall hchange => ?_⟩
      · exact Bool.eq_iff_iff.mpr ⟨hdelegate, htold⟩
      · rw [hall.2.2, hchange]

end Contract

theorem call_contract_iff (self : ShellOpener) (channel : Handle) (request : Request) :
    self.Contract request (self.call channel request).1 ↔ self.Meets request := by
  cases hsession : self.session with
  | none =>
    refine iff_of_true ?_ (Or.inl hsession)
    rw [call_nil hsession]
    exact contract_nil hsession rfl (fun hwants => by simp [hwants]) rfl
  | some session =>
    have hsome : self.session.isSome := by simp [hsession]
    by_cases hraises : self.didOpenSshSession = true ∧ self.delegate.didChangeState = false
    · obtain ⟨hopen, hchange⟩ := hraises
      rw [call_raised hsome hopen hchange]
      constructor
      · intro hcontract
        have hreturns := hcontract.returns
        cases hreturns
      · rintro (hnone | ⟨-, -, hclosed⟩ | ⟨-, -, -, hsame⟩)
        · simp [hsession] at hnone
        · simp [hopen] at hclosed
        · simp [hopen, hchange] at hsame
    · have hdelegate : self.didOpenSshSession = true → self.delegate.didChangeState = true := by
        intro hopen
        simpa [hopen] using hraises
      rw [call_some hsome hdelegate]
      exact asked_contract_iff hsome hdelegate

/-- For every sequence of calls and everything the library returns in them, all calls
end as they have to if and only if each of them is one of those. -/
theorem calls_contract_iff (self : ShellOpener) (channel : Handle) (requests : List Request) :
    List.Forall₂ self.Contract requests (self.calls channel requests) ↔ ∀ request ∈ requests, self.Meets request := by
  induction requests generalizing channel with
  | nil => simp [calls]
  | cons request requests ih =>
    rw [calls, List.forall₂_cons, call_contract_iff, ih, List.forall_mem_cons]

/-- A session whose delegate has no method for its shells. -/
def quietOpener : ShellOpener where
  sock := 5
  connected := true
  session := some { userauthlist := none }
  delegate := ⟨false, false, false⟩
  didOpenSshSession := false

/-- The server refuses the pty. -/
def refusedPty : Request where
  wantsError := true
  answers := ⟨9, -1, 0⟩

/-- A call can return `nil` and leave the caller without an error. -/
theorem calls_break_contract :
    ¬ ∀ (self : ShellOpener) (channel : Handle) (requests : List Request),
      List.Forall₂ self.Contract requests (self.calls channel requests) := by
  intro halways
  have hcontract := (List.forall₂_cons.mp (halways quietOpener 0 [refusedPty])).1
  have herror := hcontract.error (Or.inr (Or.inr (Or.inl (by decide)))) rfl
  exact absurd herror (by decide)

end ShellOpener

end MPSsh

import MPSsh.Host.Names
import MPSsh.Session.Requests

namespace MPSsh.MPSshSession.Native

open Interaction Method Ownership MPHost.Native

def fillError (code : Int) (msg : String) : NativeMethod Frame Unit :=
  modify fun s => if s.wantsError then { s with error := some { code, localizedDescription := msg } } else s

def createSocket : NativeMethod Frame Bool := do
  modify fun s => { s with sock := -1 }
  let s ← get
  match ← addressForHostname s.params.ip with
  | none =>
    fillError 100 "unable to resolve address"
    return false
  | some ipAdr =>
    let c ← native .CFSocketCreate
    let d ← native (.CFDataCreate (.sockaddr { sin_port := htons s.params.port, sin_addr := inet_addr ipAdr }))
    let e ← native (.CFSocketConnectToAddress c d)
    native (.CFRelease d)
    match e with
    | .error =>
      native (.CFRelease c)
      fillError 100 "failed to connect"
      return false
    | .timeout =>
      native (.CFRelease c)
      fillError 100 "connection timeout"
      return false
    | .success =>
      let descriptor ← native (.CFSocketGetNative c)
      modify fun s => { s with sock := descriptor }
      return true

/-- The calls by which a socket is connected to an address. -/
def connectSocket (address : SockAddrIn) : NativeProg ConnectResult := do
  let c ← nativeCall .CFSocketCreate
  let d ← nativeCall (.CFDataCreate (.sockaddr address))
  let e ← nativeCall (.CFSocketConnectToAddress c d)
  nativeCall (.CFRelease d)
  match e with
  | .error =>
    nativeCall (.CFRelease c)
    return .error
  | .timeout =>
    nativeCall (.CFRelease c)
    return .timeout
  | .success =>
    let descriptor ← nativeCall (.CFSocketGetNative c)
    return .connected descriptor

/-- How the calls of the session methods are carried out. -/
def carryOut : (c : SessionCall) → NativeProg c.Reply
  | .resolve hostname => resolve hostname
  | .connectSocket address => connectSocket address
  | c => nativeCall (.session c)

section Refinement

variable {α : Type} (s : Frame)

theorem modify_bind (g : Frame → Frame) (f : PUnit → SessionMethod α) : (modify g >>= f) s = f () (g s) := rfl

theorem get_bind (f : Frame → SessionMethod α) : (get >>= f) s = f s s := rfl

theorem call_bind (c : SessionCall) (f : c.Reply → SessionMethod α) : (call c >>= f) s = .act c fun r => f r s := rfl

end Refinement

/-- `createSocket:` with the calls behind it is the method of the session model, each of
whose calls is carried out. -/
theorem createSocket_refines : createSocket = MPSshSession.createSocket.interpret carryOut := by
  funext s
  let s₁ : Frame := { s with sock := -1 }
  have hnative : createSocket s = (resolve s.params.ip).bind _ :=
    bind_ended (addressForHostname_refines s₁.params.ip s₁) _
  rw [hnative]
  unfold MPSshSession.createSocket
  rw [interpret, modify_bind, get_bind, call_bind, Prog.interpret]
  change _ = Prog.bind (resolve s.params.ip) _
  congr 1
  funext r
  rcases MPHost.addressForHostname r with _ | _ | ipAdr
  · rfl
  · rfl
  · refine congrArg (Prog.act _) (funext fun c => ?_)
    refine congrArg (Prog.act _) (funext fun d => ?_)
    refine congrArg (Prog.act _) (funext fun e => ?_)
    refine congrArg (Prog.act _) (funext fun _ => ?_)
    cases e <;> rfl

section Ownership

variable {held : List Ref} {log : List (Sigma NativeCall.Reply)}

/-- The socket is kept exactly if it is connected, and the data of the address never. -/
theorem connectSocket_leaves {address : SockAddrIn}
    {Q : ConnectResult → Ledger NativeCall NativeCall.Reply Ref → Prop} (herror : ∀ log, Q .error ⟨held, log⟩)
    (htimeout : ∀ log, Q .timeout ⟨held, log⟩)
    (hconnected : ∀ c descriptor log, ⟨.CFSocketGetNative c, descriptor⟩ ∈ log →
      Q (.connected descriptor) ⟨c :: held, log⟩) :
    (connectSocket address).Sat owner Q ⟨held, log⟩ := by
  unfold connectSocket
  rw [nativeCall_bind]
  refine sat_granted id (fun _ => rfl) (fun _ hc => hc) nofun rfl fun c => ?_
  rw [nativeCall_bind]
  refine sat_granted id (fun _ => rfl) (fun _ hd => hd) nofun rfl fun d => ?_
  rw [nativeCall_bind]
  refine sat_use (by simp [NativeCall.effects, NativeCall.uses]) rfl (fun _ => rfl) ?_
  intro e
  rw [nativeCall_bind]
  refine sat_release_head rfl rfl (fun _ => rfl) fun _ => ?_
  cases e with
  | error => exact sat_release_head rfl rfl (fun _ => rfl) fun _ => herror _
  | timeout => exact sat_release_head rfl rfl (fun _ => rfl) fun _ => htimeout _
  | success =>
    refine sat_use (by simp [NativeCall.effects, NativeCall.uses]) rfl (fun _ => rfl) ?_
    intro descriptor
    exact hconnected c descriptor _ (by simp)

/-- How `createSocket:` ends, and what is left then: the socket whose descriptor the object
has, nothing, or the host. -/
def Ends (hostname : Option String) (left : List Ref → Prop) (result : Outcome Bool) (sock : Int)
    (log : List (Sigma NativeCall.Reply)) : Prop :=
  match result with
  | .returns true => ∃ c descriptor : Nat, ⟨.CFSocketGetNative c, descriptor⟩ ∈ log ∧ sock = descriptor ∧ left [c]
  | .returns false => sock = -1 ∧ left []
  | .raised => sock = -1 ∧ ∃ hostRef, ⟨.CFHostCreateWithName hostname, hostRef⟩ ∈ log ∧ left [hostRef]
  | .crashed => False

theorem Ends.mono {hostname : Option String} {left left' : List Ref → Prop} {result : Outcome Bool} {sock : Int}
    (hends : Ends hostname left result sock log) (himp : ∀ objects, left objects → left' objects) :
    Ends hostname left' result sock log := by
  rcases result with (_ | _) | _ | _
  · exact ⟨hends.1, himp _ hends.2⟩
  · obtain ⟨c, descriptor, hnative, hsock, hleft⟩ := hends
    exact ⟨c, descriptor, hnative, hsock, himp _ hleft⟩
  · obtain ⟨hsock, hostRef, hcreated, hleft⟩ := hends
    exact ⟨hsock, hostRef, hcreated, himp _ hleft⟩
  · exact hends

theorem createSocket_holds (s : Frame) :
    Method.Sat owner createSocket (fun result s' v => Ends s.params.ip (v.held = ·) result s'.sock v.log) s
      ⟨[], []⟩ := by
  have failed_sock (code : Int) (msg : String) :
      (if s.wantsError then { s with sock := -1, error := some { code, localizedDescription := msg } }
        else { s with sock := -1 } : Frame).sock = -1 := by
    split <;> rfl
  rw [createSocket_refines]
  unfold Method.Sat MPSshSession.createSocket
  rw [interpret, modify_bind, get_bind, call_bind, Prog.interpret]
  refine Prog.sat_bind.mpr (resolve_leaves ?_ ?_)
  · intro r addresses log haddresses
    have haddress : MPHost.addressForHostname r = .ok (addresses.bind List.head?) := by
      rw [MPHost.addressForHostname, haddresses]
      rfl
    rw [haddress]
    cases addresses.bind List.head? with
    | none => exact ⟨failed_sock _ _, rfl⟩
    | some ipAdr =>
      refine Prog.sat_bind.mpr (connectSocket_leaves ?_ ?_ ?_)
      · exact fun _ => ⟨failed_sock _ _, rfl⟩
      · exact fun _ => ⟨failed_sock _ _, rfl⟩
      · intro c descriptor log hnative
        exact ⟨c, descriptor, hnative, rfl, rfl⟩
  · intro r hostRef log haddresses hcreated
    have haddress : MPHost.addressForHostname r = .error () := by
      rw [MPHost.addressForHostname, haddresses]
      rfl
    rw [haddress]
    exact ⟨rfl, hostRef, hcreated, rfl⟩

/-- For all parameters and whatever the system answers, as long as the creations that are
not checked succeed, `createSocket:` uses and releases only what it holds. It leaves the
connected socket, whose reference is lost, and the host if the addresses raise. -/
theorem createSocket_leaves (s : Frame) :
    Method.Sat owner createSocket
      (fun result s' v => Ends s.params.ip (NativeCall.effects.Leaves v.log) result s'.sock v.log) s ⟨[], []⟩ := by
  apply (sat_leaves (createSocket_holds s)).mono
  rintro ⟨result, s'⟩ v ⟨hends, hleaves⟩
  refine hends.mono ?_
  rintro objects rfl
  exact hleaves

/-- The calls that leave a reference behind: a socket that is connected, and a resolution
whose addresses raise. -/
def leavesOne : Sigma SessionCall.Reply → Bool
  | ⟨.connectSocket _, .connected _⟩ => true
  | ⟨.resolve _, r⟩ => (MPHost.addressesForHostname r).toOption.isNone
  | _ => false

/-- The calls that are no more than one call of the native level. -/
def direct : SessionCall → Bool
  | .resolve _ | .connectSocket _ => false
  | _ => true

/-- These calls with their replies have been carried out by the ones in the log, in their
order: a resolution and a connection by a run of the native calls behind them, and any
other call by itself. -/
inductive Carried : List (Sigma SessionCall.Reply) → List (Sigma NativeCall.Reply) → Prop where
  | nil : Carried [] []
  | resolve {calls : List (Sigma SessionCall.Reply)} {log made : List (Sigma NativeCall.Reply)} {hostname : Option String}
      {r : MPHost.Resolution} (hcalls : Carried calls log) (hmade : (resolve hostname).Makes made r) :
      Carried (calls ++ [⟨.resolve hostname, r⟩]) (log ++ made)
  | connectSocket {calls : List (Sigma SessionCall.Reply)} {log made : List (Sigma NativeCall.Reply)}
      {address : SockAddrIn} {r : ConnectResult} (hcalls : Carried calls log)
      (hmade : (connectSocket address).Makes made r) : Carried (calls ++ [⟨.connectSocket address, r⟩]) (log ++ made)
  | session {calls : List (Sigma SessionCall.Reply)} {log : List (Sigma NativeCall.Reply)} {c : SessionCall} (r : c.Reply)
      (hcalls : Carried calls log) (hdirect : direct c = true) :
      Carried (calls ++ [⟨c, r⟩]) (log ++ [⟨.session c, r⟩])

/-- The calls have been carried out, and one reference is held for each that leaves one. -/
structure Settled (calls : List (Sigma SessionCall.Reply)) (v : Ledger NativeCall NativeCall.Reply Ref) : Prop where
  carried : Carried calls v.log
  held : v.held.length = calls.countP leavesOne

theorem countP_concat {calls : List (Sigma SessionCall.Reply)} {n : Nat} (hcount : n = calls.countP leavesOne)
    (c : SessionCall) (r : c.Reply) :
    n + (if leavesOne ⟨c, r⟩ then 1 else 0) = List.countP leavesOne (calls ++ [⟨c, r⟩]) := by
  rw [List.countP_append, List.countP_singleton, hcount]

theorem session_settled {calls : List (Sigma SessionCall.Reply)} {v : Ledger NativeCall NativeCall.Reply Ref}
    (h : Settled calls v) {c : SessionCall} (hdirect : direct c = true) (hnone : ∀ r : c.Reply, leavesOne ⟨c, r⟩ = false) :
    (nativeCall (.session c)).Sat owner (fun (r : c.Reply) v => Settled (calls ++ [⟨c, r⟩]) v) v := by
  refine sat_use nofun rfl (fun _ => rfl) fun r => ?_
  refine ⟨.session r h.carried hdirect, ?_⟩
  simpa [hnone] using countP_concat h.held c r

theorem carryOut_settled {calls : List (Sigma SessionCall.Reply)} {v : Ledger NativeCall NativeCall.Reply Ref}
    (h : Settled calls v) (c : SessionCall) :
    (carryOut c).Sat owner (fun r v => Settled (calls ++ [⟨c, r⟩]) v) v := by
  cases c with
  | resolve hostname =>
    have hleaves : (resolve hostname).Sat owner (fun r v' => v'.held.length = v.held.length +
        if leavesOne ⟨.resolve hostname, r⟩ then 1 else 0) v := by
      refine resolve_leaves ?_ ?_
      · intro r addresses log haddresses
        simp [leavesOne, haddresses, Except.toOption]
      · intro r hostRef log haddresses _
        simp [leavesOne, haddresses, Except.toOption]
    apply (sat_makes hleaves).mono
    rintro r v' ⟨hlength, made, hmade, hlog⟩
    exact ⟨hlog ▸ .resolve h.carried hmade, hlength.trans (countP_concat h.held (.resolve hostname) r)⟩
  | connectSocket address =>
    have hleaves : (connectSocket address).Sat owner (fun r v' => v'.held.length = v.held.length +
        if leavesOne ⟨.connectSocket address, r⟩ then 1 else 0) v :=
      connectSocket_leaves (fun _ => rfl) (fun _ => rfl) fun _ _ _ _ => rfl
    apply (sat_makes hleaves).mono
    rintro r v' ⟨hlength, made, hmade, hlog⟩
    exact ⟨hlog ▸ .connectSocket h.carried hmade, hlength.trans (countP_concat h.held (.connectSocket address) r)⟩
  | _ => exact session_settled h rfl fun _ => rfl

/-- Whatever has been shown of a session method with an observer that counts with every
reply holds of the method whose calls are carried out: it is what the observer has seen
of the calls that the method makes, which the native calls in the log carry out one by
one. The references that are left then are one for each connected socket and each
resolution that raises. -/
theorem carryOut_transfers {α τ : Type} {M : Monitor SessionCall SessionCall.Reply τ}
    (hexpects : ∀ t c (r : SessionCall.Reply c), M.expects t c r) {m : SessionMethod α}
    {Q : Outcome α → Frame → τ → Prop} {s : Frame} {t : τ} (hsat : Method.Sat M m Q s t) :
    Method.Sat owner (m.interpret carryOut)
      (fun result s' v => ∃ calls, (m s).Makes calls (result, s') ∧ Carried calls v.log ∧
        Q result s' (M.follow t calls) ∧ NativeCall.effects.Leaves v.log v.held ∧
        v.held.length = calls.countP leavesOne) s ⟨[], []⟩ := by
  have hrecorded : (m s).Sat (M.recording t) (fun result calls => Q result.1 result.2 (M.follow t calls) ∧
      ∃ made, (m s).Makes made result ∧ calls = [] ++ made) [] := Prog.sat_recording hsat
  have hcarried : ((m s).interpret carryOut).Sat owner (fun result v => ∃ calls, (Q result.1 result.2 (M.follow t calls) ∧
      ∃ made, (m s).Makes made result ∧ calls = [] ++ made) ∧ Settled calls v) ⟨[], []⟩ := by
    refine Prog.sat_interpret (R := Settled) ?_ ⟨.nil, rfl⟩ hrecorded
    intro c calls v hsettled _
    apply (carryOut_settled hsettled c).mono
    exact fun r v' hnext => ⟨hexpects _ c r, hnext⟩
  apply (sat_leaves hcarried).mono
  rintro ⟨result, s'⟩ v ⟨⟨calls, ⟨hQ, made, hmade, hcalls⟩, hsettled⟩, hleaves⟩
  rw [List.nil_append] at hcalls
  subst hcalls
  exact ⟨calls, hmade, hsettled.carried, hQ, hleaves, hsettled.held⟩

/-- An object that has just been initialised, with parameters that name no port. -/
def fresh : Frame where
  toMPSshSession := .init Process.fullDelegate
  params := defaults Process.portless
  wantsError := true
  error := none

theorem carryOut_transfers_iteration :
    Method.Sat owner (iteration.interpret carryOut)
      (fun result s' v => ∃ calls, (iteration fresh).Makes calls (result, s') ∧ Carried calls v.log ∧
        Returning (LoopPost (Given Process.portless) fun _ _ => True) result s'
          ((requests Process.portless).follow (.start Process.portless) calls) ∧
        NativeCall.effects.Leaves v.log v.held ∧ v.held.length = calls.countP leavesOne) fresh ⟨[], []⟩ :=
  carryOut_transfers (fun _ _ _ => trivial) (iteration_requests ⟨⟨_, _, rfl⟩⟩)

end Ownership

end MPSsh.MPSshSession.Native

import MPSsh.Native

namespace MPSsh.MPHost

open Interaction Ownership

/-- `cStringUsingEncoding:` with `NSASCIIStringEncoding`, which is `NULL` for other text. -/
def asciiCString (s : String) : Option (List UInt8) :=
  if IsAscii s then some (utf8 s) else none

namespace Native

variable {σ : Type}

/-- What `getnameinfo` leaves in the array. -/
def filled (ipAddress : CharArray INET6_ADDRSTRLEN) : Option (List UInt8) → CharArray INET6_ADDRSTRLEN
  | some text => ipAddress.fill (text ++ [0])
  | none => ipAddress

/-- The loop over the addresses, from the current index on. -/
def addressTexts (hostRef : Ref) :
    CharArray INET6_ADDRSTRLEN → List Bool → Nat → List String → NativeMethod σ (List String)
  | _, [], _, addresses => return addresses
  | _, false :: _, _, addresses => return addresses
  | ipAddress, true :: rest, currentIndex, addresses => do
    let nameinfo ← native (.getnameinfo hostRef currentIndex)
    let ipAddress := filled ipAddress nameinfo
    match boxed (ipAddress.stringAt 0) with
    | some iii => addressTexts hostRef ipAddress rest (currentIndex + 1) (addresses ++ [iii])
    | none => Method.raise

/-- What `addressesForHostname:` does with a host once it has tried to resolve it. -/
def addressing (hostRef : Ref) (isSuccess : Bool) : NativeMethod σ (Option (List String)) := do
  if isSuccess then
    match ← native (.CFHostGetAddressing hostRef) with
    | some addressesRef =>
      let ipAddress ← native .ipAddress
      let addresses ← addressTexts hostRef ipAddress addressesRef 0 []
      return some addresses
    | none => return none
  else return none

def addressesForHostname (hostname : Option String) : NativeMethod σ (Option (List String)) := do
  let hostRef ← native (.CFHostCreateWithName hostname)
  let isSuccess ← native (.CFHostStartInfoResolution hostRef .addresses)
  let addresses ← addressing hostRef isSuccess
  native (.CFRelease hostRef)
  return addresses

def addressForHostname (hostname : Option String) : NativeMethod σ (Option String) := do
  let addresses ← addressesForHostname hostname
  return addresses.bind List.head?

/-- The names are copied out of the array of the host before the host is released. -/
def namesOfHost (hostRef : Ref) : NativeProg (Option (List String)) := do
  let isSuccess ← nativeCall (.CFHostStartInfoResolution hostRef .names)
  if isSuccess then
    let hostnamesRef ← nativeCall (.CFHostGetNames hostRef)
    nativeCall (.CFRelease hostRef)
    return some (hostnamesRef.getD [])
  else
    nativeCall (.CFRelease hostRef)
    return none

def hostnamesForAddress (address : Option String) : NativeProg (Option (List String)) := do
  let (errorStatus, result) ← nativeCall (.getaddrinfo (address.bind asciiCString))
  if errorStatus ≠ 0 then return none
  else
    let addressRef ← nativeCall (.CFDataCreate (.addrinfo result))
    if addressRef = 0 then return none
    else
      nativeCall (.freeaddrinfo result)
      let hostRef ← nativeCall (.CFHostCreateWithAddress addressRef)
      nativeCall (.CFRelease addressRef)
      if hostRef = 0 then return none else namesOfHost hostRef

def hostnameForAddress (address : Option String) : NativeProg (Option String) := do
  let hostnames ← hostnamesForAddress address
  return hostnames.bind List.head?

/-- The names of the addresses, up to the one at which the loop ends. -/
def names (hostRef : Ref) :
    CharArray INET6_ADDRSTRLEN → List Bool → Nat → NativeProg (List (Option (Option (List UInt8))))
  | _, [], _ => return []
  | _, false :: _, _ => return [none]
  | ipAddress, true :: rest, currentIndex => do
    let nameinfo ← nativeCall (.getnameinfo hostRef currentIndex)
    let ipAddress := filled ipAddress nameinfo
    match boxed (ipAddress.stringAt 0) with
    | some _ =>
      let more ← names hostRef ipAddress rest (currentIndex + 1)
      return some nameinfo :: more
    | none => return [some nameinfo]

/-- Any array: a resolution without addresses does not look at it. -/
def unread : CharArray INET6_ADDRSTRLEN :=
  ⟨List.replicate INET6_ADDRSTRLEN 0, List.length_replicate⟩

def resolved (hostRef : Ref) (isSuccess : Bool) : NativeProg Resolution := do
  if isSuccess then
    match ← nativeCall (.CFHostGetAddressing hostRef) with
    | some addressesRef =>
      let ipAddress ← nativeCall .ipAddress
      let addressing ← names hostRef ipAddress addressesRef 0
      return { success := true, addressing := some addressing, stack := ipAddress }
    | none => return { success := true, addressing := none, stack := unread }
  else return { success := false, addressing := none, stack := unread }

/-- What the system is asked when a host name is resolved. The host is not released when
the loop raises. -/
def resolve (hostname : Option String) : NativeProg Resolution := do
  let hostRef ← nativeCall (.CFHostCreateWithName hostname)
  let isSuccess ← nativeCall (.CFHostStartInfoResolution hostRef .addresses)
  let r ← resolved hostRef isSuccess
  match MPHost.addressesForHostname r with
  | .ok _ =>
    nativeCall (.CFRelease hostRef)
    return r
  | .error _ => return r

/-- How a method ends with what the model without the calls computes. -/
def ended {α : Type} : Except Unit α → Outcome α
  | .ok a => .returns a
  | .error _ => .raised

section Refinement

variable {α β γ : Type}

theorem nativeCall_bind (c : NativeCall) (f : c.Reply → NativeProg α) : (nativeCall c >>= f) = .act c f := rfl

/-- A method and a program that begin with the same call. -/
theorem native_bind {c : NativeCall} {f : c.Reply → NativeMethod σ α} {g : c.Reply → NativeProg β}
    {ends : β → NativeProg (Outcome α × σ)} {s : σ} (hrest : ∀ r, f r s = (g r).bind ends) :
    (native c >>= f) s = (nativeCall c >>= g).bind ends :=
  congrArg (Prog.act c) (funext hrest)

/-- What follows a method that ends with what a program computes. -/
theorem bind_ended {m : NativeMethod σ α} {p : NativeProg β} {g : β → Except Unit α} {s : σ}
    (hm : m s = p.bind fun b => .done (ended (g b), s)) (f : α → NativeMethod σ γ) :
    (m >>= f) s = p.bind fun b =>
      match g b with
      | .ok a => f a s
      | .error _ => .done (.raised, s) := by
  rw [Method.bind_eq, hm, Prog.bind_assoc]
  congr 1
  funext b
  cases g b <;> rfl

theorem addressTexts_cons (ipAddress : CharArray INET6_ADDRSTRLEN) (nameinfo : Option (List UInt8))
    (rest : List (Option (Option (List UInt8)))) (addresses : List String) :
    MPHost.addressTexts ipAddress (some nameinfo :: rest) addresses =
      match boxed ((filled ipAddress nameinfo).stringAt 0) with
      | some iii => MPHost.addressTexts (filled ipAddress nameinfo) rest (addresses ++ [iii])
      | none => .error () := by
  cases nameinfo <;> rfl

theorem addressTexts_refines (hostRef : Ref) (ipAddress : CharArray INET6_ADDRSTRLEN) (addressesRef : List Bool)
    (currentIndex : Nat) (addresses : List String) (s : σ) :
    addressTexts hostRef ipAddress addressesRef currentIndex addresses s =
      (names hostRef ipAddress addressesRef currentIndex).bind fun addressing =>
        .done (ended (MPHost.addressTexts ipAddress addressing addresses), s) := by
  induction addressesRef generalizing ipAddress currentIndex addresses with
  | nil => rfl
  | cons valid rest ih =>
    cases valid with
    | false => rfl
    | true =>
      unfold addressTexts names
      refine native_bind fun nameinfo => ?_
      dsimp only
      cases htext : boxed ((filled ipAddress nameinfo).stringAt 0) with
      | none =>
        change _ = Prog.done (ended (MPHost.addressTexts ipAddress [some nameinfo] addresses), s)
        rw [addressTexts_cons, htext]
        rfl
      | some iii =>
        change _ = Prog.bind (Prog.bind _ _) _
        rw [Prog.bind_assoc]
        dsimp only
        rw [ih]
        congr 1
        funext more
        change _ = Prog.done (ended (MPHost.addressTexts ipAddress (some nameinfo :: more) addresses), s)
        rw [addressTexts_cons, htext]

theorem addressing_refines (hostRef : Ref) (isSuccess : Bool) (s : σ) :
    addressing hostRef isSuccess s =
      (resolved hostRef isSuccess).bind fun r => .done (ended (MPHost.addressesForHostname r), s) := by
  cases isSuccess with
  | false => rfl
  | true =>
    simp only [addressing, resolved, if_true]
    refine native_bind fun addressesRef => ?_
    cases addressesRef with
    | none => rfl
    | some addressesRef =>
      dsimp only
      refine native_bind fun ipAddress => ?_
      rw [bind_ended (addressTexts_refines hostRef ipAddress addressesRef 0 [] s)]
      change _ = Prog.bind (Prog.bind _ _) _
      rw [Prog.bind_assoc]
      congr 1
      funext addressing
      change _ = Prog.done (ended ((MPHost.addressTexts ipAddress addressing []).map some), s)
      cases MPHost.addressTexts ipAddress addressing [] <;> rfl

/-- The method with its calls computes what the model without them does from what the
system was asked. -/
theorem addressesForHostname_refines (hostname : Option String) (s : σ) :
    addressesForHostname hostname s =
      (resolve hostname).bind fun r => .done (ended (MPHost.addressesForHostname r), s) := by
  unfold addressesForHostname resolve
  refine native_bind fun hostRef => ?_
  refine native_bind fun isSuccess => ?_
  rw [bind_ended (addressing_refines hostRef isSuccess s)]
  change _ = Prog.bind (Prog.bind _ _) _
  rw [Prog.bind_assoc]
  congr 1
  funext r
  cases haddressing : MPHost.addressesForHostname r with
  | error _ =>
    change _ = Prog.done (ended (MPHost.addressesForHostname r), s)
    rw [haddressing]
    rfl
  | ok addresses =>
    change _ = Prog.act _ fun _ => Prog.done (ended (MPHost.addressesForHostname r), s)
    rw [haddressing]
    rfl

theorem addressForHostname_refines (hostname : Option String) (s : σ) :
    addressForHostname hostname s =
      (resolve hostname).bind fun r => .done (ended (MPHost.addressForHostname r), s) := by
  unfold addressForHostname MPHost.addressForHostname
  rw [bind_ended (addressesForHostname_refines hostname s)]
  congr 1
  funext r
  cases MPHost.addressesForHostname r <;> rfl

end Refinement

section Ownership

variable {held : List Ref} {log : List (Sigma NativeCall.Reply)}

/-- The lists of addresses that were not copied. -/
def uncopied (log : List (Sigma NativeCall.Reply)) : List Ref :=
  log.filterMap fun
    | ⟨.CFDataCreate (.addrinfo list), addressRef⟩ => if addressRef = 0 then some list else none
    | _ => none

/-- What is done with a host that is held alone: it is released on both ways. -/
theorem namesOfHost_releases (hostRef : Ref) :
    (namesOfHost hostRef).Sat (owning NativeCall.effects fun _ _ => True)
      (fun _ v => v.held = [] ∧ uncopied v.log = uncopied log) ⟨[hostRef], log⟩ := by
  unfold namesOfHost
  rw [nativeCall_bind]
  refine sat_use (by simp [NativeCall.effects, NativeCall.uses]) rfl (fun _ => rfl) ?_
  intro isSuccess
  split
  · rw [nativeCall_bind]
    refine sat_use (by simp [NativeCall.effects, NativeCall.uses]) rfl (fun _ => rfl) ?_
    intro hostnamesRef
    rw [nativeCall_bind]
    refine sat_release_head rfl rfl (fun _ => rfl) fun _ => ?_
    simp [Prog.Sat, pure, uncopied]
  · rw [nativeCall_bind]
    refine sat_release_head rfl rfl (fun _ => rfl) fun _ => ?_
    simp [Prog.Sat, pure, uncopied]

/-- Only the list of addresses is still held at the end, if it could not be copied. -/
theorem hostnamesForAddress_holds (address : Option String) :
    (hostnamesForAddress address).Sat (owning NativeCall.effects fun _ _ => True)
      (fun _ v => v.held = uncopied v.log) ⟨[], []⟩ := by
  unfold hostnamesForAddress
  rw [nativeCall_bind]
  refine sat_create nofun rfl ?_
  rintro ⟨errorStatus, result⟩ - -
  dsimp only
  split
  · rename_i hfailed
    simp [Prog.Sat, NativeCall.effects, NativeCall.acquires, uncopied, hfailed, pure]
  · rename_i hok
    rw [not_not] at hok
    subst hok
    change Prog.Sat _ _ _ (Ledger.mk [result] _)
    rw [nativeCall_bind]
    refine sat_create (by simp [NativeCall.effects, NativeCall.uses]) rfl ?_
    intro addressRef _ hnew
    split
    · rename_i hnull
      subst hnull
      rfl
    · rename_i haddressRef
      have hacquires : NativeCall.effects.acquires (.CFDataCreate (.addrinfo result)) addressRef = some addressRef :=
        if_neg haddressRef
      rw [hacquires] at hnew ⊢
      change Prog.Sat _ _ _ (Ledger.mk [addressRef, result] _)
      have hne : addressRef ≠ result := by simpa using hnew addressRef rfl
      rw [nativeCall_bind]
      refine sat_release rfl (by simp) rfl (fun _ => rfl) ?_
      intro _
      have herase : [addressRef, result].erase result = [addressRef] := by simp [hne]
      rw [herase, nativeCall_bind]
      refine sat_create (by simp [NativeCall.effects, NativeCall.uses]) rfl ?_
      intro hostRef _ hnew
      rw [nativeCall_bind]
      refine sat_release rfl (by simp) rfl (fun _ => rfl) ?_
      intro _
      split
      · rename_i hnull
        subst hnull
        simp [Prog.Sat, pure, uncopied, NativeCall.effects, NativeCall.acquires, NativeCall.created, haddressRef]
      · rename_i hhost
        have hacquires : NativeCall.effects.acquires (.CFHostCreateWithAddress addressRef) hostRef = some hostRef :=
          if_neg hhost
        rw [hacquires] at hnew ⊢
        have hne : hostRef ≠ addressRef := by simpa using hnew hostRef rfl
        have herase : [hostRef, addressRef].erase addressRef = [hostRef] := by simp [hne]
        change Prog.Sat _ _ _ (Ledger.mk ([hostRef, addressRef].erase addressRef) _)
        rw [herase]
        apply (namesOfHost_releases hostRef).mono
        rintro _ v ⟨hempty, hcopied⟩
        rw [hempty, hcopied]
        simp [uncopied, haddressRef]

/-- For every address and whatever the system answers, `hostnamesForAddress:` uses and
releases only what it holds, and releases everything but the list of addresses if that
could not be copied. -/
theorem hostnamesForAddress_leaves (address : Option String) :
    (hostnamesForAddress address).Sat (owning NativeCall.effects fun _ _ => True)
      (fun _ v => NativeCall.effects.Leaves v.log (uncopied v.log)) ⟨[], []⟩ := by
  apply (sat_leaves (hostnamesForAddress_holds address)).mono
  rintro _ v ⟨hheld, hleaves⟩
  rwa [← hheld]

/-- The first name is taken from the copies, so `hostnameForAddress:` has nothing else to
release. -/
theorem hostnameForAddress_releases (address : Option String) :
    (hostnameForAddress address).Sat (owning NativeCall.effects fun _ _ => True)
      (fun _ v => NativeCall.effects.Leaves v.log (uncopied v.log)) ⟨[], []⟩ := by
  have hheld : (hostnameForAddress address).Sat (owning NativeCall.effects fun _ _ => True)
      (fun _ v => v.held = uncopied v.log) ⟨[], []⟩ := by
    refine Prog.sat_bind.mpr ((hostnamesForAddress_holds address).mono ?_)
    exact fun _ _ hheld => hheld
  apply (sat_leaves hheld).mono
  rintro _ v ⟨hheld, hleaves⟩
  rwa [← hheld]

theorem names_uses {hostRef : Ref} {Q : List (Option (Option (List UInt8))) → Ledger NativeCall NativeCall.Reply Ref → Prop}
    (hhost : hostRef ∈ held) (hpost : ∀ addressing log, Q addressing ⟨held, log⟩)
    (ipAddress : CharArray INET6_ADDRSTRLEN) (addressesRef : List Bool) (currentIndex : Nat) :
    (names hostRef ipAddress addressesRef currentIndex).Sat owner Q ⟨held, log⟩ := by
  induction addressesRef generalizing ipAddress currentIndex log Q with
  | nil => exact hpost [] log
  | cons valid rest ih =>
    cases valid with
    | false => exact hpost [none] log
    | true =>
      unfold names
      rw [nativeCall_bind]
      refine sat_use (by simpa [NativeCall.effects, NativeCall.uses] using hhost) rfl (fun _ => rfl) ?_
      intro nameinfo
      dsimp only
      split
      · refine Prog.sat_bind.mpr (ih ?_ _ _)
        exact fun more log => hpost (some nameinfo :: more) log
      · exact hpost [some nameinfo] _

theorem resolved_uses {hostRef : Ref} {isSuccess : Bool} {Q : Resolution → Ledger NativeCall NativeCall.Reply Ref → Prop}
    (hhost : hostRef ∈ held) (hpost : ∀ r log, Q r ⟨held, log⟩) :
    (resolved hostRef isSuccess).Sat owner Q ⟨held, log⟩ := by
  unfold resolved
  split
  · rw [nativeCall_bind]
    refine sat_use (by simpa [NativeCall.effects, NativeCall.uses] using hhost) rfl (fun _ => rfl) ?_
    intro addressesRef
    split
    · rw [nativeCall_bind]
      refine sat_use nofun rfl (fun _ => rfl) ?_
      intro ipAddress
      refine Prog.sat_bind.mpr (names_uses hhost ?_ _ _ _)
      exact fun addressing log => hpost _ log
    · exact hpost _ _
  · exact hpost _ _

/-- The host is left over exactly if the addresses raise. -/
theorem resolve_leaves {hostname : Option String} {Q : Resolution → Ledger NativeCall NativeCall.Reply Ref → Prop}
    (hreleased : ∀ r addresses log, MPHost.addressesForHostname r = .ok addresses → Q r ⟨held, log⟩)
    (hleft : ∀ r hostRef log, MPHost.addressesForHostname r = .error () →
      ⟨.CFHostCreateWithName hostname, hostRef⟩ ∈ log → Q r ⟨hostRef :: held, log⟩) :
    (resolve hostname).Sat owner Q ⟨held, log⟩ := by
  unfold resolve
  rw [nativeCall_bind]
  refine sat_granted id (fun _ => rfl) (fun _ hhost => hhost) nofun rfl fun hostRef => ?_
  rw [nativeCall_bind]
  refine sat_use (by simp [NativeCall.effects, NativeCall.uses]) rfl (fun _ => rfl) ?_
  intro isSuccess
  refine Prog.sat_bind.mpr ((sat_grows (resolved_uses (Q := fun _ v => v.held = hostRef :: held) ?_ ?_)).mono ?_)
  · exact List.mem_cons_self
  · exact fun _ _ => rfl
  rintro r v ⟨hheld, hgrows⟩
  obtain ⟨held', log'⟩ := v
  cases hheld
  split
  · rename_i addresses haddresses
    rw [nativeCall_bind]
    refine sat_release_head rfl rfl (fun _ => rfl) fun _ => ?_
    exact hreleased r addresses _ haddresses
  · rename_i haddresses
    exact hleft r hostRef _ haddresses (hgrows.subset (by simp))

end Ownership

end Native

end MPSsh.MPHost

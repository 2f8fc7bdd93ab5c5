import MPSsh.Host.Address
import MPSsh.Session.Rules

namespace MPSsh.MPSshSession

open Interaction Method MPHost

/-- The addresses that a host name resolves to, each with the success of `getnameinfo`
on it, or nothing if the name does not resolve. -/
abbrev Lookup := Option (List (Address × Bool))

namespace Lookup

def resolution (stack : CharArray INET6_ADDRSTRLEN) : Lookup → Resolution
  | none => unresolved stack
  | some addresses => MPHost.resolution stack addresses

/-- The IPv4 addresses among the resolved ones. -/
def ipv4 (lookup : Lookup) : List UInt32 :=
  (lookup.getD []).filterMap fun address =>
    match address.1 with
    | .ipv4 a => some a
    | .ipv6 _ => none

end Lookup

/-- The port is one of TCP. -/
def InRange (port : Int) : Prop :=
  1 ≤ port ∧ port ≤ 65535

/-- There is an endpoint to connect to. -/
def Reachable (lookup : Lookup) (port : Int) : Prop :=
  lookup.ipv4 ≠ [] ∧ InRange port

/-- The address is a resolved one, and the port is the given one. -/
def IsEndpoint (lookup : Lookup) (port : Int) (address : SockAddrIn) : Prop :=
  address.sin_addr ∈ lookup.ipv4 ∧ (address.sin_port.toNat : Int) = port

/-- The host name resolves in a known way, and a connection goes to an endpoint that
was asked for. -/
def endpoint (stack : CharArray INET6_ADDRSTRLEN) (lookup : Lookup) (port : Int) :
    Monitor SessionCall SessionCall.Reply Unit where
  allows _ c := ∀ address, c = .connectSocket address → IsEndpoint lookup port address ∧ Reachable lookup port
  expects _
    | .resolve _, r => r = lookup.resolution stack
    | _, _ => True
  next _ _ _ := ()

/-- Where there is nothing to connect to, the method fails with an error. -/
def FailsUnlessReachable (lookup : Lookup) (s : Frame) (result : Outcome Bool) (s' : Frame) : Prop :=
  ¬ Reachable lookup s.params.port → result = .returns false ∧ (s.wantsError = true → s'.error.isSome = true)

/-- When the method is right about its endpoint: no address is known, or the port is in
range and the name of the first address, or the text that stands in for it, is
read as one of the IPv4 addresses, or is no text at all. -/
def SoundEndpoint (stack : CharArray INET6_ADDRSTRLEN) (lookup : Lookup) (port : Int) : Prop :=
  match lookup with
  | none | some [] => True
  | some ((.ipv4 _, true) :: _) => InRange port
  | some ((.ipv6 _, true) :: rest) => InRange port ∧ INADDR_NONE ∈ Lookup.ipv4 (some rest)
  | some ((first, false) :: rest) =>
    InRange port ∧
      match boxed (stack.stringAt 0) with
      | some text => inet_addr text ∈ Lookup.ipv4 (some ((first, false) :: rest))
      | none => Lookup.ipv4 (some ((first, false) :: rest)) ≠ []

theorem htons_eq_iff {port : Int} : ((htons port).toNat : Int) = port ↔ 0 ≤ port ∧ port < 65536 := by
  have hnat : (htons port).toNat = (port % 2 ^ 16).toNat := by
    rw [htons, UInt16.toNat_ofNat']
    omega
  rw [hnat]
  omega

theorem fillError_set (s : Frame) (code : Int) (msg : String) {M : Monitor SessionCall SessionCall.Reply Unit}
    {Q : Outcome Bool → Frame → Unit → Prop}
    (hpost : ∀ s', (s.wantsError = true → s'.error.isSome = true) → Q (.returns false) s' ()) :
    Sat M (do
      fillError code msg
      return false) Q s () := by
  rw [sat_bind]
  unfold fillError
  rw [sat_modify, andThen_returns, sat_pure]
  apply hpost
  intro hwants
  rw [if_pos hwants]
  rfl

/-- The method in terms of what the name of the host is resolved to. -/
theorem createSocket_endpoint (stack : CharArray INET6_ADDRSTRLEN) (lookup : Lookup) (s : Frame) :
    Sat (endpoint stack lookup s.params.port) createSocket
        (fun result s' _ => FailsUnlessReachable lookup s result s') s () ↔
      match addressForHostname (lookup.resolution stack) with
      | .error _ => Reachable lookup s.params.port
      | .ok none => True
      | .ok (some ipAdr) =>
        IsEndpoint lookup s.params.port { sin_port := htons s.params.port, sin_addr := inet_addr ipAdr } ∧
          Reachable lookup s.params.port := by
  unfold createSocket
  rw [sat_bind, sat_modify, andThen_returns, sat_bind, sat_get, andThen_returns, sat_bind, sat_call]
  have hallowed : (endpoint stack lookup s.params.port).allows () (.resolve s.params.ip) :=
    fun address h => by cases h
  have hpinned {P : Resolution → Prop} :
      (∀ r, (endpoint stack lookup s.params.port).expects () (.resolve s.params.ip) r → P r) ↔
        P (lookup.resolution stack) := forall_eq
  rw [and_iff_right hallowed, hpinned, andThen_returns]
  cases addressForHostname (lookup.resolution stack) with
  | error =>
    change FailsUnlessReachable _ _ _ _ ↔ _
    simp [FailsUnlessReachable]
  | ok ipAdr =>
    cases ipAdr with
    | none =>
      refine iff_of_true (fillError_set _ _ _ ?_) trivial
      exact fun s' herror _ => ⟨rfl, herror⟩
    | some ipAdr =>
      rw [sat_bind, sat_call]
      constructor
      · exact fun hsat => hsat.1 _ rfl
      · intro hsound
        have hpost (result : Outcome Bool) (s' : Frame) : FailsUnlessReachable lookup s result s' :=
          fun hunreachable => absurd hsound.2 hunreachable
        refine ⟨?_, fun reply _ => ?_⟩
        · rintro address h
          obtain rfl := SessionCall.connectSocket.inj h
          exact hsound
        · rw [andThen_returns]
          cases reply with
          | error | timeout => exact fillError_set _ _ _ fun s' _ => hpost _ s'
          | connected descriptor => exact hpost _ _

theorem isEndpoint_iff (lookup : Lookup) (port : Int) (a : UInt32) :
    (IsEndpoint lookup port { sin_port := htons port, sin_addr := a } ∧ Reachable lookup port) ↔
      InRange port ∧ a ∈ lookup.ipv4 := by
  simp only [IsEndpoint, Reachable, htons_eq_iff, InRange]
  constructor
  · rintro ⟨⟨hmem, -⟩, -, hrange⟩
    exact ⟨hrange, hmem⟩
  · rintro ⟨hrange, hmem⟩
    exact ⟨⟨hmem, by omega⟩, List.ne_nil_of_mem hmem, hrange⟩

/-- For every lookup and every port, `createSocket:` connects only to a resolved IPv4
address at exactly the given port, and fails with an error when there is none, if
and only if it is sound about its first address and the port. -/
theorem createSocket_sound_iff (stack : CharArray INET6_ADDRSTRLEN) (lookup : Lookup) (s : Frame) :
    Sat (endpoint stack lookup s.params.port) createSocket
        (fun result s' _ => FailsUnlessReachable lookup s result s') s () ↔
      SoundEndpoint stack lookup s.params.port := by
  rw [createSocket_endpoint]
  match lookup with
  | none => exact iff_of_true trivial trivial
  | some [] => exact iff_of_true trivial trivial
  | some ((.ipv4 a, true) :: rest) =>
    simp only [Lookup.resolution, addressForHostname_resolution]
    rw [Address.numericHost, inet_addr_dotted, isEndpoint_iff]
    exact and_iff_left (by simp [Lookup.ipv4])
  | some ((.ipv6 text, true) :: rest) =>
    simp only [Lookup.resolution, addressForHostname_resolution]
    rw [Address.numericHost, inet_addr_colon, isEndpoint_iff]
    exact Iff.rfl
  | some ((first, false) :: rest) =>
    simp only [Lookup.resolution, addressForHostname_resolution, SoundEndpoint]
    cases boxed (stack.stringAt 0) with
    | none => exact and_comm
    | some text => exact isEndpoint_iff _ _ _

/-- `::1`. -/
def loopback : IPv6Text where
  text := "::1"
  printable := by simp
  colon := by simp
  fits := by decide +kernel

def blankName : CharArray INET6_ADDRSTRLEN where
  bytes := List.replicate 46 0
  length_eq := List.length_replicate

/-- A call for port 22, with an error pointer. -/
def probe : Frame where
  sock := 0
  connected := false
  session := none
  delegate := ⟨false, false, false⟩
  params := ⟨some "host", 22, none, none, none, none, none, false, false⟩
  wantsError := true
  error := none

/-- The first address is an IPv6 one, and the connection goes to 255.255.255.255. -/
theorem createSocket_broadcasts :
    ¬ ∀ (stack : CharArray INET6_ADDRSTRLEN) (lookup : Lookup) (s : Frame),
      Sat (endpoint stack lookup s.params.port) createSocket
        (fun result s' _ => FailsUnlessReachable lookup s result s') s () := by
  intro halways
  have hsat := halways blankName (some [(.ipv6 loopback, true), (.ipv4 0x0a000001, true)]) probe
  rw [createSocket_endpoint] at hsat
  simp only [Lookup.resolution, addressForHostname_resolution] at hsat
  rw [Address.numericHost, inet_addr_colon, isEndpoint_iff] at hsat
  exact absurd hsat.2 (by decide)

end MPSsh.MPSshSession

import MPSsh.Host.Address
import MPSsh.LSSession.Fingerprint

namespace MPSsh

/-- `struct ether_addr`. -/
structure EtherAddr where
  octet : List UInt8
  length_eq : octet.length = 6
  deriving DecidableEq, Repr

/-- The address of an interface, of the family `AF_INET`, `AF_LINK` or another one. -/
inductive SockAddr where
  | inet (sin_addr : UInt32)
  | link (lladdr : EtherAddr)
  | other (sa_family : Nat)
  deriving DecidableEq, Repr

namespace MPHost

/-- The loop over the interfaces. An interface has no address when `ifa_addr` is a null
pointer, which the loop reads through. Each iteration comes with its index. -/
def collectAddresses (text : Nat → SockAddr → Option String) :
    Nat → List (Option SockAddr) → List String → Except Unit (List String)
  | _, [], addresses => .ok addresses
  | _, none :: _, _ => .error ()
  | i, some ifa_addr :: rest, addresses => collectAddresses text (i + 1) rest (addresses ++ (text i ifa_addr).toList)

def inetText : SockAddr → Option String
  | .inet sin_addr =>
    let address := dotted sin_addr
    if address ≠ "127.0.0.1" then some address else none
  | _ => none

/-- `none` says that `getifaddrs` fails. -/
def ipAddresses (interfaces : Option (List (Option SockAddr))) : Except Unit (List String) :=
  match interfaces with
  | some interfaces => collectAddresses (fun _ => inetText) 0 interfaces []
  | none => .ok []

end MPHost

section Scanning

end Scanning

namespace MPHost

open MPLSSession

/-- The two addresses that are left out. -/
def Shown (lladdr : EtherAddr) : Prop :=
  lladdr.octet ≠ [0, 0, 0, 0, 0, 0] ∧ lladdr.octet ≠ [0, 0, 0, 0, 0, 0xff]

instance (lladdr : EtherAddr) : Decidable (Shown lladdr) :=
  inferInstanceAs (Decidable (_ ∧ _))

/-- The IPv4 addresses but the loopback one, in the order of the interfaces. -/
def shownInets (interfaces : List (Option SockAddr)) : List UInt32 :=
  interfaces.filterMap fun
    | some (.inet sin_addr) => if sin_addr ≠ 0x7f000001 then some sin_addr else none
    | _ => none

/-- The loop reads through a null pointer, or collects the text of every interface that
has one. -/
theorem collectAddresses_eq {text : Nat → SockAddr → Option String} {text' : SockAddr → Option String}
    (htext : ∀ i ifa_addr, text i ifa_addr = text' ifa_addr) (interfaces : List (Option SockAddr)) (i : Nat)
    (addresses : List String) :
    collectAddresses text i interfaces addresses =
      if none ∈ interfaces then .error () else .ok (addresses ++ interfaces.filterMap (·.bind text')) := by
  induction interfaces generalizing i addresses with
  | nil => simp [collectAddresses]
  | cons ifa_addr rest ih =>
    cases ifa_addr with
    | none => simp [collectAddresses]
    | some ifa_addr =>
      rw [collectAddresses, ih, htext]
      cases htext' : text' ifa_addr <;> simp [htext']

theorem filterMap_shown {α : Type} {f : Option SockAddr → Option α} {g : α → String} {text : SockAddr → Option String}
    (hnone : f none = none) (htext : ∀ ifa_addr, text ifa_addr = (f (some ifa_addr)).map g)
    (interfaces : List (Option SockAddr)) :
    interfaces.filterMap (·.bind text) = (interfaces.filterMap f).map g := by
  rw [List.map_filterMap]
  refine List.filterMap_congr fun ifa_addr _ => ?_
  cases ifa_addr with
  | none => simp [hnone]
  | some ifa_addr => exact htext ifa_addr

/-- The loopback address is the only one with its text. -/
theorem dotted_loopback (a : UInt32) : dotted a = "127.0.0.1" ↔ a = 0x7f000001 := by
  have hloopback : dotted 0x7f000001 = "127.0.0.1" := by decide
  constructor
  · intro hsame
    rw [← hloopback] at hsame
    have hread := congrArg inet_addr hsame
    rwa [inet_addr_dotted, inet_addr_dotted] at hread
  · rintro rfl
    exact hloopback

/-- The addresses that the method returns are read back by `inet_addr` as the IPv4
addresses of the interfaces but the loopback one. -/
theorem ipAddresses_read_back (interfaces : List (Option SockAddr)) :
    (∃ addresses, ipAddresses (some interfaces) = .ok addresses ∧ addresses.map inet_addr = shownInets interfaces) ↔
      none ∉ interfaces := by
  have hshown : interfaces.filterMap (·.bind inetText) = (shownInets interfaces).map dotted := by
    apply filterMap_shown rfl
    intro ifa_addr
    cases ifa_addr with
    | inet sin_addr =>
      have hloopback := dotted_loopback sin_addr
      by_cases hsame : sin_addr = 0x7f000001
      · have hnone : inetText (.inet sin_addr) = none := if_neg (not_not_intro (hloopback.mpr hsame))
        rw [hnone]
        simp [hsame]
      · have hsome : inetText (.inet sin_addr) = some (dotted sin_addr) := if_pos (mt hloopback.mp hsame)
        rw [hsome]
        simp [hsame]
    | link | other => rfl
  have hcollect := collectAddresses_eq (fun (_ : Nat) (ifa_addr : SockAddr) => Eq.refl (inetText ifa_addr)) interfaces 0 []
  rw [ipAddresses, hcollect, List.nil_append, hshown]
  constructor
  · rintro ⟨addresses, haddresses, -⟩ hnone
    rw [if_pos hnone] at haddresses
    cases haddresses
  · intro hall
    refine ⟨_, if_neg hall, ?_⟩
    have hread : inet_addr ∘ dotted = id := funext inet_addr_dotted
    rw [List.map_map, hread, List.map_id]

end MPHost

end MPSsh

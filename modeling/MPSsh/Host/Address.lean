import MPSsh.Base.Codec
import MPSsh.Base.Segments
import MPSsh.Host

namespace MPSsh

/-- The four numbers of an IPv4 address. -/
def octets (a : UInt32) : List Nat :=
  [a.toNat / 2 ^ 24, a.toNat / 2 ^ 16 % 256, a.toNat / 2 ^ 8 % 256, a.toNat % 256]

/-- The numeric host name of an IPv4 address. -/
def dotted (a : UInt32) : String :=
  String.ofList (['.'].intercalate ((octets a).map (Nat.toDigits 10)))

/-- A numeric host name of an IPv6 address. -/
structure IPv6Text where
  text : String
  printable : ∀ c ∈ text.toList, 32 < c.toNat ∧ c.toNat < 127
  colon : ':' ∈ text.toList
  fits : (utf8 text).length < MPHost.INET6_ADDRSTRLEN

/-- An address that a host name resolves to. An IPv6 address is given by the text that
`getnameinfo` has for it. -/
inductive Address where
  | ipv4 (a : UInt32)
  | ipv6 (text : IPv6Text)

def Address.numericHost : Address → String
  | .ipv4 a => dotted a
  | .ipv6 text => text.text

theorem isSpace_of_printable {c : Char} (hc : 32 < c.toNat) : isSpace c = false := by
  have hspace : c ≠ ' ' := by
    rintro rfl
    simp at hc
  have hreturn : ¬ c ≤ '\r' := by
    intro hle
    have hcode : c.toNat ≤ 13 := hle
    omega
  simp [isSpace, hspace, hreturn]

section Decimal

theorem digit_of_mem_toDigits {n : Nat} {c : Char} (hc : c ∈ Nat.toDigits 10 n) : 48 ≤ c.toNat ∧ c.toNat < 58 := by
  have hdigit := Nat.isDigit_of_mem_toDigits (by decide) (by decide) hc
  have hval : c.val.toNat = c.toNat := rfl
  simp [Char.isDigit, UInt32.le_iff_toNat_le, hval] at hdigit
  omega

theorem digitValue_of_digit {c : Char} (hc : 48 ≤ c.toNat ∧ c.toNat < 58) : digitValue c = some (c.toNat - 48) := by
  have hval : c.val.toNat = c.toNat := rfl
  unfold digitValue
  rw [if_pos]
  simp [Char.le_def, UInt32.le_iff_toNat_le, hval]
  omega

/-- Decimal digits are read as the number that they are the digits of. -/
theorem numberInBase_digits {digits : List Char} (hdigits : ∀ c ∈ digits, 48 ≤ c.toNat ∧ c.toNat < 58) (n : Nat) :
    numberInBase 10 digits n = some (Nat.ofDigitChars 10 digits n) := by
  induction digits generalizing n with
  | nil => simp [numberInBase]
  | cons c digits ih =>
    rw [List.forall_mem_cons] at hdigits
    obtain ⟨hc, hrest⟩ := hdigits
    unfold numberInBase
    rw [digitValue_of_digit hc]
    have hlt : c.toNat - 48 < 10 := by omega
    simp only [hlt, if_true]
    rw [ih hrest, Nat.ofDigitChars_cons, Nat.mul_comm]
    rfl

/-- Only zero is written with a leading zero. -/
theorem head_toDigits {n : Nat} (hn : 0 < n) : (Nat.toDigits 10 n).head? ≠ some '0' := by
  induction n using Nat.strongRecOn with
  | ind n ih =>
    by_cases hlt : n < 10
    · have hne : n ≠ 0 := by omega
      simp [Nat.toDigits_of_lt_base hlt, hne]
    · have hrest := ih (n / 10) (by omega) (by omega)
      rw [Nat.toDigits_of_base_le (by decide) (by omega), List.head?_append_of_ne_nil _ Nat.toDigits_ne_nil]
      exact hrest

/-- A number written in decimal is read back. -/
theorem inetNumber_toDigits (n : Nat) : inetNumber (Nat.toDigits 10 n) = some n := by
  rcases Nat.eq_zero_or_pos n with rfl | hn
  · rw [Nat.toDigits_zero]
    rfl
  · have hhead := head_toDigits hn
    unfold inetNumber
    split
    · rename_i hnil
      exact absurd hnil Nat.toDigits_ne_nil
    · rename_i hcons
      simp [hcons] at hhead
    · rename_i hcons
      simp [hcons] at hhead
    · rename_i hcons
      simp [hcons] at hhead
    · rw [numberInBase_digits (fun c hc => digit_of_mem_toDigits hc), Nat.ofDigitChars_ten_toDigits]

/-- The parts of a dotted address, as numbers in decimal. -/
def decimal : Codec Nat Char where
  separator := '.'
  write := Nat.toDigits 10
  read := inetNumber
  read_write := inetNumber_toDigits
  separator_notMem n hmem := by
    have hdigit := digit_of_mem_toDigits hmem
    simp at hdigit

end Decimal

theorem octets_lt (a : UInt32) : ∀ n ∈ octets a, n < 256 := by
  have := a.toNat_lt
  simp only [octets, List.forall_mem_cons, List.not_mem_nil, false_imp_iff, implies_true, and_true]
  omega

theorem octets_ne_nil (a : UInt32) : octets a ≠ [] :=
  List.cons_ne_nil _ _

theorem toList_dotted (a : UInt32) : (dotted a).toList = decimal.writeAll (octets a) := by
  rw [dotted, String.toList_ofList]
  rfl

theorem mem_dotted {a : UInt32} {c : Char} (hc : c ∈ (dotted a).toList) : c = '.' ∨ 48 ≤ c.toNat ∧ c.toNat < 58 := by
  rw [toList_dotted] at hc
  obtain hdot | ⟨n, -, hdigit⟩ := decimal.mem_writeAll (octets_ne_nil a) hc
  · exact Or.inl hdot
  · exact Or.inr (digit_of_mem_toDigits hdigit)

theorem Address.printable (address : Address) : ∀ c ∈ address.numericHost.toList, 32 < c.toNat ∧ c.toNat < 127 := by
  cases address with
  | ipv4 a =>
    intro c hc
    obtain rfl | hdigit := mem_dotted hc
    · decide
    · omega
  | ipv6 text => exact text.printable

theorem takeWhile_printable {text : String} (hprintable : ∀ c ∈ text.toList, 32 < c.toNat ∧ c.toNat < 127) :
    text.toList.takeWhile (! isSpace ·) = text.toList := by
  rw [List.takeWhile_eq_self_iff]
  intro c hc
  simp [isSpace_of_printable (hprintable c hc).1]

/-- The numeric host name of an IPv4 address is read back as that address. -/
theorem inet_addr_dotted (a : UInt32) : inet_addr (dotted a) = a := by
  have hnumbers : ((dotted a).toList.splitOn '.').mapM inetNumber = some (octets a) := by
    rw [toList_dotted]
    exact decimal.readAll_writeAll (octets_ne_nil a)
  have hlt := octets_lt a
  have hprintable : ∀ c ∈ (dotted a).toList, 32 < c.toNat ∧ c.toNat < 127 := Address.printable (.ipv4 a)
  rw [inet_addr, takeWhile_printable hprintable, hnumbers]
  simp only [octets, List.forall_mem_cons] at hlt ⊢
  obtain ⟨hfirst, hsecond, hthird, hfourth, -⟩ := hlt
  rw [if_pos ⟨hfirst, hsecond, hthird, hfourth⟩]
  have hsum : a.toNat / 2 ^ 24 * 2 ^ 24 + a.toNat / 2 ^ 16 % 256 * 2 ^ 16 + a.toNat / 2 ^ 8 % 256 * 2 ^ 8 +
      a.toNat % 256 = a.toNat := by omega
  rw [hsum, UInt32.ofNat_toNat]

theorem numberInBase_colon {base : Nat} {digits : List Char} (hcolon : ':' ∈ digits) (n : Nat) :
    numberInBase base digits n = none := by
  induction digits generalizing n with
  | nil => simp at hcolon
  | cons c digits ih =>
    unfold numberInBase
    rcases List.mem_cons.mp hcolon with rfl | hcolon
    · rfl
    · split
      · split
        · exact ih hcolon _
        · rfl
      · rfl

theorem inetNumber_colon {part : List Char} (hcolon : ':' ∈ part) : inetNumber part = none := by
  unfold inetNumber
  split
  · simp at hcolon
  · exact numberInBase_colon (by simpa using hcolon) _
  · exact numberInBase_colon (by simpa using hcolon) _
  · exact numberInBase_colon (by simpa using hcolon) _
  · exact numberInBase_colon hcolon _

theorem mapM_eq_none {α β : Type} {f : α → Option β} {xs : List α} {x : α} (hmem : x ∈ xs) (hx : f x = none) :
    xs.mapM f = none := by
  induction xs with
  | nil => simp at hmem
  | cons y ys ih =>
    rcases List.mem_cons.mp hmem with rfl | hmem
    · simp [hx]
    · cases f y <;> simp [ih hmem]

/-- A text with a colon is no IPv4 address. -/
theorem inet_addr_colon (text : IPv6Text) : inet_addr text.text = INADDR_NONE := by
  obtain ⟨part, hpart, hcolon⟩ := Segments.exists_mem_splitOnP (p := (· == '.')) text.colon (by decide)
  have hnone := mapM_eq_none hpart (inetNumber_colon hcolon)
  rw [inet_addr, takeWhile_printable text.printable, List.splitOn_eq_splitOnP, hnone]

theorem Address.fits (address : Address) : (utf8 address.numericHost).length < MPHost.INET6_ADDRSTRLEN := by
  cases address with
  | ipv6 text => exact text.fits
  | ipv4 a =>
    have hascii : IsAscii (dotted a) := fun c hc => by
      have := (Address.printable (.ipv4 a) c hc).2
      omega
    have hdigits (n : Nat) (hn : n ∈ octets a) : (Nat.toDigits 10 n).length ≤ 3 := by
      have := octets_lt a n hn
      rw [Nat.length_toDigits_le_iff (by decide) (by decide)]
      omega
    simp only [octets, List.forall_mem_cons] at hdigits
    obtain ⟨hfirst, hsecond, hthird, hfourth, -⟩ := hdigits
    rw [Address.numericHost, length_utf8_of_ascii hascii]
    simp only [dotted, octets, String.toList_ofList, List.map_cons, List.map_nil, List.intercalate_cons_cons,
      List.intercalate_singleton, List.length_append, List.length_singleton, MPHost.INET6_ADDRSTRLEN]
    omega

namespace MPHost

/-- What the system knows of a host name that resolves to some addresses. The flag of
each says that `getnameinfo` succeeds on it. -/
def resolution (stack : CharArray INET6_ADDRSTRLEN) (addresses : List (Address × Bool)) : Resolution where
  success := true
  addressing := some (addresses.map fun address => some (if address.2 then some (utf8 address.1.numericHost) else none))
  stack := stack

/-- What the system knows of a host name that does not resolve. -/
def unresolved (stack : CharArray INET6_ADDRSTRLEN) : Resolution where
  success := false
  addressing := none
  stack := stack

theorem stringAt_fill (ipAddress : CharArray INET6_ADDRSTRLEN) (address : Address) :
    (ipAddress.fill (utf8 address.numericHost ++ [0])).stringAt 0 = utf8 address.numericHost := by
  have hplain : ∀ c ∈ address.numericHost.toList, 0 < c.toNat ∧ c.toNat < 128 := by
    intro c hc
    have := address.printable c hc
    omega
  have hfits : (utf8 address.numericHost ++ [0]).length ≤ INET6_ADDRSTRLEN := by
    have := address.fits
    rw [List.length_append, List.length_singleton]
    omega
  rw [CharArray.stringAt, List.drop_zero, CharArray.fill_bytes _ hfits, List.append_assoc, List.singleton_append,
    cString_append_nul, cString_utf8 hplain]

/-- The text in the buffer is added for the addresses whose name is not known. -/
theorem addressTexts_ok {ipAddress : CharArray INET6_ADDRSTRLEN} {text : String}
    (htext : boxed (ipAddress.stringAt 0) = some text) (addresses : List (Address × Bool)) (texts : List String) :
    ∃ more, addressTexts ipAddress
      (addresses.map fun address => some (if address.2 then some (utf8 address.1.numericHost) else none)) texts =
        .ok (texts ++ more) := by
  induction addresses generalizing ipAddress text texts with
  | nil => exact ⟨[], by simp [addressTexts]⟩
  | cons address addresses ih =>
    obtain ⟨address, named⟩ := address
    cases named with
    | true =>
      have hnext : boxed ((ipAddress.fill (utf8 address.numericHost ++ [0])).stringAt 0) = some address.numericHost := by
        rw [stringAt_fill, boxed_utf8]
      obtain ⟨more, hmore⟩ := ih hnext (texts ++ [address.numericHost])
      exact ⟨address.numericHost :: more, by simpa [addressTexts, hnext] using hmore⟩
    | false =>
      obtain ⟨more, hmore⟩ := ih htext (texts ++ [text])
      exact ⟨text :: more, by simpa [addressTexts, htext] using hmore⟩

/-- Only the first address matters: its name, or what the buffer held before. -/
theorem addressForHostname_resolution (stack : CharArray INET6_ADDRSTRLEN) (addresses : List (Address × Bool)) :
    addressForHostname (resolution stack addresses) =
      match addresses with
      | [] => .ok none
      | (address, true) :: _ => .ok (some address.numericHost)
      | (_, false) :: _ =>
        match boxed (stack.stringAt 0) with
        | some text => .ok (some text)
        | none => .error () := by
  unfold addressForHostname addressesForHostname resolution
  cases addresses with
  | nil => rfl
  | cons address addresses =>
    obtain ⟨address, named⟩ := address
    cases named with
    | true =>
      have hfirst : boxed ((stack.fill (utf8 address.numericHost ++ [0])).stringAt 0) = some address.numericHost := by
        rw [stringAt_fill, boxed_utf8]
      obtain ⟨more, hmore⟩ := addressTexts_ok hfirst addresses ([] ++ [address.numericHost])
      simp only [if_true, List.map_cons, addressTexts, hfirst, hmore]
      rfl
    | false =>
      cases htext : boxed (stack.stringAt 0) with
      | none => simp [addressTexts, htext]; rfl
      | some text =>
        obtain ⟨more, hmore⟩ := addressTexts_ok htext addresses ([] ++ [text])
        simp only [if_true, List.map_cons, addressTexts, htext, Bool.false_eq_true, if_false, hmore]
        rfl

end MPHost

end MPSsh

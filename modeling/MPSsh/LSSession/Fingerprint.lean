import MPSsh.Base.Codec
import MPSsh.LSSession

namespace MPSsh

open Interaction

/-- The bytes that `libssh2_hostkey_hash` points to, read through a `char *`. -/
def HostkeyHash.chars (hash : HostkeyHash) : List Int8 :=
  hash.bytes.map UInt8.toInt8

namespace MPLSSession

/-- The conversion `%02X` of an `unsigned int`. -/
def format02X (n : UInt32) : List Char :=
  ((Nat.toDigits 16 n.toNat).map Char.toUpper).leftpad 2 '0'

/-- The body of the loop of `hostkeyHash:` at index `i`. -/
def appendByte (ret : List Int8) (fingerprint : List Char) (i : Nat) : List Char :=
  let fingerprint := fingerprint ++ format02X (ret.getD i 0).toUInt8.toUInt32
  if i < 19 then fingerprint ++ [':'] else fingerprint

/-- The loop of `hostkeyHash:` before the iteration with index `i`. -/
def appendTo (ret : List Int8) : Nat → List Char
  | 0 => []
  | i + 1 => appendByte ret (appendTo ret i) i

section Digits

def IsUpperHex (c : Char) : Prop :=
  '0' ≤ c ∧ c ≤ '9' ∨ 'A' ≤ c ∧ c ≤ 'F'

instance (c : Char) : Decidable (IsUpperHex c) :=
  inferInstanceAs (Decidable (_ ∨ _))

theorem hexDigit_isUpperHex {n : Nat} (hn : n < 16) : IsUpperHex (hexDigit n) := by
  have hdigit : ∀ n : Fin 16, IsUpperHex (hexDigit n) := by decide
  exact hdigit ⟨n, hn⟩

theorem digitValue_hexDigit {n : Nat} (hn : n < 16) : digitValue (hexDigit n) = some n := by
  have hdigit : ∀ n : Fin 16, digitValue (hexDigit n) = some n.val := by decide
  exact hdigit ⟨n, hn⟩

theorem toUpper_digitChar {n : Nat} (hn : n < 16) : (Nat.digitChar n).toUpper = hexDigit n := by
  have hdigit : ∀ n : Fin 16, (Nat.digitChar n).toUpper = hexDigit n := by decide
  exact hdigit ⟨n, hn⟩

theorem colon_not_isUpperHex : ¬ IsUpperHex ':' := by decide

end Digits

section Groups

theorem high_lt (b : UInt8) : b.toNat / 16 < 16 := by
  have := b.toNat_lt
  omega

theorem low_lt (b : UInt8) : b.toNat % 16 < 16 := by omega

/-- A byte is printed with two digits, the first one of which may be a zero. -/
theorem format02X_byte (b : UInt8) : format02X b.toUInt32 = hexByte b := by
  have hhigh := high_lt b
  have hlow := low_lt b
  have hnat : b.toUInt32.toNat = b.toNat := UInt8.toNat_toUInt32 b
  rw [format02X, hnat, hexByte]
  by_cases hlt : b.toNat < 16
  · have hzero : b.toNat / 16 = 0 := by omega
    have hself : b.toNat % 16 = b.toNat := by omega
    rw [Nat.toDigits_of_lt_base hlt, List.map_singleton, toUpper_digitChar hlt, hzero, hself]
    rfl
  · rw [Nat.toDigits_of_base_le (by decide) (by omega), Nat.toDigits_of_lt_base hhigh, List.map_append,
      List.map_singleton, List.map_singleton, toUpper_digitChar hhigh, toUpper_digitChar hlow]
    rfl

-- Without the cast to `unsigned char` a byte of 128 or above is extended by its sign.
example : format02X (128 : UInt8).toInt8.toInt32.toUInt32 = "FFFFFF80".toList := by decide

theorem hexByte_isUpperHex {b : UInt8} {c : Char} (hc : c ∈ hexByte b) : IsUpperHex c := by
  simp only [hexByte, List.mem_cons, List.not_mem_nil, or_false] at hc
  obtain rfl | rfl := hc
  · exact hexDigit_isUpperHex (high_lt b)
  · exact hexDigit_isUpperHex (low_lt b)

/-- Reads a group of two digits. -/
def parseGroup : List Char → Option UInt8
  | [c, d] =>
    match digitValue c, digitValue d with
    | some high, some low => some (UInt8.ofNat (16 * high + low))
    | _, _ => none
  | _ => none

theorem parseGroup_hexByte (b : UInt8) : parseGroup (hexByte b) = some b := by
  have hsum : 16 * (b.toNat / 16) + b.toNat % 16 = b.toNat := by omega
  simp only [hexByte, parseGroup, digitValue_hexDigit (high_lt b), digitValue_hexDigit (low_lt b), hsum,
    UInt8.ofNat_toNat]

/-- The bytes of a fingerprint, as groups of two digits with colons between them. -/
def hexCodec : Codec UInt8 Char where
  separator := ':'
  write := hexByte
  read := parseGroup
  read_write := parseGroup_hexByte
  separator_notMem _ hmem := colon_not_isUpperHex (hexByte_isUpperHex hmem)

theorem hexGroups_eq (bytes : List UInt8) : hexGroups bytes = hexCodec.writeAll bytes := by
  fun_induction hexGroups bytes with
  | case1 => rfl
  | case2 b => rw [Codec.writeAll_singleton]; rfl
  | case3 b bytes hne ih =>
    have hbytes : bytes ≠ [] := by
      rintro rfl
      exact hne rfl
    rw [hexCodec.writeAll_cons b hbytes, ih]
    rfl

end Groups

section Loop

/-- The casts to `char` and back leave the byte as it is. -/
theorem chars_getD (hash : HostkeyHash) {i : Nat} (hi : i < hash.bytes.length) :
    (hash.chars.getD i 0).toUInt8 = hash.bytes[i] := by
  rw [List.getD_eq_getElem?_getD, HostkeyHash.chars, List.getElem?_map, List.getElem?_eq_getElem hi]
  simp

/-- Before the last byte every group has its colon. -/
theorem appendTo_eq (hash : HostkeyHash) {i : Nat} (hi : i ≤ 19) :
    appendTo hash.chars i = (hash.bytes.take i).flatMap fun b => hexByte b ++ [':'] := by
  induction i with
  | zero => rfl
  | succ i ih =>
    have hlt : i < hash.bytes.length := by
      rw [hash.length_eq]
      omega
    rw [appendTo, appendByte, chars_getD hash hlt, format02X_byte, ih (by omega), if_pos (by omega),
      List.take_succ_eq_append_getElem hlt, List.flatMap_append, List.flatMap_singleton, List.append_assoc]

/-- The whole loop joins the groups with colons. -/
theorem appendTo_all (hash : HostkeyHash) : appendTo hash.chars 20 = hexGroups hash.bytes := by
  have hlt : 19 < hash.bytes.length := by
    rw [hash.length_eq]
    omega
  have hbytes : hash.bytes.take 19 ++ [hash.bytes[19]] = hash.bytes := by
    rw [← List.take_succ_eq_append_getElem hlt, List.take_of_length_le (by rw [hash.length_eq])]
  calc appendTo hash.chars 20
    _ = appendByte hash.chars (appendTo hash.chars 19) 19 := rfl
    _ = ((hash.bytes.take 19).flatMap fun b => hexByte b ++ [':']) ++ hexByte hash.bytes[19] := by
      rw [appendByte, chars_getD hash hlt, format02X_byte, appendTo_eq hash (Nat.le_refl 19), if_neg (by omega)]
    _ = hexCodec.writeAll (hash.bytes.take 19 ++ [hash.bytes[19]]) := (hexCodec.writeAll_concat _ _).symm
    _ = hexGroups hash.bytes := by rw [hbytes, hexGroups_eq]

end Loop

/-- The bytes that the groups of a fingerprint stand for. -/
def parseFingerprint (text : String) : Option (List UInt8) :=
  (text.toList.splitOn ':').mapM parseGroup

/-- A text is the fingerprint of a hash: 20 groups of two upper-case digits, joined by
colons, that are read back as the bytes of the hash. -/
structure Identifies (text : String) (hash : HostkeyHash) : Prop where
  length : text.length = 59
  groups : ∃ groups : List (List Char), groups.length = 20 ∧
    (∀ group ∈ groups, group.length = 2 ∧ ∀ c ∈ group, IsUpperHex c) ∧ text.toList = [':'].intercalate groups
  colons : text.toList.count ':' = 19
  parsed : parseFingerprint text = some hash.bytes

theorem bytes_ne_nil (hash : HostkeyHash) : hash.bytes ≠ [] := by
  intro hnil
  have hlength := hash.length_eq
  simp [hnil] at hlength

theorem fingerprintText_identifies (hash : HostkeyHash) : Identifies (fingerprintText hash) hash := by
  have hne := bytes_ne_nil hash
  have htext : (fingerprintText hash).toList = hexCodec.writeAll hash.bytes := by
    rw [fingerprintText, String.toList_ofList, hexGroups_eq]
  constructor
  case length =>
    have hwidth : ∀ b, (hexCodec.write b).length = 2 := fun _ => rfl
    have hlength := hexCodec.length_writeAll hwidth hne
    rw [hash.length_eq] at hlength
    rw [← String.length_toList, htext]
    omega
  case groups =>
    refine ⟨hash.bytes.map hexByte, by rw [List.length_map, hash.length_eq], ?_, htext⟩
    intro group hgroup
    obtain ⟨b, -, rfl⟩ := List.mem_map.mp hgroup
    exact ⟨rfl, fun c hc => hexByte_isUpperHex hc⟩
  case colons =>
    have hcount : (hexCodec.writeAll hash.bytes).count ':' + 1 = hash.bytes.length := hexCodec.count_writeAll hne
    rw [hash.length_eq] at hcount
    rw [htext]
    omega
  case parsed =>
    rw [parseFingerprint, htext]
    exact hexCodec.readAll_writeAll hne

/-- A text identifies one hash only. -/
theorem Identifies.unique {text : String} {hash hash' : HostkeyHash} (hidentifies : Identifies text hash)
    (hother : Identifies text hash') : hash' = hash := by
  have hbytes := hother.parsed.symm.trans hidentifies.parsed
  obtain ⟨bytes, hlength⟩ := hash
  obtain ⟨bytes', hlength'⟩ := hash'
  simpa using hbytes

/-- `hostkeyHash:` returns the text when the library returns the hash. -/
def Yields (s : Frame) (type : Int) (hash : HostkeyHash) (text : String) : Prop :=
  ∃ next, hostkeyHash type s = .act (.hostkeyHash type) next ∧ next (some hash) = .done (.returns (some text), s)

theorem yields_iff {s : Frame} {type : Int} {hash : HostkeyHash} {text : String} :
    Yields s type hash text ↔ text = fingerprintText hash := by
  constructor
  · rintro ⟨next, hcall, hnext⟩
    obtain rfl := eq_of_heq (Prog.act.inj hcall).2
    change Prog.done (Outcome.returns (some (fingerprintText hash)), s) = .done (.returns (some text), s) at hnext
    simpa using hnext.symm
  · rintro rfl
    exact ⟨_, rfl, rfl⟩

/-- The text that `hostkeyHash:` returns is what its loop appends. It identifies the
hash that the library has returned, so that equal fingerprints are of equal hashes. -/
theorem hostkeyHash_identifies (s : Frame) (type : Int) (hash : HostkeyHash) :
    ∃ text, Yields s type hash text ∧ text = String.ofList (appendTo hash.chars 20) ∧ Identifies text hash ∧
      ∀ s' type' hash', Yields s' type' hash' text → hash' = hash := by
  have hidentifies := fingerprintText_identifies hash
  refine ⟨fingerprintText hash, yields_iff.mpr rfl, ?_, hidentifies, ?_⟩
  · rw [appendTo_all, fingerprintText]
  · intro s' type' hash' hyields
    rw [yields_iff] at hyields
    have hother := fingerprintText_identifies hash'
    rw [← hyields] at hother
    exact hidentifies.unique hother

end MPLSSession

end MPSsh

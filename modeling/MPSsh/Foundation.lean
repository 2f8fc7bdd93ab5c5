import Mathlib.Algebra.GroupWithZero.Nat
import Mathlib.Data.List.Infix
import Mathlib.Data.List.TakeWhile

namespace MPSsh

/-- The bytes `-[NSString UTF8String]` points to, without the final NUL. An
`NSString` is the `String` of its Unicode scalar values. -/
def utf8 (s : String) : List UInt8 :=
  s.toList.flatMap String.utf8EncodeChar

/-- `-[NSString length]`: the number of UTF-16 code units. -/
def utf16Length (s : String) : Nat :=
  (s.toList.map fun c => if c.toNat < 0x10000 then 1 else 2).sum

/-- `[s rangeOfString:needle].length > 0`. The search is literal, character by character:
composed and decomposed forms of a character are different here. -/
def containsString (s needle : String) : Bool :=
  needle.toList <:+: s.toList

/-- `[s hasPrefix:start]`, which is false on `nil`. It is literal as well. -/
def hasPrefix (s : Option String) (start : String) : Bool :=
  s.elim false fun s => start.toList.isPrefixOf s.toList

/-- The C string that starts at the first of these bytes. -/
def cString (bytes : List UInt8) : List UInt8 :=
  bytes.takeWhile (· ≠ 0)

/-- The boxing expression `@(cstr)`: the UTF-8 decoding of the bytes, or `nil`
when they are not valid UTF-8. -/
def boxed (bytes : List UInt8) : Option String :=
  String.fromUTF8? bytes.toByteArray

/-- The text of a sequence of 7-bit bytes. -/
def ascii (bytes : List UInt8) : String :=
  String.ofList (bytes.map fun b => Char.ofNat b.toNat)

/-- The encoding in which `%s` reads a C string. It is fixed by the platform,
and every platform's encoding extends ASCII. -/
structure SystemEncoding where
  decode : List UInt8 → String
  decode_ascii : ∀ bytes, (∀ b ∈ bytes, b < 128) → decode bytes = ascii bytes

theorem utf8_toByteArray (s : String) : (utf8 s).toByteArray = s.toByteArray := by
  change s.toList.utf8Encode = s.toByteArray
  rw [← String.toByteArray_ofList, String.ofList_toList]

theorem boxed_utf8 (s : String) : boxed (utf8 s) = some s := by
  have hvalid : (utf8 s).toByteArray.IsValidUTF8 := by
    rw [utf8_toByteArray]
    exact s.isValidUTF8
  simp only [boxed, String.fromUTF8?, hvalid, dite_true, Option.some.injEq]
  rw [← String.toByteArray_inj]
  exact utf8_toByteArray s

/-- A text is boxed from its own bytes and from no others. -/
theorem boxed_eq_some_iff {bytes : List UInt8} {s : String} : boxed bytes = some s ↔ utf8 s = bytes := by
  constructor
  · intro hboxed
    simp only [boxed, String.fromUTF8?] at hboxed
    split at hboxed
    · rw [← List.toByteArray_inj, utf8_toByteArray, ← Option.some.inj hboxed]
      rfl
    · cases hboxed
  · rintro rfl
    exact boxed_utf8 s

theorem utf8_append (s t : String) : utf8 (s ++ t) = utf8 s ++ utf8 t := by
  simp [utf8]

/-- A character of 7 bits is a byte of its own, and every other one starts with a byte
of 8 bits. -/
theorem utf8EncodeChar_first (c : Char) :
    ∃ b rest, String.utf8EncodeChar c = b :: rest ∧
      (c.toNat < 128 ∧ b.toNat = c.toNat ∧ rest = [] ∨ 128 ≤ c.toNat ∧ 128 ≤ b.toNat) := by
  have hval : c.val.toNat = c.toNat := rfl
  simp only [String.utf8EncodeChar, hval]
  split
  · refine ⟨_, _, rfl, Or.inl ⟨by omega, ?_, rfl⟩⟩
    rw [UInt8.toNat_ofNat']
    omega
  · split
    · refine ⟨_, _, rfl, Or.inr ⟨by omega, ?_⟩⟩
      rw [UInt8.toNat_ofNat']
      omega
    · split
      · refine ⟨_, _, rfl, Or.inr ⟨by omega, ?_⟩⟩
        rw [UInt8.toNat_ofNat']
        omega
      · refine ⟨_, _, rfl, Or.inr ⟨by omega, ?_⟩⟩
        rw [UInt8.toNat_ofNat']
        omega

theorem utf8EncodeChar_of_byte {b : UInt8} (hb : b < 128) :
    String.utf8EncodeChar (Char.ofNat b.toNat) = [b] := by
  have hnat : b.toNat < 128 := hb
  have hval : (Char.ofNat b.toNat).val.toNat = b.toNat := by
    have hvalid : b.toNat.isValidChar := Or.inl (by omega)
    rw [Char.ofNat, dif_pos hvalid]
    rfl
  simp only [String.utf8EncodeChar, hval]
  rw [if_pos (by omega)]
  simp

theorem ascii_append (xs ys : List UInt8) : ascii (xs ++ ys) = ascii xs ++ ascii ys := by
  simp [ascii]

theorem utf8_ascii {bytes : List UInt8} (hascii : ∀ b ∈ bytes, b < 128) : utf8 (ascii bytes) = bytes := by
  induction bytes with
  | nil => rfl
  | cons b bytes ih =>
    have hb := utf8EncodeChar_of_byte (hascii b (by simp))
    have hrest := ih fun c hc => hascii c (by simp [hc])
    simp only [utf8, ascii, String.toList_ofList, List.map_cons, List.flatMap_cons] at hrest ⊢
    rw [hb, hrest]
    rfl

theorem boxed_ascii {bytes : List UInt8} (hascii : ∀ b ∈ bytes, b < 128) :
    boxed bytes = some (ascii bytes) := by
  have hboxed := boxed_utf8 (ascii bytes)
  rwa [utf8_ascii hascii] at hboxed

/-- Texts of 7-bit bytes are equal only when the bytes are. -/
theorem ascii_inj {xs ys : List UInt8} (hxs : ∀ b ∈ xs, b < 128) (hys : ∀ b ∈ ys, b < 128) :
    ascii xs = ascii ys ↔ xs = ys := by
  constructor
  · intro heq
    rw [← utf8_ascii hxs, heq, utf8_ascii hys]
  · rintro rfl
    rfl

/-- A text of 7-bit characters. -/
def IsAscii (s : String) : Prop :=
  ∀ c ∈ s.toList, c.toNat < 128

instance (s : String) : Decidable (IsAscii s) :=
  inferInstanceAs (Decidable (∀ c ∈ s.toList, _))

/-- A character takes as many UTF-16 units as UTF-8 bytes when it has 7 bits, and
fewer otherwise. -/
theorem utf16_utf8Size (c : Char) :
    (c.toNat < 128 ∧ c.utf8Size = if c.toNat < 0x10000 then 1 else 2) ∨
      (128 ≤ c.toNat ∧ (if c.toNat < 0x10000 then 1 else 2) < c.utf8Size) := by
  have hval : c.val.toNat = c.toNat := rfl
  have hone := Char.utf8Size_eq_one_iff (c := c)
  have htwo := Char.utf8Size_eq_two_iff (c := c)
  simp only [UInt32.le_iff_toNat_le, UInt32.lt_iff_toNat_lt, hval, UInt32.reduceToNat] at hone htwo
  rcases Char.utf8Size_eq c with hsize | hsize | hsize | hsize
  · have := hone.mp hsize
    rw [hsize, if_pos (by omega)]
    omega
  · have := htwo.mp hsize
    rw [hsize, if_pos (by omega)]
    omega
  · rw [hsize]
    split <;> omega
  · rw [hsize]
    split <;> omega

theorem length_utf8 (s : String) : (utf8 s).length = (s.toList.map Char.utf8Size).sum := by
  simp [utf8, List.length_flatMap]

theorem utf16Length_le_and_eq_iff (s : String) :
    utf16Length s ≤ (utf8 s).length ∧ (utf16Length s = (utf8 s).length ↔ IsAscii s) := by
  rw [length_utf8, utf16Length, IsAscii]
  induction s.toList with
  | nil => simp
  | cons c cs ih =>
    obtain ⟨hle, heq⟩ := ih
    simp only [List.map_cons, List.sum_cons, List.forall_mem_cons]
    obtain ⟨hc, hsize⟩ | ⟨hc, hsize⟩ := utf16_utf8Size c
    · refine ⟨by omega, ?_⟩
      rw [← heq]
      omega
    · omega

theorem length_utf8_of_ascii {s : String} (hascii : IsAscii s) : (utf8 s).length = s.toList.length := by
  rw [length_utf8]
  have hone : s.toList.map Char.utf8Size = s.toList.map fun _ => 1 := by
    refine List.map_congr_left fun c hc => ?_
    have := hascii c hc
    obtain ⟨-, hsize⟩ | ⟨hc, -⟩ := utf16_utf8Size c
    · rw [hsize, if_pos (by omega)]
    · omega
  rw [hone, List.map_const', List.sum_replicate_nat, Nat.mul_one]

theorem cString_eq_self_iff {bytes : List UInt8} : cString bytes = bytes ↔ 0 ∉ bytes := by
  rw [cString, List.takeWhile_eq_self_iff]
  constructor
  · intro hall hmem
    simpa using hall 0 hmem
  · intro hnul b hb
    simpa using fun h : b = 0 => hnul (h ▸ hb)

theorem cString_eq_self {bytes : List UInt8} (hnul : 0 ∉ bytes) : cString bytes = bytes :=
  cString_eq_self_iff.mpr hnul

/-- A text of 7-bit characters other than NUL is a C string. -/
theorem cString_utf8 {s : String} (hplain : ∀ c ∈ s.toList, 0 < c.toNat ∧ c.toNat < 128) :
    cString (utf8 s) = utf8 s := by
  apply cString_eq_self
  intro hmem
  obtain ⟨c, hc, hbyte⟩ := List.mem_flatMap.mp hmem
  obtain ⟨hpos, hlt⟩ := hplain c hc
  have hnat : (UInt8.ofNat c.toNat).toNat = c.toNat := by
    rw [UInt8.toNat_ofNat']
    omega
  have hencoded : String.utf8EncodeChar (Char.ofNat (UInt8.ofNat c.toNat).toNat) = [UInt8.ofNat c.toNat] :=
    utf8EncodeChar_of_byte (by rw [UInt8.lt_iff_toNat_lt, hnat]; exact hlt)
  rw [hnat, Char.ofNat_toNat] at hencoded
  rw [hencoded, List.mem_singleton] at hbyte
  have hzero := congrArg UInt8.toNat hbyte
  rw [hnat] at hzero
  simp at hzero
  omega

/-- A NUL ends the string whatever follows it. -/
theorem cString_append_nul (bytes rest : List UInt8) : cString (bytes ++ 0 :: rest) = cString bytes := by
  induction bytes with
  | nil => simp [cString]
  | cons b bytes ih =>
    by_cases hb : b = 0
    · simp [cString, hb]
    · simpa [cString, hb] using ih

/-- A C array `char buffer[size]`. -/
structure CharArray (size : Nat) where
  bytes : List UInt8
  length_eq : bytes.length = size

namespace CharArray

variable {size : Nat}

/-- The library's copy of received data to the start of the array. -/
def fill (buffer : CharArray size) (data : List UInt8) : CharArray size where
  bytes := data.take size ++ buffer.bytes.drop data.length
  length_eq := by
    have := buffer.length_eq
    simp only [List.length_append, List.length_take, List.length_drop]
    omega

/-- The assignment `buffer[i] = b`. -/
def write (buffer : CharArray size) (i : Nat) (b : UInt8) : CharArray size where
  bytes := buffer.bytes.set i b
  length_eq := by simp [buffer.length_eq]

/-- The byte `buffer[i]`. -/
def read (buffer : CharArray size) (i : Nat) : UInt8 :=
  buffer.bytes.getD i 0

/-- The C string at `&buffer[offset]`. Without a NUL from there on, it ends with the array,
behind which C reads on. -/
def stringAt (buffer : CharArray size) (offset : Nat) : List UInt8 :=
  cString (buffer.bytes.drop offset)

theorem write_bytes (buffer : CharArray size) (i : Nat) (b : UInt8) :
    (buffer.write i b).bytes = buffer.bytes.set i b := rfl

theorem fill_bytes (buffer : CharArray size) {data : List UInt8} (hfits : data.length ≤ size) :
    (buffer.fill data).bytes = data ++ buffer.bytes.drop data.length := by
  simp only [fill]
  rw [List.take_of_length_le hfits]

/-- Received data that leaves room for a terminator, once it is written. -/
theorem fill_write_bytes (buffer : CharArray size) {data : List UInt8} (hroom : data.length < size) :
    ((buffer.fill data).write data.length 0).bytes = data ++ 0 :: buffer.bytes.drop (data.length + 1) := by
  have hlength := buffer.length_eq
  simp only [write, fill]
  rw [List.take_of_length_le (by omega), List.set_append_right _ _ (Nat.le_refl _), Nat.sub_self]
  rw [List.drop_eq_getElem_cons (by omega), List.set_cons_zero]

end CharArray

end MPSsh

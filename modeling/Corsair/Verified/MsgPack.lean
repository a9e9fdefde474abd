import Mathlib.Algebra.Group.Nat.Defs
import Corsair.Verified.BigEndian

/-!
# MessagePack: named maps of scalars

`Format` relates a scalar to each of its encodings among the formats that
occur here: the 32- and 64-bit integers, the double and the four string
formats.  A named map is a `fixmap` whose keys are strings (`NamedMap`).

A reader is any function from bytes to entries; `ReadsNamedMaps` says that it
reads every named map back.  `readMap` is one.

A struct is taken from the entries field by field (`requiredField`, `optionalField`,
`fieldWithDefault`): by the name of the field or an alias of it, other keys being
ignored, and an error if the field occurs twice or its scalar has the wrong
type.

## Main results

* `readScalar_format` — a scalar is read back from each of its encodings.
* `readMap_readsNamedMaps` — so is a named map.
-/

namespace Corsair.Verified.MsgPack

open Corsair.Verified.BigEndian

/-- A scalar; a double is its bit pattern. -/
inductive Scalar
  | nil
  | int (n : Int)
  | f64 (bits : UInt64)
  | str (s : String)
  deriving DecidableEq, Repr

/-- The bytes of a string. -/
def utf8 (s : String) : List UInt8 := s.toUTF8.data.toList

/-- The two's complement numeral of `n` in `k` bytes. -/
def signedBytes (k : Nat) (n : Int) : List UInt8 := toBytes k (n % (256 ^ k : Nat)).toNat

/-- The encodings of a scalar. -/
inductive Format : Scalar → List UInt8 → Prop
  | uint32 {n : Nat} (h : n < 256 ^ 4) : Format (.int n) (0xce :: toBytes 4 n)
  | uint64 {n : Nat} (h : n < 256 ^ 8) : Format (.int n) (0xcf :: toBytes 8 n)
  | int32 {n : Int} (hlo : -2 ^ 31 ≤ n) (hhi : n < 2 ^ 31) :
      Format (.int n) (0xd2 :: signedBytes 4 n)
  | int64 {n : Int} (hlo : -2 ^ 63 ≤ n) (hhi : n < 2 ^ 63) :
      Format (.int n) (0xd3 :: signedBytes 8 n)
  | float64 (bits : UInt64) : Format (.f64 bits) (0xcb :: toBytes 8 bits.toNat)
  | fixstr {s : String} (h : (utf8 s).length < 32) :
      Format (.str s) (UInt8.ofNat (0xa0 + (utf8 s).length) :: utf8 s)
  | str8 {s : String} (h : (utf8 s).length < 256 ^ 1) :
      Format (.str s) (0xd9 :: (toBytes 1 (utf8 s).length ++ utf8 s))
  | str16 {s : String} (h : (utf8 s).length < 256 ^ 2) :
      Format (.str s) (0xda :: (toBytes 2 (utf8 s).length ++ utf8 s))
  | str32 {s : String} (h : (utf8 s).length < 256 ^ 4) :
      Format (.str s) (0xdb :: (toBytes 4 (utf8 s).length ++ utf8 s))

/-- The encodings of the entries of a map, in order. -/
inductive Fields : List (String × Scalar) → List UInt8 → Prop
  | nil : Fields [] []
  | cons {key : String} {value : Scalar} {rest : List (String × Scalar)}
      {keyBytes valueBytes restBytes : List UInt8} (hkey : Format (.str key) keyBytes)
      (hvalue : Format value valueBytes) (hrest : Fields rest restBytes) :
      Fields ((key, value) :: rest) (keyBytes ++ (valueBytes ++ restBytes))

theorem Fields.append {front back : List (String × Scalar)} {frontBytes backBytes : List UInt8}
    (hfront : Fields front frontBytes) (hback : Fields back backBytes) :
    Fields (front ++ back) (frontBytes ++ backBytes) := by
  induction hfront with
  | nil => exact hback
  | cons hkey hvalue _ ih =>
      rw [List.append_assoc, List.append_assoc]
      exact .cons hkey hvalue ih

/-- The encodings of a map of at most fifteen entries. -/
inductive NamedMap : List (String × Scalar) → List UInt8 → Prop
  | fixmap {entries : List (String × Scalar)} {body : List UInt8} (hsize : entries.length < 16)
      (hbody : Fields entries body) :
      NamedMap entries (UInt8.ofNat (0x80 + entries.length) :: body)

/-- A reader that reads every named map back. -/
def ReadsNamedMaps (read : List UInt8 → Option (List (String × Scalar))) : Prop :=
  ∀ entries bytes, NamedMap entries bytes → read bytes = some entries

/-! ## A reader -/

/-- The first `k` bytes, and the rest. -/
def takeBytes (k : Nat) (bytes : List UInt8) : Option (List UInt8 × List UInt8) :=
  if bytes.length < k then none else some (bytes.take k, bytes.drop k)

/-- The signed value of a numeral of `k` bytes. -/
def signedOf (k : Nat) (bytes : List UInt8) : Int :=
  Int.bmod (ofBytes bytes) (256 ^ k)

/-- A string of `n` bytes. -/
def readStr (n : Nat) (bytes : List UInt8) : Option (Scalar × List UInt8) := do
  let (front, rest) ← takeBytes n bytes
  let s ← String.fromUTF8? ⟨front.toArray⟩
  return (.str s, rest)

/-- A string whose length is a numeral of `k` bytes. -/
def readLongStr (k : Nat) (bytes : List UInt8) : Option (Scalar × List UInt8) := do
  let (size, rest) ← takeBytes k bytes
  readStr (ofBytes size) rest

/-- A scalar off the front of a buffer. -/
def readScalar : List UInt8 → Option (Scalar × List UInt8)
  | [] => none
  | marker :: bytes =>
      if 0xa0 ≤ marker.toNat ∧ marker.toNat < 0xc0 then
        readStr (marker.toNat - 0xa0) bytes
      else if marker = 0xce then
        (takeBytes 4 bytes).map fun b => (.int (ofBytes b.1), b.2)
      else if marker = 0xcf then
        (takeBytes 8 bytes).map fun b => (.int (ofBytes b.1), b.2)
      else if marker = 0xd2 then
        (takeBytes 4 bytes).map fun b => (.int (signedOf 4 b.1), b.2)
      else if marker = 0xd3 then
        (takeBytes 8 bytes).map fun b => (.int (signedOf 8 b.1), b.2)
      else if marker = 0xcb then
        (takeBytes 8 bytes).map fun b => (.f64 (UInt64.ofNat (ofBytes b.1)), b.2)
      else if marker = 0xd9 then readLongStr 1 bytes
      else if marker = 0xda then readLongStr 2 bytes
      else if marker = 0xdb then readLongStr 4 bytes
      else none

/-- `n` entries off the front of a buffer. -/
def readFields : Nat → List UInt8 → Option (List (String × Scalar) × List UInt8)
  | 0, bytes => some ([], bytes)
  | n + 1, bytes => do
      let (key, bytes) ← readScalar bytes
      let .str name := key | none
      let (value, bytes) ← readScalar bytes
      let (rest, bytes) ← readFields n bytes
      return ((name, value) :: rest, bytes)

/-- A named map. -/
def readMap : List UInt8 → Option (List (String × Scalar))
  | [] => none
  | marker :: bytes =>
      if 0x80 ≤ marker.toNat ∧ marker.toNat < 0x90 then
        (readFields (marker.toNat - 0x80) bytes).map (·.1)
      else none

theorem takeBytes_append {k : Nat} {front : List UInt8} (h : front.length = k)
    (rest : List UInt8) : takeBytes k (front ++ rest) = some (front, rest) := by
  subst h
  simp [takeBytes]

@[simp] theorem signedBytes_length (k : Nat) (n : Int) : (signedBytes k n).length = k :=
  toBytes_length k _

theorem signedOf_signedBytes {k : Nat} {n : Int} (hlo : -((256 ^ k : Nat) / 2 : Int) ≤ n)
    (hhi : n < ((256 ^ k : Nat) + 1) / 2) : signedOf k (signedBytes k n) = n := by
  have hpos : 0 < 256 ^ k := Nat.pow_pos (by decide)
  have hnonneg := Int.emod_nonneg n (b := (256 ^ k : Nat)) (by omega)
  have hlt := Int.emod_lt_of_pos n (b := (256 ^ k : Nat)) (by omega)
  have hfits : (n % (256 ^ k : Nat)).toNat < 256 ^ k := by omega
  rw [signedOf, signedBytes, ofBytes_toBytes_of_lt hfits, Int.toNat_of_nonneg hnonneg,
    Int.emod_bmod]
  exact Int.bmod_eq_of_le hlo hhi

theorem readStr_utf8 (s : String) (rest : List UInt8) :
    readStr (utf8 s).length (utf8 s ++ rest) = some (.str s, rest) := by
  have hbytes : (⟨(utf8 s).toArray⟩ : ByteArray) = s.toByteArray := by
    simp [utf8]
  have hstring : String.fromUTF8? s.toByteArray = some s := by
    simp [String.fromUTF8?, String.fromUTF8, s.isValidUTF8]
  simp [readStr, takeBytes_append rfl, hbytes, hstring]

theorem readLongStr_utf8 {k : Nat} (s : String) (h : (utf8 s).length < 256 ^ k)
    (rest : List UInt8) :
    readLongStr k (toBytes k (utf8 s).length ++ utf8 s ++ rest) = some (.str s, rest) := by
  rw [readLongStr, List.append_assoc, takeBytes_append (toBytes_length k _)]
  simp [ofBytes_toBytes_of_lt h, readStr_utf8]

/-- A scalar is read back from each of its encodings. -/
theorem readScalar_format {value : Scalar} {bytes : List UInt8} (h : Format value bytes)
    (rest : List UInt8) : readScalar (bytes ++ rest) = some (value, rest) := by
  cases h with
  | uint32 h =>
      simp [readScalar, takeBytes_append (toBytes_length 4 _), ofBytes_toBytes_of_lt h]
  | uint64 h =>
      simp [readScalar, takeBytes_append (toBytes_length 8 _), ofBytes_toBytes_of_lt h]
  | @int32 n hlo hhi =>
      have hvalue : signedOf 4 (signedBytes 4 n) = n :=
        signedOf_signedBytes (by omega) (by omega)
      simp [readScalar, takeBytes_append (signedBytes_length 4 n), hvalue]
  | @int64 n hlo hhi =>
      have hvalue : signedOf 8 (signedBytes 8 n) = n :=
        signedOf_signedBytes (by omega) (by omega)
      simp [readScalar, takeBytes_append (signedBytes_length 8 n), hvalue]
  | float64 bits =>
      have hfits : bits.toNat < 256 ^ 8 := bits.toNat_lt
      simp [readScalar, takeBytes_append (toBytes_length 8 _), ofBytes_toBytes_of_lt hfits]
  | @fixstr s h =>
      have hmarker : (UInt8.ofNat (0xa0 + (utf8 s).length)).toNat = 0xa0 + (utf8 s).length := by
        rw [UInt8.toNat_ofNat']
        omega
      rw [List.cons_append, readScalar, hmarker, if_pos (by omega), Nat.add_sub_cancel_left]
      exact readStr_utf8 s rest
  | @str8 s h => simpa [readScalar] using readLongStr_utf8 s h rest
  | @str16 s h => simpa [readScalar] using readLongStr_utf8 s h rest
  | @str32 s h => simpa [readScalar] using readLongStr_utf8 s h rest

theorem readFields_fields {entries : List (String × Scalar)} {bytes : List UInt8}
    (h : Fields entries bytes) (rest : List UInt8) :
    readFields entries.length (bytes ++ rest) = some (entries, rest) := by
  induction h with
  | nil => rfl
  | @cons key value tail keyBytes valueBytes tailBytes hkey hvalue htail ih =>
      rw [List.append_assoc, List.append_assoc, List.length_cons, readFields]
      simp [readScalar_format hkey, readScalar_format hvalue, ih]

/-- **Round trip.** A named map is read back from its encodings. -/
theorem readMap_readsNamedMaps : ReadsNamedMaps readMap := by
  intro entries bytes h
  cases h with
  | @fixmap body hsize hbody =>
      have hmarker : (UInt8.ofNat (0x80 + entries.length)).toNat = 0x80 + entries.length := by
        rw [UInt8.toNat_ofNat']
        omega
      have hread := readFields_fields hbody []
      rw [List.append_nil] at hread
      rw [readMap, hmarker, if_pos (by omega), Nat.add_sub_cancel_left, hread]
      rfl

/-! ## Structs -/

/-- The scalar of the field with the given names: nothing if it occurs twice,
and `some none` if it does not occur. -/
def field (names : List String) (entries : List (String × Scalar)) : Option (Option Scalar) :=
  match entries.filter fun e => e.1 ∈ names with
  | [] => some none
  | [e] => some (some e.2)
  | _ => none

/-- A field that must occur. -/
def requiredField {α : Type} (names : List String) (as : Scalar → Option α)
    (entries : List (String × Scalar)) : Option α := do
  let value ← field names entries
  value.bind as

/-- A field of an optional type; it may be missing, or nil. -/
def optionalField {α : Type} (names : List String) (as : Scalar → Option α)
    (entries : List (String × Scalar)) : Option (Option α) := do
  match ← field names entries with
  | none => return none
  | some value => if value = .nil then return none else (as value).map some

/-- A field with a default. -/
def fieldWithDefault {α : Type} (names : List String) (as : Scalar → Option α) (default : α)
    (entries : List (String × Scalar)) : Option α := do
  match ← field names entries with
  | none => return default
  | some value => as value

/-- A string. -/
def Scalar.asStr : Scalar → Option String
  | .str s => some s
  | _ => none

/-- A double; an integer is converted. -/
def Scalar.asF64 : Scalar → Option UInt64
  | .f64 bits => some bits
  | .int n => some (Float.ofInt n).toBits
  | _ => none

/-- An unsigned integer of `width` bits. -/
def Scalar.asUnsigned (width : Nat) : Scalar → Option Nat
  | .int n => if 0 ≤ n ∧ n < 2 ^ width then some n.toNat else none
  | _ => none

/-- A signed integer of `width` bits. -/
def Scalar.asSigned (width : Nat) : Scalar → Option Int
  | .int n => if -2 ^ (width - 1) ≤ n ∧ n < 2 ^ (width - 1) then some n else none
  | _ => none

theorem requiredField_of_field {α : Type} {names : List String} {as : Scalar → Option α}
    {entries : List (String × Scalar)} {value : Scalar} {a : α}
    (hfield : field names entries = some (some value)) (has : as value = some a) :
    requiredField names as entries = some a := by
  simp [requiredField, hfield, has]

theorem requiredField_missing {α : Type} {names : List String} {as : Scalar → Option α}
    {entries : List (String × Scalar)} (hfield : field names entries = some none) :
    requiredField names as entries = none := by
  simp [requiredField, hfield]

theorem optionalField_of_field {α : Type} {names : List String} {as : Scalar → Option α}
    {entries : List (String × Scalar)} {value : Scalar} {a : α}
    (hfield : field names entries = some (some value)) (hnil : value ≠ .nil)
    (has : as value = some a) : optionalField names as entries = some (some a) := by
  simp [optionalField, hfield, hnil, has]

theorem optionalField_missing {α : Type} {names : List String} {as : Scalar → Option α}
    {entries : List (String × Scalar)} (hfield : field names entries = some none) :
    optionalField names as entries = some none := by
  simp [optionalField, hfield]

theorem fieldWithDefault_missing {α : Type} {names : List String} {as : Scalar → Option α}
    {default : α} {entries : List (String × Scalar)} (hfield : field names entries = some none) :
    fieldWithDefault names as default entries = some default := by
  simp [fieldWithDefault, hfield]

theorem asUnsigned_of_lt {width n : Nat} (h : n < 2 ^ width) :
    (Scalar.int n).asUnsigned width = some n := by
  have hcast : (n : Int) < 2 ^ width := by exact_mod_cast h
  simp [Scalar.asUnsigned, hcast]

theorem asUnsigned_of_nonneg {width : Nat} {n : Int} (hlo : 0 ≤ n) (hhi : n < 2 ^ width) :
    (Scalar.int n).asUnsigned width = some n.toNat := by
  simp [Scalar.asUnsigned, hlo, hhi]

theorem asSigned_of_lt {width : Nat} {n : Int} (hlo : -2 ^ (width - 1) ≤ n)
    (hhi : n < 2 ^ (width - 1)) : (Scalar.int n).asSigned width = some n := by
  simp [Scalar.asSigned, hlo, hhi]

end Corsair.Verified.MsgPack

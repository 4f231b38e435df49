import Mathlib.Data.List.Basic

/-!
# The protobuf wire format

Numbers are varints: seven bits a byte, the lowest first, the high bit set on every byte but the last. A message is a
sequence of fields, each with its number and its wire type; here the types 0 (a varint) and 2 (bytes with their length).

* `varint`, `readVarint`, `Field.encode`, `readField`, `parse`;
* `parse_encode` : a sequence of fields reads back;
* `Schema` : a message type as the fields that it writes and what it makes of each field that it reads, and
  `Schema.decode_encode` : a message reads back if its fields do.
-/

namespace Protobuf

/-! ## Varints -/

def varintAux : Nat → Nat → List UInt8
  | 0, _ => []
  | fuel + 1, n => if n < 128 then [UInt8.ofNat n] else UInt8.ofNat (n % 128 + 128) :: varintAux fuel (n / 128)

def varint (n : Nat) : List UInt8 := varintAux (n + 1) n

/-- The number at the front, and the bytes after it. -/
def readVarint : List UInt8 → Option (Nat × List UInt8)
  | [] => none
  | b :: bytes =>
    if b.toNat < 128 then some (b.toNat, bytes)
    else (readVarint bytes).map fun x => (b.toNat - 128 + 128 * x.1, x.2)

theorem readVarint_varintAux {fuel n : Nat} (h : n < fuel) (rest : List UInt8) :
    readVarint (varintAux fuel n ++ rest) = some (n, rest) := by
  induction fuel generalizing n with
  | zero => omega
  | succ fuel ih =>
      unfold varintAux
      split_ifs with hsmall
      · have hbyte : (UInt8.ofNat n).toNat = n := by
          rw [UInt8.toNat_ofNat']
          omega
        rw [List.singleton_append, readVarint, hbyte, if_pos hsmall]
      · have hbyte : (UInt8.ofNat (n % 128 + 128)).toNat = n % 128 + 128 := by
          rw [UInt8.toNat_ofNat']
          omega
        rw [List.cons_append, readVarint, hbyte, if_neg (by omega), ih (by omega)]
        simp only [Option.map_some, Option.some.injEq, Prod.mk.injEq, and_true]
        omega

theorem readVarint_varint (n : Nat) (rest : List UInt8) : readVarint (varint n ++ rest) = some (n, rest) :=
  readVarint_varintAux (Nat.lt_succ_self n) rest

theorem varint_length_pos (n : Nat) : 0 < (varint n).length := by
  unfold varint varintAux
  split_ifs <;> simp

/-! ## Fields -/

/-- What a field holds. -/
inductive Value where
  | number (n : Nat)
  | bytes (bs : List UInt8)
  deriving DecidableEq, Repr

structure Field where
  number : Nat
  value : Value
  deriving DecidableEq, Repr

/-- The key of a field, then what it holds. -/
def Field.encode (field : Field) : List UInt8 :=
  match field.value with
  | .number n => varint (8 * field.number) ++ varint n
  | .bytes bs => varint (8 * field.number + 2) ++ (varint bs.length ++ bs)

def readField (bytes : List UInt8) : Option (Field × List UInt8) :=
  (readVarint bytes).bind fun key =>
    if key.1 % 8 = 0 then (readVarint key.2).map fun x => (⟨key.1 / 8, .number x.1⟩, x.2)
    else if key.1 % 8 = 2 then
      (readVarint key.2).bind fun x =>
        if x.1 ≤ x.2.length then some (⟨key.1 / 8, .bytes (x.2.take x.1)⟩, x.2.drop x.1) else none
    else none

theorem readField_encode (field : Field) (rest : List UInt8) : readField (field.encode ++ rest) = some (field, rest) := by
  obtain ⟨number, n | bs⟩ := field
  · have hkey : 8 * number % 8 = 0 ∧ 8 * number / 8 = number := by omega
    simp [Field.encode, readField, readVarint_varint, hkey]
  · have hkey : ¬ (8 * number + 2) % 8 = 0 ∧ (8 * number + 2) % 8 = 2 ∧ (8 * number + 2) / 8 = number := by omega
    simp [Field.encode, readField, readVarint_varint, hkey]

theorem encode_length_pos (field : Field) : 0 < field.encode.length := by
  obtain ⟨number, n | bs⟩ := field
  · have := varint_length_pos (8 * number)
    simp only [Field.encode, List.length_append]
    omega
  · have := varint_length_pos (8 * number + 2)
    simp only [Field.encode, List.length_append]
    omega

/-- Fields until the bytes are used up. -/
def readFields : Nat → List UInt8 → Option (List Field)
  | _, [] => some []
  | 0, _ :: _ => none
  | fuel + 1, b :: bytes => (readField (b :: bytes)).bind fun x => (readFields fuel x.2).map (x.1 :: ·)

/-- The fields of a message; every field takes a byte at least. -/
def parse (bytes : List UInt8) : Option (List Field) := readFields bytes.length bytes

theorem readFields_encode (fields : List Field) {fuel : Nat} (h : (fields.flatMap Field.encode).length ≤ fuel) :
    readFields fuel (fields.flatMap Field.encode) = some fields := by
  induction fields generalizing fuel with
  | nil => cases fuel <;> rfl
  | cons field fields ih =>
      have hpos := encode_length_pos field
      rw [List.flatMap_cons] at h ⊢
      rw [List.length_append] at h
      obtain ⟨b, bytes, hcons⟩ := List.exists_cons_of_length_pos (l := field.encode ++ fields.flatMap Field.encode) (by
        rw [List.length_append]
        omega)
      obtain ⟨fuel, rfl⟩ : ∃ k, fuel = k + 1 := ⟨fuel - 1, by omega⟩
      have hread := readField_encode field (fields.flatMap Field.encode)
      rw [hcons] at hread ⊢
      rw [readFields, hread, Option.bind_some, ih (by omega)]
      rfl

/-- **A sequence of fields reads back.** -/
theorem parse_encode (fields : List Field) : parse (fields.flatMap Field.encode) = some fields :=
  readFields_encode fields (Nat.le_refl _)

/-! ## Messages -/

/-- A message type: the fields that it writes, and what it makes of a field that it reads. -/
structure Schema (α : Type) where
  fields : α → List Field
  empty : α
  merge : α → Field → Option α

namespace Schema
variable {α : Type} (schema : Schema α)

def encode (a : α) : List UInt8 := (schema.fields a).flatMap Field.encode

def decode (bytes : List UInt8) : Option α := (parse bytes).bind fun fields => fields.foldlM schema.merge schema.empty

/-- **A message reads back** if its fields, one after the other, make it up again. -/
theorem decode_encode {a : α} (h : (schema.fields a).foldlM schema.merge schema.empty = some a) :
    schema.decode (schema.encode a) = some a := by
  unfold decode encode
  rw [parse_encode]
  exact h

end Schema

/-! ## Field types -/

def utf8 (s : String) : List UInt8 := s.toByteArray.data.toList

def ofUtf8 (bs : List UInt8) : Option String := String.fromUTF8? ⟨bs.toArray⟩

theorem ofUtf8_utf8 (s : String) : ofUtf8 (utf8 s) = some s := by
  unfold ofUtf8 utf8
  rw [Array.toArray_toList]
  exact dif_pos s.isValidUTF8

/-- A `string` field; the empty string is not written. -/
def text (number : Nat) (s : String) : List Field := if s = "" then [] else [⟨number, .bytes (utf8 s)⟩]

/-- A number field; zero is not written. -/
def scalar (number n : Nat) : List Field := if n = 0 then [] else [⟨number, .number n⟩]

/-- An `optional string` field. -/
def optionalText (number : Nat) (s : Option String) : List Field :=
  s.toList.map fun s => ⟨number, .bytes (utf8 s)⟩

/-- An `optional` number field. -/
def optionalScalar (number : Nat) (n : Option Nat) : List Field := n.toList.map fun n => ⟨number, .number n⟩

section
variable {α : Type} {merge : α → Field → Option α}

/-- Fields are read one after the other. -/
theorem foldlM_then {a b c : α} {fields rest : List Field} (h : fields.foldlM merge a = some b)
    (hrest : rest.foldlM merge b = some c) : (fields ++ rest).foldlM merge a = some c := by
  rw [List.foldlM_append, h]
  exact hrest

variable (merge) (number : Nat)

/-- The reader of a message sets a `string` to what was written. -/
theorem foldlM_text (set : String → α) (h : ∀ s, merge (set "") ⟨number, .bytes (utf8 s)⟩ = some (set s)) (s : String) :
    (text number s).foldlM merge (set "") = some (set s) := by
  unfold text
  split_ifs with hs
  · rw [hs]
    rfl
  · simp [h]

theorem foldlM_scalar (set : Nat → α) (h : ∀ n, merge (set 0) ⟨number, .number n⟩ = some (set n)) (n : Nat) :
    (scalar number n).foldlM merge (set 0) = some (set n) := by
  unfold scalar
  split_ifs with hn
  · rw [hn]
    rfl
  · simp [h]

theorem foldlM_optionalText (set : Option String → α)
    (h : ∀ s, merge (set none) ⟨number, .bytes (utf8 s)⟩ = some (set (some s))) (s : Option String) :
    (optionalText number s).foldlM merge (set none) = some (set s) := by
  cases s with
  | none => rfl
  | some t => simp [optionalText, h]

theorem foldlM_optionalScalar (set : Option Nat → α)
    (h : ∀ n, merge (set none) ⟨number, .number n⟩ = some (set (some n))) (n : Option Nat) :
    (optionalScalar number n).foldlM merge (set none) = some (set n) := by
  cases n with
  | none => rfl
  | some k => simp [optionalScalar, h]

end

end Protobuf

/-
  Column values: their types, hash keys, equality, order and encoded size.

  `key` is the hash the column indexes are keyed by, `eq` and `cmp` are the derived
  comparisons of `DataBaseDataEntry` (two floats of equal value are equal whatever
  their bits), and `size` is the number of bytes `bincode` spends on an entry.
-/
import AntDb.Lib.SipHash
import AntDb.Lib.Collections

namespace AntDb

abbrev ColumnID := ℕ

abbrev HashType := ℕ

inductive DataBaseDataType where
  | null
  | integerU8 | integerU16 | integerU32 | integerU64 | integerU128
  | integerI8 | integerI16 | integerI32 | integerI64 | integerI128
  | floatF32 | floatF64
  | string | boolean | bytes | timestamp
deriving DecidableEq

def DataBaseDataType.name : DataBaseDataType → String
  | .null => "NULL"
  | .integerU8 => "INTEGER U8"
  | .integerU16 => "INTEGER U16"
  | .integerU32 => "INTEGER U32"
  | .integerU64 => "INTEGER U64"
  | .integerU128 => "INTEGER U128"
  | .integerI8 => "INTEGER I8"
  | .integerI16 => "INTEGER I16"
  | .integerI32 => "INTEGER I32"
  | .integerI64 => "INTEGER I64"
  | .integerI128 => "INTEGER I128"
  | .floatF32 => "FLOAT F32"
  | .floatF64 => "FLOAT F64"
  | .string => "TEXT"
  | .boolean => "BOOLEAN"
  | .bytes => "BYTES"
  | .timestamp => "TIMESTAMP"

/-- A binary float with `e` exponent and `m` mantissa bits that is not a NaN: its bits without
    the sign are at most those of the infinity. -/
structure NotNan (e m : ℕ) where
  bits : ℕ
  bits_lt : bits < 2 ^ (e + m + 1)
  notNan : bits % 2 ^ (e + m) ≤ (2 ^ e - 1) * 2 ^ m
deriving DecidableEq

/-- The place of a float in the order of the floats; both zeros have place 0. -/
def NotNan.rank {e m : ℕ} (f : NotNan e m) : ℤ :=
  if f.bits < 2 ^ (e + m) then f.bits else -(f.bits % 2 ^ (e + m) : ℕ)

inductive DataBaseDataEntry where
  | null
  | integerU8 (value : UInt8)
  | integerU16 (value : UInt16)
  | integerU32 (value : UInt32)
  | integerU64 (value : UInt64)
  | integerU128 (value : BitVec 128)
  | integerI8 (value : Int8)
  | integerI16 (value : Int16)
  | integerI32 (value : Int32)
  | integerI64 (value : Int64)
  | integerI128 (value : BitVec 128)
  | floatF32 (value : NotNan 8 23)
  | floatF64 (value : NotNan 11 52)
  | string (value : String)
  | boolean (value : Bool)
  | bytes (value : List UInt8)
  | timestamp (value : Int64)
deriving DecidableEq

namespace DataBaseDataEntry

def dataType : DataBaseDataEntry → DataBaseDataType
  | null => .null
  | integerU8 _ => .integerU8
  | integerU16 _ => .integerU16
  | integerU32 _ => .integerU32
  | integerU64 _ => .integerU64
  | integerU128 _ => .integerU128
  | integerI8 _ => .integerI8
  | integerI16 _ => .integerI16
  | integerI32 _ => .integerI32
  | integerI64 _ => .integerI64
  | integerI128 _ => .integerI128
  | floatF32 _ => .floatF32
  | floatF64 _ => .floatF64
  | string _ => .string
  | boolean _ => .boolean
  | bytes _ => .bytes
  | timestamp _ => .timestamp

/-- The cast of a signed integer to `u64`. -/
def asU64 (value : ℤ) : HashType := (value % 2 ^ 64).toNat

/-- `key`; the column id it takes is not used by the source either. -/
def key (entry : DataBaseDataEntry) (_columnId : ColumnID) : HashType :=
  match entry with
  | null => 0
  | integerU8 value => value.toNat
  | integerU16 value => value.toNat
  | integerU32 value => value.toNat
  | integerU64 value => value.toNat
  | integerU128 value => SipHash.hash (SipHash.leBytes 16 value.toNat)
  | integerI8 value => asU64 value.toInt
  | integerI16 value => asU64 value.toInt
  | integerI32 value => asU64 value.toInt
  | integerI64 value => asU64 value.toInt
  | integerI128 value => SipHash.hash (SipHash.leBytes 16 value.toNat)
  | floatF32 value => value.bits
  | floatF64 value => value.bits
  | string value => SipHash.hash (value.toUTF8.toList ++ [0xff])
  | boolean value => value.toNat
  | bytes value => SipHash.hash (SipHash.leBytes 8 value.length ++ value)
  | timestamp value => asU64 value.toInt

def isNull (entry : DataBaseDataEntry) : Bool := entry = null

/-! ## Comparison -/

/-- The derived order compares the variants first and then their values. -/
def ordKey : DataBaseDataEntry → List ℤ
  | null => [0]
  | integerU8 value => [1, value.toNat]
  | integerU16 value => [2, value.toNat]
  | integerU32 value => [3, value.toNat]
  | integerU64 value => [4, value.toNat]
  | integerU128 value => [5, value.toNat]
  | integerI8 value => [6, value.toInt]
  | integerI16 value => [7, value.toInt]
  | integerI32 value => [8, value.toInt]
  | integerI64 value => [9, value.toInt]
  | integerI128 value => [10, value.toInt]
  | floatF32 value => [11, value.rank]
  | floatF64 value => [12, value.rank]
  | string value => 13 :: value.toList.map fun c => (c.toNat : ℤ)
  | boolean value => [14, value.toNat]
  | bytes value => 15 :: value.map fun b => (b.toNat : ℤ)
  | timestamp value => [16, value.toInt]

/-- `==`. -/
def eq (a b : DataBaseDataEntry) : Bool := a.ordKey = b.ordKey

def cmp (a b : DataBaseDataEntry) : Ordering := compare a.ordKey b.ordKey

variable {a b c : DataBaseDataEntry}

theorem eq_iff : a.eq b = true ↔ a.ordKey = b.ordKey := decide_eq_true_iff

theorem eq_refl (a : DataBaseDataEntry) : a.eq a = true := eq_iff.2 rfl

theorem eq_symm (h : a.eq b = true) : b.eq a = true := eq_iff.2 (eq_iff.1 h).symm

theorem eq_trans (h : a.eq b = true) (h' : b.eq c = true) : a.eq c = true :=
  eq_iff.2 ((eq_iff.1 h).trans (eq_iff.1 h'))

theorem eq_null : a.eq null = true ↔ a = null := by
  rw [eq_iff]; cases a <;> simp [ordKey]

/-! ## Encoding -/

/-- `bincode::serialized_size`: a four-byte variant tag and the value. -/
def size : DataBaseDataEntry → ℕ
  | null => 4
  | integerU8 _ => 4 + 1
  | integerU16 _ => 4 + 2
  | integerU32 _ => 4 + 4
  | integerU64 _ => 4 + 8
  | integerU128 _ => 4 + 16
  | integerI8 _ => 4 + 1
  | integerI16 _ => 4 + 2
  | integerI32 _ => 4 + 4
  | integerI64 _ => 4 + 8
  | integerI128 _ => 4 + 16
  | floatF32 _ => 4 + 4
  | floatF64 _ => 4 + 8
  | string value => 4 + 8 + value.utf8ByteSize
  | boolean _ => 4 + 1
  | bytes value => 4 + 8 + value.length
  | timestamp _ => 4 + 8

end DataBaseDataEntry

end AntDb

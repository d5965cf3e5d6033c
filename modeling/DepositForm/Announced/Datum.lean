import DepositForm.Announced.Tree

/-! # Values of the general data model

What a format can hold, whatever it is: integers and floats of every width, single characters and
bytes beside texts, values that may be absent, named wrappings, sequences, and mappings whose keys
are values themselves. A datum is announced as what it is, but integers of up to 64 bits are
announced at that width, and so are floats.
-/
namespace DepositForm

/-- A value of the general data model. -/
inductive Datum where
  | unit
  | absent
  | present (inner : Datum)
  | wrapped (inner : Datum)
  | bool (b : Bool)
  | int8 (i : Int8)
  | int16 (i : Int16)
  | int32 (i : Int32)
  | int64 (i : Int64)
  | int128 (i : BitVec 128)
  | word8 (u : UInt8)
  | word16 (u : UInt16)
  | word32 (u : UInt32)
  | word64 (u : UInt64)
  | word128 (u : BitVec 128)
  | float32 (x : Float32)
  | float64 (x : Float)
  | char (c : Char)
  | text (s : String)
  | bytes (b : ByteArray)
  | sequence (items : List Datum)
  | mapping (entries : List (Datum × Datum))
deriving Inhabited

namespace Datum

variable {ε : Type}

mutual
/-- How a datum is announced, without places. -/
def announce : Datum → Announced ε
  | unit => .token .unit 0
  | absent => .token .absent 0
  | present inner => .present inner.announce
  | wrapped inner => .wrapped inner.announce
  | bool b => .token (.bool b) 0
  | int8 i => .token (.signed i.toInt64) 0
  | int16 i => .token (.signed i.toInt64) 0
  | int32 i => .token (.signed i.toInt64) 0
  | int64 i => .token (.signed i) 0
  | int128 i => .token (.wideSigned i.toInt) 0
  | word8 u => .token (.unsigned u.toUInt64) 0
  | word16 u => .token (.unsigned u.toUInt64) 0
  | word32 u => .token (.unsigned u.toUInt64) 0
  | word64 u => .token (.unsigned u) 0
  | word128 u => .token (.wideUnsigned u.toNat) 0
  | float32 x => .token (.float x.toFloat) 0
  | float64 x => .token (.float x) 0
  | char c => .token (.char c) 0
  | text s => .ofText s
  | bytes b => .token (.bytes b) 0
  | sequence items => .sequence 0 none (announceItems items)
  | mapping entries => .mapping 0 none (announceEntries entries)

def announceItems : List Datum → Announced.Items ε
  | [] => .done 0
  | d :: rest => .next none d.announce (announceItems rest)

def announceEntries : List (Datum × Datum) → Announced.Entries ε
  | [] => .done 0
  | (key, value) :: rest => .next none key.announce 0 value.announce (announceEntries rest)
end

end Datum
end DepositForm

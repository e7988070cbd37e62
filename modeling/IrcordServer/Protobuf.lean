import Mathlib.Algebra.Group.Nat.Defs

/-!
# The protobuf wire format

A message is a sequence of fields, each a number with a value of one of four wire types; groups,
which proto3 does not write, are rejected.  A field that is absent has its default value, of several
with one number the last counts, and a field of the wrong wire type is skipped.
-/

namespace Protobuf

/-! ## Variable-length numbers -/

/-- The base 128 digits of `n`, least significant first, at most `k` of them. -/
def varintDigits : ℕ → ℕ → List UInt8
  | 0, _ => []
  | k + 1, n =>
    if n < 128 then [UInt8.ofNat n] else UInt8.ofNat (n % 128 + 128) :: varintDigits k (n / 128)

/-- A 64-bit number takes ten bytes at most. -/
def varint (n : ℕ) : List UInt8 := varintDigits 10 (n % 2 ^ 64)

/-- Read a number of at most `k` digits, the next of which has the weight `w`. -/
def readDigits : ℕ → ℕ → List UInt8 → Option (ℕ × List UInt8)
  | 0, _, _ => none
  | _ + 1, _, [] => none
  | k + 1, w, b :: bs =>
    if b.toNat < 128 then some (b.toNat * w, bs)
    else match readDigits k (w * 128) bs with
      | none => none
      | some (n, rest) => some ((b.toNat - 128) * w + n, rest)

/-- Read a number; bits from the 64th on are dropped. -/
def readVarint (bs : List UInt8) : Option (ℕ × List UInt8) :=
  (readDigits 10 1 bs).map fun r => (r.1 % 2 ^ 64, r.2)

/-! ## Fields -/

inductive WireValue
  | varint (n : ℕ)
  | fixed64 (bytes : List UInt8)
  | lengthDelimited (bytes : List UInt8)
  | fixed32 (bytes : List UInt8)
  deriving DecidableEq

namespace WireValue

def wireType : WireValue → ℕ
  | varint _ => 0
  | fixed64 _ => 1
  | lengthDelimited _ => 2
  | fixed32 _ => 5

def encode : WireValue → List UInt8
  | varint n => Protobuf.varint n
  | fixed64 bytes => bytes
  | lengthDelimited bytes => Protobuf.varint bytes.length ++ bytes
  | fixed32 bytes => bytes

end WireValue

abbrev Field := ℕ × WireValue

def encodeField (f : Field) : List UInt8 := varint (f.1 * 8 + f.2.wireType) ++ f.2.encode

def encode (fields : List Field) : List UInt8 := fields.flatMap encodeField

/-- The first `n` bytes and the rest. -/
def splitBytes (n : ℕ) (bs : List UInt8) : Option (List UInt8 × List UInt8) :=
  if n ≤ bs.length then some (bs.take n, bs.drop n) else none

def readValue (wireType : ℕ) (bs : List UInt8) : Option (WireValue × List UInt8) :=
  match wireType with
  | 0 => (readVarint bs).map fun r => (.varint r.1, r.2)
  | 1 => (splitBytes 8 bs).map fun r => (.fixed64 r.1, r.2)
  | 2 => (readVarint bs).bind fun r =>
    (splitBytes r.1 r.2).map fun r => (.lengthDelimited r.1, r.2)
  | 5 => (splitBytes 4 bs).map fun r => (.fixed32 r.1, r.2)
  | _ => none

def readField (bs : List UInt8) : Option (Field × List UInt8) :=
  (readVarint bs).bind fun r =>
    let number := r.1 / 8
    if number = 0 ∨ number ≥ 2 ^ 29 then none
    else (readValue (r.1 % 8) r.2).map fun r => ((number, r.1), r.2)

/-- Read fields to the end; each takes at least one byte of the fuel. -/
def readFields : ℕ → List UInt8 → Option (List Field)
  | _, [] => some []
  | 0, _ :: _ => none
  | k + 1, b :: bs =>
    match readField (b :: bs) with
    | none => none
    | some (f, rest) => (readFields k rest).map (f :: ·)

def decode (bs : List UInt8) : Option (List Field) := readFields bs.length bs

/-! ## UTF-8 -/

/-- The ranges of the bytes that must follow a first byte. -/
def continuation (b : UInt8) : Option (List (UInt8 × UInt8)) :=
  if b ≤ 0x7F then some []
  else if 0xC2 ≤ b ∧ b ≤ 0xDF then some [(0x80, 0xBF)]
  else if b = 0xE0 then some [(0xA0, 0xBF), (0x80, 0xBF)]
  else if b = 0xED then some [(0x80, 0x9F), (0x80, 0xBF)]
  else if 0xE1 ≤ b ∧ b ≤ 0xEF then some [(0x80, 0xBF), (0x80, 0xBF)]
  else if b = 0xF0 then some [(0x90, 0xBF), (0x80, 0xBF), (0x80, 0xBF)]
  else if 0xF1 ≤ b ∧ b ≤ 0xF3 then some [(0x80, 0xBF), (0x80, 0xBF), (0x80, 0xBF)]
  else if b = 0xF4 then some [(0x80, 0x8F), (0x80, 0xBF), (0x80, 0xBF)]
  else none

/-- Whether the bytes are UTF-8 text, with the given ranges still to come. -/
def utf8From : List (UInt8 × UInt8) → List UInt8 → Bool
  | [], [] => true
  | _ :: _, [] => false
  | [], b :: bs =>
    match continuation b with
    | none => false
    | some ranges => utf8From ranges bs
  | r :: ranges, b :: bs => r.1 ≤ b && b ≤ r.2 && utf8From ranges bs

def isUtf8 (bs : List UInt8) : Bool := utf8From [] bs

/-! ## Typed fields -/

section Write

variable (number : ℕ)

/-- An integer, a Boolean or an enumeration; the default is not written. -/
def uint (n : ℕ) : List Field := if n = 0 then [] else [(number, .varint n)]

def flag (b : Bool) : List Field := uint number (if b then 1 else 0)

/-- A string or a byte field. -/
def bytes (b : List UInt8) : List Field :=
  if b.isEmpty then [] else [(number, .lengthDelimited b)]

def repeatedBytes (bs : List (List UInt8)) : List Field :=
  bs.map fun b => (number, .lengthDelimited b)

end Write

section Read

variable (fields : List Field) (number : ℕ)

def getUint : ℕ :=
  fields.foldl (fun n f => match f with
    | (k, .varint m) => if k = number then m else n
    | _ => n) 0

def getBool : Bool := getUint fields number != 0

def getRepeatedBytes : List (List UInt8) :=
  fields.filterMap fun f => match f with
    | (k, .lengthDelimited b) => if k = number then some b else none
    | _ => none

def getBytes : List UInt8 := (getRepeatedBytes fields number).getLastD []

/-- Strings have to be UTF-8. -/
def getRepeatedStrings : Option (List (List UInt8)) :=
  let bs := getRepeatedBytes fields number
  if bs.all isUtf8 then some bs else none

def getString : Option (List UInt8) :=
  (getRepeatedStrings fields number).map fun bs => bs.getLastD []

def getFixed32 : List UInt8 :=
  fields.foldl (fun b f => match f with
    | (k, .fixed32 c) => if k = number then c else b
    | _ => b) [0, 0, 0, 0]

end Read

end Protobuf

import Mathlib.Data.Nat.Notation

/-!
# Byte strings

A `std::string` and a `std::vector<uint8_t>` are both sequences of bytes.  The character
classification is that of the C locale: bytes from 128 on are in no class.
-/

namespace Ircord

/-- The contents of a `std::vector<uint8_t>` or of a `bytes` field. -/
abbrev Bytes := List UInt8

/-- The contents of a `std::string`. -/
abbrev Str := List UInt8

/-- What holds of the 256 codes holds of every byte. -/
theorem forall_byte {P : UInt8 → Prop} (h : ∀ n < 256, P (.ofNat n)) (c : UInt8) : P c := by
  rw [← @UInt8.ofNat_toNat c]
  exact h c.toNat c.toNat_lt

/-- The code of an ASCII character. -/
def ch (c : Char) : UInt8 := UInt8.ofNat c.toNat

/-- The bytes of an ASCII literal. -/
def str (s : String) : Str := s.toList.map ch

/-- `std::to_string` of a nonnegative number. -/
def toStr (n : ℕ) : Str := str (toString n)

def isUpper (c : UInt8) : Bool := 65 ≤ c && c ≤ 90

def isLower (c : UInt8) : Bool := 97 ≤ c && c ≤ 122

def isDigit (c : UInt8) : Bool := 48 ≤ c && c ≤ 57

def isAlnum (c : UInt8) : Bool := isUpper c || isLower c || isDigit c

def isSpace (c : UInt8) : Bool := c == 32 || (9 ≤ c && c ≤ 13)

def tolower (c : UInt8) : UInt8 := if isUpper c then c + 32 else c

/-- `std::transform(…, ::tolower)`. -/
def lowercase (s : Str) : Str := s.map tolower

/-- The arguments from the second on, each after a blank, behind the first one. -/
def joinArgs (first : Str) (rest : List Str) : Str :=
  rest.foldl (fun acc arg => acc ++ str " " ++ arg) first

/-- The lines of a text as `std::getline` reads them: a final line break opens no further line. -/
def getLines : Str → List Str
  | [] => []
  | c :: cs =>
    if c = 10 then [] :: getLines cs
    else match getLines cs with
      | [] => [[c]]
      | line :: lines => (c :: line) :: lines

end Ircord

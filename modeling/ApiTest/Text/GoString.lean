import Mathlib.Algebra.Ring.Int.Defs
import Mathlib.Algebra.Ring.Nat
import Mathlib.Data.List.Infix
import Mathlib.Order.Lex
import Mathlib.Data.List.Lex

/-! Go strings: arbitrary byte sequences, compared byte by byte. A literal of
the source is its UTF-8 encoding. `strings.ToLower` maps runes, and bytes that
are not UTF-8 become the replacement character on the way; the part of the case
table outside ASCII belongs to the toolchain and is a parameter. `strconv.Atoi`
keeps the value it returns together with its error, because callers that drop
the error go on with the value. -/

namespace ApiTest.Text

/-- A Go `string` or `[]byte`. -/
abbrev GoString := List UInt8

/-- The Go string of a source literal. -/
def lit (s : String) : GoString := s.toList.flatMap String.utf8EncodeChar

/-- The characters of a literal are at hand; evaluating `String.toList` would decode them
from its bytes first. -/
theorem lit_ofList (cs : List Char) : lit (String.ofList cs) = cs.flatMap String.utf8EncodeChar := by
  rw [lit, String.toList_ofList]

instance instLinearOrderUInt8 : LinearOrder UInt8 where
  le_refl a := UInt8.le_refl a
  le_trans _ _ _ := UInt8.le_trans
  lt_iff_le_not_ge a b := by
    simp only [UInt8.lt_iff_toNat_lt, UInt8.le_iff_toNat_le]
    omega
  le_antisymm _ _ := UInt8.le_antisymm
  le_total := UInt8.le_total
  toDecidableLE := inferInstance
  toDecidableEq := inferInstance
  toDecidableLT := inferInstance

-- Membership tests on strings name these two, whatever other instances are in scope.
instance instLawfulBEqUInt8 : LawfulBEq UInt8 := inferInstance

instance instLawfulBEqGoString : LawfulBEq GoString := inferInstance

/-- `strings.Contains`. -/
def contains (s sub : GoString) : Bool := decide (sub <:+: s)

/-! ### Runes -/

/-- The rune error `utf8.RuneError`, U+FFFD. -/
def runeError : Char := Char.ofNat 0xFFFD

/-- Payload bits of a continuation byte `10xxxxxx`. -/
def continuation (b : UInt8) : Option ℕ :=
  if 0x80 ≤ b ∧ b ≤ 0xBF then some (b.toNat - 0x80) else none

/-- A multi-byte sequence is accepted when it is the shortest one for its value
and the value is a Unicode scalar. -/
def scalar (low width v : ℕ) : Char × ℕ :=
  if low ≤ v ∧ v.isValidChar then (Char.ofNat v, width) else (runeError, 1)

/-- `utf8.DecodeRuneInString`: the first rune and its width in bytes. An
invalid first byte decodes as `runeError` of width one. -/
def decodeRune : GoString → Char × ℕ
  | [] => (runeError, 0)
  | b :: rest =>
    let b := b.toNat
    if b < 0x80 then (Char.ofNat b, 1)
    else match rest.map continuation with
      | some x :: tail =>
        if 0xC2 ≤ b ∧ b ≤ 0xDF then scalar 0x80 2 ((b - 0xC0) * 0x40 + x)
        else match tail with
          | some y :: tail =>
            if 0xE0 ≤ b ∧ b ≤ 0xEF then scalar 0x800 3 (((b - 0xE0) * 0x40 + x) * 0x40 + y)
            else match tail with
              | some z :: _ =>
                if 0xF0 ≤ b ∧ b ≤ 0xF4 then
                  scalar 0x10000 4 ((((b - 0xF0) * 0x40 + x) * 0x40 + y) * 0x40 + z)
                else (runeError, 1)
              | _ => (runeError, 1)
          | _ => (runeError, 1)
      | _ => (runeError, 1)

/-- `strings.Map` over at most `fuel` runes. -/
def mapRunesFrom (f : Char → Char) : ℕ → GoString → GoString
  | 0, _ => []
  | _ + 1, [] => []
  | fuel + 1, b :: rest =>
    let (c, width) := decodeRune (b :: rest)
    String.utf8EncodeChar (f c) ++ mapRunesFrom f fuel ((b :: rest).drop width)

/-- `strings.Map`; a string has at most as many runes as bytes. -/
def mapRunes (f : Char → Char) (s : GoString) : GoString := mapRunesFrom f s.length s

/-- The `unicode.ToLower` table above ASCII. It follows the Unicode version of
the Go toolchain. -/
class UnicodeCase where
  lower : Char → Char

/-- The table without a single case pair above ASCII. -/
@[reducible] def asciiCase : UnicodeCase := ⟨id⟩

section Case
variable [UnicodeCase]

/-- `unicode.ToLower`. -/
def lowerRune (c : Char) : Char :=
  if c.toNat < 0x80 then c.toLower else UnicodeCase.lower c

/-- `strings.ToLower`. -/
def toLower (s : GoString) : GoString := mapRunes lowerRune s

example : @toLower asciiCase (lit "X-API-Key") = lit "x-api-key" := by decide

end Case

/-! ### Integers -/

/-- The two errors of `strconv`. -/
inductive NumError where
  | badSyntax
  | outOfRange
  deriving DecidableEq, Repr

def maxUint64 : ℕ := 2 ^ 64 - 1

/-- Decimal digits onto an accumulator. The scan stops at the first overflow,
before it has seen whether the rest is well formed. -/
def parseUintFrom (n : ℕ) : GoString → ℕ × Option NumError
  | [] => (n, none)
  | c :: cs =>
    if 0x30 ≤ c ∧ c ≤ 0x39 then
      let next := n * 10 + (c.toNat - 0x30)
      if maxUint64 < next then (maxUint64, some .outOfRange) else parseUintFrom next cs
    else (0, some .badSyntax)

/-- `strconv.ParseUint(s, 10, 64)`. -/
def parseUint : GoString → ℕ × Option NumError
  | [] => (0, some .badSyntax)
  | c :: cs => parseUintFrom 0 (c :: cs)

/-- The signed range check of `strconv.ParseInt` with 64 bits. -/
def signed (neg : Bool) : ℕ × Option NumError → ℤ × Option NumError
  | (_, some .badSyntax) => (0, some .badSyntax)
  | (n, e) =>
    if neg then if 2 ^ 63 < n then (-2 ^ 63, some .outOfRange) else (-(n : ℤ), e)
    else if 2 ^ 63 ≤ n then (2 ^ 63 - 1, some .outOfRange) else ((n : ℤ), e)

/-- `strconv.Atoi`. -/
def atoi (s : GoString) : ℤ × Option NumError :=
  match s with
  | 0x2D :: rest => signed true (parseUint rest)
  | 0x2B :: rest => signed false (parseUint rest)
  | s => signed false (parseUint s)

/-- The decimal digits of a number. -/
def digits (n : ℕ) : GoString := (Nat.toDigits 10 n).map fun c => c.toNat.toUInt8

/-- `strconv.Itoa`. -/
def itoa (n : ℤ) : GoString := if n < 0 then 0x2D :: digits n.natAbs else digits n.natAbs

example : itoa (-404) = lit "-404" := by decide

end ApiTest.Text

import ApiTest.Text.GoString

/-! `hex.EncodeToString`: two lower-case digits for each byte. -/

namespace ApiTest.Text.Hex

def digit (n : UInt8) : UInt8 := if n < 10 then 0x30 + n else 0x57 + n

def encode (s : GoString) : GoString := s.flatMap fun c => [digit (c / 16), digit (c % 16)]

def isHex (c : UInt8) : Bool := (0x30 ≤ c && c ≤ 0x39) || (0x61 ≤ c && c ≤ 0x66)

theorem isHex_digit {n : UInt8} (h : n < 16) : isHex (digit n) = true := by
  have hall : ∀ n < 16, isHex (digit (UInt8.ofNat n)) = true := by decide
  have hn := hall n.toNat (UInt8.lt_iff_toNat_lt.mp h)
  rwa [UInt8.ofNat_toNat] at hn

theorem length_encode (s : GoString) : (encode s).length = 2 * s.length := by
  induction s with
  | nil => rfl
  | cons c s ih =>
    rw [encode, List.flatMap_cons, List.length_append, ← encode, ih, List.length_cons]
    simp only [List.length_cons, List.length_nil]
    omega

theorem isHex_of_mem_encode {s : GoString} {c : UInt8} (h : c ∈ encode s) : isHex c = true := by
  obtain ⟨b, -, hc⟩ := List.mem_flatMap.mp h
  have hhigh : b / 16 < 16 := by
    rw [UInt8.lt_iff_toNat_lt, UInt8.toNat_div]
    have hb := b.toNat_lt
    exact Nat.div_lt_of_lt_mul hb
  have hlow : b % 16 < 16 := by
    rw [UInt8.lt_iff_toNat_lt, UInt8.toNat_mod]
    exact Nat.mod_lt _ (by decide)
  simp only [List.mem_cons, List.not_mem_nil, or_false] at hc
  rcases hc with rfl | rfl
  · exact isHex_digit hhigh
  · exact isHex_digit hlow

end ApiTest.Text.Hex

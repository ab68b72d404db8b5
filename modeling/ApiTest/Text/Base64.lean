import ApiTest.Text.GoString
import ApiTest.Traverse.Basic

/-! The unpadded URL alphabet of `encoding/base64` (`RawURLEncoding`). Bytes are
cut into numbers below 64, and these are written as characters. The decoder is
lenient as Go's is: it skips line ends and ignores the unused bits of a final
short group, so several strings decode to the same bytes. -/

namespace ApiTest.Text.Base64

open Traverse

/-- The letters of either case, the digits, `-` and `_`. -/
def alphabet : GoString :=
  (List.range' 0x41 26 ++ List.range' 0x61 26 ++ List.range' 0x30 10 ++ [0x2D, 0x5F]).map
    Nat.toUInt8

example : alphabet =
    lit "ABCDEFGHIJKLMNOPQRSTUVWXYZabcdefghijklmnopqrstuvwxyz0123456789-_" := by
  decide +kernel

/-- The character of a number below 64. -/
def charOf (n : ℕ) : UInt8 := alphabet.getD n 0

/-- The number of a character (`decodeMap`). -/
def valueOf (c : UInt8) : Option ℕ := alphabet.idxOf? c

/-- Three bytes give four numbers; one or two left over give two or three. -/
def sextets : GoString → List ℕ
  | a :: b :: c :: rest =>
    a.toNat / 4 :: (a.toNat % 4 * 16 + b.toNat / 16) :: (b.toNat % 16 * 4 + c.toNat / 64) ::
      c.toNat % 64 :: sextets rest
  | [a, b] => [a.toNat / 4, a.toNat % 4 * 16 + b.toNat / 16, b.toNat % 16 * 4]
  | [a] => [a.toNat / 4, a.toNat % 4 * 16]
  | [] => []

/-- A single number left over is an error. -/
def octets : List ℕ → Option GoString
  | a :: b :: c :: d :: rest =>
    (octets rest).map fun tail =>
      (a * 4 + b / 16).toUInt8 :: (b % 16 * 16 + c / 4).toUInt8 :: (c % 4 * 64 + d).toUInt8 :: tail
  | [a, b, c] => some [(a * 4 + b / 16).toUInt8, (b % 16 * 16 + c / 4).toUInt8]
  | [a, b] => some [(a * 4 + b / 16).toUInt8]
  | [_] => none
  | [] => some []

/-- `EncodeToString`. -/
def encode (s : GoString) : GoString := (sextets s).map charOf

/-- `DecodeString`. -/
def decode (s : GoString) : Option GoString :=
  ((s.filter fun c => c != 0x0A && c != 0x0D).mapM valueOf).bind octets

/-- `StdEncoding.EncodeToString`: with `+` and `/`, and padded to groups of four. -/
def encodeStd (s : GoString) : GoString :=
  let text := (encode s).map fun c => if c = 0x2D then 0x2B else if c = 0x5F then 0x2F else c
  text ++ List.replicate ((4 - text.length % 4) % 4) 0x3D

/-- `URLEncoding.EncodeToString`: padded to groups of four. -/
def encodeURL (s : GoString) : GoString :=
  encode s ++ List.replicate ((4 - (encode s).length % 4) % 4) 0x3D

example : encode (lit "api") = lit "YXBp" := by decide +kernel
example : encodeStd [0xFB, 0xFF] = lit "+/8=" := by decide +kernel
example : decode (lit "YX\nBpYR") = some (lit "apia") := by decide +kernel

/-! ### Round trip -/

theorem sextets_lt (s : GoString) : ∀ n ∈ sextets s, n < 64 := by
  fun_induction sextets s with
  | case1 a b c rest ih =>
    have ha := a.toNat_lt
    have hb := b.toNat_lt
    have hc := c.toNat_lt
    simp only [List.forall_mem_cons]
    exact ⟨by omega, by omega, by omega, by omega, ih⟩
  | case2 a b =>
    have ha := a.toNat_lt
    have hb := b.toNat_lt
    simp only [List.forall_mem_cons]
    exact ⟨by omega, by omega, by omega, by simp⟩
  | case3 a =>
    have ha := a.toNat_lt
    simp only [List.forall_mem_cons]
    exact ⟨by omega, by omega, by simp⟩
  | case4 => simp

theorem length_encode (s : GoString) : (encode s).length = (4 * s.length + 2) / 3 := by
  rw [encode, List.length_map]
  fun_induction sextets s with
  | case1 a b c rest ih =>
    simp only [List.length_cons, ih]
    omega
  | case2 a b => simp
  | case3 a => simp
  | case4 => rfl

theorem toUInt8_eq {n : ℕ} {a : UInt8} (h : n = a.toNat) : n.toUInt8 = a := by
  rw [h]
  exact UInt8.ofNat_toNat

theorem octets_sextets (s : GoString) : octets (sextets s) = some s := by
  fun_induction sextets s with
  | case1 a b c rest ih =>
    have hb := b.toNat_lt
    have hc := c.toNat_lt
    rw [octets, ih, Option.map_some, toUInt8_eq (a := a) (by omega), toUInt8_eq (a := b) (by omega),
      toUInt8_eq (a := c) (by omega)]
  | case2 a b =>
    have hb := b.toNat_lt
    rw [octets, toUInt8_eq (a := a) (by omega), toUInt8_eq (a := b) (by omega)]
  | case3 a => rw [octets, toUInt8_eq (a := a) (by omega)]
  | case4 => rfl

theorem valueOf_charOf : ∀ n < 64, valueOf (charOf n) = some n := by decide +kernel

theorem charOf_mem : ∀ n < 64, charOf n ∈ alphabet := by decide +kernel

theorem mapM_valueOf {values : List ℕ} (h : ∀ n ∈ values, n < 64) :
    (values.map charOf).mapM valueOf = some values := by
  rw [mapM_eq_some, List.map_map]
  exact List.map_congr_left fun n hn => valueOf_charOf n (h n hn)

theorem mem_alphabet_of_mem_encode {s : GoString} {c : UInt8} (h : c ∈ encode s) :
    c ∈ alphabet := by
  obtain ⟨n, hn, rfl⟩ := List.mem_map.mp h
  exact charOf_mem n (sextets_lt s n hn)

theorem decode_encode (s : GoString) : decode (encode s) = some s := by
  have hfilter : ((encode s).filter fun c => c != 0x0A && c != 0x0D) = encode s := by
    rw [List.filter_eq_self]
    intro c hc
    have hplain : ∀ c ∈ alphabet, (c != 0x0A && c != 0x0D) = true := by decide +kernel
    exact hplain c (mem_alphabet_of_mem_encode hc)
  rw [decode, hfilter, encode, mapM_valueOf (sextets_lt s)]
  exact octets_sextets s

/-- A character outside the alphabet, other than a line end, is refused. -/
theorem decode_eq_none {s : GoString} {c : UInt8} (hc : c ∈ s) (hvalue : valueOf c = none)
    (hline : c ≠ 0x0A ∧ c ≠ 0x0D) : decode s = none := by
  have hmem : c ∈ s.filter fun c => c != 0x0A && c != 0x0D := by simp [hc, hline.1, hline.2]
  have hfail : (s.filter fun c => c != 0x0A && c != 0x0D).mapM valueOf = none := by
    rw [← Option.not_isSome_iff_eq_none, isSome_mapM]
    intro hall
    have hsome := hall c hmem
    rw [hvalue] at hsome
    cases hsome
  rw [decode, hfail]
  rfl

end ApiTest.Text.Base64

import Vortice.Proto.Base64

/-!
# Base64 is canonical

Three octets and four characters are two ways to cut one number of 24 bits.  A quad
that decodes is the one its octets are written as, padding and unused bits included,
so at most one text without whitespace decodes to any octets.
-/

namespace Vortice.Proto.Base64

open Vortice.Foundation

/-! ## Characters and the six bits they stand for -/

/-- The character of six bits. -/
def letter (six : Nat) : UInt8 := (alphabet[six]?).getD 61

theorem digit_eq (bits : UInt32) : digit bits = letter (bits.toNat % 64) := by
  have hbits : (bits &&& 0x3f).toNat = bits.toNat % 64 := by
    rw [UInt32.toNat_and]
    exact Nat.and_two_pow_sub_one_eq_mod _ 6
  rw [digit, hbits, letter]

theorem value_letter : ∀ six < 64, value (letter six) = some (UInt32.ofNat six) := by
  decide

theorem letter_ascii : ∀ six < 64, (letter six).toNat < 128 ∧ letter six ≠ 61 ∧
    Mime.isAsciiWhitespace (letter six) = false := by
  decide +kernel

set_option maxRecDepth 2000 in
theorem value_eq_some {octet : UInt8} {six : UInt32} (h : value octet = some six) :
    six.toNat < 64 ∧ octet = letter six.toNat := by
  have hall : ∀ n < 256, ∀ six ∈ value (UInt8.ofNat n),
      six.toNat < 64 ∧ UInt8.ofNat n = letter six.toNat := by
    decide
  have := hall octet.toNat octet.toNat_lt six
  rw [UInt8.ofNat_toNat] at this
  exact this h

/-! ## Numbers of 24 bits -/

theorem shiftRight_toNat (bits : UInt32) (n : Nat) (h : n < 32) :
    (bits >>> UInt32.ofNat n).toNat = bits.toNat / 2 ^ n := by
  rw [UInt32.toNat_shiftRight, Nat.shiftRight_eq_div_pow]
  simp [Nat.mod_eq_of_lt h]

/-- Shifting to the left and filling the bits that are free is adding. -/
theorem shiftLeft_or (bits rest : UInt32) (n : Nat) (hn : n < 32) (hrest : rest.toNat < 2 ^ n)
    (hbits : bits.toNat * 2 ^ n < 2 ^ 32) :
    (bits <<< UInt32.ofNat n ||| rest).toNat = bits.toNat * 2 ^ n + rest.toNat := by
  have hshift : (UInt32.ofNat n).toNat % 32 = n := by
    rw [UInt32.toNat_ofNat', Nat.mod_eq_of_lt (show n < 2 ^ 32 by omega), Nat.mod_eq_of_lt hn]
  rw [UInt32.toNat_or, UInt32.toNat_shiftLeft, hshift,
    Nat.mod_eq_of_lt (by rwa [Nat.shiftLeft_eq]), ← Nat.shiftLeft_add_eq_or_of_lt hrest,
    Nat.shiftLeft_eq]

theorem toNat_triple (first second third : UInt8) :
    (first.toUInt32 <<< 16 ||| second.toUInt32 <<< 8 ||| third.toUInt32).toNat =
      first.toNat * 65536 + second.toNat * 256 + third.toNat := by
  have h1 := first.toNat_lt
  have h2 := second.toNat_lt
  have h3 := third.toNat_lt
  have hlow := shiftLeft_or second.toUInt32 third.toUInt32 8 (by omega)
    (by simpa using h3) (by simp only [UInt8.toNat_toUInt32]; omega)
  change (second.toUInt32 <<< 8 ||| third.toUInt32).toNat = _ at hlow
  simp only [UInt8.toNat_toUInt32] at hlow
  have hhigh := shiftLeft_or first.toUInt32 (second.toUInt32 <<< 8 ||| third.toUInt32) 16
    (by omega) (by omega) (by simp only [UInt8.toNat_toUInt32]; omega)
  change (first.toUInt32 <<< 16 ||| (second.toUInt32 <<< 8 ||| third.toUInt32)).toNat = _
    at hhigh
  rw [UInt32.or_assoc, hhigh, hlow, UInt8.toNat_toUInt32]
  omega

theorem toNat_quad {first second third fourth : UInt32} (h1 : first.toNat < 64)
    (h2 : second.toNat < 64) (h3 : third.toNat < 64) (h4 : fourth.toNat < 64) :
    (((first <<< 6 ||| second) <<< 6 ||| third) <<< 6 ||| fourth).toNat =
      ((first.toNat * 64 + second.toNat) * 64 + third.toNat) * 64 + fourth.toNat := by
  have hstep : ∀ bits rest : UInt32, bits.toNat < 2 ^ 18 → rest.toNat < 64 →
      (bits <<< 6 ||| rest).toNat = bits.toNat * 64 + rest.toNat := fun bits rest hbits hrest =>
    shiftLeft_or bits rest 6 (by omega) hrest (by omega)
  have hsecond := hstep first second (by omega) h2
  have hthird := hstep (first <<< 6 ||| second) third (by omega) h3
  rw [hstep _ fourth (by omega) h4, hthird, hsecond]

/-- The number the octets of a chunk make. -/
def joined (first second third : UInt8) : Nat :=
  first.toNat * 65536 + second.toNat * 256 + third.toNat

theorem joined_lt (first second third : UInt8) : joined first second third < 2 ^ 24 := by
  have := first.toNat_lt
  have := second.toNat_lt
  have := third.toNat_lt
  simp only [joined]
  omega

def sextet (number place : Nat) : UInt8 := letter (number / 64 ^ place % 64)

theorem digit_shift {bits : UInt32} {number : Nat} (h : bits.toNat = number) (place : Nat)
    (hplace : place < 4) : digit (bits >>> UInt32.ofNat (6 * place)) = sextet number place := by
  rw [digit_eq, shiftRight_toNat _ _ (by omega), h, sextet, Nat.pow_mul]

theorem encodeChunk_three (first second third : UInt8) :
    encodeChunk [first, second, third] =
      [sextet (joined first second third) 3, sextet (joined first second third) 2,
        sextet (joined first second third) 1, sextet (joined first second third) 0] := by
  have hbits := toNat_triple first second third
  have h0 := digit_shift hbits 0 (by omega)
  have h1 := digit_shift hbits 1 (by omega)
  have h2 := digit_shift hbits 2 (by omega)
  have h3 := digit_shift hbits 3 (by omega)
  rw [← joined] at *
  rw [encodeChunk, ← h0, ← h1, ← h2, ← h3]
  rfl

theorem encodeChunk_two (first second : UInt8) :
    encodeChunk [first, second] =
      [sextet (joined first second 0) 3, sextet (joined first second 0) 2,
        sextet (joined first second 0) 1, 61] := by
  have hbits : (first.toUInt32 <<< 16 ||| second.toUInt32 <<< 8).toNat =
      joined first second 0 := by
    have h := toNat_triple first second 0
    rwa [show (0 : UInt8).toUInt32 = 0 from rfl, UInt32.or_zero] at h
  have h1 := digit_shift hbits 1 (by omega)
  have h2 := digit_shift hbits 2 (by omega)
  have h3 := digit_shift hbits 3 (by omega)
  rw [encodeChunk, ← h1, ← h2, ← h3]
  rfl

theorem encodeChunk_one (first : UInt8) :
    encodeChunk [first] =
      [sextet (joined first 0 0) 3, sextet (joined first 0 0) 2, 61, 61] := by
  have hbits : (first.toUInt32 <<< 16).toNat = joined first 0 0 := by
    have h := toNat_triple first 0 0
    rwa [show (0 : UInt8).toUInt32 = 0 from rfl, UInt32.zero_shiftLeft, UInt32.or_zero,
      UInt32.or_zero] at h
  have h2 := digit_shift hbits 2 (by omega)
  have h3 := digit_shift hbits 3 (by omega)
  rw [encodeChunk, ← h2, ← h3]
  rfl

/-! ## Quads -/

/-- The octets that four values make. -/
def unpacked (bits : UInt32) : Octets :=
  [(bits >>> 16).toUInt8, (bits >>> 8).toUInt8, bits.toUInt8]

def packed (first second third fourth : UInt32) : UInt32 :=
  ((first <<< 6 ||| second) <<< 6 ||| third) <<< 6 ||| fourth

theorem decodeQuad_whole {last : Bool} {first second third fourth : UInt8}
    (h : padding last third fourth = 0) :
    decodeQuad last first second third fourth = (do
      let first ← value first
      let second ← value second
      let third ← value third
      let fourth ← value fourth
      return unpacked (packed first second third fourth)) := by
  have hsextet : ∀ index < 4, ¬ (last = true ∧ index ≥ 4) := by omega
  simp [decodeQuad, h, unpacked, packed]

theorem decodeQuad_padded {first second third : UInt8} (h : third ≠ 61) :
    decodeQuad true first second third 61 = (do
      let first ← value first
      let second ← value second
      let third ← value third
      let bits := packed first second third 0
      if bits &&& 0xff ≠ 0 then none
      else return (unpacked bits).take 2) := by
  simp [decodeQuad, padding, h, unpacked, packed,
    show (1 : UInt32) <<< 8 - 1 = 255 by decide]

theorem decodeQuad_twice {first second : UInt8} :
    decodeQuad true first second 61 61 = (do
      let first ← value first
      let second ← value second
      let bits := packed first second 0 0
      if bits &&& 0xffff ≠ 0 then none
      else return (unpacked bits).take 1) := by
  simp [decodeQuad, padding, unpacked, packed,
    show (1 : UInt32) <<< 16 - 1 = 65535 by decide]

theorem decodeQuad_inner {first second fourth : UInt8} (h : fourth ≠ 61) (last : Bool) :
    decodeQuad last first second 61 fourth = none := by
  have hequals : value 61 = none := rfl
  cases last <;> simp [decodeQuad, padding, h, hequals]

theorem value_sextet (number place : Nat) :
    value (sextet number place) = some (UInt32.ofNat (number / 64 ^ place % 64)) :=
  value_letter _ (Nat.mod_lt _ (by omega))

theorem sextet_ne_equals (number place : Nat) : sextet number place ≠ 61 :=
  (letter_ascii _ (Nat.mod_lt _ (by omega))).2.1

theorem unpacked_eq {bits : UInt32} {first second third : UInt8}
    (h : bits.toNat = joined first second third) : unpacked bits = [first, second, third] := by
  have h1 := first.toNat_lt
  have h2 := second.toNat_lt
  have h3 := third.toNat_lt
  have h16 := shiftRight_toNat bits 16 (by omega)
  have h8 := shiftRight_toNat bits 8 (by omega)
  change (bits >>> 16).toNat = _ at h16
  change (bits >>> 8).toNat = _ at h8
  simp only [joined] at h
  simp only [unpacked, List.cons.injEq, and_true, ← UInt8.toNat_inj, UInt32.toNat_toUInt8, h16,
    h8, h]
  omega

/-- A number of 24 bits is made by three octets. -/
theorem exists_joined {number : Nat} (h : number < 2 ^ 24) :
    ∃ first second third, number = joined first second third := by
  refine ⟨UInt8.ofNat (number / 65536), UInt8.ofNat (number / 256), UInt8.ofNat number, ?_⟩
  simp only [joined, UInt8.toNat_ofNat']
  omega

/-- The number four values make. -/
def quadNumber (first second third fourth : Nat) : Nat :=
  ((first * 64 + second) * 64 + third) * 64 + fourth

theorem quadNumber_sextets {number : Nat} (h : number < 2 ^ 24) :
    quadNumber (number / 64 ^ 3 % 64) (number / 64 ^ 2 % 64) (number / 64 ^ 1 % 64)
      (number / 64 ^ 0 % 64) = number := by
  simp only [quadNumber]
  omega

theorem sextet_quadNumber {first second third fourth : Nat} (h1 : first < 64)
    (h2 : second < 64) (h3 : third < 64) (h4 : fourth < 64) :
    [sextet (quadNumber first second third fourth) 3,
      sextet (quadNumber first second third fourth) 2,
      sextet (quadNumber first second third fourth) 1,
      sextet (quadNumber first second third fourth) 0] =
    [letter first, letter second, letter third, letter fourth] := by
  simp only [sextet, quadNumber]
  congr <;> omega

theorem toNat_and_ones (bits : UInt32) (n : Nat) (mask : UInt32)
    (hmask : mask.toNat = 2 ^ n - 1) : (bits &&& mask) = 0 ↔ bits.toNat % 2 ^ n = 0 := by
  rw [← UInt32.toNat_inj, UInt32.toNat_and, hmask, Nat.and_two_pow_sub_one_eq_mod]
  rfl

theorem quadNumber_lt {first second third fourth : Nat} (h1 : first < 64)
    (h2 : second < 64) (h3 : third < 64) (h4 : fourth < 64) :
    quadNumber first second third fourth < 2 ^ 24 := by
  simp only [quadNumber]
  omega

/-- Four characters of the alphabet decode to the octets they are the encoding of. -/
theorem encodeChunk_of_whole {last : Bool} {first second third fourth : UInt8}
    {data : Octets} (hwhole : padding last third fourth = 0)
    (h : decodeQuad last first second third fourth = some data) :
    encodeChunk data = [first, second, third, fourth] ∧ data.length = 3 := by
  rw [decodeQuad_whole hwhole] at h
  simp only [Option.bind_eq_bind, Option.bind_eq_some_iff, Option.pure_def,
    Option.some.injEq] at h
  obtain ⟨s1, h1, s2, h2, s3, h3, s4, h4, rfl⟩ := h
  obtain ⟨hs1, rfl⟩ := value_eq_some h1
  obtain ⟨hs2, rfl⟩ := value_eq_some h2
  obtain ⟨hs3, rfl⟩ := value_eq_some h3
  obtain ⟨hs4, rfl⟩ := value_eq_some h4
  obtain ⟨a, b, c, habc⟩ := exists_joined (quadNumber_lt hs1 hs2 hs3 hs4)
  have hbits := (toNat_quad hs1 hs2 hs3 hs4).trans habc
  rw [packed, unpacked_eq hbits, encodeChunk_three, ← habc,
    sextet_quadNumber hs1 hs2 hs3 hs4]
  exact ⟨rfl, rfl⟩

/-- With one padding character the bits of the third octet must be clear. -/
theorem encodeChunk_of_padded {first second third : UInt8} {data : Octets}
    (hthird : third ≠ 61) (h : decodeQuad true first second third 61 = some data) :
    encodeChunk data = [first, second, third, 61] ∧ data.length = 2 := by
  rw [decodeQuad_padded hthird] at h
  simp only [Option.bind_eq_bind, Option.bind_eq_some_iff, Option.pure_def] at h
  obtain ⟨s1, h1, s2, h2, s3, h3, h⟩ := h
  split at h
  · cases h
  · rename_i hmask
    rw [ne_eq, Decidable.not_not, toNat_and_ones _ 8 _ rfl] at hmask
    cases h
    obtain ⟨hs1, rfl⟩ := value_eq_some h1
    obtain ⟨hs2, rfl⟩ := value_eq_some h2
    obtain ⟨hs3, rfl⟩ := value_eq_some h3
    have hzero : (0 : UInt32).toNat < 64 := by decide
    have hsextets := sextet_quadNumber hs1 hs2 hs3 hzero
    obtain ⟨a, b, c, habc⟩ := exists_joined (quadNumber_lt hs1 hs2 hs3 hzero)
    have hbits : (packed s1 s2 s3 0).toNat = joined a b c :=
      (toNat_quad hs1 hs2 hs3 hzero).trans habc
    have hc : c = 0 := by
      have := c.toNat_lt
      simp only [hbits, joined] at hmask
      simp only [← UInt8.toNat_inj, UInt8.toNat_zero]
      omega
    subst hc
    rw [unpacked_eq hbits, List.take_succ_cons, List.take_succ_cons, List.take_zero,
      encodeChunk_two, ← habc]
    simp only [List.cons.injEq] at hsextets
    exact ⟨by rw [hsextets.1, hsextets.2.1, hsextets.2.2.1], rfl⟩

/-- With two of them those of the second octet must be clear as well. -/
theorem encodeChunk_of_twice {first second : UInt8} {data : Octets}
    (h : decodeQuad true first second 61 61 = some data) :
    encodeChunk data = [first, second, 61, 61] ∧ data.length = 1 := by
  rw [decodeQuad_twice] at h
  simp only [Option.bind_eq_bind, Option.bind_eq_some_iff, Option.pure_def] at h
  obtain ⟨s1, h1, s2, h2, h⟩ := h
  split at h
  · cases h
  · rename_i hmask
    rw [ne_eq, Decidable.not_not, toNat_and_ones _ 16 _ rfl] at hmask
    cases h
    obtain ⟨hs1, rfl⟩ := value_eq_some h1
    obtain ⟨hs2, rfl⟩ := value_eq_some h2
    have hzero : (0 : UInt32).toNat < 64 := by decide
    have hsextets := sextet_quadNumber hs1 hs2 hzero hzero
    obtain ⟨a, b, c, habc⟩ := exists_joined (quadNumber_lt hs1 hs2 hzero hzero)
    have hbits : (packed s1 s2 0 0).toNat = joined a b c :=
      (toNat_quad hs1 hs2 hzero hzero).trans habc
    have hclear : b = 0 ∧ c = 0 := by
      have := b.toNat_lt
      have := c.toNat_lt
      simp only [hbits, joined] at hmask
      simp only [← UInt8.toNat_inj, UInt8.toNat_zero]
      omega
    obtain ⟨rfl, rfl⟩ := hclear
    rw [unpacked_eq hbits, List.take_succ_cons, List.take_zero, encodeChunk_one, ← habc]
    simp only [List.cons.injEq] at hsextets
    exact ⟨by rw [hsextets.1, hsextets.2.1], rfl⟩

/-- A quad that decodes is the one its octets are written as. -/
theorem encodeChunk_of_decodeQuad {last : Bool} {first second third fourth : UInt8}
    {data : Octets} (h : decodeQuad last first second third fourth = some data) :
    encodeChunk data = [first, second, third, fourth] ∧
      (data.length = 3 ∨ last = true ∧ (data.length = 1 ∨ data.length = 2)) := by
  by_cases hwhole : padding last third fourth = 0
  · exact (encodeChunk_of_whole hwhole h).imp_right .inl
  · cases last with
    | false => exact absurd rfl hwhole
    | true =>
        by_cases hthird : third = 61
        · subst hthird
          by_cases hfourth : fourth = 61
          · subst hfourth
            exact (encodeChunk_of_twice h).imp_right fun hone => .inr ⟨rfl, .inl hone⟩
          · rw [decodeQuad_inner hfourth] at h
            cases h
        · have hfourth : fourth = 61 := by
            by_contra hfourth
            exact hwhole (by simp [padding, hthird, hfourth])
          subst hfourth
          exact (encodeChunk_of_padded hthird h).imp_right fun htwo => .inr ⟨rfl, .inr htwo⟩

theorem packed_sextets {number : Nat} (h : number < 2 ^ 24) :
    (packed (UInt32.ofNat (number / 64 ^ 3 % 64)) (UInt32.ofNat (number / 64 ^ 2 % 64))
      (UInt32.ofNat (number / 64 ^ 1 % 64)) (UInt32.ofNat (number / 64 ^ 0 % 64))).toNat =
      number := by
  have hsmall : ∀ place, (UInt32.ofNat (number / 64 ^ place % 64)).toNat =
      number / 64 ^ place % 64 := by
    intro place
    rw [UInt32.toNat_ofNat']
    have := Nat.mod_lt (number / 64 ^ place) (show 64 > 0 by omega)
    omega
  have hlt : ∀ place, (UInt32.ofNat (number / 64 ^ place % 64)).toNat < 64 := by
    intro place
    rw [hsmall]
    exact Nat.mod_lt _ (by omega)
  rw [packed, toNat_quad (hlt 3) (hlt 2) (hlt 1) (hlt 0)]
  simp only [hsmall]
  exact quadNumber_sextets h

theorem decodeQuad_of_whole {last : Bool} {first second third fourth : UInt8}
    {s1 s2 s3 s4 : UInt32} {a b c : UInt8} (hwhole : padding last third fourth = 0)
    (h1 : value first = some s1) (h2 : value second = some s2) (h3 : value third = some s3)
    (h4 : value fourth = some s4) (hbits : (packed s1 s2 s3 s4).toNat = joined a b c) :
    decodeQuad last first second third fourth = some [a, b, c] := by
  rw [decodeQuad_whole hwhole, h1, h2, h3, h4]
  exact congrArg some (unpacked_eq hbits)

theorem decodeQuad_of_padded {first second third : UInt8} {s1 s2 s3 : UInt32} {a b : UInt8}
    (hthird : third ≠ 61) (h1 : value first = some s1) (h2 : value second = some s2)
    (h3 : value third = some s3) (hbits : (packed s1 s2 s3 0).toNat = joined a b 0) :
    decodeQuad true first second third 61 = some [a, b] := by
  have hmask : packed s1 s2 s3 0 &&& 0xff = 0 := by
    rw [toNat_and_ones _ 8 _ rfl, hbits]
    simp only [joined, UInt8.toNat_zero]
    omega
  rw [decodeQuad_padded hthird, h1, h2, h3]
  change (if packed s1 s2 s3 0 &&& 0xff ≠ 0 then none
    else some ((unpacked (packed s1 s2 s3 0)).take 2)) = some [a, b]
  rw [if_neg (not_not_intro hmask), unpacked_eq hbits]
  rfl

theorem decodeQuad_of_twice {first second : UInt8} {s1 s2 : UInt32} {a : UInt8}
    (h1 : value first = some s1) (h2 : value second = some s2)
    (hbits : (packed s1 s2 0 0).toNat = joined a 0 0) :
    decodeQuad true first second 61 61 = some [a] := by
  have hmask : packed s1 s2 0 0 &&& 0xffff = 0 := by
    rw [toNat_and_ones _ 16 _ rfl, hbits]
    simp only [joined, UInt8.toNat_zero]
    omega
  rw [decodeQuad_twice, h1, h2]
  change (if packed s1 s2 0 0 &&& 0xffff ≠ 0 then none
    else some ((unpacked (packed s1 s2 0 0)).take 1)) = some [a]
  rw [if_neg (not_not_intro hmask), unpacked_eq hbits]
  rfl

theorem decodeQuad_three (last : Bool) (first second third : UInt8) :
    decodeQuad last (sextet (joined first second third) 3)
      (sextet (joined first second third) 2) (sextet (joined first second third) 1)
      (sextet (joined first second third) 0) = some [first, second, third] :=
  decodeQuad_of_whole (by simp [padding, sextet_ne_equals]) (value_sextet ..)
    (value_sextet ..) (value_sextet ..) (value_sextet ..) (packed_sextets (joined_lt ..))

theorem decodeQuad_two (first second : UInt8) :
    decodeQuad true (sextet (joined first second 0) 3) (sextet (joined first second 0) 2)
      (sextet (joined first second 0) 1) 61 = some [first, second] := by
  have hlast : joined first second 0 / 64 ^ 0 % 64 = 0 := by
    simp only [joined, UInt8.toNat_zero]
    omega
  have hbits := packed_sextets (joined_lt first second 0)
  rw [hlast] at hbits
  exact decodeQuad_of_padded (sextet_ne_equals _ _) (value_sextet ..) (value_sextet ..)
    (value_sextet ..) hbits

theorem decodeQuad_one (first : UInt8) :
    decodeQuad true (sextet (joined first 0 0) 3) (sextet (joined first 0 0) 2) 61 61 =
      some [first] := by
  have hthird : joined first 0 0 / 64 ^ 1 % 64 = 0 := by
    simp only [joined, UInt8.toNat_zero]
    omega
  have hlast : joined first 0 0 / 64 ^ 0 % 64 = 0 := by
    simp only [joined, UInt8.toNat_zero]
    omega
  have hbits := packed_sextets (joined_lt first 0 0)
  rw [hthird, hlast] at hbits
  exact decodeQuad_of_twice (value_sextet ..) (value_sextet ..) hbits

/-! ## Whole texts -/

theorem decodeOctets_encodeOctets (data : Octets) :
    decodeOctets (encodeOctets data) = some data := by
  induction data using encodeOctets.induct with
  | case1 first second third rest ih =>
      rw [encodeOctets, encodeChunk_three]
      simp only [List.cons_append, List.nil_append, decodeOctets, decodeQuad_three, ih]
      rfl
  | case2 chunk hshort =>
      match chunk with
      | [] => rfl
      | [first] =>
          simp only [encodeOctets, encodeChunk_one, decodeOctets]
          change (decodeQuad true _ _ _ _).bind _ = _
          rw [decodeQuad_one]
          rfl
      | [first, second] =>
          simp only [encodeOctets, encodeChunk_two, decodeOctets]
          change (decodeQuad true _ _ _ _).bind _ = _
          rw [decodeQuad_two]
          rfl
      | first :: second :: third :: rest => exact absurd rfl (hshort first second third rest)

theorem encodeOctets_of_decodeOctets {packed data : Octets}
    (h : decodeOctets packed = some data) : encodeOctets data = packed := by
  induction packed using decodeOctets.induct generalizing data with
  | case1 =>
      cases h
      rfl
  | case2 first second third fourth rest ih =>
      simp only [decodeOctets, Option.bind_eq_bind, Option.bind_eq_some_iff, Option.pure_def,
        Option.some.injEq] at h
      obtain ⟨chunk, hchunk, later, hlater, rfl⟩ := h
      obtain ⟨hquad, hlength⟩ := encodeChunk_of_decodeQuad hchunk
      have hrest := ih hlater
      obtain hthree | ⟨hlast, hshort⟩ := hlength
      · match chunk with
        | [a, b, c] =>
            rw [List.cons_append, List.cons_append, List.cons_append, List.nil_append,
              encodeOctets, hquad, hrest]
            rfl
      · cases rest with
        | cons => cases hlast
        | nil =>
            cases hlater
            match chunk with
            | [a] | [a, b] => exact hquad
            | [] | _ :: _ :: _ :: _ =>
                simp only [List.length_nil, List.length_cons] at hshort
                omega
  | case3 packed hnil hshort => 
      rw [decodeOctets] at h
      · cases h
      · exact hnil
      · exact hshort

/-- An encoding is written in the alphabet and the padding character. -/
theorem mem_encodeOctets {data : Octets} {octet : UInt8} (h : octet ∈ encodeOctets data) :
    octet = 61 ∨ ∃ six < 64, octet = letter six := by
  have hsextet : ∀ number place, octet = sextet number place →
      ∃ six < 64, octet = letter six := by
    rintro number place rfl
    exact ⟨_, Nat.mod_lt _ (by omega), rfl⟩
  induction data using encodeOctets.induct with
  | case1 first second third rest ih =>
      rw [encodeOctets, encodeChunk_three, List.mem_append] at h
      obtain h | h := h
      · simp only [List.mem_cons, List.not_mem_nil, or_false] at h
        obtain h | h | h | h := h <;> exact .inr (hsextet _ _ h)
      · exact ih h
  | case2 chunk hshort =>
      match chunk with
      | [] => cases h
      | [first] =>
          rw [show encodeOctets [first] = encodeChunk [first] from rfl, encodeChunk_one] at h
          simp only [List.mem_cons, List.not_mem_nil, or_false, or_self] at h
          obtain h | h | h := h
          · exact .inr (hsextet _ _ h)
          · exact .inr (hsextet _ _ h)
          · exact .inl h
      | [first, second] =>
          rw [show encodeOctets [first, second] = encodeChunk [first, second] from rfl,
            encodeChunk_two] at h
          simp only [List.mem_cons, List.not_mem_nil, or_false] at h
          obtain h | h | h | h := h
          · exact .inr (hsextet _ _ h)
          · exact .inr (hsextet _ _ h)
          · exact .inr (hsextet _ _ h)
          · exact .inl h
      | first :: second :: third :: rest => exact absurd rfl (hshort first second third rest)

/-- An encoding is ASCII without whitespace. -/
theorem encodeOctets_plain (data : Octets) :
    ∀ octet ∈ encodeOctets data, octet.toNat < 128 ∧ Mime.isAsciiWhitespace octet = false := by
  intro octet hmem
  obtain rfl | ⟨six, hsix, rfl⟩ := mem_encodeOctets hmem
  · exact ⟨by decide, rfl⟩
  · exact ⟨(letter_ascii six hsix).1, (letter_ascii six hsix).2.2⟩

@[simp] theorem octets_encode (data : Octets) : octets (encode data) = encodeOctets data := by
  have hascii := octets_ascii fun octet hmem => (encodeOctets_plain data octet hmem).1
  rw [encode, ← hascii, text_octets, Option.getD_some]

/-- A character outside the alphabet stands in no encoding. -/
theorem notMem_encode {ch : Char} (hch : ch.toNat < 128) (hequals : ch ≠ '=')
    (hletter : ∀ six < 64, letter six ≠ UInt8.ofNat ch.toNat) (data : Octets) :
    ch ∉ (encode data).toList := by
  intro hmem
  have hoctet : UInt8.ofNat ch.toNat ∈ encodeOctets data := by
    rw [← octets_encode, octets_eq_flatMap, List.mem_flatMap]
    exact ⟨ch, hmem, by rw [utf8EncodeChar_ascii hch]; exact List.mem_singleton_self _⟩
  obtain hpad | ⟨six, hsix, h⟩ := mem_encodeOctets hoctet
  · have hnat := congrArg UInt8.toNat hpad
    rw [UInt8.toNat_ofNat', Nat.mod_eq_of_lt (by omega)] at hnat
    exact hequals (Char.toNat_inj.mp hnat)
  · exact hletter six hsix h.symm

/-- The characters that may fold a text across lines. -/
def isFold (ch : Char) : Bool :=
  ch == ' ' || ch == '\t' || ch == '\n' || ch == '\x0c' || ch == '\r'

/-- A text with its ASCII whitespace removed. -/
def unfolded (source : String) : String :=
  String.ofList (source.toList.filter fun ch => !isFold ch)

theorem filter_utf8EncodeChar (ch : Char) :
    (String.utf8EncodeChar ch).filter (fun octet => !Mime.isAsciiWhitespace octet) =
      if isFold ch then [] else String.utf8EncodeChar ch := by
  have hascii : ∀ n < 128,
      Mime.isAsciiWhitespace (UInt8.ofNat n) = isFold (Char.ofNat n) := by decide
  by_cases hch : ch.toNat < 128
  · have hfold := hascii ch.toNat hch
    rw [Char.ofNat_toNat] at hfold
    rw [utf8EncodeChar_ascii hch, List.filter_singleton, hfold]
    cases isFold ch <;> rfl
  · have hwide : isFold ch = false := by
      by_contra hfold
      simp only [isFold, Bool.not_eq_false, Bool.or_eq_true, beq_iff_eq] at hfold
      obtain (((rfl | rfl) | rfl) | rfl) | rfl := hfold <;> exact hch (by decide)
    rw [hwide, if_neg Bool.false_ne_true, List.filter_eq_self]
    intro octet hmem
    have hle := le_of_mem_utf8EncodeChar (Nat.le_of_not_lt hch) hmem
    simp only [Mime.isAsciiWhitespace, Bool.not_eq_true', Bool.or_eq_false_iff,
      beq_eq_false_iff_ne, ne_eq]
    refine ⟨⟨⟨⟨?_, ?_⟩, ?_⟩, ?_⟩, ?_⟩ <;> rintro rfl <;> exact absurd hle (by decide)

theorem octets_unfolded (source : String) :
    octets (unfolded source) =
      (octets source).filter fun octet => !Mime.isAsciiWhitespace octet := by
  rw [unfolded, octets_ofList, octets_eq_flatMap]
  induction source.toList with
  | nil => rfl
  | cons ch rest ih =>
      rw [List.flatMap_cons, List.filter_append, ← ih, filter_utf8EncodeChar,
        List.filter_cons]
      cases isFold ch <;> simp

theorem decode_unfolded (source : String) :
    decode source = decodeOctets (octets (unfolded source)) := by
  rw [decode, octets_unfolded]

theorem decode_iff {source : String} {data : Octets} :
    decode source = some data ↔ unfolded source = encode data := by
  rw [decode_unfolded]
  constructor
  · intro h
    apply octets_injective
    rw [octets_encode, encodeOctets_of_decodeOctets h]
  · intro h
    rw [h, octets_encode, decodeOctets_encodeOctets]

@[simp] theorem decode_encode (data : Octets) : decode (encode data) = some data := by
  refine decode_iff.mpr (octets_injective ?_)
  rw [octets_unfolded, octets_encode, List.filter_eq_self]
  intro octet hmem
  rw [(encodeOctets_plain data octet hmem).2]
  rfl

/-- Base64 is canonical: encoding and decoding give the octets back, and a text decodes to
some octets exactly when, its whitespace aside, it is their encoding. -/
theorem decode_eq_some_iff (source : String) (data : Octets) :
    decode (encode data) = some data ∧
      (decode source = some data ↔ unfolded source = encode data) :=
  ⟨decode_encode data, decode_iff⟩

end Vortice.Proto.Base64

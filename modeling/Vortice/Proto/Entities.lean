import Vortice.Proto.Reading

/-!
# Entity references

A grammar of the references that may stand in text, and when the decoder reads exactly
what it derives: always, except that a number may have a plus sign before its digits.
-/

namespace Vortice.Proto.Xml

open Vortice.Foundation

/-! ## The grammar -/

def predefined : List (List Char × Char) :=
  [("amp".toList, '&'), ("lt".toList, '<'), ("gt".toList, '>'), ("quot".toList, '"'),
    ("apos".toList, '\'')]

def decimalDigit (ch : Char) : Option Nat :=
  if '0' ≤ ch ∧ ch ≤ '9' then some (ch.toNat - '0'.toNat) else none

def hexDigit (ch : Char) : Option Nat :=
  if '0' ≤ ch ∧ ch ≤ '9' then some (ch.toNat - '0'.toNat)
  else if 'a' ≤ ch ∧ ch ≤ 'f' then some (ch.toNat - 'a'.toNat + 10)
  else if 'A' ≤ ch ∧ ch ≤ 'F' then some (ch.toNat - 'A'.toNat + 10)
  else none

/-- The number that digits denote, behind those of `value`. -/
def numeral (radix : Nat) (digit : Char → Option Nat) : List Char → Nat → Option Nat
  | [], value => some value
  | ch :: digits, value =>
      (digit ch).bind fun found => numeral radix digit digits (value * radix + found)

/-- A reference to a character by its number, with `sign` before the digits. -/
inductive Numeric (sign : List Char) : List Char → Char → Prop
  | decimal {digits : List Char} {ch : Char} : digits ≠ [] →
      numeral 10 decimalDigit digits 0 = some ch.toNat →
      Numeric sign ('#' :: (sign ++ digits)) ch
  | hexadecimal {mark ch : Char} {digits : List Char} : mark = 'x' ∨ mark = 'X' →
      digits ≠ [] → numeral 16 hexDigit digits 0 = some ch.toNat →
      Numeric sign ('#' :: mark :: (sign ++ digits)) ch

def Reference (name : List Char) (ch : Char) : Prop :=
  (name, ch) ∈ predefined ∨ Numeric [] name ch

/-- A number with a plus sign. -/
def Signed (name : List Char) (ch : Char) : Prop := Numeric ['+'] name ch

/-- What is read for a reference. -/
def Lenient (name : List Char) (ch : Char) : Prop := Reference name ch ∨ Signed name ch

/-- A text of characters and references, and the characters it stands for. -/
inductive Spelled (refers : List Char → Char → Prop) : List Char → List Char → Prop
  | nil : Spelled refers [] []
  | plain {ch : Char} {source value : List Char} : ch ≠ '&' →
      Spelled refers source value → Spelled refers (ch :: source) (ch :: value)
  | reference {name source value : List Char} {ch : Char} : refers name ch →
      (octets (String.ofList name)).length < maxEntityLen →
      Spelled refers source value →
      Spelled refers ('&' :: (name ++ ';' :: source)) (ch :: value)

/-! ## Numbers -/

theorem le_iff_toNat (first second : Char) : first ≤ second ↔ first.toNat ≤ second.toNat :=
  Iff.rfl

theorem toDigit_ten (ch : Char) : toDigit 10 ch = decimalDigit ch := by
  have hzero : ('0').toNat = 48 := rfl
  have hnine : ('9').toNat = 57 := rfl
  simp only [toDigit, decimalDigit, le_iff_toNat]
  by_cases hdecimal : ('0').toNat ≤ ch.toNat ∧ ch.toNat ≤ ('9').toNat
  · rw [if_pos hdecimal, if_pos hdecimal, Option.filter_some_pos]
    simpa using by omega
  · rw [if_neg hdecimal, if_neg hdecimal]
    split
    · exact Option.filter_some_neg (by simp)
    split
    · exact Option.filter_some_neg (by simp)
    · rfl

theorem toDigit_sixteen (ch : Char) : toDigit 16 ch = hexDigit ch := by
  have hdecimal : ('0').toNat = 48 ∧ ('9').toNat = 57 := ⟨rfl, rfl⟩
  have hlower : ('a').toNat = 97 ∧ ('f').toNat = 102 ∧ ('z').toNat = 122 := ⟨rfl, rfl, rfl⟩
  have hupper : ('A').toNat = 65 ∧ ('F').toNat = 70 ∧ ('Z').toNat = 90 := ⟨rfl, rfl, rfl⟩
  simp only [toDigit, hexDigit, le_iff_toNat]
  split_ifs <;> first
    | rfl
    | omega
    | exact Option.filter_some_pos (by simpa using by omega)
    | exact Option.filter_some_neg (by simpa using by omega)

theorem le_numeral {radix : Nat} {digit : Char → Option Nat} (hradix : 0 < radix)
    {digits : List Char} {value n : Nat} (h : numeral radix digit digits value = some n) :
    value ≤ n := by
  induction digits generalizing value with
  | nil =>
      cases h
      exact Nat.le_refl _
  | cons ch digits ih =>
      obtain ⟨found, -, hrest⟩ := Option.bind_eq_some_iff.mp h
      have hle := ih hrest
      have hmul := Nat.le_mul_of_pos_right value hradix
      omega

theorem accumulate_eq {radix : Nat} (hradix : 0 < radix) (digits : List Char) {value : Nat}
    (hvalue : value < 2 ^ 32) :
    accumulate radix digits value =
      (numeral radix (toDigit radix) digits value).filter (· < 2 ^ 32) := by
  induction digits generalizing value with
  | nil => rw [accumulate, numeral, Option.filter_some_pos (by simpa using hvalue)]
  | cons ch digits ih =>
      rw [accumulate, numeral]
      cases toDigit radix ch with
      | none => rfl
      | some found =>
          dsimp only [Option.bind_some]
          by_cases hnext : value * radix + found < 2 ^ 32
          · rw [if_pos hnext, ih hnext]
          · rw [if_neg hnext, eq_comm, Option.filter_eq_none_iff]
            intro n hn
            have hle := le_numeral hradix hn
            simpa using by omega

theorem toDigit_plus {radix : Nat} : toDigit radix '+' = none := by
  rw [toDigit, if_neg (by decide), if_neg (by decide), if_neg (by decide)]
  rfl

theorem fromStrRadix_eq_some {radix : Nat} (hradix : 0 < radix) {source : List Char} {n : Nat} :
    fromStrRadix source radix = some n ↔ n < 2 ^ 32 ∧ ∃ digits, digits ≠ [] ∧
      (source = digits ∨ source = '+' :: digits) ∧
      numeral radix (toDigit radix) digits 0 = some n := by
  have haccumulate (digits : List Char) : accumulate radix digits 0 = some n ↔
      n < 2 ^ 32 ∧ numeral radix (toDigit radix) digits 0 = some n := by
    rw [accumulate_eq hradix digits (by decide), Option.filter_eq_some_iff, decide_eq_true_eq,
      and_comm]
  have hplus (rest : List Char) : numeral radix (toDigit radix) ('+' :: rest) 0 = none := by
    rw [numeral, toDigit_plus, Option.bind_none]
  unfold fromStrRadix
  split
  · refine ⟨nofun, ?_⟩
    rintro ⟨-, digits, hne, rfl | hsource, -⟩
    · exact absurd rfl hne
    · cases hsource
  · refine ⟨nofun, ?_⟩
    rintro ⟨-, digits, hne, rfl | hsource, hnumeral⟩
    · rw [hplus] at hnumeral
      cases hnumeral
    · cases hsource
      exact absurd rfl hne
  · next rest hrest =>
    rw [haccumulate]
    constructor
    · rintro ⟨hlt, hnumeral⟩
      refine ⟨hlt, rest, ?_, .inr rfl, hnumeral⟩
      rintro rfl
      exact hrest rfl
    · rintro ⟨hlt, digits, -, rfl | hsource, hnumeral⟩
      · rw [hplus] at hnumeral
        cases hnumeral
      · cases hsource
        exact ⟨hlt, hnumeral⟩
  · next hnil _ hsigned =>
    rw [haccumulate]
    constructor
    · rintro ⟨hlt, hnumeral⟩
      exact ⟨hlt, source, hnil, .inl rfl, hnumeral⟩
    · rintro ⟨hlt, digits, -, rfl | rfl, hnumeral⟩
      · exact ⟨hlt, hnumeral⟩
      · exact absurd rfl (hsigned digits)

theorem charFromU32_eq_some {n : Nat} {ch : Char} : charFromU32 n = some ch ↔ n = ch.toNat := by
  rw [charFromU32]
  constructor
  · intro h
    split at h
    · cases h
      rw [Char.ofNat, dif_pos ‹_›]
      rfl
    · cases h
  · rintro rfl
    have hvalid : ch.toNat.isValidChar := ch.valid
    rw [if_pos hvalid, Char.ofNat_toNat]

theorem value_bind_eq_some {source : List Char} {radix : Nat} (hradix : 0 < radix) {ch : Char} :
    (fromStrRadix source radix).bind charFromU32 = some ch ↔ ∃ digits, digits ≠ [] ∧
      (source = digits ∨ source = '+' :: digits) ∧
      numeral radix (toDigit radix) digits 0 = some ch.toNat := by
  have hlt : ch.toNat < 2 ^ 32 := ch.val.toNat_lt
  rw [Option.bind_eq_some_iff]
  constructor
  · rintro ⟨n, hn, hch⟩
    rw [charFromU32_eq_some] at hch
    subst hch
    exact ((fromStrRadix_eq_some hradix).mp hn).2
  · intro h
    exact ⟨ch.toNat, (fromStrRadix_eq_some hradix).mpr ⟨hlt, h⟩, charFromU32_eq_some.mpr rfl⟩

theorem numeric_of_digits {sign : List Char} {digits : List Char} {radix : Nat} {ch : Char}
    {mark : List Char} (hne : digits ≠ [])
    (hmark : mark = [] ∧ radix = 10 ∨ (mark = ['x'] ∨ mark = ['X']) ∧ radix = 16)
    (h : numeral radix (toDigit radix) digits 0 = some ch.toNat) :
    Numeric sign ('#' :: (mark ++ (sign ++ digits))) ch := by
  obtain ⟨rfl, rfl⟩ | ⟨hmark, rfl⟩ := hmark
  · rw [funext toDigit_ten] at h
    exact .decimal hne h
  · rw [funext toDigit_sixteen] at h
    obtain rfl | rfl := hmark
    · exact .hexadecimal (.inl rfl) hne h
    · exact .hexadecimal (.inr rfl) hne h

theorem numeric_of_reads {source mark : List Char} {radix : Nat} {ch : Char}
    (hradix : 0 < radix)
    (hmark : mark = [] ∧ radix = 10 ∨ (mark = ['x'] ∨ mark = ['X']) ∧ radix = 16)
    (h : (fromStrRadix source radix).bind charFromU32 = some ch) :
    Numeric [] ('#' :: (mark ++ source)) ch ∨ Signed ('#' :: (mark ++ source)) ch := by
  obtain ⟨digits, hne, rfl | rfl, hnumeral⟩ := (value_bind_eq_some hradix).mp h
  · have hnumeric : Numeric [] ('#' :: (mark ++ ([] ++ source))) ch :=
      numeric_of_digits hne hmark hnumeral
    exact .inl hnumeric
  · have hsigned : Numeric ['+'] ('#' :: (mark ++ (['+'] ++ digits))) ch :=
      numeric_of_digits hne hmark hnumeral
    exact .inr hsigned

/-- What the number behind `#` is read as. -/
def numberOf : List Char → Option Nat
  | 'x' :: hex => fromStrRadix hex 16
  | 'X' :: hex => fromStrRadix hex 16
  | digits => fromStrRadix digits 10

theorem numberOf_of_decimal {sign digits : List Char} (hsign : sign = [] ∨ sign = ['+'])
    {ch : Char} (h : numeral 10 decimalDigit digits 0 = some ch.toNat) :
    numberOf (sign ++ digits) = fromStrRadix (sign ++ digits) 10 := by
  have hhead : ∀ mark hex, sign ++ digits = mark :: hex → decimalDigit mark = none →
      mark = '+' := by
    rintro mark hex heq hmark
    obtain rfl | rfl := hsign
    · rw [List.nil_append] at heq
      rw [heq, numeral, hmark] at h
      cases h
    · exact (List.cons.inj heq).1.symm
  unfold numberOf
  split
  · next hex heq => exact absurd (hhead 'x' hex heq rfl) (by decide)
  · next hex heq => exact absurd (hhead 'X' hex heq rfl) (by decide)
  · rfl

theorem numberOf_of_numeric {sign source : List Char} {ch : Char}
    (hsign : sign = [] ∨ sign = ['+']) (h : Numeric sign ('#' :: source) ch) :
    (numberOf source).bind charFromU32 = some ch := by
  have hsource (digits : List Char) : sign ++ digits = digits ∨ sign ++ digits = '+' :: digits := by
    obtain rfl | rfl := hsign
    · exact .inl rfl
    · exact .inr rfl
  cases h with
  | @decimal digits _ hne hnumeral =>
      rw [numberOf_of_decimal hsign hnumeral, value_bind_eq_some (by decide),
        funext toDigit_ten]
      exact ⟨digits, hne, hsource digits, hnumeral⟩
  | @hexadecimal mark _ digits hmark hne hnumeral =>
      have hread : numberOf (mark :: (sign ++ digits)) = fromStrRadix (sign ++ digits) 16 := by
        obtain rfl | rfl := hmark <;> rfl
      rw [hread, value_bind_eq_some (by decide), funext toDigit_sixteen]
      exact ⟨digits, hne, hsource digits, hnumeral⟩

theorem numeric_of_numberOf {source : List Char} {ch : Char}
    (h : (numberOf source).bind charFromU32 = some ch) :
    Numeric [] ('#' :: source) ch ∨ Signed ('#' :: source) ch := by
  unfold numberOf at h
  split at h
  · next hex => exact numeric_of_reads (by decide) (.inr ⟨.inl rfl, rfl⟩) h
  · next hex => exact numeric_of_reads (by decide) (.inr ⟨.inr rfl, rfl⟩) h
  · exact numeric_of_reads (by decide) (.inl ⟨rfl, rfl⟩) h

theorem decodeNumericReference_cons (name : String) {source : List Char}
    (h : name.toList = '#' :: source) :
    decodeNumericReference name = match (numberOf source).bind charFromU32 with
      | some ch => .ok ch
      | none => .error (malformed "unsupported entity reference") := by
  rw [decodeNumericReference, h]
  rfl

theorem Numeric.exists_cons {sign name : List Char} {ch : Char} (h : Numeric sign name ch) :
    ∃ source, name = '#' :: source := by
  cases h with
  | decimal => exact ⟨_, rfl⟩
  | hexadecimal => exact ⟨_, rfl⟩

theorem decodeNumericReference_eq_ok {name : String} {ch : Char} :
    decodeNumericReference name = .ok ch ↔
      Numeric [] name.toList ch ∨ Signed name.toList ch := by
  constructor
  · intro h
    cases hname : name.toList with
    | nil =>
        rw [decodeNumericReference, hname] at h
        cases h
    | cons first source =>
        by_cases hfirst : first = '#'
        · subst hfirst
          rw [decodeNumericReference_cons name hname] at h
          cases hvalue : (numberOf source).bind charFromU32 with
          | none =>
              rw [hvalue] at h
              cases h
          | some found =>
              rw [hvalue] at h
              cases h
              exact numeric_of_numberOf hvalue
        · rw [decodeNumericReference, hname] at h
          simp only at h
          split at h
          · next heq => exact absurd (List.cons.inj heq).1 hfirst
          · cases h
  · intro h
    obtain ⟨source, hname⟩ : ∃ source, name.toList = '#' :: source :=
      h.elim Numeric.exists_cons Numeric.exists_cons
    rw [hname] at h
    have hvalue : (numberOf source).bind charFromU32 = some ch :=
      h.elim (numberOf_of_numeric (.inl rfl)) (numberOf_of_numeric (.inr rfl))
    rw [decodeNumericReference_cons name hname, hvalue]

theorem decodeEntity_cons {name : String} {source : List Char} (h : name.toList = '#' :: source) :
    decodeEntity name = decodeNumericReference name := by
  have hne {other : String} (hother : other.toList.head? ≠ some '#') : name ≠ other := by
    rintro rfl
    exact hother (by rw [h]; rfl)
  rw [decodeEntity, if_neg (hne (by decide)), if_neg (hne (by decide)), if_neg (hne (by decide)),
    if_neg (hne (by decide)), if_neg (hne (by decide))]

theorem decodeEntity_eq_ok {name : String} {ch : Char} :
    decodeEntity name = .ok ch ↔ Lenient name.toList ch := by
  constructor
  · intro h
    unfold decodeEntity at h
    split at h
    · next hname => subst hname; cases h; exact .inl (.inl (by decide))
    split at h
    · next hname => subst hname; cases h; exact .inl (.inl (by decide))
    split at h
    · next hname => subst hname; cases h; exact .inl (.inl (by decide))
    split at h
    · next hname => subst hname; cases h; exact .inl (.inl (by decide))
    split at h
    · next hname => subst hname; cases h; exact .inl (.inl (by decide))
    · exact (decodeNumericReference_eq_ok.mp h).imp .inr id
  · rintro ((hname | hnumber) | hsigned)
    · simp only [predefined, List.mem_cons, Prod.mk.injEq, String.toList_inj, List.not_mem_nil,
        or_false] at hname
      obtain ⟨rfl, rfl⟩ | ⟨rfl, rfl⟩ | ⟨rfl, rfl⟩ | ⟨rfl, rfl⟩ | ⟨rfl, rfl⟩ := hname <;> rfl
    · obtain ⟨source, hname⟩ := hnumber.exists_cons
      rw [decodeEntity_cons hname, decodeNumericReference_eq_ok]
      exact .inl hnumber
    · obtain ⟨source, hname⟩ := Numeric.exists_cons hsigned
      rw [decodeEntity_cons hname, decodeNumericReference_eq_ok]
      exact .inr hsigned

/-! ## Texts -/

theorem numeral_notMem {radix value n : Nat} {digit : Char → Option Nat} (ch : Char)
    (hch : digit ch = none) {digits : List Char} (h : numeral radix digit digits value = some n) :
    ch ∉ digits := by
  induction digits generalizing value with
  | nil => exact List.not_mem_nil
  | cons first digits ih =>
      obtain ⟨found, hfound, hrest⟩ := Option.bind_eq_some_iff.mp h
      rw [List.mem_cons, not_or]
      refine ⟨?_, ih hrest⟩
      rintro rfl
      rw [hch] at hfound
      cases hfound

theorem plus_notMem {name : List Char} {ch : Char} (h : Reference name ch) : '+' ∉ name := by
  obtain hname | hnumber := h
  · have hall : ∀ entry ∈ predefined, '+' ∉ entry.1 := by decide
    exact hall _ hname
  · cases hnumber with
    | decimal _ hnumeral =>
        have hdigits := numeral_notMem '+' rfl hnumeral
        simpa using hdigits
    | hexadecimal hmark _ hnumeral =>
        have hdigits := numeral_notMem '+' rfl hnumeral
        obtain rfl | rfl := hmark <;> simpa using hdigits

theorem plus_mem {name : List Char} {ch : Char} (h : Signed name ch) : '+' ∈ name := by
  cases h with
  | decimal => simp
  | hexadecimal => simp

theorem semicolon_notMem {name : List Char} {ch : Char} (h : Lenient name ch) : ';' ∉ name := by
  have hnumeric {sign : List Char} (hsign : ';' ∉ sign) (h : Numeric sign name ch) :
      ';' ∉ name := by
    cases h with
    | decimal _ hnumeral =>
        have hdigits := numeral_notMem ';' rfl hnumeral
        simpa using ⟨hsign, hdigits⟩
    | hexadecimal hmark _ hnumeral =>
        have hdigits := numeral_notMem ';' rfl hnumeral
        obtain rfl | rfl := hmark <;> simpa using ⟨hsign, hdigits⟩
  obtain (hname | hnumber) | hsigned := h
  · have hall : ∀ entry ∈ predefined, ';' ∉ entry.1 := by decide
    exact hall _ hname
  · exact hnumeric List.not_mem_nil hnumber
  · exact hnumeric (by decide) hsigned

theorem CharData.spelled {raw value : String} (h : CharData raw value) :
    Spelled Lenient raw.toList value.toList := by
  induction h with
  | nil => exact .nil
  | @glyph piece source value ch hglyph _ ih =>
      have hvalue : (ch.toString ++ value).toList = ch :: value.toList := by
        simp [Char.toString]
      rw [hvalue]
      cases hglyph with
      | plain hch =>
          have hsource : (ch.toString ++ source).toList = ch :: source.toList := by
            simp [Char.toString]
          rw [hsource]
          exact .plain hch ih
      | @reference name _ _ hlength hdecode =>
          have hsource : ("&" ++ (name ++ ";") ++ source).toList =
              '&' :: (name.toList ++ ';' :: source.toList) := by simp
          rw [hsource]
          exact .reference (decodeEntity_eq_ok.mp hdecode) (by rwa [String.ofList_toList]) ih

theorem charData_of_spelled {source value : List Char} (h : Spelled Lenient source value) :
    CharData (String.ofList source) (String.ofList value) := by
  have hcons (ch : Char) (rest : List Char) :
      String.ofList (ch :: rest) = ch.toString ++ String.ofList rest := by
    rw [← String.toList_inj]
    simp [Char.toString]
  induction h with
  | nil => exact .nil
  | plain hch _ ih =>
      rw [hcons, hcons]
      exact .glyph (.plain hch) ih
  | @reference name source value ch hname hlength _ ih =>
      have hsource : String.ofList ('&' :: (name ++ ';' :: source)) =
          "&" ++ (String.ofList name ++ ";") ++ String.ofList source := by
        rw [← String.toList_inj]
        simp
      rw [hsource, hcons]
      refine .glyph (.reference ?_ hlength (decodeEntity_eq_ok.mpr ?_)) ih
      · rw [String.toList_ofList]
        exact semicolon_notMem hname
      · rwa [String.toList_ofList]

theorem decodeEntities_eq_ok {source value : String} :
    decodeEntities source = .ok value ↔ Spelled Lenient source.toList value.toList := by
  constructor
  · intro h
    obtain ⟨found, hfound, hdata⟩ | ⟨error, herror⟩ := decodeEntities_safe source
    · rw [h] at hfound
      cases hfound
      exact hdata.spelled
    · rw [h] at herror
      cases herror
  · intro h
    have hdata := charData_of_spelled h
    rw [String.ofList_toList, String.ofList_toList] at hdata
    exact hdata.decodes

theorem Spelled.mono {refers refers' : List Char → Char → Prop} {source value : List Char}
    (hle : ∀ name ch, refers name ch → refers' name ch) (h : Spelled refers source value) :
    Spelled refers' source value := by
  induction h with
  | nil => exact .nil
  | plain hch _ ih => exact .plain hch ih
  | reference hname hlength _ ih => exact .reference (hle _ _ hname) hlength ih

theorem Spelled.append {refers : List Char → Char → Prop}
    {before after value later : List Char} (h : Spelled refers before value)
    (h' : Spelled refers after later) : Spelled refers (before ++ after) (value ++ later) := by
  induction h with
  | nil => exact h'
  | plain hch _ ih => exact .plain hch ih
  | @reference name source value ch hname hlength _ ih =>
      have hreference := Spelled.reference hname hlength ih
      rwa [List.cons_append, List.append_assoc, List.cons_append]

/-- A text in which a number has a plus sign, and which is read nevertheless. -/
def Plus (source : List Char) : Prop :=
  ∃ before name after value later ch, source = before ++ '&' :: (name ++ ';' :: after) ∧
    Spelled Lenient before value ∧ Signed name ch ∧
    (octets (String.ofList name)).length < maxEntityLen ∧ Spelled Lenient after later

theorem Spelled.reference_or_plus {source value : List Char} (h : Spelled Lenient source value) :
    Spelled Reference source value ∨ Plus source := by
  induction h with
  | nil => exact .inl .nil
  | @plain ch source value hch hsource ih =>
      obtain hread | ⟨before, _, _, _, _, _, rfl, hbefore, hsigned⟩ := ih
      · exact .inl (.plain hch hread)
      · exact .inr ⟨ch :: before, _, _, _, _, _, rfl, .plain hch hbefore, hsigned⟩
  | @reference name source value ch hname hlength hsource ih =>
      obtain hname | hsigned := hname
      · obtain hread | ⟨before, _, _, _, _, _, rfl, hbefore, hsigned⟩ := ih
        · exact .inl (.reference hname hlength hread)
        · refine .inr ⟨'&' :: (name ++ ';' :: before), _, _, _, _, _, ?_,
            .reference (.inl hname) hlength hbefore, hsigned⟩
          rw [List.cons_append, List.append_assoc, List.cons_append]
      · exact .inr ⟨[], name, source, [], value, ch, rfl, .nil, hsigned, hlength, hsource⟩

theorem eq_of_append_semicolon {name name' after after' : List Char} (h : ';' ∉ name)
    (h' : ';' ∉ name') (heq : name ++ ';' :: after = name' ++ ';' :: after') :
    name = name' ∧ after = after' := by
  have hcut {name after : List Char} (h : ';' ∉ name) :
      (name ++ ';' :: after).takeWhile (· ≠ ';') = name := by
    have hall : ∀ ch ∈ name, decide (ch ≠ ';') = true := by
      rintro ch hmem
      refine decide_eq_true ?_
      rintro rfl
      exact h hmem
    rw [List.takeWhile_append_of_pos hall, List.takeWhile_cons_of_neg (by simp), List.append_nil]
  have hname : name = name' := by rw [← hcut h, heq, hcut h']
  subst hname
  exact ⟨rfl, (List.cons.inj (List.append_cancel_left heq)).2⟩

theorem Spelled.exists_reference {rest value : List Char}
    (h : Spelled Reference ('&' :: rest) value) : ∃ name after later ch,
      rest = name ++ ';' :: after ∧ Reference name ch ∧ Spelled Reference after later := by
  cases h with
  | plain hch => exact absurd rfl hch
  | reference hname _ hafter => exact ⟨_, _, _, _, rfl, hname, hafter⟩

theorem Spelled.exists_plain {ch : Char} {rest value : List Char} (hch : ch ≠ '&')
    (h : Spelled Reference (ch :: rest) value) : ∃ later, Spelled Reference rest later := by
  cases h with
  | plain _ hrest => exact ⟨_, hrest⟩
  | reference => exact absurd rfl hch

/-- And not both: the references before the number are those that the grammar has there. -/
theorem Spelled.not_plus {before name after value later : List Char} {ch : Char}
    (hbefore : Spelled Lenient before value) (hsigned : Signed name ch) :
    ¬ Spelled Reference (before ++ '&' :: (name ++ ';' :: after)) later := by
  induction hbefore generalizing later with
  | nil =>
      intro hread
      obtain ⟨name', after', _, _, heq, hname, -⟩ := hread.exists_reference
      obtain ⟨rfl, -⟩ := eq_of_append_semicolon (semicolon_notMem (.inr hsigned))
        (semicolon_notMem (.inl hname)) heq
      exact plus_notMem hname (plus_mem hsigned)
  | plain hch _ ih =>
      intro hread
      obtain ⟨later, hrest⟩ := hread.exists_plain hch
      exact ih hrest
  | @reference front source value ch hfront _ _ ih =>
      intro hread
      rw [List.cons_append, List.append_assoc, List.cons_append] at hread
      obtain ⟨name', after', _, _, heq, hname, hrest⟩ := hread.exists_reference
      obtain ⟨-, hafter⟩ := eq_of_append_semicolon (semicolon_notMem hfront)
        (semicolon_notMem (.inl hname)) heq
      exact ih (hafter ▸ hrest)

theorem Plus.not_spelled {source value : List Char} (h : Plus source) :
    ¬ Spelled Reference source value := by
  obtain ⟨_, _, _, _, _, _, rfl, hbefore, hsigned, -⟩ := h
  exact hbefore.not_plus hsigned

theorem Plus.spelled {source : List Char} (h : Plus source) :
    ∃ value, Spelled Lenient source value := by
  obtain ⟨_, _, _, _, _, _, rfl, hbefore, hsigned, hlength, hafter⟩ := h
  exact ⟨_, hbefore.append (.reference (.inr hsigned) hlength hafter)⟩

/-- The decoder accepts the texts of the grammar and no others, and returns what they
stand for. -/
def ReadsExactly (source : String) : Prop :=
  ∀ value, decodeEntities source = .ok value ↔ Spelled Reference source.toList value.toList

/-- So it does unless a number has a plus sign, and always with what was escaped. -/
theorem readsExactly_iff (source : String) :
    ReadsExactly source ∧ decodeEntities (escape source) = .ok source ↔
      ¬ Plus source.toList := by
  constructor
  · rintro ⟨hexact, -⟩ hplus
    obtain ⟨value, hvalue⟩ := hplus.spelled
    have hread : decodeEntities source = .ok (String.ofList value) := by
      rw [decodeEntities_eq_ok, String.toList_ofList]
      exact hvalue
    exact hplus.not_spelled ((hexact _).mp hread)
  · intro hplus
    refine ⟨fun value => ?_, decodeEntities_escape source⟩
    rw [decodeEntities_eq_ok]
    refine ⟨fun h => h.reference_or_plus.resolve_right hplus, fun h => ?_⟩
    exact h.mono fun _ _ => .inl

/-- A reference with a plus sign is read, and the grammar has none. -/
theorem plus_reference_read : ¬ ReadsExactly "&#+65;" := by
  intro hexact
  have hread : decodeEntities "&#+65;" = .ok "A" := by decide
  have hsigned : Signed ('#' :: (['+'] ++ ['6', '5'])) 'A' := .decimal (by decide) rfl
  have hplus : Plus "&#+65;".toList :=
    ⟨[], _, [], [], [], 'A', rfl, .nil, hsigned, by decide, .nil⟩
  exact hplus.not_spelled ((hexact "A").mp hread)

end Vortice.Proto.Xml

import Vortice.Foundation.Octets

/-!
# Text in a buffer of octets

A parser that works on the octets of a text reads them by index and cuts out
pieces of text.  A cut is only defined between characters, so `slice` fails
elsewhere; it never does between two pieces that are texts of their own.
-/

namespace Vortice.Foundation

/-- The text some octets encode. -/
def text (source : Octets) : Option String :=
  String.fromUTF8? ⟨source.toArray⟩

@[simp] theorem text_octets (value : String) :
    text (octets value) = some value := by
  simp [text, octets, String.fromUTF8?, String.fromUTF8, value.isValidUTF8]

theorem octets_injective {first second : String}
    (h : octets first = octets second) : first = second := by
  have htext := congrArg text h
  simpa using htext

theorem octets_eq_flatMap (value : String) :
    octets value = value.toList.flatMap String.utf8EncodeChar := by
  rw [octets, ← String.utf8Encode_toList, List.utf8Encode]
  simp

theorem octets_ofList (characters : List Char) :
    octets (String.ofList characters) =
      characters.flatMap String.utf8EncodeChar := by
  rw [octets_eq_flatMap, String.toList_ofList]

theorem utf8EncodeChar_ascii {ch : Char} (h : ch.toNat < 128) :
    String.utf8EncodeChar ch = [UInt8.ofNat ch.toNat] := by
  have hval : ch.val.toNat ≤ 127 := Nat.le_of_lt_succ h
  rw [String.utf8EncodeChar, if_pos hval]
  rfl

/-- A character beyond ASCII is a leading octet and continuing ones. -/
theorem utf8EncodeChar_wide {ch : Char} (h : 128 ≤ ch.toNat) :
    ∃ first rest, String.utf8EncodeChar ch = first :: rest ∧ rest ≠ [] ∧
      192 ≤ first.toNat ∧ ∀ octet ∈ rest, 128 ≤ octet.toNat ∧ octet.toNat < 192 := by
  have hval : ¬ ch.val.toNat ≤ 127 := Nat.not_le.mpr h
  rw [String.utf8EncodeChar, if_neg hval]
  split
  · refine ⟨_, _, rfl, by simp, ?_, ?_⟩ <;> simp <;> omega
  split
  · refine ⟨_, _, rfl, by simp, ?_, ?_⟩ <;> simp <;> omega
  · refine ⟨_, _, rfl, by simp, ?_, ?_⟩ <;> simp <;> omega

theorem le_of_mem_utf8EncodeChar {ch : Char} {octet : UInt8} (h : 128 ≤ ch.toNat)
    (hmem : octet ∈ String.utf8EncodeChar ch) : 128 ≤ octet.toNat := by
  obtain ⟨first, rest, hencode, -, hfirst, hrest⟩ := utf8EncodeChar_wide h
  rw [hencode, List.mem_cons] at hmem
  obtain rfl | hmem := hmem
  · omega
  · exact (hrest octet hmem).1

/-- An octet of ASCII is among those of a character only if it is all of them. -/
theorem mem_utf8EncodeChar {ch sought : Char} (hsought : sought.toNat < 128)
    (h : UInt8.ofNat sought.toNat ∈ String.utf8EncodeChar ch) : ch = sought := by
  by_cases hch : ch.toNat < 128
  · rw [utf8EncodeChar_ascii hch, List.mem_singleton] at h
    have hnat := congrArg UInt8.toNat h
    rw [UInt8.toNat_ofNat', UInt8.toNat_ofNat', Nat.mod_eq_of_lt (by omega),
      Nat.mod_eq_of_lt (by omega)] at hnat
    exact Char.toNat_inj.mp hnat.symm
  · have hle := le_of_mem_utf8EncodeChar (Nat.not_lt.mp hch) h
    rw [UInt8.toNat_ofNat', Nat.mod_eq_of_lt (by omega)] at hle
    omega

theorem notMem_flatMap {sought : Char} (hsought : sought.toNat < 128)
    {characters : List Char} (h : sought ∉ characters) :
    UInt8.ofNat sought.toNat ∉ characters.flatMap String.utf8EncodeChar := by
  rw [List.mem_flatMap]
  rintro ⟨ch, hch, hmem⟩
  exact h (mem_utf8EncodeChar hsought hmem ▸ hch)

theorem notMem_octets {sought : Char} (hsought : sought.toNat < 128) {value : String}
    (h : sought ∉ value.toList) : UInt8.ofNat sought.toNat ∉ octets value := by
  rw [octets_eq_flatMap]
  exact notMem_flatMap hsought h

theorem toNat_ofNat {n : Nat} (h : n < 128) : (Char.ofNat n).toNat = n := by
  rw [Char.ofNat, dif_pos (show n.isValidChar from .inl (by omega))]
  rfl

/-- Octets of ASCII are the text of the characters they stand for. -/
theorem octets_ascii {source : Octets} (h : ∀ octet ∈ source, octet.toNat < 128) :
    octets (String.ofList (source.map fun octet => Char.ofNat octet.toNat)) = source := by
  rw [octets_ofList, List.flatMap_map]
  induction source with
  | nil => rfl
  | cons octet rest ih =>
      have hoctet := h octet List.mem_cons_self
      have hchar := toNat_ofNat hoctet
      rw [List.flatMap_cons, ih fun later hlater => h later (List.mem_cons_of_mem _ hlater),
        utf8EncodeChar_ascii (by omega), hchar, UInt8.ofNat_toNat]
      rfl

/-- Whether `octet` begins a character rather than continuing one. -/
def isCharStart (octet : UInt8) : Bool := octet < 128 || 192 ≤ octet

def isCharBoundary (source : Octets) (i : Nat) : Bool :=
  match source[i]? with
  | none => i == source.length
  | some octet => i == 0 || isCharStart octet

/-- The text between two indices, which must both lie between characters. -/
def slice (source : Octets) (first last : Nat) : Option String :=
  if first ≤ last ∧ isCharBoundary source first ∧ isCharBoundary source last then
    text ((source.take last).drop first)
  else none

theorem isCharStart_of_isUTF8FirstByte {octet : UInt8}
    (h : octet.IsUTF8FirstByte) : isCharStart octet := by
  have hall : ∀ n : Fin 256, (UInt8.ofNat n.val).IsUTF8FirstByte →
      isCharStart (UInt8.ofNat n.val) := by decide +kernel
  have hlt : octet.toNat < 256 := octet.toNat_lt
  have := hall ⟨octet.toNat, hlt⟩
  simp only [UInt8.ofNat_toNat] at this
  exact this h

/-- Texts are separated by a character boundary. -/
theorem isCharBoundary_append (first second : String) :
    isCharBoundary (octets first ++ octets second) (octets first).length := by
  unfold isCharBoundary
  rw [List.getElem?_append_right (Nat.le_refl _), Nat.sub_self]
  cases hget : (octets second)[0]? with
  | none =>
      have hnil : octets second = [] := by
        simpa using hget
      simp [hnil]
  | some octet =>
      obtain ⟨hlt, heq⟩ := List.getElem?_eq_some_iff.mp hget
      have hsize : 0 < second.toByteArray.size := by
        simpa [octets] using hlt
      have hfirst := second.isValidUTF8.isUTF8FirstByte_getElem_zero hsize
      have hoctet : second.toByteArray[0] = octet := by
        rw [← heq]
        rfl
      rw [hoctet] at hfirst
      simp [isCharStart_of_isUTF8FirstByte hfirst]

/-- A piece of text comes back from the text it is a part of. -/
theorem slice_append (before value after : String) :
    slice (octets before ++ (octets value ++ octets after))
        (octets before).length
        ((octets before).length + (octets value).length) = some value := by
  have hfirst := isCharBoundary_append before (value ++ after)
  have hlast := isCharBoundary_append (before ++ value) after
  simp only [octets_append, List.append_assoc, List.length_append] at hfirst hlast
  rw [slice, if_pos ⟨Nat.le_add_right _ _, hfirst, hlast⟩]
  have htake : (octets before ++ (octets value ++ octets after)).take
      ((octets before).length + (octets value).length) =
      octets before ++ octets value := by
    rw [← List.append_assoc, ← List.length_append, List.take_left]
  rw [htake, List.drop_left, text_octets]

end Vortice.Foundation

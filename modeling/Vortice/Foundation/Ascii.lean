import Vortice.Foundation.Text

/-!
# Cutting a text at octets of ASCII

An octet of ASCII among those of a text is a character of its own.  So a scan of
the octets that only tells octets of ASCII apart stops between characters, and
a pattern of ASCII that is found among the octets is found in the text.
-/

namespace Vortice.Foundation

theorem octets_of_text {source : Octets} {value : String} (h : text source = some value) :
    octets value = source := by
  rw [text, String.fromUTF8?] at h
  split at h
  · cases h
    simp [octets, String.fromUTF8]
  · cases h

theorem length_le_flatMap (characters : List Char) :
    characters.length ≤ (characters.flatMap String.utf8EncodeChar).length := by
  induction characters with
  | nil => exact Nat.zero_le _
  | cons ch rest ih =>
      have hch := List.length_pos_of_ne_nil (String.utf8EncodeChar_ne_nil (c := ch))
      rw [List.flatMap_cons, List.length_append, List.length_cons]
      omega

/-- An octet of ASCII in front of a text is its first character. -/
theorem eq_cons_of_octets {characters : List Char} {ch : Char} {tail : Octets}
    (hch : ch.toNat < 128)
    (h : characters.flatMap String.utf8EncodeChar = UInt8.ofNat ch.toNat :: tail) :
    ∃ rest, characters = ch :: rest ∧ tail = rest.flatMap String.utf8EncodeChar := by
  cases characters with
  | nil => cases h
  | cons first rest =>
      obtain ⟨octet, more, hencode⟩ := List.exists_cons_of_ne_nil
        (String.utf8EncodeChar_ne_nil (c := first))
      rw [List.flatMap_cons, hencode, List.cons_append, List.cons.injEq] at h
      have hfirst : first = ch := mem_utf8EncodeChar hch (by
        rw [hencode, ← h.1]
        exact List.mem_cons_self)
      subst hfirst
      rw [utf8EncodeChar_ascii hch, List.cons.injEq] at hencode
      exact ⟨rest, rfl, by rw [← h.2, ← hencode.2, List.nil_append]⟩

/-- Where a pattern of ASCII stands in the octets of a text, it stands in the text. -/
theorem prefix_of_octets {pattern characters : List Char}
    (hpattern : ∀ ch ∈ pattern, ch.toNat < 128)
    (h : pattern.flatMap String.utf8EncodeChar <+: characters.flatMap String.utf8EncodeChar) :
    pattern <+: characters := by
  induction pattern generalizing characters with
  | nil => exact List.nil_prefix
  | cons ch pattern ih =>
      obtain ⟨hch, hpattern⟩ := List.forall_mem_cons.mp hpattern
      obtain ⟨tail, htail⟩ := h
      rw [List.flatMap_cons, utf8EncodeChar_ascii hch, List.append_assoc,
        List.singleton_append] at htail
      obtain ⟨rest, rfl, hrest⟩ := eq_cons_of_octets hch htail.symm
      exact List.cons_prefix_cons.mpr ⟨rfl, ih hpattern ⟨tail, hrest⟩⟩

/-- A pattern of ASCII that stands somewhere among the octets stands between characters. -/
theorem exists_append_of_prefix_drop {ch : Char} {pattern characters : List Char}
    (hpattern : ∀ sought ∈ ch :: pattern, sought.toNat < 128) {i : Nat}
    (h : (ch :: pattern).flatMap String.utf8EncodeChar <+:
      (characters.flatMap String.utf8EncodeChar).drop i) :
    ∃ before rest, characters = before ++ rest ∧
      (before.flatMap String.utf8EncodeChar).length = i ∧ ch :: pattern <+: rest := by
  induction characters generalizing i with
  | nil =>
      rw [List.flatMap_nil, List.drop_nil, List.prefix_nil, List.flatMap_cons,
        List.append_eq_nil_iff] at h
      exact absurd h.1 String.utf8EncodeChar_ne_nil
  | cons first rest ih =>
      obtain rfl | hpos := Nat.eq_zero_or_pos i
      · exact ⟨[], first :: rest, rfl, rfl, prefix_of_octets hpattern h⟩
      have hsource : (first :: rest).flatMap String.utf8EncodeChar =
          String.utf8EncodeChar first ++ rest.flatMap String.utf8EncodeChar := List.flatMap_cons
      rw [hsource] at h
      obtain hbehind | hwithin := Nat.lt_or_ge i (String.utf8EncodeChar first).length |>.symm
      · rw [List.drop_append, List.drop_of_length_le hbehind, List.nil_append] at h
        obtain ⟨before, later, rfl, hlength, hstarts⟩ := ih h
        refine ⟨first :: before, later, rfl, ?_, hstarts⟩
        rw [List.flatMap_cons, List.length_append, hlength]
        omega
      · -- inside a character of several octets there is none of ASCII
        obtain ⟨hch, -⟩ := List.forall_mem_cons.mp hpattern
        obtain ⟨octet, more, hmore⟩ : ∃ octet more,
            (String.utf8EncodeChar first).drop i = octet :: more :=
          List.exists_cons_of_ne_nil (by simpa using hwithin)
        rw [List.drop_append_of_le_length (Nat.le_of_lt hwithin), hmore, List.flatMap_cons,
          utf8EncodeChar_ascii hch, List.singleton_append, List.cons_append,
          List.cons_prefix_cons] at h
        have hfirst := mem_utf8EncodeChar hch
          (h.1 ▸ List.mem_of_mem_drop (hmore ▸ List.mem_cons_self))
        rw [hfirst, utf8EncodeChar_ascii hch, List.length_singleton] at hwithin
        omega

/-- Where a pattern of ASCII stands among the octets of a text, the text comes apart. -/
theorem exists_append_of_octets {pattern : String} (hne : pattern ≠ "")
    (hpattern : ∀ sought ∈ pattern.toList, sought.toNat < 128) {source : String} {i : Nat}
    (h : octets pattern <+: (octets source).drop i) :
    ∃ before after, source = before ++ (pattern ++ after) ∧ (octets before).length = i := by
  obtain ⟨ch, later, hlist⟩ : ∃ ch later, pattern.toList = ch :: later :=
    List.exists_cons_of_ne_nil fun hnil => hne (String.toList_eq_nil_iff.mp hnil)
  rw [octets_eq_flatMap, octets_eq_flatMap, hlist] at h
  rw [hlist] at hpattern
  obtain ⟨before, rest, hsource, hlength, after, hafter⟩ :=
    exists_append_of_prefix_drop hpattern h
  refine ⟨String.ofList before, String.ofList after, ?_, by rw [octets_ofList, hlength]⟩
  rw [← String.toList_inj, hsource, ← hafter]
  simp [hlist]

/-- A text begins with the ASCII that its octets begin with. -/
theorem exists_append_of_prefix {pattern source : String}
    (hpattern : ∀ sought ∈ pattern.toList, sought.toNat < 128)
    (h : octets pattern <+: octets source) : ∃ rest, source = pattern ++ rest := by
  rw [octets_eq_flatMap, octets_eq_flatMap] at h
  obtain ⟨rest, hrest⟩ := prefix_of_octets hpattern h
  refine ⟨String.ofList rest, ?_⟩
  rw [← String.toList_inj, ← hrest]
  simp

/-- All octets of a character are alike to one that only tells octets of ASCII apart. -/
theorem eq_of_mem_utf8EncodeChar {p : UInt8 → Bool}
    (hp : ∀ octet : UInt8, 128 ≤ octet.toNat → p octet = p 128) (ch : Char) :
    ∃ value, ∀ octet ∈ String.utf8EncodeChar ch, p octet = value := by
  by_cases hch : ch.toNat < 128
  · rw [utf8EncodeChar_ascii hch]
    exact ⟨_, fun octet hmem => congrArg p (List.mem_singleton.mp hmem)⟩
  · exact ⟨p 128, fun octet hmem =>
      hp octet (le_of_mem_utf8EncodeChar (Nat.not_lt.mp hch) hmem)⟩

theorem exists_run_of_flatMap {p : UInt8 → Bool}
    (hp : ∀ octet : UInt8, 128 ≤ octet.toNat → p octet = p 128) (characters : List Char) :
    ∃ piece rest, characters = piece ++ rest ∧
      (∀ octet ∈ piece.flatMap String.utf8EncodeChar, p octet) ∧
      ∀ octet ∈ (rest.flatMap String.utf8EncodeChar).head?, p octet = false := by
  induction characters with
  | nil => exact ⟨[], [], rfl, nofun, nofun⟩
  | cons ch later ih =>
      obtain ⟨value, hvalue⟩ := eq_of_mem_utf8EncodeChar hp ch
      cases value with
      | true =>
          obtain ⟨piece, rest, rfl, hpiece, hrest⟩ := ih
          refine ⟨ch :: piece, rest, rfl, fun octet hmem => ?_, hrest⟩
          rw [List.flatMap_cons, List.mem_append] at hmem
          exact hmem.elim (hvalue octet) (hpiece octet)
      | false =>
          refine ⟨[], ch :: later, rfl, nofun, ?_⟩
          obtain ⟨first, more, hencode⟩ := List.exists_cons_of_ne_nil
            (String.utf8EncodeChar_ne_nil (c := ch))
          rw [List.flatMap_cons, hencode, List.cons_append, List.head?_cons]
          rintro _ ⟨⟩
          exact hvalue first (hencode ▸ List.mem_cons_self)

/-- The longest run of such octets is a text. -/
theorem exists_run {p : UInt8 → Bool}
    (hp : ∀ octet : UInt8, 128 ≤ octet.toNat → p octet = p 128) (source : String) :
    ∃ piece rest, source = piece ++ rest ∧ (∀ octet ∈ octets piece, p octet) ∧
      ∀ octet ∈ (octets rest).head?, p octet = false := by
  obtain ⟨piece, rest, hsource, hpiece, hrest⟩ := exists_run_of_flatMap hp source.toList
  refine ⟨String.ofList piece, String.ofList rest, ?_, ?_, ?_⟩
  · rw [← String.toList_inj, hsource]
    simp
  · rwa [octets_ofList]
  · rwa [octets_ofList]

/-- In front of a text that is the end of another there is a text. -/
theorem exists_of_flatMap {characters source : List Char} {piece : Octets}
    (h : characters.flatMap String.utf8EncodeChar =
      piece ++ source.flatMap String.utf8EncodeChar) :
    ∃ before : List Char, piece = before.flatMap String.utf8EncodeChar := by
  induction characters generalizing piece with
  | nil => exact ⟨[], (List.append_eq_nil_iff.mp h.symm).1⟩
  | cons ch rest ih =>
      rw [List.flatMap_cons] at h
      obtain ⟨later, rfl, hlater⟩ | ⟨tail, hencode, hsource⟩ := List.append_eq_append_iff.mp h
      · obtain ⟨before, rfl⟩ := ih hlater
        exact ⟨ch :: before, rfl⟩
      · cases piece with
        | nil => exact ⟨[], rfl⟩
        | cons octet piece =>
            cases tail with
            | nil => exact ⟨[ch], by rw [List.flatMap_singleton, hencode, List.append_nil]⟩
            | cons first tail =>
                -- a character is never cut, for none begins with a continuing octet
                exfalso
                rw [List.cons_append] at hencode hsource
                have hfirst : 128 ≤ first.toNat ∧ first.toNat < 192 := by
                  by_cases hch : ch.toNat < 128
                  · rw [utf8EncodeChar_ascii hch] at hencode
                    simp at hencode
                  · obtain ⟨_, behind, hwide, -, -, hbehind⟩ :=
                      utf8EncodeChar_wide (Nat.not_lt.mp hch)
                    rw [hwide, List.cons.injEq] at hencode
                    exact hbehind first (hencode.2 ▸ List.mem_append_right _ List.mem_cons_self)
                cases source with
                | nil => cases hsource
                | cons head source =>
                    rw [List.flatMap_cons] at hsource
                    by_cases hhead : head.toNat < 128
                    · rw [utf8EncodeChar_ascii hhead, List.singleton_append,
                        List.cons.injEq] at hsource
                      rw [← hsource.1, UInt8.toNat_ofNat', Nat.mod_eq_of_lt (by omega)] at hfirst
                      omega
                    · obtain ⟨lead, behind, hwide, -, hlead, -⟩ :=
                        utf8EncodeChar_wide (Nat.not_lt.mp hhead)
                      rw [hwide, List.cons_append, List.cons.injEq] at hsource
                      rw [← hsource.1] at hfirst
                      omega

end Vortice.Foundation

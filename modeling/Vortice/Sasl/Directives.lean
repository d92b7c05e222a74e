import Vortice.Proto.Canonical
import Vortice.Sasl.DigestMd5

/-!
# The scanner behind the directives

The source walks over the octets of a text and cuts pieces out of it between them.
It never cuts a character, and it always ends.  The octets of a value are taken for
characters one by one, and what surrounds it is trimmed even inside quotes, so a value
comes back as it was written exactly when it is of ASCII and nothing can be trimmed.
-/

namespace Vortice.Sasl.Directives

open Vortice.Foundation

/-! ## The scanner -/

/-- The loop over a quoted value: what it pushes, and the octets it goes past. -/
def scanQuoted : Bool → Octets → List Char × Nat
  | _, [] => ([], 0)
  | escaped, byte :: bytes =>
      if escaped then
        let (value, count) := scanQuoted false bytes
        (Char.ofNat byte.toNat :: value, count + 1)
      else if byte = 92 then
        let (value, count) := scanQuoted true bytes
        (value, count + 1)
      else if byte = 34 then ([], 1)
      else
        let (value, count) := scanQuoted false bytes
        (Char.ofNat byte.toNat :: value, count + 1)

/-- The value at an index, and the index behind it. -/
def scanValue (bytes : Octets) (at' : Nat) : List Char × Nat :=
  if bytes[at']? = some 34 then
    let (value, count) := scanQuoted false (bytes.drop (at' + 1))
    (value, at' + 1 + count)
  else
    let plain := (bytes.drop at').takeWhile (· ≠ 44)
    (plain.map fun byte => Char.ofNat byte.toNat, at' + plain.length)

/-- The loop of `directives`, on the text that is left; it fails where the source would
slice off a boundary, and when it is not over in time. -/
def scanLoop : Nat → String → Option (List (String × String))
  | 0, _ => none
  | fuel + 1, rest =>
      if rest = "" then some []
      else
        match find (octets rest) 61 with
        | none => some []
        | some equals => do
            let name ← slice (octets rest) 0 equals
            let (value, at') := scanValue (octets rest) (equals + 1)
            let after ← slice (octets rest) at' (octets rest).length
            let after := trimStart after.toList
            let next := match after with
              | ',' :: after => trimStart after
              | after => after
            let later ← scanLoop fuel (String.ofList next)
            return ((Proto.Management.trim name).toLower,
              Proto.Management.trim (String.ofList value)) :: later

def scan (source : String) : Option (List (String × String)) :=
  scanLoop (source.length + 1) (Proto.Management.trim source)

/-! ## Octets of characters -/

theorem takeWhile_octets {sought : Char} (hsought : sought.toNat < 128)
    (characters : List Char) :
    (characters.flatMap String.utf8EncodeChar).takeWhile
        (fun octet => decide (octet ≠ UInt8.ofNat sought.toNat)) =
      (characters.takeWhile (fun ch => decide (ch ≠ sought))).flatMap
        String.utf8EncodeChar := by
  induction characters with
  | nil => rfl
  | cons ch rest ih =>
      rw [List.flatMap_cons, List.takeWhile_cons]
      by_cases hch : ch = sought
      · rw [hch, utf8EncodeChar_ascii hsought]
        simp
      · rw [List.takeWhile_append_of_pos, ih]
        · simp [hch]
        · rintro octet hmem
          refine decide_eq_true fun heq => hch (mem_utf8EncodeChar hsought (heq ▸ hmem))

/-! ## It never fails -/

theorem scanQuoted_wide {piece : Octets} (h : ∀ octet ∈ piece, 128 ≤ octet.toNat)
    (bytes : Octets) :
    scanQuoted false (piece ++ bytes) =
      (piece.map (fun octet => Char.ofNat octet.toNat) ++ (scanQuoted false bytes).1,
        piece.length + (scanQuoted false bytes).2) := by
  induction piece with
  | nil => simp
  | cons octet piece ih =>
      have hoctet := h octet List.mem_cons_self
      have hbackslash : octet ≠ 92 := by
        rintro rfl
        revert hoctet
        decide
      have hquote : octet ≠ 34 := by
        rintro rfl
        revert hoctet
        decide
      rw [List.cons_append, scanQuoted, if_neg Bool.false_ne_true, if_neg hbackslash,
        if_neg hquote, ih fun later hlater => h later (List.mem_cons_of_mem _ hlater)]
      simp
      omega

/-- Behind a backslash the first octet of a character is taken as it is, and the others
are none that a quoted value has a use for. -/
theorem scanQuoted_escaped (ch : Char) (bytes : Octets) :
    scanQuoted true (String.utf8EncodeChar ch ++ bytes) =
      (charsFrom ch ++ (scanQuoted false bytes).1,
        (String.utf8EncodeChar ch).length + (scanQuoted false bytes).2) := by
  by_cases hch : ch.toNat < 128
  · rw [charsFrom, utf8EncodeChar_ascii hch]
    simp [scanQuoted, Nat.add_comm]
  · obtain ⟨first, rest, hencode, -, -, hrest⟩ := utf8EncodeChar_wide (Nat.not_lt.mp hch)
    rw [charsFrom, hencode, List.cons_append, scanQuoted, if_pos rfl,
      scanQuoted_wide fun octet hmem => (hrest octet hmem).1]
    simp
    omega

theorem scanQuoted_plain {ch : Char} (hbackslash : ch ≠ '\\') (hquote : ch ≠ '"')
    (bytes : Octets) :
    scanQuoted false (String.utf8EncodeChar ch ++ bytes) =
      (charsFrom ch ++ (scanQuoted false bytes).1,
        (String.utf8EncodeChar ch).length + (scanQuoted false bytes).2) := by
  by_cases hch : ch.toNat < 128
  · have h92 : UInt8.ofNat ch.toNat ≠ 92 := fun heq =>
      hbackslash (mem_utf8EncodeChar (by decide : ('\\').toNat < 128)
        (by rw [utf8EncodeChar_ascii hch, heq]; decide))
    have h34 : UInt8.ofNat ch.toNat ≠ 34 := fun heq =>
      hquote (mem_utf8EncodeChar (by decide : ('"').toNat < 128)
        (by rw [utf8EncodeChar_ascii hch, heq]; decide))
    rw [charsFrom, utf8EncodeChar_ascii hch]
    simp [scanQuoted, h92, h34, Nat.add_comm]
  · rw [scanQuoted_wide fun octet hmem => le_of_mem_utf8EncodeChar (Nat.not_lt.mp hch) hmem,
      charsFrom]

theorem scanQuoted_octets (escaped : Bool) (characters : List Char) :
    ∃ taken, characters = taken ++ (readQuoted escaped characters).2 ∧
      scanQuoted escaped (characters.flatMap String.utf8EncodeChar) =
        ((readQuoted escaped characters).1,
          (taken.flatMap String.utf8EncodeChar).length) := by
  induction characters generalizing escaped with
  | nil => exact ⟨[], by simp [readQuoted], by simp [readQuoted, scanQuoted]⟩
  | cons ch rest ih =>
      obtain ⟨taken, htaken, hscan⟩ := ih false
      cases escaped with
      | true =>
          refine ⟨ch :: taken, by simpa [readQuoted] using htaken, ?_⟩
          rw [List.flatMap_cons, scanQuoted_escaped, hscan]
          simp [readQuoted]
      | false =>
          by_cases hbackslash : ch = '\\'
          · obtain ⟨behind, hbehind, hscan⟩ := ih true
            subst hbackslash
            refine ⟨'\\' :: behind, by simpa [readQuoted] using hbehind, ?_⟩
            rw [List.flatMap_cons, show String.utf8EncodeChar '\\' = [92] by decide]
            simp [readQuoted, scanQuoted, hscan,
              show String.utf8EncodeChar '\\' = [92] by decide]
          by_cases hquote : ch = '"'
          · subst hquote
            refine ⟨['"'], by simp [readQuoted], ?_⟩
            rw [List.flatMap_cons, show String.utf8EncodeChar '"' = [34] by decide]
            simp [readQuoted, scanQuoted, show String.utf8EncodeChar '"' = [34] by decide]
          · refine ⟨ch :: taken, by simpa [readQuoted, hbackslash, hquote] using htaken, ?_⟩
            rw [List.flatMap_cons, scanQuoted_plain hbackslash hquote, hscan]
            simp [readQuoted, hbackslash, hquote]

theorem readValue_plain {characters : List Char} (h : characters.head? ≠ some '"') :
    readValue characters =
      ((characters.takeWhile fun ch => decide (ch ≠ ',')).flatMap charsFrom,
        characters.dropWhile fun ch => decide (ch ≠ ',')) := by
  unfold readValue
  split
  · exact absurd rfl h
  · rw [List.span_eq_takeWhile_dropWhile]

theorem map_octets (characters : List Char) :
    (characters.flatMap String.utf8EncodeChar).map (fun octet => Char.ofNat octet.toNat) =
      characters.flatMap charsFrom := by
  rw [List.map_flatMap]
  rfl

/-- So does the loop over a value, which pushes what the value of the characters is. -/
theorem scanValue_octets (before : Octets) (characters : List Char) :
    ∃ taken, characters = taken ++ (readValue characters).2 ∧
      scanValue (before ++ characters.flatMap String.utf8EncodeChar) before.length =
        ((readValue characters).1,
          before.length + (taken.flatMap String.utf8EncodeChar).length) := by
  have hhead (bytes : Octets) : (before ++ bytes)[before.length]? = bytes.head? := by
    rw [List.getElem?_append_right (Nat.le_refl _), Nat.sub_self, List.head?_eq_getElem?]
  by_cases hquote : characters.head? = some '"'
  · obtain ⟨rest, rfl⟩ := List.head?_eq_some_iff.mp hquote
    obtain ⟨taken, htaken, hscan⟩ := scanQuoted_octets false rest
    have hoctets : ('"' :: rest).flatMap String.utf8EncodeChar =
        34 :: rest.flatMap String.utf8EncodeChar := rfl
    refine ⟨'"' :: taken, by simpa [readValue] using htaken, ?_⟩
    rw [hoctets, scanValue, if_pos (by rw [hhead]; rfl), ← List.drop_drop, List.drop_left,
      List.drop_one, List.tail_cons, hscan]
    simp [readValue, show String.utf8EncodeChar '"' = [34] by decide]
    omega
  · have hoctet : (characters.flatMap String.utf8EncodeChar).head? ≠ some 34 := by
      cases characters with
      | nil => simp
      | cons ch rest =>
          intro heq
          have hmem : UInt8.ofNat '"'.toNat ∈ String.utf8EncodeChar ch := by
            rw [List.flatMap_cons, List.head?_append_of_ne_nil _
              (by simp [String.utf8EncodeChar_ne_nil])] at heq
            exact List.mem_of_head? heq
          rw [mem_utf8EncodeChar (by decide) hmem] at hquote
          exact hquote rfl
    have htake := takeWhile_octets (by decide : (',').toNat < 128) characters
    have hcomma : UInt8.ofNat ','.toNat = 44 := by decide
    rw [hcomma] at htake
    refine ⟨characters.takeWhile fun ch => decide (ch ≠ ','), ?_, ?_⟩
    · rw [readValue_plain hquote, List.takeWhile_append_dropWhile]
    · rw [scanValue, if_neg (hhead _ ▸ hoctet), List.drop_left, htake, readValue_plain hquote]
      dsimp only
      rw [map_octets]

theorem span_of_notMem {sought : Char} {name : List Char} (h : sought ∉ name)
    (behind : List Char) :
    (name ++ sought :: behind).span (fun ch => decide (ch ≠ sought)) =
      (name, sought :: behind) := by
  have hall : ∀ ch ∈ name, decide (ch ≠ sought) = true := by
    rintro ch hmem
    exact decide_eq_true fun heq => h (heq ▸ hmem)
  rw [List.span_eq_takeWhile_dropWhile, List.takeWhile_append_of_pos hall,
    List.dropWhile_append_of_pos hall]
  simp

theorem readAll_succ {name : List Char} (h : '=' ∉ name) (rounds : Nat)
    (behind : List Char) :
    readAll (rounds + 1) (name ++ '=' :: behind) =
      ((Proto.Management.trim (String.ofList name)).toLower,
        Proto.Management.trim (String.ofList (readValue behind).1)) ::
      readAll rounds (match trimStart (readValue behind).2 with
        | ',' :: after => trimStart after
        | after => after) := by
  have hround := readAll.eq_2 (name ++ '=' :: behind) rounds
  rw [span_of_notMem h] at hround
  exact hround

theorem readAll_of_notMem {characters : List Char} (h : '=' ∉ characters) (rounds : Nat) :
    readAll rounds characters = [] := by
  cases rounds with
  | zero => rfl
  | succ rounds =>
      have hall : ∀ ch ∈ characters, decide (ch ≠ '=') = true := by
        rintro ch hmem
        exact decide_eq_true fun heq => h (heq ▸ hmem)
      rw [readAll, List.span_eq_takeWhile_dropWhile, List.dropWhile_eq_nil_iff.mpr hall]

theorem length_trimStart (characters : List Char) :
    (trimStart characters).length ≤ characters.length :=
  (List.dropWhile_suffix _).length_le

/-- What is left for the next round is no longer than what is behind the value. -/
theorem length_next (after : List Char) :
    (match trimStart after with
      | ',' :: after => trimStart after
      | after => after).length ≤ after.length := by
  have hfirst := length_trimStart after
  split
  · rename_i later heq
    have hlater := length_trimStart later
    rw [heq, List.length_cons] at hfirst
    omega
  · exact hfirst

theorem slice_between (before value after : List Char) :
    slice ((before ++ (value ++ after)).flatMap String.utf8EncodeChar)
        (before.flatMap String.utf8EncodeChar).length
        ((before.flatMap String.utf8EncodeChar).length +
          (value.flatMap String.utf8EncodeChar).length) = some (String.ofList value) := by
  have hslice :=
    slice_append (String.ofList before) (String.ofList value) (String.ofList after)
  simpa only [octets_ofList, List.flatMap_append] using hslice

theorem scanLoop_succ {rest : String} {name behind : List Char} (fuel : Nat)
    (hrest : rest.toList = name ++ '=' :: behind) (hname : '=' ∉ name) :
    scanLoop (fuel + 1) rest =
      (scanLoop fuel (String.ofList (match trimStart (readValue behind).2 with
        | ',' :: after => trimStart after
        | after => after))).map
      (((Proto.Management.trim (String.ofList name)).toLower,
        Proto.Management.trim (String.ofList (readValue behind).1)) :: ·) := by
  have hequals : String.utf8EncodeChar '=' = [61] := by decide
  have hempty : rest ≠ "" := by
    rintro rfl
    simp at hrest
  have hoctets : octets rest = name.flatMap String.utf8EncodeChar ++
      61 :: behind.flatMap String.utf8EncodeChar := by
    rw [octets_eq_flatMap, hrest, List.flatMap_append, List.flatMap_cons, hequals]
    rfl
  have hfind : find (octets rest) 61 =
      some (name.flatMap String.utf8EncodeChar).length := by
    rw [hoctets]
    exact find_append_cons (notMem_flatMap (by decide : ('=').toNat < 128) hname)
  have hcut : slice (octets rest) 0 (name.flatMap String.utf8EncodeChar).length =
      some (String.ofList name) := by
    have hslice := slice_between [] name ('=' :: behind)
    rw [octets_eq_flatMap, hrest]
    simpa using hslice
  obtain ⟨taken, htaken, hscan⟩ :=
    scanValue_octets (name.flatMap String.utf8EncodeChar ++ [61]) behind
  rw [List.append_assoc, List.singleton_append, ← hoctets, List.length_append,
    List.length_singleton] at hscan
  have hafter : slice (octets rest)
      ((name.flatMap String.utf8EncodeChar).length + 1 +
        (taken.flatMap String.utf8EncodeChar).length) (octets rest).length =
      some (String.ofList (readValue behind).2) := by
    have hslice := slice_between (name ++ '=' :: taken) (readValue behind).2 []
    rw [List.append_nil, List.append_assoc, List.cons_append, ← htaken, ← hrest,
      ← octets_eq_flatMap, ← List.length_append, ← List.flatMap_append, List.append_assoc,
      List.cons_append, ← htaken, ← hrest, ← octets_eq_flatMap] at hslice
    rw [← hslice, List.flatMap_append, List.flatMap_cons, hequals]
    simp [Nat.add_comm, Nat.add_left_comm]
  rw [scanLoop, if_neg hempty, hfind]
  simp only [hcut, hscan, hafter, Option.bind_eq_bind, Option.bind_some,
    String.toList_ofList, Option.pure_def]
  rw [Option.map_eq_bind]
  rfl

theorem scanLoop_of_notMem {rest : String} (h : '=' ∉ rest.toList) (fuel : Nat) :
    scanLoop (fuel + 1) rest = some [] := by
  have hfind : find (octets rest) 61 = none := by
    rw [find_eq_none, octets_eq_flatMap]
    exact notMem_flatMap (by decide : ('=').toNat < 128) h
  rw [scanLoop, hfind]
  split <;> rfl

theorem scanLoop_eq {fuel rounds : Nat} {rest : String} (hfuel : rest.toList.length ≤ fuel)
    (hrounds : rest.toList.length ≤ rounds) :
    scanLoop (fuel + 1) rest = some (readAll rounds rest.toList) := by
  induction fuel generalizing rounds rest with
  | zero =>
      have hempty : rest.toList = [] := by simpa using hfuel
      rw [scanLoop_of_notMem (by simp [hempty]), readAll_of_notMem (by simp [hempty])]
  | succ fuel ih =>
      by_cases hmem : '=' ∈ rest.toList
      · obtain ⟨name, behind, hrest, hname⟩ := List.eq_append_cons_of_mem hmem
        obtain ⟨taken, htaken, -⟩ := scanValue_octets [] behind
        have hnext := length_next (readValue behind).2
        have hlength := congrArg List.length htaken
        rw [List.length_append] at hlength
        rw [hrest, List.length_append, List.length_cons] at hfuel hrounds
        obtain ⟨rounds, rfl⟩ := Nat.exists_eq_succ_of_ne_zero (n := rounds) (by omega)
        rw [scanLoop_succ _ hrest hname, hrest, readAll_succ hname, @ih rounds,
          String.toList_ofList, Option.map_some]
        · rw [String.toList_ofList]
          omega
        · rw [String.toList_ofList]
          omega
      · rw [scanLoop_of_notMem hmem, readAll_of_notMem hmem]

theorem length_trim (value : String) :
    (Proto.Management.trim value).toList.length ≤ value.length := by
  rw [Proto.Management.trim, String.toList_ofList, ← String.length_toList]
  exact (List.rdropWhile_prefix _ _).length_le.trans (List.dropWhile_suffix _).length_le

/-- The source reads every text to its end, and never slices off a boundary. -/
theorem scan_eq (source : String) : scan source = some (directives source) :=
  scanLoop_eq (length_trim source) (length_trim source)

/-! ## What a conforming peer writes -/

/-- The characters of a token of RFC2831 §7.1 that are not in upper case. -/
def isTokenChar (ch : Char) : Bool :=
  32 < ch.toNat && ch.toNat < 127 && !ch.isUpper &&
    !("()<>@,;:\\\"/[]?={}".toList.contains ch)

/-- A directive, with its value in quotes or without. -/
structure Directive where
  name : String
  value : String
  quoted : Bool
  token : name ≠ "" ∧ ∀ ch ∈ name.toList, isTokenChar ch
  plain : quoted = false → value ≠ "" ∧ ∀ ch ∈ value.toList,
    ch ≠ ',' ∧ ch ≠ '"' ∧ Proto.Management.isWhitespace ch = false

def Directive.render (directive : Directive) : String :=
  directive.name ++ "=" ++
    if directive.quoted then "\"" ++ escapeValue directive.value ++ "\"" else directive.value

def renderAll : List Directive → String
  | [] => ""
  | [directive] => directive.render
  | directive :: later => directive.render ++ "," ++ renderAll later

/-- Directives that all have names of their own. -/
structure Sent where
  items : List Directive
  distinct : (items.map Directive.name).Nodup

def Sent.render (sent : Sent) : String := renderAll sent.items

/-- What was written under a name. -/
def Sent.valueOf (sent : Sent) (name : String) : Option String :=
  lastOf (sent.items.map fun directive => (directive.name, directive.value)) name

/-- What a value is taken for. -/
def seen (value : String) : String :=
  Proto.Management.trim (String.ofList (value.toList.flatMap charsFrom))

/-! ## Names and values -/

theorem isWhitespace_of_isTokenChar {ch : Char} (h : isTokenChar ch) :
    Proto.Management.isWhitespace ch = false := by
  simp only [isTokenChar, Bool.and_eq_true, decide_eq_true_eq] at h
  simp [Proto.Management.isWhitespace]
  omega

theorem toLower_of_isTokenChar {ch : Char} (h : isTokenChar ch) : ch.toLower = ch := by
  simp only [isTokenChar, Bool.and_eq_true, Bool.not_eq_true'] at h
  exact dif_neg (of_decide_eq_false h.1.2)

theorem Directive.name_read (directive : Directive) :
    (Proto.Management.trim (String.ofList directive.name.toList)).toLower = directive.name := by
  rw [String.ofList_toList, Proto.Management.trim_of_forall fun ch hmem =>
    isWhitespace_of_isTokenChar (directive.token.2 ch hmem)]
  change String.map Char.toLower directive.name = directive.name
  rw [← String.toList_inj, String.toList_map]
  rw [List.map_congr_left fun ch hmem => toLower_of_isTokenChar (directive.token.2 ch hmem),
    List.map_id']

theorem equals_notMem_name (directive : Directive) : '=' ∉ directive.name.toList := by
  intro hmem
  have := directive.token.2 _ hmem
  revert this
  decide

/-- What a character is inside quotes. -/
def escapeChar : Char → List Char
  | '\\' => ['\\', '\\']
  | '"' => ['\\', '"']
  | ch => [ch]

/-- What a character is once the backslashes are doubled. -/
def doubledChar (ch : Char) : List Char := if ch = '\\' then ['\\', '\\'] else [ch]

theorem replaceFrom_backslash (ch : Char) (rest : List Char) :
    replaceFrom ['\\'] ['\\', '\\'] 0 ([ch] ++ rest) =
      doubledChar ch ++ replaceFrom ['\\'] ['\\', '\\'] 0 rest := by
  unfold doubledChar
  split
  · rename_i hbackslash
    simp [replaceFrom, List.isPrefixOf, hbackslash]
  · rename_i hbackslash
    simp [replaceFrom, List.isPrefixOf, Ne.symm hbackslash]

theorem replaceFrom_quote (ch : Char) (rest : List Char) :
    replaceFrom ['"'] ['\\', '"'] 0 (doubledChar ch ++ rest) =
      escapeChar ch ++ replaceFrom ['"'] ['\\', '"'] 0 rest := by
  by_cases hbackslash : ch = '\\'
  · subst hbackslash
    simp [doubledChar, escapeChar, replaceFrom, List.isPrefixOf]
  rw [doubledChar, if_neg hbackslash]
  unfold escapeChar
  split
  · exact absurd rfl hbackslash
  · simp [replaceFrom, List.isPrefixOf]
  · rename_i hquote
    have hquote : ch ≠ '"' := hquote
    simp [replaceFrom, List.isPrefixOf, Ne.symm hquote]

theorem toList_escapeValue (value : String) :
    (escapeValue value).toList = value.toList.flatMap escapeChar := by
  have hbackslash : "\\".toList = ['\\'] ∧ "\\\\".toList = ['\\', '\\'] := by decide
  have hquote : "\"".toList = ['"'] ∧ "\\\"".toList = ['\\', '"'] := by decide
  have hdoubled := replaceFrom_flatMap replaceFrom_backslash value.toList
  rw [List.flatMap_singleton'] at hdoubled
  rw [escapeValue, replace, replace, hbackslash.1, hbackslash.2, hquote.1, hquote.2,
    String.toList_ofList, String.toList_ofList, hdoubled, replaceFrom_flatMap replaceFrom_quote]

theorem readQuoted_escapeChar (ch : Char) (rest : List Char) :
    readQuoted false (escapeChar ch ++ rest) =
      (charsFrom ch ++ (readQuoted false rest).1, (readQuoted false rest).2) := by
  unfold escapeChar
  split
  · simp [readQuoted]
  · simp [readQuoted]
  · rename_i hbackslash hquote
    have hbackslash : ch ≠ '\\' := hbackslash
    have hquote : ch ≠ '"' := hquote
    simp [readQuoted, hbackslash, hquote]

theorem readQuoted_escaped (characters tail : List Char) :
    readQuoted false (characters.flatMap escapeChar ++ '"' :: tail) =
      (characters.flatMap charsFrom, tail) := by
  induction characters with
  | nil => simp [readQuoted]
  | cons ch rest ih =>
      rw [List.flatMap_cons, List.append_assoc, readQuoted_escapeChar, ih, List.flatMap_cons]

/-! ## Reading back -/

/-- What a directive has behind the equals sign. -/
def Directive.written (directive : Directive) : List Char :=
  if directive.quoted then
    '"' :: (directive.value.toList.flatMap escapeChar ++ ['"'])
  else directive.value.toList

theorem Directive.toList_render (directive : Directive) :
    directive.render.toList = directive.name.toList ++ '=' :: directive.written := by
  rw [render, written]
  split <;> simp [toList_escapeValue]

/-- A value ends where it was meant to, at the end of the text or at a comma. -/
theorem Directive.readValue_written (directive : Directive) (tail : List Char)
    (htail : ∀ ch ∈ tail.head?, ch = ',') :
    readValue (directive.written ++ tail) =
      (directive.value.toList.flatMap charsFrom, tail) := by
  rw [written]
  split
  · rw [List.cons_append, List.append_assoc]
    exact readQuoted_escaped _ tail
  · rename_i hquoted
    obtain ⟨hne, hplain⟩ := directive.plain (Bool.not_eq_true _ ▸ hquoted)
    have hne : directive.value.toList ≠ [] := fun h => hne (String.toList_eq_nil_iff.mp h)
    have hcomma : ∀ ch ∈ directive.value.toList, decide (ch ≠ ',') = true :=
      fun ch hmem => decide_eq_true (hplain ch hmem).1
    rw [readValue_plain, List.takeWhile_append_of_pos hcomma,
      List.dropWhile_append_of_pos hcomma]
    · cases tail with
      | nil => simp
      | cons ch tail =>
          have hch : ch = ',' := htail ch rfl
          simp [hch]
    · rw [List.head?_append_of_ne_nil _ hne]
      exact fun heq => (hplain _ (List.mem_of_head? heq)).2.1 rfl

theorem Directive.written_ne_nil (directive : Directive) : directive.written ≠ [] := by
  rw [written]
  split
  · exact List.cons_ne_nil _ _
  · rename_i hquoted
    exact fun h => (directive.plain (Bool.not_eq_true _ ▸ hquoted)).1
      (String.toList_eq_nil_iff.mp h)

theorem Directive.last_written (directive : Directive) :
    ∀ ch ∈ directive.written.getLast?, Proto.Management.isWhitespace ch = false := by
  rw [written]
  split
  · rw [← List.cons_append, List.getLast?_append]
    rintro ch ⟨⟩
    decide
  · rename_i hquoted
    obtain ⟨-, hplain⟩ := directive.plain (Bool.not_eq_true _ ▸ hquoted)
    exact fun ch hmem => (hplain ch (List.mem_of_getLast? hmem)).2.2

/-- What is behind a directive that the others follow. -/
def behind : List Directive → List Char
  | [] => []
  | later => ',' :: (renderAll later).toList

theorem toList_renderAll (directive : Directive) (later : List Directive) :
    (renderAll (directive :: later)).toList =
      directive.name.toList ++ '=' :: (directive.written ++ behind later) := by
  cases later with
  | nil => simp [renderAll, behind, Directive.toList_render]
  | cons following later =>
      simp [renderAll, behind, Directive.toList_render, show ",".toList = [','] by decide]

theorem head_renderAll (items : List Directive) :
    ∀ ch ∈ (renderAll items).toList.head?, Proto.Management.isWhitespace ch = false := by
  cases items with
  | nil => simp [renderAll]
  | cons directive later =>
      have hne : directive.name.toList ≠ [] := fun h =>
        directive.token.1 (String.toList_eq_nil_iff.mp h)
      rw [toList_renderAll, List.head?_append_of_ne_nil _ hne]
      exact fun ch hmem =>
        isWhitespace_of_isTokenChar (directive.token.2 ch (List.mem_of_head? hmem))

theorem last_renderAll (items : List Directive) :
    ∀ ch ∈ (renderAll items).toList.getLast?, Proto.Management.isWhitespace ch = false := by
  induction items with
  | nil => simp [renderAll]
  | cons directive later ih =>
      rw [toList_renderAll]
      cases later with
      | nil =>
          rw [behind, List.append_nil, List.getLast?_append_of_ne_nil _ (List.cons_ne_nil _ _),
            List.getLast?_cons_of_ne_nil directive.written_ne_nil]
          exact directive.last_written
      | cons following later =>
          have hne : (renderAll (following :: later)).toList ≠ [] := by
            rw [toList_renderAll]
            simp
          rw [behind, ← List.cons_append, ← List.append_assoc,
            List.getLast?_append_of_ne_nil _ (List.cons_ne_nil _ _),
            List.getLast?_cons_of_ne_nil hne]
          · exact ih
          · simp

theorem trimStart_of_head {characters : List Char}
    (h : ∀ ch ∈ characters.head?, Proto.Management.isWhitespace ch = false) :
    trimStart characters = characters := by
  cases characters with
  | nil => rfl
  | cons ch rest => rw [trimStart, List.dropWhile_cons_of_neg (by simp [h ch rfl])]

theorem trim_renderAll (items : List Directive) :
    Proto.Management.trim (renderAll items) = renderAll items := by
  have hend : (renderAll items).toList.rdropWhile Proto.Management.isWhitespace =
      (renderAll items).toList :=
    List.rdropWhile_eq_self_iff.mpr fun hne => by
      rw [last_renderAll items _ (List.getLast?_eq_getLast_of_ne_nil hne)]
      exact Bool.false_ne_true
  have hstart := trimStart_of_head (head_renderAll items)
  rw [trimStart] at hstart
  rw [Proto.Management.trim, hstart, hend, String.ofList_toList]

theorem next_behind (later : List Directive) :
    (match trimStart (behind later) with
      | ',' :: after => trimStart after
      | after => after) = (renderAll later).toList := by
  cases later with
  | nil => simp [behind, trimStart, renderAll]
  | cons following later =>
      have hcomma : trimStart (behind (following :: later)) = behind (following :: later) :=
        trimStart_of_head (by simp [behind]; decide)
      rw [hcomma]
      exact trimStart_of_head (head_renderAll _)

/-- Every directive is read, under its own name and for what its value is taken for. -/
theorem readAll_renderAll {rounds : Nat} {items : List Directive}
    (h : items.length ≤ rounds) :
    readAll rounds (renderAll items).toList =
      items.map fun directive => (directive.name, seen directive.value) := by
  induction items generalizing rounds with
  | nil => exact readAll_of_notMem (by simp [renderAll]) rounds
  | cons directive later ih =>
      obtain ⟨rounds, rfl⟩ := Nat.exists_eq_succ_of_ne_zero
        (n := rounds) (by rintro rfl; simp at h)
      have hvalue := directive.readValue_written (behind later)
        (by cases later <;> simp [behind])
      rw [toList_renderAll, readAll_succ (equals_notMem_name directive), hvalue,
        directive.name_read, next_behind, ih (by simpa using h)]
      rfl

theorem length_le_renderAll (items : List Directive) :
    items.length ≤ (renderAll items).toList.length := by
  induction items with
  | nil => exact Nat.zero_le _
  | cons directive later ih =>
      have hbehind : (renderAll later).toList.length ≤ (behind later).length := by
        cases later <;> simp [behind, renderAll]
      rw [toList_renderAll]
      simp only [List.length_append, List.length_cons]
      omega

theorem directives_render (sent : Sent) :
    directives sent.render =
      sent.items.map fun directive => (directive.name, seen directive.value) := by
  rw [directives, Sent.render, trim_renderAll, ← String.length_toList]
  exact readAll_renderAll (length_le_renderAll _)

/-! ## Values that come back -/

theorem charsFrom_ascii {ch : Char} (h : ch.toNat < 128) : charsFrom ch = [ch] := by
  have hmod : (UInt8.ofNat ch.toNat).toNat = ch.toNat := by
    rw [UInt8.toNat_ofNat', Nat.mod_eq_of_lt (by omega)]
  rw [charsFrom, utf8EncodeChar_ascii h, List.map_singleton, hmod, Char.ofNat_toNat]

theorem flatMap_charsFrom {characters : List Char} (h : ∀ ch ∈ characters, ch.toNat < 128) :
    characters.flatMap charsFrom = characters := by
  rw [List.flatMap_congr fun ch hmem => charsFrom_ascii (h ch hmem), List.flatMap_singleton']

theorem toNat_ofNat_octet (octet : UInt8) : (Char.ofNat octet.toNat).toNat = octet.toNat := by
  have hlt : octet.toNat < 256 := octet.toNat_lt
  rw [Char.ofNat, dif_pos (show octet.toNat.isValidChar from .inl (by omega))]
  rfl

/-- Characters beyond ASCII that no trimming takes away. -/
def marks (ch : Char) : Bool :=
  128 ≤ ch.toNat && !Proto.Management.isWhitespace ch

theorem countP_charsFrom_pos {ch : Char} (h : 128 ≤ ch.toNat) :
    0 < (charsFrom ch).countP marks := by
  obtain ⟨first, rest, hencode, -, hfirst, -⟩ := utf8EncodeChar_wide h
  rw [charsFrom, hencode, List.map_cons, List.countP_pos_iff]
  refine ⟨_, List.mem_cons_self, ?_⟩
  have hlt : first.toNat < 256 := first.toNat_lt
  simp [marks, Proto.Management.isWhitespace, toNat_ofNat_octet]
  omega

/-- A text has no fewer such characters when its octets are taken for characters, and if
it has no more, every character beyond ASCII is such a one and becomes a single one. -/
theorem countP_flatMap_charsFrom (characters : List Char) :
    characters.countP marks ≤ (characters.flatMap charsFrom).countP marks ∧
      ((characters.flatMap charsFrom).countP marks ≤ characters.countP marks →
        ∀ ch ∈ characters, 128 ≤ ch.toNat → marks ch ∧ (charsFrom ch).countP marks = 1) := by
  induction characters with
  | nil => simp
  | cons ch rest ih =>
      obtain ⟨hle, hequal⟩ := ih
      rw [List.countP_cons, List.flatMap_cons, List.countP_append]
      by_cases hch : 128 ≤ ch.toNat
      · have hpos := countP_charsFrom_pos hch
        refine ⟨by split <;> omega, fun hcount => List.forall_mem_cons.mpr ⟨fun _ => ?_, ?_⟩⟩
        · cases hmarks : marks ch with
          | true =>
              rw [hmarks, if_pos rfl] at hcount
              exact ⟨rfl, by omega⟩
          | false =>
              rw [hmarks, if_neg Bool.false_ne_true] at hcount
              omega
        · exact hequal (by split at hcount <;> omega)
      · have hmarks : marks ch = false := by simp [marks, hch]
        rw [charsFrom_ascii (Nat.not_le.mp hch), List.countP_singleton, hmarks,
          if_neg Bool.false_ne_true, Nat.add_zero, Nat.zero_add]
        exact ⟨hle, fun hcount =>
          List.forall_mem_cons.mpr ⟨fun hlow => absurd hlow hch, hequal hcount⟩⟩

theorem charsFrom_latin {ch : Char} (hlow : 128 ≤ ch.toNat) (hhigh : ch.toNat < 256) :
    charsFrom ch = [Char.ofNat (192 + ch.toNat / 64), Char.ofNat (128 + ch.toNat % 64)] := by
  have hnarrow : ¬ ch.val.toNat ≤ 127 := Nat.not_le.mpr hlow
  have htwo : ch.val.toNat ≤ 2047 := Nat.le_trans (Nat.le_of_lt hhigh) (by decide)
  have hlead : (ch.toNat / 64 % 32 + 192) % 256 = 192 + ch.toNat / 64 := by omega
  have hfollowing : (ch.toNat % 64 + 128) % 256 = 128 + ch.toNat % 64 := by omega
  rw [charsFrom, String.utf8EncodeChar, if_neg hnarrow, if_pos htwo, List.map_cons,
    List.map_singleton, UInt8.toNat_ofNat', UInt8.toNat_ofNat', ← hlead, ← hfollowing]
  rfl

theorem lt_of_mem_charsFrom {ch found : Char} (h : found ∈ charsFrom ch) :
    found.toNat < 256 := by
  obtain ⟨octet, -, rfl⟩ := List.mem_map.mp h
  rw [toNat_ofNat_octet]
  exact octet.toNat_lt

theorem countP_trim (characters : List Char) :
    (Proto.Management.trim (String.ofList characters)).toList.countP marks =
      characters.countP marks := by
  have hnone {taken : List Char} (h : ∀ ch ∈ taken, Proto.Management.isWhitespace ch) :
      taken.countP marks = 0 := by
    rw [List.countP_eq_zero]
    intro ch hmem
    simp [marks, h ch hmem]
  rw [Proto.Management.trim, String.toList_ofList, String.toList_ofList]
  have hstart := congrArg (List.countP marks) (List.takeWhile_append_dropWhile
    (p := Proto.Management.isWhitespace) (l := characters))
  have hend := congrArg (List.countP marks) (List.rdropWhile_append_rtakeWhile
    (p := Proto.Management.isWhitespace)
    (l := characters.dropWhile Proto.Management.isWhitespace))
  rw [List.countP_append, hnone fun ch hmem => List.mem_takeWhile_imp hmem] at hstart
  rw [List.countP_append, hnone fun ch hmem => List.mem_rtakeWhile_imp hmem] at hend
  omega

theorem mem_of_mem_trim {characters : List Char} {ch : Char}
    (h : ch ∈ (Proto.Management.trim (String.ofList characters)).toList) : ch ∈ characters := by
  rw [Proto.Management.trim, String.toList_ofList, String.toList_ofList] at h
  exact (List.dropWhile_suffix _).subset ((List.rdropWhile_prefix _ _).subset h)

/-- The leading octets of Latin characters are Latin characters that become two. -/
theorem countP_charsFrom_lead {ch : Char} (hlow : 128 ≤ ch.toNat) (hhigh : ch.toNat < 256) :
    marks (Char.ofNat (192 + ch.toNat / 64)) ∧
      (charsFrom (Char.ofNat (192 + ch.toNat / 64))).countP marks = 2 := by
  have hcases : ch.toNat / 64 = 2 ∨ ch.toNat / 64 = 3 := by omega
  obtain hquotient | hquotient := hcases <;> rw [hquotient] <;> decide

theorem ascii_of_seen {value : String} (h : seen value = value) :
    ∀ ch ∈ value.toList, ch.toNat < 128 := by
  have hcount := countP_trim (value.toList.flatMap charsFrom)
  have hmem {ch : Char} (hch : ch ∈ value.toList) : ch ∈ value.toList.flatMap charsFrom := by
    refine mem_of_mem_trim ?_
    rwa [← seen, h]
  rw [← seen, h] at hcount
  have hsingle := (countP_flatMap_charsFrom value.toList).2 hcount.ge
  intro ch hch
  by_contra hwide
  have hwide : 128 ≤ ch.toNat := Nat.not_lt.mp hwide
  obtain ⟨hmarks, hone⟩ := hsingle ch hch hwide
  obtain ⟨source, hsource, hfrom⟩ := List.mem_flatMap.mp (hmem hch)
  have hsourceWide : 128 ≤ source.toNat := by
    by_contra hnarrow
    rw [charsFrom_ascii (Nat.not_le.mp hnarrow), List.mem_singleton] at hfrom
    exact hnarrow (hfrom ▸ hwide)
  obtain ⟨-, hsourceOne⟩ := hsingle source hsource hsourceWide
  obtain ⟨_, -, hsourceFrom⟩ := List.mem_flatMap.mp (hmem hsource)
  have hsourceLow := lt_of_mem_charsFrom hsourceFrom
  obtain ⟨hlead, htwo⟩ := countP_charsFrom_lead hsourceWide hsourceLow
  rw [charsFrom_latin hsourceWide hsourceLow] at hfrom hsourceOne
  simp only [List.mem_cons, List.not_mem_nil, or_false] at hfrom
  obtain rfl | rfl := hfrom
  · omega
  · simp [hlead, hmarks] at hsourceOne

theorem seen_eq_self_iff {value : String} :
    seen value = value ↔
      (∀ ch ∈ value.toList, ch.toNat < 128) ∧ Proto.Management.trim value = value := by
  have hself (hascii : ∀ ch ∈ value.toList, ch.toNat < 128) :
      seen value = Proto.Management.trim value := by
    rw [seen, flatMap_charsFrom hascii, String.ofList_toList]
  constructor
  · intro h
    exact ⟨ascii_of_seen h, by rw [← hself (ascii_of_seen h), h]⟩
  · rintro ⟨hascii, htrim⟩
    rw [hself hascii, htrim]

theorem lastOf_items {items : List Directive} (hdistinct : (items.map Directive.name).Nodup)
    {directive : Directive} (hmem : directive ∈ items) (value : Directive → String) :
    lastOf (items.map fun directive => (directive.name, value directive)) directive.name =
      some (value directive) := by
  obtain ⟨before, after, rfl⟩ := List.append_of_mem hmem
  rw [List.map_append, List.map_cons, List.nodup_middle, List.nodup_cons,
    ← List.map_append] at hdistinct
  have hother {other : Directive} (h : other ∈ before ++ after) :
      other.name ≠ directive.name := fun heq =>
    hdistinct.1 (List.mem_map.mpr ⟨other, h, heq⟩)
  have hnone {others : List Directive} (h : ∀ other ∈ others, other ∈ before ++ after) :
      (others.map fun directive => (directive.name, value directive)).filter
        (fun field => decide (field.1 = directive.name)) = [] := by
    rw [List.filter_eq_nil_iff]
    rintro _ hfield
    obtain ⟨other, hmem, rfl⟩ := List.mem_map.mp hfield
    simpa using hother (h other hmem)
  rw [lastOf, List.map_append, List.map_cons, List.filter_append,
    hnone fun other h => List.mem_append_left _ h, List.filter_cons_of_pos (by simp),
    hnone fun other h => List.mem_append_right _ h]
  rfl

/-- The directives of a conforming peer are read as they were written exactly when their
values are of ASCII and nothing can be trimmed off them. -/
theorem reads_iff (sent : Sent) :
    ((∀ name, lastOf (directives sent.render) name = sent.valueOf name) ∧
        ∀ source, scan source = some (directives source)) ↔
      ∀ directive ∈ sent.items, (∀ ch ∈ directive.value.toList, ch.toNat < 128) ∧
        Proto.Management.trim directive.value = directive.value := by
  rw [and_iff_left scan_eq, directives_render]
  constructor
  · intro h directive hmem
    have hname := h directive.name
    rw [Sent.valueOf, lastOf_items sent.distinct hmem fun directive => seen directive.value,
      lastOf_items sent.distinct hmem Directive.value] at hname
    exact seen_eq_self_iff.mp (Option.some.inj hname)
  · intro h name
    rw [Sent.valueOf, List.map_congr_left fun directive hmem => by
      rw [seen_eq_self_iff.mpr (h directive hmem)]]

/-- A name beyond ASCII is taken for another one. -/
def accented : Sent where
  items := [⟨"username", "é", true, by decide, by decide⟩]
  distinct := by decide

theorem accented_misread :
    ¬ ∀ name, lastOf (directives accented.render) name = accented.valueOf name := by
  intro h
  have hname := h "username"
  rw [directives_render] at hname
  revert hname
  decide

/-! ## The challenge of the listener -/

theorem escapeValue_of_plain {value : String} (hbackslash : '\\' ∉ value.toList)
    (hquote : '"' ∉ value.toList) : escapeValue value = value := by
  have hplain : ∀ ch ∈ value.toList, escapeChar ch = [ch] := by
    intro ch hmem
    unfold escapeChar
    split
    · exact absurd hmem hbackslash
    · exact absurd hmem hquote
    · rfl
  rw [← String.toList_inj, toList_escapeValue, List.flatMap_congr hplain,
    List.flatMap_singleton']

/-- The directives of a challenge. -/
def challenge (realm nonce : String) : Sent where
  items :=
    [⟨"realm", realm, true, by decide, nofun⟩, ⟨"nonce", nonce, true, by decide, nofun⟩,
      ⟨"qop", "auth", true, by decide, nofun⟩,
      ⟨"charset", "utf-8", false, by decide, by decide⟩,
      ⟨"algorithm", "md5-sess", false, by decide, by decide⟩]
  distinct := by simp

theorem step_start (authenticator : Authenticator) (digests : Digests) (context : Context)
    (realm : String) (randomness : Randomness) (blob : Octets) :
    let nonce := Proto.Base64.encode randomness.octets
    DigestMd5Exchange.step authenticator digests ⟨context, realm, .start⟩ randomness blob =
      (.continues (octets (challenge realm nonce).render),
        ⟨context, realm, .challenged nonce⟩) := by
  have hnonce : escapeValue (Proto.Base64.encode randomness.octets) =
      Proto.Base64.encode randomness.octets :=
    escapeValue_of_plain
      (Proto.Base64.notMem_encode (by decide) (by decide) (by decide) _)
      (Proto.Base64.notMem_encode (by decide) (by decide) (by decide) _)
  have hqop : escapeValue "auth" = "auth" := by decide
  have hrealm : "realm=\"" = "realm" ++ ("=" ++ "\"") := by decide
  have hbetween : "\",nonce=\"" = "\"" ++ ("," ++ ("nonce" ++ ("=" ++ "\""))) := by decide
  have hend : "\",qop=\"auth\",charset=utf-8,algorithm=md5-sess" =
      "\"" ++ ("," ++ ("qop" ++ ("=" ++ ("\"" ++ ("auth" ++ ("\"" ++ ("," ++ ("charset" ++
        ("=" ++ ("utf-8" ++ ("," ++ ("algorithm" ++ ("=" ++ "md5-sess"))))))))))))) := by
    decide
  simp only [DigestMd5Exchange.step, Sent.render, challenge, renderAll, Directive.render,
    hnonce, hqop, if_true, if_neg Bool.false_ne_true, hrealm, hbetween, hend,
    String.append_assoc]

end Vortice.Sasl.Directives

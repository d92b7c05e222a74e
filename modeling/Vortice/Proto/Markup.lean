import Vortice.Foundation.Ascii
import Vortice.Proto.Xml

/-!
# Markup that the parser reads back

A parser that stands between two halves of a text goes past a piece of it.  The pieces
here are those that rendering puts together: names, attributes in single quotes, escaped
text, and elements of these.
-/

namespace Vortice.Proto.Xml

open Vortice.Foundation

/-! ## Going past a piece of text -/

/-- A parser between the two halves of a text. -/
def Parser.between (before after : String) : Parser :=
  ⟨octets before ++ octets after, (octets before).length⟩

theorem bind_ok {α β : Type} {p : ParserM α} {f : α → ParserM β} {parser later : Parser}
    {a : α} (h : p parser = .ok a later) : (p >>= f) parser = f a later := by
  change EStateM.bind p f parser = _
  rw [EStateM.bind, h]

theorem get_bind {β : Type} (f : Parser → ParserM β) (parser : Parser) :
    (get >>= f) parser = f parser parser := rfl

theorem lift_bind {α β : Type} (value : α) (f : α → ParserM β) (parser : Parser) :
    (lift (.ok value) >>= f) parser = f value parser := rfl

/-- Whatever is before, the computation goes past `piece` in front of `after`. -/
def Reads {α : Type} (p : ParserM α) (piece : String) (result : α) (after : String) : Prop :=
  ∀ before, p (.between before (piece ++ after)) =
    .ok result (.between (before ++ piece) after)

theorem Reads.pure {α : Type} (result : α) (after : String) :
    Reads (pure result) "" result after := by
  intro before
  rw [String.empty_append, String.append_empty]
  rfl

theorem Reads.bind {α β : Type} {p : ParserM α} {f : α → ParserM β}
    {first second after : String} {a : α} {b : β} (hp : Reads p first a (second ++ after))
    (hf : Reads (f a) second b after) : Reads (p >>= f) (first ++ second) b after := by
  intro before
  have hfirst := hp before
  have hsecond := hf (before ++ first)
  rw [← String.append_assoc] at hfirst
  rw [String.append_assoc] at hsecond
  rw [bind_ok hfirst]
  exact hsecond

theorem Reads.bind_stay {α β : Type} {p : ParserM α} {f : α → ParserM β}
    {piece after : String} {a : α} {b : β} (hp : Reads p "" a (piece ++ after))
    (hf : Reads (f a) piece b after) : Reads (p >>= f) piece b after := by
  simpa using hp.bind hf

theorem drop_between (before after : String) :
    (Parser.between before after).src.drop (Parser.between before after).i = octets after := by
  rw [Parser.between, List.drop_left]

theorem between_append (before piece after : String) :
    Parser.between (before ++ piece) after =
      { Parser.between before (piece ++ after) with
        i := (Parser.between before (piece ++ after)).i + (octets piece).length } := by
  simp [Parser.between]

theorem peek_between (before after : String) :
    peek (.between before after) = .ok (octets after).head? (.between before after) := by
  have hget : (octets before ++ octets after)[(octets before).length]? =
      (octets after).head? := by
    rw [List.getElem?_append_right (Nat.le_refl _), Nat.sub_self, List.head?_eq_getElem?]
  rw [← hget]
  rfl

theorem reads_peek (after : String) : Reads peek "" (octets after).head? after := by
  intro before
  rw [String.empty_append, String.append_empty]
  exact peek_between before after

theorem remaining_between (before after : String) :
    remaining (.between before after) = .ok (octets after) (.between before after) := by
  have hle : (Parser.between before after).i ≤ (Parser.between before after).src.length := by
    simp [Parser.between]
  rw [← drop_between before after]
  change (if _ then (Pure.pure _ : ParserM Octets) else throw _) _ = _
  rw [if_pos hle]
  rfl

theorem startsWith_between (pat : Octets) (before after : String) :
    startsWith pat (.between before after) =
      .ok (pat.isPrefixOf (octets after)) (.between before after) := by
  rw [startsWith, bind_ok (remaining_between before after)]
  rfl

theorem reads_startsWith (pat : Octets) (after : String) :
    Reads (startsWith pat) "" (pat.isPrefixOf (octets after)) after := by
  intro before
  rw [String.empty_append, String.append_empty]
  exact startsWith_between pat before after

theorem reads_advance (piece : String) {count : Nat} (hcount : (octets piece).length = count)
    (after : String) : Reads (advance count) piece () after := by
  intro before
  rw [between_append, hcount]
  rfl

theorem reads_advanceWhile {p : UInt8 → Bool} (piece after : String)
    (hpiece : ∀ octet ∈ octets piece, p octet)
    (hafter : ∀ octet ∈ (octets after).head?, p octet = false) :
    Reads (advanceWhile p) piece () after := by
  intro before
  have htake : (octets (piece ++ after)).takeWhile p = octets piece := by
    rw [octets_append, List.takeWhile_append_of_pos hpiece]
    cases hoctets : octets after with
    | nil => simp
    | cons octet rest =>
        rw [List.takeWhile_cons_of_neg (by simp [hafter octet (by simp [hoctets])]),
          List.append_nil]
  rw [between_append]
  change EStateM.Result.ok _ _ = _
  dsimp only
  rw [drop_between, htake]

theorem cut_between (before piece after : String) :
    cut (octets before ++ octets (piece ++ after)) (octets before).length
      ((octets before).length + (octets piece).length) = .ok piece := by
  rw [cut, octets_append, slice_append]

theorem cutFrom_between (before piece after : String) :
    cutFrom (octets before).length (.between (before ++ piece) after) =
      .ok piece (.between (before ++ piece) after) := by
  have hcut : cut (octets (before ++ piece) ++ octets after) (octets before).length
      (octets (before ++ piece)).length = .ok piece := by
    simpa only [octets_append, List.append_assoc, List.length_append] using
      cut_between before piece after
  change (lift (cut _ _ _)) _ = _
  dsimp only [Parser.between]
  rw [hcut]
  rfl

theorem reads_expect (piece : String) {octet : UInt8} (h : octets piece = [octet])
    (reason after : String) : Reads (expect octet reason) piece () after := by
  refine (reads_peek (piece ++ after)).bind_stay ?_
  rw [octets_append, h, List.singleton_append, List.head?_cons, if_pos rfl]
  exact reads_advance piece (by rw [h]; rfl) after

theorem reads_skipWs {piece after : String} (hpiece : ∀ octet ∈ octets piece, isWs octet)
    (hafter : ∀ octet ∈ (octets after).head?, isWs octet = false) :
    Reads skipWs piece () after :=
  reads_advanceWhile _ _ hpiece hafter

theorem reads_skipWs_none (after : String)
    (hafter : ∀ octet ∈ (octets after).head?, isWs octet = false) :
    Reads skipWs "" () after :=
  reads_skipWs nofun hafter

/-- What a name may consist of. -/
def IsName (name : String) : Prop := name ≠ "" ∧ ∀ octet ∈ octets name, endsName octet = false

theorem reads_readName {name : String} (hname : IsName name) (after : String)
    (hafter : ∀ octet ∈ (octets after).head?, endsName octet) :
    Reads readName name name after := by
  intro before
  have hwalk := reads_advanceWhile (p := (!endsName ·)) name after
    (fun octet hmem => by rw [hname.2 octet hmem]; rfl)
    (fun octet hmem => by rw [hafter octet hmem]; rfl) before
  have hmoved : (Parser.between before (name ++ after)).i ≠
      (Parser.between (before ++ name) after).i := by
    have hlength : (octets name).length ≠ 0 := by
      rw [ne_eq, List.length_eq_zero_iff]
      exact fun h => hname.1 (octets_injective h)
    simp only [Parser.between, octets_append, List.length_append]
    omega
  rw [readName, get_bind, bind_ok hwalk, get_bind, if_neg hmoved]
  exact cutFrom_between before name after

/-! ## Escaping and its inverse -/

/-- The characters that are escaped. -/
def special : List Char := ['&', '<', '>', '\'', '"']

theorem escapeChar_plain {ch : Char} (h : ch ∉ special) : escapeChar ch = [ch] := by
  simp only [special, List.mem_cons, List.not_mem_nil, or_false, not_or] at h
  obtain ⟨hampersand, hless, hgreater, happostrophe, hquote⟩ := h
  unfold escapeChar
  split <;> first | contradiction | rfl

theorem flatMap_escapeChar {characters : List Char} (h : ∀ ch ∈ characters, ch ∉ special) :
    characters.flatMap escapeChar = characters := by
  rw [List.flatMap_congr fun ch hmem => escapeChar_plain (h ch hmem), List.flatMap_singleton']

theorem exists_first_special {characters : List Char}
    (h : ¬ ∀ ch ∈ characters, ch ∉ special) :
    ∃ plain ch rest, characters = plain ++ ch :: rest ∧ ch ∈ special ∧
      ∀ ch ∈ plain, ch ∉ special := by
  induction characters with
  | nil => exact absurd (fun ch hmem => by cases hmem) h
  | cons first rest ih =>
      by_cases hfirst : first ∈ special
      · exact ⟨[], first, rest, rfl, hfirst, nofun⟩
      · obtain ⟨plain, ch, behind, rfl, hch, hplain⟩ := ih fun hrest =>
          h (List.forall_mem_cons.mpr ⟨hfirst, hrest⟩)
        exact ⟨first :: plain, ch, behind, rfl, hch,
          List.forall_mem_cons.mpr ⟨hfirst, hplain⟩⟩

theorem escapeChar_ne_nil (ch : Char) : escapeChar ch ≠ [] := by
  unfold escapeChar
  split <;> simp

theorem escape_ne_empty {value : String} (h : value ≠ "") : escape value ≠ "" := by
  obtain ⟨ch, rest, hvalue⟩ : ∃ ch rest, value.toList = ch :: rest :=
    List.exists_cons_of_ne_nil fun hnil => h (String.toList_eq_nil_iff.mp hnil)
  intro hempty
  have hnil := congrArg String.toList hempty
  rw [escape, String.toList_ofList, hvalue, List.flatMap_cons, String.toList_empty,
    List.append_eq_nil_iff] at hnil
  exact escapeChar_ne_nil ch hnil.1

theorem escapeChar_special {ch : Char} (h : ch ∈ special) :
    ∃ name, escapeChar ch = ("&" ++ (name ++ ";")).toList ∧ decodeEntity name = .ok ch ∧
      59 ∉ octets name ∧ (octets name).length ≤ 4 := by
  simp only [special, List.mem_cons, List.not_mem_nil, or_false] at h
  obtain rfl | rfl | rfl | rfl | rfl := h
  · exact ⟨"amp", by decide⟩
  · exact ⟨"lt", by decide⟩
  · exact ⟨"gt", by decide⟩
  · exact ⟨"apos", by decide⟩
  · exact ⟨"quot", by decide⟩

theorem cut_front (value after : String) :
    cut (octets (value ++ after)) 0 (octets value).length = .ok value := by
  have hcut := cut_between "" value after
  simpa using hcut

theorem cut_back (before value : String) :
    cut (octets (before ++ value)) (octets before).length (octets (before ++ value)).length =
      .ok value := by
  have hcut := cut_between before value ""
  simpa using hcut

theorem except_ok_bind {α β : Type} (value : α) (f : α → Except Fault β) :
    (Except.ok value >>= f) = f value := rfl

theorem decodeEntitiesLoop_ampersand {plain : String} (hplain : '&' ∉ plain.toList)
    (fuel : Nat) (tail out : String) :
    decodeEntitiesLoop (fuel + 1) (plain ++ ("&" ++ tail)) out =
      (match find ((octets tail).take maxEntityLen) 59 with
      | none => .error (malformed "unterminated entity reference")
      | some end' => do
          let name ← cut (octets tail) 0 end'
          let ch ← decodeEntity name
          let rest ← cut (octets tail) (end' + 1) (octets tail).length
          decodeEntitiesLoop fuel rest (out ++ plain ++ ch.toString)) := by
  have hfind : find (octets (plain ++ ("&" ++ tail))) 38 = some (octets plain).length := by
    rw [octets_append, octets_append]
    exact find_append_cons (notMem_octets (by decide : ('&').toNat < 128) hplain)
  have hone : (octets "&").length = 1 := rfl
  have htail := cut_back (plain ++ "&") tail
  rw [String.append_assoc, octets_append plain "&", List.length_append, hone] at htail
  have hround := decodeEntitiesLoop.eq_2 (plain ++ ("&" ++ tail)) out fuel
  rw [hfind] at hround
  simp only [bind, Except.bind, cut_front, htail] at hround
  exact hround

theorem decodeEntitiesLoop_named {plain name : String} (hplain : '&' ∉ plain.toList)
    (hname : 59 ∉ octets name) (hlength : (octets name).length < maxEntityLen) (fuel : Nat)
    (rest out : String) :
    decodeEntitiesLoop (fuel + 1) (plain ++ ("&" ++ (name ++ (";" ++ rest)))) out =
      (decodeEntity name >>= fun ch =>
        decodeEntitiesLoop fuel rest (out ++ plain ++ ch.toString)) := by
  have hend : find ((octets (name ++ (";" ++ rest))).take maxEntityLen) 59 =
      some (octets name).length := by
    have htake : (octets (name ++ (";" ++ rest))).take maxEntityLen =
        octets name ++ 59 :: (octets rest).take (maxEntityLen - (octets name).length - 1) := by
      rw [octets_append, octets_append, List.take_append,
        List.take_of_length_le (Nat.le_of_lt hlength), show octets ";" = [59] from rfl,
        List.singleton_append, ← Nat.succ_pred_eq_of_pos (Nat.sub_pos_of_lt hlength),
        List.take_succ_cons]
      rfl
    rw [htake]
    exact find_append_cons hname
  have hone : (octets ";").length = 1 := rfl
  have hrest := cut_back (name ++ ";") rest
  rw [String.append_assoc, octets_append name ";", List.length_append, hone] at hrest
  rw [decodeEntitiesLoop_ampersand hplain, hend]
  simp only [bind, Except.bind, cut_front, hrest]

theorem decodeEntitiesLoop_plain {rest : String} (h : '&' ∉ rest.toList) (fuel : Nat)
    (out : String) : decodeEntitiesLoop (fuel + 1) rest out = .ok (out ++ rest) := by
  have hfind : find (octets rest) 38 = none :=
    find_eq_none.mpr (notMem_octets (by decide : ('&').toNat < 128) h)
  rw [decodeEntitiesLoop, hfind]

theorem decodeEntitiesLoop_escape {fuel : Nat} {characters : List Char}
    (h : characters.length < fuel) (out : String) :
    decodeEntitiesLoop fuel (String.ofList (characters.flatMap escapeChar)) out =
      .ok (out ++ String.ofList characters) := by
  induction fuel generalizing characters out with
  | zero => omega
  | succ fuel ih =>
      by_cases hnone : ∀ ch ∈ characters, ch ∉ special
      · rw [flatMap_escapeChar hnone]
        have hampersand : '&' ∉ (String.ofList characters).toList := by
          rw [String.toList_ofList]
          exact fun hmem => hnone _ hmem (by decide)
        exact decodeEntitiesLoop_plain hampersand fuel out
      obtain ⟨plain, ch, rest, rfl, hch, hplain⟩ := exists_first_special hnone
      obtain ⟨name, hescape, hdecode, hname, hlength⟩ := escapeChar_special hch
      have hampersand : '&' ∉ (String.ofList plain).toList := by
        rw [String.toList_ofList]
        exact fun hmem => hplain _ hmem (by decide)
      have hsource : String.ofList ((plain ++ ch :: rest).flatMap escapeChar) =
          String.ofList plain ++ ("&" ++ (name ++ (";" ++
            String.ofList (rest.flatMap escapeChar)))) := by
        rw [List.flatMap_append, List.flatMap_cons, flatMap_escapeChar hplain, hescape]
        simp
      have hshort : (octets name).length < maxEntityLen := Nat.lt_of_le_of_lt hlength (by decide)
      rw [hsource, decodeEntitiesLoop_named hampersand hname hshort, hdecode, except_ok_bind, ih]
      · simp [← String.toList_inj, Char.toString]
      · rw [List.length_append, List.length_cons] at h
        omega

theorem length_le_octets (characters : List Char) :
    characters.length ≤ (octets (String.ofList (characters.flatMap escapeChar))).length := by
  rw [octets_ofList]
  induction characters with
  | nil => exact Nat.zero_le _
  | cons ch rest ih =>
      have hch : 0 < ((escapeChar ch).flatMap String.utf8EncodeChar).length := by
        obtain ⟨first, more, hescape⟩ := List.exists_cons_of_ne_nil (escapeChar_ne_nil ch)
        rw [hescape, List.flatMap_cons, List.length_append]
        exact Nat.add_pos_left
          (List.length_pos_of_ne_nil String.utf8EncodeChar_ne_nil) _
      rw [List.flatMap_cons, List.flatMap_append, List.length_append, List.length_cons]
      omega

theorem decodeEntities_eq (raw : String) :
    decodeEntities raw = decodeEntitiesLoop ((octets raw).length + 1) raw "" := by
  rw [decodeEntities]
  split
  · rename_i hnone
    rw [decodeEntitiesLoop, hnone, String.empty_append]
  · rfl

theorem decodeEntities_escape (value : String) :
    decodeEntities (escape value) = .ok value := by
  have hloop := decodeEntitiesLoop_escape
    (Nat.lt_succ_of_le (length_le_octets value.toList)) ""
  rw [String.ofList_toList, String.empty_append] at hloop
  rw [decodeEntities_eq]
  exact hloop

/-! ## Attributes -/

theorem notMem_escape {ch : Char} (hch : ch ∈ special) (hampersand : ch ≠ '&')
    (value : String) : ch ∉ (escape value).toList := by
  rw [escape, String.toList_ofList, List.mem_flatMap]
  rintro ⟨source, -, hmem⟩
  by_cases hsource : source ∈ special
  · simp only [special, List.mem_cons, List.not_mem_nil, or_false] at hch hsource
    revert hmem
    obtain rfl | rfl | rfl | rfl | rfl := hch
    · exact absurd rfl hampersand
    all_goals obtain rfl | rfl | rfl | rfl | rfl := hsource <;> decide
  · rw [escapeChar_plain hsource, List.mem_singleton] at hmem
    exact hsource (hmem ▸ hch)

theorem octets_toString {ch : Char} (h : ch.toNat < 128) :
    octets ch.toString = [UInt8.ofNat ch.toNat] := by
  rw [octets_eq_flatMap, Char.toString, String.toList_singleton, List.flatMap_singleton,
    utf8EncodeChar_ascii h]

/-- What may stand around a value. -/
def IsQuote (quote : Char) : Prop := quote = '\'' ∨ quote = '"'

theorem readAttrValue_eq {quote : Char} (hquote : IsQuote quote) {raw : String}
    (hraw : quote ∉ raw.toList) (before after : String) :
    readAttrValue (.between before (quote.toString ++ (raw ++ (quote.toString ++ after)))) =
      lift (decodeEntities raw)
        (.between (before ++ quote.toString ++ raw ++ quote.toString) after) := by
  have hascii : quote.toNat < 128 := by
    obtain rfl | rfl := hquote <;> decide
  have hoctets := octets_toString hascii
  have hoctet : UInt8.ofNat quote.toNat = 34 ∨ UInt8.ofNat quote.toNat = 39 := by
    obtain rfl | rfl := hquote
    · exact .inr rfl
    · exact .inl rfl
  have hnot := notMem_octets hascii hraw
  have hone : (octets quote.toString).length = 1 := by
    rw [hoctets]
    rfl
  generalize UInt8.ofNat quote.toNat = octet at hoctets hoctet hnot
  have hhead (rest : String) : (octets (quote.toString ++ rest)).head? = some octet := by
    rw [octets_append, hoctets]
    rfl
  have hopen := reads_advance quote.toString hone (raw ++ (quote.toString ++ after)) before
  have hwalk := reads_advanceWhile (p := fun found => decide (found ≠ octet)) raw
    (quote.toString ++ after)
    (by
      intro found hmem
      refine decide_eq_true ?_
      rintro rfl
      exact hnot hmem)
    (by
      rw [hhead]
      rintro _ ⟨⟩
      exact decide_eq_false (fun h => h rfl)) (before ++ quote.toString)
  have hpeek := peek_between (before ++ quote.toString ++ raw) (quote.toString ++ after)
  have hcut := cutFrom_between (before ++ quote.toString) raw (quote.toString ++ after)
  have hclose := reads_advance quote.toString hone after (before ++ quote.toString ++ raw)
  rw [readAttrValue, bind_ok (peek_between _ _), hhead]
  dsimp only
  rw [if_pos hoctet, bind_ok hopen, get_bind, bind_ok hwalk, bind_ok hpeek, if_pos (hhead after)]
  change (cutFrom (octets (before ++ quote.toString)).length >>= _) _ = _
  rw [bind_ok hcut, bind_ok hclose]

theorem reads_readAttrValue {quote : Char} (hquote : IsQuote quote) {raw value : String}
    (hraw : quote ∉ raw.toList) (hdecode : decodeEntities raw = .ok value) (after : String) :
    Reads readAttrValue (quote.toString ++ (raw ++ quote.toString)) value after := by
  intro before
  have hread := readAttrValue_eq hquote hraw before after
  rw [String.append_assoc, String.append_assoc, hread, hdecode]
  simp only [String.append_assoc]
  rfl

/-- Attributes as they are rendered. -/
def writeAttrs : List (String × String) → String
  | [] => ""
  | (name, value) :: later =>
      " " ++ (name ++ ("='" ++ (escape value ++ ("'" ++ writeAttrs later))))

theorem IsName.head {name : String} (hname : IsName name) (after : String) :
    ∃ octet, (octets (name ++ after)).head? = some octet ∧ endsName octet = false := by
  obtain ⟨octet, rest, hoctets⟩ : ∃ octet rest, octets name = octet :: rest :=
    List.exists_cons_of_ne_nil fun h => hname.1 (octets_injective h)
  exact ⟨octet, by rw [octets_append, hoctets]; rfl,
    hname.2 octet (hoctets ▸ List.mem_cons_self)⟩

theorem isWs_of_not_endsName {octet : UInt8} (h : endsName octet = false) :
    isWs octet = false := by
  cases hws : isWs octet with
  | true =>
      rw [endsName, hws] at h
      cases h
  | false => rfl

theorem endsName_of_isWs {octet : UInt8} (h : isWs octet) : endsName octet := by
  rw [endsName, h]
  rfl

/-- Nothing but white space. -/
def IsSpace (source : String) : Prop := ∀ octet ∈ octets source, isWs octet

theorem isSpace_empty : IsSpace "" := nofun

theorem IsSpace.ends {space after : String} (hspace : IsSpace space)
    (hafter : ∀ octet ∈ (octets after).head?, endsName octet) :
    ∀ octet ∈ (octets (space ++ after)).head?, endsName octet := by
  rw [octets_append, List.head?_append]
  cases hoctets : octets space with
  | nil => simpa using hafter
  | cons octet rest =>
      rintro _ ⟨⟩
      exact endsName_of_isWs (hspace octet (hoctets ▸ List.mem_cons_self))

theorem parseAttrs_cons {space name before behind raw value rest after : String} {quote : Char}
    (hspace : IsSpace space) (hname : IsName name) (hbefore : IsSpace before)
    (hbehind : IsSpace behind) (hquote : IsQuote quote) (hraw : quote ∉ raw.toList)
    (hdecode : decodeEntities raw = .ok value) {fuel : Nat}
    {attrs : List (String × String)} {result : List (String × String) × Bool}
    (hrest : Reads (parseAttrs fuel (attrs ++ [(name, value)])) rest result after) :
    Reads (parseAttrs (fuel + 1) attrs)
      (space ++ (name ++ (before ++ ("=" ++ (behind ++
        (quote.toString ++ (raw ++ quote.toString) ++ rest)))))) result after := by
  obtain ⟨octet, hhead, hoctet⟩ := hname.head (before ++ ("=" ++ (behind ++
    (quote.toString ++ (raw ++ quote.toString) ++ rest))) ++ after)
  rw [parseAttrs]
  refine (reads_skipWs hspace ?_).bind ?_
  · rw [String.append_assoc, hhead]
    rintro _ ⟨⟩
    exact isWs_of_not_endsName hoctet
  refine (reads_peek _).bind_stay ?_
  rw [String.append_assoc, hhead]
  split
  · rename_i h
    cases h
    exact absurd hoctet (by decide)
  · rename_i h
    cases h
    exact absurd hoctet (by decide)
  · refine (reads_readName hname _ ?_).bind ?_
    · rw [String.append_assoc]
      refine hbefore.ends ?_
      rw [String.append_assoc, octets_append]
      rintro _ ⟨⟩
      decide
    refine (reads_skipWs hbefore ?_).bind ?_
    · rw [String.append_assoc, octets_append]
      rintro _ ⟨⟩
      decide
    refine (reads_expect "=" rfl _ _).bind ?_
    refine (reads_skipWs hbehind ?_).bind ?_
    · rw [String.append_assoc, String.append_assoc, octets_append]
      obtain rfl | rfl := hquote <;> rintro _ ⟨⟩ <;> decide
    exact (reads_readAttrValue hquote hraw hdecode _).bind hrest
  · rename_i h
    cases h

theorem reads_parseAttrs {attrs : List (String × String)}
    (hnames : ∀ attr ∈ attrs, IsName attr.1) {close after : String} {empty : Bool}
    (hclose : ∀ fuel found, Reads (parseAttrs (fuel + 1) found) close (found, empty) after)
    {fuel : Nat} (hfuel : attrs.length < fuel) (found : List (String × String)) :
    Reads (parseAttrs fuel found) (writeAttrs attrs ++ close) (found ++ attrs, empty) after := by
  induction attrs generalizing fuel found with
  | nil =>
      obtain ⟨fuel, rfl⟩ := Nat.exists_eq_succ_of_ne_zero (n := fuel) (by omega)
      rw [writeAttrs, String.empty_append, List.append_nil]
      exact hclose fuel found
  | cons attr later ih =>
      obtain ⟨fuel, rfl⟩ := Nat.exists_eq_succ_of_ne_zero (n := fuel) (by omega)
      obtain ⟨hname, hlater⟩ := List.forall_mem_cons.mp hnames
      have hrest := ih hlater (Nat.lt_of_succ_lt_succ hfuel) (found ++ [attr])
      have hspace : IsSpace " " := by
        unfold IsSpace
        decide
      have hread := parseAttrs_cons hspace hname isSpace_empty isSpace_empty
        (.inl rfl : IsQuote '\'') (notMem_escape (by decide) (by decide) attr.2)
        (decodeEntities_escape attr.2) hrest
      have hequals : "='" = "=" ++ '\''.toString := by decide
      have hquote : "'" = '\''.toString := by decide
      have happend : found ++ [attr] ++ later = found ++ attr :: later := by simp
      rw [happend] at hread
      rw [writeAttrs, hequals, hquote]
      simpa only [String.append_assoc, String.empty_append] using hread

theorem reads_parseAttrs_open (after : String) (fuel : Nat)
    (found : List (String × String)) :
    Reads (parseAttrs (fuel + 1) found) ">" (found, false) after := by
  rw [parseAttrs, ← String.append_empty (s := ">")]
  refine (reads_skipWs_none _ ?_).bind_stay ?_
  · rw [String.append_assoc, octets_append]
    rintro _ ⟨⟩
    decide
  refine (reads_peek _).bind_stay ?_
  rw [String.append_assoc, octets_append]
  exact (reads_advance ">" rfl _).bind (.pure _ _)

theorem reads_parseAttrs_empty (after : String) (fuel : Nat)
    (found : List (String × String)) :
    Reads (parseAttrs (fuel + 1) found) " />" (found, true) after := by
  rw [parseAttrs]
  have hclose : " />" = " " ++ ("/" ++ (">" ++ "")) := by decide
  rw [hclose]
  refine (reads_skipWs (by decide : ∀ octet ∈ octets " ", isWs octet) ?_).bind ?_
  · rw [String.append_assoc, octets_append]
    rintro _ ⟨⟩
    decide
  refine (reads_peek _).bind_stay ?_
  rw [String.append_assoc, octets_append]
  exact (reads_advance "/" rfl _).bind
    ((reads_expect ">" rfl _ _).bind (.pure _ _))

/-! ## Elements -/

theorem writeAttrs_append (first second : List (String × String)) :
    writeAttrs (first ++ second) = writeAttrs first ++ writeAttrs second := by
  induction first with
  | nil => rw [writeAttrs, List.nil_append, String.empty_append]
  | cons attr first ih => simp [writeAttrs, ih, String.append_assoc]

theorem length_writeAttrs (attrs : List (String × String)) :
    attrs.length ≤ (octets (writeAttrs attrs)).length := by
  induction attrs with
  | nil => exact Nat.zero_le _
  | cons attr later ih =>
      have hspace : (octets " ").length = 1 := rfl
      simp only [writeAttrs, octets_append, List.length_append, List.length_cons, hspace]
      omega

theorem head_writeAttrs (attrs : List (String × String)) {close : String}
    (hclose : ∀ octet ∈ (octets close).head?, endsName octet) :
    ∀ octet ∈ (octets (writeAttrs attrs ++ close)).head?, endsName octet := by
  cases attrs with
  | nil => rwa [writeAttrs, String.empty_append]
  | cons attr later =>
      rw [writeAttrs, String.append_assoc, octets_append]
      rintro _ ⟨⟩
      decide

theorem reads_parseElement_tag {name tag content after : String} (hname : IsName name)
    {fuel levels : Nat} {attrs : List (String × String)} {empty : Bool} {element : Element}
    (hhead : ∀ octet ∈ (octets (tag ++ content ++ after)).head?, endsName octet)
    (hattrs : Reads (parseAttrs fuel []) tag (attrs, empty) (content ++ after))
    (hcontent : Reads (if empty then pure { name, attrs, children := [], text := "" }
      else parseContent (parseElement fuel levels) fuel
        { name, attrs, children := [], text := "" }) content element after) :
    Reads (parseElement fuel (levels + 1)) ("<" ++ (name ++ (tag ++ content))) element
      after := by
  rw [parseElement]
  refine (reads_expect "<" rfl _ _).bind ?_
  refine (reads_readName hname _ hhead).bind ?_
  exact hattrs.bind hcontent

theorem reads_parseElement {name : String} (hname : IsName name)
    {attrs : List (String × String)} (hnames : ∀ attr ∈ attrs, IsName attr.1) {fuel : Nat}
    (hfuel : attrs.length < fuel) (levels : Nat) (close content after : String)
    {empty : Bool} {element : Element}
    (hhead : ∀ octet ∈ (octets (close ++ (content ++ after))).head?, endsName octet)
    (hclose : ∀ fuel found, Reads (parseAttrs (fuel + 1) found) close (found, empty)
      (content ++ after))
    (hcontent : Reads (if empty then pure { name, attrs, children := [], text := "" }
      else parseContent (parseElement fuel levels) fuel
        { name, attrs, children := [], text := "" }) content element after) :
    Reads (parseElement fuel (levels + 1))
      ("<" ++ (name ++ (writeAttrs attrs ++ close ++ content))) element after := by
  refine reads_parseElement_tag hname ?_ (reads_parseAttrs hnames hclose hfuel []) hcontent
  rw [String.append_assoc, String.append_assoc]
  exact head_writeAttrs attrs hhead

theorem reads_parseElement_empty {name : String} (hname : IsName name)
    {attrs : List (String × String)} (hnames : ∀ attr ∈ attrs, IsName attr.1) {fuel : Nat}
    (hfuel : attrs.length < fuel) (levels : Nat) (after : String) :
    Reads (parseElement fuel (levels + 1)) ("<" ++ (name ++ (writeAttrs attrs ++ " />")))
      { name, attrs, children := [], text := "" } after := by
  have hread := reads_parseElement hname hnames hfuel levels " />" "" after
    (by rw [octets_append]; rintro _ ⟨⟩; decide)
    (reads_parseAttrs_empty _) (.pure _ _)
  rwa [String.append_empty] at hread

theorem reads_parseElement_open {name : String} (hname : IsName name)
    {attrs : List (String × String)} (hnames : ∀ attr ∈ attrs, IsName attr.1) {fuel : Nat}
    (hfuel : attrs.length < fuel) {levels : Nat} {content after : String}
    {element : Element}
    (hcontent : Reads (parseContent (parseElement fuel levels) fuel
      { name, attrs, children := [], text := "" }) content element after) :
    Reads (parseElement fuel (levels + 1))
      ("<" ++ (name ++ (writeAttrs attrs ++ (">" ++ content)))) element after := by
  have hread := reads_parseElement hname hnames hfuel levels ">" content after
    (by rw [octets_append]; rintro _ ⟨⟩; decide)
    (reads_parseAttrs_open _) hcontent
  rwa [String.append_assoc] at hread

theorem parseContent_endTag {child : ParserM Element} {element : Element} {name space : String}
    (hname : IsName name) (hspace : IsSpace space) (fuel : Nat) (before after : String) :
    parseContent child (fuel + 1) element
        (.between before ("</" ++ (name ++ (space ++ (">" ++ after))))) =
      (if name ≠ element.name then fail "end tag does not match its start tag"
        else return element : ParserM Element)
        (.between (before ++ "</" ++ name ++ space ++ ">") after) := by
  have hstart : (octets "</").isPrefixOf
      (octets ("</" ++ (name ++ (space ++ (">" ++ after))))) := by
    rw [octets_append, List.isPrefixOf_iff_prefix]
    exact List.prefix_append _ _
  have hgreater : ∀ octet ∈ (octets (">" ++ after)).head?, octet = 62 := by
    rw [octets_append]
    rintro _ ⟨⟩
    rfl
  have hadvance := reads_advance "</" (by rfl : _ = 2) (name ++ (space ++ (">" ++ after))) before
  have hread := reads_readName hname (space ++ (">" ++ after))
    (hspace.ends fun octet hmem => by rw [hgreater octet hmem]; decide) (before ++ "</")
  have hspaces := reads_skipWs hspace
    (fun octet hmem => by rw [hgreater octet hmem]; decide) (before ++ "</" ++ name)
  have hexpect := reads_expect ">" (by rfl : octets ">" = [62])
    "expected '>' closing an end tag" after
    (before ++ "</" ++ name ++ space)
  rw [parseContent, bind_ok (startsWith_between _ _ _), hstart, if_pos rfl, bind_ok hadvance,
    bind_ok hread, bind_ok hspaces, bind_ok hexpect]

theorem parseContent_closing (child : ParserM Element) (element : Element)
    (hname : IsName element.name) {space : String} (hspace : IsSpace space) (fuel : Nat)
    (after : String) :
    Reads (parseContent child (fuel + 1) element)
      ("</" ++ (element.name ++ (space ++ ">"))) element after := by
  intro before
  rw [String.append_assoc, String.append_assoc, String.append_assoc,
    parseContent_endTag hname hspace, if_neg (by simp)]
  simp only [String.append_assoc]
  rfl

theorem parseContent_close (child : ParserM Element) (element : Element)
    (hname : IsName element.name) (fuel : Nat) (after : String) :
    Reads (parseContent child (fuel + 1) element) ("</" ++ (element.name ++ ">")) element
      after := by
  have hread := parseContent_closing child element hname isSpace_empty fuel after
  rwa [String.empty_append] at hread

/-- Neither an end tag nor a comment nor a character data section. -/
def Plain (source : String) : Prop :=
  (octets "</").isPrefixOf (octets source) = false ∧
    (octets "<!--").isPrefixOf (octets source) = false ∧
    cdataOpen.isPrefixOf (octets source) = false

theorem parseContent_plain {child : ParserM Element} {element : Element} {fuel : Nat}
    {source : String} (hplain : Plain source) (before : String) :
    parseContent child (fuel + 1) element (.between before source) =
      (do
        match ← peek with
        | some 60 =>
            let found ← child
            parseContent child fuel
              { element with children := element.children ++ [found] }
        | some _ =>
            let start := (← get).i
            advanceWhile (· ≠ 60)
            let raw ← cutFrom start
            let text ← lift (decodeEntities raw)
            parseContent child fuel { element with text := element.text ++ text }
        | none => fail "unterminated element content" : ParserM Element)
        (.between before source) := by
  obtain ⟨hend, hcomment, hcdata⟩ := hplain
  have hstarts (pat : Octets) := startsWith_between pat before source
  have hround := congrFun (parseContent.eq_2 child element fuel) (.between before source)
  rw [bind_ok (hstarts _), hend, if_neg Bool.false_ne_true, bind_ok (hstarts _), hcomment,
    if_neg Bool.false_ne_true, bind_ok (hstarts _), hcdata, if_neg Bool.false_ne_true] at hround
  exact hround

theorem parseContent_run {child : ParserM Element} {element : Element} {fuel : Nat}
    {raw value rest : String} (hraw : raw ≠ "") (hless : 60 ∉ octets raw)
    (hdecode : decodeEntities raw = .ok value) (hnext : (octets rest).head? = some 60)
    (before : String) :
    parseContent child (fuel + 1) element (.between before (raw ++ rest)) =
      parseContent child fuel { element with text := element.text ++ value }
        (.between (before ++ raw) rest) := by
  obtain ⟨octet, tail, hoctets⟩ : ∃ octet tail, octets raw = octet :: tail :=
    List.exists_cons_of_ne_nil fun h => hraw (octets_injective h)
  have hoctet : octet ≠ 60 := by
    rintro rfl
    exact hless (hoctets ▸ List.mem_cons_self)
  have hsource : octets (raw ++ rest) = octet :: (tail ++ octets rest) := by
    rw [octets_append, hoctets]
    rfl
  have hplain : Plain (raw ++ rest) := by
    have hstarts : octets "</" = [60, 47] ∧ octets "<!--" = [60, 33, 45, 45] ∧
        cdataOpen = [60, 33, 91, 67, 68, 65, 84, 65, 91] := ⟨rfl, rfl, rfl⟩
    rw [Plain, hsource, hstarts.1, hstarts.2.1, hstarts.2.2]
    simp [List.isPrefixOf, Ne.symm hoctet]
  have hpeek := peek_between before (raw ++ rest)
  rw [hsource, List.head?_cons] at hpeek
  obtain ⟨seen, hseen⟩ : ∃ seen, seen = some octet := ⟨_, rfl⟩
  rw [← hseen] at hpeek
  rw [parseContent_plain hplain, bind_ok hpeek]
  split
  · cases hseen
    exact absurd rfl hoctet
  · have hwalk := reads_advanceWhile (p := fun octet => decide (octet ≠ 60)) raw rest
      (fun octet hmem => decide_eq_true (by rintro rfl; exact hless hmem))
      (by rw [hnext]; rintro _ ⟨⟩; rfl) before
    have hcut := cutFrom_between before raw rest
    rw [get_bind, bind_ok hwalk]
    change (cutFrom (octets before).length >>= _) _ = _
    rw [bind_ok hcut, hdecode, lift_bind]
  · cases hseen

theorem parseContent_raw {child : ParserM Element} {element result : Element} {fuel : Nat}
    {raw value rest after : String} (hraw : raw ≠ "") (hless : 60 ∉ octets raw)
    (hdecode : decodeEntities raw = .ok value)
    (hnext : (octets (rest ++ after)).head? = some 60)
    (hrest : Reads (parseContent child fuel { element with text := element.text ++ value })
      rest result after) :
    Reads (parseContent child (fuel + 1) element) (raw ++ rest) result after := by
  intro before
  rw [String.append_assoc, parseContent_run hraw hless hdecode hnext, hrest (before ++ raw),
    String.append_assoc]

theorem parseContent_text {child : ParserM Element} (element : Element) {result : Element}
    {fuel : Nat} {value rest after : String} (hvalue : value ≠ "")
    (hnext : (octets (rest ++ after)).head? = some 60)
    (hrest : Reads (parseContent child fuel { element with text := element.text ++ value })
      rest result after) :
    Reads (parseContent child (fuel + 1) element) (escape value ++ rest) result after :=
  parseContent_raw (escape_ne_empty hvalue)
    (notMem_octets (by decide : ('<').toNat < 128) (notMem_escape (by decide) (by decide) value))
    (decodeEntities_escape value) hnext hrest

/-- The beginning of an element, which nothing else begins like. -/
def Opens (source : String) : Prop :=
  ∃ octet tail, octets source = 60 :: octet :: tail ∧ octet ≠ 47 ∧ octet ≠ 33 ∧ octet ≠ 63

theorem Opens.plain {source : String} (h : Opens source) : Plain source := by
  obtain ⟨octet, tail, hoctets, hslash, hbang, -⟩ := h
  have hstarts : octets "</" = [60, 47] ∧ octets "<!--" = [60, 33, 45, 45] ∧
      cdataOpen = [60, 33, 91, 67, 68, 65, 84, 65, 91] := ⟨rfl, rfl, rfl⟩
  rw [Plain, hoctets, hstarts.1, hstarts.2.1, hstarts.2.2]
  simp [List.isPrefixOf, Ne.symm hslash, Ne.symm hbang]

theorem parseContent_less {child : ParserM Element} {element : Element} {fuel : Nat}
    {source : String} (hplain : Plain source) (hless : (octets source).head? = some 60)
    (before : String) :
    parseContent child (fuel + 1) element (.between before source) =
      (child >>= fun found => parseContent child fuel
        { element with children := element.children ++ [found] }) (.between before source) := by
  rw [parseContent_plain hplain, bind_ok (peek_between before source), hless]
  rfl

theorem parseContent_opens {child : ParserM Element} {element : Element} {fuel : Nat}
    {source : String} (hsource : Opens source) (before : String) :
    parseContent child (fuel + 1) element (.between before source) =
      (child >>= fun found => parseContent child fuel
        { element with children := element.children ++ [found] }) (.between before source) := by
  refine parseContent_less hsource.plain ?_ before
  obtain ⟨octet, tail, hoctets, -⟩ := hsource
  rw [hoctets]
  rfl

theorem Opens.append {source : String} (h : Opens source) (rest : String) :
    Opens (source ++ rest) := by
  obtain ⟨octet, tail, hoctets, hopens⟩ := h
  refine ⟨octet, tail ++ octets rest, ?_, hopens⟩
  rw [octets_append, hoctets]
  rfl

theorem parseContent_child {child : ParserM Element} (element : Element)
    {found result : Element} {fuel : Nat} {piece rest after : String} (hpiece : Opens piece)
    (hchild : Reads child piece found (rest ++ after))
    (hrest : Reads (parseContent child fuel
      { element with children := element.children ++ [found] }) rest result after) :
    Reads (parseContent child (fuel + 1) element) (piece ++ rest) result after := by
  intro before
  rw [parseContent_opens ((hpiece.append rest).append after), String.append_assoc,
    bind_ok (hchild before), hrest (before ++ piece), String.append_assoc]

/-! ### Character data sections -/

/-- What ends a character data section. -/
def sectionEnd : String := "]]>"

/-- What ends a piece of markup: no end of it is also a beginning of it, so it does not
begin in what it ends. -/
structure Closing (closing : String) : Prop where
  ascii : ∀ ch ∈ closing.toList, ch.toNat < 128
  ne_nil : closing.toList ≠ []
  border : ∀ k < closing.toList.length, k ≠ 0 → ¬ closing.toList.drop k <+: closing.toList

theorem closing_sectionEnd : Closing sectionEnd := ⟨by decide, by decide, by decide⟩

theorem Closing.not_prefix_drop {closing : String} (hclosing : Closing closing)
    {body : List Char} (h : ¬ closing.toList <:+: body) (rest : List Char) {j : Nat}
    (hj : j < body.length) : ¬ closing.toList <+: (body ++ (closing.toList ++ rest)).drop j := by
  rw [List.drop_append_of_le_length (Nat.le_of_lt hj)]
  intro hstarts
  have hlength : (body.drop j).length = body.length - j := List.length_drop
  obtain hinside | ⟨tail, htail⟩ := List.prefix_or_prefix_of_prefix hstarts
    (List.prefix_append (body.drop j) (closing.toList ++ rest))
  · exact h (hinside.isInfix.trans (List.drop_suffix j body).isInfix)
  · -- the rest of it would begin where it begins
    have hshort := congrArg List.length htail
    rw [List.length_append] at hshort
    by_cases hall : (body.drop j).length = closing.toList.length
    · have hnil : tail = [] := List.length_eq_zero_iff.mp (by omega)
      rw [hnil, List.append_nil] at htail
      exact h (htail ▸ (List.drop_suffix j body).isInfix)
    · refine hclosing.border (body.drop j).length (by omega) (by omega) ?_
      rw [← htail, List.drop_left]
      rw [← htail, List.prefix_append_right_inj] at hstarts
      exact List.prefix_of_prefix_length_le hstarts (htail ▸ List.prefix_append _ _) (by
        rw [List.length_append]
        omega)

theorem Closing.not_prefix_octets {closing body : String} (hclosing : Closing closing)
    (h : ¬ closing.toList <:+: body.toList) (rest : String) {i : Nat}
    (hi : i < (octets body).length) :
    ¬ octets closing <+: (octets (body ++ (closing ++ rest))).drop i := by
  intro hstarts
  have hne : closing ≠ "" := fun hempty => hclosing.ne_nil (hempty ▸ rfl)
  obtain ⟨before, after, hsource, hbefore⟩ :=
    exists_append_of_octets hne hclosing.ascii hstarts
  have hlist := congrArg String.toList hsource
  simp only [String.toList_append] at hlist
  have hshort : before.toList.length < body.toList.length := by
    by_contra hle
    have hbody : body.toList <+: before.toList :=
      List.prefix_of_prefix_length_le ⟨_, hlist⟩ (List.prefix_append _ _) (by omega)
    obtain ⟨more, hmore⟩ := hbody
    have hoctets := congrArg (fun characters => (characters.flatMap String.utf8EncodeChar).length)
      hmore
    simp only [List.flatMap_append, List.length_append, ← octets_eq_flatMap] at hoctets
    omega
  refine hclosing.not_prefix_drop h rest.toList hshort ?_
  rw [hlist, List.drop_left]
  exact List.prefix_append _ _

theorem reads_skipPast {closing body : String} (hclosing : Closing closing)
    (h : ¬ closing.toList <:+: body.toList) (after : String) :
    Reads (skipPast (octets closing)) (body ++ closing) () after := by
  intro position
  have hrest : octets (body ++ closing ++ after) =
      octets body ++ (octets closing ++ octets after) := by
    rw [String.append_assoc, octets_append, octets_append]
  have hpos : 0 < (octets closing).length := by
    rw [octets_eq_flatMap]
    exact Nat.lt_of_lt_of_le (List.length_pos_of_ne_nil hclosing.ne_nil) (length_le_flatMap _)
  have hfind : (List.range ((octets (body ++ closing ++ after)).length -
      ((octets closing).length - 1))).find? (fun i =>
        (octets closing).isPrefixOf ((octets (body ++ closing ++ after)).drop i)) =
      some (octets body).length := by
    rw [List.find?_range_eq_some]
    refine ⟨?_, ?_, ?_⟩
    · rw [hrest, List.drop_left, List.isPrefixOf_iff_prefix]
      exact List.prefix_append _ _
    · rw [List.mem_range, hrest]
      simp only [List.length_append]
      omega
    · intro i hi
      rw [Bool.not_eq_true', ← Bool.not_eq_true, List.isPrefixOf_iff_prefix,
        String.append_assoc]
      exact hclosing.not_prefix_octets h after hi
  rw [skipPast, bind_ok (remaining_between position _), hfind]
  exact reads_advance (body ++ closing) (by rw [octets_append, List.length_append]) after position

theorem cut_section (before value rest : String) :
    cut (Parser.between (before ++ (value ++ sectionEnd)) rest).src (octets before).length
      ((Parser.between (before ++ (value ++ sectionEnd)) rest).i - cdataClose.length) =
        .ok value := by
  have hend : (octets sectionEnd).length = cdataClose.length := rfl
  have hindex : (Parser.between (before ++ (value ++ sectionEnd)) rest).i - cdataClose.length =
      (octets before).length + (octets value).length := by
    simp only [Parser.between, octets_append, List.length_append, ← hend]
    omega
  have hwhole := cut_between before value (sectionEnd ++ rest)
  rw [hindex, ← hwhole]
  simp only [Parser.between, octets_append, List.append_assoc]

/-- A round of the loop over the content that takes a character data section. -/
theorem parseContent_cdata (child : ParserM Element) (fuel : Nat) (element : Element)
    {value : String} (hvalue : ¬ sectionEnd.toList <:+: value.toList) (before rest : String) :
    parseContent child (fuel + 1) element
        (.between before ("<![CDATA[" ++ (value ++ sectionEnd ++ rest))) =
      parseContent child fuel { element with text := element.text ++ value }
        (.between (before ++ "<![CDATA[" ++ (value ++ sectionEnd)) rest) := by
  have hopen : cdataOpen = [60, 33, 91, 67, 68, 65, 84, 65, 91] ∧ octets "</" = [60, 47] ∧
      octets "<!--" = [60, 33, 45, 45] := ⟨rfl, rfl, rfl⟩
  have hsource : octets ("<![CDATA[" ++ (value ++ sectionEnd ++ rest)) =
      cdataOpen ++ octets (value ++ sectionEnd ++ rest) := by
    rw [octets_append]
    rfl
  have hstarts (pat : Octets) :=
    startsWith_between pat before ("<![CDATA[" ++ (value ++ sectionEnd ++ rest))
  have hadvance := reads_advance "<![CDATA[" (by rfl : _ = cdataOpen.length)
    (value ++ sectionEnd ++ rest) before
  have hskip : skipPast cdataClose (.between (before ++ "<![CDATA[")
      (value ++ sectionEnd ++ rest)) = .ok () (.between (before ++ "<![CDATA[" ++
        (value ++ sectionEnd)) rest) :=
    reads_skipPast closing_sectionEnd hvalue rest (before ++ "<![CDATA[")
  have hcut := cut_section (before ++ "<![CDATA[") value rest
  rw [parseContent, bind_ok (hstarts _), hsource, hopen.1, hopen.2.1]
  change (startsWith _ >>= _) _ = _
  rw [bind_ok (hstarts _), hsource, hopen.1, hopen.2.2]
  change (startsWith _ >>= _) _ = _
  rw [← hopen.1, bind_ok (hstarts _), hsource,
    if_pos (by rw [List.isPrefixOf_iff_prefix]; exact List.prefix_append _ _),
    bind_ok hadvance, get_bind, bind_ok hskip, get_bind]
  change (lift (cut _ (octets (before ++ "<![CDATA[")).length _) >>= _) _ = _
  rw [hcut, lift_bind]

theorem parseContent_section {child : ParserM Element} {element result : Element}
    {fuel : Nat} {value rest after : String} (hvalue : ¬ sectionEnd.toList <:+: value.toList)
    (hrest : Reads (parseContent child fuel { element with text := element.text ++ value })
      rest result after) :
    Reads (parseContent child (fuel + 1) element)
      ("<![CDATA[" ++ (value ++ sectionEnd ++ rest)) result after := by
  intro before
  have hcdata := parseContent_cdata child fuel element hvalue before (rest ++ after)
  have hlater := hrest (before ++ "<![CDATA[" ++ (value ++ sectionEnd))
  rw [← hcdata] at hlater
  simpa only [String.append_assoc] using hlater

/-- So many ends of sections. -/
def sectionEnds (count : Nat) : String := String.join (List.replicate count sectionEnd)

theorem notMem_sectionEnds {sought : Char} (hsought : sought ∉ sectionEnd.toList)
    (count : Nat) : sought ∉ (sectionEnds count).toList := by
  rw [sectionEnds, String.toList_join, List.mem_flatMap]
  rintro ⟨piece, hpiece, hmem⟩
  exact hsought (List.eq_of_mem_replicate hpiece ▸ hmem)

theorem sectionEnds_append (count : Nat) :
    sectionEnds count ++ sectionEnd = sectionEnd ++ sectionEnds count := by
  have hfront : sectionEnds (count + 1) = sectionEnd ++ sectionEnds count := by
    rw [sectionEnds, List.replicate_succ, String.join_cons, sectionEnds]
  have hback : sectionEnds (count + 1) = sectionEnds count ++ sectionEnd := by
    rw [sectionEnds, List.replicate_succ', String.join_append, String.join_cons,
      String.join_nil, String.append_empty, sectionEnds]
  rw [← hback, hfront]

theorem decodeEntities_plain {raw : String} (h : '&' ∉ raw.toList) :
    decodeEntities raw = .ok raw := by
  have hfind : find (octets raw) 38 = none :=
    find_eq_none.mpr (notMem_octets (by decide : ('&').toNat < 128) h)
  rw [decodeEntities, if_pos hfind]

/-- What a content may be that stands in a section: nothing that ends it, but for ends of
sections behind everything else, which are then read as text. -/
def Inert (content : String) : Prop :=
  ∃ before count, content = before ++ sectionEnds count ∧
    ¬ sectionEnd.toList <:+: before.toList

/-- The children of an element as they are rendered, on a line of its own each. -/
def writeLines : List String → String
  | [] => ""
  | piece :: later => "\r\n   " ++ (piece ++ writeLines later)

theorem length_writeLines (pieces : List String) :
    2 * pieces.length ≤ (octets (writeLines pieces)).length := by
  induction pieces with
  | nil => exact Nat.zero_le _
  | cons piece later ih =>
      have hindent : (octets "\r\n   ").length = 5 := rfl
      simp only [writeLines, octets_append, List.length_append, List.length_cons, hindent]
      omega

theorem length_le_writeLines {pieces : List String} {piece : String} (h : piece ∈ pieces) :
    (octets piece).length ≤ (octets (writeLines pieces)).length := by
  induction pieces with
  | nil => cases h
  | cons first later ih =>
      simp only [writeLines, octets_append, List.length_append]
      obtain rfl | hlater := List.mem_cons.mp h
      · omega
      · have := ih hlater
        omega

theorem writeLines_eq (pieces : List String) :
    "\r\n" ++ String.join (pieces.map fun piece => "   " ++ piece ++ "\r\n") =
      writeLines pieces ++ "\r\n" := by
  induction pieces with
  | nil => rw [writeLines, List.map_nil, String.join_nil, String.append_empty,
      String.empty_append]
  | cons piece later ih =>
      have hindent : "\r\n   " = "\r\n" ++ "   " := by decide
      rw [writeLines, List.map_cons, String.join_cons, hindent]
      simp only [String.append_assoc] at ih ⊢
      rw [ih]

/-- The text around so many children. -/
def aroundLines : Nat → String
  | 0 => "\r\n"
  | count + 1 => "\r\n   " ++ aroundLines count

theorem parseContent_lines {child : ParserM Element} {lines : List (String × Element)}
    (hlines : ∀ line ∈ lines, Opens line.1 ∧ ∀ after, Reads child line.1 line.2 after)
    (fuel : Nat) (hfuel : 2 * lines.length + 2 ≤ fuel) (element : Element)
    (hname : IsName element.name) (after : String) :
    Reads (parseContent child fuel element)
      (writeLines (lines.map Prod.fst) ++ ("\r\n" ++ ("</" ++ (element.name ++ ">"))))
      { element with
        children := element.children ++ lines.map Prod.snd
        text := element.text ++ aroundLines lines.length } after := by
  induction lines generalizing fuel element with
  | nil =>
      obtain ⟨fuel, rfl⟩ : ∃ more, fuel = more + 2 := ⟨fuel - 2, by omega⟩
      have hbreak : escape "\r\n" = "\r\n" := by decide
      have hclose := parseContent_close child { element with text := element.text ++ "\r\n" }
        hname fuel after
      have htext := parseContent_text element (by decide : "\r\n" ≠ "")
        (by rw [String.append_assoc, octets_append]; rfl) hclose
      rw [hbreak] at htext
      simpa [writeLines, aroundLines] using htext
  | cons line later ih =>
      obtain ⟨⟨hopens, hchild⟩, hlater⟩ := List.forall_mem_cons.mp hlines
      rw [List.length_cons] at hfuel
      obtain ⟨fuel, rfl⟩ : ∃ more, fuel = more + 2 := ⟨fuel - 2, by omega⟩
      have hindent : escape "\r\n   " = "\r\n   " := by decide
      have hrest := ih hlater fuel (by omega)
        { element with
          text := element.text ++ "\r\n   ", children := element.children ++ [line.2] } hname
      have hline := parseContent_child
        { element with text := element.text ++ "\r\n   " } hopens (hchild _) hrest
      have hnext : (octets (line.1 ++ (writeLines (later.map Prod.fst) ++
          ("\r\n" ++ ("</" ++ (element.name ++ ">")))) ++ after)).head? = some 60 := by
        obtain ⟨octet, tail, hoctets, -⟩ := hopens
        rw [String.append_assoc, octets_append, hoctets]
        rfl
      have htext := parseContent_text element (by decide : "\r\n   " ≠ "")
        hnext hline
      rw [hindent] at htext
      simpa only [writeLines, aroundLines, List.map_cons, List.length_cons,
        String.append_assoc, List.append_assoc, List.singleton_append] using htext

/-! ## Documents -/

theorem reads_skipProlog (piece after : String)
    (hpiece : ∀ octet ∈ octets piece, isWs octet) (hafter : after = "" ∨ Opens after)
    (fuel : Nat) : Reads (skipProlog (fuel + 1)) piece () after := by
  have hstarts : octets "<?" = [60, 63] ∧ octets "<!--" = [60, 33, 45, 45] ∧
      octets "<!" = [60, 33] := ⟨rfl, rfl, rfl⟩
  have hstart : (octets "<?").isPrefixOf (octets after) = false ∧
      (octets "<!--").isPrefixOf (octets after) = false ∧
      (octets "<!").isPrefixOf (octets after) = false ∧
      ∀ octet ∈ (octets after).head?, isWs octet = false := by
    rw [hstarts.1, hstarts.2.1, hstarts.2.2]
    obtain rfl | ⟨octet, tail, hoctets, -, hbang, hquestion⟩ := hafter
    · rw [octets_empty]
      exact ⟨rfl, rfl, rfl, nofun⟩
    · rw [hoctets]
      refine ⟨?_, ?_, ?_, ?_⟩
      · simp [List.isPrefixOf, Ne.symm hquestion]
      · simp [List.isPrefixOf, Ne.symm hbang]
      · simp [List.isPrefixOf, Ne.symm hbang]
      · rintro _ ⟨⟩
        rfl
  rw [skipProlog, ← String.append_empty (s := piece)]
  refine (reads_skipWs hpiece ?_).bind ?_
  · rw [String.empty_append]
    exact hstart.2.2.2
  refine (reads_startsWith _ _).bind_stay ?_
  rw [String.empty_append, hstart.1, if_neg Bool.false_ne_true]
  refine (reads_startsWith _ _).bind_stay ?_
  rw [String.empty_append, hstart.2.1, if_neg Bool.false_ne_true]
  refine (reads_startsWith _ _).bind_stay ?_
  rw [String.empty_append, hstart.2.2.1, if_neg Bool.false_ne_true]
  exact .pure _ _

/-- An element of so many levels below its own, which is read whatever is behind it. -/
structure Written (depth : Nat) (source : String) (element : Element) : Prop where
  opens : Opens source
  reads : ∀ {fuel levels : Nat}, (octets source).length ≤ fuel → depth ≤ levels →
    ∀ after, Reads (parseElement fuel (levels + 1)) source element after

/-- A name that a tag may have. -/
def IsTag (name : String) : Prop :=
  IsName name ∧ ∀ octet ∈ (octets name).head?, octet ≠ 33 ∧ octet ≠ 63

theorem IsTag.opens {name : String} (h : IsTag name) (rest : String) :
    Opens ("<" ++ (name ++ rest)) := by
  obtain ⟨octet, tail, hoctets⟩ : ∃ octet tail, octets name = octet :: tail :=
    List.exists_cons_of_ne_nil fun hnil => h.1.1 (octets_injective hnil)
  obtain ⟨hbang, hquestion⟩ := h.2 octet (by rw [hoctets]; rfl)
  refine ⟨octet, tail ++ octets rest, ?_, ?_, hbang, hquestion⟩
  · rw [octets_append, octets_append, hoctets]
    rfl
  · rintro rfl
    have hends := h.1.2 47 (hoctets ▸ List.mem_cons_self)
    exact absurd hends (by decide)

section Elements

variable {name : String} (hname : IsTag name) {attrs : List (String × String)}
  (hnames : ∀ attr ∈ attrs, IsName attr.1)

include hname hnames

theorem written_empty :
    Written 0 ("<" ++ (name ++ (writeAttrs attrs ++ " />")))
      { name, attrs, children := [], text := "" } where
  opens := hname.opens _
  reads {fuel levels} hfuel _ after := by
    have hattrs := length_writeAttrs attrs
    simp only [octets_append, List.length_append, show (octets "<").length = 1 from rfl]
      at hfuel
    exact reads_parseElement_empty hname.1 hnames (by omega) levels after

theorem written_text (value : String) :
    Written 0 ("<" ++ (name ++ (writeAttrs attrs ++
        (">" ++ (escape value ++ ("</" ++ (name ++ ">")))))))
      { name, attrs, children := [], text := value } where
  opens := hname.opens _
  reads {fuel levels} hfuel _ after := by
    have hattrs := length_writeAttrs attrs
    simp only [octets_append, List.length_append, show (octets "<").length = 1 from rfl,
      show (octets ">").length = 1 from rfl, show (octets "</").length = 2 from rfl] at hfuel
    refine reads_parseElement_open hname.1 hnames (by omega) ?_
    obtain ⟨fuel, rfl⟩ : ∃ more, fuel = more + 2 := ⟨fuel - 2, by omega⟩
    by_cases hvalue : value = ""
    · rw [hvalue, show escape "" = "" from by decide, String.empty_append]
      exact parseContent_close _ { name, attrs, children := [], text := "" } hname.1
        (fuel + 1) after
    · have hclose := parseContent_close (parseElement (fuel + 2) levels)
        { name, attrs, children := [], text := value } hname.1 fuel after
      exact parseContent_text _ hvalue
        (by rw [String.append_assoc, octets_append]; rfl) (by simpa using hclose)

theorem written_section {content : String} (hcontent : Inert content) :
    Written 0 ("<" ++ (name ++ (writeAttrs attrs ++
        (">" ++ ("<![CDATA[" ++ (content ++ (sectionEnd ++ ("</" ++ (name ++ ">")))))))))
      { name, attrs, children := [], text := content } where
  opens := hname.opens _
  reads {fuel levels} hfuel _ after := by
    obtain ⟨value, count, rfl, hvalue⟩ := hcontent
    have hattrs := length_writeAttrs attrs
    simp only [octets_append, List.length_append, show (octets "<").length = 1 from rfl,
      show (octets ">").length = 1 from rfl, show (octets "</").length = 2 from rfl] at hfuel
    refine reads_parseElement_open hname.1 hnames (by omega) ?_
    obtain ⟨fuel, rfl⟩ : ∃ more, fuel = more + 3 := ⟨fuel - 3, by omega⟩
    have hcommute : value ++ sectionEnds count ++ (sectionEnd ++ ("</" ++ (name ++ ">"))) =
        value ++ sectionEnd ++ (sectionEnds count ++ ("</" ++ (name ++ ">"))) := by
      have hends := congrArg (· ++ ("</" ++ (name ++ ">"))) (sectionEnds_append count)
      simp only [String.append_assoc] at hends ⊢
      rw [hends]
    rw [hcommute]
    refine parseContent_section hvalue ?_
    have hclose := parseContent_close (parseElement (fuel + 3) levels)
      { name, attrs, children := [], text := value ++ sectionEnds count } hname.1
    by_cases hnone : sectionEnds count = ""
    · rw [hnone, String.empty_append, String.append_empty]
      rw [hnone, String.append_empty] at hclose
      simpa using hclose (fuel + 1) after
    · refine parseContent_raw hnone
        (notMem_octets (by decide : ('<').toNat < 128) (notMem_sectionEnds (by decide) count))
        (decodeEntities_plain (notMem_sectionEnds (by decide) count))
        (by rw [String.append_assoc, octets_append]; rfl) ?_
      simpa using hclose fuel after

theorem written_lines {depth : Nat} {lines : List (String × Element)}
    (hlines : ∀ line ∈ lines, Written depth line.1 line.2) :
    Written (depth + 1) ("<" ++ (name ++ (writeAttrs attrs ++
        (">" ++ (writeLines (lines.map Prod.fst) ++ ("\r\n" ++ ("</" ++ (name ++ ">"))))))))
      { name, attrs, children := lines.map Prod.snd, text := aroundLines lines.length } where
  opens := hname.opens _
  reads {fuel levels} hfuel hdepth after := by
    have hattrs := length_writeAttrs attrs
    have hpieces := length_writeLines (lines.map Prod.fst)
    obtain ⟨levels, rfl⟩ : ∃ more, levels = more + 1 := ⟨levels - 1, by omega⟩
    rw [List.length_map] at hpieces
    simp only [octets_append, List.length_append, show (octets "<").length = 1 from rfl,
      show (octets ">").length = 1 from rfl, show (octets "</").length = 2 from rfl] at hfuel
    refine reads_parseElement_open hname.1 hnames (by omega) ?_
    have hreads : ∀ line ∈ lines, Opens line.1 ∧
        ∀ after, Reads (parseElement fuel (levels + 1)) line.1 line.2 after := by
      intro line hline
      have hpiece := length_le_writeLines (List.mem_map_of_mem (f := Prod.fst) hline)
      exact ⟨(hlines line hline).opens,
        (hlines line hline).reads (by omega) (by omega)⟩
    have hchildren := parseContent_lines hreads fuel (by omega)
      { name, attrs, children := [], text := "" } hname.1 after
    simpa using hchildren

end Elements

theorem parse_octets (source : String) :
    parse (octets source) =
      match parseDocument ((octets source).length + 1) (.between "" source) with
      | .ok root _ => .ok root
      | .error fault _ => .error fault := by
  rw [parse, text_octets]
  rfl

theorem parse_of_reads {front source back : String} {root : Element} {fuel : Nat}
    (hfuel : (octets (front ++ (source ++ back))).length + 1 = fuel)
    (hfront : Reads (skipProlog fuel) front () (source ++ back))
    (hroot : Reads (parseElement fuel (maxDepth + 1)) source root back)
    (hback : Reads (skipProlog fuel) back () "") :
    parse (octets (front ++ (source ++ back))) = .ok root := by
  have hfirst := hfront ""
  have hsecond := hroot front
  have hthird := hback (front ++ source)
  rw [String.empty_append] at hfirst
  rw [String.append_empty] at hthird
  have hend : ¬ (Parser.between (front ++ source ++ back) "").i <
      (Parser.between (front ++ source ++ back) "").src.length := by
    simp [Parser.between]
  have hdocument : parseDocument fuel (.between "" (front ++ (source ++ back))) =
      .ok root (.between (front ++ source ++ back) "") := by
    rw [parseDocument, bind_ok hfirst, bind_ok hsecond, bind_ok hthird, get_bind, if_neg hend]
    rfl
  rw [parse_octets, hfuel, hdocument]

theorem parse_written {depth : Nat} {source : String} {element : Element}
    (h : Written depth source element) (tail : String) (hdepth : depth ≤ maxDepth)
    (htail : ∀ octet ∈ octets tail, isWs octet) :
    parse (octets (source ++ tail)) = .ok element := by
  have hfuel : (octets source).length ≤ (octets (source ++ tail)).length + 1 := by
    rw [octets_append, List.length_append]
    omega
  rw [← String.empty_append (s := source ++ tail)]
  refine parse_of_reads (by rw [String.empty_append]) ?_ (h.reads hfuel hdepth tail) ?_
  · exact reads_skipProlog "" (source ++ tail) nofun (.inr (h.opens.append tail)) _
  · exact reads_skipProlog tail "" htail (.inl rfl) _

end Vortice.Proto.Xml

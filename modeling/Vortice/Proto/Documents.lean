import Vortice.Proto.Overruns

/-!
# The documents of the XML reader

A grammar of the documents with the trees they stand for, and that the parser reads
what it derives.  Every rule relates two sources: a second one that has a mark in it at
so many of the places where a comment may stand, between the pieces of the prolog, of
what follows the root element, and of the content of an element.
-/

namespace Vortice.Proto.Xml

open Vortice.Foundation

/-! ## The grammar -/

/-- Markup up to the first of what closes it. -/
def Closed (opening closing piece : String) : Prop :=
  opening.toList <+: piece.toList ∧
    ∃ body, piece = body ++ closing ∧ ¬ closing.toList <:+: body.toList

/-- A character as it may be written in text. -/
inductive Glyph : String → Char → Prop
  | plain {ch : Char} : ch ≠ '&' → Glyph ch.toString ch
  | reference {name : String} {ch : Char} : ';' ∉ name.toList →
      (octets name).length < maxEntityLen → decodeEntity name = .ok ch →
      Glyph ("&" ++ (name ++ ";")) ch

inductive CharData : String → String → Prop
  | nil : CharData "" ""
  | glyph {piece source value : String} {ch : Char} : Glyph piece ch →
      CharData source value → CharData (piece ++ source) (ch.toString ++ value)

/-- What may stand outside the root element. -/
inductive Aside : String → Prop
  | space {ch : Char} : ch ∈ [' ', '\t', '\r', '\n'] → Aside ch.toString
  | instruction {piece : String} : Closed "<?" "?>" piece → Aside piece
  | comment {piece : String} : Closed "<!--" "-->" piece → Aside piece
  | declaration {piece : String} : Closed "<!" ">" piece →
      ¬ "<!--".toList <+: piece.toList → Aside piece

inductive Outside (mark : String) : Nat → String → String → Prop
  | nil : Outside mark 0 "" ""
  | insert {count : Nat} {source marked : String} : Outside mark count source marked →
      Outside mark (count + 1) source (mark ++ marked)
  | aside {count : Nat} {piece source marked : String} : Aside piece →
      Outside mark count source marked →
      Outside mark count (piece ++ source) (piece ++ marked)

/-- The attributes of a start tag and its end, which may be that of an empty element. -/
inductive TagEnd : String → List (String × String) → Bool → Prop
  | close {space : String} : IsSpace space → TagEnd (space ++ ">") [] false
  | empty {space : String} : IsSpace space → TagEnd (space ++ "/>") [] true
  | attr {space name before behind raw value rest : String} {quote : Char}
      {attrs : List (String × String)} {empty : Bool} :
      IsSpace space → IsName name → IsSpace before → IsSpace behind → IsQuote quote →
      quote ∉ raw.toList → CharData raw value → TagEnd rest attrs empty →
      TagEnd (space ++ (name ++ (before ++ ("=" ++ (behind ++
        (quote.toString ++ (raw ++ quote.toString) ++ rest))))))
        ((name, value) :: attrs) empty

/-- A name that begins neither a comment nor a character data section. -/
def IsInner (name : String) : Prop :=
  ¬ "!--".toList <+: name.toList ∧ ¬ "![CDATA[".toList <+: name.toList

/-- The content of an element, with its children and its text. -/
inductive Content (mark : String) (child : Nat → String → String → Element → Prop) :
    Nat → String → String → List Element → String → Prop
  | nil : Content mark child 0 "" "" [] ""
  | insert {count : Nat} {source marked text : String} {children : List Element} :
      Content mark child count source marked children text →
      Content mark child (count + 1) source (mark ++ marked) children text
  | glyph {count : Nat} {piece source marked text : String} {ch : Char}
      {children : List Element} : Glyph piece ch → '<' ∉ piece.toList →
      Content mark child count source marked children text →
      Content mark child count (piece ++ source) (piece ++ marked) children
        (ch.toString ++ text)
  | comment {count : Nat} {piece source marked text : String} {children : List Element} :
      Closed "<!--" "-->" piece →
      Content mark child count source marked children text →
      Content mark child count (piece ++ source) (piece ++ marked) children text
  | cdata {count : Nat} {value source marked text : String} {children : List Element} :
      ¬ sectionEnd.toList <:+: value.toList →
      Content mark child count source marked children text →
      Content mark child count ("<![CDATA[" ++ (value ++ sectionEnd) ++ source)
        ("<![CDATA[" ++ (value ++ sectionEnd) ++ marked) children (value ++ text)
  | child {first count : Nat} {inner inner' source marked text : String}
      {found : Element} {children : List Element} : child first inner inner' found →
      IsInner found.name → Content mark child count source marked children text →
      Content mark child (first + count) (inner ++ source) (inner' ++ marked)
        (found :: children) text

/-- An element whose children are as `child` says. -/
inductive Shape (mark : String) (child : Nat → String → String → Element → Prop) :
    Nat → String → String → Element → Prop
  | empty {name tag : String} {attrs : List (String × String)} : IsName name →
      (∀ octet ∈ (octets tag).head?, endsName octet) → TagEnd tag attrs true →
      Shape mark child 0 ("<" ++ (name ++ tag)) ("<" ++ (name ++ tag))
        { name, attrs, children := [], text := "" }
  | content {count : Nat} {name tag source marked text space : String}
      {attrs : List (String × String)} {children : List Element} : IsName name →
      (∀ octet ∈ (octets tag).head?, endsName octet) → TagEnd tag attrs false →
      Content mark child count source marked children text → IsSpace space →
      Shape mark child count
        ("<" ++ (name ++ (tag ++ (source ++ ("</" ++ (name ++ (space ++ ">")))))))
        ("<" ++ (name ++ (tag ++ (marked ++ ("</" ++ (name ++ (space ++ ">")))))))
        { name, attrs, children, text }

/-- An element of at most so many levels. -/
def Tagged (mark : String) : Nat → Nat → String → String → Element → Prop
  | 0 => fun _ _ _ _ => False
  | levels + 1 => Shape mark (Tagged mark levels)

/-- A document with the tree of its root element. -/
inductive Document (mark : String) : Nat → String → String → Element → Prop
  | mk {first count last : Nat} {front front' source marked back back' : String}
      {root : Element} : Outside mark first front front' →
      Tagged mark (maxDepth + 1) count source marked root → IsTag root.name →
      Outside mark last back back' →
      Document mark (first + count + last) (front ++ (source ++ back))
        (front' ++ (marked ++ back')) root

/-! ## Character data -/

theorem CharData.append {first second value value' : String} (h : CharData first value)
    (h' : CharData second value') : CharData (first ++ second) (value ++ value') := by
  induction h with
  | nil =>
      rw [String.empty_append, String.empty_append]
      exact h'
  | glyph hglyph _ ih =>
      rw [String.append_assoc, String.append_assoc]
      exact .glyph hglyph ih

theorem Glyph.charData {piece : String} {ch : Char} (h : Glyph piece ch) :
    CharData piece ch.toString := by
  have hdata := CharData.glyph h .nil
  rwa [String.append_empty, String.append_empty] at hdata

theorem CharData.decodes_loop {raw value : String} (h : CharData raw value) {plain : String}
    (hplain : '&' ∉ plain.toList) {fuel : Nat} (hfuel : (octets raw).length < fuel)
    (out : String) :
    decodeEntitiesLoop fuel (plain ++ raw) out = .ok (out ++ plain ++ value) := by
  induction h generalizing plain fuel out with
  | nil =>
      obtain ⟨fuel, rfl⟩ := Nat.exists_eq_succ_of_ne_zero (n := fuel) (by omega)
      rw [String.append_empty, String.append_empty]
      exact decodeEntitiesLoop_plain hplain fuel out
  | @glyph piece source value ch hglyph _ ih =>
      cases hglyph with
      | plain hch =>
          have hmore : '&' ∉ (plain ++ ch.toString).toList := by
            simpa [Char.toString, hplain] using Ne.symm hch
          rw [octets_append, List.length_append] at hfuel
          have hless : (octets source).length < fuel := by omega
          have hrest := ih hmore hless out
          rw [← String.append_assoc, hrest]
          simp only [String.append_assoc]
      | @reference name _ hname hlength hdecode =>
          obtain ⟨fuel, rfl⟩ := Nat.exists_eq_succ_of_ne_zero (n := fuel) (by omega)
          have hone : (octets "&").length = 1 := rfl
          simp only [octets_append, List.length_append, hone] at hfuel
          have hround := decodeEntitiesLoop_named hplain
            (notMem_octets (by decide : (';').toNat < 128) hname) hlength fuel source out
          rw [hdecode, except_ok_bind] at hround
          have hnone : '&' ∉ ("" : String).toList := by simp
          have hless : (octets source).length < fuel := by omega
          have hrest := ih hnone hless (out ++ plain ++ ch.toString)
          rw [String.empty_append, String.append_empty] at hrest
          rw [String.append_assoc, String.append_assoc, hround, hrest]
          simp only [String.append_assoc]

theorem CharData.decodes {raw value : String} (h : CharData raw value) :
    decodeEntities raw = .ok value := by
  have hnone : '&' ∉ ("" : String).toList := by simp
  have hloop := h.decodes_loop hnone (Nat.lt_succ_self _) ""
  rw [decodeEntities_eq]
  simpa only [String.empty_append] using hloop

/-! ## Tags -/

theorem TagEnd.ne_empty {tag : String} {attrs : List (String × String)} {empty : Bool}
    (h : TagEnd tag attrs empty) : 0 < (octets tag).length := by
  have hgreater : (octets ">").length = 1 ∧ (octets "/>").length = 2 ∧
      (octets "=").length = 1 := ⟨rfl, rfl, rfl⟩
  cases h <;> simp only [octets_append, List.length_append, hgreater] <;> omega

theorem TagEnd.head_append {tag : String} {attrs : List (String × String)} {empty : Bool}
    (h : TagEnd tag attrs empty) (hhead : ∀ octet ∈ (octets tag).head?, endsName octet)
    (after : String) : ∀ octet ∈ (octets (tag ++ after)).head?, endsName octet := by
  rw [octets_append, List.head?_append]
  cases hoctets : octets tag with
  | nil =>
      have hpos := h.ne_empty
      rw [hoctets] at hpos
      exact absurd hpos (Nat.lt_irrefl 0)
  | cons octet tail =>
      rw [hoctets] at hhead
      exact hhead

theorem TagEnd.reads {tag : String} {attrs : List (String × String)} {empty : Bool}
    (h : TagEnd tag attrs empty) {fuel : Nat} (hfuel : (octets tag).length ≤ fuel)
    (found : List (String × String)) (after : String) :
    Reads (parseAttrs fuel found) tag (found ++ attrs, empty) after := by
  induction h generalizing fuel found with
  | close hspace =>
      have hlength : (octets ">").length = 1 := rfl
      rw [octets_append, List.length_append, hlength] at hfuel
      obtain ⟨fuel, rfl⟩ := Nat.exists_eq_succ_of_ne_zero (n := fuel) (by omega)
      rw [parseAttrs, List.append_nil]
      refine (reads_skipWs hspace ?_).bind ?_
      · rw [octets_append]
        rintro _ ⟨⟩
        decide
      rw [← String.append_empty (s := ">")]
      refine (reads_peek _).bind_stay ?_
      rw [String.append_assoc, octets_append]
      exact (reads_advance ">" rfl _).bind (.pure _ _)
  | empty hspace =>
      have hlength : (octets "/>").length = 2 := rfl
      have hclose : "/>" = "/" ++ (">" ++ "") := by decide
      rw [octets_append, List.length_append, hlength] at hfuel
      obtain ⟨fuel, rfl⟩ := Nat.exists_eq_succ_of_ne_zero (n := fuel) (by omega)
      rw [parseAttrs, List.append_nil, hclose]
      refine (reads_skipWs hspace ?_).bind ?_
      · rw [String.append_assoc, octets_append]
        rintro _ ⟨⟩
        decide
      refine (reads_peek _).bind_stay ?_
      rw [String.append_assoc, octets_append]
      exact (reads_advance "/" rfl _).bind ((reads_expect ">" rfl _ _).bind (.pure _ _))
  | @attr space name before behind raw value rest quote attrs empty hspace hname hbefore hbehind
      hquote hraw hdata _ ih =>
      have hequals : (octets "=").length = 1 := rfl
      simp only [octets_append, List.length_append, hequals] at hfuel
      obtain ⟨fuel, rfl⟩ := Nat.exists_eq_succ_of_ne_zero (n := fuel) (by omega)
      have hless : (octets rest).length ≤ fuel := by omega
      have hrest := ih hless (found ++ [(name, value)])
      rw [List.append_assoc, List.singleton_append] at hrest
      exact parseAttrs_cons hspace hname hbefore hbehind hquote hraw hdata.decodes hrest

/-! ## Markup that is skipped -/

theorem closing_comment : Closing "-->" := ⟨by decide, by decide, by decide⟩
theorem closing_instruction : Closing "?>" := ⟨by decide, by decide, by decide⟩
theorem closing_declaration : Closing ">" := ⟨by decide, by decide, by decide⟩

theorem exists_octets_of_prefix {pattern source : String}
    (h : pattern.toList <+: source.toList) :
    ∃ tail, octets source = octets pattern ++ tail := by
  obtain ⟨rest, hrest⟩ := h
  refine ⟨rest.flatMap String.utf8EncodeChar, ?_⟩
  rw [octets_eq_flatMap, ← hrest, List.flatMap_append, ← octets_eq_flatMap]

theorem Closed.octets_eq {opening closing piece : String} (h : Closed opening closing piece)
    (rest : String) : ∃ tail, octets (piece ++ rest) = octets opening ++ tail := by
  refine exists_octets_of_prefix ?_
  rw [String.toList_append]
  exact h.1.trans (List.prefix_append _ _)

theorem Closed.reads {opening closing piece : String} (h : Closed opening closing piece)
    (hclosing : Closing closing) (after : String) :
    Reads (skipPast (octets closing)) piece () after := by
  obtain ⟨-, body, rfl, hbody⟩ := h
  exact reads_skipPast hclosing hbody after

theorem not_comment_append {piece : String} (hpiece : Closed "<!" ">" piece)
    (h : ¬ "<!--".toList <+: piece.toList) (rest : String) :
    (octets "<!--").isPrefixOf (octets (piece ++ rest)) = false := by
  rw [← Bool.not_eq_true, List.isPrefixOf_iff_prefix, octets_eq_flatMap, octets_eq_flatMap]
  intro hstarts
  have hstarts := prefix_of_octets (by decide) hstarts
  rw [String.toList_append] at hstarts
  obtain hinside | hwithin := List.prefix_or_prefix_of_prefix hstarts
    (List.prefix_append piece.toList rest.toList)
  · exact h hinside
  · obtain ⟨-, body, rfl, -⟩ := hpiece
    have hmem : '>' ∈ (body ++ ">").toList := by simp
    exact absurd (hwithin.subset hmem) (by decide)

theorem skipProlog_space {space source : String} (hspace : IsSpace space)
    (hsource : ∀ octet ∈ (octets source).head?, isWs octet = false) (fuel : Nat)
    (before : String) :
    skipProlog (fuel + 1) (.between before (space ++ source)) =
      skipProlog (fuel + 1) (.between (before ++ space) source) := by
  have hfirst := reads_skipWs hspace hsource before
  have hsecond := reads_skipWs_none source hsource (before ++ space)
  rw [String.empty_append, String.append_empty] at hsecond
  rw [skipProlog, bind_ok hfirst, bind_ok hsecond]

theorem skipProlog_round {source : String}
    (hsource : ∀ octet ∈ (octets source).head?, isWs octet = false) (fuel : Nat)
    (before : String) :
    skipProlog (fuel + 1) (.between before source) =
      (if (octets "<?").isPrefixOf (octets source) then
        skipPast (octets "?>") >>= fun _ => skipProlog fuel
      else if (octets "<!--").isPrefixOf (octets source) then
        skipPast (octets "-->") >>= fun _ => skipProlog fuel
      else if (octets "<!").isPrefixOf (octets source) then
        skipPast (octets ">") >>= fun _ => skipProlog fuel
      else pure ()) (.between before source) := by
  have hspaces := reads_skipWs_none source hsource before
  rw [String.empty_append, String.append_empty] at hspaces
  rw [skipProlog, bind_ok hspaces, bind_ok (startsWith_between _ _ _)]
  split
  · rfl
  rw [bind_ok (startsWith_between _ _ _)]
  split
  · rfl
  rw [bind_ok (startsWith_between _ _ _)]

theorem Closed.length_pos {opening closing piece : String} (h : Closed opening closing piece)
    (hopening : opening ≠ "") : 0 < (octets piece).length := by
  obtain ⟨tail, htail⟩ := exists_octets_of_prefix h.1
  rw [htail, List.length_append]
  exact Nat.add_pos_left (List.length_pos_of_ne_nil fun hnil =>
    hopening (octets_injective hnil)) _

theorem Closed.head {opening closing piece : String} (h : Closed opening closing piece)
    (hopening : (octets opening).head? = some 60) (after : String) :
    (octets (piece ++ after)).head? = some 60 := by
  obtain ⟨tail, htail⟩ := h.octets_eq after
  rw [htail, List.head?_append, hopening]
  rfl

/-- Markup that begins with `<` and is gone past outside the root element, in at most one
round for each octet. -/
structure SkipsOutside (mark : String) : Prop where
  opens : ∀ after, (octets (mark ++ after)).head? = some 60
  prolog : ∃ rounds ≤ (octets mark).length, ∀ fuel before after,
    skipProlog (fuel + rounds) (.between before (mark ++ after)) =
      skipProlog fuel (.between (before ++ mark) after)

/-- Markup that is also gone past in content. -/
structure Skips (mark : String) : Prop extends SkipsOutside mark where
  content : ∃ rounds ≤ (octets mark).length, ∀ child fuel element before after,
    parseContent child (fuel + rounds) element (.between before (mark ++ after)) =
      parseContent child fuel element (.between (before ++ mark) after)

theorem Skips.append {first second : String} (h : Skips first) (h' : Skips second) :
    Skips (first ++ second) where
  opens after := by
    rw [String.append_assoc]
    exact h.opens _
  prolog := by
    obtain ⟨rounds, hrounds, hfirst⟩ := h.prolog
    obtain ⟨more, hmore, hsecond⟩ := h'.prolog
    refine ⟨more + rounds, ?_, fun fuel before after => ?_⟩
    · rw [octets_append, List.length_append]
      omega
    · rw [String.append_assoc, ← Nat.add_assoc, hfirst, hsecond, String.append_assoc]
  content := by
    obtain ⟨rounds, hrounds, hfirst⟩ := h.content
    obtain ⟨more, hmore, hsecond⟩ := h'.content
    refine ⟨more + rounds, ?_, fun child fuel element before after => ?_⟩
    · rw [octets_append, List.length_append]
      omega
    · rw [String.append_assoc, ← Nat.add_assoc, hfirst, hsecond, String.append_assoc]

theorem instruction_skips {piece : String} (h : Closed "<?" "?>" piece) :
    SkipsOutside piece where
  opens := h.head rfl
  prolog := by
    refine ⟨1, h.length_pos (by decide), fun fuel before after => ?_⟩
    obtain ⟨tail, htail⟩ := h.octets_eq after
    rw [skipProlog_round (by rw [htail]; rintro _ ⟨⟩; rfl), if_pos (by
      rw [htail, List.isPrefixOf_iff_prefix]
      exact List.prefix_append _ _), bind_ok (h.reads closing_instruction after before)]

theorem declaration_skips {piece : String} (h : Closed "<!" ">" piece)
    (hcomment : ¬ "<!--".toList <+: piece.toList) : SkipsOutside piece where
  opens := h.head rfl
  prolog := by
    refine ⟨1, h.length_pos (by decide), fun fuel before after => ?_⟩
    obtain ⟨tail, htail⟩ := h.octets_eq after
    have htests : octets "<?" = [60, 63] ∧ octets "<!" = [60, 33] := ⟨rfl, rfl⟩
    rw [skipProlog_round (by rw [htail]; rintro _ ⟨⟩; rfl), if_neg (by
      rw [htail, htests.1, htests.2]
      simp [List.isPrefixOf]), if_neg (by
      rw [not_comment_append h hcomment]
      exact Bool.false_ne_true), if_pos (by
      rw [htail, List.isPrefixOf_iff_prefix]
      exact List.prefix_append _ _), bind_ok (h.reads closing_declaration after before)]

theorem comment_skips {piece : String} (h : Closed "<!--" "-->" piece) : Skips piece where
  opens := h.head rfl
  prolog := by
    refine ⟨1, h.length_pos (by decide), fun fuel before after => ?_⟩
    obtain ⟨tail, htail⟩ := h.octets_eq after
    have htests : octets "<?" = [60, 63] ∧ octets "<!--" = [60, 33, 45, 45] := ⟨rfl, rfl⟩
    rw [skipProlog_round (by rw [htail]; rintro _ ⟨⟩; rfl), if_neg (by
      rw [htail, htests.1, htests.2]
      simp [List.isPrefixOf]), if_pos (by
      rw [htail, List.isPrefixOf_iff_prefix]
      exact List.prefix_append _ _), bind_ok (h.reads closing_comment after before)]
  content := by
    refine ⟨1, h.length_pos (by decide), fun child fuel element before after => ?_⟩
    obtain ⟨tail, htail⟩ := h.octets_eq after
    have htests : octets "</" = [60, 47] ∧ octets "<!--" = [60, 33, 45, 45] := ⟨rfl, rfl⟩
    rw [parseContent, bind_ok (startsWith_between _ _ _), if_neg (by
      rw [htail, htests.1, htests.2]
      simp [List.isPrefixOf]), bind_ok (startsWith_between _ _ _), if_pos (by
      rw [htail, List.isPrefixOf_iff_prefix]
      exact List.prefix_append _ _), bind_ok (h.reads closing_comment after before)]

/-! ## Outside the root element -/

theorem Aside.space_or_skips {piece : String} (h : Aside piece) :
    IsSpace piece ∨ SkipsOutside piece := by
  cases h with
  | space hch =>
      left
      simp only [List.mem_cons, List.not_mem_nil, or_false] at hch
      unfold IsSpace
      obtain rfl | rfl | rfl | rfl := hch <;> decide
  | instruction hclosed => exact .inr (instruction_skips hclosed)
  | comment hclosed => exact .inr (comment_skips hclosed).toSkipsOutside
  | declaration hclosed hcomment => exact .inr (declaration_skips hclosed hcomment)

theorem IsSpace.append {first second : String} (h : IsSpace first) (h' : IsSpace second) :
    IsSpace (first ++ second) := by
  intro octet hmem
  rw [octets_append, List.mem_append] at hmem
  exact hmem.elim (h octet) (h' octet)

theorem SkipsOutside.reads {piece space later after : String} (h : SkipsOutside piece)
    (hspace : IsSpace space) {fuel : Nat} (hfuel : (octets (piece ++ later)).length < fuel)
    (hlater : ∀ fuel, (octets later).length < fuel → Reads (skipProlog fuel) later () after) :
    Reads (skipProlog fuel) (space ++ (piece ++ later)) () after := by
  intro before
  obtain ⟨rounds, hrounds, hskip⟩ := h.prolog
  rw [octets_append, List.length_append] at hfuel
  obtain ⟨more, rfl⟩ : ∃ more, fuel = more + 1 + rounds := ⟨fuel - rounds - 1, by omega⟩
  have hhead : ∀ octet ∈ (octets (piece ++ (later ++ after))).head?, isWs octet = false := by
    rw [h.opens]
    rintro _ ⟨⟩
    rfl
  have hspaces := skipProlog_space hspace hhead (more + rounds) before
  rw [Nat.add_right_comm, String.append_assoc, String.append_assoc, hspaces,
    Nat.add_right_comm, hskip, hlater _ (by omega)]
  simp only [String.append_assoc]

theorem Outside.reads {mark : String} (hmark : SkipsOutside mark) {count : Nat}
    {source marked after : String} (h : Outside mark count source marked)
    (hafter : after = "" ∨ Opens after) {space : String} (hspace : IsSpace space) {fuel : Nat}
    (hfuel : (octets marked).length < fuel) :
    Reads (skipProlog fuel) (space ++ marked) () after := by
  induction h generalizing space fuel with
  | nil =>
      obtain ⟨fuel, rfl⟩ := Nat.exists_eq_succ_of_ne_zero (n := fuel) (by omega)
      rw [String.append_empty]
      exact reads_skipProlog space after hspace hafter fuel
  | insert _ ih =>
      refine hmark.reads hspace hfuel fun fuel hfuel => ?_
      have hread := ih isSpace_empty hfuel
      rwa [String.empty_append] at hread
  | aside haside _ ih =>
      obtain hpiece | hpiece := haside.space_or_skips
      · rw [← String.append_assoc]
        rw [octets_append, List.length_append] at hfuel
        exact ih (hspace.append hpiece) (by omega)
      · refine hpiece.reads hspace hfuel fun fuel hfuel => ?_
        have hread := ih isSpace_empty hfuel
        rwa [String.empty_append] at hread

/-! ## Content -/

/-- What an element is when the loop has taken more of its content. -/
def Element.more (element : Element) (children : List Element) (text : String) : Element :=
  { element with children := element.children ++ children, text := element.text ++ text }

@[simp] theorem Element.more_nil (element : Element) : element.more [] "" = element := by
  cases element
  simp [Element.more]

@[simp] theorem Element.more_more (element : Element) (first second : List Element)
    (text text' : String) :
    (element.more first text).more second text' =
      element.more (first ++ second) (text ++ text') := by
  simp [Element.more, String.append_assoc]

/-- The loop over the content takes this much of it, in front of more markup. -/
def Takes (child : ParserM Element) (piece : String) (children : List Element)
    (text : String) : Prop :=
  ∃ rounds ≤ (octets piece).length, ∀ fuel element before rest,
    (octets rest).head? = some 60 →
      parseContent child (fuel + rounds) element (.between before (piece ++ rest)) =
        parseContent child fuel (element.more children text) (.between (before ++ piece) rest)

/-- It takes markup for this, whatever is behind it. -/
structure Marks (child : ParserM Element) (piece : String) (children : List Element)
    (text : String) : Prop where
  opens : ∀ after, (octets (piece ++ after)).head? = some 60
  content : ∃ rounds ≤ (octets piece).length, ∀ fuel element before after,
    parseContent child (fuel + rounds) element (.between before (piece ++ after)) =
      parseContent child fuel (element.more children text) (.between (before ++ piece) after)

variable {child : ParserM Element}

theorem Skips.marks {mark : String} (h : Skips mark) : Marks child mark [] "" where
  opens := h.opens
  content := by
    obtain ⟨rounds, hrounds, hcontent⟩ := h.content
    refine ⟨rounds, hrounds, fun fuel element before after => ?_⟩
    rw [hcontent, Element.more_nil]

theorem CharData.takes {raw value : String} (h : CharData raw value)
    (hless : '<' ∉ raw.toList) : Takes child raw [] value := by
  by_cases hraw : raw = ""
  · have hvalue : value = "" := by
      have hdecode := h.decodes
      rw [hraw, decodeEntities_plain (by simp)] at hdecode
      cases hdecode
      rfl
    refine ⟨0, Nat.zero_le _, fun fuel element before rest _ => ?_⟩
    rw [hraw, hvalue, String.empty_append, String.append_empty, Element.more_nil]
    rfl
  · have hpos : 0 < (octets raw).length :=
      List.length_pos_of_ne_nil fun hnil => hraw (octets_injective hnil)
    refine ⟨1, hpos, fun fuel element before rest hrest => ?_⟩
    rw [parseContent_run hraw (notMem_octets (by decide : ('<').toNat < 128) hless) h.decodes
      hrest, Element.more, List.append_nil]

theorem Takes.cons {raw value piece text later text' : String}
    {children children' : List Element} (h : Takes child raw [] value)
    (hpiece : Marks child piece children text) (hlater : Takes child later children' text') :
    Takes child (raw ++ (piece ++ later)) (children ++ children')
      (value ++ (text ++ text')) := by
  obtain ⟨first, hfirst, hraw⟩ := h
  obtain ⟨second, hsecond, hpiece'⟩ := hpiece.content
  obtain ⟨third, hthird, hlater⟩ := hlater
  refine ⟨third + second + first, ?_, fun fuel element before rest hrest => ?_⟩
  · simp only [octets_append, List.length_append]
    omega
  · rw [String.append_assoc, String.append_assoc, ← Nat.add_assoc, ← Nat.add_assoc,
      hraw _ _ _ _ (hpiece.opens _), hpiece', hlater _ _ _ _ hrest, Element.more_more,
      Element.more_more]
    simp only [String.append_assoc, List.nil_append]

theorem cdata_marks {value : String} (h : ¬ sectionEnd.toList <:+: value.toList) :
    Marks child ("<![CDATA[" ++ (value ++ sectionEnd)) [] value where
  opens after := by
    rw [String.append_assoc, octets_append]
    rfl
  content := by
    refine ⟨1, ?_, fun fuel element before after => ?_⟩
    · rw [octets_append, List.length_append]
      exact Nat.le_add_right_of_le (by decide)
    · rw [String.append_assoc, parseContent_cdata child fuel element h, Element.more,
        List.append_nil, String.append_assoc]

theorem not_prefix_name {pattern name rest : Octets}
    (hpattern : ∀ octet ∈ pattern, endsName octet = false) (h : ¬ pattern <+: name)
    (hrest : ∀ octet ∈ rest.head?, endsName octet) : ¬ pattern <+: name ++ rest := by
  intro hstarts
  obtain hinside | ⟨tail, rfl⟩ :=
    List.prefix_or_prefix_of_prefix hstarts (List.prefix_append name rest)
  · exact h hinside
  · rw [List.prefix_append_right_inj] at hstarts
    cases tail with
    | nil => exact h (by rw [List.append_nil])
    | cons octet tail =>
        obtain ⟨behind, rfl⟩ := hstarts
        have hends := hrest octet (by rw [List.cons_append]; rfl)
        rw [hpattern octet (List.mem_append_right _ List.mem_cons_self)] at hends
        cases hends

theorem plain_of_inner {name rest : String} (hname : IsName name) (hinner : IsInner name)
    (hrest : ∀ octet ∈ (octets rest).head?, endsName octet) :
    Plain ("<" ++ (name ++ rest)) := by
  have hsource : octets ("<" ++ (name ++ rest)) = 60 :: (octets name ++ octets rest) := by
    rw [octets_append, octets_append]
    rfl
  have hpatterns : octets "</" = [60, 47] ∧ octets "<!--" = 60 :: octets "!--" ∧
      cdataOpen = 60 :: octets "![CDATA[" := ⟨rfl, rfl, rfl⟩
  obtain ⟨octet, hhead, hoctet⟩ := hname.head rest
  refine ⟨?_, ?_, ?_⟩
  · rw [hsource, hpatterns.1, ← octets_append]
    cases hoctets : octets (name ++ rest) with
    | nil => rfl
    | cons first tail =>
        rw [hoctets] at hhead
        cases hhead
        have hslash : (47 : UInt8) ≠ octet := by
          rintro rfl
          exact absurd hoctet (by decide)
        simp [List.isPrefixOf, hslash]
  · rw [hsource, hpatterns.2.1, ← Bool.not_eq_true, List.isPrefixOf_iff_prefix,
      List.cons_prefix_cons, not_and]
    refine fun _ => not_prefix_name (by decide) (fun hstarts => hinner.1 ?_) hrest
    rw [octets_eq_flatMap, octets_eq_flatMap] at hstarts
    exact prefix_of_octets (by decide) hstarts
  · rw [hsource, hpatterns.2.2, ← Bool.not_eq_true, List.isPrefixOf_iff_prefix,
      List.cons_prefix_cons, not_and]
    refine fun _ => not_prefix_name (by decide) (fun hstarts => hinner.2 ?_) hrest
    rw [octets_eq_flatMap, octets_eq_flatMap] at hstarts
    exact prefix_of_octets (by decide) hstarts

section Documents

variable {mark : String}

/-- The loop takes what the grammar derives, with a run of text in front of it. -/
theorem Content.takes (hmark : Skips mark)
    {shape : Nat → String → String → Element → Prop} {bound : Nat}
    (hchild : ∀ {count : Nat} {source marked : String} {found : Element},
      shape count source marked found → (octets marked).length ≤ bound → IsInner found.name →
        Marks child marked [found] "")
    {count : Nat} {source marked text : String} {children : List Element}
    (h : Content mark shape count source marked children text)
    (hbound : (octets marked).length ≤ bound) {raw value : String} (hraw : CharData raw value)
    (hless : '<' ∉ raw.toList) : Takes child (raw ++ marked) children (value ++ text) := by
  induction h generalizing raw value with
  | nil =>
      rw [String.append_empty, String.append_empty]
      exact hraw.takes hless
  | insert _ ih =>
      rw [octets_append, List.length_append] at hbound
      have hlater := ih (by omega) .nil (by simp)
      have htakes := (hraw.takes hless).cons hmark.marks hlater
      simpa only [String.empty_append, List.nil_append] using htakes
  | glyph hglyph hnot _ ih =>
      rw [octets_append, List.length_append] at hbound
      have htakes := ih (by omega) (hraw.append hglyph.charData) (by simp [hless, hnot])
      simpa only [String.append_assoc] using htakes
  | comment hclosed _ ih =>
      rw [octets_append, List.length_append] at hbound
      have hlater := ih (by omega) .nil (by simp)
      have htakes := (hraw.takes hless).cons (comment_skips hclosed).marks hlater
      simpa only [String.empty_append, List.nil_append] using htakes
  | cdata hvalue _ ih =>
      rw [octets_append, List.length_append] at hbound
      have hlater := ih (by omega) .nil (by simp)
      have htakes := (hraw.takes hless).cons (cdata_marks hvalue) hlater
      simpa only [String.empty_append, List.nil_append] using htakes
  | child hshape hinner _ ih =>
      rw [octets_append, List.length_append] at hbound
      have hlater := ih (by omega) .nil (by simp)
      have htakes := (hraw.takes hless).cons (hchild hshape (by omega) hinner) hlater
      simpa only [String.empty_append, List.singleton_append] using htakes

theorem Shape.exists_tag {shape : Nat → String → String → Element → Prop} {count : Nat}
    {source marked : String} {found : Element} (h : Shape mark shape count source marked found) :
    ∃ rest, marked = "<" ++ (found.name ++ rest) ∧ IsName found.name ∧
      ∀ after, ∀ octet ∈ (octets (rest ++ after)).head?, endsName octet := by
  cases h with
  | empty hname hhead htag => exact ⟨_, rfl, hname, htag.head_append hhead⟩
  | content hname hhead htag _ _ =>
      refine ⟨_, rfl, hname, fun after => ?_⟩
      rw [String.append_assoc]
      exact htag.head_append hhead _

theorem Tagged.exists_tag {levels count : Nat} {source marked : String} {found : Element}
    (h : Tagged mark levels count source marked found) :
    ∃ rest, marked = "<" ++ (found.name ++ rest) ∧ IsName found.name ∧
      ∀ after, ∀ octet ∈ (octets (rest ++ after)).head?, endsName octet := by
  cases levels with
  | zero => exact h.elim
  | succ levels => exact Shape.exists_tag h

theorem Marks.of_reads {levels fuel count : Nat} {source marked : String} {found : Element}
    (h : Tagged mark levels count source marked found) (hinner : IsInner found.name)
    (hreads : ∀ after, Reads (parseElement fuel levels) marked found after) :
    Marks (parseElement fuel levels) marked [found] "" := by
  obtain ⟨rest, rfl, hname, hhead⟩ := h.exists_tag
  refine ⟨fun after => ?_, 1, ?_, fun fuel element before after => ?_⟩
  · rw [String.append_assoc, octets_append]
    rfl
  · rw [octets_append, List.length_append]
    exact Nat.le_add_right 1 _
  · have hplain := plain_of_inner hname hinner (hhead after)
    have hread := hreads after before
    simp only [String.append_assoc] at hplain hread ⊢
    rw [parseContent_less hplain (by rw [octets_append]; rfl), bind_ok hread, Element.more,
      String.append_empty]

theorem Tagged.reads (hmark : Skips mark) {levels count : Nat} {source marked : String}
    {found : Element} (h : Tagged mark levels count source marked found) {fuel : Nat}
    (hfuel : (octets marked).length ≤ fuel) (after : String) :
    Reads (parseElement fuel levels) marked found after := by
  induction levels generalizing count source marked found after with
  | zero => exact h.elim
  | succ levels ih =>
      cases h with
      | @empty name tag attrs hname hhead htag =>
          simp only [octets_append, List.length_append] at hfuel
          have hless : (octets tag).length ≤ fuel := by omega
          have hattrs := htag.reads hless [] ("" ++ after)
          have hread : Reads (parseElement fuel (levels + 1)) ("<" ++ (name ++ (tag ++ "")))
              { name, attrs, children := [], text := "" } after :=
            reads_parseElement_tag hname (by
              rw [String.append_assoc]
              exact htag.head_append hhead _) hattrs (.pure _ after)
          rwa [String.append_empty] at hread
      | @content count name tag source marked text space attrs children hname hhead htag
          hcontent hspace =>
          have hlength : (octets "</").length = 2 := rfl
          simp only [octets_append, List.length_append, hlength] at hfuel
          have hless : (octets tag).length ≤ fuel := by omega
          have hinside : (octets marked).length ≤ fuel := by omega
          have hattrs := htag.reads hless []
            (marked ++ ("</" ++ (name ++ (space ++ ">"))) ++ after)
          rw [List.nil_append] at hattrs
          refine reads_parseElement_tag hname (by
            rw [String.append_assoc]
            exact htag.head_append hhead _) hattrs ?_
          have htakes : Takes (parseElement fuel levels) ("" ++ marked) children ("" ++ text) :=
            hcontent.takes hmark
              (fun hshape hbound hinner => .of_reads hshape hinner (ih hshape hbound))
              hinside .nil (by simp)
          obtain ⟨rounds, hrounds, htakes⟩ := htakes
          obtain ⟨more, rfl⟩ : ∃ more, fuel = more + 1 + rounds := ⟨fuel - rounds - 1, by
            rw [String.empty_append] at hrounds
            omega⟩
          intro before
          have hclose := parseContent_closing (parseElement (more + 1 + rounds) levels)
            { name, attrs, children, text } hname hspace more after (before ++ marked)
          have hround := htakes (more + 1) { name, attrs, children := [], text := "" } before
            ("</" ++ (name ++ (space ++ ">")) ++ after) (by
              rw [String.append_assoc, octets_append]
              rfl)
          simp only [String.empty_append, Element.more, List.nil_append] at hround
          rw [if_neg Bool.false_ne_true, String.append_assoc, hround, hclose,
            String.append_assoc]

theorem Document.parses (hmark : Skips mark) {count : Nat} {source marked : String}
    {root : Element} (h : Document mark count source marked root) :
    parse (octets marked) = .ok root := by
  obtain @⟨first, count, last, front, front', source, marked, back, back', root, hfront,
    htagged, htag, hback⟩ := h
  obtain ⟨rest, hmarked, -, -⟩ := htagged.exists_tag
  have hopens : Opens (marked ++ back') := by
    rw [hmarked]
    exact (htag.opens rest).append back'
  generalize hfuel : (octets (front' ++ (marked ++ back'))).length + 1 = fuel
  simp only [octets_append, List.length_append] at hfuel
  have hfirst := hfront.reads hmark.toSkipsOutside (.inr hopens) isSpace_empty
    (show (octets front').length < fuel by omega)
  have hlast := hback.reads hmark.toSkipsOutside (.inl rfl) isSpace_empty
    (show (octets back').length < fuel by omega)
  rw [String.empty_append] at hfirst hlast
  refine parse_of_reads ?_ hfirst (htagged.reads hmark (by omega) back') hlast
  simp only [octets_append, List.length_append]
  exact hfuel

/-! ## Leaving the marks out -/

theorem Outside.unmark {count : Nat} {source marked : String}
    (h : Outside mark count source marked) (other : String) : Outside other 0 source source := by
  induction h with
  | nil => exact .nil
  | insert _ ih => exact ih
  | aside haside _ ih => exact .aside haside ih

theorem Content.unmark {shape shape' : Nat → String → String → Element → Prop}
    {other : String}
    (hshape : ∀ {count : Nat} {source marked : String} {found : Element},
      shape count source marked found → shape' 0 source source found)
    {count : Nat} {source marked text : String} {children : List Element}
    (h : Content mark shape count source marked children text) :
    Content other shape' 0 source source children text := by
  induction h with
  | nil => exact .nil
  | insert _ ih => exact ih
  | glyph hglyph hless _ ih => exact .glyph hglyph hless ih
  | comment hclosed _ ih => exact .comment hclosed ih
  | cdata hvalue _ ih => exact .cdata hvalue ih
  | child hchild hinner _ ih => exact .child (hshape hchild) hinner ih

theorem Tagged.unmark {levels count : Nat} {source marked : String} {found : Element}
    (h : Tagged mark levels count source marked found) (other : String) :
    Tagged other levels 0 source source found := by
  induction levels generalizing count source marked found with
  | zero => exact h.elim
  | succ levels ih =>
      cases h with
      | empty hname hhead htag => exact .empty hname hhead htag
      | content hname hhead htag hcontent hspace =>
          exact .content hname hhead htag (hcontent.unmark fun hshape => ih hshape) hspace

theorem Document.unmark {count : Nat} {source marked : String} {root : Element}
    (h : Document mark count source marked root) (other : String) :
    Document other 0 source source root := by
  obtain ⟨hfront, htagged, htag, hback⟩ := h
  exact .mk (hfront.unmark other) (htagged.unmark other) htag (hback.unmark other)

/-- A comment. -/
def comment (body : String) : String := "<!--" ++ (body ++ "-->")

theorem comment_closed {body : String} (h : ¬ "-->".toList <:+: ("<!--" ++ body).toList) :
    Closed "<!--" "-->" (comment body) := by
  refine ⟨?_, "<!--" ++ body, by rw [comment, String.append_assoc], h⟩
  rw [comment, String.toList_append]
  exact List.prefix_append _ _

/-- A document comes back with the tree it stands for, whatever might be put into it. -/
theorem Document.parses_source {count : Nat} {source marked : String} {root : Element}
    (h : Document mark count source marked root) : parse (octets source) = .ok root :=
  (h.unmark (comment "")).parses (comment_skips (comment_closed (by decide)))

end Documents

end Vortice.Proto.Xml

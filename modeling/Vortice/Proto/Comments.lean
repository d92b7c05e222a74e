import Vortice.Proto.Reading

/-!
# Comments

A comment in a document changes nothing, unless it ends where it begins: the end of a
comment is sought from its very beginning on, so that `<!-->` and `<!--->` are whole
comments and what follows them is read as part of the document.
-/

namespace Vortice.Proto.Xml

open Vortice.Foundation

/-- What may stand in a comment. -/
def IsBody (body : String) : Prop :=
  ¬ "--".toList <:+: body.toList ∧ ¬ "-".toList <:+ body.toList

/-- Every document is read as before with the comment in it, at any of the places where one
may stand. -/
def Transparent (body : String) : Prop :=
  ∀ source root, parse (octets source) = .ok root → ∀ marked,
    (∃ found, Document (comment body) 1 source marked found) →
      parse (octets marked) = .ok root

/-- So many sections with nothing in them. -/
def emptySections (count : Nat) : String :=
  String.join (List.replicate count "<![CDATA[]]>")

/-- The comment does not end where it begins, or what is left of it is all markup that has
nothing in it. -/
def Sound (body : String) : Prop :=
  (¬ ">".toList <+: body.toList ∧ ¬ "->".toList <+: body.toList) ∨
    ∃ front ∈ [">", "->"], ∃ count, body = front ++ (emptySections count ++ "<!")

/-! ## Sound comments are skipped -/

theorem comment_closed_of_body {body : String} (hbody : IsBody body)
    (hgreater : ¬ ">".toList <+: body.toList) (harrow : ¬ "->".toList <+: body.toList) :
    Closed "<!--" "-->" (comment body) := by
  refine comment_closed fun hcontained => ?_
  have hopening : "<!--".toList = ['<', '!', '-', '-'] := by decide
  have hclosing : "-->".toList = ['-', '-', '>'] := by decide
  have hparts : ">".toList = ['>'] ∧ "->".toList = ['-', '>'] ∧ "--".toList = ['-', '-'] := by
    decide
  rw [hparts.1] at hgreater
  rw [hparts.2.1] at harrow
  rw [String.toList_append, hopening, hclosing] at hcontained
  simp only [List.cons_append, List.nil_append, List.infix_cons_iff, List.cons_prefix_cons]
    at hcontained
  obtain ⟨h, -⟩ | ⟨h, -⟩ | ⟨-, -, hstarts⟩ | ⟨-, hstarts⟩ | hinside := hcontained
  · exact absurd h (by decide)
  · exact absurd h (by decide)
  · exact hgreater hstarts
  · exact harrow hstarts
  · refine hbody.1 ?_
    rw [hparts.2.2]
    exact (List.prefix_append ['-', '-'] ['>']).isInfix.trans hinside

theorem emptySection_skips : Skips "<![CDATA[]]>" := by
  have hdeclaration : SkipsOutside "<![CDATA[]]>" :=
    declaration_skips ⟨by decide, "<![CDATA[]]", by decide, by decide⟩ (by decide)
  refine ⟨hdeclaration, ?_⟩
  have hnone : ¬ sectionEnd.toList <:+: ("" : String).toList := by decide
  have hsame : "<![CDATA[" ++ ("" ++ sectionEnd) = "<![CDATA[]]>" := by decide
  refine ⟨1, by decide, fun child fuel element before after => ?_⟩
  have hsource : "<![CDATA[" ++ ("" ++ sectionEnd ++ after) = "<![CDATA[]]>" ++ after := by
    rw [← String.append_assoc, hsame]
  have hbehind : before ++ "<![CDATA[" ++ ("" ++ sectionEnd) = before ++ "<![CDATA[]]>" := by
    rw [String.append_assoc, hsame]
  have hround := parseContent_cdata child fuel element hnone before after
  rw [String.append_empty, hsource, hbehind] at hround
  cases element
  exact hround

theorem emptySections_skips {last : String} (hlast : Skips last) (count : Nat) :
    Skips (emptySections count ++ last) := by
  induction count with
  | zero => simpa [emptySections] using hlast
  | succ count ih =>
      rw [emptySections, List.replicate_succ, String.join_cons, String.append_assoc]
      exact emptySection_skips.append ih

theorem Sound.skips {body : String} (h : Sound body) (hbody : IsBody body) :
    Skips (comment body) := by
  obtain ⟨hgreater, harrow⟩ | ⟨front, hfront, count, rfl⟩ := h
  · exact comment_skips (comment_closed_of_body hbody hgreater harrow)
  · have hfirst : Skips ("<!--" ++ front) := by
      simp only [List.mem_cons, List.not_mem_nil, or_false] at hfront
      obtain rfl | rfl := hfront
      · exact comment_skips ⟨by decide, "<!", by decide, by decide⟩
      · exact comment_skips ⟨by decide, "<!-", by decide, by decide⟩
    have hlast : Skips ("<!" ++ "-->") :=
      comment_skips ⟨by decide, "<!", by decide, by decide⟩
    have hskips := hfirst.append (emptySections_skips hlast count)
    simpa only [comment, String.append_assoc] using hskips

theorem Sound.transparent {body : String} (h : Sound body) (hbody : IsBody body) :
    Transparent body := by
  rintro source root hparse marked ⟨found, hdocument⟩
  have hsource := hdocument.parses_source
  rw [hparse] at hsource
  cases hsource
  exact hdocument.parses (h.skips hbody)

/-! ## Other comments are not -/

/-- Markup that leaves nothing in an element. -/
inductive Bare : String → Prop
  | nil : Bare ""
  | comment {piece source : String} : Closed "<!--" "-->" piece → Bare source →
      Bare (piece ++ source)
  | cdata {source : String} : Bare source → Bare ("<![CDATA[]]>" ++ source)

theorem Content.bare {mark : String} {shape : Nat → String → String → Element → Prop}
    {count : Nat} {source marked text : String} {children : List Element}
    (h : Content mark shape count source marked children text) (hchildren : children = [])
    (htext : text = "") : Bare source := by
  induction h with
  | nil => exact .nil
  | insert _ ih => exact ih hchildren htext
  | glyph _ _ _ _ =>
      have hlist := congrArg String.toList htext
      simp [Char.toString] at hlist
  | comment hclosed _ ih => exact .comment hclosed (ih hchildren htext)
  | @cdata count value source marked text children hvalue _ ih =>
      obtain ⟨rfl, rfl⟩ := String.append_eq_empty_iff.mp htext
      have hsame : "<![CDATA[" ++ ("" ++ sectionEnd) = "<![CDATA[]]>" := by decide
      rw [hsame]
      exact .cdata (ih hchildren rfl)
  | child => cases hchildren

theorem eq_of_comment {body source tail : List Char}
    (hopening : ['<', '!', '-', '-'] <+: body ++ ['-', '-', '>'])
    (hsource : body ++ ['-', '-', '>'] ++ source = tail ++ ['-', '-', '>'])
    (hdashes : ¬ ['-', '-'] <:+: tail) (hlast : ¬ ['-'] <:+ tail) : tail = ['<', '!'] := by
  have hbody : body = tail := by
    obtain ⟨more, rfl, -⟩ | ⟨more, hsplit, hmore⟩ := List.append_eq_append_iff.mp hsource
    · exact absurd ⟨body, '>' :: more, by simp⟩ hdashes
    · match more with
      | [] =>
          rw [List.append_nil] at hsplit
          exact absurd ⟨body, ['>'], by simp [← hsplit]⟩ hdashes
      | [_] =>
          obtain ⟨rfl, -⟩ := List.cons.inj hmore
          have hend := congrArg List.getLast? hsplit
          simp at hend
      | [_, _] =>
          simp only [List.cons_append, List.cons.injEq] at hmore
          obtain ⟨rfl, rfl, -⟩ := hmore
          have hend := congrArg List.getLast? hsplit
          simp at hend
      | first :: second :: third :: rest =>
          simp only [List.cons_append, List.cons.injEq] at hmore
          obtain ⟨rfl, rfl, rfl, hrest⟩ := hmore
          obtain ⟨rfl, -⟩ := List.append_eq_nil_iff.mp hrest.symm
          exact List.append_cancel_right hsplit
  subst hbody
  match body with
  | [] => simp at hopening
  | [_] => simp at hopening
  | [_, _] =>
      simp only [List.cons_append, List.cons_prefix_cons] at hopening
      obtain ⟨rfl, rfl, -⟩ := hopening
      rfl
  | [first, second, third] =>
      simp only [List.cons_append, List.cons_prefix_cons] at hopening
      obtain ⟨-, -, rfl, -⟩ := hopening
      exact absurd ⟨[first, second], rfl⟩ hlast
  | first :: second :: third :: fourth :: rest =>
      simp only [List.cons_append, List.cons_prefix_cons] at hopening
      obtain ⟨-, -, rfl, rfl, -⟩ := hopening
      exact absurd ⟨[first, second], rest, rfl⟩ hdashes

theorem isBody_of_suffix {front tail : String} (h : IsBody (front ++ tail)) : IsBody tail := by
  obtain ⟨hdashes, hlast⟩ := h
  rw [String.toList_append] at hdashes hlast
  exact ⟨fun hcontained => hdashes (hcontained.trans (List.suffix_append _ _).isInfix),
    fun hsuffix => hlast (hsuffix.trans (List.suffix_append _ _))⟩

/-- What is left of a comment is nothing but empty sections and the beginning of another. -/
theorem eq_emptySections {tail source : String} (h : Bare source)
    (hsource : source = tail ++ "-->") (htail : IsBody tail) :
    ∃ count, tail = emptySections count ++ "<!" := by
  have hclosing : "-->".toList = ['-', '-', '>'] := by decide
  induction h generalizing tail with
  | nil =>
      have hlist := congrArg String.toList hsource
      simp [hclosing] at hlist
  | @comment piece source hclosed _ _ =>
      obtain ⟨hopening, body, rfl, -⟩ := hclosed
      have hlist := congrArg String.toList hsource
      simp only [String.toList_append, hclosing] at hlist hopening
      have hsame := eq_of_comment hopening hlist htail.1 htail.2
      refine ⟨0, ?_⟩
      rw [← String.toList_inj, hsame]
      decide
  | @cdata source hbare ih =>
      have hlist := congrArg String.toList hsource
      simp only [String.toList_append, hclosing] at hlist
      obtain ⟨more, hmore, hrest⟩ | ⟨more, hmore, hrest⟩ := List.append_eq_append_iff.mp hlist
      · have heq : tail = "<![CDATA[]]>" ++ String.ofList more := by
          rw [← String.toList_inj, hmore]
          simp
        subst heq
        obtain ⟨count, hcount⟩ := ih (by
          rw [← String.toList_inj, hrest]
          simp) (isBody_of_suffix htail)
        refine ⟨count + 1, ?_⟩
        rw [hcount, emptySections, emptySections, List.replicate_succ, String.join_cons,
          String.append_assoc]
      · -- a section has no dash in it
        cases more with
        | nil =>
            have hnone : source = "" ++ "-->" := by
              rw [← String.toList_inj, ← List.nil_append source.toList, ← hrest]
              decide
            obtain ⟨count, hcount⟩ := ih hnone ⟨by decide, by decide⟩
            obtain ⟨-, hend⟩ := String.append_eq_empty_iff.mp hcount.symm
            exact absurd hend (by decide)
        | cons ch more =>
            obtain ⟨rfl, -⟩ := List.cons.inj hrest
            have hmem : '-' ∈ "<![CDATA[]]>".toList := by
              rw [hmore]
              exact List.mem_append_right _ List.mem_cons_self
            exact absurd hmem (by decide)

/-- A name that is longer than what is in front of its end tag stands nowhere before. -/
theorem eq_of_endTag {front source more : List Char} {count : Nat} (hcount : front.length < count)
    (hmore : more ≠ [])
    (h : front ++ ('<' :: '/' :: (List.replicate count 'a' ++ ['>'])) =
      source ++ ('<' :: '/' :: (List.replicate count 'a' ++ more))) : source = front := by
  obtain ⟨rest, rfl, hrest⟩ | ⟨rest, rfl, hrest⟩ := List.append_eq_append_iff.mp h
  · have hlength := congrArg List.length hrest
    have hpos := List.length_pos_of_ne_nil hmore
    simp only [List.length_append, List.length_cons, List.length_nil] at hlength
    have hnil : rest = [] := List.length_eq_zero_iff.mp (by omega)
    rw [hnil, List.append_nil]
  · match rest with
    | [] => rw [List.append_nil]
    | [_] =>
        simp only [List.cons_append, List.nil_append, List.cons.injEq] at hrest
        exact absurd hrest.2.1 (by decide)
    | first :: second :: rest =>
        exfalso
        simp only [List.cons_append, List.cons.injEq] at hrest
        obtain ⟨-, -, hrest⟩ := hrest
        simp only [List.length_append, List.length_cons] at hcount
        obtain ⟨later, hlater, -⟩ | ⟨later, hlater, htail⟩ := List.append_eq_append_iff.mp hrest
        · have hlength := congrArg List.length hlater
          simp only [List.length_replicate, List.length_append] at hlength
          omega
        · cases later with
          | nil =>
              have hlength := congrArg List.length hlater
              simp only [List.length_replicate, List.length_append, List.length_nil] at hlength
              omega
          | cons ch later =>
              obtain ⟨rfl, -⟩ := List.cons.inj htail
              have hmem : '<' ∈ List.replicate count 'a' := by
                rw [hlater]
                exact List.mem_append_right _ List.mem_cons_self
              exact absurd (List.eq_of_mem_replicate hmem) (by decide)

/-- A name of so many letters. -/
def longName (count : Nat) : String := String.ofList (List.replicate count 'a')

theorem isTag_longName {count : Nat} (h : 0 < count) : IsTag (longName count) := by
  have hall : ∀ octet ∈ octets (longName count), octet = 97 := by
    rw [longName, octets_ofList]
    intro octet hmem
    obtain ⟨ch, hch, hoctet⟩ := List.mem_flatMap.mp hmem
    rw [List.eq_of_mem_replicate hch, utf8EncodeChar_ascii (by decide)] at hoctet
    exact List.mem_singleton.mp hoctet
  refine ⟨⟨fun hempty => ?_, fun octet hmem => ?_⟩, fun octet hmem => ?_⟩
  · have hlist := congrArg String.toList hempty
    rw [longName, String.toList_ofList, String.toList_empty, List.replicate_eq_nil_iff] at hlist
    omega
  · rw [hall octet hmem]
    decide
  · rw [hall octet (List.mem_of_mem_head? hmem)]
    decide

theorem eq_of_longName {tail source space rest : String}
    (h : tail ++ ("-->" ++ ("</" ++ (longName (tail.toList.length + 4) ++ ">"))) =
      source ++ ("</" ++ (longName (tail.toList.length + 4) ++ (space ++ ">"))) ++ rest) :
    source = tail ++ "-->" := by
  have hparts : "</".toList = ['<', '/'] ∧ ">".toList = ['>'] ∧
      "-->".toList = ['-', '-', '>'] := by decide
  have hlist := congrArg String.toList h
  simp only [String.toList_append, longName, String.toList_ofList, hparts, List.append_assoc]
    at hlist
  have hcount : (tail.toList ++ ['-', '-', '>']).length < tail.toList.length + 4 := by simp
  have hmore : space.toList ++ (['>'] ++ rest.toList) ≠ [] := by simp
  have hsource : source.toList = tail.toList ++ ['-', '-', '>'] :=
    eq_of_endTag hcount hmore (by simpa using hlist)
  rw [← String.toList_inj, hsource, String.toList_append, hparts.2.2]

/-- What is left of a comment that ends early has nothing in it if no document changes. -/
theorem Transparent.bare {front tail : String} (hfront : Skips ("<!--" ++ front))
    (h : Transparent (front ++ tail)) : Bare (tail ++ "-->") := by
  have hpos : 0 < tail.toList.length + 4 := by omega
  have htag := isTag_longName hpos
  generalize hname : longName (tail.toList.length + 4) = name at htag
  have hclose : TagEnd ("" ++ ">") [] false := .close isSpace_empty
  have hhead : ∀ octet ∈ (octets ("" ++ ">")).head?, endsName octet := by decide
  have hshape : Shape (comment (front ++ tail)) (Tagged (comment (front ++ tail)) maxDepth) 1 _ _
      { name, attrs := [], children := [], text := "" } :=
    .content htag.1 hhead hclose (.insert .nil) isSpace_empty
  have hdocument := Document.mk .nil hshape htag .nil
  have hparse := h _ _ hdocument.parses_source _ ⟨_, hdocument⟩
  simp only [comment, String.empty_append, String.append_empty, String.append_assoc] at hparse
  obtain ⟨later, hroot⟩ := exists_of_parse (htag.opens _) hparse
  generalize hfuel : (octets ("<" ++ (name ++ (">" ++ ("<!--" ++ (front ++ (tail ++ ("-->" ++
    ("</" ++ (name ++ ">")))))))))).length + 1 = fuel at hroot
  simp only [octets_append, List.length_append] at hfuel
  have hnone : ∀ attr ∈ ([] : List (String × String)), IsName attr.1 := by simp
  have hopen := parseElement_open htag hnone (by simp only [List.length_nil]; omega : _ < fuel)
    maxDepth "" ("<!--" ++ (front ++ (tail ++ ("-->" ++ ("</" ++ (name ++ ">"))))))
  rw [writeAttrs, String.empty_append, String.empty_append] at hopen
  rw [hopen] at hroot
  -- the comment has ended behind `front`
  obtain ⟨rounds, hrounds, hskip⟩ := hfront.content
  rw [octets_length_append] at hrounds
  obtain ⟨more, hmore⟩ : ∃ more, fuel = more + rounds := ⟨fuel - rounds, by omega⟩
  have hassoc : "<!--" ++ (front ++ (tail ++ ("-->" ++ ("</" ++ (name ++ ">"))))) =
      "<!--" ++ front ++ (tail ++ ("-->" ++ ("</" ++ (name ++ ">")))) :=
    String.append_assoc.symm
  have hround := hskip (parseElement fuel maxDepth) more
    { name, attrs := [], children := [], text := "" } ("<" ++ name ++ ">")
    (tail ++ ("-->" ++ ("</" ++ (name ++ ">"))))
  rw [← hmore, ← hassoc] at hround
  rw [hround] at hroot
  have hless : (octets (tail ++ ("-->" ++ ("</" ++ (name ++ ">"))))).length < more := by
    simp only [octets_append, List.length_append]
    omega
  have hwithin : (octets (tail ++ ("-->" ++ ("</" ++ (name ++ ">"))))).length < fuel := by omega
  have hchild := safe_child hwithin (safe_parseElement "" maxDepth)
  obtain ⟨piece, result, rest, hpiece, ⟨source, children, text, space, hcontent, -, hresult, hend⟩,
    hread⟩ | ⟨error, parser, herror⟩ := safe_parseContent "" hchild hless (Nat.le_refl _)
      { name, attrs := [], children := [], text := "" } htag.1
        ("<" ++ name ++ ">" ++ ("<!--" ++ front))
  · rw [hread] at hroot
    cases hroot
    obtain ⟨hchildren, htext⟩ : children = [] ∧ text = "" := by
      have hsame := hresult
      simp only [Element.more, List.nil_append, String.empty_append, Element.mk.injEq] at hsame
      exact ⟨hsame.2.2.1.symm, hsame.2.2.2.symm⟩
    have hbare := hcontent.bare hchildren htext
    rw [hend] at hpiece
    subst hname
    rwa [eq_of_longName hpiece] at hbare
  · rw [herror] at hroot
    cases hroot

theorem Transparent.sound_of_front {front body : String} (hfront : front ∈ [">", "->"])
    (hskips : Skips ("<!--" ++ front)) (hstarts : front.toList <+: body.toList)
    (hbody : IsBody body) (h : Transparent body) : Sound body := by
  obtain ⟨tail, htail⟩ := hstarts
  have heq : body = front ++ String.ofList tail := by
    rw [← String.toList_inj, ← htail]
    simp
  subst heq
  obtain ⟨count, hcount⟩ := eq_emptySections (h.bare hskips) rfl (isBody_of_suffix hbody)
  exact .inr ⟨front, hfront, count, by rw [hcount]⟩

/-- A comment changes no document that it is put into just when it is sound. -/
theorem comment_transparent_iff {body : String} (hbody : IsBody body) :
    Transparent body ↔ Sound body := by
  refine ⟨fun h => ?_, fun h => h.transparent hbody⟩
  by_cases hgreater : ">".toList <+: body.toList
  · exact h.sound_of_front (by simp)
      (comment_skips ⟨by decide, "<!", by decide, by decide⟩) hgreater hbody
  by_cases harrow : "->".toList <+: body.toList
  · exact h.sound_of_front (by simp)
      (comment_skips ⟨by decide, "<!-", by decide, by decide⟩) harrow hbody
  · exact .inl ⟨hgreater, harrow⟩

/-- An ordinary comment changes no document. -/
theorem ordinary_transparent : Transparent " hi " :=
  (comment_transparent_iff ⟨by decide, by decide⟩).mpr (.inl ⟨by decide, by decide⟩)

/-- The rest of a comment that ends early becomes the text of the element it stands in. -/
theorem early_end_misread : IsBody ">x" ∧
    parse (octets "<a></a>") = .ok { name := "a", attrs := [], children := [], text := "" } ∧
    (∃ found, Document (comment ">x") 1 "<a></a>" "<a><!-->x--></a>" found) ∧
    parse (octets "<a><!-->x--></a>") =
      .ok { name := "a", attrs := [], children := [], text := "x-->" } ∧
    ¬ Transparent ">x" := by
  have htag : IsTag "a" := ⟨⟨by decide, by decide⟩, by decide⟩
  have hclose : TagEnd ("" ++ ">") [] false := .close isSpace_empty
  have hhead : ∀ octet ∈ (octets ("" ++ ">")).head?, endsName octet := by decide
  have hcomment : Closed "<!--" "-->" "<!-->" := ⟨by decide, "<!", by decide, by decide⟩
  have hdata : CharData "x-->" "x-->" := by
    have hplain := charData_plain (by decide : '&' ∉ "x-->".toList)
    rwa [String.ofList_toList] at hplain
  have hinsert : Shape (comment ">x") (Tagged (comment ">x") maxDepth) 1 _ _
      { name := "a", attrs := [], children := [], text := "" } :=
    .content htag.1 hhead hclose (.insert .nil) isSpace_empty
  have hrest : Shape "" (Tagged "" maxDepth) 0 _ _
      { name := "a", attrs := [], children := [], text := "x-->" ++ "" } :=
    .content htag.1 hhead hclose (.comment hcomment (charData_content hdata (by decide) .nil))
      isSpace_empty
  have hmarked := Document.mk .nil hinsert htag .nil
  have hread := (Document.mk .nil hrest htag .nil).parses_source
  have hsources : "" ++ ("<" ++ ("a" ++ ("" ++ ">" ++ ("" ++ ("</" ++ ("a" ++ ("" ++ ">"))))))
        ++ "") = "<a></a>" ∧
      "" ++ ("<" ++ ("a" ++ ("" ++ ">" ++ (comment ">x" ++ "" ++ ("</" ++ ("a" ++
        ("" ++ ">")))))) ++ "") = "<a><!-->x--></a>" ∧
      "" ++ ("<" ++ ("a" ++ ("" ++ ">" ++ ("<!-->" ++ ("x-->" ++ "") ++ ("</" ++ ("a" ++
        ("" ++ ">")))))) ++ "") = "<a><!-->x--></a>" := by decide
  rw [hsources.1, hsources.2.1] at hmarked
  rw [hsources.2.2, String.append_empty] at hread
  refine ⟨⟨by decide, by decide⟩, hmarked.parses_source, ⟨_, hmarked⟩, hread, fun h => ?_⟩
  have hsame := h _ _ hmarked.parses_source _ ⟨_, hmarked⟩
  rw [hread] at hsame
  have htext := congrArg Element.text (Except.ok.inj hsame)
  exact absurd htext (by decide)

end Vortice.Proto.Xml

import Vortice.Proto.Sections

/-!
# Management messages that come back

A message comes back from its payload exactly when no content of its profiles ends the
section that it stands in.  A content that does is read, at best, past the end of its own
element, and then there is too little left for the profiles behind it.
-/

namespace Vortice.Proto.Xml

open Vortice.Foundation

/-- The document that was read is one element, and was read from its beginning. -/
theorem exists_of_parse {source : String} (hopens : Opens source) {root : Element}
    (h : parse (octets source) = .ok root) :
    ∃ later, parseElement ((octets source).length + 1) (maxDepth + 1) (.between "" source) =
      .ok root later := by
  have hprolog := reads_skipProlog "" source nofun (.inr hopens)
    (octets source).length ""
  rw [String.empty_append, String.append_empty] at hprolog
  rw [parse_octets] at h
  split at h
  · rename_i found later hdocument
    cases h
    rw [parseDocument, bind_ok hprolog] at hdocument
    obtain ⟨element, behind, helement, hrest⟩ := bind_eq_ok hdocument
    obtain ⟨_, _, -, hend⟩ := bind_eq_ok hrest
    rw [get_bind] at hend
    split at hend
    · cases hend
    · cases hend
      exact ⟨behind, helement⟩
  · cases h

/-- The children found while reading the content are behind those found before. -/
theorem parseContent_children {child : ParserM Element} {fuel : Nat} {element result : Element}
    {start later : Parser} (h : parseContent child fuel element start = .ok result later) :
    ∃ more, result.children = element.children ++ more := by
  induction fuel generalizing element start with
  | zero => cases h
  | succ fuel ih =>
      obtain ⟨rfl, -⟩ | ⟨text, -, middle, -, -, hrest⟩ | ⟨found, middle, -, hrest⟩ :=
        parseContent_round h
      · exact ⟨[], (List.append_nil _).symm⟩
      · obtain ⟨more, hmore⟩ := ih hrest
        exact ⟨more, hmore⟩
      · obtain ⟨more, hmore⟩ := ih hrest
        exact ⟨found :: more, by rw [hmore, List.append_assoc, List.singleton_append]⟩

theorem parseContent_foreign {child : ParserM Element} {fuel : Nat} {element result : Element}
    {name : String} (hname : IsName name) (hne : name ≠ element.name) {before after : String}
    {later : Parser} : parseContent child fuel element
      (.between before ("</" ++ (name ++ (">" ++ after)))) ≠ .ok result later := by
  intro h
  obtain _ | fuel := fuel
  · cases h
  · rw [← String.empty_append (s := ">" ++ after), parseContent_endTag hname isSpace_empty,
      if_pos hne] at h
    cases h

theorem parseContent_foreign_section {child : ParserM Element} {fuel : Nat}
    {element result : Element} {name : String} (hname : IsName name) (hne : name ≠ element.name)
    {before after : String} {later : Parser} : parseContent child fuel element
      (.between before ("<![CDATA[" ++ (sectionEnd ++ ("</" ++ (name ++ (">" ++ after)))))) ≠
        .ok result later := by
  intro h
  obtain _ | fuel := fuel
  · cases h
  · have hcdata := parseContent_cdata child fuel element
      (by decide : ¬ sectionEnd.toList <:+: ("" : String).toList) before
      ("</" ++ (name ++ (">" ++ after)))
    have hother : name ≠ Element.name { element with text := element.text ++ "" } := hne
    rw [String.empty_append] at hcdata
    rw [hcdata] at h
    exact parseContent_foreign hname hother h

theorem exists_between {parser : Parser} {whole source : String}
    (hsrc : parser.src = octets whole) (hdrop : parser.src.drop parser.i = octets source)
    (hsource : source ≠ "") : ∃ before, parser = .between before source := by
  have hi : parser.i < parser.src.length := by
    rw [← Nat.not_le, ← List.drop_eq_nil_iff, hdrop]
    exact fun h => hsource (octets_injective h)
  have hwhole : octets whole = parser.src.take parser.i ++ octets source := by
    rw [← hdrop, List.take_append_drop, hsrc]
  obtain ⟨before, hbefore⟩ : ∃ before : List Char,
      parser.src.take parser.i = before.flatMap String.utf8EncodeChar := by
    rw [octets_eq_flatMap whole, octets_eq_flatMap source] at hwhole
    exact exists_of_flatMap hwhole
  rw [← octets_ofList] at hbefore
  refine ⟨String.ofList before, ?_⟩
  cases parser with
  | mk src i =>
      rw [Parser.between, Parser.mk.injEq, ← hbefore, ← hdrop]
      refine ⟨(List.take_append_drop i src).symm, ?_⟩
      rw [List.length_take]
      exact (Nat.min_eq_left (Nat.le_of_lt hi)).symm

theorem not_inert {content : String} (hcontained : sectionEnd.toList <:+: content.toList)
    (hlast : content.toList.getLast? ≠ some '>') : ¬ Inert content := by
  rintro ⟨before, count, rfl, hbefore⟩
  cases count with
  | zero =>
      rw [sectionEnds, List.replicate_zero, String.join_nil, String.append_empty] at hcontained
      exact hbefore hcontained
  | succ count =>
      have hends : (sectionEnds (count + 1)).toList =
          (sectionEnds count).toList ++ [']', ']', '>'] := by
        rw [sectionEnds_succ, ← String.toList_append, ← sectionEnds_append,
          String.toList_append]
        rfl
      rw [String.toList_append, hends, ← List.append_assoc,
        List.getLast?_append_of_ne_nil _ (List.cons_ne_nil _ _)] at hlast
      exact hlast rfl

/-! ## Past a tag -/

theorem notMem_writeAttrs {attrs : List (String × String)}
    (hnames : ∀ attr ∈ attrs, IsName attr.1) : 62 ∉ octets (writeAttrs attrs) := by
  induction attrs with
  | nil => exact nofun
  | cons attr later ih =>
      obtain ⟨hname, hlater⟩ := List.forall_mem_cons.mp hnames
      have hliteral : (62 : UInt8) ∉ octets " " ∧ 62 ∉ octets "='" ∧ 62 ∉ octets "'" := by decide
      have hkey : 62 ∉ octets attr.1 := fun hmem =>
        absurd (hname.2 62 hmem) (by decide)
      have hvalue : UInt8.ofNat ('>').toNat ∉ octets (escape attr.2) :=
        notMem_octets (by decide) (notMem_escape (by decide) (by decide) attr.2)
      simp only [writeAttrs, octets_append, List.mem_append, not_or]
      exact ⟨hliteral.1, hkey, hliteral.2.1, hvalue, hliteral.2.2, ih hlater⟩

theorem exists_past {piece body behind rest : Octets} (hbody : 62 ∉ body) (hpiece : 62 ∈ piece)
    (h : body ++ 62 :: behind = piece ++ rest) :
    ∃ past, piece = body ++ 62 :: past ∧ behind = past ++ rest := by
  obtain ⟨past, hpast, hrest⟩ | ⟨more, hmore, -⟩ := List.append_eq_append_iff.mp h
  · cases past with
    | nil =>
        rw [hpast, List.append_nil] at hpiece
        exact absurd hpiece hbody
    | cons octet past =>
        rw [List.cons_append, List.cons.injEq] at hrest
        exact ⟨past, by rw [hpast, hrest.1], hrest.2⟩
  · exact absurd (hmore ▸ List.mem_append_left more hpiece) hbody

/-- There is nothing behind a tag, or something that ends as the whole does. -/
theorem getLast_past {piece body past : Octets} (h : piece = body ++ 62 :: past)
    (hlast : piece.getLast? = some 62) (hpast : past ≠ []) : past.getLast? = some 62 := by
  obtain ⟨octet, rest, rfl⟩ := List.exists_cons_of_ne_nil hpast
  rw [← hlast, h, List.getLast?_append_of_ne_nil _ (List.cons_ne_nil _ _),
    List.getLast?_cons_cons]

end Vortice.Proto.Xml

namespace Vortice.Proto.Management

open Vortice.Foundation Xml

/-! ## A profile -/

theorem Profile.content_of_parse {root : Element} {reply : Profile}
    (h : Profile.parse root = .ok reply) :
    reply.content = if root.text = "" then none else some root.text := by
  rw [Profile.parse] at h
  split at h
  · cases h
  · obtain ⟨encoding, -, hreply⟩ := except_bind_eq_ok h
    cases hreply
    rfl

theorem Profile.exists_uri_of_parse {root : Element} {reply : Profile}
    (h : Profile.parse root = .ok reply) : ∃ attr ∈ root.attrs, attr.1 = "uri" := by
  rw [Profile.parse] at h
  split at h
  · cases h
  · rename_i uri huri
    rw [Element.attr, Option.map_eq_some_iff] at huri
    obtain ⟨attr, hattr, -⟩ := huri
    exact ⟨attr, List.mem_of_find?_eq_some hattr, by simpa using List.find?_some hattr⟩

namespace Profile

variable (profile : Profile)

/-- A line up to the content of its profile. -/
def front : String :=
  "\r\n   " ++ ("<" ++ ("profile" ++ (writeAttrs profile.attrs ++
    if profile.content = none then " />" else ">")))

/-- The content of a profile as it is written, up to and with the end tag. -/
def back : String :=
  match profile.content with
  | none => ""
  | some content => "<![CDATA[" ++ (content ++ (sectionEnd ++ endTag "profile"))

theorem line_eq : "\r\n   " ++ profile.render = profile.front ++ profile.back := by
  rw [render_eq, front, back, endTag]
  cases profile.content with
  | none => simp only [if_true, String.append_empty]
  | some content => simp only [reduceCtorEq, if_false, String.append_assoc]

/-- There is one `>` in front of the content, and it is the last octet there. -/
theorem exists_front : ∃ body, octets profile.front = body ++ [62] ∧ 62 ∉ body := by
  have hattrs := notMem_writeAttrs profile.isName_attrs
  have hindent : (62 : UInt8) ∉ octets "\r\n   " ∧ 62 ∉ octets "<" ∧ 62 ∉ octets "profile" ∧
      62 ∉ octets " /" := by decide
  rw [front]
  split
  · have hclose : " />" = " /" ++ ">" := by decide
    refine ⟨octets ("\r\n   " ++ ("<" ++ ("profile" ++ (writeAttrs profile.attrs ++ " /")))),
      ?_, ?_⟩
    · rw [hclose]
      simp only [octets_append, List.append_assoc]
      rfl
    · simp only [octets_append, List.mem_append, not_or]
      exact ⟨hindent.1, hindent.2.1, hindent.2.2.1, hattrs, hindent.2.2.2⟩
  · refine ⟨octets ("\r\n   " ++ ("<" ++ ("profile" ++ writeAttrs profile.attrs))), ?_, ?_⟩
    · simp only [octets_append, List.append_assoc]
      rfl
    · simp only [octets_append, List.mem_append, not_or]
      exact ⟨hindent.1, hindent.2.1, hindent.2.2.1, hattrs⟩

theorem length_back {content : String} (h : profile.normal.content = some content) :
    (octets profile.back).length = (octets content).length + 22 := by
  have hcontent : profile.content = some content := by
    rw [normal] at h
    exact (Option.filter_eq_some_iff.mp h).1
  rw [back, hcontent]
  simp only [endTag, octets_append, List.length_append,
    show (octets "<![CDATA[").length = 9 from rfl, show (octets sectionEnd).length = 3 from rfl,
    show (octets "</").length = 2 from rfl, show (octets "profile").length = 7 from rfl,
    show (octets ">").length = 1 from rfl]
  omega

end Profile

/-! ## Lines ahead -/

/-- What is behind the last line. -/
def closing : String := "\r\n" ++ ("</" ++ ("start" ++ (">" ++ "\r\n")))

/-- The lines of so many profiles, and what is behind them. -/
def lines (profiles : List Profile) : String :=
  writeLines (profiles.map Profile.render) ++ closing

theorem lines_cons (profile : Profile) (later : List Profile) :
    lines (profile :: later) = profile.front ++ (profile.back ++ lines later) := by
  have hline := congrArg (· ++ lines later) profile.line_eq
  simp only [lines, String.append_assoc] at hline
  rw [lines, List.map_cons, writeLines, String.append_assoc, String.append_assoc, hline, lines]

/-- What a parser has in front of it at most that is ahead: too little for the first of the
profiles that are to be read. -/
def remaining : List Profile → Octets
  | [] => octets "\r\n"
  | profile :: later =>
      (if profile.normal.content = none then [] else octets profile.back) ++
        octets (lines later)

def Ahead (profiles : List Profile) (parser : Parser) : Prop :=
  parser.src.drop parser.i <:+ remaining profiles

/-- Content that is read on from behind a tag is not read on from inside an empty section,
or from the end tag behind it. -/
theorem past_of_empty {child : ParserM Element} {fuel : Nat} {element result : Element}
    {start later : Parser} {whole rest : String} {past : Octets}
    (h : parseContent child fuel element start = .ok result later)
    (hname : element.name = "start") (hsrc : start.src = octets whole)
    (hdrop : octets ("<![CDATA[" ++ (sectionEnd ++ ("</" ++ ("profile" ++ (">" ++ rest))))) =
      past ++ start.src.drop start.i)
    (hlast : past ≠ [] → past.getLast? = some 62) :
    ∃ more, octets rest = more ++ start.src.drop start.i := by
  have hother : "profile" ≠ element.name := by
    rw [hname]
    decide
  by_cases hpast : past = []
  · rw [hpast, List.nil_append] at hdrop
    obtain ⟨before, rfl⟩ := exists_between hsrc hdrop.symm (by simp)
    exact absurd h (parseContent_foreign_section Greeting.isTag_profile.1 hother)
  have hsection : octets ("<![CDATA[" ++ (sectionEnd ++ ("</" ++ ("profile" ++ (">" ++ rest))))) =
      octets "<![CDATA[]]" ++ 62 :: octets ("</" ++ ("profile" ++ (">" ++ rest))) := by
    rw [← String.append_assoc, octets_append]
    rfl
  rw [hsection] at hdrop
  obtain ⟨more, hmore, hdrop⟩ :=
    exists_past (by decide) (List.mem_of_getLast? (hlast hpast)) hdrop
  by_cases hnone : more = []
  · rw [hnone, List.nil_append] at hdrop
    obtain ⟨before, rfl⟩ := exists_between hsrc hdrop.symm (by simp)
    exact absurd h (parseContent_foreign Greeting.isTag_profile.1 hother)
  have htag : octets ("</" ++ ("profile" ++ (">" ++ rest))) =
      octets "</profile" ++ 62 :: octets rest := by
    rw [← String.append_assoc, ← String.append_assoc, octets_append]
    rfl
  rw [htag] at hdrop
  obtain ⟨behind, -, hrest⟩ := exists_past (by decide)
    (List.mem_of_getLast? (getLast_past hmore (hlast hpast) hnone)) hdrop
  exact ⟨behind, hrest⟩

/-- Content that is read on from behind a tag of a line is ahead of that line. -/
theorem ahead_of_past {child : ParserM Element} {fuel : Nat} {profiles : List Profile}
    {element result : Element} {start later : Parser} {whole : String} {past : Octets}
    (h : parseContent child fuel element start = .ok result later)
    (hname : element.name = "start") (hsrc : start.src = octets whole)
    (hdrop : octets (lines profiles) = past ++ start.src.drop start.i)
    (hlast : past.getLast? = some 62) : Ahead profiles start := by
  have hmem := List.mem_of_getLast? hlast
  cases profiles with
  | nil =>
      have hclosing : octets (lines []) = octets "\r\n</start" ++ 62 :: octets "\r\n" := by
        decide
      rw [hclosing] at hdrop
      obtain ⟨more, -, hmore⟩ := exists_past (by decide) hmem hdrop
      exact ⟨more, hmore.symm⟩
  | cons profile profiles =>
      obtain ⟨body, hfront, hbody⟩ := profile.exists_front
      rw [lines_cons, octets_append, hfront, List.append_assoc, List.singleton_append] at hdrop
      obtain ⟨past, hpast, hdrop⟩ := exists_past hbody hmem hdrop
      have hlast := getLast_past hpast hlast
      rw [Ahead, remaining]
      split
      · rename_i hnone
        cases hcontent : profile.content with
        | none =>
            rw [Profile.back, hcontent, String.empty_append] at hdrop
            exact ⟨past, hdrop.symm⟩
        | some content =>
            have hempty : content = "" := by
              rw [Profile.normal, hcontent, Option.filter_some] at hnone
              by_contra hne
              rw [if_pos (by simpa using hne)] at hnone
              cases hnone
            rw [Profile.back, hcontent, hempty] at hdrop
            simp only [endTag, String.empty_append, String.append_assoc] at hdrop
            obtain ⟨more, hmore⟩ := past_of_empty h hname hsrc hdrop hlast
            exact ⟨more, hmore.symm⟩
      · rw [octets_append] at hdrop
        exact ⟨past, hdrop.symm⟩

/-- A parser that is ahead is ahead, behind the next profile that it finds, of one more. -/
theorem past_of_child {profile : Profile} {later : List Profile} {start middle : Parser}
    {found : Element} {piece : Octets} (hahead : Ahead (profile :: later) start)
    (hgoes : Goes start middle piece) (hlast : piece.getLast? = some 62)
    (hlong : found.text ≠ "" → ∀ attr ∈ found.attrs, 2 * (octets found.name).length +
      (octets attr.1).length + (octets found.text).length + 8 ≤ piece.length)
    (hname : found.name = "profile") (hfound : Profile.parse found = .ok profile.normal) :
    ∃ past, octets (lines later) = past ++ middle.src.drop middle.i ∧
      past.getLast? = some 62 := by
  obtain ⟨front, hfront⟩ := hahead
  rw [hgoes.split, ← List.append_assoc, remaining] at hfront
  have hne : piece ≠ [] := by
    rintro rfl
    cases hlast
  have hshort : (if profile.normal.content = none then [] else octets profile.back).length <
      (front ++ piece).length := by
    have hpos := List.length_pos_of_ne_nil hne
    rw [List.length_append]
    split
    · exact Nat.lt_of_lt_of_le hpos (Nat.le_add_left _ _)
    · rename_i hsome
      have htext := Profile.content_of_parse hfound
      have htextNe : found.text ≠ "" := by
        intro hempty
        rw [if_pos hempty] at htext
        exact hsome htext
      obtain ⟨attr, hattr, hkey⟩ := Profile.exists_uri_of_parse hfound
      have hpiece := hlong htextNe attr hattr
      have hback := profile.length_back (htext.trans (if_neg htextNe))
      have hlengths : (octets "profile").length = 7 ∧ (octets "uri").length = 3 := ⟨rfl, rfl⟩
      rw [hname, hkey, hlengths.1, hlengths.2] at hpiece
      omega
  obtain ⟨more, hmore, hrest⟩ | ⟨past, hpast, hrest⟩ := List.append_eq_append_iff.mp hfront
  · rw [hmore, List.length_append] at hshort
    omega
  · refine ⟨past, hrest, ?_⟩
    have hwhole : (front ++ piece).getLast? = some 62 := by
      rw [List.getLast?_append_of_ne_nil _ hne, hlast]
    rw [hpast, List.getLast?_append_of_ne_nil _ (by
      rintro rfl
      rw [hpast, List.append_nil] at hshort
      omega)] at hwhole
    exact hwhole

/-- The profiles among some children. -/
def profilesOf (children : List Element) : Except Fault (List Profile) :=
  (children.filter fun child => child.name == "profile").mapM Profile.parse

theorem profilesOf_other {child : Element} (h : child.name ≠ "profile")
    (later : List Element) : profilesOf (child :: later) = profilesOf later := by
  rw [profilesOf, List.filter_cons_of_neg (by simpa using h), profilesOf]

theorem profilesOf_profile {child : Element} {later : List Element} {profiles : List Profile}
    (hname : child.name = "profile") (h : profilesOf (child :: later) = .ok profiles) :
    ∃ profile rest, profiles = profile :: rest ∧ Profile.parse child = .ok profile ∧
      profilesOf later = .ok rest := by
  rw [profilesOf, List.filter_cons_of_pos (by simpa using hname), List.mapM_cons] at h
  obtain ⟨profile, hprofile, h⟩ := except_bind_eq_ok h
  obtain ⟨rest, hrest, h⟩ := except_bind_eq_ok h
  cases h
  exact ⟨profile, rest, rfl, hprofile, hrest⟩

theorem not_ahead {fuel levels rounds : Nat} {profiles : List Profile}
    {element result : Element} {start later : Parser} {whole : String} {more : List Element}
    (h : parseContent (parseElement fuel levels) rounds element start = .ok result later)
    (hname : element.name = "start") (hsrc : start.src = octets whole)
    (hahead : Ahead profiles start) (hmore : result.children = element.children ++ more) :
    profilesOf more ≠ .ok (profiles.map Profile.normal) := by
  intro hprofiles
  induction rounds generalizing profiles element start more with
  | zero => cases h
  | succ rounds ih =>
      obtain ⟨rfl, piece, haccounts⟩ | ⟨text, piece, middle, hgoes, -, hrest⟩ |
        ⟨found, middle, hfound, hrest⟩ := parseContent_round h
      · have hnone : more = [] := by simpa using hmore
        rw [hnone] at hprofiles
        cases profiles with
        | cons profile profiles => cases hprofiles
        | nil =>
            obtain ⟨front, hfront⟩ := hahead
            rw [haccounts.goes.split] at hfront
            have hmem : (62 : UInt8) ∈ octets "\r\n" := by
              change 62 ∈ remaining []
              rw [← hfront]
              exact List.mem_append_right _
                (List.mem_append_left _ (List.mem_of_getLast? haccounts.last))
            exact absurd hmem (by decide)
      · obtain ⟨front, hfront⟩ := hahead
        rw [hgoes.split, ← List.append_assoc] at hfront
        exact ih hrest hname (hgoes.src.trans hsrc) ⟨_, hfront⟩ hmore hprofiles
      · obtain ⟨others, hothers⟩ := parseContent_children hrest
        have hcons : more = found :: others := by
          rw [hmore, List.append_assoc, List.append_cancel_left_eq] at hothers
          exact hothers
        rw [hcons] at hprofiles
        obtain ⟨piece, hgoes, hlast, hlong⟩ := parseElement_goes hfound
        by_cases hprofile : found.name = "profile"
        · obtain ⟨first, rest, hsplit, hfirst, hlater⟩ := profilesOf_profile hprofile hprofiles
          cases profiles with
          | nil => cases hsplit
          | cons profile profiles =>
              rw [List.map_cons, List.cons.injEq] at hsplit
              obtain ⟨rfl, rfl⟩ := hsplit
              obtain ⟨past, hpast, hend⟩ :=
                past_of_child hahead hgoes hlast hlong hprofile hfirst
              exact ih hrest hname (hgoes.src.trans hsrc)
                (ahead_of_past hrest hname (hgoes.src.trans hsrc) hpast hend) hothers hlater
        · rw [profilesOf_other hprofile] at hprofiles
          obtain ⟨front, hfront⟩ := hahead
          rw [hgoes.split, ← List.append_assoc] at hfront
          exact ih hrest hname (hgoes.src.trans hsrc) ⟨_, hfront⟩ hothers hprofiles

/-! ## Profiles that come back -/

/-- A profile that is read as it was is inert, or was read past its own end. -/
theorem Profile.inert_or_overruns (profile : Profile) {fuel levels : Nat} {before tail : String}
    {root : Element} {later : Parser}
    (h : parseElement (fuel + 1) (levels + 1) (.between before (profile.render ++ tail)) =
      .ok root later)
    (hfuel : (octets profile.render).length ≤ fuel + 1) :
    (∀ content ∈ profile.content, Inert content) ∨
      root.name = "profile" ∧ (Profile.parse root = .ok profile.normal →
        ∃ past, octets tail = past ++ later.src.drop later.i ∧ past.getLast? = some 62) := by
  by_cases hall : ∀ content ∈ profile.content, Inert content
  · exact .inl hall
  push Not at hall
  obtain ⟨content, hcontent, hinert⟩ := hall
  have hcontained : sectionEnd.toList <:+: content.toList := by
    by_contra hnone
    exact hinert ⟨content, 0, String.append_empty.symm, hnone⟩
  obtain ⟨front, after, hsplit, hfront⟩ := exists_first_infix (by decide) hcontained
  have hwhole : content = String.ofList front ++ (sectionEnd ++ String.ofList after) := by
    rw [← String.toList_inj, hsplit]
    simp
  have hclean : ¬ sectionEnd.toList <:+: (String.ofList front).toList := by
    rwa [String.toList_ofList]
  have hrender : profile.render ++ tail = "<" ++ ("profile" ++ (writeAttrs profile.attrs ++
      ">" ++ ("<![CDATA[" ++ (String.ofList front ++ sectionEnd ++
        (String.ofList after ++ (sectionEnd ++ (endTag "profile" ++ tail))))))) := by
    rw [profile.render_eq, Option.mem_def.mp hcontent, hwhole]
    simp only [endTag, String.append_assoc]
  have hattrs : profile.attrs.length < fuel + 1 := by
    have hlength := length_writeAttrs profile.attrs
    rw [profile.render_eq] at hfuel
    simp only [octets_append, List.length_append, show (octets "<").length = 1 from rfl] at hfuel
    omega
  rw [hrender] at h
  obtain ⟨position, added, piece, haccounts⟩ := accounts_of_parseElement
    Greeting.isTag_profile profile.isName_attrs hattrs hclean h
  have hne : content ≠ "" := by
    rintro rfl
    exact absurd (List.infix_nil.mp hcontained) (by decide)
  refine .inr ⟨haccounts.name, fun hprofile => ?_⟩
  have htext := Profile.content_of_parse hprofile
  rw [Profile.normal, Option.mem_def.mp hcontent, Option.filter_some,
    if_pos (by simpa using hne)] at htext
  split at htext
  · cases htext
  have hadded := haccounts.text
  rw [← Option.some.inj htext, hwhole, String.append_right_inj] at hadded
  obtain hback | hpast := inert_or_past haccounts (drop_between _ _) hadded.symm hclean
  · exact absurd (hwhole ▸ hback) hinert
  · exact hpast

theorem inert_of_lines {fuel levels rounds : Nat} {profiles : List Profile}
    {element result : Element} {later : Parser} {before : String} {more : List Element}
    (h : parseContent (parseElement (fuel + 1) (levels + 1)) rounds element
      (.between before (lines profiles)) = .ok result later)
    (hname : element.name = "start")
    (hfuel : ∀ profile ∈ profiles, (octets profile.render).length ≤ fuel + 1)
    (hmore : result.children = element.children ++ more)
    (hprofiles : profilesOf more = .ok (profiles.map Profile.normal)) :
    ∀ profile ∈ profiles, ∀ content ∈ profile.content, Inert content := by
  induction profiles generalizing rounds element before more with
  | nil => exact nofun
  | cons profile profiles ih =>
      obtain ⟨hrender, hlater⟩ := List.forall_mem_cons.mp hfuel
      have hlines : lines (profile :: profiles) =
          "\r\n   " ++ (profile.render ++ lines profiles) := by
        rw [lines, List.map_cons, writeLines, String.append_assoc, String.append_assoc, lines]
      have hopens : Opens (profile.render ++ lines profiles) := by
        rw [profile.render_eq, String.append_assoc, String.append_assoc]
        exact Greeting.isTag_profile.opens _
      have hnext : (octets (profile.render ++ lines profiles)).head? = some 60 := by
        obtain ⟨octet, tail, hoctets, -⟩ := hopens
        rw [hoctets]
        rfl
      rw [hlines] at h
      obtain _ | rounds := rounds
      · cases h
      have hindent : decodeEntities "\r\n   " = .ok "\r\n   " := decodeEntities_plain (by decide)
      rw [parseContent_run (by decide) (by decide) hindent hnext] at h
      obtain _ | rounds := rounds
      · cases h
      rw [parseContent_opens hopens] at h
      obtain ⟨found, middle, hfound, hrest⟩ := bind_eq_ok h
      obtain ⟨others, hothers⟩ := parseContent_children hrest
      have hcons : more = found :: others := by
        dsimp only at hothers
        rw [hmore, List.append_assoc, List.append_cancel_left_eq] at hothers
        exact hothers
      rw [hcons] at hprofiles
      by_cases hinert : ∀ content ∈ profile.content, Inert content
      · have hread := (profile.written_render hinert).reads hrender (Nat.zero_le levels)
          (lines profiles) (before ++ "\r\n   ")
        rw [hread] at hfound
        cases hfound
        obtain ⟨first, rest, hsplit, -, hbehind⟩ := profilesOf_profile rfl hprofiles
        rw [List.map_cons, List.cons.injEq] at hsplit
        obtain ⟨-, rfl⟩ := hsplit
        exact List.forall_mem_cons.mpr ⟨hinert, ih hrest hname hlater hothers hbehind⟩
      · obtain hinert' | ⟨hprofile, hoverruns⟩ := profile.inert_or_overruns hfound hrender
        · exact absurd hinert' hinert
        obtain ⟨first, rest, hsplit, hfirst, hbehind⟩ := profilesOf_profile hprofile hprofiles
        rw [List.map_cons, List.cons.injEq] at hsplit
        obtain ⟨rfl, rfl⟩ := hsplit
        obtain ⟨past, hpast, hlast⟩ := hoverruns hfirst
        obtain ⟨piece, hgoes, -⟩ := parseElement_goes hfound
        have hsrc : middle.src = octets (before ++ "\r\n   " ++
            (profile.render ++ lines profiles)) := by
          rw [hgoes.src, octets_append]
          rfl
        exact absurd hbehind (not_ahead hrest hname hsrc
          (ahead_of_past hrest hname hsrc hpast hlast) hothers)

/-! ## Messages that come back -/

theorem profile_of_fromXml {body : Octets} {reply : Profile}
    (h : Message.fromXml body = .ok (.profile reply)) :
    ∃ root, Xml.parse body = .ok root ∧ Profile.parse root = .ok reply := by
  obtain ⟨root, hroot, h⟩ := except_bind_eq_ok h
  refine ⟨root, hroot, ?_⟩
  split at h
  · obtain ⟨_, -, h⟩ := except_bind_eq_ok h
    obtain ⟨_, -, h⟩ := except_bind_eq_ok h
    cases h
  split at h
  · obtain ⟨_, -, h⟩ := except_bind_eq_ok h
    obtain ⟨_, -, h⟩ := except_bind_eq_ok h
    cases h
  split at h
  · obtain ⟨profile, hprofile, h⟩ := except_bind_eq_ok h
    cases h
    exact hprofile
  split at h
  · cases h
  split at h
  · obtain ⟨_, -, h⟩ := except_bind_eq_ok h
    cases h
  · cases h

theorem start_of_fromXml {body : Octets} {request : Start}
    (h : Message.fromXml body = .ok (.start request)) :
    ∃ root, Xml.parse body = .ok root ∧ profilesOf root.children = .ok request.profiles := by
  obtain ⟨root, hroot, h⟩ := except_bind_eq_ok h
  refine ⟨root, hroot, ?_⟩
  split at h
  · obtain ⟨_, -, h⟩ := except_bind_eq_ok h
    obtain ⟨profiles, hprofiles, h⟩ := except_bind_eq_ok h
    cases h
    exact hprofiles
  split at h
  · obtain ⟨_, -, h⟩ := except_bind_eq_ok h
    obtain ⟨_, -, h⟩ := except_bind_eq_ok h
    cases h
  split at h
  · obtain ⟨profile, -, h⟩ := except_bind_eq_ok h
    cases h
  split at h
  · cases h
  split at h
  · obtain ⟨_, -, h⟩ := except_bind_eq_ok h
    cases h
  · cases h

/-- A profile that comes back from its payload carries nothing that ends its section. -/
theorem Profile.inert_of_roundTrips {reply : Profile} (h : (Message.profile reply).RoundTrips) :
    ∀ content ∈ (Message.profile reply).contents, Inert content := by
  rw [Message.RoundTrips, Message.fromPayload_toPayload_eq] at h
  obtain ⟨root, hroot, hreply⟩ := profile_of_fromXml h
  have hopens : Opens (reply.render ++ "\r\n") := by
    rw [reply.render_eq, String.append_assoc, String.append_assoc]
    exact Greeting.isTag_profile.opens _
  obtain ⟨later, hlater⟩ := exists_of_parse hopens hroot
  have hfuel : (octets reply.render).length ≤ (octets (reply.render ++ "\r\n")).length + 1 := by
    rw [octets_append, List.length_append]
    omega
  obtain hinert | ⟨-, hoverruns⟩ := reply.inert_or_overruns hlater hfuel
  · exact fun content hcontent => hinert content (Option.mem_toList.mp hcontent)
  · obtain ⟨past, hpast, hlast⟩ := hoverruns hreply
    have hmem : (62 : UInt8) ∈ octets "\r\n" :=
      hpast ▸ List.mem_append_left _ (List.mem_of_getLast? hlast)
    exact absurd hmem (by decide)

/-- A request that comes back from its payload carries nothing that ends a section. -/
theorem Start.inert_of_roundTrips {request : Start} (h : (Message.start request).RoundTrips) :
    ∀ content ∈ (Message.start request).contents, Inert content := by
  rw [Message.RoundTrips, Message.fromPayload_toPayload_eq] at h
  obtain ⟨root, hroot, hprofiles⟩ := start_of_fromXml h
  have hrender : (Message.start request).render =
      "<" ++ ("start" ++ (writeAttrs request.attrs ++ ">" ++ lines request.profiles)) := by
    rw [request.render_eq]
    simp only [lines, closing, String.append_assoc]
  have hopens : Opens (Message.start request).render := by
    rw [hrender]
    exact isTag_start.opens _
  obtain ⟨later, hlater⟩ := exists_of_parse hopens hroot
  have hattrs := length_writeAttrs request.attrs
  have hlines : ∀ profile ∈ request.profiles, (octets profile.render).length ≤
      (octets (writeLines (request.profiles.map Profile.render))).length :=
    fun profile hmem => length_le_writeLines (List.mem_map_of_mem hmem)
  obtain ⟨fuel, hfuel⟩ : ∃ fuel, fuel = (octets (Message.start request).render).length :=
    ⟨_, rfl⟩
  have hsize := congrArg (fun source => (octets source).length) hrender
  simp only [lines, octets_append, List.length_append, ← hfuel] at hsize
  rw [← hfuel, hrender, parseElement_open isTag_start request.isName_attrs (by omega)] at hlater
  obtain ⟨more, hmore⟩ := parseContent_children hlater
  rw [hmore] at hprofiles
  intro content hcontent
  obtain ⟨profile, hmem, hprofile⟩ := List.mem_filterMap.mp hcontent
  exact inert_of_lines hlater rfl
    (fun profile hmem => (hlines profile hmem).trans (by omega)) hmore hprofiles profile hmem
    content hprofile

/-- A message comes back from its payload only if its contents end no section. -/
theorem Message.inert_of_roundTrips {message : Message} (h : message.RoundTrips) :
    ∀ content ∈ message.contents, Inert content := by
  cases message with
  | start request => exact request.inert_of_roundTrips h
  | profile reply => exact reply.inert_of_roundTrips h
  | close request => exact nofun
  | ok => exact nofun
  | error reply => exact nofun

/-! ## What was accepted -/

theorem dropWhile_rdropWhile_dropWhile {α : Type} (p : α → Bool) (source : List α) :
    ((source.dropWhile p).rdropWhile p).dropWhile p = (source.dropWhile p).rdropWhile p := by
  cases hback : (source.dropWhile p).rdropWhile p with
  | nil => rfl
  | cons first back =>
      obtain ⟨rest, hrest⟩ := List.rdropWhile_prefix p (source.dropWhile p)
      rw [hback] at hrest
      have hfirst := List.head?_dropWhile_not p source
      rw [← hrest] at hfirst
      simpa using hfirst

theorem trim_trim (value : String) : trim (trim value) = trim value := by
  rw [trim, trim, String.toList_ofList, dropWhile_rdropWhile_dropWhile,
    List.rdropWhile_idempotent]

theorem normalText_textOf (root : Element) : normalText (textOf root) = textOf root := by
  rw [textOf]
  split
  · rfl
  · rename_i hne
    rw [normalText, Option.map_some, trim_trim, Option.filter_some, if_pos (by simpa using hne)]

theorem Profile.normal_of_parse {root : Element} {reply : Profile}
    (h : Profile.parse root = .ok reply) : reply.normal = reply := by
  have hcontent := Profile.content_of_parse h
  cases reply with
  | mk uri encoding content =>
      rw [Profile.normal]
      dsimp only at hcontent ⊢
      split at hcontent
      · rw [hcontent]
        rfl
      · rename_i hne
        rw [hcontent, Option.filter_some, if_pos (by simpa using hne)]

theorem normal_of_mapM {roots : List Element} {profiles : List Profile}
    (h : roots.mapM Profile.parse = .ok profiles) : profiles.map Profile.normal = profiles := by
  induction roots generalizing profiles with
  | nil =>
      cases h
      rfl
  | cons root later ih =>
      rw [List.mapM_cons] at h
      obtain ⟨profile, hprofile, h⟩ := except_bind_eq_ok h
      obtain ⟨profiles, hprofiles, h⟩ := except_bind_eq_ok h
      cases h
      rw [List.map_cons, Profile.normal_of_parse hprofile, ih hprofiles]

theorem Message.normal_of_fromPayload {payload : Octets} {message : Message}
    (h : fromPayload payload = .ok message) : message.normal = message := by
  obtain ⟨body, -, h⟩ := except_bind_eq_ok h
  obtain ⟨root, -, h⟩ := except_bind_eq_ok h
  split at h
  · obtain ⟨_, -, h⟩ := except_bind_eq_ok h
    obtain ⟨profiles, hprofiles, h⟩ := except_bind_eq_ok h
    cases h
    rw [Message.normal, normal_of_mapM hprofiles]
  split at h
  · obtain ⟨_, -, h⟩ := except_bind_eq_ok h
    obtain ⟨_, -, h⟩ := except_bind_eq_ok h
    cases h
    rw [Message.normal, normalText_textOf]
  split at h
  · obtain ⟨profile, hprofile, h⟩ := except_bind_eq_ok h
    cases h
    rw [Message.normal, Profile.normal_of_parse hprofile]
  split at h
  · cases h
    rfl
  split at h
  · obtain ⟨_, -, h⟩ := except_bind_eq_ok h
    cases h
    rw [Message.normal, normalText_textOf]
  · cases h

/-- A message comes back from its payload, up to its normal form, exactly when its contents
end no section; and so does what was accepted from any payload, which is normal. -/
theorem Message.roundTrips_iff (message : Message) :
    (fromPayload message.toPayload = .ok message.normal ↔
      ∀ content ∈ message.contents, Inert content) ∧
    ∀ payload, fromPayload payload = .ok message →
      (fromPayload message.toPayload = .ok message ↔
        ∀ content ∈ message.contents, Inert content) := by
  have hiff : fromPayload message.toPayload = .ok message.normal ↔
      ∀ content ∈ message.contents, Inert content :=
    ⟨Message.inert_of_roundTrips, message.roundTrips_of_inert⟩
  refine ⟨hiff, fun payload hpayload => ?_⟩
  rw [← hiff, Message.normal_of_fromPayload hpayload]

/-- A request whose only profile carries a content that ends its section, its element, and
begins another. -/
def smuggling : Start :=
  Start.new 1 { Profile.new "urn:a" with
    content := some "]]></profile><profile uri='urn:b'><![CDATA[" }

/-- The request is not read as it was written. -/
theorem smuggling_misread :
    Message.fromPayload (Message.start smuggling).toPayload ≠
      .ok (Message.start smuggling).normal := by
  intro h
  have hcontent : "]]></profile><profile uri='urn:b'><![CDATA[" ∈
      (Message.start smuggling).contents := List.mem_singleton.mpr rfl
  have hinert := Start.inert_of_roundTrips h _ hcontent
  exact not_inert (by decide) (by decide) hinert

end Vortice.Proto.Management

import Vortice.Proto.Payloads

/-!
# Contents that end their section

Whatever the parser is given, it goes forward, and what it takes for the text of an
element is never longer than what it goes past for it.  So a content that ends its
section in the middle does not come back as it was.
-/

namespace Vortice.Proto.Xml

open Vortice.Foundation

/-! ## Going forward -/

/-- From one state of the parser to a later one, past `piece`. -/
structure Goes (start later : Parser) (piece : Octets) : Prop where
  src : later.src = start.src
  split : start.src.drop start.i = piece ++ later.src.drop later.i
  index : later.i = start.i + piece.length

namespace Goes

variable {start middle later : Parser} {piece first second : Octets}

theorem refl (parser : Parser) : Goes parser parser [] := ⟨rfl, rfl, rfl⟩

theorem trans (h : Goes start middle first) (h' : Goes middle later second) :
    Goes start later (first ++ second) where
  src := h'.src.trans h.src
  split := by rw [h.split, h'.split, List.append_assoc]
  index := by
    rw [h'.index, h.index, List.length_append]
    omega

theorem segment (h : Goes start later piece) :
    (start.src.take later.i).drop start.i = piece := by
  rw [List.drop_take, h.index, Nat.add_sub_cancel_left, h.split, List.take_left]

end Goes

theorem bind_eq_ok {α β : Type} {p : ParserM α} {f : α → ParserM β} {start later : Parser}
    {b : β} (h : (p >>= f) start = .ok b later) :
    ∃ a middle, p start = .ok a middle ∧ f a middle = .ok b later := by
  change EStateM.bind p f start = _ at h
  unfold EStateM.bind at h
  cases hp : p start with
  | ok a middle =>
      rw [hp] at h
      exact ⟨a, middle, rfl, h⟩
  | error fault middle =>
      rw [hp] at h
      cases h

/-- The computation never goes back. -/
def Advances {α : Type} (p : ParserM α) : Prop :=
  ∀ {start later : Parser} {a : α}, p start = .ok a later → ∃ piece, Goes start later piece

theorem Advances.pure {α : Type} (a : α) : Advances (pure a) := by
  rintro start later _ ⟨⟩
  exact ⟨[], .refl _⟩

theorem Advances.throw {α : Type} (fault : Fault) : Advances (throw fault : ParserM α) := by
  rintro start later a ⟨⟩

theorem Advances.lift {α : Type} (result : Except Fault α) : Advances (lift result) := by
  cases result with
  | ok value => exact Advances.pure value
  | error fault => exact Advances.throw fault

theorem peek_bind {β : Type} (f : Option UInt8 → ParserM β) (start : Parser) :
    (peek >>= f) start = f start.src[start.i]? start := rfl

theorem remaining_bind {β : Type} {f : Octets → ParserM β} {start later : Parser} {b : β}
    (h : (remaining >>= f) start = .ok b later) :
    f (start.src.drop start.i) start = .ok b later := by
  obtain ⟨rest, middle, hrest, hlater⟩ := bind_eq_ok h
  change (if start.i ≤ start.src.length then
    (Pure.pure (start.src.drop start.i) : ParserM Octets) else _) start = _ at hrest
  split at hrest
  · cases hrest
    exact hlater
  · cases hrest

theorem startsWith_bind {β : Type} {pat : Octets} {f : Bool → ParserM β}
    {start later : Parser} {b : β} (h : (startsWith pat >>= f) start = .ok b later) :
    f (pat.isPrefixOf (start.src.drop start.i)) start = .ok b later := by
  obtain ⟨found, middle, hfound, hlater⟩ := bind_eq_ok h
  have hpure := remaining_bind hfound
  cases hpure
  exact hlater

theorem goes_of_advance {start later : Parser} {piece : Octets} (rest : Octets)
    (hsource : start.src.drop start.i = piece ++ rest)
    (h : advance piece.length start = .ok () later) : Goes start later piece := by
  cases h
  refine ⟨rfl, ?_, rfl⟩
  rw [← List.drop_drop, hsource, List.drop_left]

theorem goes_of_advanceWhile {start later : Parser} {p : UInt8 → Bool}
    (h : advanceWhile p start = .ok () later) :
    Goes start later ((start.src.drop start.i).takeWhile p) := by
  cases h
  refine ⟨rfl, ?_, rfl⟩
  have htake := List.prefix_iff_eq_take.mp
    (List.takeWhile_prefix p (l := start.src.drop start.i))
  have hcut := List.take_append_drop
    ((start.src.drop start.i).takeWhile p).length (start.src.drop start.i)
  rw [← htake] at hcut
  rw [← List.drop_drop]
  exact hcut.symm

theorem goes_of_advance_one {start later : Parser} {octet : UInt8}
    (hpeek : start.src[start.i]? = some octet) (h : advance 1 start = .ok () later) :
    Goes start later [octet] := by
  obtain ⟨hlt, hget⟩ := List.getElem?_eq_some_iff.mp hpeek
  refine goes_of_advance (start.src.drop (start.i + 1)) ?_ h
  rw [← hget, List.singleton_append, List.getElem_cons_drop]

theorem goes_of_expect {start later : Parser} {octet : UInt8} {reason : String}
    (h : expect octet reason start = .ok () later) : Goes start later [octet] := by
  rw [expect, peek_bind] at h
  split at h
  · rename_i hfound
    exact goes_of_advance_one hfound h
  · cases h

theorem goes_of_skipPast {start later : Parser} {pat : Octets}
    (h : skipPast pat start = .ok () later) :
    ∃ before, Goes start later (before ++ pat) := by
  have hfound := remaining_bind h
  cases hfind : (List.range ((start.src.drop start.i).length - (pat.length - 1))).find?
      fun i => pat.isPrefixOf ((start.src.drop start.i).drop i) with
  | none =>
      rw [hfind] at hfound
      cases hfound
  | some k =>
      rw [hfind] at hfound
      obtain ⟨hstarts, hk, -⟩ := List.find?_range_eq_some.mp hfind
      obtain ⟨tail, htail⟩ := List.isPrefixOf_iff_prefix.mp hstarts
      rw [List.mem_range] at hk
      have hlength : ((start.src.drop start.i).take k).length = k := by
        rw [List.length_take]
        omega
      refine ⟨(start.src.drop start.i).take k, goes_of_advance tail ?_ ?_⟩
      · rw [List.append_assoc, htail, List.take_append_drop]
      · rw [List.length_append, hlength]
        exact hfound

theorem octets_of_cut {source : Octets} {first last : Nat} {value : String}
    (h : cut source first last = .ok value) : octets value = (source.take last).drop first := by
  rw [cut, slice] at h
  by_cases hcut : first ≤ last ∧ isCharBoundary source first ∧ isCharBoundary source last
  · rw [if_pos hcut] at h
    cases htext : text ((source.take last).drop first) with
    | none =>
        rw [htext] at h
        cases h
    | some piece =>
        rw [htext] at h
        cases h
        exact octets_of_text htext
  · rw [if_neg hcut] at h
    cases h

theorem lift_eq_ok {β : Type} {α : Type} {result : Except Fault α} {f : α → ParserM β}
    {start later : Parser} {b : β} (h : (lift result >>= f) start = .ok b later) :
    ∃ value, result = .ok value ∧ f value start = .ok b later := by
  cases result with
  | ok value => exact ⟨value, rfl, h⟩
  | error fault => cases h

theorem cutFrom_bind {β : Type} {first : Nat} {f : String → ParserM β}
    {start later : Parser} {b : β} (h : (cutFrom first >>= f) start = .ok b later) :
    ∃ value, octets value = (start.src.take start.i).drop first ∧
      f value start = .ok b later := by
  obtain ⟨value, middle, hcut, hlater⟩ := bind_eq_ok h
  rw [cutFrom, get_bind, ← bind_pure (lift _)] at hcut
  obtain ⟨piece, hpiece, hpure⟩ := lift_eq_ok hcut
  cases hpure
  exact ⟨_, octets_of_cut hpiece, hlater⟩

theorem goes_of_readName {start later : Parser} {name : String}
    (h : readName start = .ok name later) : Goes start later (octets name) := by
  rw [readName, get_bind] at h
  obtain ⟨_, middle, hwalk, hname⟩ := bind_eq_ok h
  have hgoes := goes_of_advanceWhile hwalk
  rw [get_bind] at hname
  split at hname
  · cases hname
  · rw [← bind_pure (cutFrom _)] at hname
    obtain ⟨value, hvalue, hpure⟩ := cutFrom_bind hname
    cases hpure
    rw [hgoes.src, hgoes.segment] at hvalue
    rwa [hvalue]

theorem advances_skipWs : Advances skipWs := fun h => ⟨_, goes_of_advanceWhile h⟩

theorem goes_of_readAttrValue {start later : Parser} {value : String}
    (h : readAttrValue start = .ok value later) :
    ∃ piece, Goes start later piece ∧ 2 ≤ piece.length := by
  rw [readAttrValue, peek_bind] at h
  cases hquote : start.src[start.i]? with
  | none =>
      rw [hquote] at h
      cases h
  | some quote =>
      rw [hquote] at h
      dsimp only at h
      split at h
      · obtain ⟨_, behind, hadvance, hinside⟩ := bind_eq_ok h
        have hopen := goes_of_advance_one hquote hadvance
        rw [get_bind] at hinside
        obtain ⟨_, reached, hwalk, hend⟩ := bind_eq_ok hinside
        have hwalk := goes_of_advanceWhile hwalk
        rw [peek_bind] at hend
        split at hend
        · rename_i hclose
          obtain ⟨raw, -, hclosing⟩ := cutFrom_bind hend
          obtain ⟨_, closed, hadvance, hdecode⟩ := bind_eq_ok hclosing
          have hclose := goes_of_advance_one hclose hadvance
          obtain ⟨piece, hlift⟩ := Advances.lift _ hdecode
          refine ⟨_, ((hopen.trans hwalk).trans hclose).trans hlift, ?_⟩
          simp only [List.length_append, List.length_singleton]
          omega
        · cases hend
      · cases h

/-- The start tag from its attributes on is longer than each of them, and ends in `>`. -/
theorem goes_of_parseAttrs {fuel : Nat} {attrs : List (String × String)} {start later : Parser}
    {result : List (String × String) × Bool}
    (h : parseAttrs fuel attrs start = .ok result later) :
    ∃ more piece, result.1 = attrs ++ more ∧ Goes start later piece ∧
      piece.getLast? = some 62 ∧
      ∀ attr ∈ more, (octets attr.1).length + 4 ≤ piece.length := by
  induction fuel generalizing attrs start with
  | zero => cases h
  | succ fuel ih =>
      rw [parseAttrs] at h
      obtain ⟨_, spaced, hspaces, hattrs⟩ := bind_eq_ok h
      have hspaces := goes_of_advanceWhile hspaces
      rw [peek_bind] at hattrs
      generalize hoctet : spaced.src[spaced.i]? = octet at hattrs
      split at hattrs
      · obtain ⟨_, behind, hadvance, hend⟩ := bind_eq_ok hattrs
        have hone := goes_of_advance_one hoctet hadvance
        obtain ⟨_, closed, hexpect, hpure⟩ := bind_eq_ok hend
        cases hpure
        exact ⟨[], _, (List.append_nil _).symm,
          (hspaces.trans hone).trans (goes_of_expect hexpect), by simp, by simp⟩
      · obtain ⟨_, behind, hadvance, hend⟩ := bind_eq_ok hattrs
        have hone := goes_of_advance_one hoctet hadvance
        cases hend
        exact ⟨[], _, (List.append_nil _).symm, hspaces.trans hone, by simp, by simp⟩
      · obtain ⟨key, named, hkey, hattrs⟩ := bind_eq_ok hattrs
        have hkey := goes_of_readName hkey
        obtain ⟨_, spaced', hspaces', hattrs⟩ := bind_eq_ok hattrs
        have hspaces' := goes_of_advanceWhile hspaces'
        obtain ⟨_, equalled, hequals, hattrs⟩ := bind_eq_ok hattrs
        have hequals := goes_of_expect hequals
        obtain ⟨_, spaced'', hspaces'', hattrs⟩ := bind_eq_ok hattrs
        have hspaces'' := goes_of_advanceWhile hspaces''
        obtain ⟨value, valued, hvalue, hattrs⟩ := bind_eq_ok hattrs
        obtain ⟨quoted, hvalue, hquotes⟩ := goes_of_readAttrValue hvalue
        obtain ⟨more, rest, hmore, hrest, hlast, hlonger⟩ := ih hattrs
        have hne : rest ≠ [] := by
          rintro rfl
          cases hlast
        have hpos := List.length_pos_of_ne_nil hne
        refine ⟨(key, value) :: more, _, ?_, (((((hspaces.trans hkey).trans hspaces').trans
          hequals).trans hspaces'').trans hvalue).trans hrest, ?_, ?_⟩
        · rw [hmore, List.append_assoc, List.singleton_append]
        · rw [List.getLast?_append_of_ne_nil _ hne, hlast]
        · simp only [List.length_append, List.length_singleton]
          refine List.forall_mem_cons.mpr ⟨?_, fun attr hattr => ?_⟩
          · dsimp only
            omega
          · have := hlonger attr hattr
            omega
      · cases hattrs

/-! ## Text never grows -/

theorem length_utf8EncodeChar_le (ch : Char) : (String.utf8EncodeChar ch).length ≤ 4 := by
  rw [String.length_utf8EncodeChar]
  exact Char.utf8Size_le_four ch

theorem fromStrRadix_single {digit : Char} {value : Nat}
    (h : fromStrRadix [digit] 10 = some value) : value < 10 := by
  unfold fromStrRadix at h
  split at h
  · cases h
  · cases h
  · rename_i heq
    cases heq
    cases h
    decide
  · rw [accumulate] at h
    cases hdigit : toDigit 10 digit with
    | none =>
        rw [hdigit] at h
        cases h
    | some found =>
        rw [hdigit] at h
        have hlt : found < 10 := by
          rw [toDigit, Option.filter_eq_some_iff] at hdigit
          simpa using hdigit.2
        dsimp only at h
        rw [if_pos (by omega), accumulate] at h
        cases h
        omega

theorem value_of_reference {value : Option Nat} {ch : Char} {fault : Fault}
    (h : (match value.bind charFromU32 with
      | some ch => .ok ch
      | none => .error fault) = (.ok ch : Except Fault Char)) :
    ∃ n, value = some n ∧ charFromU32 n = some ch := by
  cases hbind : value.bind charFromU32 with
  | none =>
      rw [hbind] at h
      cases h
  | some found =>
      rw [hbind] at h
      cases h
      exact Option.bind_eq_some_iff.mp hbind

theorem length_decodeEntity {name : String} {ch : Char} (h : decodeEntity name = .ok ch) :
    (String.utf8EncodeChar ch).length < (octets name).length + 2 := by
  have hfour := length_utf8EncodeChar_le ch
  have hlength := length_le_flatMap name.toList
  rw [← octets_eq_flatMap] at hlength
  by_cases hlong : 3 ≤ name.toList.length
  · omega
  have hone (hch : ch.toNat < 128) :
      (String.utf8EncodeChar ch).length < (octets name).length + 2 := by
    rw [utf8EncodeChar_ascii hch, List.length_singleton]
    omega
  unfold decodeEntity at h
  split at h
  · cases h
    exact hone (by decide)
  split at h
  · cases h
    exact hone (by decide)
  split at h
  · cases h
    exact hone (by decide)
  split at h
  · cases h
    exact hone (by decide)
  split at h
  · cases h
    exact hone (by decide)
  · refine hone ?_
    rw [decodeNumericReference] at h
    split at h
    · rename_i digits hdigits
      rw [hdigits, List.length_cons] at hlong
      split at h
      · rename_i hex
        have hnil : hex = [] := by
          rw [← List.length_eq_zero_iff]
          simp only [List.length_cons] at hlong
          omega
        rw [hnil] at h
        cases h
      · rename_i hex
        have hnil : hex = [] := by
          rw [← List.length_eq_zero_iff]
          simp only [List.length_cons] at hlong
          omega
        rw [hnil] at h
        cases h
      · obtain ⟨value, hvalue, hchar⟩ := value_of_reference h
        match digits with
        | [] => cases hvalue
        | [digit] =>
            have hlt := fromStrRadix_single hvalue
            rw [charFromU32] at hchar
            split at hchar
            · cases hchar
              rw [toNat_ofNat (by omega)]
              omega
            · cases hchar
        | first :: second :: rest =>
            simp only [List.length_cons] at hlong
            omega
    · cases h

theorem except_bind_eq_ok {α β : Type} {result : Except Fault α} {f : α → Except Fault β}
    {b : β} (h : (result >>= f) = .ok b) : ∃ a, result = .ok a ∧ f a = .ok b := by
  cases result with
  | ok value => exact ⟨value, rfl, h⟩
  | error fault => cases h

theorem decodeEntitiesLoop_shortens {fuel : Nat} {rest out value : String}
    (h : decodeEntitiesLoop fuel rest out = .ok value) :
    ∃ more, value = out ++ more ∧
      (more = rest ∨ (octets more).length < (octets rest).length) := by
  induction fuel generalizing rest out with
  | zero => cases h
  | succ fuel ih =>
      rw [decodeEntitiesLoop] at h
      cases hfind : find (octets rest) 38 with
      | none =>
          rw [hfind] at h
          cases h
          exact ⟨rest, rfl, .inl rfl⟩
      | some at' =>
          rw [hfind] at h
          obtain ⟨front, hfront, h⟩ := except_bind_eq_ok h
          obtain ⟨tail, htail, h⟩ := except_bind_eq_ok h
          cases hend : find ((octets tail).take maxEntityLen) 59 with
          | none =>
              rw [hend] at h
              cases h
          | some end' =>
              rw [hend] at h
              obtain ⟨name, hname, h⟩ := except_bind_eq_ok h
              obtain ⟨ch, hch, h⟩ := except_bind_eq_ok h
              obtain ⟨behind, hbehind, h⟩ := except_bind_eq_ok h
              obtain ⟨more, rfl, hmore⟩ := ih h
              refine ⟨front ++ (ch.toString ++ more), by simp only [String.append_assoc],
                .inr ?_⟩
              obtain ⟨before, after, hsplit, -, hat⟩ := find_eq_some.mp hfind
              obtain ⟨inside, outside, hinside, -, hend'⟩ := find_eq_some.mp hend
              have hshort := length_decodeEntity hch
              have hchar : octets ch.toString = String.utf8EncodeChar ch := by
                simp [octets_eq_flatMap, Char.toString]
              have hrest := congrArg List.length hsplit
              have htaken := congrArg List.length hinside
              have hfront := congrArg List.length (octets_of_cut hfront)
              have htail := congrArg List.length (octets_of_cut htail)
              have hname := congrArg List.length (octets_of_cut hname)
              have hbehind := congrArg List.length (octets_of_cut hbehind)
              simp only [List.length_append, List.length_cons, List.length_take,
                List.length_drop, octets_append, hchar] at *
              have hbound : (octets more).length ≤ (octets behind).length := by
                obtain rfl | hless := hmore
                · exact Nat.le_refl _
                · omega
              omega

theorem decodeEntities_shortens {raw value : String} (h : decodeEntities raw = .ok value) :
    value = raw ∨ (octets value).length < (octets raw).length := by
  rw [decodeEntities] at h
  split at h
  · cases h
    exact .inl rfl
  · obtain ⟨more, rfl, hmore⟩ := decodeEntitiesLoop_shortens h
    rwa [String.empty_append]

/-! ## What an element takes for its text -/

def endTag (name : String) : String := "</" ++ (name ++ ">")

/-- The content read up to the end tag gave the element this text more, and took at least
as many octets for it. -/
structure Accounts (element : Element) (start : Parser) (result : Element) (later : Parser)
    (added : String) (piece : Octets) : Prop where
  goes : Goes start later piece
  name : result.name = element.name
  attrs : result.attrs = element.attrs
  text : result.text = element.text ++ added
  last : piece.getLast? = some 62
  exact : piece = octets (added ++ endTag element.name) ∨
    (octets (added ++ endTag element.name)).length < piece.length

theorem Accounts.round {element middleElement result : Element} {start middle later : Parser}
    {first piece : Octets} {text added : String} (hfirst : Goes start middle first)
    (htext : first = octets text ∨ (octets text).length < first.length)
    (hname : middleElement.name = element.name) (hattrs : middleElement.attrs = element.attrs)
    (hmiddle : middleElement.text = element.text ++ text)
    (h : Accounts middleElement middle result later added piece) :
    Accounts element start result later (text ++ added) (first ++ piece) where
  goes := hfirst.trans h.goes
  name := h.name.trans hname
  attrs := h.attrs.trans hattrs
  text := by rw [h.text, hmiddle, String.append_assoc]
  last := by
    rw [List.getLast?_append_of_ne_nil _ (by
      rintro rfl
      cases h.last)]
    exact h.last
  exact := by
    have hexact := h.exact
    rw [hname] at hexact
    rw [String.append_assoc, octets_append, List.length_append, List.length_append]
    obtain rfl | htext := htext
    · obtain rfl | hless := hexact
      · exact .inl rfl
      · exact .inr (by omega)
    · right
      obtain rfl | hless := hexact <;> omega

theorem Accounts.length_le {element result : Element} {start later : Parser} {added : String}
    {piece : Octets} (h : Accounts element start result later added piece) :
    (octets added).length + (octets element.name).length + 3 ≤ piece.length := by
  have htag : (octets (endTag element.name)).length = (octets element.name).length + 3 := by
    simp only [endTag, octets_append, List.length_append, show (octets "</").length = 2 from rfl,
      show (octets ">").length = 1 from rfl]
    omega
  have hexact := h.exact
  rw [octets_append, List.length_append, htag] at hexact
  obtain rfl | hless := hexact
  · rw [List.length_append, htag]
    omega
  · omega

theorem goes_of_startsWith {start later : Parser} {pat : Octets}
    (hstarts : pat.isPrefixOf (start.src.drop start.i))
    (h : advance pat.length start = .ok () later) : Goes start later pat := by
  obtain ⟨rest, hrest⟩ := List.isPrefixOf_iff_prefix.mp hstarts
  exact goes_of_advance rest hrest.symm h

theorem accounts_of_close {element result : Element} {start later : Parser}
    (hstarts : (octets "</").isPrefixOf (start.src.drop start.i))
    (h : (do
      advance 2
      let closing ← readName
      skipWs
      expect 62 "expected '>' closing an end tag"
      if closing ≠ element.name then
        fail "end tag does not match its start tag"
      else return element : ParserM Element) start = .ok result later) :
    result = element ∧ ∃ piece, Accounts element start result later "" piece := by
  obtain ⟨_, behind, hadvance, hname⟩ := bind_eq_ok h
  have hopen := goes_of_startsWith hstarts hadvance
  obtain ⟨closing, named, hclosing, hspaces⟩ := bind_eq_ok hname
  have hclosing := goes_of_readName hclosing
  obtain ⟨_, spaced, hws, hend⟩ := bind_eq_ok hspaces
  obtain ⟨spaces, hws⟩ := advances_skipWs hws
  obtain ⟨_, closed, hexpect, hcheck⟩ := bind_eq_ok hend
  have hgreater := goes_of_expect hexpect
  split at hcheck
  · cases hcheck
  · rename_i hsame
    rw [ne_eq, not_not] at hsame
    cases hcheck
    refine ⟨rfl, _, ⟨((hopen.trans hclosing).trans hws).trans hgreater, rfl, rfl, by simp,
      by simp, ?_⟩⟩
    have hend : octets ("" ++ endTag element.name) =
        octets "</" ++ octets closing ++ [62] := by
      rw [String.empty_append, endTag, octets_append, octets_append, hsame, List.append_assoc]
      rfl
    rw [hend]
    cases spaces with
    | nil =>
        left
        rw [List.append_nil]
    | cons space spaces =>
        right
        simp only [List.length_append, List.length_cons]
        omega

/-- A round of the loop over the content: the end tag, a run of text (none, for a comment)
or a child. -/
theorem parseContent_round {child : ParserM Element} {fuel : Nat} {element result : Element}
    {start later : Parser}
    (h : parseContent child (fuel + 1) element start = .ok result later) :
    (result = element ∧ ∃ piece, Accounts element start result later "" piece) ∨
    (∃ text piece middle, Goes start middle piece ∧
      (piece = octets text ∨ (octets text).length < piece.length) ∧
      parseContent child fuel { element with text := element.text ++ text } middle =
        .ok result later) ∨
    (∃ found middle, child start = .ok found middle ∧
      parseContent child fuel { element with children := element.children ++ [found] } middle =
        .ok result later) := by
  rw [parseContent] at h
  have h := startsWith_bind h
  split at h
  · rename_i hstarts
    exact .inl (accounts_of_close hstarts h)
  have h := startsWith_bind h
  split at h
  · obtain ⟨_, middle, hskip, hrest⟩ := bind_eq_ok h
    obtain ⟨before, hskip⟩ := goes_of_skipPast hskip
    refine .inr (.inl ⟨"", _, middle, hskip, .inr ?_, ?_⟩)
    · rw [octets_empty, List.length_append]
      exact Nat.lt_of_lt_of_le (by decide) (Nat.le_add_left _ _)
    · cases element
      rw [String.append_empty]
      exact hrest
  have h := startsWith_bind h
  split at h
  · rename_i hstarts
    obtain ⟨_, opened, hadvance, hinside⟩ := bind_eq_ok h
    have hopen := goes_of_startsWith hstarts hadvance
    rw [get_bind] at hinside
    obtain ⟨_, skipped, hskip, hcut⟩ := bind_eq_ok hinside
    obtain ⟨before, hskip⟩ := goes_of_skipPast hskip
    rw [get_bind] at hcut
    obtain ⟨value, hvalue, hrest⟩ := lift_eq_ok hcut
    refine .inr (.inl ⟨value, _, skipped, hopen.trans hskip, .inr ?_, hrest⟩)
    have hlength := congrArg List.length (octets_of_cut hvalue)
    have hindex := hskip.index
    have hclose : cdataOpen.length = 9 := rfl
    simp only [List.length_drop, List.length_take, List.length_append] at *
    omega
  rw [peek_bind] at h
  generalize hoctet : start.src[start.i]? = octet at h
  split at h
  · obtain ⟨found, middle, hfound, hrest⟩ := bind_eq_ok h
    exact .inr (.inr ⟨found, middle, hfound, hrest⟩)
  · rw [get_bind] at h
    obtain ⟨_, walked, hwalk, hcut⟩ := bind_eq_ok h
    have hwalk := goes_of_advanceWhile hwalk
    obtain ⟨raw, hraw, hdecode⟩ := cutFrom_bind hcut
    obtain ⟨value, hvalue, hrest⟩ := lift_eq_ok hdecode
    rw [hwalk.src, hwalk.segment] at hraw
    rw [← hraw] at hwalk
    refine .inr (.inl ⟨value, _, walked, hwalk, ?_, hrest⟩)
    obtain rfl | hless := decodeEntities_shortens hvalue
    · exact .inl rfl
    · exact .inr hless
  · cases h

theorem parseContent_accounts {child : ParserM Element}
    (hchild : ∀ {start later : Parser} {found : Element}, child start = .ok found later →
      ∃ piece, Goes start later piece ∧ piece ≠ [])
    {fuel : Nat} {element result : Element} {start later : Parser}
    (h : parseContent child fuel element start = .ok result later) :
    ∃ added piece, Accounts element start result later added piece := by
  induction fuel generalizing element start with
  | zero => cases h
  | succ fuel ih =>
      obtain ⟨-, piece, haccounts⟩ | ⟨text, first, middle, hfirst, htext, hrest⟩ |
        ⟨found, middle, hfound, hrest⟩ := parseContent_round h
      · exact ⟨_, piece, haccounts⟩
      · obtain ⟨added, piece, haccounts⟩ := ih hrest
        refine ⟨_, _, haccounts.round hfirst htext ?_ ?_ ?_⟩ <;> rfl
      · obtain ⟨first, hfirst, hne⟩ := hchild hfound
        obtain ⟨added, piece, haccounts⟩ := ih hrest
        refine ⟨"" ++ added, _, haccounts.round hfirst (.inr ?_) ?_ ?_ ?_⟩
        · rw [octets_empty]
          exact List.length_pos_of_ne_nil hne
        · rfl
        · rfl
        · exact String.append_empty.symm

/-- An element is never nothing, and longer than the name, the attributes and the text that
are in it. -/
theorem parseElement_goes {fuel levels : Nat} {start later : Parser} {found : Element}
    (h : parseElement fuel levels start = .ok found later) :
    ∃ piece, Goes start later piece ∧ piece.getLast? = some 62 ∧
      (found.text ≠ "" → ∀ attr ∈ found.attrs, 2 * (octets found.name).length +
        (octets attr.1).length + (octets found.text).length + 8 ≤ piece.length) := by
  induction levels generalizing start later found with
  | zero => cases h
  | succ levels ih =>
      rw [parseElement] at h
      obtain ⟨_, opened, hexpect, hname⟩ := bind_eq_ok h
      have hopen := goes_of_expect hexpect
      obtain ⟨name, named, hreadName, hattrs⟩ := bind_eq_ok hname
      have hnamed := goes_of_readName hreadName
      obtain ⟨⟨attrs, empty⟩, tagged, hparseAttrs, hcontent⟩ := bind_eq_ok hattrs
      obtain ⟨found, tag, rfl, htag, htagLast, hlonger⟩ := goes_of_parseAttrs hparseAttrs
      have hstart := (hopen.trans hnamed).trans htag
      have hstartLast : ([60] ++ octets name ++ tag).getLast? = some 62 := by
        rw [List.getLast?_append_of_ne_nil _ (by
          rintro rfl
          cases htagLast), htagLast]
      dsimp only at hcontent
      split at hcontent
      · cases hcontent
        exact ⟨_, hstart, hstartLast, fun htext => absurd rfl htext⟩
      · obtain ⟨added, piece, haccounts⟩ := parseContent_accounts (fun hfound => by
          obtain ⟨piece, hgoes, hlast, -⟩ := ih hfound
          refine ⟨piece, hgoes, ?_⟩
          rintro rfl
          cases hlast) hcontent
        refine ⟨_, hstart.trans haccounts.goes, ?_, fun _ attr hattr => ?_⟩
        · rw [List.getLast?_append_of_ne_nil _ (by
            rintro rfl
            cases haccounts.last), haccounts.last]
        · have htext := haccounts.text
          rw [String.empty_append] at htext
          rw [haccounts.attrs] at hattr
          have hattrs := hlonger attr hattr
          have hlength := haccounts.length_le
          rw [haccounts.name, htext]
          simp only [List.length_append, List.length_singleton]
          dsimp only at hlength ⊢
          omega

theorem parseElement_ne_nil {fuel levels : Nat} {start later : Parser} {found : Element}
    (h : parseElement fuel levels start = .ok found later) :
    ∃ piece, Goes start later piece ∧ piece ≠ [] := by
  obtain ⟨piece, hgoes, hlast, -⟩ := parseElement_goes h
  refine ⟨piece, hgoes, ?_⟩
  rintro rfl
  cases hlast

/-- The start tag of an element that has content is read for its attributes. -/
theorem parseElement_open {name : String} (hname : IsTag name)
    {attrs : List (String × String)} (hnames : ∀ attr ∈ attrs, IsName attr.1) {fuel : Nat}
    (hfuel : attrs.length < fuel) (levels : Nat) (before content : String) :
    parseElement fuel (levels + 1)
        (.between before ("<" ++ (name ++ (writeAttrs attrs ++ ">" ++ content)))) =
      parseContent (parseElement fuel levels) fuel { name, attrs, children := [], text := "" }
        (.between (before ++ "<" ++ name ++ (writeAttrs attrs ++ ">")) content) := by
  have hexpect := reads_expect "<" (by rfl : octets "<" = [60]) "expected an element"
    (name ++ (writeAttrs attrs ++ ">" ++ content)) before
  have hreadName := reads_readName hname.1 (writeAttrs attrs ++ ">" ++ content)
    (by
      rw [String.append_assoc]
      exact head_writeAttrs attrs (by rw [octets_append]; rintro _ ⟨⟩; decide))
    (before ++ "<")
  have hattrs := reads_parseAttrs hnames (reads_parseAttrs_open content) hfuel []
    (before ++ "<" ++ name)
  rw [parseElement, bind_ok hexpect, bind_ok hreadName, bind_ok hattrs]
  rfl

theorem accounts_of_parseElement {name : String} (hname : IsTag name)
    {attrs : List (String × String)} (hnames : ∀ attr ∈ attrs, IsName attr.1) {fuel : Nat}
    (hfuel : attrs.length < fuel + 1) {levels : Nat} {start before rest : String}
    (hbefore : ¬ sectionEnd.toList <:+: before.toList) {root : Element} {later : Parser}
    (h : parseElement (fuel + 1) (levels + 1) (.between start ("<" ++ (name ++
      (writeAttrs attrs ++ ">" ++ ("<![CDATA[" ++ (before ++ sectionEnd ++ rest)))))) =
      .ok root later) :
    ∃ position added piece,
      Accounts { name, attrs, children := [], text := before } (.between position rest) root
        later added piece := by
  rw [parseElement_open hname hnames hfuel, parseContent_cdata _ _ _ hbefore,
    String.empty_append] at h
  obtain ⟨added, piece, haccounts⟩ := parseContent_accounts parseElement_ne_nil h
  exact ⟨_, added, piece, haccounts⟩

/-! ## Contents that do not come back -/

theorem exists_first_infix {pattern source : List Char} (hpattern : pattern ≠ [])
    (h : pattern <:+: source) :
    ∃ before after, source = before ++ (pattern ++ after) ∧ ¬ pattern <:+: before := by
  induction source with
  | nil => exact absurd (List.infix_nil.mp h) hpattern
  | cons ch rest ih =>
      by_cases hstarts : pattern <+: ch :: rest
      · obtain ⟨after, hafter⟩ := hstarts
        exact ⟨[], after, hafter.symm, fun hnil => hpattern (List.infix_nil.mp hnil)⟩
      · obtain ⟨before, after, rfl, hbefore⟩ :=
          ih ((List.infix_cons_iff.mp h).resolve_left hstarts)
        refine ⟨ch :: before, after, rfl, fun hcontained => ?_⟩
        obtain hstart | hinside := List.infix_cons_iff.mp hcontained
        · exact hstarts (hstart.trans (List.prefix_append (ch :: before) _))
        · exact hbefore hinside

theorem sectionEnds_succ (count : Nat) :
    (sectionEnds (count + 1)).toList = sectionEnd.toList ++ (sectionEnds count).toList := by
  rw [sectionEnds, List.replicate_succ, String.join_cons, String.toList_append, sectionEnds]

/-- What is the same with an end of a section behind it and in front of it is made of ends
of sections. -/
theorem eq_sectionEnds {rest : List Char}
    (h : rest ++ sectionEnd.toList = sectionEnd.toList ++ rest) :
    ∃ count, rest = (sectionEnds count).toList := by
  have hend : sectionEnd.toList = [']', ']', '>'] := by decide
  induction hlength : rest.length using Nat.strong_induction_on generalizing rest with
  | _ length ih =>
      rw [hend] at h
      match rest with
      | [] => exact ⟨0, rfl⟩
      | [first] => simp at h
      | [first, second] => simp at h
      | first :: second :: third :: rest =>
          simp only [List.cons_append, List.nil_append, List.cons.injEq] at h
          obtain ⟨rfl, rfl, rfl, hrest⟩ := h
          obtain ⟨count, hcount⟩ := ih rest.length
            (by rw [← hlength]; simp only [List.length_cons]; omega) (by rw [hend]; exact hrest) rfl
          exact ⟨count + 1, by rw [sectionEnds_succ, hend, ← hcount]; rfl⟩

/-- A content is inert when the end of its section can be behind it or in front of it. -/
theorem inert_of_commute {before after tag : String}
    (hbefore : ¬ sectionEnd.toList <:+: before.toList)
    (h : octets (sectionEnd ++ after ++ tag) = octets (after ++ (sectionEnd ++ tag))) :
    Inert (before ++ (sectionEnd ++ after)) := by
  have hcommute := congrArg String.toList (octets_injective h)
  simp only [String.toList_append, ← List.append_assoc, List.append_left_inj] at hcommute
  obtain ⟨count, hcount⟩ := eq_sectionEnds hcommute.symm
  refine ⟨before, count + 1, ?_, hbefore⟩
  rw [← String.toList_inj, String.toList_append, String.toList_append, hcount,
    String.toList_append, sectionEnds_succ]

/-- A content that its element comes back with leaves its section alone, unless its element
ends past the end tag that is its own. -/
theorem inert_or_past {element result : Element} {start later : Parser}
    {before after added tail : String} {piece : Octets}
    (h : Accounts element start result later added piece)
    (hsource : start.src.drop start.i =
      octets (after ++ (sectionEnd ++ (endTag element.name ++ tail))))
    (hadded : added = sectionEnd ++ after) (hbefore : ¬ sectionEnd.toList <:+: before.toList) :
    Inert (before ++ (sectionEnd ++ after)) ∨
      ∃ past, octets tail = past ++ later.src.drop later.i ∧ past.getLast? = some 62 := by
  have hwhole : octets (after ++ (sectionEnd ++ (endTag element.name ++ tail))) =
      octets (after ++ (sectionEnd ++ endTag element.name)) ++ octets tail := by
    simp only [octets_append, List.append_assoc]
  have hsplit := h.goes.split
  rw [hsource, hwhole] at hsplit
  have hexact := h.exact
  rw [hadded] at hexact
  have hswap : (octets (sectionEnd ++ after ++ endTag element.name)).length =
      (octets (after ++ (sectionEnd ++ endTag element.name))).length := by
    simp only [octets_append, List.length_append]
    omega
  obtain ⟨past, hpiece, htail⟩ | ⟨behind, hown, -⟩ := List.append_eq_append_iff.mp hsplit
  · by_cases hpast : past = []
    · rw [hpast, List.append_nil] at hpiece
      have hsame := hexact.resolve_right (by
        rw [hswap, hpiece]
        exact Nat.lt_irrefl _)
      exact .inl (inert_of_commute hbefore (hsame.symm.trans hpiece))
    · have hlast := h.last
      rw [hpiece, List.getLast?_append_of_ne_nil _ hpast] at hlast
      exact .inr ⟨past, htail, hlast⟩
  · have hlength := congrArg List.length hown
    rw [List.length_append] at hlength
    have hsame := hexact.resolve_right (by
      rw [hswap, hlength]
      omega)
    have hnone : behind = [] := by
      have := congrArg List.length hsame
      rw [← List.length_eq_zero_iff]
      omega
    rw [hnone, List.append_nil] at hown
    exact .inl (inert_of_commute hbefore (hsame.symm.trans hown.symm))

end Vortice.Proto.Xml

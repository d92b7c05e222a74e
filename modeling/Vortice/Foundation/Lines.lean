import Vortice.Foundation.Cutting

/-!
# Lines and words

A text is cut into lines at every carriage return with a line feed behind it, and
into words at white space.
-/

namespace Vortice.Foundation

/-- The pieces between the line ends, of which there is always one more than those. -/
def splitCrlf : List Char → List (List Char)
  | [] => [[]]
  | '\r' :: '\n' :: rest => [] :: splitCrlf rest
  | ch :: rest =>
      match splitCrlf rest with
      | [] => [[ch]]
      | line :: lines => (ch :: line) :: lines

def lines (value : String) : List String := (splitCrlf value.toList).map String.ofList

/-- The words of a text, for what counts as white space. -/
def words (isSpace : Char → Bool) (value : String) : List String :=
  ((value.toList.splitOnP isSpace).filter (· ≠ [])).map String.ofList

def toAsciiLowercase (ch : Char) : Char :=
  if 'A' ≤ ch ∧ ch ≤ 'Z' then Char.ofNat (ch.toNat + 32) else ch

def eqIgnoreAsciiCase (first second : String) : Bool :=
  first.toList.map toAsciiLowercase == second.toList.map toAsciiLowercase

theorem splitCrlf_ne_nil (source : List Char) : splitCrlf source ≠ [] := by
  fun_induction splitCrlf source <;> simp_all

/-- Any other character is the first of the first line. -/
theorem splitCrlf_cons {ch : Char} {rest line : List Char} {later : List (List Char)}
    (h : ¬ ['\r', '\n'] <+: ch :: rest) (hrest : splitCrlf rest = line :: later) :
    splitCrlf (ch :: rest) = (ch :: line) :: later := by
  rw [splitCrlf]
  · rw [hrest]
  · rintro more rfl rfl
    exact h ⟨more, rfl⟩

theorem splitCrlf_crlf (rest : List Char) :
    splitCrlf ('\r' :: '\n' :: rest) = [] :: splitCrlf rest := by
  rw [splitCrlf]

/-- Where a line ends, the rest is cut on its own. -/
theorem splitCrlf_append (source rest : List Char) :
    splitCrlf (source ++ '\r' :: '\n' :: rest) = splitCrlf source ++ splitCrlf rest := by
  fun_induction splitCrlf source with
  | case1 => rw [List.nil_append, splitCrlf_crlf, List.singleton_append]
  | case2 source ih => rw [List.cons_append, List.cons_append, splitCrlf_crlf, ih,
      List.cons_append]
  | case3 ch source _ hnone => exact absurd hnone (splitCrlf_ne_nil source)
  | case4 ch source hother line later hlines ih =>
      rw [hlines, List.cons_append] at ih
      rw [List.cons_append, splitCrlf_cons ?_ ih, List.cons_append]
      intro hstarts
      obtain ⟨hch, hnext⟩ := List.cons_prefix_cons.mp hstarts
      cases source with
      | nil => exact absurd (List.cons_prefix_cons.mp hnext).1 (by decide)
      | cons second source =>
          obtain ⟨hsecond, -⟩ := List.cons_prefix_cons.mp hnext
          exact hother source hch.symm (by rw [hsecond])

/-- A text without a line end is a line. -/
theorem splitCrlf_of_notMem {source : List Char} (h : '\r' ∉ source) :
    splitCrlf source = [source] := by
  induction source with
  | nil => rfl
  | cons ch rest ih =>
      rw [List.mem_cons, not_or] at h
      refine splitCrlf_cons (fun hstarts => ?_) (ih h.2)
      exact h.1 (List.cons_prefix_cons.mp hstarts).1

/-- The first line begins like the text, up to a carriage return. -/
theorem exists_splitCrlf_append {front : List Char} (h : '\r' ∉ front) (rest : List Char) :
    ∃ line later, splitCrlf rest = line :: later ∧
      splitCrlf (front ++ rest) = (front ++ line) :: later := by
  obtain ⟨line, later, hrest⟩ := List.exists_cons_of_ne_nil (splitCrlf_ne_nil rest)
  refine ⟨line, later, hrest, ?_⟩
  induction front with
  | nil => exact hrest
  | cons ch front ih =>
      rw [List.mem_cons, not_or] at h
      refine splitCrlf_cons (fun hstarts => ?_) (ih h.2)
      exact h.1 (List.cons_prefix_cons.mp hstarts).1

/-- An empty line behind the first stands between two line ends, or at the end. -/
theorem exists_append_of_blank {source : List Char} (h : [] ∈ (splitCrlf source).tail) :
    ∃ before after, source ++ ['\r', '\n'] = before ++ ['\r', '\n', '\r', '\n'] ++ after := by
  fun_induction splitCrlf source with
  | case1 => cases h
  | case2 source ih =>
      cases source with
      | nil => exact ⟨[], [], rfl⟩
      | cons ch source =>
          obtain ⟨line, later, hlines⟩ :=
            List.exists_cons_of_ne_nil (splitCrlf_ne_nil (ch :: source))
          rw [hlines, List.tail_cons, List.mem_cons] at h
          obtain hline | hlater := h
          · -- the line is empty only if another line end is next
            by_cases hnext : ['\r', '\n'] <+: ch :: source
            · obtain ⟨after, hafter⟩ := hnext
              refine ⟨[], after ++ ['\r', '\n'], ?_⟩
              rw [← hafter]
              rfl
            · obtain ⟨first, more, hmore⟩ := List.exists_cons_of_ne_nil (splitCrlf_ne_nil source)
              rw [splitCrlf_cons hnext hmore, List.cons.injEq] at hlines
              rw [← hlines.1] at hline
              cases hline
          · obtain ⟨before, after, hsource⟩ := ih (by rwa [hlines])
            refine ⟨'\r' :: '\n' :: before, after, ?_⟩
            rw [List.cons_append, List.cons_append, hsource]
            rfl
  | case3 ch source _ hnone => exact absurd hnone (splitCrlf_ne_nil source)
  | case4 ch source _ line later hlines ih =>
      rw [hlines] at ih
      obtain ⟨before, after, hsource⟩ := ih h
      refine ⟨ch :: before, after, ?_⟩
      rw [List.cons_append, hsource]
      rfl

@[simp] theorem lines_append (source rest : String) :
    lines (source ++ "\r\n" ++ rest) = lines source ++ lines rest := by
  rw [lines, lines, lines, ← List.map_append, ← splitCrlf_append]
  simp

theorem exists_lines (source : String) : ∃ first rest, lines source = first :: rest :=
  List.exists_cons_of_ne_nil fun hnil =>
    splitCrlf_ne_nil source.toList (List.map_eq_nil_iff.mp hnil)

theorem lines_of_notMem {source : String} (h : '\r' ∉ source.toList) :
    lines source = [source] := by
  rw [lines, splitCrlf_of_notMem h, List.map_singleton, String.ofList_toList]

/-- The first word, when white space stands behind it. -/
theorem head?_words {isSpace : Char → Bool} {word : String} {space : Char} {rest : List Char}
    (hne : word ≠ "") (hword : ∀ ch ∈ word.toList, isSpace ch = false)
    (hspace : isSpace space) :
    (words isSpace (String.ofList (word.toList ++ space :: rest))).head? = some word := by
  have hlist : word.toList ≠ [] := fun hnil => hne (String.toList_eq_nil_iff.mp hnil)
  rw [words, String.toList_ofList, List.splitOnP_append_cons_of_forall_mem hword space hspace,
    List.filter_cons_of_pos (by simpa using hlist), List.map_cons, List.head?_cons,
    String.ofList_toList]

end Vortice.Foundation

import Mathlib.Data.List.DropRight
import Mathlib.Data.List.TakeDrop
import Mathlib.Data.List.TakeWhile
import Vortice.Foundation.Octets

/-!
# Cutting text

Texts are cut at a separator, at its first or its last occurrence or at all of
them, and pieces of them are replaced, one character after the other.
-/

namespace Vortice.Foundation

/-- The text before and behind the first `separator`. -/
def splitOnce (value : String) (separator : Char) : Option (String × String) :=
  match value.toList.span (· ≠ separator) with
  | (_, []) => none
  | (before, _ :: after) => some (String.ofList before, String.ofList after)

/-- What is before and behind the first occurrence of `pattern`. -/
def cutFirst (pattern : List Char) : List Char → Option (List Char × List Char)
  | [] => (pattern.isPrefixOf? []).map fun after => ([], after)
  | ch :: rest =>
      match pattern.isPrefixOf? (ch :: rest) with
      | some after => some ([], after)
      | none => (cutFirst pattern rest).map fun (before, after) => (ch :: before, after)

/-- What is before and behind the last occurrence of `pattern`. -/
def cutLast (pattern : List Char) : List Char → Option (List Char × List Char)
  | [] => none
  | ch :: rest =>
      match cutLast pattern rest with
      | some (before, after) => some (ch :: before, after)
      | none => (pattern.isPrefixOf? (ch :: rest)).map fun after => ([], after)

def rsplitOnce (value pattern : String) : Option (String × String) :=
  (cutLast pattern.toList value.toList).map fun (before, after) =>
    (String.ofList before, String.ofList after)

def split (value : String) (separator : Char) : List String :=
  (value.toList.splitOn separator).map String.ofList

def stripPrefix (value start : String) : Option String :=
  (start.toList.isPrefixOf? value.toList).map String.ofList

/-- Every occurrence of `pattern`, from the left, replaced; `skip` more characters belong
to the one replaced last. -/
def replaceFrom (pattern replacement : List Char) : Nat → List Char → List Char
  | _, [] => []
  | skip + 1, _ :: rest => replaceFrom pattern replacement skip rest
  | 0, ch :: rest =>
      if pattern.isPrefixOf (ch :: rest) then
        replacement ++ replaceFrom pattern replacement (pattern.length - 1) rest
      else ch :: replaceFrom pattern replacement 0 rest

def replace (value pattern replacement : String) : String :=
  String.ofList (replaceFrom pattern.toList replacement.toList 0 value.toList)

theorem splitOnce_eq_some {value before after : String} {separator : Char}
    (h : splitOnce value separator = some (before, after)) :
    value.toList = before.toList ++ separator :: after.toList ∧
      separator ∉ before.toList := by
  rw [splitOnce, List.span_eq_takeWhile_dropWhile] at h
  have hcut := List.takeWhile_append_dropWhile
    (p := fun ch => decide (ch ≠ separator)) (l := value.toList)
  cases hdrop : value.toList.dropWhile fun ch => decide (ch ≠ separator) with
  | nil =>
      rw [hdrop] at h
      cases h
  | cons found rest =>
      have hfound : found = separator := by
        have hhead := List.head?_dropWhile_not
          (fun ch => decide (ch ≠ separator)) value.toList
        rw [hdrop] at hhead
        simpa using hhead
      rw [hdrop] at h hcut
      cases h
      rw [hfound] at hcut
      refine ⟨by simpa using hcut.symm, fun hmem => ?_⟩
      rw [String.toList_ofList] at hmem
      simpa using List.mem_takeWhile_imp hmem

theorem splitOnce_of_eq {value before after : String} {separator : Char}
    (hvalue : value.toList = before.toList ++ separator :: after.toList)
    (hbefore : separator ∉ before.toList) :
    splitOnce value separator = some (before, after) := by
  have hall : ∀ ch ∈ before.toList, decide (ch ≠ separator) = true := by
    rintro ch hmem
    exact decide_eq_true fun heq => hbefore (heq ▸ hmem)
  rw [splitOnce, List.span_eq_takeWhile_dropWhile, hvalue,
    List.takeWhile_append_of_pos hall, List.dropWhile_append_of_pos hall]
  simp

theorem split_of_notMem {value : String} {separator : Char} (h : separator ∉ value.toList) :
    split value separator = [value] := by
  have hnone : ∀ ch ∈ value.toList, (ch == separator) = false := by
    intro ch hmem
    exact beq_false_of_ne fun heq => h (heq ▸ hmem)
  rw [split, List.splitOn_eq_splitOnP, List.splitOnP_eq_singleton hnone]
  simp

theorem split_of_eq {value before after : String} {separator : Char}
    (hvalue : value.toList = before.toList ++ separator :: after.toList)
    (hbefore : separator ∉ before.toList) :
    split value separator = before :: split after separator := by
  have hnone : ∀ ch ∈ before.toList, (ch == separator) = false := by
    intro ch hmem
    exact beq_false_of_ne fun heq => hbefore (heq ▸ hmem)
  rw [split, hvalue, List.splitOn_eq_splitOnP,
    List.splitOnP_append_cons_of_forall_mem hnone separator (beq_self_eq_true _)]
  simp [split, List.splitOn_eq_splitOnP]

theorem notMem_of_mem_splitOn {separator : Char} {characters field : List Char}
    (h : field ∈ characters.splitOn separator) : separator ∉ field := by
  induction characters generalizing field with
  | nil =>
      rw [List.splitOn_nil, List.mem_singleton] at h
      subst h
      exact List.not_mem_nil
  | cons ch rest ih =>
      rw [List.splitOn_cons_eq_if_modifyHead] at h
      split at h
      · rcases List.mem_cons.mp h with rfl | h
        · exact List.not_mem_nil
        · exact ih h
      · rename_i hne
        cases hsplit : rest.splitOn separator with
        | nil =>
            rw [hsplit] at h
            cases h
        | cons first later =>
            rw [hsplit, List.modifyHead_cons] at h
            rw [hsplit] at ih
            rcases List.mem_cons.mp h with rfl | h
            · rw [List.mem_cons, not_or]
              exact ⟨fun heq => hne (by simp [heq]), ih List.mem_cons_self⟩
            · exact ih (List.mem_cons_of_mem _ h)

/-- A piece between separators holds none. -/
theorem notMem_of_mem_split {value field : String} {separator : Char}
    (h : field ∈ split value separator) : separator ∉ field.toList := by
  obtain ⟨characters, hmem, rfl⟩ := List.mem_map.mp h
  rw [String.toList_ofList]
  exact notMem_of_mem_splitOn hmem

theorem isPrefixOf?_append (pattern after : List Char) :
    pattern.isPrefixOf? (pattern ++ after) = some after := by
  induction pattern with
  | nil => rfl
  | cons ch pattern ih => simp [List.isPrefixOf?, ih]

theorem cutLast_of_notMem {first : Char} {tail value : List Char} (h : first ∉ value) :
    cutLast (first :: tail) value = none := by
  induction value with
  | nil => rfl
  | cons ch rest ih =>
      rw [List.mem_cons, not_or] at h
      simp [cutLast, ih h.2, List.isPrefixOf?, h.1]

/-- A pattern that begins with a character found nowhere behind it is cut there. -/
theorem cutLast_append {first : Char} {tail after : List Char}
    (h : first ∉ tail ++ after) (before : List Char) :
    cutLast (first :: tail) (before ++ first :: (tail ++ after)) = some (before, after) := by
  induction before with
  | nil =>
      have hstarts := isPrefixOf?_append (first :: tail) after
      rw [List.cons_append] at hstarts
      rw [List.nil_append, cutLast, cutLast_of_notMem h]
      simp [hstarts]
  | cons ch before ih => simp [cutLast, ih]

/-- Replacing goes through a text piece by piece when it does so behind every piece. -/
theorem replaceFrom_flatMap {α : Type} {pattern replacement : List Char}
    {piece replaced : α → List Char}
    (h : ∀ a rest, replaceFrom pattern replacement 0 (piece a ++ rest) =
      replaced a ++ replaceFrom pattern replacement 0 rest) (items : List α) :
    replaceFrom pattern replacement 0 (items.flatMap piece) = items.flatMap replaced := by
  induction items with
  | nil => simp [replaceFrom]
  | cons a items ih => rw [List.flatMap_cons, h, ih, List.flatMap_cons]

end Vortice.Foundation

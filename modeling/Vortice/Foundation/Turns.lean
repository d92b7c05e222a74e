import Mathlib.Data.List.Basic
import Mathlib.Logic.Function.Basic

/-!
# Taking turns

Keys arrive one after the other, and items are handed over for them in any
order.  A desk passes on the items of the key whose turn it is, keeps the others,
and lets them go when their turn comes; a final item ends the turn of its key.
-/

namespace Vortice.Foundation

/-- The keys in the order of their turns, and the items kept for them. -/
structure Desk (κ ι : Type*) where
  order : List κ
  held : κ → Option (List ι)

variable {κ ι : Type*} (final : ι → Bool)

namespace Desk

variable [DecidableEq κ]

def keep (desk : Desk κ ι) (key : κ) (item : ι) : Desk κ ι :=
  { desk with
    held := Function.update desk.held key
      (some ((desk.held key).getD [] ++ [item])) }

/-- The items kept for the first key go, and while they end its turn, those of the
next. -/
def release (held : κ → Option (List ι)) : List κ → Desk κ ι × List ι
  | [] => (⟨[], held⟩, [])
  | key :: order =>
      match held key with
      | none => (⟨key :: order, held⟩, [])
      | some items =>
          if items.any final then
            let (desk, more) := release (Function.update held key none) order
            (desk, items ++ more)
          else (⟨key :: order, Function.update held key none⟩, items)

/-- An item is passed on in its turn or when no turn is awaited, and kept otherwise. -/
def give (desk : Desk κ ι) (key : κ) (item : ι) : Desk κ ι × List ι :=
  match desk.order with
  | [] => (desk, [item])
  | next :: order =>
      if next = key then
        if final item then
          let (desk, more) := release final desk.held order
          (desk, item :: more)
        else (desk, [item])
      else (desk.keep key item, [])

end Desk

end Vortice.Foundation

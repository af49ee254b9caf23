/-!
# Sequences under construction

Commands are collected one by one, in the order of the calls, and then handed over as a whole.
-/

namespace GalvoWeld

/-- A sequence under construction. -/
structure Draft (α : Type) where
  items : List α

namespace Draft

variable {α : Type}

def empty : Draft α := ⟨[]⟩

def add (d : Draft α) (a : α) : Draft α := ⟨d.items ++ [a]⟩

def isEmpty (d : Draft α) : Bool := d.items.isEmpty

/-- Hands the items over and begins anew. -/
def take (d : Draft α) : List α × Draft α := (d.items, empty)

@[simp] theorem items_add (d : Draft α) (a : α) : (d.add a).items = d.items ++ [a] := rfl

@[simp] theorem items_empty : (empty : Draft α).items = [] := rfl

end Draft

end GalvoWeld

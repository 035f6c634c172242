/-!
# Linked cells

A cell of a chain in memory: its item, and the link to the next cell.
-/

namespace TR

structure Cell (κ α : Type) where
  item : α
  next : Option κ
  deriving Repr, DecidableEq

end TR

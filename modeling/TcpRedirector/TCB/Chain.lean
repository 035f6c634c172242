/-!
# Linked chains

A chain of a hash table is a list searched from its head. The loops over one
that stop at the first match are `List.find?`, `List.eraseP` and
`modifyFirst`.
-/

namespace TR

/-- The first element that satisfies `p`, replaced by its image under `f`. -/
def modifyFirst {α : Type} (p : α → Bool) (f : α → α) : List α → List α
  | [] => []
  | x :: xs => if p x then f x :: xs else x :: modifyFirst p f xs

end TR

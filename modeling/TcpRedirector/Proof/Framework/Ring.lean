import Mathlib.Data.Nat.ModEq

/-!
# Rings

A ring of `size` cells into which the elements of a list are written one after
another. It has the last `size` of them (`Holds`, kept by `Holds.put`), and the
window over some of the last ones is the end of the list (`Holds.window_eq`).
A window is at most two runs of cells (`window_of_le`, `window_size`).
-/

namespace TR.Ring

variable {α : Type} {size : Nat} {ring : Nat → α} {l : List α}

/-- The element of number `n` is written. -/
def put (size n : Nat) (a : α) (ring : Nat → α) : Nat → α := fun i => if i = n % size then a else ring i

/-- The ring has the last `size` elements of the list, each in its cell. -/
def Holds (size : Nat) (ring : Nat → α) (l : List α) : Prop :=
  ∀ j (hj : j < l.length), l.length ≤ j + size → ring (j % size) = l[j]

/-- The elements with the numbers from `first` on. -/
def window (size : Nat) (ring : Nat → α) (first count : Nat) : List α :=
  (List.range' first count).map fun j => ring (j % size)

theorem length_window (first count : Nat) : (window size ring first count).length = count := by
  rw [window, List.length_map, List.length_range']

theorem holds_nil : Holds size ring [] := fun j hj => absurd hj (Nat.not_lt_zero j)

/-- Numbers of one cell are at least `size` apart. -/
theorem mod_ne {j n : Nat} (hlt : j < n) (hle : n < j + size) : j % size ≠ n % size := by
  intro heq
  have hdvd : size ∣ n - j := (Nat.modEq_iff_dvd' (Nat.le_of_lt hlt)).mp heq
  have := Nat.le_of_dvd (by omega) hdvd
  omega

theorem Holds.put (h : Holds size ring l) (a : α) : Holds size (Ring.put size l.length a ring) (l ++ [a]) := by
  intro j hj hle
  rw [List.length_append, List.length_singleton] at hj hle
  rw [Ring.put]
  rcases Nat.lt_succ_iff_lt_or_eq.mp hj with hlt | rfl
  · rw [if_neg (mod_ne hlt (by omega)), List.getElem_append_left hlt]
    exact h j hlt (by omega)
  · rw [if_pos rfl, List.getElem_concat_length rfl]

/-- A window that ends with the last element. -/
theorem Holds.window_eq (h : Holds size ring l) {first count : Nat} (hlast : first + count = l.length)
    (hcount : count ≤ size) : window size ring first count = l.drop first := by
  apply List.ext_getElem
  · rw [window, List.length_map, List.length_range', List.length_drop]
    omega
  · intro i hi hi'
    rw [List.length_drop] at hi'
    simp only [window, List.getElem_drop, List.getElem_map, List.getElem_range', Nat.one_mul]
    exact h (first + i) (by omega) (by omega)

/-- In the first turn a number is its cell. -/
theorem window_of_le {first count : Nat} (h : first + count ≤ size) :
    window size ring first count = (List.range' first count).map ring := by
  refine List.map_congr_left fun j hj => ?_
  have hj' := (List.mem_range'_1.mp hj).2
  rw [Nat.mod_eq_of_lt (by omega)]

theorem window_append (first count count' : Nat) :
    window size ring first (count + count') = window size ring first count ++ window size ring (first + count) count' := by
  rw [window, window, window, ← List.map_append, List.range'_append_1]

theorem window_succ (first count : Nat) :
    window size ring first (count + 1) = ring (first % size) :: window size ring (first + 1) count := by
  rw [window, window, List.range'_succ, List.map_cons]

theorem window_mod (first count : Nat) : window size ring (first % size) count = window size ring first count := by
  induction count generalizing first with
  | zero => rfl
  | succ count ih => rw [window_succ, window_succ, Nat.mod_mod, ← ih (first % size + 1), Nat.mod_add_mod, ih]

/-- A whole turn: to the end of the ring, and then from its start on. -/
theorem window_size (hsize : 0 < size) (first : Nat) :
    window size ring first size =
      (List.range' (first % size) (size - first % size)).map ring ++ (List.range (first % size)).map ring := by
  have hlt : first % size < size := Nat.mod_lt first hsize
  have hturn : window size ring (first % size + (size - first % size)) (first % size) =
      window size ring 0 (first % size) := by
    rw [Nat.add_sub_cancel' (Nat.le_of_lt hlt), ← window_mod size, Nat.mod_self]
  calc window size ring first size
    _ = window size ring (first % size) (size - first % size + first % size) := by
        rw [window_mod, Nat.sub_add_cancel (Nat.le_of_lt hlt)]
    _ = (List.range' (first % size) (size - first % size)).map ring ++ (List.range (first % size)).map ring := by
        rw [window_append, hturn, window_of_le (by omega), window_of_le (by omega), List.range_eq_range']

end TR.Ring

import Mathlib.Data.List.DropRight
import TcpRedirector.Impl.Service.Logger
import TcpRedirector.Proof.Framework.Ring

/-!
# The contents of the ring

The entries that the ring still holds (`Logger.contents`). Whichever way a
request reads the ring, it gives the last of them
(`getRecentEntries_eq_window`), so a request for at least as many gives them
all (`getRecentEntries_eq_contents`), and after any number of entries a request
gives the last ones that were added (`recent_are_last`).
-/

namespace TR.Impl.Service.Logger

/-- The entries in the ring, the oldest one first. -/
def contents (l : Logger) : List LogEntry :=
  let idx := l.ringIndex.toNat
  let total := min idx RING_BUFFER_SIZE
  (List.range total).map fun i => l.ringBuffer ((idx - total + i) % RING_BUFFER_SIZE)

theorem length_contents (l : Logger) : l.contents.length = min l.ringIndex.toNat RING_BUFFER_SIZE := by
  simp [contents]

theorem contents_eq_window (l : Logger) :
    l.contents = Ring.window RING_BUFFER_SIZE l.ringBuffer (l.ringIndex.toNat - min l.ringIndex.toNat RING_BUFFER_SIZE)
      (min l.ringIndex.toNat RING_BUFFER_SIZE) := by
  rw [contents, Ring.window, List.range'_eq_map_range, List.map_map]
  rfl

theorem around_eq_window (l : Logger) (i count : Nat) :
    l.around (i % RING_BUFFER_SIZE) count = Ring.window RING_BUFFER_SIZE l.ringBuffer i count := by
  induction count generalizing i with
  | zero => rfl
  | succ count ih => rw [around, Ring.window_succ, Nat.mod_add_mod, ih]

/-- A request gives the last entries, by their numbers. -/
theorem getRecentEntries_eq_window (max_count : Nat) (l : Logger) {total : Nat}
    (htotal : total = min max_count (min l.ringIndex.toNat RING_BUFFER_SIZE)) :
    l.getRecentEntries max_count = Ring.window RING_BUFFER_SIZE l.ringBuffer (l.ringIndex.toNat - total) total := by
  by_cases hlt : l.ringIndex.toNat < RING_BUFFER_SIZE
  · simp only [getRecentEntries, if_pos hlt]
    rw [Ring.window_of_le (by omega)]
    split
    next hzero =>
      obtain rfl : total = 0 := by omega
      rfl
    next =>
      have hstart : (if max_count < l.ringIndex.toNat then l.ringIndex.toNat - max_count else 0) =
          l.ringIndex.toNat - total := by split <;> omega
      have hcount : l.ringIndex.toNat - (l.ringIndex.toNat - total) = total := by omega
      rw [hstart, hcount]
  · simp only [getRecentEntries, if_neg hlt]
    rw [if_neg (by decide)]
    split
    next hle =>
      obtain rfl : total = RING_BUFFER_SIZE := by omega
      rw [Ring.window_size (by decide), ← Nat.mod_eq_sub_mod (by omega)]
    next hle =>
      obtain rfl : total = max_count := by omega
      have hfirst : (l.ringIndex.toNat % RING_BUFFER_SIZE + (RING_BUFFER_SIZE - total)) % RING_BUFFER_SIZE =
          (l.ringIndex.toNat - total) % RING_BUFFER_SIZE := by
        have hadd : l.ringIndex.toNat + (RING_BUFFER_SIZE - total) = l.ringIndex.toNat - total + RING_BUFFER_SIZE := by
          omega
        rw [Nat.mod_add_mod, hadd, Nat.add_mod_right]
      rw [hfirst, around_eq_window]

theorem length_getRecentEntries_le (max_count : Nat) (l : Logger) : (l.getRecentEntries max_count).length ≤ max_count := by
  rw [getRecentEntries_eq_window max_count l rfl, Ring.length_window]
  exact Nat.min_le_left _ _

/-- A request for at least as many entries as there are gives them all. -/
theorem getRecentEntries_eq_contents {max_count : Nat} {l : Logger} (h : l.contents.length ≤ max_count) :
    l.getRecentEntries max_count = l.contents := by
  rw [length_contents] at h
  rw [contents_eq_window, getRecentEntries_eq_window max_count l (Nat.min_eq_right h).symm]

/-! ## The entries added -/

/-- The logger after the entries, from the start on. -/
def ofEntries (entries : List LogEntry) : Logger := entries.foldl (fun l entry => l.addToRingBuffer entry) {}

theorem ofEntries_concat (entries : List LogEntry) (entry : LogEntry) :
    ofEntries (entries ++ [entry]) = (ofEntries entries).addToRingBuffer entry := List.foldl_concat ..

theorem ringIndex_ofEntries (entries : List LogEntry) :
    (ofEntries entries).ringIndex = BitVec.ofNat 64 entries.length := by
  induction entries using List.reverseRecOn with
  | nil => rfl
  | append_singleton entries entry ih =>
    rw [ofEntries_concat, addToRingBuffer, List.length_append, List.length_singleton, BitVec.ofNat_add, ← ih]
    rfl

theorem toNat_ringIndex_ofEntries {entries : List LogEntry} (h : entries.length < 2 ^ 64) :
    (ofEntries entries).ringIndex.toNat = entries.length := by
  rw [ringIndex_ofEntries, BitVec.toNat_ofNat]
  exact Nat.mod_eq_of_lt h

/-- The ring has the last of the entries. -/
theorem holds_ofEntries {entries : List LogEntry} (h : entries.length < 2 ^ 64) :
    Ring.Holds RING_BUFFER_SIZE (ofEntries entries).ringBuffer entries := by
  induction entries using List.reverseRecOn with
  | nil => exact Ring.holds_nil
  | append_singleton entries entry ih =>
    rw [List.length_append, List.length_singleton] at h
    rw [ofEntries_concat, addToRingBuffer, toNat_ringIndex_ofEntries (by omega)]
    exact (ih (by omega)).put entry

/-- A request gives the last entries that were added, in their order: as many as
were asked for, if so many were added and fit into the ring. -/
theorem recent_are_last (entries : List LogEntry) (h : entries.length < 2 ^ 64) (max_count : Nat) :
    (ofEntries entries).getRecentEntries max_count =
      entries.rtake (min max_count (min entries.length RING_BUFFER_SIZE)) := by
  rw [getRecentEntries_eq_window max_count _ rfl, toNat_ringIndex_ofEntries h, List.rtake]
  exact (holds_ofEntries h).window_eq (by omega) (by omega)

/-- The last one of three entries. -/
theorem recent_are_last_of_three :
    (ofEntries [{ message := [1] }, { message := [2] }, { message := [3] }]).getRecentEntries 1 = [{ message := [3] }] :=
  recent_are_last [{ message := [1] }, { message := [2] }, { message := [3] }] (by decide) 1

end TR.Impl.Service.Logger

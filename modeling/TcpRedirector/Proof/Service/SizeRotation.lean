import TcpRedirector.Impl.Service.SizeRotation
import TcpRedirector.Proof.Framework.Bytes
import TcpRedirector.Proof.Framework.Files
import TcpRedirector.Proof.Framework.Run

/-!
# The segments that are kept

A rotation takes every backup one number up and makes the log the first one, so
the backups are the newest segments, in their order (`Inv`). The loop starts at
the last number, and so every number is free when its turn comes
(`shift_succ`); number 0 is never used.
-/

namespace TR.Impl.Service.SizeRotation

variable {x : Config}

/-! ## Names -/

theorem backupPath_inj {i j : Nat} : x.backupPath i = x.backupPath j ↔ i = j := by
  constructor
  · intro h
    have hname : ascii "tcp_redirector." ++ decimal i ++ ascii ".log" = ascii "tcp_redirector." ++ decimal j ++ ascii ".log" :=
      wide_inj.mp (congrArg Path.name h)
    exact decimal_inj.mp (List.append_cancel_left (List.append_cancel_right hname))
  · rintro rfl
    rfl

theorem logPath_ne_backupPath (i : Nat) : x.logPath ≠ x.backupPath i := by
  intro h
  have hname : ascii "tcp_redirector.log" = ascii "tcp_redirector." ++ decimal i ++ ascii ".log" :=
    wide_inj.mp (congrArg Path.name h)
  have hlength := congrArg List.length hname
  have hpos : 0 < (decimal i).length := List.length_pos_iff.mpr (decimal_ne_nil i)
  rw [List.length_append, List.length_append] at hlength
  have h18 : (ascii "tcp_redirector.log").length = 18 := by decide
  have h15 : (ascii "tcp_redirector.").length = 15 := by decide
  have h4 : (ascii ".log").length = 4 := by decide
  omega

/-! ## The loop -/

theorem move_true (src dst : Path) (fs : Files) : move true src dst fs = fs.rename src dst := by
  rw [move]
  split
  next => rfl
  next h =>
    have hnone : fs src = none := by simpa using h
    rw [Files.rename, hnone]

section

variable {fs : Files} {renamed : Nat → Bool}

theorem shift_of_ne {m : Nat} {p : Path} (h : ∀ i ≤ m, p ≠ x.backupPath i) (hrenamed : ∀ i, renamed i = true) :
    shift x renamed m fs p = fs p := by
  induction m generalizing fs with
  | zero => rfl
  | succ m ih =>
    rw [shift, hrenamed, move_true, ih fun i hi => h i (by omega)]
    exact Files.rename_of_ne (h m (by omega)) (h (m + 1) (by omega))

theorem backupPath_ne {i j : Nat} (h : i ≠ j) : x.backupPath i ≠ x.backupPath j := fun heq => h (backupPath_inj.mp heq)

/-- The loop leaves number 0 free. -/
theorem shift_zero {m : Nat} (hm : 0 < m) (hrenamed : ∀ i, renamed i = true) :
    shift x renamed m fs (x.backupPath 0) = none := by
  induction m generalizing fs with
  | zero => cases hm
  | succ m ih =>
    rw [shift, hrenamed, move_true]
    cases m with
    | zero => exact Files.rename_src (backupPath_ne (by decide))
    | succ m => exact ih (by omega)

/-- The loop takes a backup one number up; one that is not there must not be
the last but one before the last. -/
theorem shift_succ {m j : Nat} (hrenamed : ∀ i, renamed i = true)
    (hlast : m = j + 1 → fs (x.backupPath j) = none → fs (x.backupPath m) = none) (hj : j < m) :
    shift x renamed m fs (x.backupPath (j + 1)) = fs (x.backupPath j) := by
  induction m generalizing fs with
  | zero => cases hj
  | succ m ih =>
    rw [shift, hrenamed, move_true]
    rcases Nat.lt_succ_iff_lt_or_eq.mp hj with hlt | rfl
    · -- What has the number `m` was renamed just before.
      rw [ih (fun _ _ => Files.rename_src (backupPath_ne (by omega))) hlt]
      exact Files.rename_of_ne (backupPath_ne (by omega)) (backupPath_ne (by omega))
    · rw [shift_of_ne (fun i hi => backupPath_ne (by omega)) hrenamed, Files.rename_dst]
      cases h : fs (x.backupPath j) with
      | none => exact hlast rfl h
      | some f => rfl

end

/-! ## The invariant -/

/-- The segment that the backup of a number is to have. -/
def slot (x : Config) (closed : List Bytes) : Nat → Option Bytes
  | 0 => none
  | j + 1 => (closed.take x.last)[j]?

structure Inv (x : Config) (s : State) : Prop where
  backups : ∀ j, (s.files (x.backupPath j)).map (·.content) = slot x s.closed j
  log : s.opened = true → s.files x.logPath ≠ none

/-- The system calls rename what they are asked to. -/
def Input.Renames (i : Input) : Prop := (∀ k, i.renamed k = true) ∧ i.moved = true

theorem slot_zero_cons (hlast : 0 < x.last) (c : Bytes) (closed : List Bytes) : slot x (c :: closed) 1 = some c := by
  rw [slot, List.getElem?_take_of_lt hlast]
  rfl

theorem slot_succ_cons {j : Nat} (hj : j + 2 ≤ x.last) (c : Bytes) (closed : List Bytes) :
    slot x (c :: closed) (j + 2) = slot x closed (j + 1) := by
  rw [slot, slot, List.getElem?_take_of_lt (by omega), List.getElem?_take_of_lt (by omega)]
  rfl

theorem slot_of_last_lt {j : Nat} (hj : x.last < j) (closed : List Bytes) : slot x closed j = none := by
  cases j with
  | zero => rfl
  | succ j =>
    rw [slot, List.getElem?_take, if_neg (by omega)]

/-- There are no gaps. -/
theorem slot_succ_eq_none {j : Nat} {closed : List Bytes} (h : slot x closed (j + 1) = none) : slot x closed (j + 2) = none := by
  rw [slot, List.getElem?_eq_none_iff] at h ⊢
  omega

section

variable {s : State} {i : Input}

theorem openLogFile_backup (opened : Bool) (now : Int) (j : Nat) :
    (openLogFile x opened now s).files (x.backupPath j) = s.files (x.backupPath j) := by
  rw [openLogFile]
  dsimp only
  split
  · exact Files.put_of_ne (logPath_ne_backupPath j).symm
  · rfl

theorem openLogFile_log {opened : Bool} (now : Int) (h : opened = true) :
    (openLogFile x opened now s).files x.logPath ≠ none := by
  rw [openLogFile]
  dsimp only
  split
  · rw [Files.put_self]
    exact Option.some_ne_none _
  next hnot => exact fun hnone => hnot ⟨h, hnone⟩

/-- The files before the log itself is renamed. -/
def shifted (x : Config) (i : Input) (fs : Files) : Files :=
  shift x i.renamed x.last (if i.removed then fs.remove (x.backupPath x.last) else fs)

theorem removed_of_ne {fs : Files} {removed : Bool} {p q : Path} (h : q ≠ p) :
    (if removed = true then fs.remove p else fs) q = fs q := by
  split
  · exact Files.remove_of_ne h
  · rfl

theorem shifted_log (hi : i.Renames) (fs : Files) : shifted x i fs x.logPath = fs x.logPath := by
  rw [shifted, shift_of_ne (fun j _ => logPath_ne_backupPath j) hi.1, removed_of_ne (logPath_ne_backupPath _)]

theorem shifted_of_last_lt (hi : i.Renames) (fs : Files) {j : Nat} (hj : x.last < j) :
    shifted x i fs (x.backupPath j) = fs (x.backupPath j) := by
  rw [shifted, shift_of_ne (fun k hk => backupPath_ne (by omega)) hi.1, removed_of_ne (backupPath_ne (by omega))]

theorem shifted_succ (hi : i.Renames) {fs : Files} {j : Nat}
    (hgap : fs (x.backupPath j) = none → fs (x.backupPath (j + 1)) = none) (hj : j < x.last) :
    shifted x i fs (x.backupPath (j + 1)) = fs (x.backupPath j) := by
  have hbefore : (if i.removed = true then fs.remove (x.backupPath x.last) else fs) (x.backupPath j) = fs (x.backupPath j) :=
    removed_of_ne (backupPath_ne (by omega))
  rw [shifted, shift_succ hi.1 ?_ hj, hbefore]
  intro hlast hnone
  rw [hbefore] at hnone
  split
  · exact Function.update_self ..
  · exact hlast ▸ hgap hnone

/-- After a rotation the first backup is the log, and the others have the next number. -/
theorem rotateLogFile_backup (h : Inv x s) (hlast : 0 < x.last) (hi : i.Renames) {f : File} (hf : s.files x.logPath = some f)
    (j : Nat) : ((rotateLogFile x i s).files (x.backupPath j)).map (·.content) = slot x (f.content :: s.closed) j := by
  have hmoved : (rotateLogFile x i s).files (x.backupPath j) =
      (shifted x i s.files).rename x.logPath (x.backupPath 1) (x.backupPath j) := by
    rw [rotateLogFile, openLogFile_backup, hi.2, move_true]
    rfl
  rw [hmoved]
  match j with
  | 0 =>
    rw [Files.rename_of_ne (logPath_ne_backupPath 0).symm (backupPath_ne (by decide)), shifted, shift_zero hlast hi.1]
    rfl
  | 1 =>
    rw [Files.rename_dst, shifted_log hi, hf, slot_zero_cons hlast]
    rfl
  | j + 2 =>
    rw [Files.rename_of_ne (logPath_ne_backupPath _).symm (backupPath_ne (by omega))]
    by_cases hj : j + 2 ≤ x.last
    · have hgap : s.files (x.backupPath (j + 1)) = none → s.files (x.backupPath (j + 2)) = none := by
        intro hnone
        rw [← Option.map_eq_none_iff (f := File.content), h.backups] at hnone ⊢
        exact slot_succ_eq_none hnone
      rw [shifted_succ hi hgap (by omega), slot_succ_cons hj, h.backups]
    · rw [shifted_of_last_lt hi s.files (by omega), h.backups, slot_of_last_lt (by omega), slot_of_last_lt (by omega)]

/-- After a rotation the log is empty, if it could be opened. -/
theorem rotateLogFile_log (hi : i.Renames) :
    ((rotateLogFile x i s).files x.logPath).map (·.content) = if (rotateLogFile x i s).opened then some [] else none := by
  have hnone : (shifted x i s.files).rename x.logPath (x.backupPath 1) x.logPath = none :=
    Files.rename_src (logPath_ne_backupPath 1)
  rw [shifted] at hnone
  rw [rotateLogFile, openLogFile, hi.2, move_true]
  dsimp only
  cases i.reopened with
  | true =>
    rw [if_pos ⟨rfl, hnone⟩, Files.put_self]
    rfl
  | false =>
    rw [if_neg (fun h => Bool.false_ne_true h.1), hnone]
    rfl

theorem closed_rotateLogFile {f : File} (hf : s.files x.logPath = some f) :
    (rotateLogFile x i s).closed = f.content :: s.closed := by
  rw [rotateLogFile, openLogFile, hf]

theorem Inv.rotateLogFile (h : Inv x s) (hlast : 0 < x.last) (hi : i.Renames) {f : File} (hf : s.files x.logPath = some f) :
    Inv x (rotateLogFile x i s) where
  backups j := by rw [closed_rotateLogFile hf, rotateLogFile_backup h hlast hi hf]
  log hopened := openLogFile_log _ hopened

/-- The writer changes the log alone. -/
theorem Inv.write (h : Inv x s) (f : File) : Inv x { s with files := s.files.put x.logPath f } where
  backups j := by
    rw [← h.backups j]
    exact congrArg _ (Files.put_of_ne (logPath_ne_backupPath j).symm)
  log _ := by
    show s.files.put x.logPath f x.logPath ≠ none
    rw [Files.put_self]
    exact Option.some_ne_none _

theorem inv_initializeLogger {fs : Files} (hfs : ∀ j, fs (x.backupPath j) = none) (opened : Bool) (now : Int) :
    Inv x (initializeLogger x opened now fs) where
  backups j := by
    rw [initializeLogger, openLogFile_backup]
    show (fs (x.backupPath j)).map _ = slot x [] j
    rw [hfs]
    cases j with
    | zero => rfl
    | succ j =>
      rw [slot, List.take_nil]
      rfl
  log hopened := openLogFile_log now hopened

/-- A step writes an entry, or it writes one and rotates. -/
theorem step_cases (i : Input) (s : State) :
    step x i s = (s, false) ∨ ∃ f, s.files x.logPath = some f ∧
      (step x i s = ({ s with files := s.files.put x.logPath ⟨f.content ++ i.text, i.now⟩ }, false) ∨
       step x i s = (rotateLogFile x i { s with files := s.files.put x.logPath ⟨f.content ++ i.text, i.now⟩ }, true)) := by
  rw [step]
  split
  next =>
    cases hf : s.files x.logPath with
    | none => exact .inl rfl
    | some f =>
      refine .inr ⟨f, rfl, ?_⟩
      dsimp only
      split
      · exact .inr rfl
      · exact .inl rfl
  next => exact .inl rfl

theorem Inv.step (h : Inv x s) (hlast : 0 < x.last) (hi : i.Renames) : Inv x (step x i s).1 := by
  rcases step_cases (x := x) i s with heq | ⟨f, -, heq | heq⟩
  · rw [heq]
    exact h
  · rw [heq]
    exact h.write _
  · rw [heq]
    exact (h.write _).rotateLogFile hlast hi Files.put_self

/-- What a run has to keep, together with its steps so far. -/
structure History (x : Config) (s : State) (tr : List (StepOf State Input Bool)) : Prop where
  inv : Inv x s
  count : s.closed.length = tr.countP (·.out)
  empty : ∀ st ∈ tr, st.out = true →
    (st.post.files x.logPath).map (·.content) = if st.post.opened then some [] else none

theorem History.step {tr : List (StepOf State Input Bool)} (h : History x s tr) (hlast : 0 < x.last) (hi : i.Renames) :
    History x (step x i s).1 (tr ++ [stepOf (step x) i s]) where
  inv := h.inv.step hlast hi
  count := by
    rw [List.countP_append, List.countP_singleton, ← h.count, stepOf]
    rcases step_cases (x := x) i s with heq | ⟨f, hf, heq | heq⟩
    · rw [heq]
      rfl
    · rw [heq]
      rfl
    · rw [heq, closed_rotateLogFile Files.put_self]
      rfl
  empty st hst hout := by
    rcases List.mem_append.mp hst with hst | hst
    · exact h.empty st hst hout
    · obtain rfl := List.mem_singleton.mp hst
      rw [stepOf] at hout ⊢
      rcases step_cases (x := x) i s with heq | ⟨f, hf, heq | heq⟩
      · rw [heq] at hout
        cases hout
      · rw [heq] at hout
        cases hout
      · rw [heq]
        exact rotateLogFile_log hi

end

/-! ## The backups after a run -/

/-- After every run, with however many rotations in it, the backup of number
`j` is the segment that was closed `j` rotations ago, up to the last number, and
there are no other backups. After a rotation the log is empty, if it could be
opened. -/
theorem backups_are_newest (x : Config) (hmax : 2 ≤ x.max_files) (fs : Files) (hfs : ∀ j, fs (x.backupPath j) = none)
    (opened : Bool) (now : Int) (is : List Input) (his : ∀ i ∈ is, i.Renames) :
    let s₀ := initializeLogger x opened now fs
    let s := run (step x) is s₀
    let kept := min s.closed.length (x.max_files.toNat - 1)
    s.closed.length = (trace (step x) is s₀).countP (·.out) ∧
    (∀ j, 1 ≤ j → j ≤ kept → (s.files (x.backupPath j)).map (·.content) = s.closed[j - 1]?) ∧
    (∀ j, j = 0 ∨ kept < j → s.files (x.backupPath j) = none) ∧
    ∀ st ∈ trace (step x) is s₀, st.out = true →
      (st.post.files x.logPath).map (·.content) = if st.post.opened then some [] else none := by
  have hlast : x.last = x.max_files.toNat - 1 := by
    rw [Config.last]
    bv_omega
  have hpos : 0 < x.last := by
    rw [hlast]
    bv_omega
  have hhistory : History x (run (step x) is (initializeLogger x opened now fs))
      (trace (step x) is (initializeLogger x opened now fs)) := by
    refine history_induct_of (C := fun st => st.input.Renames) (fun i s tr h hC => h.step hpos hC) is
      ⟨inv_initializeLogger hfs opened now, rfl, fun st hst => absurd hst List.not_mem_nil⟩ fun st hst => ?_
    obtain ⟨is₁, i, is₂, rfl, rfl⟩ := mem_trace_iff.mp hst
    exact his i (List.mem_append_right _ List.mem_cons_self)
  refine ⟨hhistory.count, fun j hj hkept => ?_, fun j hj => ?_, hhistory.empty⟩
  · obtain ⟨j, rfl⟩ := Nat.exists_eq_add_of_le' hj
    rw [hhistory.inv.backups, slot, List.getElem?_take_of_lt (by omega), Nat.add_sub_cancel]
  · rw [← Option.map_eq_none_iff (f := File.content), hhistory.inv.backups]
    rcases hj with rfl | hj
    · rfl
    · cases j with
      | zero => rfl
      | succ j =>
        rw [slot, List.getElem?_eq_none_iff, List.length_take]
        omega

/-- Every entry is rotated away. -/
def tiny : Config := { log_dir := [], max_file_size_mb := 0, max_files := 2 }

def threeEntries : List Input := [⟨ascii "a", 1, true, fun _ => true, true, true⟩,
  ⟨ascii "b", 2, false, fun _ => true, true, true⟩, ⟨ascii "c", 3, true, fun _ => true, true, true⟩]

theorem backups_are_newest_tiny :
    let s := run (step tiny) threeEntries (initializeLogger tiny true 0 fun _ => none)
    s.closed = [ascii "c", ascii "b", ascii "a"] ∧
      (s.files (tiny.backupPath 1)).map (·.content) = some (ascii "c") ∧ s.files (tiny.backupPath 2) = none := by
  have hclosed : (run (step tiny) threeEntries (initializeLogger tiny true 0 fun _ => none)).closed =
      [ascii "c", ascii "b", ascii "a"] := by decide +kernel
  have his : ∀ i ∈ threeEntries, i.Renames := by
    intro i hi
    simp only [threeEntries, List.mem_cons, List.not_mem_nil, or_false] at hi
    rcases hi with rfl | rfl | rfl <;> exact ⟨fun _ => rfl, rfl⟩
  obtain ⟨-, hkept, hnone, -⟩ := backups_are_newest tiny (by decide) (fun _ => none) (fun _ => rfl) true 0 threeEntries his
  rw [hclosed] at hkept hnone
  exact ⟨hclosed, hkept 1 (by decide) (by decide), hnone 2 (.inr (by decide))⟩

end TR.Impl.Service.SizeRotation

import Mathlib.Algebra.Order.Group.Unbundled.Int
import Mathlib.Data.Multiset.AddSub
import Mathlib.Data.Multiset.Filter
import TcpRedirector.Impl.RuleEngine
import TcpRedirector.Proof.Framework.Bytes
import TcpRedirector.Proof.Framework.Run
import TcpRedirector.Proof.Framework.Sorted

/-!
# The rules and their order

The stored rules are a bag of rules, sorted by priority. What each call does to
the bag is `Specified`; `Match` decides by an enabled rule of least priority
that applies (`Decides`), and so by the bag alone if the enabled rules have
distinct priorities (`rules_maintained`). What a pattern matches is said by its
form (`wildcardMatch_iff`).
-/

namespace TR.Impl.RuleEngine

/-- The key the rules are sorted by. -/
def priorityOf (r : Rule) : Int := r.priority.toInt

/-- What a call does to the bag of rules, and what it returns. -/
def Specified (op : RuleOp) (before : Multiset Rule) (result : Bool) (after : Multiset Rule) : Prop :=
  match op with
  | .add rule _ => result = true ∧ after = rule ::ₘ before
  | .remove id => (result = true ↔ ∃ r ∈ before, r.id = id) ∧ after = before.filter (¬ ·.id = id)
  | .update rule _ =>
    (result = true ∧ ∃ r ∈ before, r.id = rule.id ∧ after = rule ::ₘ before.erase r) ∨
    (result = false ∧ (∀ r ∈ before, r.id ≠ rule.id) ∧ after = before)
  | .set rules _ => after = rules

/-- A rule that is enabled and applies to the process. -/
def Matches (processName processPath : WString) (r : Rule) : Prop :=
  r.enabled = true ∧ applies r processName processPath = true

/-- The action of a matching rule of least priority, `Direct` without one. -/
def Decides (rules : List Rule) (processName processPath : WString) (action : RuleAction) : Prop :=
  (∃ r ∈ rules, Matches processName processPath r ∧
    (∀ r' ∈ rules, Matches processName processPath r' → priorityOf r ≤ priorityOf r') ∧ action = r.action) ∨
  (∀ r ∈ rules, ¬Matches processName processPath r) ∧ action = .direct

/-- The enabled rules have distinct priorities. -/
def DistinctPriorities (rules : List Rule) : Prop := DistinctOn priorityOf (·.enabled) rules

section

variable {rules rules' : List Rule} {rule : Rule} {id : Bytes}

/-! ## The calls -/

theorem assignRule_some (h : assignRule rule rules = some rules') :
    ∃ r ∈ rules, r.id = rule.id ∧ rules'.Perm (rule :: rules.erase r) := by
  induction rules generalizing rules' with
  | nil => cases h
  | cons r rules ih =>
    rw [assignRule] at h
    split at h
    next hid =>
      cases h
      exact ⟨r, List.mem_cons_self, hid, by rw [List.erase_cons_head]⟩
    next hid =>
      obtain ⟨rest, hrest, rfl⟩ := Option.map_eq_some_iff.mp h
      obtain ⟨r', hr', hid', hperm⟩ := ih hrest
      refine ⟨r', List.mem_cons_of_mem _ hr', hid', ?_⟩
      have hne : r ≠ r' := by
        rintro rfl
        exact hid hid'
      rw [List.erase_cons_tail (by simpa using hne)]
      exact (hperm.cons r).trans (.swap rule r _)

theorem assignRule_none : assignRule rule rules = none ↔ ∀ r ∈ rules, r.id ≠ rule.id := by
  induction rules with
  | nil => simp [assignRule]
  | cons r rules ih =>
    rw [assignRule, List.forall_mem_cons]
    split
    next hid => simp [hid]
    next hid => simp [hid, ih]

theorem removeRule_eq (id : Bytes) (rules : List Rule) :
    removeRule id rules = (rules.filter fun r => !(r.id == id), rules.any (·.id == id)) := by
  have hlength := List.length_filter_le (fun r => !(r.id == id)) rules
  simp only [removeRule]
  by_cases hany : rules.any (·.id == id) = true
  · obtain ⟨r, hr, hid⟩ := List.any_eq_true.mp hany
    have hlt : (rules.filter fun r => !(r.id == id)).length < rules.length :=
      List.length_filter_lt_length_iff_exists.mpr ⟨r, hr, by simpa using hid⟩
    rw [if_pos (by omega), hany]
  · have hall : rules.filter (fun r => !(r.id == id)) = rules :=
      List.filter_eq_self.mpr fun r hr => by
        have hid : ¬(r.id == id) = true := fun hid => hany (List.any_eq_true.mpr ⟨r, hr, hid⟩)
        simp [hid]
    have hfalse : rules.any (·.id == id) = false := by simpa using hany
    rw [hall, if_neg (by simp), hfalse]

/-- One call keeps the order and does to the bag what it should. -/
theorem engineStep_specified (op : RuleOp) (h : SortedBy priorityOf rules) :
    SortedBy priorityOf (engineStep op rules).1 ∧ Specified op rules (engineStep op rules).2 (engineStep op rules).1 := by
  cases op with
  | add rule sortRules =>
    refine ⟨sortRules.sorted _, rfl, ?_⟩
    have hperm : (sortRules.sort (rules ++ [rule])).Perm (rule :: rules) :=
      (sortRules.perm _).trans List.perm_append_comm
    exact Quot.sound hperm
  | remove id =>
    rw [engineStep, removeRule_eq]
    refine ⟨h.of_sublist List.filter_sublist, by simp, ?_⟩
    show ((rules.filter fun r => !(r.id == id) : List Rule) : Multiset Rule) = Multiset.filter _ (rules : Multiset Rule)
    rw [Multiset.filter_coe]
    have hfilter : rules.filter (fun r => !(r.id == id)) = rules.filter (fun r => decide ¬r.id = id) :=
      List.filter_congr fun r _ => by
        rw [Bool.eq_iff_iff]
        simp
    rw [hfilter]
  | update rule sortRules =>
    rw [engineStep, updateRule]
    cases hassign : assignRule rule rules with
    | none => exact ⟨h, .inr ⟨rfl, by simpa using assignRule_none.mp hassign, rfl⟩⟩
    | some rules' =>
      obtain ⟨r, hr, hid, hperm⟩ := assignRule_some hassign
      refine ⟨sortRules.sorted _, .inl ⟨rfl, r, hr, hid, ?_⟩⟩
      rw [Multiset.coe_erase]
      exact Quot.sound ((sortRules.perm _).trans hperm)
  | set newRules sortRules => exact ⟨sortRules.sorted _, Quot.sound (sortRules.perm _)⟩

/-- A call that returns false has changed nothing. -/
theorem engineStep_false {op : RuleOp} (h : (engineStep op rules).2 = false) : (engineStep op rules).1 = rules := by
  cases op with
  | add rule sortRules => cases h
  | remove id =>
    simp only [engineStep, removeRule] at h ⊢
    split
    next hne =>
      rw [if_pos hne] at h
      cases h
    next => rfl
  | update rule sortRules =>
    simp only [engineStep, updateRule] at h ⊢
    split
    next hassign =>
      rw [hassign] at h
      cases h
    next => rfl
  | set newRules sortRules => cases h

/-! ## Deciding -/

theorem matchRule_decides (h : SortedBy priorityOf rules) (processName processPath : WString) :
    Decides rules processName processPath (matchRule rules processName processPath) := by
  rw [matchRule]
  split
  next r hr =>
    refine .inl ⟨r, List.mem_of_find?_eq_some hr, by simpa [Matches] using List.find?_some hr, fun r' hr' hm => ?_, rfl⟩
    exact h.find_least hr r' hr' (by simpa [Matches] using hm)
  next hnone =>
    refine .inr ⟨fun r hr hm => ?_, rfl⟩
    exact List.find?_eq_none.mp hnone r hr (by simpa [Matches] using hm)

theorem matchRule_perm (h : SortedBy priorityOf rules) (h' : SortedBy priorityOf rules') (hp : rules.Perm rules')
    (hd : DistinctPriorities rules) (processName processPath : WString) :
    matchRule rules processName processPath = matchRule rules' processName processPath := by
  rw [matchRule, matchRule, h.find_perm h' hp (hd.mono fun r hr => (Bool.and_eq_true_iff.mp hr).1)]

/-! ## All calls -/

theorem sorted_step (op : RuleOp) (rules : List Rule) (h : SortedBy priorityOf rules) :
    SortedBy priorityOf (engineStep op rules).1 := (engineStep_specified op h).1

theorem sorted_run (ops : List RuleOp) : SortedBy priorityOf (run engineStep ops []) :=
  run_induct sorted_step ops List.Pairwise.nil

/-- The rules that were added are the rules that are there. -/
theorem run_add (added : List (Rule × SortRules)) (rules : List Rule) :
    (run engineStep (added.map fun a => .add a.1 a.2) rules).Perm (rules ++ added.map (·.1)) := by
  induction added generalizing rules with
  | nil => simp [run]
  | cons a added ih =>
    rw [List.map_cons, run]
    refine (ih _).trans ?_
    rw [List.map_cons, ← List.singleton_append, ← List.append_assoc]
    exact (a.2.perm _).append_right _

/-- After every sequence of calls: the rules are sorted, each call did to the
bag of rules what it should, and a call that returned false left the list as
it was; `Match` decides by a rule of least priority, and if the enabled rules
have distinct priorities, another history with the same bag, or the same rules
added in another order, decides alike. -/
theorem rules_maintained (ops : List RuleOp) :
    SortedBy priorityOf (run engineStep ops []) ∧
    (∀ st ∈ trace engineStep ops [], Specified st.input st.pre st.out st.post ∧ (st.out = false → st.post = st.pre)) ∧
    (∀ name path, Decides (run engineStep ops []) name path (matchRule (run engineStep ops []) name path)) ∧
    (∀ ops', (run engineStep ops []).Perm (run engineStep ops' []) → DistinctPriorities (run engineStep ops []) →
      ∀ name path, matchRule (run engineStep ops []) name path = matchRule (run engineStep ops' []) name path) ∧
    ∀ added added' : List (Rule × SortRules), (added.map (·.1)).Perm (added'.map (·.1)) →
      DistinctPriorities (added.map (·.1)) → ∀ name path,
        matchRule (run engineStep (added.map fun a => .add a.1 a.2) []) name path =
          matchRule (run engineStep (added'.map fun a => .add a.1 a.2) []) name path := by
  refine ⟨sorted_run ops, fun st hst => ?_, matchRule_decides (sorted_run ops), fun ops' hp hd => ?_,
    fun added added' hp hd => ?_⟩
  · obtain ⟨hpre, hst'⟩ := trace_induct sorted_step List.Pairwise.nil hst
    rw [hst']
    exact ⟨(engineStep_specified st.input hpre).2, engineStep_false⟩
  · exact matchRule_perm (sorted_run ops) (sorted_run ops') hp hd
  · have hadded := run_add added []
    have hadded' := run_add added' []
    rw [List.nil_append] at hadded hadded'
    exact matchRule_perm (sorted_run _) (sorted_run _) (hadded.trans (hp.trans hadded'.symm)) (hd.perm hadded.symm)

end

/-! ## Patterns -/

/-- The part of a pattern that is compared literally. -/
def literalPart (pattern : WString) : WString :=
  if 2 ≤ pattern.length ∧ pattern.head? = some star ∧ pattern.getLast? = some star then pattern.tail.dropLast
  else if pattern.getLast? = some star then pattern.dropLast
  else if pattern.head? = some star then pattern.tail
  else pattern

/-- What a pattern of each form matches. -/
def Intended (pattern text : WString) : Prop :=
  pattern = [star] ∨
  (2 ≤ pattern.length ∧ pattern.head? = some star ∧ pattern.getLast? = some star ∧ pattern.tail.dropLast <:+: text) ∨
  (pattern.getLast? = some star ∧ pattern.head? ≠ some star ∧ pattern.dropLast <+: text) ∨
  (pattern.head? = some star ∧ pattern.getLast? ≠ some star ∧ pattern.tail <:+ text) ∨
  (pattern.head? ≠ some star ∧ pattern.getLast? ≠ some star ∧ pattern <:+: text)

section

variable {pattern text : WString}

/-- A pattern with a star does not occur in a text without one. -/
theorem not_infix_of_star (hstar : star ∈ pattern) (h : star ∉ text) : ¬pattern <:+: text :=
  fun hwithin => h (hwithin.subset hstar)

/-- A star at both ends is one star. -/
theorem eq_star_of_ends (hhead : pattern.head? = some star) (hlength : ¬2 ≤ pattern.length) : pattern = [star] := by
  match pattern, hhead, hlength with
  | [c], hhead, _ => rw [Option.some.inj hhead]
  | _ :: _ :: _, _, hlength => simp at hlength

theorem suffix_iff_drop : (text.drop (text.length - pattern.length) == pattern) = true ↔ pattern <:+ text := by
  rw [beq_iff_eq, List.suffix_iff_eq_drop, eq_comm]

theorem wildcardMatch_of_find_none (hne : pattern ≠ [star]) (h : ¬pattern <:+: text) : wildcardMatch pattern text =
    if 2 ≤ pattern.length ∧ pattern.head? = some star ∧ pattern.getLast? = some star then
      (find pattern.tail.dropLast text).isSome
    else if pattern.getLast? = some star then find pattern.dropLast text == some 0
    else if pattern.head? = some star ∧ pattern.tail.length ≤ text.length then
      text.drop (text.length - pattern.tail.length) == pattern.tail
    else pattern == text := by
  rw [wildcardMatch, if_neg hne, if_neg (mt find_isSome.mp h)]

theorem wildcardMatch_of_star (h : star ∉ text) (hne : pattern ≠ [star]) (hstar : star ∈ pattern) :
    wildcardMatch pattern text = true ↔
      (pattern.head? = some star ∧ pattern.getLast? = some star ∧ pattern.tail.dropLast <:+: text) ∨
      (pattern.getLast? = some star ∧ pattern.head? ≠ some star ∧ pattern.dropLast <+: text) ∨
      (pattern.head? = some star ∧ pattern.getLast? ≠ some star ∧ pattern.tail <:+ text) := by
  have hwithin := not_infix_of_star hstar h
  rw [wildcardMatch_of_find_none hne hwithin]
  by_cases hlast : pattern.getLast? = some star
  · by_cases hhead : pattern.head? = some star
    · have hlength : 2 ≤ pattern.length := by
        by_contra hlength
        exact hne (eq_star_of_ends hhead hlength)
      rw [if_pos ⟨hlength, hhead, hlast⟩, find_isSome]
      simp [hhead, hlast]
    · rw [if_neg (by simp [hhead]), if_pos hlast, beq_iff_eq, find_eq_zero]
      simp [hhead, hlast]
  · rw [if_neg (by simp [hlast]), if_neg hlast]
    by_cases hhead : pattern.head? = some star
    · by_cases hle : pattern.tail.length ≤ text.length
      · rw [if_pos ⟨hhead, hle⟩, suffix_iff_drop]
        simp [hhead, hlast]
      · rw [if_neg fun hc => hle hc.2]
        have hsuffix : ¬pattern.tail <:+ text := fun hs => hle hs.length_le
        have heq : ¬pattern = text := by
          rintro rfl
          exact h hstar
        simp [hhead, hlast, hsuffix, heq]
    · -- A star in the middle alone: nothing but the pattern itself would be equal to it.
      rw [if_neg (by simp [hhead]), beq_iff_eq]
      have heq : ¬pattern = text := by
        rintro rfl
        exact h hstar
      simp [hhead, hlast, heq]

theorem wildcardMatch_of_notMem (hstar : star ∉ pattern) : wildcardMatch pattern text = true ↔ pattern <:+: text := by
  have hne : pattern ≠ [star] := by
    rintro rfl
    exact hstar List.mem_cons_self
  constructor
  · intro hmatch
    by_contra hwithin
    have hlast : pattern.getLast? ≠ some star := fun hl => hstar (List.mem_of_getLast? hl)
    have hhead : pattern.head? ≠ some star := fun hh => hstar (List.mem_of_head? hh)
    rw [wildcardMatch_of_find_none hne hwithin, if_neg (by simp [hlast]), if_neg hlast, if_neg (by simp [hhead]),
      beq_iff_eq] at hmatch
    exact hwithin (hmatch ▸ List.infix_refl _)
  · intro hwithin
    rw [wildcardMatch, if_neg hne, if_pos (find_isSome.mpr hwithin)]

theorem Intended.literalPart_infix (h : Intended pattern text) : literalPart pattern <:+: text := by
  rcases h with rfl | ⟨hlength, hhead, hlast, hpart⟩ | ⟨hlast, hhead, hpart⟩ | ⟨hhead, hlast, hpart⟩ | ⟨hhead, hlast, hpart⟩
  · exact List.nil_infix
  · rwa [literalPart, if_pos ⟨hlength, hhead, hlast⟩]
  · rw [literalPart, if_neg (by simp [hhead]), if_pos hlast]
    exact hpart.isInfix
  · rw [literalPart, if_neg (by simp [hlast]), if_neg hlast, if_pos hhead]
    exact hpart.isInfix
  · rwa [literalPart, if_neg (by simp [hlast]), if_neg hlast, if_neg hhead]

/-- In a text without a star: each form of a pattern matches what it should,
whichever branch of the code decides, and the rest of the pattern is compared
literally. -/
theorem wildcardMatch_iff (pattern text : WString) (h : star ∉ text) :
    (wildcardMatch pattern text = true ↔ Intended pattern text) ∧
      (star ∈ literalPart pattern → wildcardMatch pattern text = false) := by
  have hiff : wildcardMatch pattern text = true ↔ Intended pattern text := by
    by_cases hne : pattern = [star]
    · subst hne
      exact iff_of_true (if_pos rfl) (.inl rfl)
    · by_cases hstar : star ∈ pattern
      · have hwithin := not_infix_of_star hstar h
        have hlength (hhead : pattern.head? = some star) : 2 ≤ pattern.length := by
          by_contra hlength
          exact hne (eq_star_of_ends hhead hlength)
        rw [wildcardMatch_of_star h hne hstar, Intended]
        simp only [hne, hwithin, false_or, and_false, or_false]
        constructor
        · rintro (⟨hhead, hrest⟩ | hrest)
          · exact .inl ⟨hlength hhead, hhead, hrest⟩
          · exact .inr hrest
        · rintro (⟨-, hrest⟩ | hrest)
          · exact .inl hrest
          · exact .inr hrest
      · have hlast : pattern.getLast? ≠ some star := fun hl => hstar (List.mem_of_getLast? hl)
        have hhead : pattern.head? ≠ some star := fun hh => hstar (List.mem_of_head? hh)
        rw [wildcardMatch_of_notMem hstar, Intended]
        simp [hne, hlast, hhead]
  refine ⟨hiff, fun hstar => ?_⟩
  rw [← Bool.not_eq_true, hiff]
  exact fun hintended => h (hintended.literalPart_infix.subset hstar)

/-- The pattern `*.exe`, and a text of five characters. -/
theorem wildcardMatch_exe :
    (wildcardMatch ((ascii "*.exe").map (·.setWidth 16)) ((ascii "a.exe").map (·.setWidth 16)) = true ↔
      Intended ((ascii "*.exe").map (·.setWidth 16)) ((ascii "a.exe").map (·.setWidth 16))) ∧
    wildcardMatch ((ascii "*.exe").map (·.setWidth 16)) ((ascii "a.exe").map (·.setWidth 16)) = true :=
  ⟨(wildcardMatch_iff _ _ (by decide)).1, by decide⟩

end

end TR.Impl.RuleEngine

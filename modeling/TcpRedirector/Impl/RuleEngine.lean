import TcpRedirector.TCB.Bytes

/-!
# The rule engine

`RuleEngine.h`: the first enabled rule, in the stored order, that matches a
process decides what happens to its connections. Its enumerations are read
from integers with a `static_cast`, and so they can have a value without a
name.
-/

namespace TR.Impl

/-- A value of an enumeration that has names for 0, 1 and 2. -/
abbrev Unnamed : Type := { v : BitVec 32 // 3 ≤ v.toNat }

inductive RuleType where
  | processName | processPath | global
  | unnamed (value : Unnamed)
  deriving Repr, DecidableEq

inductive RuleAction where
  | proxy | direct | block
  | unnamed (value : Unnamed)
  deriving Repr, DecidableEq

structure Rule where
  id : Bytes
  type : RuleType := .processName
  action : RuleAction := .proxy
  pattern : WString
  description : WString := []
  priority : BitVec 32 := 0
  enabled : Bool := true
  deriving Repr, DecidableEq

namespace RuleEngine

/-- `L'*'`. -/
def star : BitVec 16 := 42

def wildcardMatch (pattern text : WString) : Bool :=
  if pattern = [star] then true
  else if (find pattern text).isSome then true
  else if 2 ≤ pattern.length ∧ pattern.head? = some star ∧ pattern.getLast? = some star then
    (find (pattern.tail.dropLast) text).isSome
  else if pattern.getLast? = some star then find pattern.dropLast text == some 0
  else if pattern.head? = some star ∧ pattern.tail.length ≤ text.length then
    text.drop (text.length - pattern.tail.length) == pattern.tail
  else pattern == text

/-- Whether a rule applies to a process, its `enabled` flag aside. The `switch`
has no case for a type without a name. -/
def applies (rule : Rule) (processName processPath : WString) : Bool :=
  match rule.type with
  | .global => true
  | .processName => wildcardMatch rule.pattern processName
  | .processPath => wildcardMatch rule.pattern processPath
  | .unnamed _ => false

/-- `Match`. -/
def matchRule (rules : List Rule) (processName processPath : WString) : RuleAction :=
  match rules.find? fun r => r.enabled && applies r processName processPath with
  | some r => r.action
  | none => .direct

/-! ## Changing the rules -/

/-- `SortRules`: `std::sort` by priority, which may order equal ones in any way. -/
structure SortRules where
  sort : List Rule → List Rule
  perm : ∀ rules, (sort rules).Perm rules
  sorted : ∀ rules, (sort rules).Pairwise fun a b => a.priority.toInt ≤ b.priority.toInt

def addRule (sortRules : SortRules) (rule : Rule) (rules : List Rule) : List Rule × Bool :=
  (sortRules.sort (rules ++ [rule]), true)

def removeRule (id : Bytes) (rules : List Rule) : List Rule × Bool :=
  let kept := rules.filter fun r => !(r.id == id)
  if kept.length ≠ rules.length then (kept, true) else (rules, false)

/-- The loop of `UpdateRule`, up to its sort; none if there is no such rule. -/
def assignRule (rule : Rule) : List Rule → Option (List Rule)
  | [] => none
  | r :: rules => if r.id = rule.id then some (rule :: rules) else (assignRule rule rules).map (r :: ·)

def updateRule (sortRules : SortRules) (rule : Rule) (rules : List Rule) : List Rule × Bool :=
  match assignRule rule rules with
  | some rules => (sortRules.sort rules, true)
  | none => (rules, false)

def setRules (sortRules : SortRules) (newRules : List Rule) : List Rule := sortRules.sort newRules

/-- The calls that change the rules, each with the sort it makes. -/
inductive RuleOp where
  | add (rule : Rule) (sortRules : SortRules)
  | remove (id : Bytes)
  | update (rule : Rule) (sortRules : SortRules)
  | set (rules : List Rule) (sortRules : SortRules)

/-- A call, and what it returns. -/
def engineStep (op : RuleOp) (rules : List Rule) : List Rule × Bool :=
  match op with
  | .add rule sortRules => addRule sortRules rule rules
  | .remove id => removeRule id rules
  | .update rule sortRules => updateRule sortRules rule rules
  | .set newRules sortRules => (setRules sortRules newRules, true)

end RuleEngine

end TR.Impl

import Mathlib.Logic.Function.Basic

/-!
# Circular doubly linked lists

A memory of nodes, each with two links and a body. A list is known by its
head, a node that is not an element; the links run from the head through the
elements and back to it. The operations read and write one link at a time and
fail where no node is allocated.
-/

namespace TR

structure Node (α β : Type) where
  flink : α
  blink : α
  body : β
  deriving Repr, DecidableEq

/-- None where nothing is allocated. -/
abbrev Nodes (α β : Type) := α → Option (Node α β)

namespace Nodes

variable {α β : Type} [DecidableEq α]

def flink (m : Nodes α β) (a : α) : Option α := (m a).map (·.flink)

def blink (m : Nodes α β) (a : α) : Option α := (m a).map (·.blink)

/-- The node at `a` is written. -/
def modify (m : Nodes α β) (a : α) (f : Node α β → Node α β) : Option (Nodes α β) :=
  (m a).map fun n => Function.update m a (some (f n))

def setFlink (m : Nodes α β) (a x : α) : Option (Nodes α β) := m.modify a fun n => { n with flink := x }

def setBlink (m : Nodes α β) (a x : α) : Option (Nodes α β) := m.modify a fun n => { n with blink := x }

/-- `InitializeListHead`. -/
def initializeListHead (m : Nodes α β) (head : α) : Option (Nodes α β) := do
  let m ← m.setFlink head head
  m.setBlink head head

/-- `IsListEmpty`. -/
def isListEmpty (m : Nodes α β) (head : α) : Option Bool := (m.flink head).map (· = head)

/-- `InsertTailList`. -/
def insertTailList (m : Nodes α β) (head entry : α) : Option (Nodes α β) := do
  let last ← m.blink head
  let m ← m.setFlink entry head
  let m ← m.setBlink entry last
  let m ← m.setFlink last entry
  m.setBlink head entry

/-- `RemoveHeadList`, with the entry that it returns. -/
def removeHeadList (m : Nodes α β) (head : α) : Option (α × Nodes α β) := do
  let entry ← m.flink head
  let next ← m.flink entry
  let m ← m.setFlink head next
  let m ← m.setBlink next head
  some (entry, m)

/-- The elements from `x` on; none if the head is not met within so many. -/
def walk (m : Nodes α β) (head : α) : Nat → α → Option (List α)
  | 0, _ => none
  | n + 1, x =>
    if x = head then some []
    else do
      let next ← m.flink x
      let rest ← walk m head n next
      some (x :: rest)

def elements (m : Nodes α β) (head : α) (fuel : Nat) : Option (List α) := do
  let first ← m.flink head
  m.walk head fuel first

end Nodes

end TR

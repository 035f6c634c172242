import Mathlib.Algebra.Group.Int.Defs
import Mathlib.Algebra.Group.Nat.Defs
import TcpRedirector.Impl.Service.Config
import TcpRedirector.TCB.Unicode

/-!
# What the GUI reads of the configuration

`JsonConfigRepository.cs`. Every exception of a reader becomes its default.
Strings of .NET are wide strings.
-/

namespace TR.Impl.Gui

/-- `System.Text.Json` and .NET, as far as the GUI uses them. -/
structure Runtime where
  /-- The value that `JsonNode.Parse` or `JsonSerializer.Deserialize` finds in
  a text; none if it throws. -/
  parse : Bytes → Option Json
  /-- `JsonSerializer.Serialize`, in UTF-8. -/
  serialize : Json → Bytes
  /-- The string that a text in UTF-8 becomes. -/
  decode : Bytes → WString
  toLowerInvariant : WString → WString

/-- `Rule`. -/
structure Rule where
  id : WString
  type : BitVec 32
  action : BitVec 32
  pattern : WString
  description : WString
  priority : BitVec 32
  enabled : Bool
  created : WString
  modified : WString
  deriving Repr, DecidableEq

/-! ## Values of nodes -/

/-- `GetValue<int>()`. -/
def getInt : Json → Option (BitVec 32)
  | .unsigned n => if n.toNat < 2 ^ 31 then some (n.setWidth 32) else none
  | .integer n => if -2 ^ 31 ≤ n.toInt ∧ n.toInt < 2 ^ 31 then some (n.setWidth 32) else none
  | _ => none

/-- `GetValue<bool>()`. -/
def getBool : Json → Option Bool
  | .boolean b => some b
  | _ => none

/-- `int.TryParse`: white space around an optional sign and digits. -/
def intTryParse (s : WString) : Option (BitVec 32) :=
  let isSpace := fun c : BitVec 16 => decide (c.toNat = 32 ∨ 9 ≤ c.toNat ∧ c.toNat ≤ 13)
  let digits := fun t : WString =>
    if t ≠ [] ∧ t.all (fun c => decide (48 ≤ c.toNat ∧ c.toNat ≤ 57)) = true then
      some (t.foldl (fun n c => 10 * n + (c.toNat - 48 : Nat)) (0 : Nat))
    else none
  let inRange := fun n : Int => if -2 ^ 31 ≤ n ∧ n < 2 ^ 31 then some (BitVec.ofInt 32 n) else none
  match ((s.dropWhile isSpace).reverse.dropWhile isSpace).reverse with
  | 43 :: t => (digits t).bind fun n => inRange n
  | 45 :: t => (digits t).bind fun n => inRange (-(n : Int))
  | t => (digits t).bind fun n => inRange n

section

variable (g : Runtime)

/-- `GetValue<string>()`. -/
def getString : Json → Option WString
  | .string s => some (g.decode s)
  | _ => none

/-! ## The readers -/

/-- `Load`: the file that is there. -/
def load (text : Bytes) : Option Json :=
  match g.parse text with
  | some (.object l) => some (.object l)
  | _ => none

/-- `j[section]?[key]?.GetValue<T>() ?? defaultValue`, where an exception gives the default too. -/
def readValue {α : Type} (get : Json → Option α) (text : Bytes) (sectionKey key : String) (default : α) : α :=
  (((load g text).bind fun j => j.entry sectionKey).bind fun s => (s.entry key).bind get).getD default

def readString (text : Bytes) (sectionKey key : String) (default : WString) : WString :=
  readValue g (getString g) text sectionKey key default

def readBool (text : Bytes) (sectionKey key : String) : Bool := readValue g getBool text sectionKey key false

def readInt (text : Bytes) (sectionKey key : String) (default : BitVec 32) : BitVec 32 :=
  readValue g getInt text sectionKey key default

/-- `obj[key]?.GetValue<T>() ?? default`; none for an exception. -/
def nodeValue {α : Type} (get : Json → Option α) (obj : Json) (key : String) (default : α) : Option α :=
  match obj.entry key with
  | none => some default
  | some .null => some default
  | some v => get v

/-- The wide form of an ASCII literal. -/
def literal (s : String) : WString := (ascii s).map (·.setWidth 16)

/-- `MapTypeFromJson` and `MapActionFromJson`, which know two names. -/
def mapFromJson (one two : String) (node : Option Json) : BitVec 32 :=
  match node with
  | some (.string s) =>
    let s := g.toLowerInvariant (g.decode s)
    if s = literal one then 1 else if s = literal two then 2 else 0
  | some v => (getInt v).getD 0
  | none => 0

def mapTypeFromJson (node : Option Json) : BitVec 32 := mapFromJson g "process_path" "global" node

def mapActionFromJson (node : Option Json) : BitVec 32 := mapFromJson g "direct" "block" node

/-- One element of the rules; a null one is skipped. -/
def ruleOfNode (guid now : WString) (item : Json) : Option (Option Rule) :=
  match item with
  | .null => some none
  | .object l => do
    let obj := Json.object l
    let id ← nodeValue (getString g) obj "id" guid
    let pattern ← nodeValue (getString g) obj "pattern" []
    let description ← nodeValue (getString g) obj "description" []
    let priority ← nodeValue getInt obj "priority" 0
    let enabled ← nodeValue getBool obj "enabled" true
    some (some {
      id := id
      type := mapTypeFromJson g (obj.entry "type")
      action := mapActionFromJson g (obj.entry "action")
      pattern := pattern
      description := description
      priority := priority
      enabled := enabled
      created := now
      modified := now })
  | _ => none

/-- `ReadRules`. -/
def readRules (guid now : WString) (text : Bytes) : List Rule :=
  match (load g text).bind fun j => j.entry "rules" with
  | some (.array items) => ((items.mapM (ruleOfNode g guid now)).map (·.filterMap id)).getD []
  | _ => []

end

end TR.Impl.Gui

import TcpRedirector.TCB.Bytes

/-!
# JSON values

`nlohmann::json` 3.12 as the repository vendors it: its values and the access
functions the repository uses, with their exceptions. Reading and writing the
text form are not modelled; `JsonText` names them.
-/

namespace TR

inductive Json where
  | null
  | boolean (b : Bool)
  /-- `number_unsigned`. -/
  | unsigned (n : BitVec 64)
  /-- `number_integer`. -/
  | integer (n : BitVec 64)
  /-- `number_float`, by its bits. -/
  | float (bits : BitVec 64)
  | string (s : Bytes)
  | array (l : List Json)
  /-- The entries of the map, ordered by their keys. -/
  | object (l : List (Bytes × Json))

/-- What can go wrong in an access. -/
inductive JsonFault where
  /-- An exception with this `what()`. -/
  | exception (what : Bytes)
  /-- A const `operator[]` finds no such key: `JSON_ASSERT` fails, or the
  behaviour is undefined without assertions. -/
  | undefined
  deriving Repr, DecidableEq

namespace Json

/-- `type_name()`. -/
def typeName : Json → Bytes
  | null => ascii "null"
  | boolean _ => ascii "boolean"
  | unsigned _ | integer _ | float _ => ascii "number"
  | string _ => ascii "string"
  | array _ => ascii "array"
  | object _ => ascii "object"

/-- `type_error::create(id, text)`. -/
def typeError (id : Nat) (text : Bytes) : JsonFault :=
  .exception (ascii "[json.exception.type_error." ++ decimal id ++ ascii "] " ++ text)

/-- The entry of a map. -/
def lookup (key : Bytes) (l : List (Bytes × Json)) : Option Json := (l.find? (·.1 = key)).map (·.2)

/-- The entry of an object; other values have none. -/
def entry (j : Json) (key : String) : Option Json :=
  match j with
  | object l => lookup (ascii key) l
  | _ => none

/-- The map with the entry set. -/
def insert (key : Bytes) (v : Json) : List (Bytes × Json) → List (Bytes × Json)
  | [] => [(key, v)]
  | (k, w) :: l => if key = k then (key, v) :: l else if key < k then (key, v) :: (k, w) :: l else (k, w) :: insert key v l

/-- `j[key] = v`, for a `j` that is null or an object. -/
def set (j : Json) (key : String) (v : Json) : Json :=
  match j with
  | object l => object (insert (ascii key) v l)
  | _ => object [(ascii key, v)]

def contains (j : Json) (key : String) : Bool :=
  match j with
  | object l => (lookup (ascii key) l).isSome
  | _ => false

/-- `j[key]` of a const `j`. -/
def constIndex (j : Json) (key : String) : Except JsonFault Json :=
  match j with
  | object l =>
    match lookup (ascii key) l with
    | some v => .ok v
    | none => .error .undefined
  | _ => .error (typeError 305 (ascii "cannot use operator[] with a string argument with " ++ j.typeName))

/-- `j[key]` of a `j` that is not const: a missing entry is made, as null. -/
def index (j : Json) (key : String) : Except JsonFault Json :=
  match j with
  | null => .ok null
  | object l => .ok ((lookup (ascii key) l).getD null)
  | _ => .error (typeError 305 (ascii "cannot use operator[] with a string argument with " ++ j.typeName))

/-- The error of every conversion. -/
def mustBe (type : String) (j : Json) : JsonFault :=
  typeError 302 (ascii "type must be " ++ ascii type ++ ascii ", but is " ++ j.typeName)

def getNull (j : Json) : Except JsonFault Unit :=
  match j with
  | null => .ok ()
  | _ => .error (mustBe "null" j)

def getString (j : Json) : Except JsonFault Bytes :=
  match j with
  | string s => .ok s
  | _ => .error (mustBe "string" j)

def getBool (j : Json) : Except JsonFault Bool :=
  match j with
  | boolean b => .ok b
  | _ => .error (mustBe "boolean" j)

/-- `get<uint64_t>()`; `cast` converts a floating-point number. -/
def getUInt64 (cast : BitVec 64 → BitVec 64) (j : Json) : Except JsonFault (BitVec 64) :=
  match j with
  | unsigned n | integer n => .ok n
  | float bits => .ok (cast bits)
  | _ => .error (mustBe "number" j)

/-- `get<int>()`, which takes a boolean too. -/
def getInt (cast : BitVec 64 → BitVec 32) (j : Json) : Except JsonFault (BitVec 32) :=
  match j with
  | unsigned n | integer n => .ok (n.setWidth 32)
  | float bits => .ok (cast bits)
  | boolean b => .ok (BitVec.ofNat 32 b.toNat)
  | _ => .error (mustBe "number" j)

/-- `get<uint16_t>()`. -/
def getUInt16 (cast : BitVec 64 → BitVec 16) (j : Json) : Except JsonFault (BitVec 16) :=
  match j with
  | unsigned n | integer n => .ok (n.setWidth 16)
  | float bits => .ok (cast bits)
  | boolean b => .ok (BitVec.ofNat 16 b.toNat)
  | _ => .error (mustBe "number" j)

/-- The values of a range-based `for` over `j`. -/
def elements : Json → List Json
  | null => []
  | array l => l
  | object l => l.map (·.2)
  | j => [j]

/-- `j[outer][key] = v`, for a `j` that is null or an object of such. -/
def put (j : Json) (outer key : String) (v : Json) : Json :=
  j.set outer (((j.index outer).toOption.getD null).set key v)

/-- `j.value(key, default)`, with the conversion to the default's type. -/
def value {α : Type} (get : Json → Except JsonFault α) (j : Json) (key : String) (default : α) : Except JsonFault α :=
  match j with
  | object l =>
    match lookup (ascii key) l with
    | some v => get v
    | none => .ok default
  | _ => .error (typeError 306 (ascii "cannot use value() with " ++ j.typeName))

/-- A `double` that is a number. -/
def isFinite (bits : BitVec 64) : Bool := bits.extractLsb' 52 11 != 0x7FF

mutual

/-- What is read from the text of a value: an integer is read as an unsigned
number unless it is negative, and a float that is no number is written as
null. -/
def reread : Json → Json
  | null => null
  | boolean b => boolean b
  | unsigned n => unsigned n
  | integer n => if n.msb then integer n else unsigned n
  | float bits => if isFinite bits then float bits else null
  | string s => string s
  | array l => array (rereadElements l)
  | object l => object (rereadEntries l)

def rereadElements : List Json → List Json
  | [] => []
  | j :: l => reread j :: rereadElements l

def rereadEntries : List (Bytes × Json) → List (Bytes × Json)
  | [] => []
  | (k, j) :: l => (k, reread j) :: rereadEntries l

end

end Json

/-- The text form and the conversions of floating-point numbers. An exception
of `parse` or `dump` is given by its `what()`. -/
structure JsonText where
  parse : Bytes → Except Bytes Json
  dump : Json → Except Bytes Bytes
  /-- `static_cast<int>` of a `double`. -/
  toInt : BitVec 64 → BitVec 32
  /-- `static_cast<uint64_t>`. -/
  toUInt64 : BitVec 64 → BitVec 64

end TR

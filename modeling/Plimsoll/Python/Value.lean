import Plimsoll.Python.Unicode

/-!
The plain values a document loader builds, and how Python shows them. A mapping
is its items, oldest first; a set is its members in the order a loop visits them.
-/

namespace Python

/-- A plain value. A `float` is kept as its `repr`; `other` is a value of any
other class, with its `str` and its `repr`. -/
inductive Value where
  | none
  | bool (b : Bool)
  | int (n : Int)
  | float (shown : String)
  | str (s : String)
  | bytes (data : List UInt8)
  | list (items : List Value)
  | tuple (items : List Value)
  | set (members : List Value)
  | dict (items : List (Value × Value))
  | other (shown repr : String)

namespace Value

/-! ## Mappings -/

/-- The value is the text `name`. -/
def isText (name : String) : Value → Bool
  | .str s => s == name
  | _ => false

/-- `d.get(name)`. -/
def get? (name : String) (items : List (Value × Value)) : Option Value :=
  (items.find? fun item => item.1.isText name).map Prod.snd

/-- `d` without the key `name`. -/
def pop (name : String) (items : List (Value × Value)) : List (Value × Value) :=
  items.filter fun item => !item.1.isText name

/-- `d[name] = value`, up to the place of the key. -/
def assign (name : String) (value : Value) (items : List (Value × Value)) : List (Value × Value) :=
  pop name items ++ [(.str name, value)]

/-- `value == 1`, which holds of `True` and of `1.0` too. -/
def isOne : Value → Bool
  | .bool b => b
  | .int n => n == 1
  | .float shown => shown == "1.0"
  | _ => false

/-! ## Showing a value -/

/-- A byte inside `repr(data)`. -/
def reprByte (quote : Char) (byte : UInt8) : String :=
  let c := Char.ofNat byte.toNat
  if c = quote ∨ c = '\\' then "\\" ++ c.toString
  else if c = '\t' then "\\t"
  else if c = '\n' then "\\n"
  else if c = '\r' then "\\r"
  else if byte.toNat < 0x20 ∨ 0x7f ≤ byte.toNat then "\\x" ++ Unicode.hex 2 byte.toNat
  else c.toString

/-- `repr(data)`. -/
def reprBytes (data : List UInt8) : String :=
  let single : UInt8 := 0x27
  let double : UInt8 := 0x22
  let quote := if single ∈ data ∧ double ∉ data then '\x22' else '\''
  "b" ++ quote.toString ++ String.join (data.map (reprByte quote)) ++ quote.toString

/-- `repr(n)`; `none` is the `ValueError` of a number with too many digits. -/
def reprInt (n : Int) : Option String :=
  if 10 ^ Unicode.maxStrDigits ≤ n.natAbs then Option.none else some (toString n)

variable (ucd : Unicode)

mutual

/-- `repr(value)`; `none` is the `ValueError` of a number with too many digits. -/
def repr : Value → Option String
  | .none => some "None"
  | .bool b => some (if b then "True" else "False")
  | .int n => reprInt n
  | .float shown => some shown
  | .str s => some (ucd.repr s)
  | .bytes data => some (reprBytes data)
  | .list items => (reprAll items).map fun shown => "[" ++ join ", " shown ++ "]"
  | .tuple items =>
      (reprAll items).map fun shown =>
        "(" ++ join ", " shown ++ (if shown.length = 1 then ",)" else ")")
  | .set members =>
      (reprAll members).map fun shown =>
        if shown = [] then "set()" else "\x7b" ++ join ", " shown ++ "\x7d"
  | .dict items => (reprItems items).map fun shown => "\x7b" ++ join ", " shown ++ "\x7d"
  | .other _ repr => some repr

/-- The `repr` of each value. -/
def reprAll : List Value → Option (List String)
  | [] => some []
  | value :: rest =>
      (repr value).bind fun shown => (reprAll rest).map fun others => shown :: others

/-- The items of a mapping as its `repr` shows them. -/
def reprItems : List (Value × Value) → Option (List String)
  | [] => some []
  | (key, value) :: rest =>
      (repr key).bind fun k => (repr value).bind fun v =>
        (reprItems rest).map fun others => (k ++ ": " ++ v) :: others

end

/-- `str(value)`. -/
def text : Value → Option String
  | .str s => some s
  | .other shown _ => some shown
  | value => repr ucd value

end Value

end Python

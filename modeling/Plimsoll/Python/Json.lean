import Plimsoll.Python.Datetime
import Plimsoll.Python.Sorted
import Plimsoll.Python.Value

/-!
`json.dumps` with sorted keys and the separators `,` and `:`, and `json.loads` of
bytes.

How a `float` is converted, how bytes are decoded, how deep documents may nest and
which texts are timestamps are the interpreter's. A surrogate that stands alone is read as the replacement
character.
-/

namespace Python

/-- What the text codecs take from the interpreter. -/
structure Interpreter where
  ucd : Unicode
  /-- `repr(float(text))`. -/
  float : String → String
  /-- `data.decode(json.detect_encoding(data), "surrogatepass")`; `none` is the
  `UnicodeDecodeError`. -/
  decode : List UInt8 → Option (List Char)
  /-- How deep arrays and objects may be nested. -/
  recursionLimit : Nat
  /-- `datetime.fromisoformat(text)`; `none` is the `ValueError`. -/
  fromisoformat : List Char → Option Datetime
  decode_ascii : ∀ text : List Char, (∀ c ∈ text, 0 < c.toNat ∧ c.toNat < 128) →
    decode (text.map fun c => UInt8.ofNat c.toNat) = some text
  recursionLimit_pos : 0 < recursionLimit
  fromisoformat_isoformat : ∀ d : Datetime, d.Valid → d.Zoned → fromisoformat d.isoformat = some d

namespace Json

/-- A value that has a JSON text. A `float` is kept as its `repr`; an object is its
items, oldest first. -/
inductive Value where
  | null
  | bool (b : Bool)
  | int (n : Int)
  | float (shown : String)
  | str (s : String)
  | list (items : List Value)
  | dict (items : List (String × Value))

/-- What `json` raises: a `ValueError`, of which `JSONDecodeError` is one, or a
`RecursionError`. -/
inductive Failure where
  | valueError
  | recursionError
deriving DecidableEq

/-! ## Writing -/

/-- `\uXXXX`. -/
def unicodeEscape (n : Nat) : List Char := '\\' :: 'u' :: (Unicode.hex 4 n).toList

/-- A code point inside a string. -/
def escape (c : Char) : List Char :=
  if c = '"' ∨ c = '\\' then ['\\', c]
  else if c = '\n' then ['\\', 'n']
  else if c = '\r' then ['\\', 'r']
  else if c = '\t' then ['\\', 't']
  else if c.toNat = 8 then ['\\', 'b']
  else if c.toNat = 12 then ['\\', 'f']
  else if 0x20 ≤ c.toNat ∧ c.toNat < 0x7f then [c]
  else if c.toNat < 0x10000 then unicodeEscape c.toNat
  else
    unicodeEscape (0xd800 + (c.toNat - 0x10000) / 0x400) ++
      unicodeEscape (0xdc00 + (c.toNat - 0x10000) % 0x400)

def quote (s : String) : List Char := '"' :: (s.toList.flatMap escape ++ ['"'])

/-- A `float` as JSON spells it. -/
def floatText (shown : String) : String :=
  if shown = "nan" then "NaN"
  else if shown = "inf" then "Infinity"
  else if shown = "-inf" then "-Infinity"
  else shown

mutual

/-- How deep arrays and objects are nested. -/
def Value.depth : Value → Nat
  | .list items => depthAll items + 1
  | .dict items => depthItems items + 1
  | _ => 0

def depthAll : List Value → Nat
  | [] => 0
  | value :: rest => max value.depth (depthAll rest)

def depthItems : List (String × Value) → Nat
  | [] => 0
  | (_, value) :: rest => max value.depth (depthItems rest)

end

mutual

/-- The text of a value; `none` is the `ValueError` of a number with too many
digits. -/
def Value.text : Value → Option (List Char)
  | .null => some "null".toList
  | .bool b => some (if b then "true" else "false").toList
  | .int n => (Python.Value.reprInt n).map String.toList
  | .float shown => some (floatText shown).toList
  | .str s => some (quote s)
  | .list items => (textAll items).map fun parts => '[' :: ([','].intercalate parts ++ [']'])
  | .dict items => (textItems items).map fun parts =>
      let sorted := sortedBy (fun a b => a.1 ≤ b.1) parts
      '\x7b' :: ([','].intercalate (sorted.map fun part => quote part.1 ++ ':' :: part.2) ++ ['\x7d'])

def textAll : List Value → Option (List (List Char))
  | [] => some []
  | value :: rest => value.text.bind fun part => (textAll rest).map fun parts => part :: parts

def textItems : List (String × Value) → Option (List (String × List Char))
  | [] => some []
  | (key, value) :: rest =>
      value.text.bind fun part => (textItems rest).map fun parts => (key, part) :: parts

end

/-- `json.dumps(value, separators=(",", ":"), sort_keys=True)`. -/
def dumps (interp : Interpreter) (value : Value) : Except Failure (List Char) :=
  if interp.recursionLimit < value.depth then .error .recursionError
  else
    match value.text with
    | none => .error .valueError
    | some text => .ok text

/-! ## Reading -/

def skip (text : List Char) : List Char :=
  text.dropWhile fun c => c = ' ' ∨ c = '\t' ∨ c = '\n' ∨ c = '\r'

/-- The value of a hexadecimal digit. -/
def hexDigit (c : Char) : Option Nat :=
  if '0' ≤ c ∧ c ≤ '9' then some (c.toNat - 48)
  else if 'a' ≤ c ∧ c ≤ 'f' then some (c.toNat - 87)
  else if 'A' ≤ c ∧ c ≤ 'F' then some (c.toNat - 55)
  else none

/-- The four digits behind `\u`. -/
def readHex : List Char → Option (Nat × List Char)
  | a :: b :: c :: d :: rest => do
      let a ← hexDigit a
      let b ← hexDigit b
      let c ← hexDigit c
      let d ← hexDigit d
      return (a * 0x1000 + b * 0x100 + c * 0x10 + d, rest)
  | _ => none

/-- The second half of a surrogate pair. -/
def readLow : List Char → Option (Nat × List Char)
  | '\\' :: 'u' :: rest => (readHex rest).filter fun low => 0xdc00 ≤ low.1 ∧ low.1 < 0xe000
  | _ => none

/-- What stands behind a backslash. -/
def readEscape : List Char → Option (Char × List Char)
  | [] => none
  | e :: rest =>
      if e = '"' ∨ e = '\\' ∨ e = '/' then some (e, rest)
      else if e = 'n' then some ('\n', rest)
      else if e = 'r' then some ('\r', rest)
      else if e = 't' then some ('\t', rest)
      else if e = 'b' then some (Char.ofNat 8, rest)
      else if e = 'f' then some (Char.ofNat 12, rest)
      else if e = 'u' then do
        let (n, rest) ← readHex rest
        if 0xd800 ≤ n ∧ n < 0xdc00 then
          match readLow rest with
          | some (low, rest) =>
              return (Char.ofNat (0x10000 + (n - 0xd800) * 0x400 + (low - 0xdc00)), rest)
          | none => return (Char.ofNat 0xfffd, rest)
        else if 0xdc00 ≤ n ∧ n < 0xe000 then return (Char.ofNat 0xfffd, rest)
        else return (Char.ofNat n, rest)
      else none

/-- A string behind its opening quote, and what follows it. -/
def readString : Nat → List Char → Option (List Char × List Char)
  | 0, _ => none
  | _ + 1, [] => none
  | fuel + 1, c :: rest =>
      if c = '"' then some ([], rest)
      else if c.toNat < 0x20 then none
      else if c = '\\' then do
        let (read, rest) ← readEscape rest
        let (s, rest) ← readString fuel rest
        return (read :: s, rest)
      else do
        let (s, rest) ← readString fuel rest
        return (c :: s, rest)

/-- A run of digits behind some characters, if there are any. -/
def readFraction (isMark : Char → Bool) : List Char → List Char × List Char
  | [] => ([], [])
  | mark :: rest =>
      let sign := if mark = '.' then [] else rest.take 1 |>.filter fun c => c = '+' ∨ c = '-'
      let (digits, after) := (rest.drop sign.length).span Char.isDigit
      if isMark mark = true ∧ digits ≠ [] then (mark :: sign ++ digits, after) else ([], mark :: rest)

/-- A number: `-?(0|[1-9]\d*)(\.\d+)?([eE][-+]?\d+)?`. -/
def readNumber (interp : Interpreter) (text : List Char) : Option (Value × List Char) :=
  let (sign, rest) := text.span (· = '-')
  let (digits, rest) := if rest.head? = some '0' then (['0'], rest.drop 1) else rest.span Char.isDigit
  if 1 < sign.length ∨ digits = [] then none
  else
    let (fraction, rest) := readFraction (· = '.') rest
    let (exponent, rest) := readFraction (fun c => c = 'e' ∨ c = 'E') rest
    if fraction = [] ∧ exponent = [] then
      if Unicode.maxStrDigits < digits.length then none
      else
        (interp.ucd.readDecimal 0 digits).map fun n =>
          (.int (if sign = [] then n else -n), rest)
    else some (.float (interp.float (String.ofList (sign ++ digits ++ fraction ++ exponent))), rest)

/-- The literals, and the numbers that are none. -/
def literals : List (String × Value) :=
  [("null", .null), ("true", .bool true), ("false", .bool false), ("NaN", .float "nan"),
    ("Infinity", .float "inf"), ("-Infinity", .float "-inf")]

/-- A value that is neither a string nor nested. -/
def readScalar (interp : Interpreter) (text : List Char) : Except Failure (Value × List Char) :=
  match literals.find? fun literal => literal.1.toList.isPrefixOf text with
  | some literal => .ok (literal.2, text.drop literal.1.toList.length)
  | none =>
      match readNumber interp text with
      | some read => .ok read
      | none => .error .valueError

/-- `d[key] = value`, up to the place of the key. -/
def assign (key : String) (value : Value) (items : List (String × Value)) : List (String × Value) :=
  items.filter (fun item => item.1 ≠ key) ++ [(key, value)]

variable (interp : Interpreter)

mutual

/-- A value, and what follows it; `deeper` more levels may be nested in it. -/
def readValue : Nat → Nat → List Char → Except Failure (Value × List Char)
  | 0, _, _ => .error .valueError
  | _ + 1, _, [] => .error .valueError
  | fuel + 1, deeper, c :: rest =>
      if c = '"' then
        match readString (rest.length + 1) rest with
        | none => .error .valueError
        | some (s, rest) => .ok (.str (String.ofList s), rest)
      else if c = '\x7b' then
        if deeper = 0 then .error .recursionError
        else if (skip rest).head? = some '\x7d' then .ok (.dict [], (skip rest).drop 1)
        else readMembers fuel (deeper - 1) [] (skip rest)
      else if c = '[' then
        if deeper = 0 then .error .recursionError
        else if (skip rest).head? = some ']' then .ok (.list [], (skip rest).drop 1)
        else readElements fuel (deeper - 1) [] (skip rest)
      else readScalar interp (c :: rest)

/-- The members of an object behind those read so far. -/
def readMembers : Nat → Nat → List (String × Value) → List Char →
    Except Failure (Value × List Char)
  | 0, _, _, _ => .error .valueError
  | _ + 1, _, _, [] => .error .valueError
  | fuel + 1, deeper, items, c :: rest =>
      if c = '"' then
        match readString (rest.length + 1) rest with
        | none => .error .valueError
        | some (key, rest) =>
            if (skip rest).head? = some ':' then
              match readValue fuel deeper (skip ((skip rest).drop 1)) with
              | .error failure => .error failure
              | .ok (value, rest) =>
                  let items := assign (String.ofList key) value items
                  if (skip rest).head? = some '\x7d' then .ok (.dict items, (skip rest).drop 1)
                  else if (skip rest).head? = some ',' then
                    readMembers fuel deeper items (skip ((skip rest).drop 1))
                  else .error .valueError
            else .error .valueError
      else .error .valueError

/-- The elements of an array behind those read so far. -/
def readElements : Nat → Nat → List Value → List Char → Except Failure (Value × List Char)
  | 0, _, _, _ => .error .valueError
  | fuel + 1, deeper, items, text =>
      match readValue fuel deeper text with
      | .error failure => .error failure
      | .ok (value, rest) =>
          let items := items ++ [value]
          if (skip rest).head? = some ']' then .ok (.list items, (skip rest).drop 1)
          else if (skip rest).head? = some ',' then
            readElements fuel deeper items (skip ((skip rest).drop 1))
          else .error .valueError

end

/-- `json.loads(data)`. -/
def loads (data : List UInt8) : Except Failure Value :=
  match interp.decode data with
  | none => .error .valueError
  | some text =>
      match readValue interp (text.length + 1) interp.recursionLimit (skip text) with
      | .error failure => .error failure
      | .ok (value, rest) => if skip rest = [] then .ok value else .error .valueError

end Json

/-- A timestamp off by less than a second, as CPython takes it for one in UTC. -/
def atLeastSeconds (d : Datetime) : Datetime :=
  if d.utcoffset = none ∨ d.Zoned then d else { d with utcoffset := some 0 }

/-- An interpreter that decodes ASCII only, takes a `float` as it is spelled, and has
no timestamps but those that the library's own Python reads. -/
def Interpreter.basic : Interpreter where
  ucd := Unicode.basic
  float text := text
  decode data :=
    if data.all fun byte => 0 < byte.toNat ∧ byte.toNat < 128 then
      some (data.map fun byte => Char.ofNat byte.toNat)
    else none
  recursionLimit := 1000
  fromisoformat text := (Datetime.fromisoformat text).map atLeastSeconds
  decode_ascii := by
    intro text ascii
    have byte : ∀ c ∈ text, (UInt8.ofNat c.toNat).toNat = c.toNat := by
      intro c member
      rw [UInt8.toNat_ofNat']
      exact Nat.mod_eq_of_lt ((ascii c member).2.trans (by decide))
    rw [if_pos, List.map_map]
    · refine congrArg some ((List.map_congr_left fun c member => ?_).trans (List.map_id text))
      rw [Function.comp_apply, byte c member, Char.ofNat_toNat]
      rfl
    · rw [List.all_map, List.all_eq_true]
      intro c member
      rw [Function.comp_apply, byte c member]
      exact decide_eq_true (ascii c member)
  recursionLimit_pos := by decide
  fromisoformat_isoformat d valid zoned := by
    obtain ⟨utcoffset, aware⟩ := zoned.aware
    rw [Datetime.fromisoformat_isoformat valid aware, Option.map_some, atLeastSeconds,
      if_pos (Or.inr zoned)]

end Python

import Plimsoll.Errors
import Plimsoll.Python.Dict
import Plimsoll.Python.Sorted
import Plimsoll.Python.Value

/-!
What the modelled code takes from the interpreter and from third-party
packages: the Unicode tables, the order sets are visited in, the decoding of
file contents, the readers of XML and YAML, and the digest of a file.
-/

namespace Plimsoll

open Python

/-! ## Documents -/

/-- An `Element` of `xml.etree.ElementTree`. `text` is what stands before the
first child, `tail` what stands behind the element's own end tag. -/
structure Element where
  tag : String
  attrib : Dict String String
  text : Option String
  children : List Element
  tail : Option String

namespace Element

/-- `element.get(key, "")`. -/
def get (element : Element) (key : String) : String := (element.attrib.get? key).getD ""

/-- `element.findall(tag)` for a bare tag: the direct children that have it. -/
def findall (element : Element) (tag : String) : List Element :=
  element.children.filter fun child => child.tag = tag

mutual

/-- `element.iter()`: the element and all below it, in document order. -/
def iter : Element → List Element
  | ⟨tag, attrib, text, children, tail⟩ => ⟨tag, attrib, text, children, tail⟩ :: iterAll children

/-- The elements of a run of siblings, in document order. -/
def iterAll : List Element → List Element
  | [] => []
  | child :: rest => iter child ++ iterAll rest

end

end Element

/-! ## Libraries -/

/-- The interpreter and the libraries a run of the program uses. -/
structure Runtime where
  ucd : Unicode
  sets : SetOrder
  /-- `read_text(errors="replace")` of a file's bytes. -/
  decode : List UInt8 → String
  /-- `data.decode()`; `none` is the `UnicodeDecodeError`. -/
  decodeStrict : List UInt8 → Option String
  /-- `data.decode(errors="replace")`. -/
  decodeReplace : List UInt8 → String
  /-- `defusedxml.ElementTree.fromstring`; the error is the text of the
  `ParseError` or `ValueError` it raises. -/
  fromstring : String → Except String Element
  /-- `yaml.safe_load`. -/
  safeLoad : String → Except Raised Value
  /-- `hashlib.sha256(data).hexdigest()`. -/
  sha256 : List UInt8 → String

end Plimsoll

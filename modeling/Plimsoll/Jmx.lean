import Plimsoll.Runtime
import Plimsoll.Python.Regex

/-!
Reading a JMeter plan: what `parse_plan` collects from a document.

The loop visits the elements in document order with one mutable record; `visit`
is one round of it.
-/

namespace Plimsoll.Jmx

open Python

/-! ## Constants -/

def startChar (c : Char) : Bool := c.isAlpha || c == '_'

def wordChar (c : Char) : Bool := c.isAlphanum || c == '_'

/-- `VARIABLE`: a dollar sign, a brace, not two underscores, a name, a brace. -/
def variableRef : Regex :=
  .seq (.char (· == '$')) (.seq (.char (· == '\x7b'))
    (.seq (.notAhead (.seq (.char (· == '_')) (.char (· == '_'))))
      (.seq (.group (.seq (.char startChar) (.repeated wordChar 0 none)))
        (.char (· == '\x7d')))))

def domainProp : String := "HTTPSampler.domain"

def portProp : String := "HTTPSampler.port"

def protocolProp : String := "HTTPSampler.protocol"

/-! ## Results -/

/-- `PlanTarget`. -/
structure PlanTarget where
  scheme : String
  host : String
  port : Option Nat
deriving DecidableEq, Repr

/-- `PlanSummary`. -/
structure PlanSummary where
  threadGroups : List String := []
  transactionControllers : List String := []
  timers : List String := []
  variableNames : List String := []
  dataFiles : List String := []
  targets : List PlanTarget := []
deriving DecidableEq, Repr

/-! ## Elements -/

/-- `_name`. -/
def name (element : Element) : String := strip (element.get "testname")

/-- The items `_string_props` makes its mapping from. -/
def stringPropItems (element : Element) : List (String × String) :=
  (element.findall "stringProp").map fun prop => (prop.get "name", strip (prop.text.getD ""))

/-- `_string_props`. -/
def stringProps (element : Element) : Dict String String := Dict.ofList (stringPropItems element)

/-- `value or ...`: a text that is there and not empty. -/
def truthy (value : Option String) : Option String := value.filter fun text => text ≠ ""

/-- `props.get(key) or defaults.get(key) or fallback`. -/
def setting (key fallback : String) (props defaults : Dict String String) : String :=
  ((truthy (props.get? key)).or (truthy (defaults.get? key))).getD fallback

variable (rt : Runtime)

/-- `_port`. -/
def port (value : String) : Except Raised (Option Nat) :=
  if rt.ucd.isDigitText value then
    match rt.ucd.int value with
    | some number => .ok (some number)
    | none => .error .valueError
  else .ok none

/-! ## The loop -/

/-- The variables of `parse_plan`. -/
structure Scan where
  threadGroups : List String := []
  controllers : List String := []
  timers : List String := []
  dataFiles : List String := []
  targets : List PlanTarget := []
  defaults : Dict String String := Dict.empty

/-- The target of a sampler whose host is known. -/
def samplerTarget (props defaults : Dict String String) (host : String) :
    Except Raised PlanTarget :=
  match port rt (setting portProp "" props defaults) with
  | .error exc => .error exc
  | .ok port => .ok { scheme := setting protocolProp "http" props defaults, host, port }

/-- One round of the loop of `parse_plan`. -/
def visit (scan : Scan) (element : Element) : Except Raised Scan :=
  let testclass := element.get "testclass"
  if endsWith testclass "ThreadGroup" then
    .ok { scan with threadGroups := scan.threadGroups ++ [name element] }
  else if testclass = "TransactionController" then
    .ok { scan with controllers := scan.controllers ++ [name element] }
  else if endsWith testclass "Timer" then
    .ok { scan with timers := scan.timers ++ [name element] }
  else if testclass = "CSVDataSet" then
    let filename := ((stringProps element).get? "filename").getD ""
    if filename = "" then .ok scan
    else .ok { scan with dataFiles := scan.dataFiles ++ [filename] }
  else if testclass = "ConfigTestElement" then
    let props := stringProps element
    if (truthy (props.get? domainProp)).isSome then .ok { scan with defaults := props }
    else .ok scan
  else if testclass = "HTTPSamplerProxy" then
    let props := stringProps element
    let host := setting domainProp "" props scan.defaults
    if host = "" then .ok scan
    else
      match samplerTarget rt props scan.defaults host with
      | .error exc => .error exc
      | .ok target => .ok { scan with targets := scan.targets ++ [target] }
  else .ok scan

/-- The loop of `parse_plan`. -/
def visitAll (scan : Scan) : List Element → Except Raised Scan
  | [] => .ok scan
  | element :: rest =>
      match visit rt scan element with
      | .error exc => .error exc
      | .ok next => visitAll next rest

/-- What follows the loop: the defaults in force at the end are a target too. -/
def addDefaults (scan : Scan) : Except Raised Scan :=
  match truthy (scan.defaults.get? domainProp) with
  | none => .ok scan
  | some host =>
      match port rt ((scan.defaults.get? portProp).getD "") with
      | .error exc => .error exc
      | .ok port =>
          let scheme := (truthy (scan.defaults.get? protocolProp)).getD "http"
          .ok { scan with targets := scan.targets ++ [{ scheme, host, port }] }

/-- The sort key of a target is its host, then its port or zero. -/
def targetLe (a b : PlanTarget) : Bool :=
  a.host < b.host || (a.host == b.host && a.port.getD 0 ≤ b.port.getD 0)

/-- `sorted({name for name in names if name})`. -/
def sortedNames (names : List String) : List String :=
  sortedSet rt.sets (names.filter fun name => name ≠ "")

/-- The summary `parse_plan` returns, of the document's text and the loop's
variables. -/
def summarize (text : String) (scan : Scan) : PlanSummary where
  threadGroups := sortedNames rt scan.threadGroups
  transactionControllers := sortedNames rt scan.controllers
  timers := sortedNames rt scan.timers
  variableNames := sortedSet rt.sets (variableRef.findall text)
  dataFiles := sortedSet rt.sets scan.dataFiles
  targets := sortedBy targetLe (rt.sets.enumerate scan.targets)

/-- `parse_plan`. -/
def parsePlan (text : String) : Except Raised PlanSummary :=
  match rt.fromstring text with
  | .error message => .error (.planParseError message)
  | .ok root =>
      match visitAll rt {} root.iter with
      | .error exc => .error exc
      | .ok scan =>
          match addDefaults rt scan with
          | .error exc => .error exc
          | .ok scan => .ok (summarize rt text scan)

end Plimsoll.Jmx

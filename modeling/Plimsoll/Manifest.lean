import Plimsoll.Python.Pydantic
import Plimsoll.Runtime

/-!
`plimsoll.yaml`, the tester's half of the contract: the models of
`plans/manifest.py`, and `parse_manifest`. A model that has been validated
carries what its fields were checked for.
-/

namespace Plimsoll.Manifests

open Python Pydantic

/-! ## Models -/

/-- `SUPPORTED_VERSION`. -/
def supportedVersion : Nat := 1

/-- `SHARED`. -/
def shared : String := "shared"

/-- `ManifestData`. -/
structure ManifestData where
  path : String
  distribution : String := shared
  path_length : 1 ≤ path.length

/-- `ManifestPlan`. -/
structure ManifestPlan where
  path : String
  data : List ManifestData := []
  variableNames : List String := []
  path_length : 1 ≤ path.length

/-- `ManifestPlugin`. -/
structure ManifestPlugin where
  id : String
  version : String
  sha256 : String
  id_length : 1 ≤ id.length
  version_length : 1 ≤ version.length
  sha256_length : 1 ≤ sha256.length

/-- `Manifest`. -/
structure Manifest where
  version : Nat
  engine : String := "jmeter"
  jmeterVersion : Option String := none
  plugins : List ManifestPlugin := []
  plans : List ManifestPlan := []

/-! ## Validation -/

variable (rt : Runtime)

/-- A text field without a least length. -/
def anyText (value : Value) : Validated String := (str rt.decodeStrict 0 value).map Subtype.val

def dataFields (items : List (Value × Value)) : Validated ManifestData :=
  (both (required items "path" (str rt.decodeStrict 1))
    (optional items "distribution" shared (anyText rt))).map
    fun (path, distribution) => { path, distribution, path_length := path.2 }

/-- What `str(key)` raises for a number of too many digits. -/
def tooManyDigits : String :=
  "Exceeds the limit (" ++ toString Unicode.maxStrDigits ++ " digits) for integer string conversion; " ++
    "use sys.set_int_max_str_digits() to increase the limit"

/-- The items of the first mapping among some values. -/
def firstMapping (values : List Value) : Option (List (Value × Value)) :=
  values.findSome? fun value =>
    match value with
    | .dict items => some items
    | _ => none

/-- `ManifestPlan._names_only`. -/
def namesOnly (value : Value) : Validated Value :=
  match value with
  | .list entries =>
      match firstMapping entries with
      | none => .ok value
      | some items =>
          match items.mapM fun item => item.1.text rt.ucd with
          | none => failure ("Value error, " ++ tooManyDigits)
          | some keys =>
              failure ("Value error, variable " ++ join ", " keys ++
                " carries a value; manifests declare names only, " ++
                "and values resolve from the platform's secret store at run start")
  | _ => .ok value

def planFields (items : List (Value × Value)) : Validated ManifestPlan :=
  (both (required items "path" (str rt.decodeStrict 1))
    (both (optional items "data" [] (listOf (model "ManifestData" (dataFields rt))))
      (optional items "variables" []
        fun value => (namesOnly rt value).bind (listOf (anyText rt))))).map
    fun (path, data, variableNames) => { path, data, variableNames, path_length := path.2 }

def pluginFields (items : List (Value × Value)) : Validated ManifestPlugin :=
  (both (required items "id" (str rt.decodeStrict 1))
    (both (required items "version" (str rt.decodeStrict 1))
      (required items "sha256" (str rt.decodeStrict 1)))).map
    fun (id, version, sha256) =>
      { id, version, sha256, id_length := id.2, version_length := version.2,
        sha256_length := sha256.2 }

/-- The fields of `Manifest`. `version` has been compared with 1 before, and
what is equal to 1 is read as that number. -/
def manifestFields (items : List (Value × Value)) : Validated Manifest :=
  (both (optional items "engine" "jmeter" (anyText rt))
    (both (optional items "jmeter_version" none (nullable (anyText rt)))
      (both (optional items "plugins" [] (listOf (model "ManifestPlugin" (pluginFields rt))))
        (optional items "plans" [] (listOf (model "ManifestPlan" (planFields rt))))))).map
    fun (engine, jmeterVersion, plugins, plans) =>
      { version := supportedVersion, engine, jmeterVersion, plugins, plans }

/-! ## Reading -/

/-- `_readable`. -/
def readable (issues : List Issue) : String :=
  join "; " (issues.map fun issue => join "." issue.loc ++ ": " ++ issue.msg)

/-- The payload: the document without `jmeter`, whose version moves to
`jmeter_version`. -/
def payload (document : List (Value × Value)) : List (Value × Value) :=
  match Value.get? "jmeter" document with
  | some (.dict jmeter) =>
      Value.assign "jmeter_version" ((Value.get? "version" jmeter).getD .none)
        (Value.pop "jmeter" document)
  | _ => Value.pop "jmeter" document

/-- What `parse_manifest` does with the mapping it has loaded. -/
def validateDocument (document : List (Value × Value)) : Except Raised Manifest :=
  let version := (Value.get? "version" document).getD .none
  if ¬ version.isOne then
    match version.repr rt.ucd with
    | none => .error .valueError
    | some shown =>
        .error (.manifestError ("Manifest schema version " ++ shown ++ " is not supported; " ++
          "this Plimsoll understands version " ++ toString supportedVersion ++ "."))
  else
    (manifestFields rt (payload document)).mapError fun issues => .manifestError (readable issues)

/-- `parse_manifest`. -/
def parseManifest (text : String) : Except Raised Manifest :=
  match rt.safeLoad text with
  | .error (.yamlError message) =>
      .error (.manifestError ("The manifest is not valid YAML: " ++ message))
  | .error exc => .error exc
  | .ok (.dict document) => validateDocument rt document
  | .ok _ => .error (.manifestError "The manifest must be a mapping.")

end Plimsoll.Manifests

import CellAtlas.Analysis.Context
import CellAtlas.Json.Reader
import CellAtlas.Service.Arguments
import CellAtlas.Wire.Decoder

/-!
# Settings

The settings of a service, from arguments, from values given by name and from variables of its
environment. An argument wins over a given value, a given value over a variable, and a variable over
the default. The letters of a name may be of either case, and a list in a variable is written as
JSON.

Some given values are no settings but options of the reader, whose names start with an underscore.
They hold the arguments and say how variables are named and which of them count.
-/

namespace CellAtlas

open Wire

structure Settings where
  environment : String := "development"
  logLevel : String := "info"
  corsOrigins : List String := ["http://localhost:3000"]
  gridWidth : Int := 12
  gridHeight : Int := 8
  activeRatio : Binary64 := 0.4
  droppedRatio : Binary64 := 0.2
  pointerRatio : Binary64 := 0.2
  seed : Int := 7
  mutationProbability : Binary64 := 0.05
  maxSourceBytes : Int := 1048576
deriving DecidableEq, Repr

/-- Where a text comes from that is read as JSON. -/
inductive SettingsSource where
  | environment
  | arguments
deriving DecidableEq, Repr

def SettingsSource.name : SettingsSource → String
  | environment => "EnvSettingsSource"
  | arguments => "CliSettingsSource"

inductive SettingsError where
  /-- Values are missing, malformed or unknown. -/
  | invalid (issues : List Issue)
  /-- The text of a list is no JSON. -/
  | unreadable (field : String) (source : SettingsSource)
  /-- The text of a list nests its values too deep. -/
  | nestedTooDeep (container : Json.Container)
  /-- What the names of the variables start with is no text, but a value of another kind. -/
  | badPrefix (kind : String)
  /-- The arguments are no list, but a value of another kind. -/
  | noArguments (kind : String)
  /-- One of the arguments is no text, but a value of another kind. -/
  | badArgument (kind : String)
  /-- The arguments cannot be read. -/
  | arguments (e : Arguments.Error)
  /-- The arguments cannot be read, which ends the program. -/
  | ends
  /-- The arguments for a list cannot be put together. -/
  | badList (field : String) (e : Arguments.ListError)

/-- The wording of an error that has one of its own. -/
def SettingsError.message : SettingsError → String
  | invalid _ => ""
  | unreadable field source =>
    "error parsing value for field \"" ++ field ++ "\" from source \"" ++ source.name ++ "\""
  | nestedTooDeep container =>
    let kind := match container with
      | .array => "array"
      | .object => "object"
    "maximum recursion depth exceeded while decoding a JSON " ++ kind ++ " from a unicode string"
  | badPrefix kind => "object of type '" ++ kind ++ "' has no len()"
  | noArguments kind =>
    "cli_parse_args must be a list or tuple of strings, received <class '" ++ kind ++ "'>"
  | badArgument kind => "expected string or bytes-like object, got '" ++ kind ++ "'"
  | arguments e => "error parsing CLI: " ++ e.message
  | ends => "2"
  | badList field e => "Parsing error encountered for " ++ field ++ ": " ++ e.message

namespace Settings

def names : List String :=
  ["structgrid_env", "structgrid_log_level", "cors_origins", "grid_width", "grid_height",
    "active_ratio", "dropped_ratio", "pointer_ratio", "structgrid_seed", "mutation_probability",
    "structgrid_max_source_bytes"]

def listNames : List String := ["cors_origins"]

/-! ### Options -/

/-- How the settings are read. -/
structure Options where
  /-- Whether the names of variables and arguments have to be written exactly. -/
  exact : Bool := false
  /-- Whether a variable without text counts as not set. -/
  ignoreEmpty : Bool := false
  /-- What the names of the variables start with. -/
  namePrefix : String := ""
  /-- The text of a variable that stands for null. -/
  nullText : Option String := none
  /-- What stands between the name of a list and that of a part of it; nothing for no parts. -/
  delimiter : String := ""
  /-- How arguments are written. -/
  style : Arguments.Style := {}
  /-- Whether unknown arguments are passed over. -/
  ignoreUnknown : Bool := false
  /-- Whether arguments that cannot be read end the program. -/
  endOnError : Bool := true
deriving DecidableEq, Repr

/-- The names of the options. From `_env_file` on they are about files, about the parts of settings
and about the help for a command; they make no difference here. -/
def optionNames : List String :=
  ["_case_sensitive", "_env_ignore_empty", "_env_prefix", "_env_parse_none_str",
    "_env_nested_delimiter", "_cli_parse_args", "_cli_prefix", "_cli_kebab_case",
    "_cli_parse_none_str", "_cli_avoid_json", "_cli_exit_on_error", "_cli_ignore_unknown_args",
    "_env_file", "_env_file_encoding", "_env_nested_max_split", "_env_parse_enums",
    "_nested_model_default_partial_update", "_secrets_dir", "_cli_prog_name",
    "_cli_settings_source", "_cli_hide_none_type", "_cli_enforce_required",
    "_cli_use_class_docs_for_groups", "_cli_flag_prefix_char", "_cli_implicit_flags",
    "_cli_shortcuts"]

/-- Whether a value turns an option on: null, false, zero and what is empty turn it off. -/
def turnsOn : Json → Bool
  | .null => false
  | .bool b => b
  | .int n => n != 0
  | .real r => r.toBinary64.toInt? != some 0
  | .str s => !s.isEmpty
  | .arr items => !items.isEmpty
  | .obj fields => !fields.isEmpty

def kindName : Json → String
  | .null => "NoneType"
  | .bool _ => "bool"
  | .int _ => "int"
  | .real _ => "float"
  | .str _ => "str"
  | .arr _ => "list"
  | .obj _ => "dict"

def optionText? (values : List (String × Json)) (name : String) : Option String :=
  match values.lookup name with
  | some (.str s) => some s
  | _ => none

def isOn (values : List (String × Json)) (name : String) : Bool :=
  (values.lookup name).any turnsOn

def Options.ofValues (values : List (String × Json)) : Except SettingsError Options := do
  let namePrefix ← match values.lookup "_env_prefix" with
    | none | some .null => pure ""
    | some (.str s) => pure s
    | some j => throw (.badPrefix (kindName j))
  let nullText := ((optionText? values "_cli_parse_none_str").filter (!·.isEmpty)).getD
    (if isOn values "_cli_avoid_json" then "None" else "null")
  return {
    exact := isOn values "_case_sensitive"
    ignoreEmpty := isOn values "_env_ignore_empty"
    namePrefix
    nullText := optionText? values "_env_parse_none_str"
    delimiter := (optionText? values "_env_nested_delimiter").getD ""
    style := {
      namePrefix := (optionText? values "_cli_prefix").getD ""
      hyphens := isOn values "_cli_kebab_case"
      exact := isOn values "_case_sensitive"
      nullText }
    ignoreUnknown := isOn values "_cli_ignore_unknown_args"
    endOnError := match values.lookup "_cli_exit_on_error" with
      | none | some .null => true
      | some j => turnsOn j }

/-- The name of a variable in the form in which it is compared. -/
def Options.fold (o : Options) (name : String) : String :=
  if o.exact then name else Text.lowercase name

/-! ### Sources -/

def maxListDepth : Nat := 984

def listOfText (source : SettingsSource) (name s : String) : Except SettingsError Json :=
  match Json.parse s maxListDepth with
  | .ok j => .ok j
  | .error (.nestedTooDeep container) => .error (.nestedTooDeep container)
  | .error _ => .error (.unreadable name source)

/-- The text of an argument; what turns an option off has none. -/
def argumentText : Json → Except SettingsError String
  | .str s => .ok s
  | j => if turnsOn j then .error (.badArgument (kindName j)) else .ok ""

/-- The arguments in a value. Where it is true they are those of the program, which has none. -/
def argumentsOf : Json → Except SettingsError (List String)
  | .null | .bool _ => .ok []
  | .arr items => items.mapM argumentText
  | .int n => if n = 0 then .ok [] else .error (.noArguments "int")
  | .real r => if r.toBinary64.toInt? = some 0 then .ok [] else .error (.noArguments "float")
  | j => .error (.noArguments (kindName j))

def readArguments (o : Options) (arguments : List String) :
    Except SettingsError (List (String × String)) :=
  let failed (e : Arguments.Error) : SettingsError := if o.endOnError then .ends else .arguments e
  match Arguments.read o.style names arguments with
  | .error e => .error (failed e)
  | .ok r =>
    if r.unknown.isEmpty || o.ignoreUnknown then .ok r.values
    else .error (failed (.unknown r.unknown))

/-- The value of a setting among what arguments say. Of several values the last one counts, and
those of a list are put together. -/
def fromArguments (o : Options) (found : List (String × String)) (name : String) :
    Except SettingsError (List (String × Json)) := do
  let values := (found.filter (·.1 == name)).map (·.2)
  match values.getLast? with
  | none => return []
  | some last =>
    if listNames.contains name then
      let s ← (Arguments.listText o.style.nullText values).mapError (.badList name)
      return [(name, ← listOfText .arguments name s)]
    else return [(name, if last == o.style.nullText then .null else .str last)]

/-- The value given for a setting. Of several the first one counts. -/
def givenValue? (values : List (String × Json)) (name : String) : Option Json :=
  (values.find? fun v => Text.lowercase v.1 == name).map (·.2)

/-- The text of a variable. Of several whose names count as the same the last one counts. -/
def variableText? (o : Options) (env : List (String × String)) (name : String) : Option String :=
  (env.reverse.find? fun v => o.fold v.1 == o.fold (o.namePrefix ++ name)).map (·.2)

/-- Whether variables give parts of a setting. -/
def hasParts (o : Options) (env : List (String × String)) (name : String) : Bool :=
  !o.delimiter.isEmpty && env.any fun v =>
    (o.fold (o.namePrefix ++ name) ++ o.delimiter).isPrefixOf (o.fold v.1)

/-- The value of a setting in the environment. A list that is null counts as not set, and one that
is given in parts is an object. -/
def fromEnvironment (o : Options) (env : List (String × String)) (name : String) :
    Except SettingsError (List (String × Json)) :=
  match variableText? o env name with
  | none => .ok (if listNames.contains name && hasParts o env name then [(name, .obj [])] else [])
  | some s =>
    if o.nullText = some s then .ok [(name, .null)]
    else if listNames.contains name then
      (listOfText .environment name s).map fun j => if j matches .null then [] else [(name, j)]
    else .ok [(name, .str s)]

/-- The settings in an object. -/
def decode (o : Json) : Checked Settings :=
  Settings.mk <$> optional .snake o "structgrid_env" text "development"
    <*> optional .snake o "structgrid_log_level" text "info"
    <*> optional .snake o "cors_origins" (list text) ["http://localhost:3000"]
    <*> optional .snake o "grid_width" (integer (some 0)) 12
    <*> optional .snake o "grid_height" (integer (some 0)) 8
    <*> optional .snake o "active_ratio" (real 0 1) 0.4
    <*> optional .snake o "dropped_ratio" (real 0 1) 0.2
    <*> optional .snake o "pointer_ratio" (real 0 1) 0.2
    <*> optional .snake o "structgrid_seed" (integer (some 0)) 7
    <*> optional .snake o "mutation_probability" (real 0 1) 0.05
    <*> optional .snake o "structgrid_max_source_bytes" (integer (some 0)) 1048576

/-- Complaints about given values that belong to no setting. -/
def unknownValues (values : List (String × Json)) : Checked Unit :=
  match values.filter fun v => !names.contains (Text.lowercase v.1) with
  | [] => .valid ()
  | unknown => .invalid (unknown.map fun v => ⟨[.field v.1], .unexpected, v.2⟩)

/-- The settings from given values, options and arguments among them, and from the environment. -/
def load (values : List (String × Json)) (env : List (String × String)) :
    Except SettingsError Settings := do
  let o ← Options.ofValues values
  let arguments ← argumentsOf ((values.lookup "_cli_parse_args").getD .null)
  let named ← names.mapM (fromArguments o (← readArguments o arguments))
  let values := values.filter fun v => !optionNames.contains v.1
  let given := names.filterMap fun name => (givenValue? values name).map (name, ·)
  let env := env.filter fun v => !(o.ignoreEmpty && v.2.isEmpty)
  let found ← names.mapM (fromEnvironment o env)
  let checked := (fun s _ => s) <$> decode (.obj (named.flatten ++ given ++ found.flatten))
    <*> unknownValues values
  match checked with
  | .valid s => .ok s
  | .invalid issues => .error (.invalid issues)

def config (s : Settings) : AnalysisConfig where
  grid :=
    { width := s.gridWidth, height := s.gridHeight, activeRatio := s.activeRatio,
      droppedRatio := s.droppedRatio, pointerRatio := s.pointerRatio }
  seed := some s.seed
  mutationProbability := s.mutationProbability

def toJson (s : Settings) : Json :=
  .obj [("structgrid_env", .str s.environment), ("structgrid_log_level", .str s.logLevel),
    ("cors_origins", .ofStrings s.corsOrigins), ("grid_width", .int s.gridWidth),
    ("grid_height", .int s.gridHeight), ("active_ratio", .ofBinary64 s.activeRatio),
    ("dropped_ratio", .ofBinary64 s.droppedRatio), ("pointer_ratio", .ofBinary64 s.pointerRatio),
    ("structgrid_seed", .int s.seed), ("mutation_probability", .ofBinary64 s.mutationProbability),
    ("structgrid_max_source_bytes", .int s.maxSourceBytes)]

end Settings

def AnalysisConfig.toJson (c : AnalysisConfig) : Json :=
  .obj [("grid_width", .int c.grid.width), ("grid_height", .int c.grid.height),
    ("active_ratio", .ofBinary64 c.grid.activeRatio),
    ("dropped_ratio", .ofBinary64 c.grid.droppedRatio),
    ("pointer_ratio", .ofBinary64 c.grid.pointerRatio), ("seed", .ofInt? c.seed),
    ("mutation_probability", .ofBinary64 c.mutationProbability)]

end CellAtlas

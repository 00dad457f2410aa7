import Gungnir.Validation.Rules
import Gungnir.Http.JsonParser
import Mathlib.Data.List.AList

/-!
# The validator

`check_data`: rules are parsed, uploads are added to the input, every entry is checked
at every path its pattern expands to, and the values that passed are put together.
The database, custom predicates and the recognition of media types are parameters.
-/

namespace Gungnir.Validation

open Gungnir.Core
open Gungnir.Http (Json MapOrder)

/-! ## Paths -/

/-- The element of an array that a part of a path names. -/
def element (items : List Json) (key : Bytes) : Option Json :=
  (fromChars sizeBound key).bind (items[·]?)

/-- One step of `at_path`. -/
def step (input : Json) (key : Bytes) : Option Json :=
  match input with
  | .object entries => entries.lookup key
  | .array items => element items key
  | _ => none

def atPath : Json → Path → Option Json
  | input, [] => some input
  | input, key :: rest => (step input key).bind (atPath · rest)

/-- The elements that an output has where the input has an array. -/
def outputArray : Json → List Json
  | .array items => items
  | _ => []

def outputObject : Json → List (Bytes × Json)
  | .object entries => entries
  | _ => []

/-- `array.resize(index + 1)` if there are fewer elements. -/
def resized (items : List Json) (index : Nat) : List Json :=
  items ++ List.replicate (index + 1 - items.length) .null

def selectPath : Json → Json → Path → Json → Json
  | _, _, [], value => value
  | output, .array items, key :: rest, value =>
    match items[leadingIndex key]? with
    | none => output
    | some item =>
      let array := resized (outputArray output) (leadingIndex key)
      .array (array.set (leadingIndex key)
        (selectPath (array.getD (leadingIndex key) .null) item rest value))
  | output, input, key :: rest, value =>
    let entries := outputObject output
    .object (Json.assign entries key
      (selectPath ((entries.lookup key).getD .null) ((input.get key).getD .null) rest value))

/-- The parts that replace a star below a parent. -/
def indices : Option Json → List Bytes
  | some (.array items) => (List.range items.length).map stdToString
  | _ => []

/-- `expand`: the paths behind a first part that are instances of the pattern. -/
def expandFrom (input : Json) : Path → Path → List Path
  | before, [] => [before]
  | before, part :: pattern =>
    if part = ascii "*" then
      (indices (atPath input before)).flatMap fun index =>
        expandFrom input (before ++ [index]) pattern
    else expandFrom input (before ++ [part]) pattern

def expand (input : Json) (pattern : Path) : List Path := expandFrom input [] pattern

/-- `reference`: stars of an argument stand for the parts of the path at the stars of
the pattern. -/
def reference : Path → Path → Path → Path
  | [], _, _ => []
  | part :: more, pattern, path =>
    (if part = ascii "*" ∧ pattern.head? = some (ascii "*") then path.headD [] else part) ::
      reference more pattern.tail path.tail

def descendant : Path → Path → Bool
  | part :: pattern, key :: path =>
    if part ≠ ascii "*" ∧ part ≠ key then false
    else if path = [] then decide (pattern ≠ [])
    else if pattern = [] then false
    else descendant pattern path
  | _, _ => false

/-! ## Uploads -/

structure UploadedFile where
  name : Bytes
  filename : Bytes
  contentType : Bytes
  content : Bytes
  deriving DecidableEq, Repr

def isMultiple (name : Bytes) : Bool := (ascii "[]").isSuffixOf name

def uploadKey (name : Bytes) : Bytes := if isMultiple name then name.take (name.length - 2) else name

/-- The groups of files by their keys, as they are inserted. -/
def uploadGroups : List UploadedFile → List (Bytes × List UploadedFile)
  | [] => []
  | file :: rest =>
    (uploadKey file.name, file :: rest.filter (uploadKey ·.name = uploadKey file.name)) ::
      (uploadGroups rest).filter (·.1 ≠ uploadKey file.name)

def metadata (file : UploadedFile) : Json :=
  .object [(ascii "name", .string file.filename), (ascii "contentType", .string file.contentType),
    (ascii "size", .uint64 (.ofNat file.content.length))]

def groupMultiple : List UploadedFile → Bool
  | [file] => isMultiple file.name
  | _ => true

def groupValue (files : List UploadedFile) : Json :=
  if groupMultiple files then .array (files.map metadata)
  else (files.map metadata).headD .null

/-- The paths under which the files of a group are found, as texts. -/
def groupPaths (name : Bytes) (files : List UploadedFile) : List (Bytes × UploadedFile) :=
  files.zipIdx.map fun (file, i) =>
    (if groupMultiple files then name ++ ascii "." ++ stdToString i else name, file)

/-- The files by the text of their path; of two files the first one counts. -/
abbrev Uploads := List (Bytes × UploadedFile)

def uploadsOf (maps : MapOrder) (files : List UploadedFile) : Uploads :=
  (maps.iterate (uploadGroups files)).flatMap fun group => groupPaths group.1 group.2

/-- The input with the uploads. -/
def augment (maps : MapOrder) (entries : List (Bytes × Json)) (files : List UploadedFile) :
    List (Bytes × Json) :=
  (maps.iterate (uploadGroups files)).foldl
    (fun entries group => Json.assign entries group.1 (groupValue group.2)) entries

/-! ## Rules -/

structure CustomRule where
  message : Bytes
  predicate : Json → Json → Except Exception Bool

/-- What the validator reads beside its input. A count query of the database is asked
for a value, a rule and a field. -/
structure Environment where
  numerals : Numerals
  maps : MapOrder
  mediaType : Bytes → Bytes
  database : Json → ParsedRule → Bytes → Except Exception Bool

structure Context where
  uploads : Option (List UploadedFile)
  customRules : Option (Bytes → Option CustomRule)

def has (rules : List ParsedRule) (name : String) : Bool := rules.any (·.name == ascii name)

/-- The messages of `message` for a field. -/
def message (field : Bytes) (rule : ParsedRule) : Bytes :=
  let name := rule.name
  let first := rule.arguments.headD []
  let subject := ascii "The " ++ field
  if name = ascii "required" ∨ name = ascii "requiredIf" then subject ++ ascii " field is required."
  else if name = ascii "present" then subject ++ ascii " field must be present."
  else if name = ascii "integer" then subject ++ ascii " field must be an integer."
  else if name = ascii "numeric" then subject ++ ascii " field must be numeric."
  else if name = ascii "boolean" then subject ++ ascii " field must be true or false."
  else if name = ascii "email" then subject ++ ascii " field must be a valid email address."
  else if name = ascii "min" then subject ++ ascii " field must be at least " ++ first ++ ascii "."
  else if name = ascii "max" then
    subject ++ ascii " field must not be greater than " ++ first ++ ascii "."
  else if name = ascii "length" ∨ name = ascii "size" then
    subject ++ ascii " field must have size " ++ first ++ ascii "."
  else if name = ascii "same" then subject ++ ascii " field must match " ++ first ++ ascii "."
  else if name = ascii "different" then
    subject ++ ascii " field must differ from " ++ first ++ ascii "."
  else if name = ascii "confirmed" then subject ++ ascii " field confirmation does not match."
  else if name = ascii "accepted" then subject ++ ascii " field must be accepted."
  else subject ++ ascii " field failed the " ++ name ++ ascii " rule."

/-- The rules that are no tests of a value. -/
def controlNames : List Bytes :=
  ["required", "requiredIf", "present", "nullable", "sometimes", "bail"].map ascii

/-- One check of a path: the entry, the path and what is found there. -/
structure Subject where
  environment : Environment
  custom : Bytes → Option CustomRule
  input : Json
  lookup : Path → Option Json
  field : Path
  parsed : List ParsedRule
  path : Path
  value : Json
  file : Option UploadedFile

namespace Subject

variable (subject : Subject)

def text : Bytes :=
  if subject.value.isScalar then subject.value.text subject.environment.numerals else []

/-- What the size rules measure. -/
def measure (name : Bytes) : Bytes :=
  match subject.file, subject.value with
  | some file, _ => stdToString file.content.length
  | none, .array items => stdToString items.length
  | none, .object entries => stdToString entries.length
  | none, value =>
    if (has subject.parsed "numeric" || has subject.parsed "integer" || value.isNumber) &&
        name != ascii "length" then
      if value.isScalar && isNumeric subject.environment.numerals subject.text then subject.text
      else []
    else if value.isString then stdToString subject.text.length else []

/-- The order of a measure and the argument of a size rule. -/
def sizeOrder (measured argument : Bytes) : Int :=
  if subject.file.isNone && subject.value.isNumber && !subject.value.isInteger then
    let value := fun text => Double.value ((subject.environment.numerals.readDouble text).getD 0)
    if value measured < value argument then -1 else if value argument < value measured then 1 else 0
  else compare measured argument

def sizePasses (name argument : Bytes) : Bool :=
  let measured := subject.measure name
  decide (measured ≠ []) &&
    (if name = ascii "min" then decide (0 ≤ subject.sizeOrder measured argument)
      else if name = ascii "max" then decide (subject.sizeOrder measured argument ≤ 0)
      else decide (subject.sizeOrder measured argument = 0))

variable (rule : ParsedRule)

/-- The path that `confirmed`, `same` and `different` compare with. -/
def comparedPath : Path :=
  if rule.name = ascii "confirmed" then
    subject.path.dropLast ++ [subject.path.getLastD [] ++ ascii "_confirmation"]
  else reference (pathOf (rule.arguments.headD [])) subject.field subject.path

def comparedPasses : Bool :=
  subject.file.isNone &&
    (subject.lookup (subject.comparedPath rule)).any fun other =>
      if rule.name = ascii "different" then !equal subject.environment.numerals subject.value other
      else equal subject.environment.numerals subject.value other

def mediaOf (name argument : Bytes) : Bytes :=
  if name = ascii "mimetypes" then argument
  else if argument = ascii "png" then ascii "image/png"
  else if argument = ascii "jpg" ∨ argument = ascii "jpeg" then ascii "image/jpeg"
  else if argument = ascii "gif" then ascii "image/gif"
  else if argument = ascii "webp" then ascii "image/webp"
  else if argument = ascii "pdf" then ascii "application/pdf"
  else if argument = ascii "txt" then ascii "text/plain"
  else ascii "application/octet-stream"

/-- The text behind the last dot, in lower case. -/
def extension (filename : Bytes) : Bytes :=
  if 46 ∈ filename then ((filename.reverse.takeWhile (· != 46)).reverse).map lower else []

/-- A text rule: no file, and a string with the format. -/
def format (test : Bytes → Bool) : Bool :=
  subject.file.isNone && subject.value.isString && test subject.text

def passes : Except Exception Bool :=
  let name := rule.name
  let value := subject.value
  let plain := subject.file.isNone
  if name = ascii "string" then .ok (plain && value.isString)
  else if name = ascii "array" then .ok (plain && value.isArray)
  else if name = ascii "object" then .ok (plain && value.isObject)
  else if name = ascii "integer" then
    .ok (plain && (value.isInteger || (value.isString && isInteger subject.text)))
  else if name = ascii "numeric" then
    .ok (plain && (value.isNumber || value.isString) &&
      isNumeric subject.environment.numerals subject.text)
  else if name = ascii "boolean" then
    .ok (plain && (value.isBoolean || value.isInteger || value.isString) &&
      decide (subject.text ∈ booleanTexts))
  else if name = ascii "accepted" then
    .ok (plain && (value.isString || value.isInteger || value.isBoolean) &&
      decide (subject.text ∈ acceptedTexts))
  else if name = ascii "email" then .ok (subject.format email)
  else if name = ascii "uuid" then .ok (subject.format uuid)
  else if name = ascii "url" then .ok (subject.format url)
  else if name = ascii "date" then .ok (subject.format date)
  else if name = ascii "datetime" then .ok (subject.format datetime)
  else if name = ascii "same" ∨ name = ascii "different" ∨ name = ascii "confirmed" then
    .ok (subject.comparedPasses rule)
  else if name = ascii "in" then
    .ok (plain && value.isScalar && decide (subject.text ∈ rule.arguments))
  else if name = ascii "notIn" then
    .ok (plain && value.isScalar && decide (subject.text ∉ rule.arguments))
  else if name ∈ sizeNames then .ok (subject.sizePasses name (rule.arguments.headD []))
  else if name = ascii "file" then .ok subject.file.isSome
  else if name = ascii "image" then
    .ok (subject.file.any fun file =>
      (ascii "image/").isPrefixOf (subject.environment.mediaType file.content))
  else if name = ascii "mimes" ∨ name = ascii "mimetypes" then
    .ok (subject.file.any fun file => rule.arguments.any fun argument =>
      subject.environment.mediaType file.content == mediaOf name argument)
  else if name = ascii "extensions" then
    .ok (subject.file.any fun file => decide (extension file.filename ∈ rule.arguments))
  else if name = ascii "custom" then
    match subject.custom (rule.arguments.headD []) with
    | some custom => custom.predicate value subject.input
    | none => .error (.outOfRange "unordered_map::at")
  else if name ∈ databaseNames then
    if !plain || !value.isScalar then .ok false
    else subject.environment.database value rule (pathText subject.field)
  else .ok false

def failure : Bytes :=
  if rule.name = ascii "custom" then
    ((subject.custom (rule.arguments.headD [])).map (·.message)).getD []
  else message (pathText subject.path) rule

/-- The loop over the rules of an entry: the messages of those that fail. -/
def failures : List ParsedRule → Except Exception (List Bytes)
  | [] => .ok []
  | rule :: rest => do
    if rule.name ∈ controlNames then failures rest
    else if ← subject.passes rule then failures rest
    else if has subject.parsed "bail" then return [subject.failure rule]
    else return subject.failure rule :: (← failures rest)

end Subject

/-! ## Checking -/

/-- What is configured before any input is looked at. -/
structure Entry where
  rule : Rule
  parsed : List ParsedRule

/-- The fixed data of a run of `check_data`. -/
structure Run where
  environment : Environment
  custom : Bytes → Option CustomRule
  input : Json
  uploads : Uploads
  entries : List Entry
  flat : Bool

namespace Run

variable (run : Run) (path : Path)

def lookup : Option Json :=
  if run.flat then run.input.get (pathText path) else atPath run.input path

variable (entry : Entry)

def paths : List Path :=
  if run.flat then [pathOf entry.rule.field] else expand run.input (pathOf entry.rule.field)

def requiredIf (path : Path) (rule : ParsedRule) : Bool :=
  rule.name == ascii "requiredIf" &&
    (run.lookup (reference (pathOf (rule.arguments.headD [])) (pathOf entry.rule.field) path)).any
      fun other => other.isScalar &&
        decide (other.text run.environment.numerals ∈ rule.arguments.tail)

def isEmpty : Option Json → Bool
  | none => true
  | some .null => true
  | some (.string value) => ruleTrim value == []
  | some (.array items) => items.isEmpty
  | some (.object entries) => entries.isEmpty
  | some _ => false

def file : Option UploadedFile := run.uploads.lookup (pathText path)

def subject (path : Path) (value : Json) : Subject :=
  ⟨run.environment, run.custom, run.input, run.lookup, pathOf entry.rule.field, entry.parsed, path,
    value, run.file path⟩

def hasDescendant : Bool :=
  run.entries.any fun entry => descendant (pathOf entry.rule.field) path

/-- What a value that passed contributes: a container that has more specific entries
contributes only itself. -/
def contribution (value : Json) : Json :=
  if !run.flat && (run.file path).isNone && run.hasDescendant path then
    match value with
    | .array items => .array (items.map fun _ => .null)
    | .object _ => .object []
    | other => other
  else value

/-- The outcome of an entry at a path. -/
structure Outcome where
  messages : List Bytes
  selected : Option Json

def checkPath (path : Path) : Except Exception Outcome :=
  let value := run.lookup path
  let parsed := entry.parsed
  if value.isNone && has parsed "sometimes" then .ok ⟨[], none⟩
  else if (has parsed "required" || parsed.any (run.requiredIf entry path)) && isEmpty value then
    .ok ⟨[message (pathText path) ⟨ascii "required", []⟩], none⟩
  else
    match value with
    | none =>
      .ok ⟨if has parsed "present" then [message (pathText path) ⟨ascii "present", []⟩] else [],
        none⟩
    | some value =>
      if has parsed "nullable" && (value.isNull || (run.flat && isEmpty (some value))) then
        .ok ⟨[], some value⟩
      else do
        let messages ← (run.subject entry path value).failures parsed
        return ⟨messages, if messages = [] then some (run.contribution path value) else none⟩

abbrev Errors := AList fun _ : Path => List Bytes

/-- `result.errors` and `selected`. -/
structure Progress where
  errors : Errors
  selected : List (Path × Json)

variable (progress : Progress)

def record (path : Path) (outcome : Outcome) : Progress :=
  { errors :=
      if outcome.messages = [] then progress.errors
      else progress.errors.insert path
        (((progress.errors.lookup path).getD []) ++ outcome.messages)
    selected := progress.selected ++ (outcome.selected.map fun value => (path, value)).toList }

/-- The loops over the entries and their paths. -/
def checkAll : Except Exception Progress :=
  (run.entries.flatMap fun entry => (run.paths entry).map fun path => (entry, path)).foldlM
    (fun progress item => do return record progress item.2 (← run.checkPath item.1 item.2)) ⟨∅, []⟩

/-- `std::stable_sort` by the number of dots. -/
def sorted (selected : List (Path × Json)) : List (Path × Json) :=
  selected.insertionSort fun first second => first.1.length ≤ second.1.length

def ancestorFailed (errors : Errors) (path : Path) : Bool :=
  errors.keys.any fun failed => failed.isPrefixOf path

/-- The values that are put together, in their order. -/
def survivors : List (Path × Json) :=
  (sorted progress.selected).filter fun item => !ancestorFailed progress.errors item.1

def put (output : Json) (item : Path × Json) : Json :=
  if run.flat then .object (Json.assign (outputObject output) (pathText item.1) item.2)
  else selectPath output run.input item.1 item.2

def values : Json := (survivors progress).foldl run.put (.object [])

end Run

structure StructuredResult where
  values : Json
  errors : Run.Errors

/-- The custom rules of an entry must be registered. -/
def requireCustom (context : Context) (parsed : List ParsedRule) : Except Exception Unit :=
  (parsed.filter (·.name = ascii "custom")).forM fun rule =>
    match context.customRules with
    | none => .error (logicError (ascii "Custom validation requires a rule registry"))
    | some registry =>
      require (registry (rule.arguments.headD [])).isSome
        (ascii "Unknown custom validation rule '" ++ rule.arguments.headD [] ++ ascii "'")

/-- The loop over the definitions, with the fields that came before. -/
def configure (environment : Environment) (context : Context) :
    List Bytes → List Rule → Except Exception (List Entry)
  | _, [] => .ok []
  | before, rule :: rest => do
    require (decide (rule.field ∉ before)) (ascii "Duplicate validation field path")
    let parsed ← parseRuleExpression environment.numerals rule.field rule.expression
    requireCustom context parsed
    let more ← configure environment context (before ++ [rule.field]) rest
    return ⟨rule, parsed⟩ :: more

variable (environment : Environment)

def runOf (body : List (Bytes × Json)) (context : Context) (entries : List Entry) (flat : Bool) :
    Run where
  environment := environment
  custom := fun name => context.customRules.bind (· name)
  input := .object (augment environment.maps body (context.uploads.getD []))
  uploads := uploadsOf environment.maps (context.uploads.getD [])
  entries := entries
  flat := flat

def checkData (source : Json) (definitions : List Rule) (context : Context) (flat : Bool) :
    Except Exception StructuredResult :=
  match source with
  | .object body => do
    let entries ← configure environment context [] definitions
    let run := runOf environment body context entries flat
    let progress ← run.checkAll
    return ⟨run.values progress, progress.errors⟩
  | _ => .error (.invalidArgument "Structured validation requires an object")

/-- `Validator::check` on structured input. -/
def check (input : Json) (rules : List Rule) (context : Context) :
    Except Exception StructuredResult :=
  checkData environment input rules context false

end Gungnir.Validation

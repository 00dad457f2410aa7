import Gungnir.Http.JsonParser

/-!
# The payload of a job

`payload` and `from_payload` of a generated job class: `make_json` over the types that
`job_payload_type` accepts, floating point left out, the text of the object, and
`required` with the type-directed `decode`.
-/

namespace Gungnir.Queue.Job

open Gungnir.Core
open Gungnir.Http (Json MapOrder JsonParser.isDigit JsonParser.fromCharsInt64)

/-! ## Decimals -/

/-- The optional sign in front of the digits. -/
def skipSign : Bytes → Bytes
  | 43 :: rest => rest
  | 45 :: rest => rest
  | value => value

/-- The digits behind an optional point. -/
def skipFraction : Bytes → Bytes × Bytes
  | 46 :: rest => (rest.takeWhile JsonParser.isDigit, rest.dropWhile JsonParser.isDigit)
  | value => ([], value)

/-- The checks of the constructor of `Decimal`. -/
def checkDecimal (value : Bytes) : Except Exception Unit :=
  let unsigned := skipSign value
  let whole := unsigned.takeWhile JsonParser.isDigit
  let (fraction, rest) := skipFraction (unsigned.dropWhile JsonParser.isDigit)
  if whole = [] ∧ fraction = [] then .error (.invalidArgument "Invalid decimal value")
  else
    match rest with
    | [] => .ok ()
    | mark :: exponent =>
      if mark = 101 ∨ mark = 69 then
        if (skipSign exponent).takeWhile JsonParser.isDigit = [] then
          .error (.invalidArgument "Invalid decimal exponent")
        else if (skipSign exponent).dropWhile JsonParser.isDigit ≠ [] then
          .error (.invalidArgument "Invalid decimal value")
        else .ok ()
      else .error (.invalidArgument "Invalid decimal value")

/-- `model::Decimal` keeps the text that its constructor accepted. -/
structure Decimal where
  string : Bytes
  accepted : checkDecimal string = .ok ()
  deriving DecidableEq

def Decimal.create (value : Bytes) : Except Exception Decimal :=
  match accepted : checkDecimal value with
  | .ok () => .ok ⟨value, accepted⟩
  | .error raised => .error raised

theorem Decimal.create_string (decimal : Decimal) : create decimal.string = .ok decimal := by
  unfold create
  split
  · rfl
  · rename_i raised rejected
    rw [decimal.accepted] at rejected
    cases rejected

/-! ## Types and values -/

inductive Scalar where
  | int
  | uint64
  | bool
  | string
  | decimal
  | json
  deriving DecidableEq, Repr

@[reducible] def Scalar.Value : Scalar → Type
  | .int => Int64
  | .uint64 => UInt64
  | .bool => Bool
  | .string => Bytes
  | .decimal => Decimal
  | .json => Json

/-- `T{}`. -/
def Scalar.default : (scalar : Scalar) → scalar.Value
  | .int => 0
  | .uint64 => 0
  | .bool => false
  | .string => []
  | .decimal => ⟨ascii "0", rfl⟩
  | .json => .null

/-- The type of an attribute of a model: a scalar, or an optional one. -/
inductive AttributeType where
  | plain (scalar : Scalar)
  | nullable (scalar : Scalar)
  deriving DecidableEq, Repr

@[reducible] def AttributeType.Value : AttributeType → Type
  | .plain scalar => scalar.Value
  | .nullable scalar => Option scalar.Value

def AttributeType.default : (type : AttributeType) → type.Value
  | .plain scalar => scalar.default
  | .nullable _ => none

/-- `Field<T>`: the value and the original value, each if it is initialized. A value that
is not initialized is `T{}`. -/
structure Field (α : Type) where
  current : Option α
  original : Option α

/-- An attribute of a model class, with the initializer of its field. -/
structure Attribute where
  name : Bytes
  type : AttributeType
  initial : Option type.Value

/-- The fields of a model. -/
@[reducible] def Attributes : List Attribute → Type
  | [] => Unit
  | descriptor :: rest => Field descriptor.type.Value × Attributes rest

/-- A model class: its attributes, the lists `hidden` and `visible` (empty if there is
none) and its accessors. -/
structure ModelType where
  attributes : List Attribute
  hidden : List Bytes
  visible : List Bytes
  accessors : List (Bytes × (Attributes attributes → Json))

/-- A model object. -/
structure Model (type : ModelType) where
  attributes : Attributes type.attributes
  exists_ : Bool
  recentlyCreated : Bool
  softDeleted : Bool
  relationCounts : List (Bytes × UInt64)

inductive PayloadType where
  | scalar (kind : Scalar)
  | model (type : ModelType)
  | optional (inner : PayloadType)
  | list (inner : PayloadType)
  | map (inner : PayloadType)

/-- A map lists its entries in the order of iteration. -/
@[reducible] def PayloadType.Value : PayloadType → Type
  | .scalar kind => kind.Value
  | .model type => Model type
  | .optional inner => Option inner.Value
  | .list inner => List inner.Value
  | .map inner => List (Bytes × inner.Value)

/-! ## Writing -/

def makeScalar : (scalar : Scalar) → scalar.Value → Json
  | .int, value => .int64 value
  | .uint64, value => .uint64 value
  | .bool, value => .boolean value
  | .string, value => .string value
  | .decimal, value => .string value.string
  | .json, value => value

/-- `make_json` on `std::optional`. -/
def makeOptional {α : Type} (make : α → Json) : Option α → Json
  | none => .null
  | some value => make value

def makeAttribute : (type : AttributeType) → type.Value → Json
  | .plain scalar, value => makeScalar scalar value
  | .nullable scalar, value => makeOptional (makeScalar scalar) value

def ModelType.serializes (type : ModelType) (name : Bytes) : Bool :=
  if name ∈ type.hidden then false
  else if type.visible ≠ [] then decide (name ∈ type.visible) else true

variable (numerals : Numerals)

/-- `to_value`, as `make_json` writes it: structured values are kept as text. -/
def persistedScalar : (scalar : Scalar) → scalar.Value → Json
  | .json, value => .string (value.dump numerals)
  | .int, value => .int64 value
  | .uint64, value => .uint64 value
  | .bool, value => .boolean value
  | .string, value => .string value
  | .decimal, value => .string value.string

def persistedValue : (type : AttributeType) → type.Value → Json
  | .plain scalar, value => persistedScalar numerals scalar value
  | .nullable scalar, value => makeOptional (persistedScalar numerals scalar) value

/-- `attributes()`: the attributes that are initialized. -/
def initialized (numerals : Numerals) : (attributes : List Attribute) → Attributes attributes →
    List (Bytes × Json)
  | [], _ => []
  | descriptor :: rest, (field, fields) =>
    (field.current.map fun value =>
      (descriptor.name, persistedValue numerals descriptor.type value)).toList ++
      initialized numerals rest fields

/-- `serialized_attributes`, with the loaded relation counts. -/
def serializedAttributes {type : ModelType} (model : Model type) : List (Bytes × Json) :=
  (model.relationCounts.foldl
    (fun entries count => Json.assign entries (count.1 ++ ascii "_count") (.uint64 count.2))
    (initialized numerals type.attributes model.attributes)).filter fun entry =>
      type.serializes entry.1

/-- An attribute that is listed is written with its own type. -/
def overwriteField (descriptor : Attribute) (field : Field descriptor.type.Value)
    (entries : List (Bytes × Json)) : List (Bytes × Json) :=
  if (entries.lookup descriptor.name).isSome then
    Json.assign entries descriptor.name
      (makeAttribute descriptor.type (field.current.getD descriptor.type.default))
  else entries

def overwrite : (attributes : List Attribute) → Attributes attributes →
    List (Bytes × Json) → List (Bytes × Json)
  | [], _, entries => entries
  | descriptor :: rest, (field, fields), entries =>
    overwrite rest fields (overwriteField descriptor field entries)

def appendAccessors {type : ModelType} (model : Model type) (entries : List (Bytes × Json)) :
    List (Bytes × Json) :=
  type.accessors.foldl (fun entries accessor =>
    if type.serializes accessor.1 then
      Json.assign entries accessor.1 (accessor.2 model.attributes)
    else entries) entries

def modelEntries {type : ModelType} (model : Model type) : List (Bytes × Json) :=
  appendAccessors model
    (overwrite type.attributes model.attributes (serializedAttributes numerals model))

/-- `make_json` by the type of the value. -/
def makeJson (maps : MapOrder) (numerals : Numerals) : (type : PayloadType) → type.Value → Json
  | .scalar kind, value => makeScalar kind value
  | .model _, value => .object (maps.iterate (modelEntries numerals value))
  | .optional inner, value => makeOptional (makeJson maps numerals inner) value
  | .list inner, value => .array (value.map (makeJson maps numerals inner))
  | .map inner, value =>
    .object (maps.iterate (value.map fun entry => (entry.1, makeJson maps numerals inner entry.2)))

/-! ## Reading -/

def requireKind (kind : Bool) (text : String) : Except Exception Unit :=
  if kind then .ok () else .error (.invalidArgument text)

def decodeScalar : (scalar : Scalar) → Json → Except Exception scalar.Value
  | .int, value => do
    requireKind value.isInteger "Expected integer payload"
    match JsonParser.fromCharsInt64 (value.text numerals) with
    | some number => .ok number
    | none => .error (.invalidArgument "Invalid integer payload")
  | .uint64, value => do
    requireKind value.isInteger "Expected integer payload"
    match fromChars sizeBound (value.text numerals) with
    | some number => .ok (.ofNat number)
    | none => .error (.invalidArgument "Invalid integer payload")
  | .bool, value => do
    requireKind value.isBoolean "Expected bool payload"
    return value.text numerals == ascii "true"
  | .string, value => do
    requireKind value.isString "Expected string payload"
    return value.text numerals
  | .decimal, value => do
    requireKind value.isString "Exact decimal payload must be a string"
    Decimal.create (value.text numerals)
  | .json, value => .ok value

def decodeOptional {α : Type} (decode : Json → Except Exception α) (value : Json) :
    Except Exception (Option α) :=
  if value.isNull then .ok none else (decode value).map some

def decodeAttribute :
    (type : AttributeType) → Json → Except Exception type.Value
  | .plain scalar, value => decodeScalar numerals scalar value
  | .nullable scalar, value => decodeOptional (decodeScalar numerals scalar) value

/-- A field of `T result;` that is assigned if the object has its name. -/
def decodeField (descriptor : Attribute) (item : Option Json) :
    Except Exception (Field descriptor.type.Value) :=
  match item with
  | none => .ok ⟨descriptor.initial, descriptor.initial⟩
  | some item => do
    return ⟨some (← decodeAttribute numerals descriptor.type item), descriptor.initial⟩

def decodeAttributes (numerals : Numerals) (value : Json) :
    (attributes : List Attribute) → Except Exception (Attributes attributes)
  | [] => .ok ()
  | descriptor :: rest => do
    let field ← decodeField numerals descriptor (value.get descriptor.name)
    let fields ← decodeAttributes numerals value rest
    return (field, fields)

def decodeModel (type : ModelType) (value : Json) :
    Except Exception (Model type) := do
  requireKind value.isObject "Expected model payload"
  return ⟨← decodeAttributes numerals value type.attributes, false, false, false, []⟩

def decode (numerals : Numerals) : (type : PayloadType) → Json → Except Exception type.Value
  | .scalar kind, value => decodeScalar numerals kind value
  | .model type, value => decodeModel numerals type value
  | .optional inner, value => decodeOptional (decode numerals inner) value
  | .list inner, value =>
    match value with
    | .array items => items.mapM (decode numerals inner)
    | _ => .error (.logicError "JSON value is not an array")
  | .map inner, value =>
    match value with
    | .object entries => entries.mapM fun entry => do
      return (entry.1, ← decode numerals inner entry.2)
    | _ => .error (.invalidArgument "Expected map payload")

/-! ## Jobs -/

/-- The fields of a job that are not injected. -/
abbrev JobType := List (Bytes × PayloadType)

@[reducible] def JobType.Values : JobType → Type
  | [] => Unit
  | (_, type) :: rest => type.Value × Values rest

def payloadEntries (maps : MapOrder) (numerals : Numerals) :
    (job : JobType) → job.Values → List (Bytes × Json)
  | [], _ => []
  | (name, type) :: rest, (value, values) =>
    (name, makeJson maps numerals type value) :: payloadEntries maps numerals rest values

/-- `payload` of a job; its fields have different names. -/
def payload (maps : MapOrder) (numerals : Numerals) (job : JobType) (values : job.Values) : Bytes :=
  Json.dump numerals (.object (maps.iterate (payloadEntries maps numerals job values)))

def required (type : PayloadType) (value : Json) (key : Bytes) : Except Exception type.Value :=
  match value.get key with
  | none => .error ⟨.invalidArgument, ascii "Missing job payload field: " ++ key⟩
  | some item => decode numerals type item

def requiredFields (numerals : Numerals) (value : Json) :
    (job : JobType) → Except Exception job.Values
  | [] => .ok ()
  | (name, type) :: rest => do
    let field ← required numerals type value name
    let fields ← requiredFields numerals value rest
    return (field, fields)

def fromPayload (maps : MapOrder) (numerals : Numerals) (job : JobType) (text : Bytes) :
    Except Exception job.Values := do
  let value ← Json.parse maps numerals text
  requiredFields numerals value job

end Gungnir.Queue.Job

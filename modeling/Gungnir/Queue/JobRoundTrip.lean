import Gungnir.Queue.JobPayload
import Gungnir.Http.JsonRoundTrip

/-!
# The round trip of a job payload

Every payload is read back. The fields are those the job was dispatched with exactly if
no structured value holds an unsigned integer that fits `Int64`, no optional holds a
value that is written as null, and every model is a new one whose fields are serialized
or have the value of their initializer.
-/

namespace Gungnir.Queue.Job

open Gungnir.Core Gungnir.Library List
open Gungnir.Http (Json MapOrder JsonParser.fromCharsInt64 JsonParser.fromCharsInt64_signed
  JsonParser.stdToStringSigned_ofNat)

/-! ## Values -/

/-- Equality of scalars: `operator==`. -/
def Scalar.Same : (scalar : Scalar) → scalar.Value → scalar.Value → Prop
  | .json, first, second => Json.same first second = true
  | .int, first, second => first = second
  | .uint64, first, second => first = second
  | .bool, first, second => first = second
  | .string, first, second => first = second
  | .decimal, first, second => first = second

def AttributeType.Same : (type : AttributeType) → type.Value → type.Value → Prop
  | .plain scalar => scalar.Same
  | .nullable scalar => Option.Rel scalar.Same

structure Field.Same (type : AttributeType) (first second : Field type.Value) : Prop where
  current : Option.Rel type.Same first.current second.current
  original : Option.Rel type.Same first.original second.original

def Each (property : (descriptor : Attribute) → Field descriptor.type.Value → Prop) :
    (attributes : List Attribute) → Attributes attributes → Prop
  | [], _ => True
  | descriptor :: rest, (field, fields) => property descriptor field ∧ Each property rest fields

def SameAttributes : (attributes : List Attribute) → Attributes attributes → Attributes attributes →
    Prop
  | [], _, _ => True
  | descriptor :: rest, (first, firsts), (second, seconds) =>
    Field.Same descriptor.type first second ∧ SameAttributes rest firsts seconds

structure Model.Same {type : ModelType} (first second : Model type) : Prop where
  attributes : SameAttributes type.attributes first.attributes second.attributes
  exists_ : first.exists_ = second.exists_
  recentlyCreated : first.recentlyCreated = second.recentlyCreated
  softDeleted : first.softDeleted = second.softDeleted
  relationCounts : first.relationCounts = second.relationCounts

/-- Equality of values; maps are equal if they have as many entries and every entry of
the first is one of the second. -/
def PayloadType.Same : (type : PayloadType) → type.Value → type.Value → Prop
  | .scalar kind, first, second => kind.Same first second
  | .model _, first, second => Model.Same first second
  | .optional inner, first, second => Option.Rel inner.Same first second
  | .list inner, first, second => Forall₂ inner.Same first second
  | .map inner, first, second =>
    first.length = second.length ∧
      ∀ entry ∈ first, ∃ value, (entry.1, value) ∈ second ∧ inner.Same entry.2 value

def JobType.Same : (job : JobType) → job.Values → job.Values → Prop
  | [], _, _ => True
  | (_, type) :: rest, (first, firsts), (second, seconds) =>
    type.Same first second ∧ Same rest firsts seconds

/-! ## Values that can be -/

/-- A structured value whose maps have each key once, without floating point. -/
def Plain (json : Json) : Prop := json.noDouble = true ∧ json.distinctKeys = true

def Scalar.WellFormed : (scalar : Scalar) → scalar.Value → Prop
  | .json, value => Plain value
  | .int, _ => True
  | .uint64, _ => True
  | .bool, _ => True
  | .string, _ => True
  | .decimal, _ => True

def AttributeType.WellFormed : (type : AttributeType) → type.Value → Prop
  | .plain scalar, value => scalar.WellFormed value
  | .nullable scalar, value => ∀ inner, value = some inner → scalar.WellFormed inner

/-- A model class as the validator accepts it: the members have different names. -/
structure ModelType.WellFormed (type : ModelType) : Prop where
  distinct : (type.attributes.map (·.name)).Nodup
  apart : ∀ accessor ∈ type.accessors, accessor.1 ∉ type.attributes.map (·.name)

structure Model.WellFormed {type : ModelType} (model : Model type) : Prop where
  declared : type.WellFormed
  fields : Each (fun descriptor field => ∀ value, field.current = some value →
    descriptor.type.WellFormed value) type.attributes model.attributes
  accessors : ∀ accessor ∈ type.accessors, Plain (accessor.2 model.attributes)

def PayloadType.WellFormed : (type : PayloadType) → type.Value → Prop
  | .scalar kind, value => kind.WellFormed value
  | .model _, value => Model.WellFormed value
  | .optional inner, value => ∀ held, value = some held → inner.WellFormed held
  | .list inner, value => ∀ item ∈ value, inner.WellFormed item
  | .map inner, value =>
    (value.map (·.1)).Nodup ∧ ∀ entry ∈ value, inner.WellFormed entry.2

def JobType.WellFormed : (job : JobType) → job.Values → Prop
  | [], _ => True
  | (_, type) :: rest, (value, values) => type.WellFormed value ∧ WellFormed rest values

/-! ## Values that come back -/

def Scalar.Restorable : (scalar : Scalar) → scalar.Value → Prop
  | .json, value => value.noSmallUnsigned = true
  | .int, _ => True
  | .uint64, _ => True
  | .bool, _ => True
  | .string, _ => True
  | .decimal, _ => True

/-- An optional value comes back unless it is written as null. -/
def RestorableOptional {α : Type} (make : α → Json) (restorable : α → Prop) (value : Option α) :
    Prop :=
  ∀ held, value = some held → (make held).isNull = false ∧ restorable held

def AttributeType.Restorable : (type : AttributeType) → type.Value → Prop
  | .plain scalar, value => scalar.Restorable value
  | .nullable scalar, value => RestorableOptional (makeScalar scalar) scalar.Restorable value

/-- A value that is serialized comes back, and else the value of the initializer. -/
def Attribute.Restorable (descriptor : Attribute) (serialized : Bool) :
    Option descriptor.type.Value → Prop
  | none => Option.Rel descriptor.type.Same descriptor.initial none
  | some value =>
    if serialized then descriptor.type.Restorable value
    else Option.Rel descriptor.type.Same descriptor.initial (some value)

structure Field.Restorable (serialized : Bool) (descriptor : Attribute)
    (field : Field descriptor.type.Value) : Prop where
  original : Option.Rel descriptor.type.Same descriptor.initial field.original
  current : descriptor.Restorable serialized field.current

structure Model.Restorable {type : ModelType} (model : Model type) : Prop where
  attributes : Each (fun descriptor => Field.Restorable (type.serializes descriptor.name) descriptor)
    type.attributes model.attributes
  exists_ : model.exists_ = false
  recentlyCreated : model.recentlyCreated = false
  softDeleted : model.softDeleted = false
  relationCounts : model.relationCounts = []

def PayloadType.Restorable (maps : MapOrder) (numerals : Numerals) :
    (type : PayloadType) → type.Value → Prop
  | .scalar kind, value => kind.Restorable value
  | .model _, value => Model.Restorable value
  | .optional inner, value =>
    RestorableOptional (makeJson maps numerals inner) (inner.Restorable maps numerals) value
  | .list inner, value => ∀ item ∈ value, inner.Restorable maps numerals item
  | .map inner, value => ∀ entry ∈ value, inner.Restorable maps numerals entry.2

def JobType.Restorable (maps : MapOrder) (numerals : Numerals) : (job : JobType) → job.Values → Prop
  | [], _ => True
  | (_, type) :: rest, (value, values) =>
    type.Restorable maps numerals value ∧ Restorable maps numerals rest values

/-! ## Scalars and optionals -/

variable {maps : MapOrder} {numerals : Numerals}

/-- A value that is written comes back as some value, which is the same if it is
restorable. -/
def Returns {α : Type} (maps : MapOrder) (make : α → Json) (decode : Json → Except Exception α)
    (same : α → α → Prop) (restorable : α → Prop) (value : α) : Prop :=
  ∃ result, decode ((make value).reread maps) = .ok result ∧
    (same result value ↔ restorable value)

theorem isNull_reread (json : Json) : (json.reread maps).isNull = json.isNull := by
  cases json with
  | uint64 value =>
    rw [Json.reread]
    split <;> rfl
  | array values =>
    rfl
  | object values =>
    rfl
  | _ => rfl

theorem decodeScalar_unsigned (value : UInt64) :
    decodeScalar numerals .uint64 ((Json.uint64 value).reread maps) = .ok value := by
  have read : fromChars sizeBound (stdToString value.toNat) = some value.toNat :=
    Decimal.parse_print value.toNat_lt
  have text : ((Json.uint64 value).reread maps).text numerals = stdToString value.toNat ∧
      ((Json.uint64 value).reread maps).isInteger = true := by
    rw [Json.reread]
    split
    · rename_i fits
      exact ⟨JsonParser.stdToStringSigned_ofNat fits, rfl⟩
    · exact ⟨rfl, rfl⟩
  dsimp only [decodeScalar]
  rw [text.1, text.2, read]
  show Except.ok (UInt64.ofNat value.toNat) = .ok value
  rw [UInt64.ofNat_toNat]

theorem returns_scalar (kind : Scalar) (value : kind.Value) (wellFormed : kind.WellFormed value) :
    Returns maps (makeScalar kind) (decodeScalar numerals kind) kind.Same kind.Restorable value := by
  cases kind with
  | int =>
    refine ⟨value, ?_, iff_of_true rfl trivial⟩
    have read : JsonParser.fromCharsInt64 ((Json.reread maps (.int64 value)).text numerals) =
        some value := JsonParser.fromCharsInt64_signed value
    simp only [makeScalar, decodeScalar, read]
    rfl
  | uint64 => exact ⟨value, decodeScalar_unsigned value, iff_of_true rfl trivial⟩
  | bool =>
    refine ⟨value, ?_, iff_of_true rfl trivial⟩
    cases value <;> rfl
  | string => exact ⟨value, rfl, iff_of_true rfl trivial⟩
  | decimal => exact ⟨value, value.create_string, iff_of_true rfl trivial⟩
  | json => exact ⟨_, rfl, Json.same_reread wellFormed.2⟩

variable {α : Type} {make : α → Json} {decode : Json → Except Exception α} {same : α → α → Prop}
  {restorable : α → Prop}

theorem returns_optional {value : Option α}
    (inner : ∀ held, value = some held → Returns maps make decode same restorable held) :
    Returns maps (makeOptional make) (decodeOptional decode) (Option.Rel same)
      (RestorableOptional make restorable) value := by
  cases value with
  | none =>
    refine ⟨none, rfl, iff_of_true .none ?_⟩
    intro held impossible
    cases impossible
  | some held =>
    obtain ⟨result, read, equal⟩ := inner held rfl
    show ∃ found, (if ((make held).reread maps).isNull then Except.ok none
      else (decode ((make held).reread maps)).map some) = .ok found ∧ _
    rw [isNull_reread, read]
    cases null : (make held).isNull with
    | true =>
      refine ⟨none, rfl, iff_of_false nofun ?_⟩
      intro holds
      have written := (holds held rfl).1
      rw [null] at written
      cases written
    | false =>
      refine ⟨some result, rfl, ?_⟩
      constructor
      · intro related other chosen
        cases chosen
        cases related with
        | some same => exact ⟨null, equal.mp same⟩
      · intro holds
        exact .some (equal.mpr (holds held rfl).2)

variable (type : AttributeType)

theorem returns_attribute (value : type.Value) (wellFormed : type.WellFormed value) :
    Returns maps (makeAttribute type) (decodeAttribute numerals type) type.Same type.Restorable
      value := by
  cases type with
  | plain scalar => exact returns_scalar scalar value wellFormed
  | nullable scalar =>
    exact returns_optional fun held chosen => returns_scalar scalar held (wellFormed held chosen)

/-! ## Entries of an object -/

theorem lookup_filter {test : Bytes → Bool} (entries : List (Bytes × Json)) (key : Bytes) :
    (entries.filter fun entry => test entry.1).lookup key =
      if test key then entries.lookup key else none := by
  induction entries with
  | nil => simp
  | cons entry rest ih =>
    obtain ⟨name, value⟩ := entry
    by_cases same : key = name
    · subst same
      cases kept : test key with
      | true => simp [kept]
      | false => simp [kept, ih]
    · have differs : (key == name) = false := beq_eq_false_iff_ne.mpr same
      cases kept : test name with
      | true => simp only [filter_cons, kept, if_true, lookup_cons, differs, ih]
      | false =>
        simp only [filter_cons, kept, Bool.false_eq_true, if_false, lookup_cons,
          differs, ih]

theorem keys_assign (entries : List (Bytes × Json)) (key : Bytes) (value : Json) :
    (Json.assign entries key value).map (·.1) =
      if key ∈ entries.map (·.1) then entries.map (·.1) else entries.map (·.1) ++ [key] := by
  induction entries with
  | nil => simp [Json.assign]
  | cons entry rest ih =>
    obtain ⟨name, other⟩ := entry
    by_cases same : name = key
    · simp [Json.assign, same]
    · have differs : key ≠ name := fun equal => same equal.symm
      rw [Json.assign, if_neg same, map_cons, ih]
      by_cases member : key ∈ rest.map (·.1)
      · simp [member]
      · simp [member, differs]

variable {entries : List (Bytes × Json)}

theorem nodup_assign (distinct : (entries.map (·.1)).Nodup) (key : Bytes) (value : Json) :
    ((Json.assign entries key value).map (·.1)).Nodup := by
  rw [keys_assign]
  split
  · exact distinct
  · rename_i fresh
    exact nodup_append.mpr ⟨distinct, nodup_singleton key, by
      rintro first member second single rfl
      exact fresh (mem_singleton.mp single ▸ member)⟩

theorem forall_assign {property : Json → Prop} (all : ∀ entry ∈ entries, property entry.2)
    {value : Json} (holds : property value) (key : Bytes) :
    ∀ entry ∈ Json.assign entries key value, property entry.2 := by
  induction entries with
  | nil => exact forall_mem_singleton.mpr holds
  | cons first rest ih =>
    obtain ⟨here, further⟩ := forall_mem_cons.mp all
    rw [Json.assign]
    split
    · exact forall_mem_cons.mpr ⟨holds, further⟩
    · exact forall_mem_cons.mpr ⟨here, ih further⟩

theorem Plain.object (distinct : (entries.map (·.1)).Nodup)
    (all : ∀ entry ∈ entries, Plain entry.2) : Plain (.object entries) :=
  ⟨Json.all_object.mpr ⟨rfl, fun entry member => (all entry member).1⟩,
    Json.all_object.mpr ⟨decide_eq_true distinct, fun entry member => (all entry member).2⟩⟩

theorem Plain.array {items : List Json} (all : ∀ item ∈ items, Plain item) : Plain (.array items) :=
  ⟨Json.all_array.mpr ⟨rfl, fun item member => (all item member).1⟩,
    Json.all_array.mpr ⟨rfl, fun item member => (all item member).2⟩⟩

theorem nodup_iterate (distinct : (entries.map (·.1)).Nodup) :
    ((maps.iterate entries).map (·.1)).Nodup :=
  ((MapOrder.iterate_perm distinct).map _).nodup_iff.mpr distinct

theorem Plain.iterate (distinct : (entries.map (·.1)).Nodup)
    (all : ∀ entry ∈ entries, Plain entry.2) : Plain (.object (maps.iterate entries)) :=
  .object (nodup_iterate distinct) fun entry member =>
    all entry ((MapOrder.iterate_perm distinct).mem_iff.mp member)

/-- What an object that is read back has under a key. -/
theorem get_reread (distinct : (entries.map (·.1)).Nodup) (key : Bytes) :
    ((Json.object (maps.iterate entries)).reread maps).get key =
      (entries.lookup key).map (Json.reread maps) := by
  have keys : (((maps.iterate entries).map fun entry =>
      (entry.1, entry.2.reread maps)).map (·.1)).Nodup := by
    rw [Json.keys_rereadEntries]
    exact nodup_iterate distinct
  rw [Json.reread_object]
  show (maps.iterate _).lookup key = _
  rw [MapOrder.lookup_iterate keys, Http.lookup_map, MapOrder.lookup_iterate distinct]

/-! ## Fields of a model -/

variable {attributes : List Attribute}

theorem Each.mono {first second : (descriptor : Attribute) → Field descriptor.type.Value → Prop}
    (implies : ∀ descriptor ∈ attributes, ∀ field, first descriptor field → second descriptor field)
    {fields : Attributes attributes} (holds : Each first attributes fields) :
    Each second attributes fields := by
  induction attributes with
  | nil => trivial
  | cons descriptor rest ih =>
    obtain ⟨here, others⟩ := forall_mem_cons.mp implies
    exact ⟨here _ holds.1, ih others holds.2⟩

theorem Each.and {first second : (descriptor : Attribute) → Field descriptor.type.Value → Prop}
    {fields : Attributes attributes} (holds : Each first attributes fields)
    (holdsToo : Each second attributes fields) :
    Each (fun descriptor field => first descriptor field ∧ second descriptor field) attributes
      fields := by
  induction attributes with
  | nil => trivial
  | cons descriptor rest ih => exact ⟨⟨holds.1, holdsToo.1⟩, ih holds.2 holdsToo.2⟩

theorem keys_initialized (attributes : List Attribute) (fields : Attributes attributes) :
    ((initialized numerals attributes fields).map (·.1)).Sublist (attributes.map (·.name)) := by
  induction attributes with
  | nil => exact .slnil
  | cons descriptor rest ih =>
    obtain ⟨field, fields⟩ := fields
    rw [initialized, map_append, map_cons]
    cases field.current with
    | none => exact (ih fields).cons _
    | some value => exact (ih fields).cons_cons _

theorem lookup_initialized {attributes : List Attribute}
    (distinct : (attributes.map (·.name)).Nodup) (fields : Attributes attributes) :
    Each (fun descriptor field =>
      ((initialized numerals attributes fields).lookup descriptor.name).isSome =
        field.current.isSome) attributes fields := by
  induction attributes with
  | nil => trivial
  | cons descriptor rest ih =>
    obtain ⟨field, fields⟩ := fields
    rw [map_cons, nodup_cons] at distinct
    refine ⟨?_, ?_⟩
    · dsimp only
      rw [initialized]
      cases field.current with
      | none =>
        have absent : (initialized numerals rest fields).lookup descriptor.name = none := by
          rw [lookup_eq_none_iff]
          intro entry member
          have named := (keys_initialized rest fields).subset
            (mem_map.mpr ⟨entry, member, rfl⟩)
          exact bne_iff_ne.mpr fun same : descriptor.name = entry.1 =>
            distinct.1 (same ▸ named)
        simp [absent]
      | some value => simp
    · refine (ih distinct.2 fields).mono fun other member _ holds => ?_
      have skipped : ∀ entries : List (Bytes × Json), ((field.current.map fun value =>
          (descriptor.name, persistedValue numerals descriptor.type value)).toList ++
            entries).lookup other.name = entries.lookup other.name := by
        intro entries
        cases field.current with
        | none => rfl
        | some value =>
          have differs : (other.name == descriptor.name) = false :=
            beq_eq_false_iff_ne.mpr fun same => distinct.1 (same ▸ mem_map_of_mem member)
          simp [lookup_cons, differs]
      rw [initialized, skipped]
      exact holds

theorem lookup_overwriteField (descriptor : Attribute) (field : Field descriptor.type.Value)
    (entries : List (Bytes × Json)) {name : Bytes} (differs : name ≠ descriptor.name) :
    (overwriteField descriptor field entries).lookup name = entries.lookup name := by
  unfold overwriteField
  split
  · rw [Json.lookup_assign, if_neg differs]
  · rfl

theorem lookup_overwrite_other {name : Bytes} (other : name ∉ attributes.map (·.name))
    (fields : Attributes attributes) (entries : List (Bytes × Json)) :
    (overwrite attributes fields entries).lookup name = entries.lookup name := by
  induction attributes generalizing entries with
  | nil => rfl
  | cons descriptor rest ih =>
    obtain ⟨field, fields⟩ := fields
    rw [map_cons, mem_cons, not_or] at other
    rw [overwrite, ih other.2, lookup_overwriteField descriptor field entries other.1]

/-- What the loop over the attributes writes under their names. -/
theorem lookup_overwrite (distinct : (attributes.map (·.name)).Nodup)
    (fields : Attributes attributes) (entries : List (Bytes × Json)) :
    Each (fun descriptor field =>
      (overwrite attributes fields entries).lookup descriptor.name =
        if (entries.lookup descriptor.name).isSome then
          some (makeAttribute descriptor.type (field.current.getD descriptor.type.default))
        else none) attributes fields := by
  induction attributes generalizing entries with
  | nil => trivial
  | cons descriptor rest ih =>
    obtain ⟨field, fields⟩ := fields
    rw [map_cons, nodup_cons] at distinct
    refine ⟨?_, ?_⟩
    · dsimp only
      rw [overwrite, lookup_overwrite_other distinct.1, overwriteField]
      split
      · rw [Json.lookup_assign, if_pos rfl]
      · rename_i absent
        exact Option.not_isSome_iff_eq_none.mp absent
    · refine (ih distinct.2 fields (overwriteField descriptor field entries)).mono
        fun other member _ holds => ?_
      rw [overwrite, holds, lookup_overwriteField descriptor field entries
        fun same => distinct.1 (same ▸ mem_map_of_mem member)]

theorem lookup_appendAccessors {type : ModelType} (model : Model type) {name : Bytes}
    (other : ∀ accessor ∈ type.accessors, accessor.1 ≠ name) (entries : List (Bytes × Json)) :
    (appendAccessors model entries).lookup name = entries.lookup name := by
  unfold appendAccessors
  generalize type.accessors = accessors at other
  induction accessors generalizing entries with
  | nil => rfl
  | cons accessor rest ih =>
    have differs : name ≠ accessor.1 := fun same => other accessor mem_cons_self same.symm
    rw [foldl_cons, ih _ (forall_mem_cons.mp other).2]
    split
    · rw [Json.lookup_assign, if_neg differs]
    · rfl

/-- What a model is written as under the name of an attribute. -/
theorem lookup_modelEntries {type : ModelType} (declared : type.WellFormed) (model : Model type) :
    Each (fun descriptor field =>
      (modelEntries numerals model).lookup descriptor.name =
        if ((serializedAttributes numerals model).lookup descriptor.name).isSome then
          some (makeAttribute descriptor.type (field.current.getD descriptor.type.default))
        else none) type.attributes model.attributes := by
  refine (lookup_overwrite declared.distinct model.attributes
    (serializedAttributes numerals model)).mono fun descriptor member field holds => ?_
  rw [modelEntries, lookup_appendAccessors model, holds]
  exact fun accessor listed same => declared.apart accessor listed (same ▸ mem_map_of_mem member)

theorem lookup_serializedAttributes {type : ModelType} (declared : type.WellFormed)
    (model : Model type) :
    Each (fun descriptor field => model.relationCounts = [] →
      ((serializedAttributes numerals model).lookup descriptor.name).isSome =
        (type.serializes descriptor.name && field.current.isSome))
      type.attributes model.attributes := by
  refine (@lookup_initialized numerals _ declared.distinct model.attributes).mono
    fun descriptor _ field holds uncounted => ?_
  rw [serializedAttributes, uncounted, foldl_nil, lookup_filter]
  cases type.serializes descriptor.name with
  | true => exact holds
  | false => rfl

/-! ## Plain values -/

theorem plain_scalar (kind : Scalar) (value : kind.Value) (wellFormed : kind.WellFormed value) :
    Plain (makeScalar kind value) := by
  cases kind with
  | json => exact wellFormed
  | _ => exact ⟨rfl, rfl⟩

theorem plain_optional {value : Option α}
    (inner : ∀ held, value = some held → Plain (make held)) : Plain (makeOptional make value) := by
  cases value with
  | none => exact ⟨rfl, rfl⟩
  | some held => exact inner held rfl

theorem plain_attribute (value : type.Value)
    (wellFormed : type.WellFormed value) : Plain (makeAttribute type value) := by
  cases type with
  | plain scalar => exact plain_scalar scalar value wellFormed
  | nullable scalar =>
    exact plain_optional fun held chosen => plain_scalar scalar held (wellFormed held chosen)

theorem wellFormed_default : type.WellFormed type.default := by
  cases type with
  | plain scalar =>
    cases scalar with
    | json => exact ⟨rfl, rfl⟩
    | _ => trivial
  | nullable scalar =>
    intro held impossible
    cases impossible

theorem plain_persisted (value : type.Value) : Plain (persistedValue numerals type value) := by
  have scalars : ∀ (scalar : Scalar) (value : scalar.Value),
      Plain (persistedScalar numerals scalar value) := by
    intro scalar value
    cases scalar <;> exact ⟨rfl, rfl⟩
  cases type with
  | plain scalar => exact scalars scalar value
  | nullable scalar => exact plain_optional fun held _ => scalars scalar held

/-- Entries with distinct keys and plain values. -/
structure PlainEntries (entries : List (Bytes × Json)) : Prop where
  distinct : (entries.map (·.1)).Nodup
  plain : ∀ entry ∈ entries, Plain entry.2

theorem PlainEntries.assign (plain : PlainEntries entries) (key : Bytes) {value : Json}
    (holds : Plain value) : PlainEntries (Json.assign entries key value) :=
  ⟨nodup_assign plain.distinct key value, forall_assign plain.plain holds key⟩

theorem PlainEntries.foldl {items : List α} {step : List (Bytes × Json) → α → List (Bytes × Json)}
    (keeps : ∀ entries, ∀ item ∈ items, PlainEntries entries → PlainEntries (step entries item))
    (plain : PlainEntries entries) : PlainEntries (items.foldl step entries) := by
  induction items generalizing entries with
  | nil => exact plain
  | cons item rest ih =>
    exact ih (fun entries other member => keeps entries other (mem_cons_of_mem _ member))
      (keeps entries item mem_cons_self plain)

theorem PlainEntries.initialized {attributes : List Attribute}
    (distinct : (attributes.map (·.name)).Nodup) (fields : Attributes attributes) :
    PlainEntries (initialized numerals attributes fields) := by
  refine ⟨(keys_initialized attributes fields).nodup distinct, ?_⟩
  clear distinct
  induction attributes with
  | nil => exact nofun
  | cons descriptor rest ih =>
    obtain ⟨field, fields⟩ := fields
    intro entry member
    rw [Job.initialized, mem_append] at member
    rcases member with here | later
    · obtain ⟨value, _, rfl⟩ := Option.map_eq_some_iff.mp (Option.mem_toList.mp here)
      exact plain_persisted descriptor.type value
    · exact ih fields entry later

theorem PlainEntries.overwrite {fields : Attributes attributes}
    (wellFormed : Each (fun descriptor field => ∀ value, field.current = some value →
      descriptor.type.WellFormed value) attributes fields) (plain : PlainEntries entries) :
    PlainEntries (overwrite attributes fields entries) := by
  induction attributes generalizing entries with
  | nil => exact plain
  | cons descriptor rest ih =>
    obtain ⟨field, fields⟩ := fields
    refine ih wellFormed.2 ?_
    unfold overwriteField
    split
    · refine plain.assign descriptor.name (plain_attribute descriptor.type _ ?_)
      cases chosen : field.current with
      | none => exact wellFormed_default descriptor.type
      | some value => exact wellFormed.1 value chosen
    · exact plain

theorem plain_modelEntries {type : ModelType} {model : Model type}
    (wellFormed : model.WellFormed) : PlainEntries (modelEntries numerals model) := by
  have counted : PlainEntries (serializedAttributes numerals model) := by
    have number : ∀ value, Plain (.uint64 value) := fun _ => ⟨rfl, rfl⟩
    have all := PlainEntries.foldl
      (fun entries (count : Bytes × UInt64) (_ : count ∈ model.relationCounts) plain =>
        plain.assign (count.1 ++ ascii "_count") (number count.2))
      (@PlainEntries.initialized numerals _ wellFormed.declared.distinct model.attributes)
    exact ⟨(filter_sublist.map _).nodup all.distinct,
      fun entry member => all.plain entry (mem_of_mem_filter member)⟩
  refine PlainEntries.foldl (fun entries accessor member plain => ?_)
    (counted.overwrite wellFormed.fields)
  split
  · exact plain.assign accessor.1 (wellFormed.accessors accessor member)
  · exact plain

/-! ## Models -/

/-- A field that is read back from what was listed under its name. -/
theorem decodeField_listed (descriptor : Attribute) (field : Field descriptor.type.Value)
    (wellFormed : ∀ value, field.current = some value → descriptor.type.WellFormed value)
    (listed serialized : Bool) :
    ∃ got, decodeField numerals descriptor
        ((if listed then
          some (makeAttribute descriptor.type (field.current.getD descriptor.type.default))
        else none).map (Json.reread maps)) = .ok got ∧
      (listed = (serialized && field.current.isSome) →
        (Field.Same descriptor.type got field ↔ Field.Restorable serialized descriptor field)) := by
  cases listed with
  | false =>
    refine ⟨_, rfl, fun unlisted => ?_⟩
    have plain : descriptor.Restorable serialized field.current ↔
        Option.Rel descriptor.type.Same descriptor.initial field.current := by
      obtain ⟨current, original⟩ := field
      cases current with
      | none => exact Iff.rfl
      | some value =>
        cases serialized with
        | false => exact Iff.rfl
        | true => cases unlisted
    constructor
    · rintro ⟨current, original⟩
      exact ⟨original, plain.mpr current⟩
    · rintro ⟨original, current⟩
      exact ⟨plain.mp current, original⟩
  | true =>
    have held : descriptor.type.WellFormed
        (field.current.getD descriptor.type.default) := by
      cases chosen : field.current with
      | none => exact wellFormed_default descriptor.type
      | some value => exact wellFormed value chosen
    obtain ⟨result, read, equal⟩ :=
      @returns_attribute maps numerals descriptor.type _ held
    refine ⟨⟨some result, descriptor.initial⟩, ?_, fun shown => ?_⟩
    · show (do return (⟨some (← decodeAttribute numerals descriptor.type _),
        descriptor.initial⟩ : Field descriptor.type.Value)) = _
      rw [read]
      rfl
    · cases serialized with
      | false => cases shown
      | true =>
        obtain ⟨current, original⟩ := field
        cases current with
        | none => cases shown
        | some value =>
          constructor
          · rintro ⟨related, kept⟩
            cases related with
            | some same => exact ⟨kept, equal.mp same⟩
          · rintro ⟨kept, restorable⟩
            exact ⟨.some (equal.mpr restorable), kept⟩

/-- The loop over the fields, by what holds of each of them. -/
theorem decodeAttributes_each {value : Json}
    {restorable : (descriptor : Attribute) → Field descriptor.type.Value → Prop} {exact_ : Prop}
    {fields : Attributes attributes}
    (each : Each (fun descriptor field => ∃ got,
      decodeField numerals descriptor (value.get descriptor.name) = .ok got ∧
        (exact_ → (Field.Same descriptor.type got field ↔ restorable descriptor field)))
      attributes fields) :
    ∃ result, decodeAttributes numerals value attributes = .ok result ∧
      (exact_ → (SameAttributes attributes result fields ↔ Each restorable attributes fields)) := by
  induction attributes with
  | nil => exact ⟨(), rfl, fun _ => Iff.rfl⟩
  | cons descriptor rest ih =>
    obtain ⟨⟨got, read, equal⟩, others⟩ := each
    obtain ⟨results, reads, equals⟩ := ih others
    refine ⟨(got, results), ?_, fun holds => and_congr (equal holds) (equals holds)⟩
    rw [decodeAttributes, read, reads]
    rfl

theorem returns_model {type : ModelType} (model : Model type) (wellFormed : model.WellFormed) :
    Returns maps (fun model => .object (maps.iterate (modelEntries numerals model)))
      (decodeModel numerals type) Model.Same Model.Restorable model := by
  have entries := @plain_modelEntries numerals type model wellFormed
  have each : Each (fun descriptor field => ∃ got,
      decodeField numerals descriptor
        (((Json.object (maps.iterate (modelEntries numerals model))).reread maps).get
          descriptor.name) = .ok got ∧
        (model.relationCounts = [] → (Field.Same descriptor.type got field ↔
          Field.Restorable (type.serializes descriptor.name) descriptor field)))
      type.attributes model.attributes := by
    refine (((@lookup_modelEntries numerals _ wellFormed.declared model).and
      wellFormed.fields).and (@lookup_serializedAttributes numerals _ wellFormed.declared model)).mono
      fun descriptor _ field holds => ?_
    obtain ⟨⟨written, plain⟩, shown⟩ := holds
    rw [get_reread entries.distinct, written]
    obtain ⟨got, read, equal⟩ := @decodeField_listed maps numerals descriptor field plain
      ((serializedAttributes numerals model).lookup descriptor.name).isSome
      (type.serializes descriptor.name)
    exact ⟨got, read, fun uncounted => equal (shown uncounted)⟩
  obtain ⟨result, read, equal⟩ := decodeAttributes_each each
  refine ⟨⟨result, false, false, false, []⟩, ?_, ?_⟩
  · have isObject :
        ((Json.object (maps.iterate (modelEntries numerals model))).reread maps).isObject = true := by
      rfl
    unfold decodeModel
    rw [isObject, read]
    rfl
  · constructor
    · rintro ⟨attributes, exists_, recent, deleted, counts⟩
      exact ⟨(equal counts.symm).mp attributes, exists_.symm, recent.symm, deleted.symm,
        counts.symm⟩
    · rintro ⟨attributes, exists_, recent, deleted, counts⟩
      exact ⟨(equal counts).mpr attributes, exists_.symm, recent.symm, deleted.symm, counts.symm⟩

/-! ## Lists and maps -/

theorem returns_list {values : List α}
    (each : ∀ item ∈ values, Returns maps make decode same restorable item) :
    ∃ results, ((values.map make).map (Json.reread maps)).mapM decode = .ok results ∧
      (Forall₂ same results values ↔ ∀ item ∈ values, restorable item) := by
  induction values with
  | nil => exact ⟨[], rfl, by simp⟩
  | cons item rest ih =>
    obtain ⟨result, read, equal⟩ := each item mem_cons_self
    obtain ⟨results, reads, equals⟩ :=
      ih (forall_mem_cons.mp each).2
    refine ⟨result :: results, ?_, ?_⟩
    · rw [map_cons, map_cons, mapM_cons, read, reads]
      rfl
    · rw [forall₂_cons, equal, equals, forall_mem_cons]

theorem returns_entries {values : List (Bytes × α)}
    (each : ∀ entry ∈ values, Returns maps make decode same restorable entry.2) :
    ∃ results, ((values.map fun entry => (entry.1, (make entry.2).reread maps)).mapM
        fun entry => do return (entry.1, ← decode entry.2)) = .ok results ∧
      Forall₂ (fun result entry => result.1 = entry.1 ∧
        (same result.2 entry.2 ↔ restorable entry.2)) results values := by
  induction values with
  | nil => exact ⟨[], rfl, .nil⟩
  | cons entry rest ih =>
    obtain ⟨result, read, equal⟩ := each entry mem_cons_self
    obtain ⟨results, reads, equals⟩ :=
      ih (forall_mem_cons.mp each).2
    refine ⟨(entry.1, result) :: results, ?_, .cons ⟨rfl, equal⟩ equals⟩
    rw [map_cons, mapM_cons, read, reads]
    rfl

/-- The entries of a map come back in the order of another map. -/
theorem iterate_map {α : Type} {change : α → Json} {values : List (Bytes × α)}
    (distinct : (values.map (·.1)).Nodup) :
    ∃ moved : List (Bytes × α), moved.Perm values ∧
      maps.iterate (values.map fun entry => (entry.1, change entry.2)) =
        moved.map fun entry => (entry.1, change entry.2) := by
  have keys : ((values.map fun entry => (entry.1, change entry.2)).map (·.1)).Nodup := by
    rw [map_map]
    exact distinct
  have related : Forall₂ (fun (written : Bytes × Json) (entry : Bytes × α) =>
      written = (entry.1, change entry.2))
      (values.map fun entry => (entry.1, change entry.2)) values := by
    rw [forall₂_map_left_iff]
    exact forall₂_same.mpr fun _ _ => rfl
  obtain ⟨moved, listed, perm⟩ := perm_comp_forall₂ (MapOrder.iterate_perm keys) related
  refine ⟨moved, perm, ?_⟩
  generalize maps.iterate _ = written at listed
  clear perm related keys distinct
  induction listed with
  | nil => rfl
  | cons same _ ih => rw [map_cons, same, ih]

theorem exists_of_forall₂ {β : Type} {related : α → β → Prop} {firsts : List α} {seconds : List β}
    (each : Forall₂ related firsts seconds) {first : α} (member : first ∈ firsts) :
    ∃ second ∈ seconds, related first second := by
  induction each with
  | nil => cases member
  | cons holds _ ih =>
    rcases mem_cons.mp member with rfl | later
    · exact ⟨_, mem_cons_self, holds⟩
    · obtain ⟨second, listed, found⟩ := ih later
      exact ⟨second, mem_cons_of_mem _ listed, found⟩

theorem same_map {results values moved : List (Bytes × α)} (distinct : (values.map (·.1)).Nodup)
    (perm : moved.Perm values)
    (each : Forall₂ (fun result entry => result.1 = entry.1 ∧
      (same result.2 entry.2 ↔ restorable entry.2)) results moved) :
    (results.length = values.length ∧
      ∀ entry ∈ results, ∃ value, (entry.1, value) ∈ values ∧ same entry.2 value) ↔
    ∀ entry ∈ values, restorable entry.2 := by
  constructor
  · rintro ⟨_, found⟩ entry member
    obtain ⟨result, listed, key, equal⟩ :=
      exists_of_forall₂ (Forall₂.flip each) (perm.mem_iff.mpr member)
    obtain ⟨value, written, alike⟩ := found result listed
    rw [key] at written
    have one : (entry.1, value) = entry := inj_on_of_nodup_map distinct written member rfl
    rw [← one]
    rw [← one] at equal
    exact equal.mp alike
  · intro all
    refine ⟨each.length_eq.trans perm.length_eq, fun result listed => ?_⟩
    obtain ⟨entry, member, key, equal⟩ := exists_of_forall₂ each listed
    have kept := perm.mem_iff.mp member
    rw [key]
    exact ⟨entry.2, kept, equal.mpr (all entry kept)⟩

/-! ## Payloads -/

theorem plain_value (type : PayloadType) (value : type.Value)
    (wellFormed : type.WellFormed value) : Plain (makeJson maps numerals type value) := by
  induction type with
  | scalar kind => exact plain_scalar kind value wellFormed
  | model declared =>
    have entries := @plain_modelEntries numerals declared value wellFormed
    exact .iterate entries.distinct entries.plain
  | optional inner ih =>
    exact plain_optional fun held chosen => ih held (wellFormed held chosen)
  | list inner ih =>
    refine .array fun item member => ?_
    obtain ⟨source, listed, rfl⟩ := mem_map.mp member
    exact ih source (wellFormed source listed)
  | map inner ih =>
    refine .iterate ?_ fun entry member => ?_
    · rw [map_map]
      exact wellFormed.1
    · obtain ⟨source, listed, rfl⟩ := mem_map.mp member
      exact ih source.2 (wellFormed.2 source listed)

/-- Every value is read back, and it is the same exactly if it is restorable. -/
theorem returns_value (type : PayloadType) (value : type.Value)
    (wellFormed : type.WellFormed value) :
    Returns maps (makeJson maps numerals type) (Job.decode numerals type) type.Same
      (type.Restorable maps numerals) value := by
  induction type with
  | scalar kind => exact returns_scalar kind value wellFormed
  | model declared => exact returns_model value wellFormed
  | optional inner ih =>
    exact returns_optional fun held chosen => ih held (wellFormed held chosen)
  | list inner ih =>
    obtain ⟨results, read, equal⟩ := returns_list fun item member =>
      ih item (wellFormed item member)
    refine ⟨results, ?_, equal⟩
    show Job.decode numerals inner.list
      ((Json.array (value.map (makeJson maps numerals inner))).reread maps) = _
    rw [Json.reread_array]
    exact read
  | map inner ih =>
    obtain ⟨written, first, wrote⟩ := @iterate_map maps inner.Value
      (makeJson maps numerals inner) value wellFormed.1
    obtain ⟨moved, second, listed⟩ := @iterate_map maps inner.Value
      (fun value => (makeJson maps numerals inner value).reread maps) written
      ((first.map _).nodup_iff.mpr wellFormed.1)
    have perm := second.trans first
    obtain ⟨results, read, each⟩ := returns_entries fun entry member =>
      ih entry.2 (wellFormed.2 entry (perm.mem_iff.mp member))
    refine ⟨results, ?_, same_map wellFormed.1 perm each⟩
    show Job.decode numerals inner.map ((Json.object (maps.iterate (value.map fun entry =>
      (entry.1, makeJson maps numerals inner entry.2)))).reread maps) = _
    rw [wrote, Json.reread_object, map_map]
    show (maps.iterate (written.map fun entry =>
      (entry.1, (makeJson maps numerals inner entry.2).reread maps))).mapM _ = _
    rw [listed]
    exact read

/-! ## Jobs -/

theorem keys_payloadEntries (job : JobType) (values : job.Values) :
    (payloadEntries maps numerals job values).map (·.1) = job.map (·.1) := by
  induction job with
  | nil => rfl
  | cons field rest ih =>
    rw [payloadEntries, map_cons, map_cons, ih]

theorem plain_payloadEntries (job : JobType) (values : job.Values)
    (wellFormed : job.WellFormed values) :
    ∀ entry ∈ payloadEntries maps numerals job values, Plain entry.2 := by
  induction job with
  | nil => exact nofun
  | cons field rest ih =>
    obtain ⟨value, values⟩ := values
    exact forall_mem_cons.mpr ⟨plain_value field.2 value wellFormed.1, ih values wellFormed.2⟩

theorem requiredFields_returns {value : Json} (job : JobType) (values : job.Values)
    (wellFormed : job.WellFormed values)
    (listed : ∀ entry ∈ payloadEntries maps numerals job values,
      value.get entry.1 = some (entry.2.reread maps)) :
    ∃ result, requiredFields numerals value job = .ok result ∧
      (job.Same result values ↔ job.Restorable maps numerals values) := by
  induction job with
  | nil => exact ⟨(), rfl, Iff.rfl⟩
  | cons field rest ih =>
    obtain ⟨first, others⟩ := values
    obtain ⟨result, read, equal⟩ := @returns_value maps numerals field.2 first wellFormed.1
    obtain ⟨results, reads, equals⟩ := ih others wellFormed.2 (forall_mem_cons.mp listed).2
    have here := listed _ mem_cons_self
    refine ⟨(result, results), ?_, and_congr equal equals⟩
    rw [requiredFields, required, here]
    dsimp only
    rw [read, reads]
    rfl

/-- A job always comes back from its payload, with the fields it was dispatched with
exactly if they are restorable. -/
theorem job_payload_round_trip (maps : MapOrder) (numerals : Numerals) (job : JobType)
    (distinct : (job.map (·.1)).Nodup) (values : job.Values) (wellFormed : job.WellFormed values) :
    ∃ result, fromPayload maps numerals job (payload maps numerals job values) = .ok result ∧
      (job.Same result values ↔ job.Restorable maps numerals values) := by
  have keys : ((payloadEntries maps numerals job values).map (·.1)).Nodup := by
    rw [keys_payloadEntries]
    exact distinct
  have plain : Plain (.object (maps.iterate (payloadEntries maps numerals job values))) :=
    .iterate keys (plain_payloadEntries job values wellFormed)
  obtain ⟨result, read, equal⟩ := @requiredFields_returns maps numerals
    ((Json.object (maps.iterate (payloadEntries maps numerals job values))).reread maps) job values
    wellFormed (fun entry member => by
      rw [get_reread keys, Http.lookup_of_mem keys member, Option.map_some])
  refine ⟨result, ?_, equal⟩
  rw [fromPayload, payload, Json.parse_dump maps numerals plain.1 plain.2]
  exact read

/-- A model with a hidden attribute. -/
def userType : ModelType where
  attributes := [⟨ascii "name", .plain .string, none⟩, ⟨ascii "password", .plain .string, none⟩]
  hidden := [ascii "password"]
  visible := []
  accessors := []

/-- A user as a query returns it. -/
def storedUser : Model userType :=
  ⟨(⟨some (ascii "Ann"), some (ascii "Ann")⟩, ⟨some (ascii "x"), some (ascii "x")⟩, ()), true, false,
    false, []⟩

def sampleJob : JobType :=
  [(ascii "user", .model userType), (ascii "data", .scalar .json),
    (ascii "note", .optional (.scalar .json))]

/-- A hidden attribute is lost and a stored model comes back as a new one, an unsigned
integer in a structured value comes back signed, and a null in an optional as nothing. -/
theorem payload_loses :
    (fromPayload Json.insertionOrder sampleNumerals sampleJob
      (payload Json.insertionOrder sampleNumerals sampleJob
        (storedUser, .uint64 5, some .null, ()))).toOption.map
      (fun result => (result.1.exists_, result.1.attributes.2.1.current,
        Json.same result.2.1 (.uint64 5), result.2.2.1.isSome)) =
      some (false, none, false, false) := by
  decide

def sampleValues : sampleJob.Values :=
  (⟨(⟨some (ascii "Ann"), none⟩, ⟨none, none⟩, ()), false, false, false, []⟩,
    .object [(ascii "n", .int64 (-5))], none, ())

theorem job_payload_round_trip_sample :
    ∃ result, fromPayload Json.insertionOrder sampleNumerals sampleJob
        (payload Json.insertionOrder sampleNumerals sampleJob sampleValues) = .ok result ∧
      sampleJob.Same result sampleValues := by
  have wellFormed : sampleJob.WellFormed sampleValues := by
    refine ⟨⟨⟨by decide, by decide⟩, ⟨?_, ?_, trivial⟩,
      nofun⟩, ⟨rfl, rfl⟩, ?_, trivial⟩
    · intro value _
      trivial
    · intro value _
      trivial
    · intro held impossible
      cases impossible
  have restorable : sampleJob.Restorable Json.insertionOrder sampleNumerals sampleValues := by
    refine ⟨⟨⟨⟨.none, trivial⟩, ⟨.none, .none⟩, trivial⟩, rfl, rfl, rfl, rfl⟩, rfl, ?_, trivial⟩
    intro held impossible
    cases impossible
  obtain ⟨result, read, equal⟩ := job_payload_round_trip Json.insertionOrder sampleNumerals
    sampleJob (by decide) sampleValues wellFormed
  exact ⟨result, read, equal.mpr restorable⟩

end Gungnir.Queue.Job

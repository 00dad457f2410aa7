import Gungnir.Library.Decimal

/-!
# JSON commands with bound values

A reader of compact JSON in which an object `$bind` with an index stands for a value
from a list of bindings. What a text is read as does not change when bindings are
appended, so a command can be written part by part, with the bindings of each part
appended to those before it.
-/

namespace Gungnir.Library

open List

inductive Json (V : Type) where
  | null
  | flag (value : Bool)
  | number (value : Int)
  | text (bytes : List UInt8)
  | value (bound : V)
  | array (items : List (Json V))
  | object (fields : List (List UInt8 × Json V))

namespace Json

variable {V : Type}

def field (key : List UInt8) : Json V → Option (Json V)
  | .object fields => fields.lookup key
  | _ => none

def item (index : Nat) : Json V → Option (Json V)
  | .array items => items[index]?
  | _ => none

/-! ## Reading -/

/-- The contents of a string up to its closing quotation mark; the flag says that a
backslash has been read. -/
def readTextFrom : Bool → List UInt8 → Option (List UInt8 × List UInt8)
  | _, [] => none
  | true, byte :: rest =>
    if byte = 34 ∨ byte = 92 then
      (readTextFrom false rest).map fun found => (byte :: found.1, found.2)
    else none
  | false, byte :: rest =>
    if byte = 34 then some ([], rest)
    else if byte = 92 then readTextFrom true rest
    else if byte.toNat < 32 then none
    else (readTextFrom false rest).map fun found => (byte :: found.1, found.2)

def readText (input : List UInt8) : Option (List UInt8 × List UInt8) := readTextFrom false input

def isDigit (byte : UInt8) : Bool := (Decimal.digitValue? byte).isSome

def readNumber (text : List UInt8) : Option (Nat × List UInt8) :=
  if text.takeWhile isDigit = [] then none
  else
    (Decimal.valueFrom 0 (text.takeWhile isDigit)).map fun value => (value, text.dropWhile isDigit)

def bindKey : List UInt8 := ascii "$bind"

/-- An object whose only field is `$bind` with an index is the binding of that index. -/
def resolve (bindings : List V) (fields : List (List UInt8 × Json V)) : Option (Json V) :=
  match fields with
  | [(key, .number (.ofNat index))] =>
    if key = bindKey then bindings[index]?.map .value else some (.object fields)
  | _ => some (.object fields)

def readWord (text : List UInt8) : Option (Json V × List UInt8) :=
  if (ascii "null").isPrefixOf text then some (.null, text.drop 4)
  else if (ascii "true").isPrefixOf text then some (.flag true, text.drop 4)
  else if (ascii "false").isPrefixOf text then some (.flag false, text.drop 5)
  else (readNumber text).map fun found => (.number found.1, found.2)

/-- A quoted key and the colon behind it. -/
def readKey : List UInt8 → Option (List UInt8 × List UInt8)
  | [] => none
  | byte :: rest =>
    if byte = 34 then
      match readText rest with
      | some (key, colon :: after) => if colon = 58 then some (key, after) else none
      | _ => none
    else none

mutual

def readValue (bindings : List V) : Nat → List UInt8 → Option (Json V × List UInt8)
  | 0, _ => none
  | _ + 1, [] => none
  | fuel + 1, byte :: rest =>
    if byte = 123 then
      if rest.head? = some 125 then some (.object [], rest.tail)
      else
        match readFields bindings fuel rest with
        | some (fields, after) => (resolve bindings fields).map fun json => (json, after)
        | none => none
    else if byte = 91 then
      if rest.head? = some 93 then some (.array [], rest.tail)
      else (readItems bindings fuel rest).map fun found => (.array found.1, found.2)
    else if byte = 34 then (readText rest).map fun found => (.text found.1, found.2)
    else if byte = 45 then (readNumber rest).map fun found => (.number (-found.1), found.2)
    else readWord (byte :: rest)

def readItems (bindings : List V) : Nat → List UInt8 → Option (List (Json V) × List UInt8)
  | 0, _ => none
  | fuel + 1, input =>
    match readValue bindings fuel input with
    | some (item, byte :: rest) =>
      if byte = 44 then
        (readItems bindings fuel rest).map fun found => (item :: found.1, found.2)
      else if byte = 93 then some ([item], rest)
      else none
    | _ => none

def readFields (bindings : List V) :
    Nat → List UInt8 → Option (List (List UInt8 × Json V) × List UInt8)
  | 0, _ => none
  | fuel + 1, input =>
    match readKey input with
    | none => none
    | some (key, afterKey) =>
      match readValue bindings fuel afterKey with
      | some (item, byte :: rest) =>
        if byte = 44 then
          (readFields bindings fuel rest).map fun found => ((key, item) :: found.1, found.2)
        else if byte = 125 then some ([(key, item)], rest)
        else none
      | _ => none

end

/-! ## Writing -/

def escape (bytes : List UInt8) : List UInt8 :=
  bytes.flatMap fun byte => if byte = 34 ∨ byte = 92 then [92, byte] else [byte]

def quoted (bytes : List UInt8) : List UInt8 := 34 :: (escape bytes ++ [34])

/-- Texts with commas between. -/
def joined : List (List UInt8) → List UInt8
  | [] => []
  | first :: rest => first ++ rest.flatMap fun text => 44 :: text

/-- No number is continued. -/
def Apart (rest : List UInt8) : Prop := ∀ byte after, rest = byte :: after → isDigit byte = false

/-- The text is read as the value, whatever follows it and whatever is bound later. -/
def Reads (bindings : List V) (text : List UInt8) (json : Json V) : Prop :=
  ∀ fuel more rest, text.length ≤ fuel → Apart rest →
    readValue (bindings ++ more) fuel (text ++ rest) = some (json, rest)

variable {bindings later : List V} {json : Json V}

theorem Reads.cast {text other : List UInt8} (reads : Reads bindings text json)
    (same : text = other) : Reads bindings other json :=
  same ▸ reads

theorem Reads.mono {text : List UInt8} (reads : Reads bindings text json)
    (grown : bindings <+: later) : Reads later text json := by
  obtain ⟨appended, rfl⟩ := grown
  intro fuel more rest enough apart
  rw [append_assoc]
  exact reads fuel _ rest enough apart

/-- What is read starts with a byte that does not close a list. -/
theorem Reads.starts {text : List UInt8} (reads : Reads bindings text json) :
    ∃ byte tail, text = byte :: tail ∧ byte ≠ 93 := by
  have apart : Apart [] := nofun
  have read := reads text.length [] [] (Nat.le_refl _) apart
  cases text with
  | nil => cases read
  | cons byte tail =>
    refine ⟨byte, tail, rfl, ?_⟩
    rintro rfl
    cases read

variable {bytes : List UInt8}

/-- The condition on a key, in the form that evaluates. -/
theorem printable_of_all (all : bytes.all (fun byte => decide (32 ≤ byte.toNat)) = true) :
    ∀ byte ∈ bytes, 32 ≤ byte.toNat := by
  simpa only [all_eq_true, decide_eq_true_eq] using all

theorem readText_escape (printable : ∀ byte ∈ bytes, 32 ≤ byte.toNat) (rest : List UInt8) :
    readText (escape bytes ++ 34 :: rest) = some (bytes, rest) := by
  unfold readText
  induction bytes with
  | nil => rfl
  | cons byte bytes ih =>
    have later := ih (forall_mem_cons.mp printable).2
    rw [escape, flatMap_cons, ← escape, append_assoc]
    by_cases special : byte = 34 ∨ byte = 92
    · rw [if_pos special, cons_append, cons_append, nil_append, readTextFrom,
        if_neg (by decide), if_pos rfl, readTextFrom, if_pos special, later]
      rfl
    · have high := printable byte mem_cons_self
      have plain := not_or.mp special
      rw [if_neg special, singleton_append, readTextFrom, if_neg plain.1, if_neg plain.2,
        if_neg (by omega), later]
      rfl

theorem reads_text (printable : ∀ byte ∈ bytes, 32 ≤ byte.toNat) :
    Reads bindings (quoted bytes) (.text bytes) := by
  intro fuel more rest enough _
  obtain ⟨fuel, rfl⟩ := Nat.exists_eq_succ_of_ne_zero
    (by rw [quoted, length_cons] at enough; omega : fuel ≠ 0)
  rw [quoted, cons_append, append_assoc, singleton_append, readValue,
    if_neg (by decide), if_neg (by decide), if_pos rfl, readText_escape printable]
  rfl

theorem reads_word {word : List UInt8} (first : word.head? ∈ [some 110, some 116, some 102])
    (found : ∀ rest, readWord (word ++ rest) = some (json, rest)) : Reads bindings word json := by
  intro fuel more rest enough _
  cases word with
  | nil => simp at first
  | cons byte word =>
    obtain ⟨fuel, rfl⟩ := Nat.exists_eq_succ_of_ne_zero
      (by rw [length_cons] at enough; omega : fuel ≠ 0)
    have known : byte = 110 ∨ byte = 116 ∨ byte = 102 := by simpa using first
    rw [cons_append, readValue, if_neg (by rcases known with rfl | rfl | rfl <;> decide),
      if_neg (by rcases known with rfl | rfl | rfl <;> decide),
      if_neg (by rcases known with rfl | rfl | rfl <;> decide),
      if_neg (by rcases known with rfl | rfl | rfl <;> decide)]
    exact found rest

theorem reads_null : Reads bindings (ascii "null") .null := reads_word (by decide) fun _ => rfl

theorem reads_true : Reads bindings (ascii "true") (.flag true) :=
  reads_word (by decide) fun _ => rfl

theorem reads_false : Reads bindings (ascii "false") (.flag false) :=
  reads_word (by decide) fun _ => rfl

theorem isDigit_print {value : Nat} {byte : UInt8} (member : byte ∈ Decimal.print value) :
    isDigit byte = true := by
  rw [isDigit, Decimal.digitValue?, if_pos (Decimal.mem_print_digit member)]
  rfl

theorem readNumber_print (value : Nat) {rest : List UInt8} (apart : Apart rest) :
    readNumber (Decimal.print value ++ rest) = some (value, rest) := by
  have digits : ∀ byte ∈ Decimal.print value, isDigit byte = true := fun _ => isDigit_print
  have ends : rest.takeWhile isDigit = [] ∧ rest.dropWhile isDigit = rest := by
    cases rest with
    | nil => exact ⟨rfl, rfl⟩
    | cons byte after =>
      have stop := apart byte after rfl
      simp [stop]
  have printed : Decimal.valueFrom 0 (Decimal.print value) = some value :=
    Decimal.valueFrom_printFuel _ _ (Nat.le_refl _)
  have taken : (Decimal.print value ++ rest).takeWhile isDigit = Decimal.print value := by
    rw [takeWhile_append_of_pos digits, ends.1, append_nil]
  have dropped : (Decimal.print value ++ rest).dropWhile isDigit = rest := by
    rw [dropWhile_append_of_pos digits, ends.2]
  rw [readNumber, taken, dropped, if_neg (Decimal.print_ne_nil value), printed]
  rfl

theorem reads_number (value : Nat) : Reads bindings (Decimal.print value) (.number value) := by
  intro fuel more rest enough apart
  have read := readNumber_print value apart
  cases printed : Decimal.print value with
  | nil => exact absurd printed (Decimal.print_ne_nil value)
  | cons byte tail =>
    rw [printed] at read enough
    obtain ⟨fuel, rfl⟩ := Nat.exists_eq_succ_of_ne_zero
      (by rw [length_cons] at enough; omega : fuel ≠ 0)
    have digit : 48 ≤ byte.toNat ∧ byte.toNat ≤ 57 :=
      Decimal.mem_print_digit (printed ▸ mem_cons_self)
    have other : ∀ sign : UInt8, (sign.toNat < 48 ∨ 57 < sign.toNat) → byte ≠ sign := by
      rintro sign outside rfl
      omega
    have unread : readWord (byte :: tail ++ rest) =
        (readNumber (byte :: tail ++ rest)).map fun found =>
          ((.number found.1 : Json V), found.2) := by
      have none : ∀ (sign : UInt8) (word : List UInt8), byte ≠ sign →
          (sign :: word).isPrefixOf (byte :: tail ++ rest) = false := by
        intro sign word differs
        simp [isPrefixOf, differs.symm]
      rw [readWord, if_neg, if_neg, if_neg]
      · exact Bool.eq_false_iff.mp (none 102 (ascii "alse") (other _ (by decide)))
      · exact Bool.eq_false_iff.mp (none 116 (ascii "rue") (other _ (by decide)))
      · exact Bool.eq_false_iff.mp (none 110 (ascii "ull") (other _ (by decide)))
    rw [cons_append, readValue, if_neg (other _ (by decide)), if_neg (other _ (by decide)),
      if_neg (other _ (by decide)), if_neg (other _ (by decide)), ← cons_append, unread, read]
    rfl

theorem reads_negative (value : Nat) :
    Reads bindings (45 :: Decimal.print value) (.number (-value)) := by
  intro fuel more rest enough apart
  obtain ⟨fuel, rfl⟩ := Nat.exists_eq_succ_of_ne_zero
    (by rw [length_cons] at enough; omega : fuel ≠ 0)
  rw [cons_append, readValue, if_neg (by decide), if_neg (by decide), if_neg (by decide),
    if_pos rfl, readNumber_print value apart]
  rfl

theorem joined_cons (first second : List UInt8) (rest : List (List UInt8)) :
    joined (first :: second :: rest) = first ++ 44 :: joined (second :: rest) := by
  simp [joined]

theorem apart_of_not_digit {byte : UInt8} (stop : isDigit byte = false) (rest : List UInt8) :
    Apart (byte :: rest) := by
  intro other after same
  cases same
  exact stop

variable {fuel : Nat}

/-- A reader that goes over elements with commas between reads what is written for each. -/
theorem read_joined {ι β : Type} {read : Nat → List UInt8 → Option (List β × List UInt8)}
    {close : UInt8} {text : ι → List UInt8} {value : ι → β} {items : List ι} (nonempty : items ≠ [])
    (comma : ∀ item ∈ items, ∀ fuel rest, (text item).length ≤ fuel →
      read (fuel + 1) (text item ++ 44 :: rest) =
        (read fuel rest).map fun found => (value item :: found.1, found.2))
    (last : ∀ item ∈ items, ∀ fuel rest, (text item).length ≤ fuel →
      read (fuel + 1) (text item ++ close :: rest) = some ([value item], rest))
    (enough : (joined (items.map text)).length < fuel) (rest : List UInt8) :
    read fuel (joined (items.map text) ++ close :: rest) = some (items.map value, rest) := by
  cases items with
  | nil => exact absurd rfl nonempty
  | cons first others =>
    clear nonempty
    induction others generalizing first fuel with
    | nil =>
      obtain ⟨fuel, rfl⟩ := Nat.exists_eq_succ_of_ne_zero (by omega : fuel ≠ 0)
      simp only [map_cons, map_nil, joined, flatMap_nil, append_nil] at enough ⊢
      exact last first mem_cons_self fuel rest (by omega)
    | cons second others ih =>
      obtain ⟨fuel, rfl⟩ := Nat.exists_eq_succ_of_ne_zero (by omega : fuel ≠ 0)
      simp only [map_cons] at enough ih ⊢
      rw [joined_cons, length_append, length_cons] at enough
      have later := ih second (forall_mem_cons.mp comma).2
        (forall_mem_cons.mp last).2 (by omega : _ < fuel)
      rw [joined_cons, append_assoc, cons_append, comma first mem_cons_self fuel _ (by omega),
        later]
      rfl

variable {items : List (List UInt8 × Json V)}

theorem readItems_joined (nonempty : items ≠ [])
    (each : ∀ item ∈ items, Reads bindings item.1 item.2)
    (enough : (joined (items.map Prod.fst)).length < fuel) (more : List V) (rest : List UInt8) :
    readItems (bindings ++ more) fuel (joined (items.map Prod.fst) ++ 93 :: rest) =
      some (items.map Prod.snd, rest) := by
  refine read_joined nonempty (fun item member fuel rest long => ?_)
    (fun item member fuel rest long => ?_) enough rest
  all_goals
    rw [readItems, each item member fuel more _ long (apart_of_not_digit (by decide) rest)]
    rfl

theorem reads_array (each : ∀ item ∈ items, Reads bindings item.1 item.2) :
    Reads bindings (91 :: (joined (items.map Prod.fst) ++ [93])) (.array (items.map Prod.snd)) := by
  intro fuel more rest enough _
  rw [length_cons, length_append] at enough
  obtain ⟨fuel, rfl⟩ := Nat.exists_eq_succ_of_ne_zero (by omega : fuel ≠ 0)
  rw [cons_append, append_assoc, singleton_append, readValue, if_neg (by decide),
    if_pos rfl]
  cases items with
  | nil => rfl
  | cons first others =>
    obtain ⟨byte, tail, starts, opens⟩ := (each first mem_cons_self).starts
    have unclosed : (joined ((first :: others).map Prod.fst) ++ 93 :: rest).head? ≠ some 93 := by
      simp [joined, starts, opens]
    rw [if_neg unclosed, readItems_joined (cons_ne_nil _ _) each
      (by rw [length_singleton] at enough; omega) more rest]
    rfl

/-- A member of an object with the text of its value. -/
structure Member (V : Type) where
  key : List UInt8
  written : List UInt8
  json : Json V

def Member.text (field : Member V) : List UInt8 := quoted field.key ++ 58 :: field.written

def Member.pair (field : Member V) : List UInt8 × Json V := (field.key, field.json)

/-- A member that is read back. -/
structure Member.Readable (bindings : List V) (member : Member V) : Prop where
  printable : ∀ byte ∈ member.key, 32 ≤ byte.toNat
  reads : Reads bindings member.written member.json

/-- A member that does not make its object a binding. -/
structure Member.Plain (bindings : List V) (member : Member V) : Prop
    extends member.Readable bindings where
  unbound : member.key ≠ bindKey

theorem readKey_text {field : Member V} (readable : field.Readable bindings) (rest : List UInt8) :
    readKey (field.text ++ rest) = some (field.key, field.written ++ rest) := by
  rw [Member.text, quoted]
  simp only [cons_append, append_assoc, nil_append]
  rw [readKey, if_pos rfl, readText_escape readable.printable]
  rfl

variable {fields : List (Member V)}

theorem readFields_joined (nonempty : fields ≠ [])
    (each : ∀ field ∈ fields, field.Readable bindings)
    (enough : (joined (fields.map Member.text)).length < fuel) (more : List V) (rest : List UInt8) :
    readFields (bindings ++ more) fuel (joined (fields.map Member.text) ++ 125 :: rest) =
      some (fields.map Member.pair, rest) := by
  have shorter : ∀ field : Member V, field.written.length < field.text.length := by
    simp only [Member.text, quoted, length_append, length_cons]
    omega
  refine read_joined nonempty (fun field member fuel rest long => ?_)
    (fun field member fuel rest long => ?_) enough rest
  all_goals
    have readable := each field member
    rw [readFields, readKey_text readable]
    dsimp only
    rw [readable.reads fuel more _ (by have := shorter field; omega)
      (apart_of_not_digit (by decide) rest)]
    rfl

/-- The object around some fields, before bindings are looked up. -/
theorem readValue_object (nonempty : fields ≠ []) (each : ∀ field ∈ fields, field.Readable bindings)
    (enough : (joined (fields.map Member.text)).length + 2 ≤ fuel) (more : List V)
    (rest : List UInt8) :
    readValue (bindings ++ more) fuel (123 :: (joined (fields.map Member.text) ++ 125 :: rest)) =
      (resolve (bindings ++ more) (fields.map Member.pair)).map fun json => (json, rest) := by
  obtain ⟨fuel, rfl⟩ := Nat.exists_eq_succ_of_ne_zero (by omega : fuel ≠ 0)
  have unclosed : (joined (fields.map Member.text) ++ 125 :: rest).head? ≠ some 125 := by
    cases fields with
    | nil => exact absurd rfl nonempty
    | cons first others => simp [joined, Member.text, quoted]
  rw [readValue, if_pos rfl, if_neg unclosed,
    readFields_joined nonempty each (by omega) more rest]

theorem reads_object (each : ∀ field ∈ fields, field.Plain bindings) :
    Reads bindings (123 :: (joined (fields.map Member.text) ++ [125]))
      (.object (fields.map Member.pair)) := by
  intro fuel more rest enough _
  rw [length_cons, length_append, length_singleton] at enough
  rw [cons_append, append_assoc, singleton_append]
  cases fields with
  | nil =>
    obtain ⟨fuel, rfl⟩ := Nat.exists_eq_succ_of_ne_zero (by omega : fuel ≠ 0)
    rfl
  | cons first others =>
    have kept : resolve (bindings ++ more) ((first :: others).map Member.pair) =
        some (.object ((first :: others).map Member.pair)) := by
      have other := (each first mem_cons_self).unbound
      rw [map_cons, Member.pair, resolve.eq_def]
      split
      · rename_i same
        obtain ⟨⟨sameKey, _⟩, _⟩ := cons.inj same |>.imp Prod.mk.inj id
        rw [if_neg (sameKey ▸ other)]
      · rfl
    rw [readValue_object (cons_ne_nil _ _) (fun field member => (each field member).toReadable)
      (by omega) more rest, kept]
    rfl

theorem reads_empty : Reads bindings (ascii "\x7b\x7d") (.object []) := by
  have none : ∀ member ∈ ([] : List (Member V)), member.Plain bindings := forall_mem_nil _
  exact reads_object none

/-- An object with one field. -/
theorem reads_single {key written : List UInt8} (printable : ∀ byte ∈ key, 32 ≤ byte.toNat)
    (unbound : key ≠ bindKey) (reads : Reads bindings written json) :
    Reads bindings (123 :: (quoted key ++ 58 :: written) ++ [125]) (.object [(key, json)]) := by
  have plain : (⟨key, written, json⟩ : Member V).Plain bindings := ⟨⟨printable, reads⟩, unbound⟩
  have object := reads_object (forall_mem_singleton.mpr plain)
  simpa [joined, Member.text, Member.pair] using object

variable {texts : List (List UInt8)}

theorem reads_list {jsons : List (Json V)} (each : Forall₂ (Reads bindings) texts jsons) :
    Reads bindings (91 :: (joined texts ++ [93])) (.array jsons) := by
  have zipped : ∃ items : List (List UInt8 × Json V), items.map Prod.fst = texts ∧
      items.map Prod.snd = jsons ∧ ∀ item ∈ items, Reads bindings item.1 item.2 := by
    induction each with
    | nil => exact ⟨[], rfl, rfl, forall_mem_nil _⟩
    | cons reads _ ih =>
      obtain ⟨items, texts, jsons, all⟩ := ih
      exact ⟨(_, _) :: items, by rw [map_cons, texts], by rw [map_cons, jsons],
        forall_mem_cons.mpr ⟨reads, all⟩⟩
  obtain ⟨items, rfl, rfl, all⟩ := zipped
  exact reads_array all

theorem reads_bind {index : Nat} {bound : V} (found : bindings[index]? = some bound) :
    Reads bindings (123 :: (quoted bindKey ++ 58 :: Decimal.print index) ++ [125]) (.value bound) := by
  intro fuel more rest enough _
  have printable : ∀ byte ∈ bindKey, 32 ≤ byte.toNat := printable_of_all (by decide)
  have readable : (⟨bindKey, Decimal.print index, .number index⟩ : Member V).Readable bindings :=
    ⟨printable, reads_number index⟩
  have shape : 123 :: (quoted bindKey ++ 58 :: Decimal.print index) ++ [125] ++ rest =
      123 :: (joined ([(⟨bindKey, Decimal.print index, .number index⟩ : Member V)].map Member.text) ++
        125 :: rest) := by
    simp [joined, Member.text]
  have short : (joined ([(⟨bindKey, Decimal.print index, .number index⟩ : Member V)].map
      Member.text)).length + 2 ≤ fuel := by
    simp only [length_append, length_cons, length_nil] at enough
    simp only [joined, map_cons, map_nil, Member.text, flatMap_nil, append_nil,
      length_append, length_cons]
    omega
  have later : (bindings ++ more)[index]? = some bound := by
    obtain ⟨inside, _⟩ := List.getElem?_eq_some_iff.mp found
    rw [getElem?_append_left inside, found]
  have resolved : resolve (bindings ++ more) [(bindKey, .number (.ofNat index))] =
      some (.value bound) := by
    rw [resolve, if_pos rfl, later]
    rfl
  rw [shape, readValue_object (cons_ne_nil _ _) (by simpa using readable) short more rest]
  exact congrArg (Option.map fun json => (json, rest)) resolved

theorem Member.Plain.mono {member : Member V} (plain : member.Plain bindings)
    (grown : bindings <+: later) : member.Plain later :=
  ⟨⟨plain.printable, plain.reads.mono grown⟩, plain.unbound⟩

/-- The text of an object that is still open. -/
structure Opened (bindings : List V) (text : List UInt8) (members : List (Member V)) : Prop where
  nonempty : members ≠ []
  written : text = 123 :: joined (members.map Member.text)
  plain : ∀ member ∈ members, member.Plain bindings

theorem joined_concat (nonempty : texts ≠ []) (text : List UInt8) :
    joined (texts ++ [text]) = joined texts ++ 44 :: text := by
  cases texts with
  | nil => exact absurd rfl nonempty
  | cons first rest => simp [joined]

variable {members : List (Member V)} {text : List UInt8}

theorem Opened.append {member : Member V} (opened : Opened bindings text members)
    (grown : bindings <+: later) (plain : member.Plain later) :
    Opened later (text ++ 44 :: member.text) (members ++ [member]) := by
  refine ⟨by simp, ?_, ?_⟩
  · rw [map_append, map_singleton, joined_concat (by simpa using opened.nonempty),
      opened.written, cons_append]
  · exact forall_mem_append.mpr ⟨fun other before => (opened.plain other before).mono grown,
      forall_mem_singleton.mpr plain⟩

theorem Opened.close (opened : Opened bindings text members) :
    Reads bindings (text ++ [125]) (.object (members.map Member.pair)) := by
  rw [opened.written, cons_append]
  exact reads_object opened.plain

/-- A text that is read as a value to its end. -/
def parse (bindings : List V) (text : List UInt8) : Option (Json V) :=
  match readValue bindings text.length text with
  | some (json, []) => some json
  | _ => none

theorem parse_of_reads (reads : Reads bindings text json) : parse bindings text = some json := by
  have read := reads text.length [] [] (Nat.le_refl _) nofun
  rw [append_nil, append_nil] at read
  rw [parse, read]

end Json

end Gungnir.Library

import Gungnir.Core.Text
import Mathlib.Data.List.AList

/-!
# Sessions

`Session`, the memory store and the two halves of `StartSession::handle` around the rest
of the middleware chain.
-/

namespace Gungnir.Sessions

open Gungnir.Core

abbrev Values := AList fun _ : Bytes => Bytes

structure Session where
  id : Bytes
  values : Values
  flashCurrent : Values
  flashNext : Values
  regenerated : Bool

namespace Session

/-- `Session{id}`. -/
def create (id : Bytes) : Session := ⟨id, ∅, ∅, ∅, false⟩

variable (session : Session)

def put (key value : Bytes) : Session :=
  { session with values := session.values.insert key value }

def get (key : Bytes) : Bytes := (session.values.lookup key).getD []

def forget (key : Bytes) : Session :=
  { session with values := session.values.erase key }

def clear : Session := { session with values := ∅ }

def flash (key value : Bytes) : Session :=
  { session with flashNext := session.flashNext.insert key value }

def ageFlash : Session :=
  { session with flashCurrent := session.flashNext, flashNext := ∅ }

def regenerate (newId : Bytes) : Session :=
  { session with id := newId, regenerated := true }

def invalidate (newId : Bytes) : Session :=
  { session with values := ∅, flashCurrent := ∅, flashNext := ∅ }.regenerate newId

def markPersisted : Session := { session with regenerated := false }

end Session

/-! ## The store -/

abbrev Store := AList fun _ : Bytes => Session

namespace Store

def load (store : Store) (id : Bytes) : Option Session := store.lookup id

def save (store : Store) (session : Session) : Store := store.insert session.id session

def erase (store : Store) (id : Bytes) : Store := AList.erase id store

theorem load_save (store : Store) (session : Session) (id : Bytes) :
    (store.save session).load id = if id = session.id then some session else store.load id := by
  unfold save load
  split
  · rename_i same
    rw [same, AList.lookup_insert]
  · rename_i other
    rw [AList.lookup_insert_ne other]

theorem load_erase (store : Store) (erased id : Bytes) :
    (store.erase erased).load id = if id = erased then none else store.load id := by
  unfold erase load
  split
  · rename_i same
    rw [same, AList.lookup_erase]
  · rename_i other
    rw [AList.lookup_erase_ne other]

end Store

/-! ## The middleware -/

def isHexDigit (character : UInt8) : Bool :=
  (48 ≤ character && character ≤ 57) || (65 ≤ character && character ≤ 70) ||
    (97 ≤ character && character ≤ 102)

def validSessionId (value : Bytes) : Bool := value.length == 64 && value.all isHexDigit

/-- What `handle` keeps across the call of the rest of the chain. -/
structure Handling where
  persistedId : Bytes
  created : Bool
  session : Session

/-- `load_or_create` and `age_flash`; the token is used if there is no session to load. -/
def loadOrCreate (store : Store) (cookie token : Bytes) : Handling :=
  match if validSessionId cookie then store.load cookie else none with
  | some loaded => ⟨cookie, false, loaded.ageFlash⟩
  | none => ⟨[], true, (Session.create token).ageFlash⟩

namespace Handling

/-- The check behind the chain; the token is used if the handler left no usable id. -/
def settle (handling : Handling) (token : Bytes) : Handling :=
  if handling.session.id = [] ∨ validSessionId handling.session.id = false then
    { handling with session := handling.session.regenerate token }
  else handling

def rotated (handling : Handling) : Bool :=
  handling.session.regenerated ||
    (handling.persistedId ≠ [] && handling.persistedId ≠ handling.session.id)

/-- The old id is erased before the session is saved. -/
def erases (handling : Handling) : Bool :=
  handling.rotated && handling.persistedId ≠ [] && handling.persistedId ≠ handling.session.id

end Handling

end Gungnir.Sessions

import Gungnir.Sessions.Session
import Gungnir.Library.Transition

/-!
# Revocation of a session id

Any number of requests pass through `StartSession` with one store; every load, save and
erase is one step, and the steps of the requests interleave freely. An id that a request
rotated stays unusable as long as no request saves its session under an id that has left
the store since it was loaded.
-/

namespace Gungnir.Sessions

open Gungnir.Core Gungnir.Library

/-- What a handler does with its session. New ids come from `random_token`. -/
inductive Operation where
  | put (key value : Bytes)
  | forget (key : Bytes)
  | clear
  | flash (key value : Bytes)
  | regenerate (token : Bytes)
  | invalidate (token : Bytes)
  deriving DecidableEq, Repr

namespace Operation

def apply (session : Session) : Operation → Session
  | put key value => session.put key value
  | forget key => session.forget key
  | clear => session.clear
  | flash key value => session.flash key value
  | regenerate token => session.regenerate token
  | invalidate token => session.invalidate token

/-- The id that the operation draws. -/
def token : Operation → Option Bytes
  | regenerate token => some token
  | invalidate token => some token
  | _ => none

theorem id_apply (operation : Operation) (session : Session) :
    (operation.apply session).id = operation.token.getD session.id := by
  cases operation <;> rfl

end Operation

inductive Phase where
  /-- The rest of the chain runs. -/
  | handling
  /-- The chain has returned, and the old id is to be erased. -/
  | erasing
  | saving
  | done
  /-- The chain threw an exception. -/
  | failed
  deriving DecidableEq, Repr

/-- A request, and whether its handler rotated the session. -/
structure Request where
  phase : Phase
  handling : Handling
  rotated : Bool

namespace Request

variable (request : Request)

abbrev id : Bytes := request.handling.session.id

abbrev persistedId : Bytes := request.handling.persistedId

/-- The request may still save its session. -/
def Active : Prop := request.phase ≠ .done ∧ request.phase ≠ .failed

/-- The chain has returned. -/
def settle (token : Bytes) : Request :=
  { request with
    phase := if (request.handling.settle token).erases then .erasing else .saving
    handling := request.handling.settle token }

def operate (operation : Operation) : Request :=
  { request with
    handling := { request.handling with session := operation.apply request.handling.session }
    rotated := request.rotated || operation.token.isSome }

/-- The session that is saved. -/
def finish : Request :=
  { request with
    phase := .done
    handling := { request.handling with session := request.handling.session.markPersisted } }

end Request

/-- The store, the requests and the ids that have been drawn. -/
structure System where
  store : Store
  requests : Nat → Option Request
  tokens : List Bytes

namespace System

def initial : System := ⟨∅, fun _ => none, []⟩

def set (system : System) (index : Nat) (request : Request) : System :=
  { system with requests := Function.update system.requests index (some request) }

def draw (system : System) (token : Bytes) : System :=
  { system with tokens := token :: system.tokens }

end System

inductive Event where
  | load (index : Nat) (cookie token : Bytes)
  | operate (index : Nat) (operation : Operation)
  | fail (index : Nat)
  | settle (index : Nat) (token : Bytes)
  | erase (index : Nat)
  | save (index : Nat)
  deriving DecidableEq, Repr

namespace Event

variable (system : System)

/-- The request of an event is in the given phase. -/
def At (index : Nat) (phase : Phase) : Prop :=
  (system.requests index).map Request.phase = some phase

instance (system : System) (index : Nat) (phase : Phase) : Decidable (At system index phase) :=
  inferInstanceAs (Decidable (_ = _))

/-- What `random_token` returns: an id, and a different one every time. -/
def Fresh (token : Bytes) : Prop :=
  validSessionId token = true ∧ token ∉ system.tokens

instance (system : System) (token : Bytes) : Decidable (Fresh system token) :=
  inferInstanceAs (Decidable (_ ∧ _))

def Enabled : Event → Prop
  | load index _ token => (system.requests index).isNone = true ∧ Fresh system token
  | operate index operation =>
    At system index .handling ∧ ∀ token ∈ operation.token, Fresh system token
  | fail index => At system index .handling
  | settle index token => At system index .handling ∧ Fresh system token
  | erase index => At system index .erasing
  | save index => At system index .saving

instance (system : System) : (event : Event) → Decidable (Enabled system event)
  | load _ _ _ | operate _ _ | settle _ _ => inferInstanceAs (Decidable (_ ∧ _))
  | fail _ | erase _ | save _ => inferInstanceAs (Decidable (At _ _ _))

/-- An event of a request that there is. -/
def update (index : Nat) (change : Request → System) : System :=
  match system.requests index with
  | some request => change request
  | none => system

def next : Event → System
  | load index cookie token =>
    (system.set index ⟨.handling, loadOrCreate system.store cookie token, false⟩).draw token
  | operate index operation =>
    update system index fun request =>
      let moved := system.set index (request.operate operation)
      match operation.token with
      | some token => moved.draw token
      | none => moved
  | fail index =>
    update system index fun request => system.set index { request with phase := .failed }
  | settle index token =>
    update system index fun request => (system.set index (request.settle token)).draw token
  | erase index =>
    update system index fun request =>
      { system.set index { request with phase := .saving } with
        store := system.store.erase request.persistedId }
  | save index =>
    update system index fun request =>
      { system.set index request.finish with
        store := system.store.save request.finish.handling.session }

end Event

open Event (Enabled Fresh next)

/-- Once a request has completed whose handler rotated the session that it had loaded, the
store has no session under the loaded id. -/
def Revoked (system : System) : Prop :=
  ∀ index request, system.requests index = some request → request.phase = .done →
    request.rotated = true → request.persistedId ≠ [] →
      system.store.load request.persistedId = none

/-- A session is saved under the id it was loaded under only while the store has this id. -/
def Current (transition : Transition System Event) : Prop :=
  match transition.label with
  | .save index => ∀ request, transition.before.requests index = some request →
      request.id = request.persistedId →
        (transition.before.store.load request.id).isSome = true
  | _ => True

instance : (transition : Transition System Event) → Decidable (Current transition)
  | ⟨before, .save index, _⟩ =>
    inferInstanceAs (Decidable (∀ _ ∈ before.requests index, _ → _ = true))
  | ⟨_, .load _ _ _, _⟩ | ⟨_, .operate _ _, _⟩ | ⟨_, .fail _, _⟩ | ⟨_, .settle _ _, _⟩
  | ⟨_, .erase _, _⟩ => inferInstanceAs (Decidable True)

/-! ## What holds in every run -/

/-- The id of a request that is its own: drawn by the request and not yet saved. -/
def Request.Owns (request : Request) (id : Bytes) : Prop :=
  request.Active ∧ request.id = id ∧ request.id ≠ request.persistedId

/-- A request that has erased the id it loaded. -/
def Request.Erased (request : Request) : Prop :=
  request.rotated = true ∧ request.persistedId ≠ [] ∧
    (request.phase = .saving ∨ request.phase = .done)

structure Invariant (system : System) : Prop where
  stored : ∀ id session, system.store.load id = some session →
    session.id = id ∧ id ∈ system.tokens
  valid : ∀ token ∈ system.tokens, token ≠ []
  drawn : ∀ index request, system.requests index = some request →
    request.id ∈ system.tokens ∧ (request.persistedId ≠ [] → request.persistedId ∈ system.tokens)
  rotated : ∀ index request, system.requests index = some request → request.rotated = true →
    request.id ≠ request.persistedId
  unsaved : ∀ index request id, system.requests index = some request → request.Owns id →
    system.store.load id = none
  single : ∀ index request id, system.requests index = some request → request.Owns id →
    ∀ other found, system.requests other = some found →
      found.persistedId ≠ id ∧ (other ≠ index → found.Active → found.id ≠ id)
  erased : ∀ index request, system.requests index = some request → request.Erased →
    system.store.load request.persistedId = none

theorem invariant_initial : Invariant System.initial where
  stored := nofun
  valid := nofun
  drawn := nofun
  rotated := nofun
  unsaved := nofun
  single := nofun
  erased := nofun

/-- What a change of one request has to keep. -/
structure Change (system : System) (index : Nat) (request : Request) (after : System) : Prop where
  requests : after.requests = Function.update system.requests index (some request)
  tokens : ∀ token ∈ system.tokens, token ∈ after.tokens
  stored : ∀ id session, after.store.load id = some session → session.id = id ∧ id ∈ after.tokens
  valid : ∀ token ∈ after.tokens, token ≠ []
  drawn : request.id ∈ after.tokens ∧
    (request.persistedId ≠ [] → request.persistedId ∈ after.tokens)
  rotated : request.rotated = true → request.id ≠ request.persistedId
  unsaved : ∀ id, request.Owns id → after.store.load id = none
  single : ∀ id, request.Owns id → request.persistedId ≠ id ∧
    ∀ other found, other ≠ index → system.requests other = some found →
      found.persistedId ≠ id ∧ (found.Active → found.id ≠ id)
  others : ∀ other found id, other ≠ index → system.requests other = some found → found.Owns id →
    after.store.load id = none ∧ request.persistedId ≠ id ∧ (request.Active → request.id ≠ id)
  erased : request.Erased → after.store.load request.persistedId = none
  kept : ∀ other found, other ≠ index → system.requests other = some found → found.Erased →
    after.store.load found.persistedId = none

theorem Invariant.change {system after : System} (invariant : Invariant system) {index : Nat}
    {request : Request} (change : Change system index request after) : Invariant after := by
  have split : ∀ other found, after.requests other = some found →
      (other = index ∧ found = request) ∨ (other ≠ index ∧ system.requests other = some found) := by
    intro other found listed
    rw [change.requests] at listed
    exact update_eq_some listed
  refine ⟨change.stored, change.valid, ?_, ?_, ?_, ?_, ?_⟩
  · intro other found listed
    rcases split other found listed with ⟨_, rfl⟩ | ⟨_, before⟩
    · exact change.drawn
    · obtain ⟨id, persisted⟩ := invariant.drawn other found before
      exact ⟨change.tokens _ id, fun loaded => change.tokens _ (persisted loaded)⟩
  · intro other found listed
    rcases split other found listed with ⟨_, rfl⟩ | ⟨_, before⟩
    · exact change.rotated
    · exact invariant.rotated other found before
  · intro other found id listed owns
    rcases split other found listed with ⟨_, rfl⟩ | ⟨differs, before⟩
    · exact change.unsaved id owns
    · exact (change.others other found id differs before owns).1
  · intro other found id listed owns third reached foundThird
    rcases split other found listed with ⟨same, rfl⟩ | ⟨differs, before⟩
    · obtain ⟨own, apart⟩ := change.single id owns
      rcases split third reached foundThird with ⟨sameThird, rfl⟩ | ⟨differsThird, beforeThird⟩
      · exact ⟨own, fun unequal => absurd (sameThird.trans same.symm) unequal⟩
      · obtain ⟨persisted, active⟩ := apart third reached differsThird beforeThird
        exact ⟨persisted, fun _ => active⟩
    · rcases split third reached foundThird with ⟨_, rfl⟩ | ⟨_, beforeThird⟩
      · obtain ⟨_, persisted, active⟩ := change.others other found id differs before owns
        exact ⟨persisted, fun _ => active⟩
      · exact invariant.single other found id before owns third reached beforeThird
  · intro other found listed erased
    rcases split other found listed with ⟨_, rfl⟩ | ⟨differs, before⟩
    · exact change.erased erased
    · exact change.kept other found differs before erased

/-! ## The steps -/

variable {system after : System} {index : Nat} {request : Request} {token : Bytes}

/-- No session and no request has the id. -/
def Unused (system : System) (token : Bytes) : Prop :=
  system.store.load token = none ∧ ∀ index request, system.requests index = some request →
    request.persistedId ≠ token ∧ request.id ≠ token

theorem Fresh.ne_nil (fresh : Fresh system token) : token ≠ [] := by
  rintro rfl
  exact absurd fresh.1 (by decide)

theorem Event.update_listed (listed : system.requests index = some request)
    (change : Request → System) : Event.update system index change = change request := by
  rw [Event.update, listed]

theorem active_of_phase {phase : Phase} (reached : request.phase = phase)
    (live : phase ≠ .done ∧ phase ≠ .failed) : request.Active :=
  ⟨reached ▸ live.1, reached ▸ live.2⟩

theorem exists_of_at {phase : Phase} (reached : Event.At system index phase) :
    ∃ request, system.requests index = some request ∧ request.phase = phase :=
  Option.map_eq_some_iff.mp reached

section

variable (invariant : Invariant system)
include invariant

theorem Invariant.unused (fresh : Fresh system token) : Unused system token := by
  refine ⟨?_, fun index request listed => ?_⟩
  · cases found : system.store.load token with
    | none => rfl
    | some session => exact absurd (invariant.stored token session found).2 fresh.2
  · obtain ⟨id, persisted⟩ := invariant.drawn index request listed
    refine ⟨?_, fun same => fresh.2 (same ▸ id)⟩
    intro same
    have loaded : request.persistedId ≠ [] := same ▸ Fresh.ne_nil fresh
    exact fresh.2 (same ▸ persisted loaded)

theorem Invariant.draw (fresh : Fresh system token) : Invariant (system.draw token) where
  stored := fun id session found =>
    (invariant.stored id session found).imp_right (List.mem_cons_of_mem _)
  valid := List.forall_mem_cons.mpr ⟨Fresh.ne_nil fresh, invariant.valid⟩
  drawn := fun index request listed => (invariant.drawn index request listed).imp
    (List.mem_cons_of_mem _) fun persisted loaded => List.mem_cons_of_mem _ (persisted loaded)
  rotated := invariant.rotated
  unsaved := invariant.unsaved
  single := invariant.single
  erased := invariant.erased

theorem Invariant.load (cookie : Bytes) (fresh : Fresh system token) :
    Invariant (next system (.load index cookie token)) := by
  have drawn := invariant.draw fresh
  show Invariant ((system.draw token).set index
    ⟨.handling, loadOrCreate system.store cookie token, false⟩)
  cases loaded : (if validSessionId cookie then system.store.load cookie else none) with
  | some session =>
    have handling : loadOrCreate system.store cookie token =
        ⟨cookie, false, session.ageFlash⟩ := by
      unfold loadOrCreate
      rw [loaded]
    have found : system.store.load cookie = some session := by
      split at loaded
      · exact loaded
      · cases loaded
    obtain ⟨sameId, member⟩ := drawn.stored cookie session found
    rw [handling]
    refine drawn.change ⟨rfl, fun _ member => member, drawn.stored, drawn.valid,
      ⟨?_, fun _ => member⟩, nofun, ?_, ?_, ?_, ?_, fun other found _ => drawn.erased other found⟩
    · show session.id ∈ _
      rw [sameId]
      exact member
    · rintro own ⟨_, _, differs⟩
      exact absurd sameId differs
    · rintro own ⟨_, _, differs⟩
      exact absurd sameId differs
    · intro other request own _ listed owns
      have unsaved := invariant.unsaved other request own listed owns
      have apart : cookie ≠ own := by
        rintro rfl
        rw [found] at unsaved
        cases unsaved
      exact ⟨unsaved, apart, fun _ same => apart (sameId.symm.trans same)⟩
    · rintro ⟨impossible, _⟩
      cases impossible
  | none =>
    obtain ⟨absent, apart⟩ := invariant.unused fresh
    have handling : loadOrCreate system.store cookie token =
        ⟨[], true, (Session.create token).ageFlash⟩ := by
      unfold loadOrCreate
      rw [loaded]
    rw [handling]
    refine drawn.change ⟨rfl, fun _ member => member, drawn.stored, drawn.valid,
      ⟨List.mem_cons_self, fun empty => absurd rfl empty⟩, nofun, ?_, ?_, ?_, ?_,
      fun other found _ => drawn.erased other found⟩
    · rintro own ⟨_, rfl, _⟩
      exact absent
    · rintro own ⟨_, rfl, _⟩
      refine ⟨(Fresh.ne_nil fresh).symm, fun other found _ listed => ?_⟩
      exact (apart other found listed).imp_right fun id _ => id
    · intro other request own _ listed owns
      refine ⟨invariant.unsaved other request own listed owns, ?_, fun _ => ?_⟩
      · rintro rfl
        exact invariant.valid _ (invariant.drawn other request listed).1 owns.2.1
      · rw [← owns.2.1]
        exact (apart other request listed).2.symm
    · rintro ⟨impossible, _⟩
      cases impossible

section

variable (listed : system.requests index = some request)
include listed

/-- A step that adds nothing to the store: the request keeps its id or takes one that is drawn. -/
theorem Invariant.keep (active : request.Active) {moved : Request}
    (requests : after.requests = Function.update system.requests index (some moved))
    (store : ∀ id session, after.store.load id = some session → system.store.load id = some session)
    (tokens : after.tokens = system.tokens) (persisted : moved.persistedId = request.persistedId)
    (id : moved.id = request.id ∨ (Unused system moved.id ∧ moved.id ∈ system.tokens))
    (rotated : moved.rotated = true → moved.id ≠ moved.persistedId)
    (erases : moved.Erased → after.store.load moved.persistedId = none) : Invariant after := by
  have gone : ∀ id, system.store.load id = none → after.store.load id = none := by
    intro id none
    cases found : after.store.load id with
    | none => rfl
    | some session => cases none.symm.trans (store id session found)
  have drawn := invariant.drawn index request listed
  have own : moved.id ≠ moved.persistedId → system.store.load moved.id = none ∧
      ∀ other found, other ≠ index → system.requests other = some found →
        found.persistedId ≠ moved.id ∧ (found.Active → found.id ≠ moved.id) := by
    intro differs
    rcases id with same | ⟨unused, _⟩
    · rw [persisted, same] at differs
      rw [same]
      have owns : request.Owns request.id := ⟨active, rfl, differs⟩
      refine ⟨invariant.unsaved index request _ listed owns, fun other found unequal reached => ?_⟩
      obtain ⟨apart, ids⟩ := invariant.single index request _ listed owns other found reached
      exact ⟨apart, ids unequal⟩
    · exact ⟨unused.1, fun other found _ reached =>
        (unused.2 other found reached).imp_right fun ids _ => ids⟩
  refine invariant.change ⟨requests, fun _ member => tokens ▸ member, ?_, tokens ▸ invariant.valid,
    ?_, rotated, ?_, ?_, ?_, erases, ?_⟩
  · intro key session found
    rw [tokens]
    exact invariant.stored key session (store key session found)
  · rw [tokens, persisted]
    refine ⟨?_, drawn.2⟩
    rcases id with same | ⟨_, member⟩
    · exact same ▸ drawn.1
    · exact member
  · rintro _ ⟨_, rfl, differs⟩
    exact gone _ (own differs).1
  · rintro _ ⟨_, rfl, differs⟩
    exact ⟨fun same => differs same.symm, (own differs).2⟩
  · intro other found own unequal reached owns
    obtain ⟨apart, ids⟩ := invariant.single other found own reached owns index request listed
    rw [persisted]
    refine ⟨gone own (invariant.unsaved other found own reached owns), apart, fun _ => ?_⟩
    rcases id with same | ⟨unused, _⟩
    · rw [same]
      exact ids (Ne.symm unequal) active
    · rw [← owns.2.1]
      exact (unused.2 other found reached).2.symm
  · intro other found _ reached erased
    exact gone _ (invariant.erased other found reached erased)

theorem Invariant.erase (phase : request.phase = .erasing) :
    Invariant (next system (.erase index)) := by
  rw [next, Event.update_listed listed]
  refine invariant.keep listed (active_of_phase phase ⟨nofun, nofun⟩) rfl
    (fun id session found => ?_) rfl rfl (.inl rfl) (invariant.rotated index request listed)
    fun _ => ?_
  · rw [Store.load_erase] at found
    split at found
    · cases found
    · exact found
  · exact (Store.load_erase _ _ _).trans (if_pos rfl)

/-- Saving keeps what was erased, if the id the request was loaded under is still there. -/
theorem Invariant.save (phase : request.phase = .saving)
    (current : request.id = request.persistedId → (system.store.load request.id).isSome = true) :
    Invariant (next system (.save index)) := by
  have active := active_of_phase phase ⟨nofun, nofun⟩
  have drawn := invariant.drawn index request listed
  have gone : ∀ id, id ≠ request.id → system.store.load id = none →
      (system.store.save request.finish.handling.session).load id = none := by
    intro id differs none
    rw [Store.load_save]
    exact (if_neg differs).trans none
  have finished : ∀ id, ¬ request.finish.Owns id := fun id owns => owns.1.1 rfl
  rw [next, Event.update_listed listed]
  refine invariant.change ⟨rfl, fun _ member => member, ?_, invariant.valid, drawn,
    invariant.rotated index request listed, fun id owns => absurd owns (finished id),
    fun id owns => absurd owns (finished id), ?_, ?_, ?_⟩
  · intro id session found
    rw [Store.load_save] at found
    split at found
    · rename_i same
      cases found
      exact ⟨same.symm, same ▸ drawn.1⟩
    · exact invariant.stored id session found
  · intro other found own unequal reached owns
    obtain ⟨persisted, ids⟩ := invariant.single other found own reached owns index request listed
    have differs := ids (Ne.symm unequal) active
    exact ⟨gone own differs.symm (invariant.unsaved other found own reached owns), persisted,
      fun _ => differs⟩
  · rintro ⟨rotated, loaded, _⟩
    have erased := invariant.erased index request listed ⟨rotated, loaded, .inl phase⟩
    exact gone _ (invariant.rotated index request listed rotated).symm erased
  · intro other found _ reached erased
    have none := invariant.erased other found reached erased
    refine gone _ (fun same => ?_) none
    by_cases own : request.id = request.persistedId
    · have present := current own
      rw [← same, none] at present
      cases present
    · exact (invariant.single index request _ listed ⟨active, rfl, own⟩ other found reached).1 same

section

variable (phase : request.phase = .handling)
include phase

theorem Invariant.operate {operation : Operation}
    (fresh : ∀ token ∈ operation.token, Fresh system token) :
    Invariant (next system (.operate index operation)) := by
  have active := active_of_phase phase ⟨nofun, nofun⟩
  have intact : ¬ (request.operate operation).Erased := by
    rintro ⟨_, _, saving | done⟩
    · exact absurd (phase.symm.trans saving) nofun
    · exact absurd (phase.symm.trans done) nofun
  have id : (request.operate operation).id = operation.token.getD request.id :=
    operation.id_apply request.handling.session
  rw [next, Event.update_listed listed]
  cases drawn : operation.token with
  | none =>
    rw [drawn, Option.getD_none] at id
    have flag : (request.operate operation).rotated = request.rotated := by
      simp only [Request.operate, drawn, Option.isSome_none, Bool.or_false]
    refine invariant.keep listed active rfl (fun _ _ found => found) rfl rfl (.inl id) ?_
      (absurd · intact)
    intro turned
    rw [id]
    exact invariant.rotated index request listed (flag ▸ turned)
  | some token =>
    have new := fresh token drawn
    have unused := invariant.unused new
    rw [drawn, Option.getD_some] at id
    refine (invariant.draw new).keep listed active rfl (fun _ _ found => found) rfl rfl (.inr ?_) ?_
      (absurd · intact)
    · rw [id]
      exact ⟨unused, List.mem_cons_self⟩
    · intro _
      rw [id]
      exact (unused.2 index request listed).1.symm

theorem Invariant.fail : Invariant (next system (.fail index)) := by
  rw [next, Event.update_listed listed]
  refine invariant.keep listed (active_of_phase phase ⟨nofun, nofun⟩) rfl (fun _ _ found => found)
    rfl rfl (.inl rfl) (invariant.rotated index request listed) ?_
  rintro ⟨_, _, impossible | impossible⟩
  · cases impossible
  · cases impossible

theorem Invariant.settle (fresh : Fresh system token) :
    Invariant (next system (.settle index token)) := by
  have unused := invariant.unused fresh
  have persisted : (request.settle token).persistedId = request.persistedId := by
    show (request.handling.settle token).persistedId = _
    unfold Handling.settle
    split <;> rfl
  have id : (request.settle token).id = request.id ∨ (request.settle token).id = token := by
    unfold Request.settle Request.id Handling.settle
    split
    · exact .inr rfl
    · exact .inl rfl
  have rotated : (request.settle token).rotated = true →
      (request.settle token).id ≠ (request.settle token).persistedId := by
    intro turned
    rw [persisted]
    rcases id with same | new
    · rw [same]
      exact invariant.rotated index request listed turned
    · rw [new]
      exact (unused.2 index request listed).1.symm
  rw [next, Event.update_listed listed]
  refine (invariant.draw fresh).keep listed (active_of_phase phase ⟨nofun, nofun⟩) rfl
    (fun _ _ found => found) rfl persisted ?_ rotated ?_
  · rcases id with same | new
    · exact .inl same
    · rw [new]
      exact .inr ⟨unused, List.mem_cons_self⟩
  · -- A rotated session is erased first.
    rintro ⟨turned, loaded, later⟩
    have differs := rotated turned
    have erases : (request.handling.settle token).erases = true := by
      have nonempty : decide ((request.handling.settle token).persistedId ≠ []) = true :=
        decide_eq_true loaded
      have unequal : decide ((request.handling.settle token).persistedId ≠
          (request.handling.settle token).session.id) = true :=
        decide_eq_true differs.symm
      simp only [Handling.erases, Handling.rotated, nonempty, unequal, Bool.and_self,
        Bool.or_true]
    have moving : (request.settle token).phase = .erasing := if_pos erases
    rw [moving] at later
    rcases later with impossible | impossible
    · cases impossible
    · cases impossible

end

end

/-- A step that is current keeps the invariant. -/
theorem Invariant.next {event : Event} (enabled : Enabled system event)
    (current : Current ⟨system, event, Event.next system event⟩) :
    Invariant (Event.next system event) := by
  cases event with
  | load index cookie token =>
    exact invariant.load cookie enabled.2
  | operate index operation =>
    obtain ⟨request, listed, phase⟩ := exists_of_at enabled.1
    exact invariant.operate listed phase enabled.2
  | fail index =>
    obtain ⟨request, listed, phase⟩ := exists_of_at enabled
    exact invariant.fail listed phase
  | settle index token =>
    obtain ⟨request, listed, phase⟩ := exists_of_at enabled.1
    exact invariant.settle listed phase enabled.2
  | erase index =>
    obtain ⟨request, listed, phase⟩ := exists_of_at enabled
    exact invariant.erase listed phase
  | save index =>
    obtain ⟨request, listed, phase⟩ := exists_of_at enabled
    exact invariant.save listed phase (current request listed)

end

/-! ## Runs -/

/-- An id of 64 equal digits. -/
def sampleToken (digit : UInt8) : Bytes := List.replicate 64 digit

/-- Request 0 creates a session. Requests 1 and 2 load it; request 1 logs in, which
rotates the session, and completes; then request 2 completes. -/
def revivingEvents : List Event :=
  [.load 0 [] (sampleToken 48), .settle 0 (sampleToken 49), .save 0,
    .load 1 (sampleToken 48) (sampleToken 50), .load 2 (sampleToken 48) (sampleToken 51),
    .operate 1 (.regenerate (sampleToken 52)), .settle 1 (sampleToken 53), .erase 1, .save 1,
    .settle 2 (sampleToken 54), .save 2]

end Gungnir.Sessions

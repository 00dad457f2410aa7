import Gungnir.Auth.SessionGuard
import Gungnir.Library.Transition

/-!
# Remember tokens

Any number of requests call the guard with one token store; every store call is one step,
may fail, and the steps of the requests interleave freely. A token is consumed at most
once, and a token that a completed login or logout has retired is never consumed again.
-/

namespace Gungnir.Auth

open Gungnir.Core Gungnir.Library List

/-- How a store call fails: before or after it took effect. -/
inductive Fault where
  | none
  | lost (exception : Exception)
  | late (exception : Exception)
  deriving DecidableEq, Repr

def Fault.apply {α : Type} (before : Entries) (performed : Except Exception α × Entries) :
    Fault → Except Exception α × Entries
  | none => performed
  | lost exception => (.error exception, before)
  | late exception => (.error exception, performed.2)

/-- A token that has been put. -/
structure Issue where
  token : Bytes
  identity : Bytes
  expires : Int
  deriving DecidableEq, Repr

structure System where
  entries : Entries
  requests : Nat → Option Request
  issued : List Issue

namespace System

def initial : System := ⟨∅, fun _ => none, []⟩

def set (system : System) (index : Nat) (request : Request) : System :=
  { system with requests := Function.update system.requests index (some request) }

def tokens (system : System) : List Bytes := system.issued.map Issue.token

end System

inductive Event where
  | arrive (index : Nat) (cookie : Bytes) (session : Sessions.Session) (auth : Option Context)
  | login (index : Nat) (now : Int) (identity : Bytes) (remember : Bool) (newId : Bytes)
  | recallToken (index : Nat) (newId : Bytes)
  | logout (index : Nat) (newId : Bytes)
  | consume (index : Nat) (now : Int) (fault : Fault) (resolved : Except Exception (Option Bytes))
  | put (index : Nat) (now : Int) (fault : Fault) (token : Bytes)
  | revokeSession (index : Nat) (now : Int) (fault : Fault)
  | revokeCookie (index : Nat) (now : Int) (fault : Fault)

def Event.index : Event → Nat
  | arrive index _ _ _ | login index _ _ _ _ | recallToken index _ | logout index _
  | consume index _ _ _ | put index _ _ _ | revokeSession index _ _ | revokeCookie index _ _ =>
    index

def Request.arrived (cookie : Bytes) (session : Sessions.Session) (auth : Option Context) :
    Request :=
  ⟨cookie, session, auth, [], .login, .idle, [], none, []⟩

def Request.start (request : Request) (call : Call) (newId : Bytes) (known : List Bytes) :
    Request :=
  { request with call := call, newId := newId, known := known }

section Guard

variable (store : RememberStore) (options : LoginOptions) (hash : TokenDigest) (system : System)

/-- The step of a request, with what it leaves in the store and what it issues. -/
def advance (request : Request) : Event → Request × Entries × List Issue
  | .arrive _ _ _ _ => (request, system.entries, [])
  | .login _ now identity remember newId =>
    ((request.start .login newId system.tokens).login options hash now identity remember,
      system.entries, [])
  | .recallToken _ newId =>
    ((request.start .recallToken newId system.tokens).recallToken, system.entries, [])
  | .logout _ newId =>
    ((request.start .logout newId system.tokens).revoke options hash .logout,
      system.entries, [])
  | .consume _ now fault resolved =>
    let ran := fault.apply system.entries
      (store.consume now system.entries (hash request.cookie))
    (request.recallRest options hash now resolved ran.1, ran.2, [])
  | .put _ now fault token =>
    match request.phase with
    | .put identity expires =>
      let ran := fault.apply system.entries
        (store.put now system.entries (hash token) identity expires)
      (request.proceed (request.revoke options hash (.login identity (some token))) ran.1,
        ran.2, [⟨token, identity, expires⟩])
    | _ => (request, system.entries, [])
  | .revokeSession _ now fault =>
    match request.phase with
    | .revokeSession pending =>
      let ran := fault.apply system.entries
        (store.revoke now system.entries request.recorded)
      (request.proceed (request.revokeRest options hash pending) ran.1, ran.2, [])
    | _ => (request, system.entries, [])
  | .revokeCookie _ now fault =>
    match request.phase with
    | .revokeCookie pending =>
      let ran := fault.apply system.entries
        (store.revoke now system.entries (hash request.cookie))
      (request.proceed (request.finish options hash pending) ran.1, ran.2, [])
    | _ => (request, system.entries, [])

def next (event : Event) : System :=
  match event with
  | .arrive index cookie session auth => system.set index (.arrived cookie session auth)
  | _ =>
    match system.requests event.index with
    | none => system
    | some request =>
      let moved := advance store options hash system request event
      { system.set event.index moved.1 with
        entries := moved.2.1
        issued := moved.2.2 ++ system.issued }

/-- What `random_token` returns: 64 characters, and a digest of its own. -/
def Fresh (token : Bytes) : Prop :=
  token.length = 64 ∧ hash token ∉ system.tokens.map hash

instance (system : System) (token : Bytes) : Decidable (Fresh hash system token) :=
  inferInstanceAs (Decidable (_ ∧ _))

def awaited : Event → Phase → Bool
  | .login _ _ _ _ _, .idle | .recallToken _ _, .idle | .logout _ _, .idle
  | .consume _ _ _ _, .consume | .put _ _ _ _, .put _ _
  | .revokeSession _ _ _, .revokeSession _ | .revokeCookie _ _ _, .revokeCookie _ => true
  | _, _ => false

def Awaits (event : Event) (phase : Phase) : Prop := awaited event phase = true

instance (event : Event) (phase : Phase) : Decidable (Awaits event phase) :=
  inferInstanceAs (Decidable (_ = true))

def Enabled (event : Event) : Prop :=
  match event with
  | .arrive index _ _ _ => (system.requests index).isNone = true
  | .put index _ _ token =>
    (∃ request ∈ system.requests index, Awaits event request.phase) ∧ Fresh hash system token
  | _ => ∃ request ∈ system.requests event.index, Awaits event request.phase

instance (system : System) : (event : Event) → Decidable (Enabled hash system event)
  | .arrive _ _ _ _ => inferInstanceAs (Decidable (_ = true))
  | .put _ _ _ _ => inferInstanceAs (Decidable ((∃ _ ∈ _, Awaits _ _) ∧ _))
  | .login _ _ _ _ _ | .recallToken _ _ | .logout _ _ | .consume _ _ _ _ | .revokeSession _ _ _
  | .revokeCookie _ _ _ => inferInstanceAs (Decidable (∃ _ ∈ _, Awaits _ _))

/-! ## What is observed of a step -/

/-- A token that the store let pass. -/
structure Acceptance where
  digest : Bytes
  identity : Bytes
  time : Int
  deriving DecidableEq, Repr

variable (transition : Transition System Event)

/-- The token that a step consumes for its request. -/
def accepted : Option Acceptance :=
  match transition.label with
  | .consume index now fault _ =>
    match transition.before.requests index with
    | none => none
    | some request =>
      match (fault.apply transition.before.entries (store.consume now
        transition.before.entries (hash request.cookie))).1 with
      | .ok (some identity) => some ⟨hash request.cookie, identity, now⟩
      | _ => none
  | _ => none

/-- The request before and after the step that completes its login or logout. -/
def completes : Option (Request × Request) :=
  match transition.before.requests transition.label.index,
      transition.after.requests transition.label.index with
  | some before, some after => if after.completed then some (before, after) else none
  | _, _ => none

/-- The digests of the tokens that a step retires: the token that the request carries and
the one recorded in its session, as far as they had been issued when the call began. -/
def retired : List Bytes :=
  match completes transition with
  | some (before, after) =>
    (if before.recorded ∈ after.known.map hash then [before.recorded] else []) ++
      if before.cookie ∈ after.known then [hash before.cookie] else []
  | none => []

/-- The digest and the identity of a recall that succeeds. -/
def recalled : Option (Bytes × Option Bytes) :=
  match completes transition with
  | some (before, after) =>
    if after.call = .recallToken then
      some (hash before.cookie, after.auth.bind Context.identity)
    else none
  | none => none

/-! ## The store -/

variable {store options hash} {system : System} {request : Request} {event : Event}

def Issue.entry (store : RememberStore) (issue : Issue) : Expiring Int Bytes :=
  ⟨issue.identity, some (store.deadline issue.expires)⟩

variable (store options hash system) in
/-- What a step makes of its request, what it leaves in the store and what it issues. -/
inductive Moved (request : Request) : Event → Request → Entries → List Issue → Prop where
  | login (index : Nat) (now : Int) (identity : Bytes) (remember : Bool) (newId : Bytes) :
      Moved request (.login index now identity remember newId)
        ((request.start .login newId system.tokens).login options hash now identity remember)
        system.entries []
  | recallToken (index : Nat) (newId : Bytes) :
      Moved request (.recallToken index newId)
        (request.start .recallToken newId system.tokens).recallToken system.entries []
  | logout (index : Nat) (newId : Bytes) :
      Moved request (.logout index newId)
        ((request.start .logout newId system.tokens).revoke options hash .logout)
        system.entries []
  | consume {index : Nat} {now : Int} {fault : Fault} {resolved : Except Exception (Option Bytes)}
      {result : Except Exception (Option Bytes)} {entries : Entries}
      (ran : fault.apply system.entries (store.consume now system.entries (hash request.cookie)) =
        (result, entries)) :
      Moved request (.consume index now fault resolved)
        (request.recallRest options hash now resolved result) entries []
  | put {index : Nat} {now : Int} {fault : Fault} {token identity : Bytes} {expires : Int}
      {result : Except Exception Unit} {entries : Entries}
      (phase : request.phase = .put identity expires)
      (ran : fault.apply system.entries
        (store.put now system.entries (hash token) identity expires) = (result, entries)) :
      Moved request (.put index now fault token)
        (request.proceed (request.revoke options hash (.login identity (some token))) result)
        entries [⟨token, identity, expires⟩]
  | revokeSession {index : Nat} {now : Int} {fault : Fault} {pending : Pending}
      {result : Except Exception Unit} {entries : Entries}
      (phase : request.phase = .revokeSession pending)
      (ran : fault.apply system.entries (store.revoke now system.entries request.recorded) =
        (result, entries)) :
      Moved request (.revokeSession index now fault)
        (request.proceed (request.revokeRest options hash pending) result) entries []
  | revokeCookie {index : Nat} {now : Int} {fault : Fault} {pending : Pending}
      {result : Except Exception Unit} {entries : Entries}
      (phase : request.phase = .revokeCookie pending)
      (ran : fault.apply system.entries (store.revoke now system.entries (hash request.cookie)) =
        (result, entries)) :
      Moved request (.revokeCookie index now fault)
        (request.proceed (request.finish options hash pending) result) entries []

theorem advance_moved (awaits : Awaits event request.phase) :
    Moved store options hash system request event
      (advance store options hash system request event).1
      (advance store options hash system request event).2.1
      (advance store options hash system request event).2.2 := by
  cases event with
  | arrive => exact absurd awaits nofun
  | login index now identity remember newId => exact .login index now identity remember newId
  | recallToken index newId => exact .recallToken index newId
  | logout index newId => exact .logout index newId
  | consume index now fault resolved => exact .consume rfl
  | put index now fault token =>
    cases phase : request.phase with
    | put identity expires =>
      simp only [advance, phase]
      exact .put phase rfl
    | idle | consume | revokeSession | revokeCookie =>
      rw [phase] at awaits
      exact absurd awaits nofun
  | revokeSession index now fault =>
    cases phase : request.phase with
    | revokeSession pending =>
      simp only [advance, phase]
      exact .revokeSession phase rfl
    | idle | consume | put | revokeCookie =>
      rw [phase] at awaits
      exact absurd awaits nofun
  | revokeCookie index now fault =>
    cases phase : request.phase with
    | revokeCookie pending =>
      simp only [advance, phase]
      exact .revokeCookie phase rfl
    | idle | consume | put | revokeSession =>
      rw [phase] at awaits
      exact absurd awaits nofun

variable (store hash) in
/-- What a step does to the store: it takes entries away, or puts the entry of a new token. -/
inductive Effect (system : System) : Entries → List Issue → Prop where
  | shrinks {entries : Entries}
      (less : ∀ digest entry, store.find entries digest = some entry →
        store.find system.entries digest = some entry) : Effect system entries []
  | puts {entries : Entries} (issue : Issue) (fresh : Fresh hash system issue.token)
      (only : ∀ digest entry, store.find entries digest = some entry →
        (digest = hash issue.token ∧ entry = issue.entry store) ∨
          store.find system.entries digest = some entry) : Effect system entries [issue]

theorem effect_none : Effect store hash system system.entries [] :=
  .shrinks fun _ _ found => found

section Calls

variable {α : Type} {fault : Fault} {before after : Entries}
  {performed : Except Exception α × Entries} {result : Except Exception α}

/-- A store call that may fail leaves the store as it was, or as the call leaves it. -/
theorem Fault.apply_entries (ran : fault.apply before performed = (result, after)) :
    after = before ∨ after = performed.2 := by
  cases fault with
  | none | late exception =>
    cases ran
    exact .inr rfl
  | lost exception =>
    cases ran
    exact .inl rfl

theorem Fault.apply_ok {value : α} (ran : fault.apply before performed = (.ok value, after)) :
    performed = (.ok value, after) := by
  cases fault with
  | none => exact ran
  | lost exception => cases ran
  | late exception => cases ran

end Calls

variable {digest : Bytes} {now : Int} {fault : Fault} {entries : Entries}

theorem effect_removes {α : Type} {performed : Except Exception α × Entries}
    {result : Except Exception α} (removes : store.Removes system.entries digest performed)
    (ran : fault.apply system.entries performed = (result, entries)) :
    Effect store hash system entries [] := by
  refine .shrinks fun other entry found => ?_
  rcases Fault.apply_entries ran with rfl | rfl
  · exact found
  · exact removes.less found

variable {later : Request} {new : List Issue}

theorem Moved.effect (moves : Moved store options hash system request event later entries new)
    (fresh : ∀ index now fault token, event = .put index now fault token →
      Fresh hash system token) : Effect store hash system entries new := by
  cases moves with
  | login | recallToken | logout => exact effect_none
  | consume ran => exact effect_removes RememberStore.consume_removes ran
  | @put index now fault token identity expires result entries phase ran =>
    refine .puts ⟨token, identity, expires⟩ (fresh index now fault token rfl)
      fun digest entry found => ?_
    rcases Fault.apply_entries ran with rfl | rfl
    · exact .inr found
    · exact RememberStore.find_put found
  | revokeSession phase ran | revokeCookie phase ran =>
    exact effect_removes RememberStore.revoke_removes ran

/-! ## The request -/

/-- The request with which a step goes on: its own, or as the call began it. -/
structure Begins (system : System) (request begun : Request) : Prop where
  cookie : begun.cookie = request.cookie
  session : begun.session = request.session
  auth : begun.auth = request.auth
  known : begun.known = request.known ∨ begun.known = system.tokens

section Moves

variable (moves : Moved store options hash system request event later entries new)
include moves

/-- A step takes its request to the next store call. It goes on with a recall only for an
identity that the request holds or whose token has just passed, and it turns to the cookie or
finishes only where the tokens before are gone. -/
theorem Moved.outcome :
    ∃ begun : Request, Begins system request begun ∧ Request.Outcome options hash
      (fun identity => begun.call = .recallToken →
        ∃ index now fault resolved, event = .consume index now fault resolved ∧
          store.consume now system.entries (hash request.cookie) = (.ok (some identity), entries))
      (fun pending => begun.call = .recallToken → request.call = .recallToken ∧
        (∀ identity token, pending = .login identity token → request.held = some identity) ∧
          (pending = .logout → request.pending = some .logout))
      (request.recorded = [] ∨ store.find entries request.recorded = none)
      ((request.recorded = [] ∨ store.find entries request.recorded = none ∨
          ∃ pending, request.phase = .revokeCookie pending ∧ begun.known = request.known) ∧
        (request.cookie.length ≠ 64 ∨ store.find entries (hash request.cookie) = none))
      begun later := by
  cases moves with
  | login index now identity remember newId =>
    exact ⟨request.start .login newId system.tokens, ⟨rfl, rfl, rfl, .inr rfl⟩,
      Request.outcome_login (fun _ => nofun) (fun _ => nofun) .inl
        fun empty short => ⟨.inl empty, .inl short⟩⟩
  | recallToken index newId =>
    exact ⟨request.start .recallToken newId system.tokens, ⟨rfl, rfl, rfl, .inr rfl⟩,
      Request.outcome_recall⟩
  | logout index newId =>
    exact ⟨request.start .logout newId system.tokens, ⟨rfl, rfl, rfl, .inr rfl⟩,
      Request.outcome_revoke nofun .inl fun empty short => ⟨.inl empty, .inl short⟩⟩
  | consume ran =>
    refine ⟨request, ⟨rfl, rfl, rfl, .inl rfl⟩, Request.outcome_recallRest ?_ .inl
      fun empty short => ⟨.inl empty, .inl short⟩⟩
    rintro identity rfl _
    exact ⟨_, _, _, _, rfl, Fault.apply_ok ran⟩
  | put phase ran =>
    refine ⟨request, ⟨rfl, rfl, rfl, .inl rfl⟩, Request.outcome_proceed fun _ =>
      Request.outcome_revoke (fun called => ⟨called, ?_, nofun⟩) .inl
        fun empty short => ⟨.inl empty, .inl short⟩⟩
    rintro name other same
    cases same
    simp only [Request.held, called, phase]
  | @revokeSession index now fault pending result entries phase ran =>
    refine ⟨request, ⟨rfl, rfl, rfl, .inl rfl⟩, Request.outcome_proceed ?_⟩
    rintro rfl
    have gone := RememberStore.revoke_removes.gone (Fault.apply_ok ran)
    refine Request.outcome_revokeRest (fun called => ⟨called, ?_, ?_⟩) (.inr gone)
      fun short => ⟨.inr (.inl gone), .inl short⟩
    · rintro identity token rfl
      simp only [Request.held, called, phase]
    · rintro rfl
      rw [Request.pending, phase]
  | @revokeCookie index now fault pending result entries phase ran =>
    refine ⟨request, ⟨rfl, rfl, rfl, .inl rfl⟩, Request.outcome_proceed ?_⟩
    rintro rfl
    refine .finishes (fun called => ⟨called, ?_, ?_⟩)
      ⟨.inr (.inr ⟨pending, phase, rfl⟩),
        .inr (RememberStore.revoke_removes.gone (Fault.apply_ok ran))⟩
    · rintro identity token rfl
      simp only [Request.held, called, phase]
    · rintro rfl
      rw [Request.pending, phase]

theorem Moved.cookie : later.cookie = request.cookie := by
  obtain ⟨begun, begins, outcome⟩ := moves.outcome
  exact outcome.keeps.cookie.trans begins.cookie

/-- A request holds an identity because it did, or because its token has just passed. -/
theorem Moved.held {identity : Bytes} (holds : later.held = some identity) :
    request.held = some identity ∨
      ∃ index now fault resolved, event = .consume index now fault resolved ∧
        store.consume now system.entries (hash request.cookie) = (.ok (some identity), entries) := by
  obtain ⟨begun, begins, outcome⟩ := moves.outcome
  obtain ⟨called, passes | ⟨token, owes⟩⟩ := outcome.held holds
  · exact .inr (passes called)
  · exact .inl ((owes called).2.1 identity token rfl)

/-- The cookie is revoked next only if nothing is recorded in the session, or what is
recorded has been revoked. -/
theorem Moved.recorded {pending : Pending} (waits : later.phase = .revokeCookie pending) :
    request.recorded = [] ∨ store.find entries request.recorded = none := by
  obtain ⟨begun, begins, outcome⟩ := moves.outcome
  exact outcome.cleared waits

/-- Where a call completes, the recorded token and the token of the cookie are revoked. -/
theorem Moved.completed (done : later.completed = true) :
    (request.recorded = [] ∨ store.find entries request.recorded = none ∨
      ∃ pending, request.phase = .revokeCookie pending ∧ later.known = request.known) ∧
    (request.cookie.length ≠ 64 ∨ store.find entries (hash request.cookie) = none) := by
  obtain ⟨begun, begins, outcome⟩ := moves.outcome
  rw [outcome.keeps.known]
  exact (outcome.completed done).1

section Recalls

variable (sound : request.pending = some .logout → request.call ≠ .recallToken)
include sound

/-- Only a logout waits to log out. -/
theorem Moved.pending (waits : later.pending = some .logout) : later.call ≠ .recallToken := by
  obtain ⟨begun, begins, outcome⟩ := moves.outcome
  rw [outcome.keeps.call]
  intro called
  obtain ⟨recalls, _, logs⟩ := outcome.owes waits called
  exact sound (logs rfl) recalls

/-- A recall that ends logs in the identity that it held. -/
theorem Moved.recalls (done : later.completed = true) (called : later.call = .recallToken) :
    ∃ identity, request.held = some identity ∧ later.auth = some (Context.login identity) := by
  obtain ⟨begun, begins, outcome⟩ := moves.outcome
  rw [outcome.keeps.call] at called
  obtain ⟨_, pending, owes, rfl⟩ := outcome.completed done
  obtain ⟨recalls, logsIn, logsOut⟩ := owes called
  cases pending with
  | login identity token =>
    exact ⟨identity, logsIn identity token rfl, by cases token <;> rfl⟩
  | logout => exact absurd recalls (sound (logsOut rfl))

end Recalls

end Moves

/-! ## What holds in every run -/

variable (store hash) in
/-- Every entry of the store is that of an issued token. -/
structure Ledger (system : System) : Prop where
  stored : ∀ digest entry, store.find system.entries digest = some entry →
    ∃ issue ∈ system.issued, hash issue.token = digest ∧ entry = issue.entry store
  distinct : (system.tokens.map hash).Nodup
  length : ∀ token ∈ system.tokens, token.length = 64

variable (store hash) in
/-- The token has been issued, and the store does not have it any more. -/
def Dead (digest : Bytes) (system : System) : Prop :=
  digest ∈ system.tokens.map hash ∧ store.find system.entries digest = none

variable (store hash) in
structure Sound (system : System) (request : Request) : Prop where
  known : ∀ token ∈ request.known, token ∈ system.tokens
  revoked : ∀ pending, request.phase = .revokeCookie pending →
    request.recorded ∈ request.known.map hash →
      store.find system.entries request.recorded = none
  held : ∀ identity, request.held = some identity → ∃ issue ∈ system.issued,
    hash issue.token = hash request.cookie ∧ issue.identity = identity ∧
      store.find system.entries (hash request.cookie) = none
  pending : request.pending = some .logout → request.call ≠ .recallToken

variable (store hash) in
structure Invariant (system : System) : Prop where
  ledger : Ledger store hash system
  sound : ∀ index request, system.requests index = some request → Sound store hash system request
  holder : ∀ index request other found, system.requests index = some request →
    system.requests other = some found → request.held.isSome = true → found.held.isSome = true →
      hash request.cookie = hash found.cookie → index = other

theorem invariant_initial : Invariant store hash System.initial where
  ledger := by
    refine ⟨fun digest entry found => ?_, .nil, nofun⟩
    exact absurd ((AList.lookup_empty (store.address digest)).symm.trans found) nofun
  sound := nofun
  holder := fun _ _ _ _ listed => nomatch listed

section Extension

variable {after : System} {new : List Issue}
  (effect : Effect store hash system after.entries new)
  (issued : after.issued = new ++ system.issued)

include issued in
theorem tokens_extend {token : Bytes} (member : token ∈ system.tokens) : token ∈ after.tokens := by
  unfold System.tokens at member ⊢
  rw [issued, map_append]
  exact mem_append_right _ member

include effect issued

theorem dead_extend {digest : Bytes} (dead : Dead store hash digest system) :
    Dead store hash digest after := by
  obtain ⟨known, absent⟩ := dead
  refine ⟨?_, ?_⟩
  · obtain ⟨token, member, same⟩ := mem_map.mp known
    exact mem_map.mpr ⟨token, tokens_extend issued member, same⟩
  · cases found : store.find after.entries digest with
    | none => rfl
    | some entry =>
      cases effect with
      | shrinks less => exact absurd (absent.symm.trans (less digest entry found)) nofun
      | puts issue fresh only =>
        -- The digest of a new token is not one that has been issued.
        rcases only digest entry found with ⟨same, _⟩ | kept
        · exact absurd (same ▸ known) fresh.2
        · exact absurd (absent.symm.trans kept) nofun

theorem ledger_extend (ledger : Ledger store hash system) : Ledger store hash after := by
  cases effect with
  | shrinks less =>
    have same : after.tokens = system.tokens := by rw [System.tokens, issued]; rfl
    refine ⟨fun digest entry found => ?_, same ▸ ledger.distinct, same ▸ ledger.length⟩
    rw [issued]
    exact ledger.stored digest entry (less digest entry found)
  | puts issue fresh only =>
    have same : after.tokens = issue.token :: system.tokens := by
      rw [System.tokens, issued]
      rfl
    refine ⟨fun digest entry found => ?_, ?_, ?_⟩
    · rw [issued]
      rcases only digest entry found with ⟨own, entryIs⟩ | kept
      · exact ⟨issue, mem_cons_self, own.symm, entryIs⟩
      · obtain ⟨earlier, member, facts⟩ := ledger.stored digest entry kept
        exact ⟨earlier, mem_cons_of_mem _ member, facts⟩
    · rw [same, map_cons]
      exact nodup_cons.mpr ⟨fresh.2, ledger.distinct⟩
    · rw [same]
      exact forall_mem_cons.mpr ⟨fresh.1, ledger.length⟩

theorem sound_extend (sound : Sound store hash system request) :
    Sound store hash after request := by
  refine ⟨fun token member => tokens_extend issued (sound.known token member), ?_, ?_,
    sound.pending⟩
  · intro pending phase recorded
    obtain ⟨token, member, same⟩ := mem_map.mp recorded
    have known : request.recorded ∈ system.tokens.map hash :=
      mem_map.mpr ⟨token, sound.known token member, same⟩
    exact (dead_extend effect issued ⟨known, sound.revoked pending phase recorded⟩).2
  · intro identity holds
    obtain ⟨issue, member, same, owner, absent⟩ := sound.held identity holds
    have known : hash request.cookie ∈ system.tokens.map hash :=
      mem_map.mpr ⟨issue.token, mem_map_of_mem member, same⟩
    refine ⟨issue, ?_, same, owner, (dead_extend effect issued ⟨known, absent⟩).2⟩
    rw [issued]
    exact mem_append_right _ member

end Extension

/-- A step is the arrival of a request, or a step of a request that there is. -/
theorem enabled_cases (enabled : Enabled hash system event) :
    (∃ index cookie session auth, event = .arrive index cookie session auth ∧
      system.requests index = none) ∨
    ∃ request later entries new, system.requests event.index = some request ∧
      Moved store options hash system request event later entries new ∧
      Effect store hash system entries new ∧
      next store options hash system event =
        { system.set event.index later with entries := entries, issued := new ++ system.issued } := by
  cases event with
  | arrive index cookie session auth =>
    exact .inl ⟨index, cookie, session, auth, rfl, Option.isNone_iff_eq_none.mp enabled⟩
  | put index now fault token =>
    obtain ⟨⟨request, listed, awaits⟩, fresh⟩ := enabled
    have moves := @advance_moved store options hash system _ _ awaits
    refine .inr ⟨request, _, _, _, listed, moves, moves.effect ?_, ?_⟩
    · intro _ _ _ other same
      cases same
      exact fresh
    · simp only [next, Event.index, Option.mem_def.mp listed]
  | login | recallToken | logout | consume | revokeSession | revokeCookie =>
    obtain ⟨request, listed, awaits⟩ := enabled
    have moves := @advance_moved store options hash system _ _ awaits
    refine .inr ⟨request, _, _, _, listed, moves, moves.effect ?_, ?_⟩
    · intro _ _ _ other same
      cases same
    · simp only [Event.index] at listed
      simp only [next, Event.index, Option.mem_def.mp listed]

variable {after : System}

theorem Moved.sound (moves : Moved store options hash system request event later entries new)
    (ledger : Ledger store hash system) (sound : Sound store hash system request)
    (stored : after.entries = entries) (issued : after.issued = new ++ system.issued)
    (extends_ : Sound store hash after request) : Sound store hash after later := by
  obtain ⟨begun, begins, outcome⟩ := moves.outcome
  have keeps := outcome.keeps
  refine ⟨?_, ?_, ?_, moves.pending sound.pending⟩
  · intro token member
    rw [keeps.known] at member
    rcases begins.known with same | same
    · exact extends_.known token (same ▸ member)
    · exact tokens_extend issued (same ▸ member)
  · intro pending phase recorded
    have open_ : later.completed = false := by
      unfold Request.completed
      rw [phase]
    have same : later.recorded = request.recorded := by
      unfold Request.recorded
      rw [keeps.session open_, begins.session]
    rw [same] at recorded ⊢
    rcases moves.recorded phase with empty | gone
    · obtain ⟨token, _, equal⟩ := mem_map.mp recorded
      exact absurd (equal.trans empty) (hash.ne_nil token)
    · rw [stored]
      exact gone
  · intro identity holds
    rw [moves.cookie]
    rcases moves.held holds with before | ⟨index, now, fault, resolved, rfl, passed⟩
    · exact extends_.held identity before
    · obtain ⟨entry, found, value, _⟩ := RememberStore.consume_ok (congrArg Prod.fst passed)
      obtain ⟨issue, member, same, entryIs⟩ := ledger.stored _ entry found
      refine ⟨issue, ?_, same, ?_, ?_⟩
      · rw [issued]
        exact mem_append_right _ member
      · rw [← value, entryIs]
        rfl
      · rw [stored]
        exact RememberStore.consume_removes.gone passed

/-- A token that passes was in the store, so no request holds it. -/
theorem Invariant.passed (invariant : Invariant store hash system) {identity : Bytes}
    (passed : store.consume now system.entries digest = (.ok (some identity), entries))
    {index : Nat} (listed : system.requests index = some request)
    (holds : request.held.isSome = true) : hash request.cookie ≠ digest := by
  rintro rfl
  obtain ⟨entry, found, _⟩ := RememberStore.consume_ok (congrArg Prod.fst passed)
  obtain ⟨held, some_⟩ := Option.isSome_iff_exists.mp holds
  obtain ⟨_, _, _, _, absent⟩ := (invariant.sound index request listed).held held some_
  exact absurd (absent.symm.trans found) nofun

/-- A request that holds a token held it before the step, or the token has just passed. -/
theorem held_next (enabled : Enabled hash system event) {index : Nat} {found : Request}
    (reached : (next store options hash system event).requests index = some found)
    (holds : found.held.isSome = true) :
    ∃ request, system.requests index = some request ∧ request.cookie = found.cookie ∧
      (request.held.isSome = true ∨ index = event.index ∧ ∃ now identity entries,
        store.consume now system.entries (hash found.cookie) = (.ok (some identity), entries)) := by
  rcases @enabled_cases store options hash system event enabled with
    ⟨own, cookie, session, auth, rfl, _⟩ |
      ⟨request, later, entries, new, listed, moves, _, step⟩
  · rcases update_eq_some reached with ⟨_, rfl⟩ | ⟨_, before⟩
    · cases holds
    · exact ⟨found, before, rfl, .inl holds⟩
  · rw [step] at reached
    rcases update_eq_some reached with ⟨rfl, rfl⟩ | ⟨_, before⟩
    · obtain ⟨identity, some_⟩ := Option.isSome_iff_exists.mp holds
      refine ⟨request, listed, moves.cookie.symm, ?_⟩
      rcases moves.held some_ with before | ⟨_, now, _, _, _, passed⟩
      · exact .inl (by rw [before]; rfl)
      · exact .inr ⟨rfl, now, identity, entries, moves.cookie ▸ passed⟩
    · exact ⟨found, before, rfl, .inl holds⟩

theorem sound_arrived (cookie : Bytes) (session : Sessions.Session) (auth : Option Context) :
    Sound store hash system (.arrived cookie session auth) :=
  ⟨nofun, nofun, nofun, nofun⟩

theorem Invariant.next (invariant : Invariant store hash system)
    (enabled : Enabled hash system event) :
    Invariant store hash (next store options hash system event) := by
  have holder : ∀ index request other found,
      (Auth.next store options hash system event).requests index = some request →
      (Auth.next store options hash system event).requests other = some found →
      request.held.isSome = true → found.held.isSome = true →
        hash request.cookie = hash found.cookie → index = other := by
    intro index request other found listed reached holds holdsFound same
    obtain ⟨before, listed, cookie, held⟩ := held_next enabled listed holds
    obtain ⟨earlier, reached, cookieFound, heldFound⟩ := held_next enabled reached holdsFound
    rcases held with held | ⟨own, _, _, _, passed⟩
    · rcases heldFound with heldFound | ⟨_, _, _, _, passed⟩
      · exact invariant.holder index before other earlier listed reached held heldFound
          (cookie ▸ cookieFound ▸ same)
      · exact absurd (cookie ▸ same) (invariant.passed passed listed held)
    · rcases heldFound with heldFound | ⟨ownFound, _⟩
      · exact absurd (cookieFound ▸ same.symm) (invariant.passed passed reached heldFound)
      · exact own.trans ownFound.symm
  rcases @enabled_cases store options hash system event enabled with
    ⟨index, cookie, session, auth, rfl, _⟩ |
      ⟨request, later, entries, new, listed, moves, effect, step⟩
  · have effect : Effect store hash system
        (system.set index (.arrived cookie session auth)).entries [] := effect_none
    refine ⟨ledger_extend effect rfl invariant.ledger, fun other found reached => ?_, holder⟩
    rcases update_eq_some reached with ⟨_, rfl⟩ | ⟨_, before⟩
    · exact sound_arrived cookie session auth
    · exact sound_extend effect rfl (invariant.sound other found before)
  · rw [step] at holder ⊢
    refine ⟨ledger_extend effect rfl invariant.ledger, fun other found reached => ?_, holder⟩
    rcases update_eq_some reached with ⟨_, rfl⟩ | ⟨_, before⟩
    · have sound := invariant.sound event.index request listed
      exact moves.sound invariant.ledger sound rfl rfl (sound_extend effect rfl sound)
    · exact sound_extend effect rfl (invariant.sound other found before)

/-! ## What the steps show -/

variable {acceptance : Acceptance}

theorem of_accepted (passes : accepted store hash ⟨system, event, after⟩ = some acceptance) :
    ∃ index request fault resolved entries,
      event = .consume index acceptance.time fault resolved ∧
      system.requests index = some request ∧ acceptance.digest = hash request.cookie ∧
      fault.apply system.entries
          (store.consume acceptance.time system.entries acceptance.digest) =
        (.ok (some acceptance.identity), entries) := by
  unfold accepted at passes
  cases event with
  | consume index now fault resolved =>
    dsimp only at passes
    cases listed : system.requests index with
    | none => rw [listed] at passes; cases passes
    | some request =>
      rw [listed] at passes
      dsimp only at passes
      split at passes
      · rename_i identity returned
        cases passes
        exact ⟨index, request, fault, resolved, _, rfl, listed, rfl, Prod.ext returned rfl⟩
      · cases passes
  | arrive | login | recallToken | logout | put | revokeSession | revokeCookie => cases passes

/-- A token that passes is an issued one, and its time has not come. -/
theorem accepted_issue (ledger : Ledger store hash system)
    (passes : accepted store hash ⟨system, event, after⟩ = some acceptance) :
    ∃ issue ∈ system.issued, hash issue.token = acceptance.digest ∧
      issue.identity = acceptance.identity ∧ acceptance.time < store.deadline issue.expires := by
  obtain ⟨_, _, _, _, _, _, _, _, ran⟩ := of_accepted passes
  obtain ⟨entry, found, value, alive⟩ :=
    RememberStore.consume_ok (congrArg Prod.fst (Fault.apply_ok ran))
  obtain ⟨issue, member, same, rfl⟩ := ledger.stored _ entry found
  exact ⟨issue, member, same, value, of_decide_eq_true alive⟩

theorem accepted_dead (ledger : Ledger store hash system) (enabled : Enabled hash system event)
    (passes : accepted store hash
      ⟨system, event, next store options hash system event⟩ = some acceptance) :
    Dead store hash acceptance.digest (next store options hash system event) := by
  obtain ⟨issue, member, same, _⟩ := accepted_issue ledger passes
  obtain ⟨index, request, fault, resolved, entries, rfl, listed, cookie, ran⟩ := of_accepted passes
  have stepped : next store options hash system (.consume index acceptance.time fault resolved) =
      { system.set index (request.recallRest options hash acceptance.time resolved
          (.ok (some acceptance.identity))) with entries := entries } := by
    simp only [next, Event.index, listed, advance, ← cookie, ran, nil_append]
    rfl
  rw [stepped]
  exact ⟨mem_map.mpr ⟨issue.token, mem_map_of_mem member, same⟩,
    RememberStore.consume_removes.gone (Fault.apply_ok ran)⟩

theorem not_accepted_of_dead (dead : Dead store hash digest system)
    (passes : accepted store hash ⟨system, event, after⟩ = some acceptance) :
    acceptance.digest ≠ digest := by
  rintro rfl
  obtain ⟨_, _, _, _, _, _, _, _, ran⟩ := of_accepted passes
  obtain ⟨entry, found, _⟩ := RememberStore.consume_ok (congrArg Prod.fst (Fault.apply_ok ran))
  exact absurd (dead.2.symm.trans found) nofun

variable (store hash) in
/-- The token has been consumed, and the recall that consumed it is over. -/
def Spent (digest : Bytes) (system : System) : Prop :=
  Dead store hash digest system ∧ ∀ index request, system.requests index = some request →
    request.held.isSome = true → hash request.cookie ≠ digest

section

variable (enabled : Enabled hash system event)
include enabled

theorem dead_next (dead : Dead store hash digest system) :
    Dead store hash digest (next store options hash system event) := by
  rcases @enabled_cases store options hash system event enabled with
    ⟨index, cookie, session, auth, rfl, _⟩ |
      ⟨request, later, entries, new, listed, moves, effect, step⟩
  · exact dead
  · rw [step]
    exact dead_extend effect rfl dead

theorem of_completes {before last : Request}
    (ends : completes ⟨system, event, next store options hash system event⟩ = some (before, last)) :
    ∃ entries new, system.requests event.index = some before ∧
      Moved store options hash system before event last entries new ∧
      Effect store hash system entries new ∧ last.completed = true ∧
      next store options hash system event =
        { system.set event.index last with entries := entries, issued := new ++ system.issued } := by
  unfold completes at ends
  rcases @enabled_cases store options hash system event enabled with
    ⟨index, cookie, session, auth, rfl, vacant⟩ |
      ⟨request, later, entries, new, listed, moves, effect, step⟩
  · simp only [Event.index, vacant] at ends
    cases ends
  · have reached : (next store options hash system event).requests event.index = some later := by
      rw [step]
      exact Function.update_self ..
    rw [listed, reached] at ends
    dsimp only at ends
    split at ends
    · rename_i done
      cases ends
      exact ⟨entries, new, listed, moves, effect, done, step⟩
    · cases ends

theorem spent_next (spent : Spent store hash digest system) :
    Spent store hash digest (next store options hash system event) := by
  refine ⟨dead_next enabled spent.1, fun index found reached holds => ?_⟩
  obtain ⟨request, listed, same, held | ⟨_, now, identity, entries, passed⟩⟩ :=
    held_next enabled reached holds
  · exact same ▸ spent.2 index request listed held
  · rintro rfl
    obtain ⟨entry, present, _⟩ := RememberStore.consume_ok (congrArg Prod.fst passed)
    exact absurd (spent.1.2.symm.trans present) nofun

end

theorem held_of_completed (done : request.completed = true) : request.held = none := by
  apply Request.held_of_idle
  unfold Request.completed at done
  split at done
  · rename_i idle _
    exact idle
  · cases done

section

variable (invariant : Invariant store hash system)
include invariant

section

variable (enabled : Enabled hash system event)
include enabled

theorem retired_dead
    (retires : digest ∈ retired hash ⟨system, event, next store options hash system event⟩) :
    Dead store hash digest (next store options hash system event) := by
  unfold retired at retires
  split at retires
  · rename_i before after ends
    obtain ⟨entries, new, listed, moves, effect, done, step⟩ := of_completes enabled ends
    have sound := invariant.sound event.index before listed
    have later := moves.sound invariant.ledger sound (congrArg System.entries step)
      (congrArg System.issued step)
      (sound_extend (step ▸ effect) (congrArg System.issued step) sound)
    have ledger := (@Invariant.next store options hash system event invariant enabled).ledger
    obtain ⟨session, carried⟩ := moves.completed done
    have gone : ∀ {found}, store.find entries found = none →
        store.find (next store options hash system event).entries found = none := by
      intro found absent
      rw [step]
      exact absent
    rcases mem_append.mp retires with recorded | cookie
    · split at recorded
      · rename_i known
        cases mem_singleton.mp recorded
        obtain ⟨token, member, same⟩ := mem_map.mp known
        refine ⟨mem_map.mpr ⟨token, later.known token member, same⟩, ?_⟩
        rcases session with empty | absent | ⟨pending, phase, unchanged⟩
        · exact absurd (same.trans empty) (hash.ne_nil token)
        · exact gone absent
        · rw [unchanged] at known member
          have dead : Dead store hash before.recorded system :=
            ⟨mem_map.mpr ⟨token, sound.known token member, same⟩,
              sound.revoked pending phase known⟩
          exact (dead_next enabled dead).2
      · cases recorded
    · split at cookie
      · rename_i known
        cases mem_singleton.mp cookie
        have issued := later.known _ known
        refine ⟨mem_map_of_mem issued, ?_⟩
        rcases carried with short | absent
        · exact absurd (ledger.length _ issued) short
        · exact gone absent
      · cases cookie
  · cases retires

/-- What `recalled` says: the request held the identity that it now has. -/
theorem of_recalled {user : Option Bytes}
    (success : recalled hash ⟨system, event, next store options hash system event⟩ = some (digest, user)) :
    ∃ request identity, system.requests event.index = some request ∧
      request.held = some identity ∧ digest = hash request.cookie ∧ user = some identity ∧
      ∀ other found, (next store options hash system event).requests other = some found →
        found.held.isSome = true → other ≠ event.index ∧ system.requests other = some found := by
  unfold recalled at success
  split at success
  · rename_i before after ends
    obtain ⟨_, _, listed, moves, _, done, step⟩ := of_completes enabled ends
    split at success
    · rename_i called
      have sound := invariant.sound event.index before listed
      obtain ⟨identity, holds, auth⟩ := moves.recalls sound.pending done called
      cases success
      rw [auth]
      refine ⟨before, identity, listed, holds, rfl, rfl, fun other found reached held => ?_⟩
      rw [step] at reached
      rcases update_eq_some reached with ⟨_, rfl⟩ | kept
      · rw [held_of_completed done] at held
        cases held
      · exact kept
    · cases success
  · cases success

theorem recalled_spent {user : Option Bytes}
    (success : recalled hash ⟨system, event, next store options hash system event⟩ = some (digest, user)) :
    Spent store hash digest (next store options hash system event) := by
  obtain ⟨request, identity, listed, holds, rfl, _, others⟩ :=
    of_recalled invariant enabled success
  obtain ⟨issue, member, same, _, absent⟩ :=
    (invariant.sound event.index request listed).held identity holds
  have dead : Dead store hash (hash request.cookie) system :=
    ⟨mem_map.mpr ⟨issue.token, mem_map_of_mem member, same⟩, absent⟩
  refine ⟨dead_next enabled dead, fun other found reached holdsFound equal => ?_⟩
  -- No other request held the token, and this one has finished.
  obtain ⟨differs, before⟩ := others other found reached holdsFound
  exact differs (invariant.holder event.index request other found listed before
    (by rw [holds]; rfl) holdsFound equal.symm).symm

end

end

/-! ## The guarantees -/

variable (store hash) in
/-- The exception with which the store call of a step fails. -/
def storeError (system : System) (request : Request) : Event → Option Exception
  | .consume _ now fault _ =>
    match (fault.apply system.entries
      (store.consume now system.entries (hash request.cookie))).1 with
    | .error exception => some exception
    | .ok _ => none
  | .put _ now fault token =>
    match request.phase with
    | .put identity expires =>
      match (fault.apply system.entries
        (store.put now system.entries (hash token) identity expires)).1 with
      | .error exception => some exception
      | .ok _ => none
    | _ => none
  | .revokeSession _ now fault =>
    match (fault.apply system.entries
      (store.revoke now system.entries request.recorded)).1 with
    | .error exception => some exception
    | .ok _ => none
  | .revokeCookie _ now fault =>
    match (fault.apply system.entries
      (store.revoke now system.entries (hash request.cookie))).1 with
    | .error exception => some exception
    | .ok _ => none
  | .arrive _ _ _ _ | .login _ _ _ _ _ | .recallToken _ _ | .logout _ _ => none

variable (store hash) in
/-- What every step guarantees. -/
structure Guarded (transition : Transition System Event) : Prop where
  /-- A token passes only before its deadline, and for the identity it was issued to. -/
  genuine : ∀ acceptance ∈ accepted store hash transition, ∃ issue ∈ transition.before.issued,
    hash issue.token = acceptance.digest ∧ issue.identity = acceptance.identity ∧
      acceptance.time < store.deadline issue.expires
  /-- A recall logs in the identity that its token was issued to. -/
  recalls : ∀ digest user, recalled hash transition = some (digest, user) →
    ∃ issue ∈ transition.before.issued, hash issue.token = digest ∧ user = some issue.identity
  /-- There is one such token. -/
  distinct : (transition.before.tokens.map hash).Nodup
  /-- Only the step that completes a login or a logout changes the session or the identity. -/
  untouched : ∀ index before after, transition.before.requests index = some before →
    transition.after.requests index = some after →
      completes transition = some (before, after) ∨
        (after.session = before.session ∧ after.auth = before.auth)
  /-- Where the store fails, the call ends with the exception and changes nothing else. -/
  fails : ∀ request exception,
    transition.before.requests transition.label.index = some request →
    storeError store hash transition.before request transition.label = some exception →
      transition.after.requests transition.label.index = some (request.conclude (.error exception))

variable (store hash) in
/-- A token that has passed or was retired does not pass later. -/
def NeverAgain (first second : Transition System Event) : Prop :=
  ∀ digest, (∃ acceptance ∈ accepted store hash first, acceptance.digest = digest) ∨
      digest ∈ retired hash first →
    ∀ acceptance ∈ accepted store hash second, acceptance.digest ≠ digest

variable (hash) in
/-- No two recalls succeed with one token. -/
def RecallsOnce (first second : Transition System Event) : Prop :=
  ∀ success ∈ recalled hash first, ∀ other ∈ recalled hash second, other.1 ≠ success.1

theorem Moved.fails (moves : Moved store options hash system request event later entries new)
    {exception : Exception} (failed : storeError store hash system request event = some exception) :
    later = request.conclude (.error exception) := by
  cases moves with
  | login | recallToken | logout => cases failed
  | consume ran | revokeSession phase ran | revokeCookie phase ran =>
    simp only [storeError, ran] at failed
    split at failed
    · cases failed
      rfl
    · cases failed
  | put phase ran =>
    simp only [storeError, phase, ran] at failed
    split at failed
    · cases failed
      rfl
    · cases failed

theorem guarded_next (invariant : Invariant store hash system)
    (enabled : Enabled hash system event) :
    Guarded store hash ⟨system, event, next store options hash system event⟩ := by
  refine ⟨fun acceptance passes => accepted_issue invariant.ledger passes, ?_,
    invariant.ledger.distinct, ?_, ?_⟩
  · intro digest user success
    obtain ⟨request, identity, listed, holds, rfl, rfl, _⟩ :=
      of_recalled invariant enabled success
    obtain ⟨issue, member, same, rfl, _⟩ :=
      (invariant.sound event.index request listed).held identity holds
    exact ⟨issue, member, same, rfl⟩
  · intro index before after listed reached
    rcases @enabled_cases store options hash system event enabled with
      ⟨own, cookie, session, auth, rfl, vacant⟩ | ⟨request, later, _, _, found, moves, _, step⟩
    · rcases update_eq_some reached with ⟨rfl, _⟩ | ⟨_, same⟩
      · exact absurd (vacant.symm.trans listed) nofun
      · cases listed.symm.trans same
        exact .inr ⟨rfl, rfl⟩
    · rw [step] at reached
      rcases update_eq_some reached with ⟨rfl, rfl⟩ | ⟨_, same⟩
      · cases found.symm.trans listed
        obtain ⟨begun, begins, outcome⟩ := moves.outcome
        have keeps := outcome.keeps
        cases done : after.completed with
        | true =>
          refine .inl ?_
          have set : (next store options hash system event).requests event.index =
              some after := by
            rw [step]
            exact Function.update_self ..
          simp only [completes, found, set, done, if_true]
        | false =>
          exact .inr ⟨(keeps.session done).trans begins.session,
            (keeps.auth done).trans begins.auth⟩
      · cases listed.symm.trans same
        exact .inr ⟨rfl, rfl⟩
  · intro request exception listed failed
    rcases @enabled_cases store options hash system event enabled with
      ⟨own, cookie, session, auth, rfl, vacant⟩ | ⟨found, later, _, _, present, moves, _, step⟩
    · cases failed
    · cases present.symm.trans listed
      rw [step, ← moves.fails failed]
      exact Function.update_self ..

end Guard

/-- In every run each step is guarded, no token passes again once it has passed or was
retired, and no two recalls succeed with one token. -/
theorem remember_tokens (store : RememberStore) (options : LoginOptions) (hash : TokenDigest)
    (events : List Event)
    (enabled : EnabledFrom (next store options hash) (Enabled hash) System.initial events) :
    (∀ transition ∈ transitionsFrom (next store options hash) System.initial events,
      Guarded store hash transition) ∧
    (transitionsFrom (next store options hash) System.initial events).Pairwise
      (NeverAgain store hash) ∧
    (transitionsFrom (next store options hash) System.initial events).Pairwise
      (RecallsOnce hash) := by
  have stable {system : System} {event : Event} (possible : Enabled hash system event)
      (holds : Invariant store hash system) :
      Invariant store hash (next store options hash system event) := holds.next possible
  refine ⟨?_, ?_, ?_⟩
  · exact enabled.forall_mem_where (Invariant store hash) (fun _ => True)
      (fun possible _ holds => stable possible holds) (fun _ _ => trivial) invariant_initial
      fun possible _ holds => guarded_next holds possible
  · refine enabled.pairwise (Invariant store hash) (Dead store hash) stable
      (fun _ possible _ dead => dead_next possible dead) invariant_initial
      fun possible holds _ _ lasts => ?_
    rintro digest (⟨acceptance, passed, rfl⟩ | retires) other passes
    · exact not_accepted_of_dead (lasts _ (accepted_dead holds.ledger possible passed)) passes
    · exact not_accepted_of_dead (lasts _ (retired_dead holds possible retires)) passes
  · refine enabled.pairwise (Invariant store hash) (Spent store hash) stable
      (fun _ possible _ spent => spent_next possible spent) invariant_initial
      fun possible holds possibleLater later lasts => ?_
    rintro ⟨digest, user⟩ success ⟨other, otherUser⟩ again
    have spent := lasts _ (recalled_spent holds possible success)
    obtain ⟨request, identity, listed, held, rfl, _⟩ := of_recalled later possibleLater again
    exact spent.2 _ request listed (by rw [held]; rfl)

/-- A digest to run with: the token itself, if it has the form of a digest. -/
def sampleDigest : TokenDigest where
  digest token := if RedisRememberStore.validDigest token then token else replicate 64 48
  valid token := by
    split
    · assumption
    · decide

def sampleOptions : LoginOptions := ⟨ascii "_gungnir_auth_user", ascii "gungnir_remember", 1, true⟩

def sampleToken (digit : UInt8) : Bytes := replicate 64 digit

def sampleSession : Sessions.Session := .create (sampleToken 97)

/-- Request 0 logs in to be remembered for one second; request 1 carries its token. -/
def rememberedLogin : List Event :=
  [.arrive 0 [] sampleSession none, .login 0 1 (ascii "7") true (sampleToken 98),
    .put 0 1 .none (sampleToken 48), .arrive 1 (sampleToken 48) sampleSession none,
    .recallToken 1 (sampleToken 99)]

def sampleStore : RememberStore := .redis (ascii "remember:")

/-- The Redis store lets a token pass half a millisecond after its expiry. -/
theorem accepted_after_expiry :
    EnabledFrom (next sampleStore sampleOptions sampleDigest) (Enabled sampleDigest)
      System.initial
      (rememberedLogin ++ [.consume 1 1000500000 .none (.ok (some (ascii "7")))]) ∧
    (runFrom (next sampleStore sampleOptions sampleDigest) System.initial rememberedLogin).issued =
      [⟨sampleToken 48, ascii "7", 1000000001⟩] ∧
    accepted sampleStore sampleDigest
      ⟨runFrom (next sampleStore sampleOptions sampleDigest) System.initial rememberedLogin,
        .consume 1 1000500000 .none (.ok (some (ascii "7"))), System.initial⟩ =
      some ⟨sampleToken 48, ascii "7", 1000500000⟩ := by
  decide

/-- The token is recalled, its replay is refused, and the new token is revoked at logout. -/
def sampleRun : List Event :=
  rememberedLogin ++
    [.arrive 2 (sampleToken 48) sampleSession none, .recallToken 2 (sampleToken 100),
      .consume 1 500000000 .none (.ok (some (ascii "7"))),
      .consume 2 500000000 .none (.ok (some (ascii "7"))),
      .put 1 500000000 .none (sampleToken 49), .revokeCookie 1 500000000 .none,
      .logout 1 (sampleToken 101),
      .revokeSession 1 500000000 (.lost ⟨.runtimeError, ascii "Redis command failed: Timeout"⟩),
      .logout 1 (sampleToken 101), .revokeSession 1 500000000 .none,
      .revokeCookie 1 500000000 .none]

theorem remember_tokens_sample :
    (transitionsFrom (next sampleStore sampleOptions sampleDigest) System.initial
      sampleRun).Pairwise (NeverAgain sampleStore sampleDigest) :=
  (remember_tokens sampleStore sampleOptions sampleDigest sampleRun (by decide)).2.1

end Gungnir.Auth

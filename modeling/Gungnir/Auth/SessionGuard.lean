import Gungnir.Auth.RememberStore
import Gungnir.Sessions.Session

/-!
# The session guard

`SessionGuard::login`, `recall` and `logout`, cut at their calls of the token store. Between
two store calls a guard call is in one of the phases below; the session and the identity of
the request change only where the call completes.
-/

namespace Gungnir.Auth

open Gungnir.Core

/-- `Password::token_digest`: the hexadecimal text of a hash. -/
structure TokenDigest where
  digest : Bytes → Bytes
  valid : ∀ token, RedisRememberStore.validDigest (digest token) = true

instance : CoeFun TokenDigest fun _ => Bytes → Bytes := ⟨TokenDigest.digest⟩

theorem TokenDigest.ne_nil (hash : TokenDigest) (token : Bytes) : hash token ≠ [] := by
  intro empty
  have valid := hash.valid token
  rw [empty] at valid
  exact absurd valid (by decide)

structure LoginOptions where
  sessionKey : Bytes
  rememberCookie : Bytes
  /-- In seconds. -/
  rememberFor : Int
  secure : Bool
  deriving Repr

structure Cookie where
  name : Bytes
  value : Bytes
  maxAge : Int
  secure : Bool
  deriving DecidableEq, Repr

structure Context where
  identity : Option Bytes
  dirty : Bool
  deriving DecidableEq, Repr

namespace Context

def login (identity : Bytes) : Context := ⟨some identity, true⟩

def logout (context : Context) : Context :=
  if context.identity.isSome then ⟨none, true⟩ else context

end Context

inductive Call where
  | login
  | recallToken
  | logout
  deriving DecidableEq, Repr

/-- What follows once the old tokens are revoked. -/
inductive Pending where
  /-- With the new remember token. -/
  | login (identity : Bytes) (token : Option Bytes)
  | logout
  deriving DecidableEq, Repr

/-- The store call that comes next. -/
inductive Phase where
  /-- No guard call runs. -/
  | idle
  | consume
  | put (identity : Bytes) (expires : Int)
  | revokeSession (pending : Pending)
  | revokeCookie (pending : Pending)
  deriving DecidableEq, Repr

structure Request where
  /-- The remember cookie. -/
  cookie : Bytes
  session : Sessions.Session
  auth : Option Context
  response : List Cookie
  call : Call
  phase : Phase
  /-- The id that `Session::regenerate` draws. -/
  newId : Bytes
  /-- What the last guard call returned. -/
  result : Option (Except Exception Bool)
  /-- The tokens that had been issued when the guard call began. -/
  known : List Bytes

def digestKey : Bytes := ascii "_gungnir_remember_digest"

namespace Request

variable (request : Request)

def recorded : Bytes := request.session.get digestKey

def authenticated : Bool :=
  request.auth.any fun context => context.identity.isSome

def conclude (result : Except Exception Bool) : Request :=
  { request with phase := .idle, result := some result }

def await (phase : Phase) : Request := { request with phase := phase }

/-- The last guard call completed a login or a logout. -/
def completed : Bool :=
  match request.phase, request.result with
  | .idle, some (.ok true) => true
  | _, _ => false

section Steps

variable (options : LoginOptions) (hash : TokenDigest) (request : Request)

def expire : Request :=
  { request with
    response := request.response ++ [⟨options.rememberCookie, [], 0, options.secure⟩] }

def issue (token : Bytes) : Request :=
  { request with
    session := request.session.put digestKey (hash token)
    response := request.response ++
      [⟨options.rememberCookie, token, options.rememberFor, options.secure⟩] }

/-- The rest of `login` and `logout`, from the end of `revoke` on. -/
def finish : Pending → Request
  | .login identity token =>
    let installed := { request with
      session := (((request.session.forget digestKey).regenerate request.newId).put
        options.sessionKey identity).forget (ascii "_gungnir_csrf_token")
      auth := some (Context.login identity) }
    match token with
    | some token => (installed.issue options hash token).conclude (.ok true)
    | none => (installed.expire options).conclude (.ok true)
  | .logout =>
    ({ request with
      session := (request.session.forget digestKey).invalidate request.newId
      auth := request.auth.map Context.logout }.expire options).conclude (.ok true)

/-- `revoke`, behind the token of the session. -/
def revokeRest (pending : Pending) : Request :=
  if request.cookie.length = 64 then request.await (.revokeCookie pending)
  else request.finish options hash pending

def revoke (pending : Pending) : Request :=
  if request.recorded ≠ [] then request.await (.revokeSession pending)
  else request.revokeRest options hash pending

/-- The largest time point, in nanoseconds. -/
def maxTime : Int := 2 ^ 63 - 1

def login (now : Int) (request : Request) (identity : Bytes) (remember : Bool) : Request :=
  if identity = [] then
    request.conclude (.error (.invalidArgument "Login identity cannot be empty"))
  else if remember then
    if options.rememberFor > (maxTime - now) / 1000000000 then
      request.conclude (.error (.invalidArgument "Remember lifetime is out of range"))
    else request.await (.put identity (now + options.rememberFor * 1000000000))
  else request.revoke options hash (.login identity none)

def recallToken : Request :=
  if request.authenticated then request.conclude (.ok false)
  else if request.cookie.length ≠ 64 then request.conclude (.ok false)
  else request.await .consume

/-- `recall`, behind `consume`; `resolved` is what the identity resolver returns. -/
def recallRest (now : Int) (request : Request) (resolved : Except Exception (Option Bytes)) :
    Except Exception (Option Bytes) → Request
  | .error exception => request.conclude (.error exception)
  | .ok none => (request.expire options).conclude (.ok false)
  | .ok (some id) =>
    match resolved with
    | .error exception => request.conclude (.error exception)
    | .ok identity =>
      if identity = some id then request.login options hash now id true
      else (request.expire options).conclude (.ok false)

/-- A store call that returns nothing, and the step behind it. -/
def proceed (rest : Request) : Except Exception Unit → Request
  | .error exception => request.conclude (.error exception)
  | .ok () => rest

end Steps

/-! ## What a step changes -/

/-- The session and the identity change only where a call completes. -/
structure Keeps (before after : Request) : Prop where
  cookie : after.cookie = before.cookie
  known : after.known = before.known
  call : after.call = before.call
  session : after.completed = false → after.session = before.session
  auth : after.completed = false → after.auth = before.auth

/-- The identity for which a recall has consumed its token. -/
def held (request : Request) : Option Bytes :=
  match request.call, request.phase with
  | .recallToken, .put identity _ => some identity
  | .recallToken, .revokeSession (.login identity _) => some identity
  | .recallToken, .revokeCookie (.login identity _) => some identity
  | _, _ => none

/-- What waits for the revocations. -/
def pending (request : Request) : Option Pending :=
  match request.phase with
  | .revokeSession pending | .revokeCookie pending => some pending
  | .idle | .consume | .put _ _ => none

/-- What a guard call makes of its request up to the next store call. It may put a token for
an identity that passed and revoke for what is owed; it turns to the cookie where the session
is clear, and finishes where all is settled. -/
inductive Outcome (options : LoginOptions) (hash : TokenDigest) (passed : Bytes → Prop)
    (owed : Pending → Prop) (clear settled : Prop) (request : Request) : Request → Prop where
  | stops (response : List Cookie) {result : Except Exception Bool} (fails : result ≠ .ok true) :
      Outcome options hash passed owed clear settled request
        ({ request with response := response }.conclude result)
  | consumes : Outcome options hash passed owed clear settled request (request.await .consume)
  | puts {identity : Bytes} (expires : Int) (passes : passed identity) :
      Outcome options hash passed owed clear settled request (request.await (.put identity expires))
  | revokesSession {pending : Pending} (owes : owed pending) :
      Outcome options hash passed owed clear settled request (request.await (.revokeSession pending))
  | revokesCookie {pending : Pending} (owes : owed pending) (cleared : clear) :
      Outcome options hash passed owed clear settled request (request.await (.revokeCookie pending))
  | finishes {pending : Pending} (owes : owed pending) (ends : settled) :
      Outcome options hash passed owed clear settled request (request.finish options hash pending)

variable {options : LoginOptions} {hash : TokenDigest} {request after : Request}
  {passed : Bytes → Prop} {owed : Pending → Prop} {clear settled : Prop}

section Calls

variable {pending : Pending} (owes : owed pending)
include owes

theorem outcome_revokeRest (cleared : clear) (ends : request.cookie.length ≠ 64 → settled) :
    Outcome options hash passed owed clear settled request
      (request.revokeRest options hash pending) := by
  unfold revokeRest
  split
  · exact .revokesCookie owes cleared
  · rename_i short
    exact .finishes owes (ends short)

theorem outcome_revoke (cleared : request.recorded = [] → clear)
    (ends : request.recorded = [] → request.cookie.length ≠ 64 → settled) :
    Outcome options hash passed owed clear settled request (request.revoke options hash pending) := by
  unfold revoke
  split
  · exact .revokesSession owes
  · rename_i filled
    have empty := not_not.mp filled
    exact outcome_revokeRest owes (cleared empty) (ends empty)

end Calls

theorem outcome_conclude {result : Except Exception Bool} (fails : result ≠ .ok true) :
    Outcome options hash passed owed clear settled request (request.conclude result) :=
  .stops request.response fails

theorem outcome_login {now : Int} {identity : Bytes} {remember : Bool}
    (passes : remember = true → passed identity)
    (owes : remember = false → owed (.login identity none))
    (cleared : request.recorded = [] → clear)
    (ends : request.recorded = [] → request.cookie.length ≠ 64 → settled) :
    Outcome options hash passed owed clear settled request
      (request.login options hash now identity remember) := by
  unfold login
  split
  · exact outcome_conclude nofun
  · cases remember with
    | true =>
      rw [if_pos rfl]
      split
      · exact outcome_conclude nofun
      · exact .puts _ (passes rfl)
    | false => exact outcome_revoke (owes rfl) cleared ends

theorem outcome_recall :
    Outcome options hash passed owed clear settled request request.recallToken := by
  unfold recallToken
  split
  · exact outcome_conclude nofun
  · split
    · exact outcome_conclude nofun
    · exact .consumes

theorem outcome_recallRest {now : Int} {resolved consumed : Except Exception (Option Bytes)}
    (passes : ∀ identity, consumed = .ok (some identity) → passed identity)
    (cleared : request.recorded = [] → clear)
    (ends : request.recorded = [] → request.cookie.length ≠ 64 → settled) :
    Outcome options hash passed owed clear settled request
      (request.recallRest options hash now resolved consumed) := by
  unfold recallRest
  split
  · exact outcome_conclude nofun
  · exact .stops _ nofun
  · split
    · exact outcome_conclude nofun
    · split
      · exact outcome_login (fun _ => passes _ rfl) nofun cleared ends
      · exact .stops _ nofun

/-- The step behind a store call, if that returns. -/
theorem outcome_proceed {rest : Request} {result : Except Exception Unit}
    (outcome : result = .ok () → Outcome options hash passed owed clear settled request rest) :
    Outcome options hash passed owed clear settled request (request.proceed rest result) := by
  cases result with
  | error exception => exact outcome_conclude nofun
  | ok value => exact outcome rfl

/-! ## What an outcome shows -/

theorem phase_finish (pending : Pending) : (request.finish options hash pending).phase = .idle := by
  cases pending with
  | login identity token => cases token <;> rfl
  | logout => rfl

theorem completed_finish (pending : Pending) :
    (request.finish options hash pending).completed = true := by
  cases pending with
  | login identity token => cases token <;> rfl
  | logout => rfl

theorem held_of_idle (idle : request.phase = .idle) : request.held = none := by
  unfold held
  rw [idle]
  cases request.call <;> rfl

namespace Outcome

variable (outcome : Outcome options hash passed owed clear settled request after)
include outcome

theorem keeps : Keeps request after := by
  cases outcome with
  | stops response fails => exact ⟨rfl, rfl, rfl, fun _ => rfl, fun _ => rfl⟩
  | consumes | puts | revokesSession | revokesCookie =>
    exact ⟨rfl, rfl, rfl, fun _ => rfl, fun _ => rfl⟩
  | @finishes pending owes ends =>
    have done := @completed_finish options hash request pending
    refine ⟨?_, ?_, ?_, fun open_ => absurd (done.symm.trans open_) nofun,
      fun open_ => absurd (done.symm.trans open_) nofun⟩
    all_goals
      cases pending with
      | login identity token => cases token <;> rfl
      | logout => rfl

/-- A recall holds the identity for which it puts a token or revokes. -/
theorem held {identity : Bytes} (holds : after.held = some identity) :
    request.call = .recallToken ∧
      (passed identity ∨ ∃ token, owed (.login identity token)) := by
  have called : request.call = .recallToken := by
    rw [← outcome.keeps.call]
    unfold Request.held at holds
    split at holds
    all_goals first | assumption | cases holds
  refine ⟨called, ?_⟩
  cases outcome with
  | stops response fails =>
    rw [held_of_idle rfl] at holds
    cases holds
  | consumes =>
    simp only [Request.held, await, called] at holds
    cases holds
  | puts expires passes =>
    simp only [Request.held, await, called] at holds
    cases holds
    exact .inl passes
  | @revokesSession pending owes | @revokesCookie pending owes =>
    cases pending with
    | login other token =>
      simp only [Request.held, await, called] at holds
      cases holds
      exact .inr ⟨token, owes⟩
    | logout =>
      simp only [Request.held, await, called] at holds
      cases holds
  | finishes =>
    rw [held_of_idle (phase_finish _)] at holds
    cases holds

/-- The cookie is revoked only behind the token of the session. -/
theorem cleared {pending : Pending} (waits : after.phase = .revokeCookie pending) : clear := by
  cases outcome with
  | stops | consumes | puts | revokesSession => cases waits
  | revokesCookie owes cleared => exact cleared
  | finishes =>
    rw [phase_finish] at waits
    cases waits

theorem owes {waiting : Pending} (waits : after.pending = some waiting) : owed waiting := by
  cases outcome with
  | stops | consumes | puts => cases waits
  | revokesSession owes | revokesCookie owes =>
    cases waits
    exact owes
  | finishes =>
    rw [Request.pending, phase_finish] at waits
    cases waits

theorem completed (done : after.completed = true) :
    settled ∧ ∃ pending, owed pending ∧ after = request.finish options hash pending := by
  cases outcome with
  | @stops response result fails =>
    cases result with
    | error exception => cases done
    | ok value =>
      cases value with
      | true => exact absurd rfl fails
      | false => cases done
  | consumes | puts | revokesSession | revokesCookie => cases done
  | finishes owes ends => exact ⟨ends, _, owes, rfl⟩

end Outcome

end Request

end Gungnir.Auth

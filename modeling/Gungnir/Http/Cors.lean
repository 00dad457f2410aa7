import Gungnir.Http.Response
import Gungnir.Http.TrustedProxies

/-!
# Cross-origin requests

The middleware `cors`. A response that depends on the `Origin` header has to say so in `Vary`,
or a shared cache hands it to other origins. `append_vary` looks for the word it would add
anywhere in the text, so a longer token that contains the word keeps it out.
-/

namespace Gungnir.Http

open Gungnir.Core List
open Gungnir.Library (find bind_eq_ok)
open TrustedProxies (comma splitCsv)

/-! ## Headers of a response -/

variable (response : Response)

def Response.header (name : Bytes) : Bytes :=
  (response.headers.lookup (normalizeHeaderName name)).getD []

/-- The setter `Response::header`. Where a new name stands in the map is left open by the
source; no result here depends on it. -/
def Response.setHeader (name value : Bytes) : Except Exception Response :=
  if validHeaderName name && validHeaderValue value then
    .ok { response with
      headers := (normalizeHeaderName name, value) ::
        response.headers.filter (·.1 ≠ normalizeHeaderName name) }
  else .error (.invalidArgument "Invalid HTTP response header")

def Response.noContent : Response := ⟨204, [], [], []⟩

/-! ## The middleware -/

structure CorsOptions where
  allowOrigin : Bytes
  allowOrigins : List Bytes
  allowMethods : Bytes
  allowHeaders : Bytes
  allowCredentials : Bool
  /-- In seconds. -/
  maxAge : Int

def csvContains (csv candidate : Bytes) : Bool :=
  let expected := lowercase (trim candidate)
  if expected = [] then false
  else if trim csv = ascii "*" then true
  else (splitCsv csv 64).any (lowercase · = expected)

variable (options : CorsOptions)

def corsOrigin (presented : Bytes) : Option Bytes :=
  if presented = [] then none
  else if options.allowOrigins ≠ [] then
    if presented ∈ options.allowOrigins then some presented else none
  else if options.allowOrigin = ascii "*" then some (ascii "*")
  else if options.allowOrigin = presented then some presented
  else none

def appendVary (value : Bytes) : Except Exception Response :=
  let existing := response.header (ascii "vary")
  if existing = [] then response.setHeader (ascii "vary") value
  else if (find (lowercase value) (lowercase existing)).isSome then .ok response
  else response.setHeader (ascii "vary") (existing ++ ascii ", " ++ value)

def applyCorsHeaders (options : CorsOptions) (origin : Bytes) (preflight : Bool) :
    Except Exception Response := do
  let response ← response.setHeader (ascii "access-control-allow-origin") origin
  let response ←
    (if options.allowCredentials then
      response.setHeader (ascii "access-control-allow-credentials") (ascii "true")
    else .ok response)
  let response ←
    (if origin ≠ ascii "*" then appendVary response (ascii "Origin") else .ok response)
  if preflight then
    let response ←
      response.setHeader (ascii "access-control-allow-methods") options.allowMethods
    let response ←
      response.setHeader (ascii "access-control-allow-headers") options.allowHeaders
    let response ← response.setHeader (ascii "access-control-max-age")
      (stdToStringSigned options.maxAge)
    let response ← appendVary response (ascii "Access-Control-Request-Method")
    appendVary response (ascii "Access-Control-Request-Headers")
  else .ok response

def isPreflight (request : Request) : Bool :=
  request.method = .options && request.header (ascii "origin") ≠ [] &&
    request.header (ascii "access-control-request-method") ≠ []

/-- The text with which a preflight is refused. -/
def refusal (request : Request) : Option Bytes :=
  let headers := request.header (ascii "access-control-request-headers")
  if !csvContains options.allowMethods
      (request.header (ascii "access-control-request-method")) then
    some (ascii "CORS Method Denied")
  else if headers ≠ [] ∧ (splitCsv headers 64 = [] ∨
      ¬(splitCsv headers 64).all (csvContains options.allowHeaders)) then
    some (ascii "CORS Headers Denied")
  else none

abbrev Next := Request → Except Exception Response

def corsHandler (request : Request) (next : Next) : Except Exception Response :=
  let allowed := corsOrigin options (request.header (ascii "origin"))
  if isPreflight request then
    match allowed with
    | none => .ok (Response.text (ascii "CORS Origin Denied") 403)
    | some origin =>
      match refusal options request with
      | some text => .ok (Response.text text 403)
      | none => applyCorsHeaders .noContent options origin true
  else do
    let response ← next request
    match allowed with
    | none => return response
    | some origin => applyCorsHeaders response options origin false

def cors : Except Exception (Request → Next → Except Exception Response) :=
  if options.maxAge < 0 ∨ !validHeaderValue options.allowMethods ∨
      !validHeaderValue options.allowHeaders ∨ !validHeaderValue options.allowOrigin then
    .error (.invalidArgument "Invalid CORS configuration")
  else if options.allowCredentials ∧ options.allowOrigins = [] ∧
      options.allowOrigin = ascii "*" then
    .error (.invalidArgument "Credentialed CORS cannot use a wildcard origin")
  else if options.allowOrigins.any fun origin =>
      origin = [] || origin = ascii "*" || !validHeaderValue origin then
    .error (.invalidArgument "Invalid CORS origin")
  else .ok (corsHandler options)

/-! ## Token lists -/

/-- The tokens of a list header, in lower case. -/
def listTokens (value : Bytes) : List Bytes :=
  ((value.splitOn comma).map fun piece => lowercase (trim piece)).filter (· ≠ [])

/-- A `Vary` value has been extended to `Origin`: it has the token or `*`, it has the tokens it
had, and none of them twice that it had once. -/
structure Varied (before after : Bytes) : Prop where
  named : ascii "origin" ∈ listTokens after ∨ ascii "*" ∈ listTokens after
  kept : ∀ token ∈ listTokens before, token ∈ listTokens after
  once : ∀ token, (listTokens before).count token ≤ 1 → (listTokens after).count token ≤ 1

theorem listTokens_append {value : Bytes} (plain : comma ∉ value) (existing : Bytes) :
    listTokens (existing ++ ascii ", " ++ value) = listTokens existing ++ listTokens value := by
  have text : existing ++ ascii ", " ++ value = existing ++ comma :: (32 :: value) := by
    rw [append_assoc]
    rfl
  have spaced : comma ∉ (32 : UInt8) :: value := fun member => (mem_cons.mp member).elim nofun plain
  unfold listTokens
  rw [text, splitOn_append_cons_self, splitOn_eq_singleton spaced, splitOn_eq_singleton plain,
    map_append, filter_append]
  rfl

theorem infix_intercalate {parts : List Bytes} {part : Bytes} (member : part ∈ parts)
    (separator : Bytes) : part <:+: separator.intercalate parts := by
  induction parts with
  | nil => cases member
  | cons first rest ih =>
    cases rest with
    | nil =>
      obtain rfl := mem_singleton.mp member
      simp [intercalate]
    | cons second rest =>
      rw [intercalate_cons_cons]
      rcases mem_cons.mp member with rfl | later
      · exact ((prefix_append _ _).trans (prefix_append _ _)).isInfix
      · exact (ih later).trans (suffix_append _ _).isInfix

/-- A token stands somewhere in the value. -/
theorem infix_of_mem_listTokens {token value : Bytes} (member : token ∈ listTokens value) :
    token <:+: lowercase value := by
  obtain ⟨piece, inside, rfl⟩ := mem_map.mp (mem_filter.mp member).1
  have part := infix_intercalate inside [comma]
  rw [intercalate_splitOn] at part
  have front := rdropWhile_prefix blank (piece.dropWhile blank)
  have trimmed : trim piece <:+: piece := front.isInfix.trans (dropWhile_suffix blank).isInfix
  exact (trimmed.trans part).map lowercaseByte

theorem isSome_find {needle text : Bytes} (inside : needle <:+: text) :
    (find needle text).isSome = true := by
  obtain ⟨before, after, rfl⟩ := inside
  induction before with
  | nil =>
    cases needle with
    | nil => cases after <;> rfl
    | cons first rest =>
      have starts : (first :: rest).isPrefixOf (first :: (rest ++ after)) = true := by simp
      simp [Library.find_cons, starts]
  | cons first rest ih =>
    rw [cons_append, cons_append, Library.find_cons]
    split
    · rfl
    · rw [Option.isSome_map]
      exact ih

/-! ## The vary header -/

namespace Response

variable {response after : Response} {name value : Bytes}

theorem lookup_filter_ne {key other : Bytes} (differs : other ≠ key)
    (headers : List (Bytes × Bytes)) :
    (headers.filter (·.1 ≠ key)).lookup other = headers.lookup other := by
  induction headers with
  | nil => rfl
  | cons entry rest ih =>
    obtain ⟨name, value⟩ := entry
    by_cases same : name = key
    · have apart : (other == name) = false := beq_eq_false_iff_ne.mpr (same ▸ differs)
      rw [filter_cons_of_neg (by simpa using same), ih, lookup_cons, apart]
    · rw [filter_cons_of_pos (by simpa using same), lookup_cons, lookup_cons, ih]

theorem header_setHeader (set : response.setHeader name value = .ok after) (other : Bytes) :
    after.header other =
      if normalizeHeaderName other = normalizeHeaderName name then value
      else response.header other := by
  unfold setHeader at set
  split at set
  · cases set
    unfold header
    rw [lookup_cons]
    split_ifs with same
    · rw [same, beq_self_eq_true]
      rfl
    · rw [beq_eq_false_iff_ne.mpr same]
      rw [lookup_filter_ne same]
  · cases set

end Response

variable {options : CorsOptions} {response after : Response} {origin : Bytes} {preflight : Bool}

/-- `append_vary` on the value. -/
def extended (existing value : Bytes) : Bytes :=
  if existing = [] then value
  else if (find (lowercase value) (lowercase existing)).isSome then existing
  else existing ++ ascii ", " ++ value

theorem header_appendVary {value : Bytes} (appended : appendVary response value = .ok after) :
    after.header (ascii "vary") = extended (response.header (ascii "vary")) value := by
  unfold appendVary at appended
  dsimp only at appended
  unfold extended
  split_ifs at appended ⊢
  · rw [Response.header_setHeader appended, if_pos rfl]
  · cases appended
    rfl
  · rw [Response.header_setHeader appended, if_pos rfl]

theorem header_other {name value : Bytes} (set : response.setHeader name value = .ok after)
    (differs : ascii "vary" ≠ normalizeHeaderName name) :
    after.header (ascii "vary") = response.header (ascii "vary") := by
  rw [Response.header_setHeader set]
  exact if_neg differs

theorem header_applyCorsHeaders (depends : origin ≠ ascii "*")
    (applied : applyCorsHeaders response options origin preflight = .ok after) :
    after.header (ascii "vary") =
      let named := extended (response.header (ascii "vary")) (ascii "Origin")
      if preflight then
        extended (extended named (ascii "Access-Control-Request-Method"))
          (ascii "Access-Control-Request-Headers")
      else named := by
  obtain ⟨first, allowed, applied⟩ := bind_eq_ok.mp applied
  obtain ⟨second, credentials, applied⟩ := bind_eq_ok.mp applied
  obtain ⟨third, varied, applied⟩ := bind_eq_ok.mp applied
  have unchanged : second.header (ascii "vary") = response.header (ascii "vary") := by
    rw [← header_other allowed (by decide)]
    split at credentials
    · exact header_other credentials (by decide)
    · cases credentials
      rfl
  rw [if_pos depends] at varied
  have named := header_appendVary varied
  rw [unchanged] at named
  cases preflight with
  | false =>
    cases applied
    exact named
  | true =>
    obtain ⟨fourth, methods, applied⟩ := bind_eq_ok.mp applied
    obtain ⟨fifth, headers, applied⟩ := bind_eq_ok.mp applied
    obtain ⟨sixth, age, applied⟩ := bind_eq_ok.mp applied
    obtain ⟨seventh, method, applied⟩ := bind_eq_ok.mp applied
    rw [header_appendVary applied, header_appendVary method, header_other age (by decide),
      header_other headers (by decide), header_other methods (by decide), named]
    rfl

/-! ## The guarantee -/

theorem varied_self {existing : Bytes} : Varied existing existing ↔
    ascii "origin" ∈ listTokens existing ∨ ascii "*" ∈ listTokens existing :=
  ⟨fun varied => varied.named, fun named => ⟨named, fun _ member => member, fun _ few => few⟩⟩

theorem varied_extended (existing : Bytes) :
    Varied existing (extended existing (ascii "Origin")) ↔
      ((find (ascii "origin") (lowercase existing)).isSome →
        ascii "origin" ∈ listTokens existing ∨ ascii "*" ∈ listTokens existing) := by
  have alone : listTokens (ascii "Origin") = [ascii "origin"] := by decide
  unfold extended
  split_ifs with empty found
  · subst empty
    refine ⟨fun _ present => absurd present (by decide),
      fun _ => ⟨.inl (by rw [alone]; exact mem_cons_self), fun _ => False.elim ∘ not_mem_nil, ?_⟩⟩
    intro token _
    exact count_le_length
  · rw [varied_self]
    exact ⟨fun named _ => named, fun named => named found⟩
  · refine ⟨fun _ present => absurd present found, fun _ => ?_⟩
    have tokens := @listTokens_append (ascii "Origin") (by decide) existing
    rw [alone] at tokens
    -- The token would stand in the text.
    have absent : ascii "origin" ∉ listTokens existing := fun member =>
      found (isSome_find (infix_of_mem_listTokens member))
    refine ⟨.inl ?_, fun token member => ?_, fun token few => ?_⟩
    · rw [tokens]
      exact mem_append_right _ mem_cons_self
    · rw [tokens]
      exact mem_append_left _ member
    · rw [tokens, count_append]
      by_cases same : token = ascii "origin"
      · rw [same, count_eq_zero.mpr absent, count_singleton_self]
      · rw [count_singleton, if_neg (by simpa using Ne.symm same)]
        exact few

/-- A preflight is answered from a response without headers. -/
theorem varied_preflight :
    Varied [] (extended (extended (extended [] (ascii "Origin"))
      (ascii "Access-Control-Request-Method")) (ascii "Access-Control-Request-Headers")) where
  named := .inl (by decide)
  kept := nofun
  once token _ := nodup_iff_count_le_one.mp (by decide) token

theorem corsOrigin_ne_nil {presented : Bytes}
    (allowed : corsOrigin options presented = some origin) :
    origin ≠ [] := by
  unfold corsOrigin at allowed
  split_ifs at allowed with empty
  · exact Option.some.inj allowed ▸ empty
  · exact Option.some.inj allowed ▸ by decide
  · exact Option.some.inj allowed ▸ empty

/-- A response to which the middleware adds an origin that it took from the request says so in
its `Vary` header, with the tokens it had and none of them doubled, if and only if the header
did not have the word inside other tokens alone. -/
theorem cors_vary {handler : Request → Next → Except Exception Response} {request : Request}
    {next : Next} {before : Response} (built : cors options = .ok handler)
    (allowed : corsOrigin options (request.header (ascii "origin")) = some origin)
    (depends : origin ≠ ascii "*")
    (reached : (if isPreflight request then .ok .noContent else next request) = .ok before)
    (answered : handler request next = .ok after)
    (added : after.header (ascii "access-control-allow-origin") = origin) :
    Varied (before.header (ascii "vary")) (after.header (ascii "vary")) ↔
      ((find (ascii "origin") (lowercase (before.header (ascii "vary")))).isSome →
        ascii "origin" ∈ listTokens (before.header (ascii "vary")) ∨
          ascii "*" ∈ listTokens (before.header (ascii "vary"))) := by
  have cors_eq : handler = corsHandler options := by
    unfold cors at built
    split_ifs at built
    exact (Except.ok.inj built).symm
  subst cors_eq
  unfold corsHandler at answered
  rw [allowed] at answered
  split at answered
  next preflight =>
    rw [if_pos preflight] at reached
    cases reached
    split at answered
    · cases answered
      exact absurd added.symm (corsOrigin_ne_nil allowed)
    · rw [header_applyCorsHeaders depends answered]
      exact iff_of_true varied_preflight (by decide)
  next =>
    rw [if_neg ‹_›] at reached
    rw [reached] at answered
    rw [header_applyCorsHeaders depends answered]
    exact varied_extended _

/-- One origin is allowed, it asks, and the application answers with its own `Vary`. -/
def sampleCors : CorsOptions :=
  ⟨ascii "https://a.example", [], ascii "GET", ascii "*", false, 600⟩

def sampleGet : Request :=
  ⟨.get, ascii "/", ascii "/", ∅,
    AList.insert (ascii "origin") (ascii "https://a.example") ∅, []⟩

def plainNext (vary : Bytes) : Next := fun _ => .ok ⟨200, [], [(ascii "vary", vary)], []⟩

theorem cors_vary_accept : Varied (ascii "Accept") (ascii "Accept, Origin") := by
  have built : cors sampleCors = .ok (corsHandler sampleCors) := rfl
  have allowed : corsOrigin sampleCors (sampleGet.header (ascii "origin")) =
      some (ascii "https://a.example") := by decide
  have answered : corsHandler sampleCors sampleGet (plainNext (ascii "Accept")) =
      .ok ⟨200, [], [(ascii "vary", ascii "Accept, Origin"),
        (ascii "access-control-allow-origin", ascii "https://a.example")], []⟩ := by decide
  exact (cors_vary built allowed (by decide) rfl answered (by decide)).mpr (by decide)

/-- The header `X-Original-URL` keeps the token out. -/
theorem vary_origin_missing :
    corsHandler sampleCors sampleGet (plainNext (ascii "X-Original-URL")) =
      .ok ⟨200, [], [(ascii "access-control-allow-origin", ascii "https://a.example"),
        (ascii "vary", ascii "X-Original-URL")], []⟩ ∧
    ¬Varied (ascii "X-Original-URL") (ascii "X-Original-URL") :=
  ⟨by decide, fun varied => varied_self.mp varied |>.elim (by decide) (by decide)⟩

end Gungnir.Http

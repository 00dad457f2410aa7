import Gungnir.Http.Request

/-!
# Trusted proxies

The middleware `trusted_proxies`: it takes the client address from `X-Forwarded-For`, which it
walks from the right as long as the address found so far is a trusted proxy.
-/

namespace Gungnir.Http.TrustedProxies

open Gungnir.Core List
open Gungnir.Library (find bind_eq_ok foldlM_invariant notMem_of_find split_of_find)

def comma : UInt8 := 44

/-! ## Lists of values -/

/-- The loop of `split_csv`, with the values found so far and the room left for more. -/
def splitCsvFrom (values : List Bytes) : Nat → Bytes → List Bytes
  | 0, _ => []
  | room + 1, rest =>
    match find [comma] rest with
    | none => if trim rest = [] then [] else values ++ [trim rest]
    | some position =>
      if trim (rest.take position) = [] then []
      else splitCsvFrom (values ++ [trim (rest.take position)]) room (rest.drop (position + 1))

def splitCsv (value : Bytes) (maximum : Nat) : List Bytes := splitCsvFrom [] maximum value

/-- The pieces between the commas are few enough, and none of them is blank. -/
def Listed (maximum : Nat) (value : Bytes) : Prop :=
  (value.splitOn comma).length ≤ maximum ∧ ∀ piece ∈ value.splitOn comma, trim piece ≠ []

instance (maximum : Nat) (value : Bytes) : Decidable (Listed maximum value) :=
  inferInstanceAs (Decidable (_ ∧ _))

theorem listed_single {room : Nat} {rest : Bytes} (absent : comma ∉ rest) :
    Listed (room + 1) rest ↔ trim rest ≠ [] := by
  unfold Listed
  rw [splitOn_eq_singleton absent, forall_mem_singleton]
  exact and_iff_right (Nat.succ_le_succ (Nat.zero_le room))

theorem listed_cons {room : Nat} {first rest : Bytes} (absent : comma ∉ first) :
    Listed (room + 1) (first ++ comma :: rest) ↔ trim first ≠ [] ∧ Listed room rest := by
  unfold Listed
  rw [splitOn_append_cons_self_of_not_mem absent, forall_mem_cons, length_cons,
    Nat.add_le_add_iff_right]
  exact and_left_comm

theorem splitCsvFrom_eq (values : List Bytes) (room : Nat) (rest : Bytes) :
    splitCsvFrom values room rest =
      if Listed room rest then values ++ (rest.splitOn comma).map trim else [] := by
  induction room generalizing values rest with
  | zero =>
    have crowded : ¬Listed 0 rest := fun listed =>
      splitOn_ne_nil comma rest (eq_nil_of_length_eq_zero (Nat.le_zero.mp listed.1))
    rw [if_neg crowded]
    rfl
  | succ room ih =>
    unfold splitCsvFrom
    cases found : find [comma] rest with
    | none =>
      have absent := notMem_of_find found
      rw [splitOn_eq_singleton absent]
      by_cases blank : trim rest = []
      · rw [if_pos blank, if_neg (fun listed => (listed_single absent).mp listed blank)]
      · rw [if_neg blank, if_pos ((listed_single absent).mpr blank)]
        rfl
    | some position =>
      obtain ⟨absent, shape⟩ := split_of_find found
      have cut := splitOn_append_cons_self_of_not_mem absent (rest.drop (position + 1))
      have listed := @listed_cons room _ (rest.drop (position + 1)) absent
      rw [← shape] at cut listed
      dsimp only
      rw [ih, cut]
      by_cases blank : trim (rest.take position) = []
      · rw [if_pos blank, if_neg (fun both => (listed.mp both).1 blank)]
      · rw [if_neg blank]
        by_cases later : Listed room (rest.drop (position + 1))
        · rw [if_pos later, if_pos (listed.mpr ⟨blank, later⟩), map_cons,
            append_assoc]
          rfl
        · rw [if_neg later, if_neg (fun both => later (listed.mp both).2)]

/-! ## The middleware -/

structure TrustedProxyOptions where
  proxies : List Bytes
  trustForwardedProto : Bool

/-- What the middleware reads and changes of a request. -/
structure Incoming where
  request : Request
  clientIp : Bytes
  secure : Bool

def insertProxy (proxies : List Bytes) (proxy : Bytes) : Except Exception (List Bytes) :=
  if trim proxy = [] || comma ∈ trim proxy || !validHeaderValue (trim proxy) then
    .error (.invalidArgument "Invalid trusted proxy")
  else .ok (trim proxy :: proxies)

/-- The part of `trusted_proxies` that runs when the middleware is made. -/
def normalizeOptions (options : TrustedProxyOptions) : Except Exception TrustedProxyOptions := do
  let proxies ← options.proxies.foldlM insertProxy []
  return { options with proxies := proxies }

/-- The walk over the chain, from its end. -/
def walk (proxies : List Bytes) (peer : Bytes) : Bytes → List Bytes → Bytes
  | client, [] => client
  | client, item :: rest =>
    if client ∉ proxies then client
    else if 255 < item.length || !validHeaderValue item then peer
    else walk proxies peer item rest

def forwardedClient (proxies : List Bytes) (peer forwarded : Bytes) : Bytes :=
  walk proxies peer peer (splitCsv forwarded 32).reverse

def realIp (peer header : Bytes) : Bytes :=
  if trim header ≠ [] ∧ (trim header).length ≤ 255 ∧ validHeaderValue (trim header) then
    trim header
  else peer

def forwardedSecure (header : Bytes) (secure : Bool) : Bool :=
  match (splitCsv header 32).getLast? with
  | none => secure
  | some proto =>
    if lowercase proto = ascii "https" then true
    else if lowercase proto = ascii "http" then false
    else secure

/-- `trusted_proxies` on a request, with options that have been normalized. The request is
what the next handler gets. -/
def trustedProxies (options : TrustedProxyOptions) (incoming : Incoming) : Incoming :=
  let peer := incoming.clientIp
  if peer = [] ∨ peer ∉ options.proxies then incoming
  else
    let forwarded := incoming.request.header (ascii "x-forwarded-for")
    let client :=
      if forwarded ≠ [] then forwardedClient options.proxies peer forwarded
      else realIp peer (incoming.request.header (ascii "x-real-ip"))
    let secure :=
      if options.trustForwardedProto then
        forwardedSecure (incoming.request.header (ascii "x-forwarded-proto")) incoming.secure
      else incoming.secure
    { incoming with clientIp := client, secure := secure }

/-! ## The assigned address -/

/-- The header that a proxy sends: what it got, and the address of its own client. -/
def forward (received client : Bytes) : Bytes :=
  if received = [] then client else received ++ ascii ", " ++ client

/-- An address as a proxy writes it. -/
structure Address (client : Bytes) : Prop where
  nonempty : client ≠ []
  single : comma ∉ client
  short : client.length ≤ 255
  valid : validHeaderValue client = true
  trimmed : trim client = client

/-- What the proxy got leaves its own entry readable: there are at most 31 entries, and none
of them is blank. -/
def Readable (received : Bytes) : Prop := received = [] ∨ Listed 31 received

theorem trim_cons_blank (client : Bytes) : trim (32 :: client) = trim client := rfl

variable {received client : Bytes}

/-- An untrusted address that ends the chain ends the walk. -/
theorem walk_client {proxies : List Bytes} {peer client : Bytes} {others : List Bytes}
    (trusted : peer ∈ proxies) (untrusted : client ∉ proxies) (address : Address client) :
    walk proxies peer peer (others ++ [client]).reverse = client := by
  have accepted : ¬(decide (255 < client.length) || !validHeaderValue client) = true := by
    rw [address.valid, decide_eq_false (not_lt.mpr address.short)]
    decide
  rw [reverse_append, reverse_singleton, singleton_append, walk,
    if_neg (not_not.mpr trusted), if_neg accepted]
  cases others.reverse with
  | nil => rfl
  | cons next rest => rw [walk, if_pos untrusted]

section

variable (address : Address client)
include address

theorem splitOn_forward (filled : received ≠ []) :
    (forward received client).splitOn comma = received.splitOn comma ++ [32 :: client] := by
  have plain : comma ∉ (32 : UInt8) :: client := fun member =>
    (mem_cons.mp member).elim nofun address.single
  unfold forward
  rw [if_neg filled, append_assoc]
  change splitOn comma (received ++ comma :: 32 :: client) = _
  rw [splitOn_append_cons_self, splitOn_eq_singleton plain]

theorem listed_forward (filled : received ≠ []) :
    Listed 32 (forward received client) ↔ Listed 31 received := by
  unfold Listed
  rw [splitOn_forward address filled, forall_mem_append, forall_mem_singleton,
    length_append, length_singleton, Nat.add_le_add_iff_right, trim_cons_blank,
    address.trimmed]
  exact and_congr_right fun _ => and_iff_left address.nonempty

/-- Where the header can be split, its last value is the address. -/
theorem splitCsv_forward :
    (Readable received →
      ∃ others, splitCsv (forward received client) 32 = others ++ [client]) ∧
    (¬Readable received → splitCsv (forward received client) 32 = []) := by
  rw [splitCsv, splitCsvFrom_eq, nil_append]
  by_cases empty : received = []
  · have listed : Listed 32 client := (listed_single address.single).mpr (by
      rw [address.trimmed]
      exact address.nonempty)
    refine ⟨fun _ => ⟨[], ?_⟩, fun unreadable => absurd (.inl empty) unreadable⟩
    unfold forward
    rw [if_pos empty, if_pos listed, splitOn_eq_singleton address.single, map_singleton,
      address.trimmed]
    rfl
  · refine ⟨fun readable => ⟨(received.splitOn comma).map trim, ?_⟩, fun unreadable => ?_⟩
    · have listed := (listed_forward address empty).mpr (readable.resolve_left empty)
      rw [if_pos listed, splitOn_forward address empty, map_append, map_singleton,
        trim_cons_blank, address.trimmed]
    · exact if_neg fun listed => unreadable (.inr ((listed_forward address empty).mp listed))

theorem forward_ne_nil : forward received client ≠ [] := by
  unfold forward
  split
  · exact address.nonempty
  · exact append_ne_nil_of_right_ne_nil _ address.nonempty

end

/-- No proxy is the empty address. -/
theorem proxies_ne_nil {options normalized : TrustedProxyOptions}
    (made : normalizeOptions options = .ok normalized) : ∀ proxy ∈ normalized.proxies, proxy ≠ [] := by
  obtain ⟨proxies, finished, returned⟩ := bind_eq_ok.mp made
  cases returned
  refine foldlM_invariant (fun inserted => ∀ proxy ∈ inserted, proxy ≠ []) ?_ finished
    (nofun)
  intro before proxy after inserted holds
  unfold insertProxy at inserted
  split at inserted
  · cases inserted
  · rename_i accepted
    cases inserted
    refine forall_mem_cons.mpr ⟨fun blank => accepted ?_, holds⟩
    rw [blank]
    rfl

/-- Behind a trusted peer, the client that the peer names is the one that is assigned, exactly
if what the peer got is readable. -/
theorem trusted_proxy_client {options normalized : TrustedProxyOptions} {incoming : Incoming}
    {received client : Bytes} (made : normalizeOptions options = .ok normalized)
    (trusted : incoming.clientIp ∈ normalized.proxies) (untrusted : client ∉ normalized.proxies)
    (address : Address client)
    (sent : incoming.request.header (ascii "x-forwarded-for") = forward received client) :
    (trustedProxies normalized incoming).clientIp = client ↔ Readable received := by
  have known : ¬(incoming.clientIp = [] ∨ incoming.clientIp ∉ normalized.proxies) := by
    rintro (empty | foreign)
    · exact proxies_ne_nil made _ trusted empty
    · exact foreign trusted
  have assigned : (trustedProxies normalized incoming).clientIp =
      walk normalized.proxies incoming.clientIp incoming.clientIp
        (splitCsv (forward received client) 32).reverse := by
    unfold trustedProxies
    dsimp only
    rw [if_neg known, sent, if_pos (forward_ne_nil address)]
    rfl
  obtain ⟨split, unsplit⟩ := @splitCsv_forward received client address
  rw [assigned]
  constructor
  · intro same
    by_contra unreadable
    rw [unsplit unreadable] at same
    exact untrusted (same ▸ trusted)
  · intro readable
    obtain ⟨others, chain⟩ := split readable
    rw [chain]
    exact walk_client trusted untrusted address

def oneProxy : TrustedProxyOptions := ⟨[ascii "10.0.0.1"], true⟩

def behindProxy (received : Bytes) : Incoming :=
  { request :=
      { Request.create .get (ascii "/") [] with
        headers := (∅ : Library.Hash Bytes Bytes).insert (ascii "x-forwarded-for")
          (forward received (ascii "203.0.113.7")) }
    clientIp := ascii "10.0.0.1"
    secure := false }

/-- A single comma in front of the address hides it: the proxy's own address is kept. -/
theorem comma_hides_client :
    (trustedProxies oneProxy (behindProxy [comma])).clientIp = ascii "10.0.0.1" ∧
    (trustedProxies oneProxy (behindProxy [])).clientIp = ascii "203.0.113.7" := by
  decide

theorem trusted_proxy_client_sample :
    (trustedProxies oneProxy (behindProxy (ascii "198.51.100.1, 10.0.0.1"))).clientIp =
      ascii "203.0.113.7" := by
  refine (@trusted_proxy_client oneProxy oneProxy _ (ascii "198.51.100.1, 10.0.0.1") _ rfl
    (by decide) (by decide) ?_ (by decide)).mpr (.inr (by decide))
  exact ⟨by decide, by decide, by decide, by decide, by decide⟩

end Gungnir.Http.TrustedProxies

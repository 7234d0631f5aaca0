import EBank.RequestPipeline

namespace EBank

open BasicController JwtAuthorizationFilter SecurityConfig

variable {σ A : Type}

-- the controller's `page` and `size` are of type `Integer`, here they are unbounded
inductive Operation where
  | getStatus
  | getCustomers
  | getCustomerById (customerId : Long)
  | getCustomerAccounts (customerId : Long)
  | getCustomerAccount (customerId accountId : Long)
  | getAccountTransactions (customerId accountId : Long) (date : String) (page size : ℤ)
  deriving DecidableEq

inductive Resource (A : Type) where
  | customer (dto : CustomerDto)
  | accounts (dtos : List AccountDto)
  | account (dto : AccountDto)
  | transactions (dto : TransactionPageDto A)

namespace Operation

def customersPath : String := "/api/v1/customers"

def accountsPath (customerId : Long) : String :=
  customersPath ++ "/" ++ toString customerId ++ "/accounts"

def path : Operation → String
  | getStatus => "/api"
  | getCustomers => customersPath
  | getCustomerById customerId => customersPath ++ "/" ++ toString customerId
  | getCustomerAccounts customerId => accountsPath customerId
  | getCustomerAccount customerId accountId => accountsPath customerId ++ "/" ++ toString accountId
  | getAccountTransactions customerId accountId _ _ _ =>
    accountsPath customerId ++ "/" ++ toString accountId ++ "/transactions"

def customerId : Operation → Option Long
  | getStatus => none
  | getCustomers => none
  | getCustomerById customerId => some customerId
  | getCustomerAccounts customerId => some customerId
  | getCustomerAccount customerId _ => some customerId
  | getAccountTransactions customerId _ _ _ _ => some customerId

def accountId : Operation → Option Long
  | getCustomerAccount _ accountId => some accountId
  | getAccountTransactions _ accountId _ _ _ => some accountId
  | _ => none

def subpath (pattern : String) : List Char := pattern.toList.dropLast.dropLast.dropLast

def avoids (pattern : String) (start : List Char) : Bool :=
  if "/**".toList.isSuffixOf pattern.toList then
    (subpath pattern).length ≤ start.length ∧ ¬ (subpath pattern).isPrefixOf start
  else pattern.toList.length < start.length

theorem antMatches_avoids {pattern path : String} {start rest : List Char} (h : avoids pattern start)
    (hpath : path.toList = start ++ rest) : antMatches pattern path = false := by
  unfold avoids at h
  unfold antMatches
  split_ifs at h ⊢ with hwild
  · obtain ⟨hlength, hprefix⟩ := of_decide_eq_true h
    have hnot : ¬ subpath pattern <+: path.toList := by
      intro hsub
      rw [hpath] at hsub
      apply hprefix
      exact List.isPrefixOf_iff_prefix.mpr
        (List.prefix_of_prefix_length_le hsub (List.prefix_append _ _) hlength)
    rw [decide_eq_false_iff_not]
    rintro (heq | hslash)
    · exact hnot (heq ▸ List.prefix_rfl)
    · exact hnot ((List.prefix_append _ _).trans (List.isPrefixOf_iff_prefix.mp hslash))
  · rw [decide_eq_false_iff_not]
    rintro rfl
    rw [hpath, List.length_append, decide_eq_true_eq] at h
    omega

theorem permitted_below {path : String} {rest : List Char}
    (h : path.toList = "/api/v1/customers/".toList ++ rest) : permitted path = false := by
  have havoids : ∀ pattern ∈ permitAll, avoids pattern "/api/v1/customers/".toList := by decide
  rw [permitted, List.any_eq_false]
  intro pattern hpattern
  rw [antMatches_avoids (havoids pattern hpattern) h]
  exact Bool.false_ne_true

theorem path_below {op : Operation} (h : op.customerId ≠ none) :
    ∃ rest, op.path.toList = "/api/v1/customers/".toList ++ rest := by
  cases op with
  | getStatus => exact absurd rfl h
  | getCustomers => exact absurd rfl h
  | _ =>
    have hstart : "/api/v1/customers/".toList = customersPath.toList ++ "/".toList := by decide
    simp only [path, accountsPath, String.toList_append, List.append_assoc, hstart]
    exact ⟨_, rfl⟩

theorem permitted_path (op : Operation) : permitted op.path = op.customerId.isNone := by
  cases hid : op.customerId with
  | none => cases op <;> simp [customerId] at hid <;> decide
  | some id =>
    obtain ⟨rest, hrest⟩ := path_below (hid ▸ Option.some_ne_none id)
    exact permitted_below hrest

end Operation

namespace RestResponseEntityExceptionHandler

def handles : JavaException → Bool
  | .entityNotFound => true
  | .accessDenied _ => true
  | _ => false

theorem respond_of_unhandled {β : Type} {e : JavaException} (h : handles e = false) :
    (respond (.error e) : Except JavaException (ResponseEntity β)) = .error e := by
  cases e <;> first | rfl | cases h

theorem respond_ok {β : Type} {x : Except JavaException β} {body : β} (h : respond x = .ok ⟨200, some body⟩) :
    x = .ok body := by
  cases x with
  | ok found =>
    cases h
    rfl
  | error e => cases e <;> cases h

end RestResponseEntityExceptionHandler

open RestResponseEntityExceptionHandler

inductive Outcome where
  | escapes
  | unauthorized
  | forbidden
  | notFound
  | ok
  deriving DecidableEq, Repr

def Outcome.status : Outcome → Option ℕ
  | escapes => none
  | unauthorized => some 401
  | forbidden => some 403
  | notFound => some 404
  | ok => some 200

theorem Outcome.status_injective : Function.Injective status := by
  intro o o' h
  cases o <;> cases o' <;> first | rfl | cases h

def statusOf {β : Type} : Except JavaException (ResponseEntity β) → Option ℕ
  | .error _ => none
  | .ok answer => some answer.status

theorem computeIfAbsent_error {κ ν ε : Type} [DecidableEq κ] {source : κ → σ → Except ε (Option ν) × σ}
    {table table' : κ → Option ν} {k : κ} {s s' : σ} {e : ε}
    (h : Memo.computeIfAbsent table k source s = (.error e, table', s')) : (source k s).1 = .error e := by
  unfold Memo.computeIfAbsent at h
  split at h
  · cases h
  · split at h
    · cases h
    · cases h
    · rename_i hsource
      cases h
      rw [hsource]

namespace TransactionServiceImpl

theorem mapPage_raised [Mul A] {client : ExternalAPIClient σ A} {ts : List (Transaction A)}
    {rates : ExchangeRates A} {s : σ} {e : JavaException} (h : (mapPage client ts rates s).raised = some e) :
    e = .nullPointer ∨ ∃ currency s', (client currency s').1 = .error e := by
  induction ts generalizing rates s with
  | nil => cases h
  | cons t ts ih =>
    rcases hstep : mapTransaction client t rates s with ⟨⟨t', _ | e'⟩, rates', s'⟩
    · rw [mapPage_cons_of_done client hstep] at h
      exact ih h
    · rw [mapPage_cons_of_raised client hstep] at h
      obtain rfl := Option.some.inj h
      rcases mapTransaction_cases client t rates s with
        ⟨-, hcase⟩ | ⟨-, rates'', s'', ⟨rate, -, hcase⟩ | ⟨e'', hlookup, hcase⟩⟩
      · rw [hstep] at hcase
        cases hcase
      · left
        rw [hstep] at hcase
        have hexchange : (exchange t rate).2 = some e' := (congrArg (fun r => r.1.2) hcase).symm
        exact exchange_raised hexchange
      · right
        rw [hstep] at hcase
        have he := Option.some.inj (congrArg (fun r => r.1.2) hcase)
        exact ⟨t.currency, s, he ▸ computeIfAbsent_error hlookup⟩

end TransactionServiceImpl

theorem resultPage_raised [Mul A] {sources : AccountController.Sources σ A} {accountId : Long}
    {date : LocalDate} {page size : ℤ} {e : JavaException}
    (h : AccountController.resultPage sources accountId date page size = .error e) :
    e = .illegalArgument ∨ e = .nullPointer ∨ ∃ currency s, (sources.client currency s).1 = .error e := by
  unfold AccountController.resultPage at h
  split at h
  · cases h
  · cases hpageable : PageRequest.of page size (.ascending "date") with
    | error e' =>
      left
      rw [TransactionServiceImpl.findForAccountInMonthPaginated, hpageable] at h
      obtain rfl : e' = e := Except.error.inj h
      unfold PageRequest.of at hpageable
      split_ifs at hpageable <;> exact (Except.error.inj hpageable).symm
    | ok pageable =>
      right
      rw [TransactionServiceImpl.find_of_pageable _ _ _ _ _ hpageable] at h
      unfold TransactionServiceImpl.convert at h
      dsimp only at h
      split at h
      · rename_i hraised
        exact TransactionServiceImpl.mapPage_raised (Except.error.inj h ▸ hraised)
      · cases h

structure Server (σ A : Type) where
  store : Store A
  customerOrder : RowOrder Customer
  accountOrder : RowOrder Account
  sources : AccountController.Sources σ A
  parseClaimsJws : JwtParser
  secret : String

namespace Server

section
variable [Mul A]

def handle (server : Server σ A) (op : Operation) (context : SecurityContext) :
    Except JavaException (ResponseBody (Resource A)) :=
  match op with
  | .getStatus => .ok (.appStatus AppStatusController.getStatus)
  | .getCustomers => .ok (.customers (CustomerController.getCustomers server.customerOrder server.store))
  | .getCustomerById customerId =>
    (CustomerController.getCustomerById server.accountOrder server.store context customerId).map
      fun dto => .resource (.customer dto)
  | .getCustomerAccounts customerId =>
    (AccountController.getCustomerAccounts server.accountOrder server.store context customerId).map
      fun dtos => .resource (.accounts dtos)
  | .getCustomerAccount customerId accountId =>
    (AccountController.getCustomerAccount server.store context customerId accountId).map
      fun dto => .resource (.account dto)
  | .getAccountTransactions customerId accountId date page size =>
    (AccountController.getAccountTransactions server.sources server.store context customerId accountId date
      page size).map fun dto => .resource (.transactions dto)

def filterChain (server : Server σ A) (op : Operation) :
    FilterChain Unit (ResponseEntity (ResponseBody (Resource A))) :=
  fun context s =>
    match authorize op.path context with
    | .error _ => (.ok authenticationEntryPoint, s)
    | .ok _ => (respond (server.handle op context), s)

def serve (server : Server σ A) (header : Option String) (op : Operation) :
    Except JavaException (ResponseEntity (ResponseBody (Resource A))) :=
  (doFilter server.parseClaimsJws server.secret header (server.filterChain op) none ()).1

def Found (server : Server σ A) : Operation → Prop
  | .getAccountTransactions _ accountId date page size => ∃ d found, DateFormatter.parse date = .ok d ∧
      AccountController.resultPage server.sources accountId d page size = .ok found
  | _ => True

end

def Caller (server : Server σ A) (header principal : Option String) : Prop :=
  ∃ token claims, header = some ("Bearer " ++ token) ∧
    server.parseClaimsJws server.secret token = .ok claims ∧
    claims.getString IDENTITY_KEY = .ok principal

def Owns (server : Server σ A) (principal : Option String) (customerId : Long) : Prop :=
  ∃ c ∈ server.store.customers, c.id = customerId ∧ c.identityKey = principal

def Holds (server : Server σ A) (customerId accountId : Long) : Prop :=
  ∃ a ∈ server.store.accounts, a.id = accountId ∧ a.customer = some customerId

/-- The rate client raises neither of the two exceptions that the advice handles. -/
def PlainClient (server : Server σ A) : Prop :=
  ∀ currency s e, (server.sources.client currency s).1 = .error e → handles e = false

theorem feign_plain {server : Server σ A} {service : ExchangeRateService σ A}
    (h : server.sources.client = ExchangeRateFeignClient.getExchangeRate service) : server.PlainClient := by
  intro currency s e he
  obtain ⟨rate, hrate⟩ := feign_ok service currency s
  rw [h, hrate] at he
  cases he

theorem resttemplate_plain {server : Server σ A} {service : ExchangeRateService σ A}
    (h : server.sources.client = ExchangeRateRestTemplateClient.getExchangeRate service) :
    server.PlainClient := by
  intro currency s e he
  rw [h] at he
  cases currency with
  | none =>
    obtain rfl : JavaException.nullPointer = e := Except.error.inj he
    rfl
  | some currency =>
    obtain ⟨rate, hrate⟩ := feign_ok service (some currency) s
    rw [← clients_agree, hrate] at he
    cases he

def Granted (server : Server σ A) (header : Option String) (op : Operation) : Prop :=
  ∃ principal customerId, server.Caller header principal ∧ op.customerId = some customerId ∧
    server.Owns principal customerId ∧
    ∀ accountId, op.accountId = some accountId → server.Holds customerId accountId

def Condition [Mul A] (server : Server σ A) (header : Option String) (op : Operation) : Outcome → Prop
  | .escapes => Rejected server.parseClaimsJws server.secret header ∨
      server.Granted header op ∧ ¬ server.Found op
  | .unauthorized => op.customerId ≠ none ∧ ¬ Accepted server.parseClaimsJws server.secret header ∧
      ¬ Rejected server.parseClaimsJws server.secret header
  | .forbidden => ∃ principal customerId, server.Caller header principal ∧ op.customerId = some customerId ∧
      ¬ server.Owns principal customerId
  | .notFound => ∃ principal customerId accountId, server.Caller header principal ∧
      op.customerId = some customerId ∧ server.Owns principal customerId ∧ op.accountId = some accountId ∧
      ¬ server.Holds customerId accountId
  | .ok => op.customerId = none ∧ ¬ Rejected server.parseClaimsJws server.secret header ∨
      server.Granted header op ∧ server.Found op

section
variable (server : Server σ A) {header principal : Option String} {op : Operation}

theorem caller_iff : server.Caller header principal ↔
    getAuthentication server.parseClaimsJws server.secret header =
      .ok (some (UsernamePasswordAuthenticationToken principal)) := by
  constructor
  · rintro ⟨token, claims, rfl, hparse, hkey⟩
    rw [getAuthentication_bearer hparse, hkey]
    rfl
  · intro h
    obtain ⟨token, claims, rfl, hparse, -⟩ := accepted_iff.mpr ⟨_, h⟩
    rw [getAuthentication_bearer hparse] at h
    refine ⟨token, claims, rfl, hparse, ?_⟩
    cases hkey : claims.getString IDENTITY_KEY with
    | error e =>
      rw [hkey] at h
      cases h
    | ok key =>
      rw [hkey] at h
      cases h
      rfl

theorem caller_unique {principal' : Option String} (h : server.Caller header principal)
    (h' : server.Caller header principal') : principal = principal' := by
  have hboth := (server.caller_iff.mp h).symm.trans (server.caller_iff.mp h')
  simpa [UsernamePasswordAuthenticationToken] using hboth

theorem caller_of_accepted (h : Accepted server.parseClaimsJws server.secret header) :
    ∃ principal, server.Caller header principal := by
  obtain ⟨token, claims, hheader, hparse, hclaim⟩ := h
  cases hkey : claims.getString IDENTITY_KEY with
  | ok principal => exact ⟨principal, token, claims, hheader, hparse, hkey⟩
  | error e =>
    rw [Claims.getString] at hkey
    split at hkey
    · cases hkey
    · cases hkey
    · cases hkey
    · contradiction

theorem authentication_without_caller (h : ¬ ∃ principal, server.Caller header principal) :
    (∃ e, getAuthentication server.parseClaimsJws server.secret header = .error e) ∨
      getAuthentication server.parseClaimsJws server.secret header = .ok none := by
  rcases hauth : getAuthentication server.parseClaimsJws server.secret header with e | _ | authentication
  · exact .inl ⟨e, rfl⟩
  · exact .inr rfl
  · exact absurd (server.caller_of_accepted (accepted_iff.mpr ⟨authentication, hauth⟩)) h

theorem matchingCustomer_of_owns {customerId : Long} (h : server.Owns principal customerId) :
    ∃ c, matchingCustomer server.store principal customerId = some c := by
  obtain ⟨c, hc⟩ := h
  exact ⟨c, matchingCustomer_eq_some_iff.mpr hc⟩

theorem matchingCustomer_of_not_owns {customerId : Long} (h : ¬ server.Owns principal customerId) :
    matchingCustomer server.store principal customerId = none := by
  apply Option.eq_none_iff_forall_not_mem.mpr
  intro c hc
  exact h ⟨c, matchingCustomer_eq_some_iff.mp hc⟩

theorem matchingAccount_of_holds {customerId accountId : Long} (h : server.Holds customerId accountId) :
    ∃ a, matchingAccount server.store accountId customerId = some a := by
  obtain ⟨a, ha⟩ := h
  exact ⟨a, matchingAccount_eq_some_iff.mpr ha⟩

theorem matchingAccount_of_not_holds {customerId accountId : Long} (h : ¬ server.Holds customerId accountId) :
    matchingAccount server.store accountId customerId = none := by
  apply Option.eq_none_iff_forall_not_mem.mpr
  intro a ha
  exact h ⟨a, matchingAccount_eq_some_iff.mp ha⟩

end

section
variable [Mul A] (server : Server σ A) {header principal : Option String} {op : Operation}

theorem secured_of_resource {context : SecurityContext} {resource : Resource A}
    (h : server.handle op context = .ok (.resource resource)) : op.customerId ≠ none := by
  cases op with
  | getStatus => cases h
  | getCustomers => cases h
  | _ => exact Option.some_ne_none _

theorem serve_rejected (h : Rejected server.parseClaimsJws server.secret header) :
    ∃ e, server.serve header op = .error e := by
  obtain ⟨e, he⟩ := rejected_iff.mp h
  exact ⟨e, by rw [serve, doFilter, he]⟩

theorem serve_open (h : ¬ Rejected server.parseClaimsJws server.secret header) (hop : op.customerId = none) :
    server.serve header op = respond (server.handle op none) := by
  have hchain (context : SecurityContext) :
      (server.filterChain op context ()).1 = respond (server.handle op none) := by
    rw [filterChain, authorize, if_pos (by rw [op.permitted_path, hop]; rfl)]
    cases op <;> first | rfl | cases hop
  rw [serve, doFilter]
  rcases hauth : getAuthentication server.parseClaimsJws server.secret header with e | _ | authentication
  · exact absurd (rejected_iff.mpr ⟨e, hauth⟩) h
  · exact hchain none
  · exact hchain (some authentication)

theorem serve_anonymous
    (h : getAuthentication server.parseClaimsJws server.secret header = .ok none)
    (hop : op.customerId ≠ none) : server.serve header op = .ok authenticationEntryPoint := by
  have hsecured : permitted op.path = false := by
    rw [op.permitted_path, Option.isNone_eq_false_iff]
    exact Option.isSome_iff_ne_none.mpr hop
  rw [serve, doFilter, h]
  simp only [filterChain, authorize, hsecured, authenticated]
  rfl

theorem serve_caller (h : server.Caller header principal) :
    server.serve header op =
      respond (server.handle op (some (UsernamePasswordAuthenticationToken principal))) := by
  rw [serve, doFilter, server.caller_iff.mp h]
  simp only [filterChain, authorize, authenticated, UsernamePasswordAuthenticationToken]
  split_ifs <;> rfl

theorem handle_denied {customerId : Long} (hop : op.customerId = some customerId)
    (h : ¬ server.Owns principal customerId) :
    server.handle op (some (UsernamePasswordAuthenticationToken principal)) = .error accessDenied := by
  have hnone := server.matchingCustomer_of_not_owns h
  cases op with
  | getStatus => cases hop
  | getCustomers => cases hop
  | _ =>
    obtain rfl := Option.some.inj hop
    simp only [handle, CustomerController.getCustomerById, getValidatedCustomer, getCustomerOrAccessDenied_eq,
      AccountController.getCustomerAccounts, AccountController.getCustomerAccount, validateAccess_bind,
      AccountController.getAccountTransactions, UsernamePasswordAuthenticationToken, hnone]
    rfl

theorem handle_missing {customerId accountId : Long} (hop : op.customerId = some customerId)
    (haccount : op.accountId = some accountId) (howns : server.Owns principal customerId)
    (hholds : ¬ server.Holds customerId accountId) :
    server.handle op (some (UsernamePasswordAuthenticationToken principal)) = .error .entityNotFound := by
  obtain ⟨c, hc⟩ := server.matchingCustomer_of_owns howns
  have hnone := server.matchingAccount_of_not_holds hholds
  cases op with
  | getCustomerAccount customerId' accountId' =>
    obtain rfl := Option.some.inj hop
    obtain rfl := Option.some.inj haccount
    simp only [handle, AccountController.getCustomerAccount, validateAccess_bind, getOneForCustomer_eq,
      UsernamePasswordAuthenticationToken, hc, hnone]
    rfl
  | getAccountTransactions customerId' accountId' date page size =>
    obtain rfl := Option.some.inj hop
    obtain rfl := Option.some.inj haccount
    simp only [handle, getAccountTransactions_eq, UsernamePasswordAuthenticationToken, hc, hnone]
    rfl
  | _ => cases haccount

theorem handle_granted {customerId : Long} (hop : op.customerId = some customerId)
    (howns : server.Owns principal customerId)
    (hholds : ∀ accountId, op.accountId = some accountId → server.Holds customerId accountId)
    (hclient : server.PlainClient) :
    (server.Found op ∧ ∃ resource,
        server.handle op (some (UsernamePasswordAuthenticationToken principal)) = .ok (.resource resource)) ∨
      ¬ server.Found op ∧ ∃ e, handles e = false ∧
        server.handle op (some (UsernamePasswordAuthenticationToken principal)) = .error e := by
  obtain ⟨c, hc⟩ := server.matchingCustomer_of_owns howns
  cases op with
  | getStatus => cases hop
  | getCustomers => cases hop
  | getCustomerById customerId' =>
    obtain rfl := Option.some.inj hop
    refine .inl ⟨trivial, ?_⟩
    simp only [handle, CustomerController.getCustomerById, getValidatedCustomer, getCustomerOrAccessDenied_eq,
      UsernamePasswordAuthenticationToken, hc, ok_bind]
    exact ⟨_, rfl⟩
  | getCustomerAccounts customerId' =>
    obtain rfl := Option.some.inj hop
    refine .inl ⟨trivial, ?_⟩
    simp only [handle, AccountController.getCustomerAccounts, validateAccess_bind,
      UsernamePasswordAuthenticationToken, hc]
    exact ⟨_, rfl⟩
  | getCustomerAccount customerId' accountId =>
    obtain rfl := Option.some.inj hop
    obtain ⟨a, ha⟩ := server.matchingAccount_of_holds (hholds accountId rfl)
    refine .inl ⟨trivial, ?_⟩
    simp only [handle, AccountController.getCustomerAccount, validateAccess_bind, getOneForCustomer_eq,
      UsernamePasswordAuthenticationToken, hc, ha, ok_bind]
    exact ⟨_, rfl⟩
  | getAccountTransactions customerId' accountId date page size =>
    obtain rfl := Option.some.inj hop
    obtain ⟨a, ha⟩ := server.matchingAccount_of_holds (hholds accountId rfl)
    simp only [handle, getAccountTransactions_eq, UsernamePasswordAuthenticationToken, hc, ha, Found]
    cases hdate : DateFormatter.parse date with
    | error e =>
      obtain rfl := DateFormatter.parse_error hdate
      exact .inr ⟨by simp, _, rfl, rfl⟩
    | ok d =>
      cases hpage : AccountController.resultPage server.sources accountId d page size with
      | error e =>
        refine .inr ⟨by simp [hpage], e, ?_, by simp only [hpage]; rfl⟩
        rcases resultPage_raised hpage with rfl | rfl | ⟨currency, s, hraised⟩
        · rfl
        · rfl
        · exact hclient currency s e hraised
      | ok found => exact .inl ⟨⟨d, found, rfl, hpage⟩, _, by simp only [hpage]; rfl⟩

theorem status_of_condition (hclient : server.PlainClient) {outcome : Outcome}
    (h : server.Condition header op outcome) : statusOf (server.serve header op) = outcome.status := by
  cases outcome with
  | escapes =>
    rcases h with hrejected | ⟨⟨principal, customerId, hcaller, hop, howns, hholds⟩, hfound⟩
    · obtain ⟨e, he⟩ := server.serve_rejected hrejected
      rw [he]
      rfl
    · rcases server.handle_granted hop howns hholds hclient with ⟨hyes, -⟩ | ⟨-, e, hplain, he⟩
      · exact absurd hyes hfound
      · rw [server.serve_caller hcaller, he, respond_of_unhandled hplain]
        rfl
  | unauthorized =>
    obtain ⟨hop, haccepted, hrejected⟩ := h
    have hnone : ¬ ∃ principal, server.Caller header principal := by
      rintro ⟨principal, hcaller⟩
      exact haccepted (accepted_iff.mpr ⟨_, server.caller_iff.mp hcaller⟩)
    rcases server.authentication_without_caller hnone with herror | hanonymous
    · exact absurd (rejected_iff.mpr herror) hrejected
    · rw [server.serve_anonymous hanonymous hop]
      rfl
  | forbidden =>
    obtain ⟨principal, customerId, hcaller, hop, howns⟩ := h
    rw [server.serve_caller hcaller, server.handle_denied hop howns]
    rfl
  | notFound =>
    obtain ⟨principal, customerId, accountId, hcaller, hop, howns, haccount, hholds⟩ := h
    rw [server.serve_caller hcaller, server.handle_missing hop haccount howns hholds]
    rfl
  | ok =>
    rcases h with ⟨hop, hrejected⟩ | ⟨⟨principal, customerId, hcaller, hop, howns, hholds⟩, hfound⟩
    · rw [server.serve_open hrejected hop]
      cases op <;> first | rfl | cases hop
    · rcases server.handle_granted hop howns hholds hclient with ⟨-, resource, he⟩ | ⟨hno, -⟩
      · rw [server.serve_caller hcaller, he]
        rfl
      · exact absurd hfound hno

theorem condition_exhaustive (header : Option String) (op : Operation) :
    ∃ outcome, server.Condition header op outcome := by
  by_cases hrejected : Rejected server.parseClaimsJws server.secret header
  · exact ⟨.escapes, .inl hrejected⟩
  cases hop : op.customerId with
  | none => exact ⟨.ok, .inl ⟨hop, hrejected⟩⟩
  | some customerId =>
    by_cases haccepted : Accepted server.parseClaimsJws server.secret header
    · obtain ⟨principal, hcaller⟩ := server.caller_of_accepted haccepted
      by_cases howns : server.Owns principal customerId
      · by_cases hholds : ∀ accountId, op.accountId = some accountId → server.Holds customerId accountId
        · have hgranted : server.Granted header op := ⟨principal, customerId, hcaller, hop, howns, hholds⟩
          by_cases hfound : server.Found op
          · exact ⟨.ok, .inr ⟨hgranted, hfound⟩⟩
          · exact ⟨.escapes, .inr ⟨hgranted, hfound⟩⟩
        · push Not at hholds
          obtain ⟨accountId, haccount, hmissing⟩ := hholds
          exact ⟨.notFound, principal, customerId, accountId, hcaller, hop, howns, haccount, hmissing⟩
      · exact ⟨.forbidden, principal, customerId, hcaller, hop, howns⟩
    · exact ⟨.unauthorized, by simp [hop], haccepted, hrejected⟩

end

noncomputable def emptyBank : Server Unit ℤ where
  store := .empty (some "alice")
  customerOrder := .arbitrary
  accountOrder := .arbitrary
  sources := ⟨false, TransactionRepository.inTableOrder (.empty (some "alice")), ExternalAPIClient.ofRates fun _ => none,
    (), .ok []⟩
  parseClaimsJws _ token := .ok fun _ => some (.string token)
  secret := "secret"

theorem emptyBank_caller (name : String) : emptyBank.Caller (some ("Bearer " ++ name)) (some name) :=
  ⟨name, _, rfl, rfl, rfl⟩

end Server

end EBank

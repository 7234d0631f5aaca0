import EBank.Controllers

namespace EBank

variable {A σ β : Type}

abbrev FilterChain (σ β : Type) := SecurityContext → σ → Except JavaException β × σ

namespace JwtAuthorizationFilter

def doFilter (parseClaimsJws : JwtParser) (secret : String) (header : Option String)
    (filterChain : FilterChain σ β) (context : SecurityContext) (s : σ) : Except JavaException β × σ :=
  match getAuthentication parseClaimsJws secret header with
  | .error e => (.error e, s)
  | .ok none => filterChain context s
  | .ok (some authentication) => filterChain (some authentication) s

theorem doFilter_eq (parseClaimsJws : JwtParser) (secret : String) (header : Option String)
    (filterChain : FilterChain σ β) (context : SecurityContext) (s : σ) :
    doFilter parseClaimsJws secret header filterChain context s =
      match doFilterInternal parseClaimsJws secret header context with
      | .error e => (.error e, s)
      | .ok context' => filterChain context' s := by
  rw [doFilter, doFilterInternal]
  rcases getAuthentication parseClaimsJws secret header with e | _ | authentication <;> rfl

def Accepted (parseClaimsJws : JwtParser) (secret : String) (header : Option String) : Prop :=
  ∃ token claims, header = some ("Bearer " ++ token) ∧ parseClaimsJws secret token = .ok claims ∧
    claims IDENTITY_KEY ≠ some .other

def Rejected (parseClaimsJws : JwtParser) (secret : String) (header : Option String) : Prop :=
  ∃ token, header = some ("Bearer " ++ token) ∧
    ∀ claims, parseClaimsJws secret token = .ok claims → claims IDENTITY_KEY = some .other

theorem bearer_or_ignored (parseClaimsJws : JwtParser) (secret : String) (header : Option String) :
    (∃ token, header = some ("Bearer " ++ token)) ∨ getAuthentication parseClaimsJws secret header = .ok none := by
  cases header with
  | none => exact .inr rfl
  | some header =>
    by_cases h : ¬ isBlank header ∧ TOKEN_PREFIX.isPrefixOf header.toList
    · left
      obtain ⟨rest, hrest⟩ := List.isPrefixOf_iff_prefix.mp h.2
      refine ⟨String.ofList rest, congrArg some (String.toList_injective ?_)⟩
      have hlist : (String.ofList rest).toList = rest := String.toList_ofList
      rw [String.toList_append, hlist, ← hrest]
      rfl
    · exact .inr (if_neg h)

theorem accepted_iff {parseClaimsJws : JwtParser} {secret : String} {header : Option String} :
    Accepted parseClaimsJws secret header ↔
      ∃ authentication, getAuthentication parseClaimsJws secret header = .ok (some authentication) := by
  constructor
  · rintro ⟨token, claims, rfl, hparse, hclaim⟩
    rw [getAuthentication_bearer hparse, Claims.getString]
    rcases hkey : claims IDENTITY_KEY with _ | _ | key | _
    · exact ⟨_, rfl⟩
    · exact ⟨_, rfl⟩
    · exact ⟨_, rfl⟩
    · exact absurd hkey hclaim
  · rintro ⟨authentication, hauth⟩
    rcases bearer_or_ignored parseClaimsJws secret header with ⟨token, rfl⟩ | hignored
    · cases hparse : parseClaimsJws secret token with
      | error e =>
        rw [getAuthentication_bearer_error hparse] at hauth
        cases hauth
      | ok claims =>
        refine ⟨token, claims, rfl, hparse, ?_⟩
        intro hother
        rw [getAuthentication_bearer hparse, Claims.getString, hother] at hauth
        cases hauth
    · rw [hignored] at hauth
      cases hauth

theorem rejected_iff {parseClaimsJws : JwtParser} {secret : String} {header : Option String} :
    Rejected parseClaimsJws secret header ↔
      ∃ e, getAuthentication parseClaimsJws secret header = .error e := by
  constructor
  · rintro ⟨token, rfl, hother⟩
    cases hparse : parseClaimsJws secret token with
    | error e => exact ⟨e, getAuthentication_bearer_error hparse⟩
    | ok claims =>
      refine ⟨.requiredType, ?_⟩
      rw [getAuthentication_bearer hparse, Claims.getString, hother claims hparse]
      rfl
  · rintro ⟨e, hauth⟩
    rcases bearer_or_ignored parseClaimsJws secret header with ⟨token, rfl⟩ | hignored
    · refine ⟨token, rfl, ?_⟩
      intro claims hparse
      rw [getAuthentication_bearer hparse, Claims.getString] at hauth
      rcases hkey : claims IDENTITY_KEY with _ | _ | key | _
      · rw [hkey] at hauth; cases hauth
      · rw [hkey] at hauth; cases hauth
      · rw [hkey] at hauth; cases hauth
      · rfl
    · rw [hignored] at hauth
      cases hauth

end JwtAuthorizationFilter

namespace SecurityConfig

def permitAll : List String :=
  ["/", "/swagger-ui.html", "/actuator/**", "/api-docs/**", "/webjars/**", "/swagger-resources/**",
    "/api", "/api/v1/customers"]

-- a pattern without a wildcard is the path itself, one with it a path and everything below
def antMatches (pattern path : String) : Bool :=
  if "/**".toList.isSuffixOf pattern.toList then
    let subpath := pattern.toList.dropLast.dropLast.dropLast
    path.toList = subpath ∨ (subpath ++ ['/']).isPrefixOf path.toList
  else path = pattern

def permitted (path : String) : Bool := permitAll.any (fun pattern => antMatches pattern path)

def authorize (path : String) (context : SecurityContext) : Except JavaException Unit :=
  if permitted path then .ok () else (authenticated context).map (fun _ => ())

-- `new HttpStatusEntryPoint(HttpStatus.UNAUTHORIZED)`
def authenticationEntryPoint : ResponseEntity β := ⟨401, none⟩

theorem authorize_open {path : String} (h : path = "/api" ∨ path = "/api/v1/customers")
    (context : SecurityContext) : authorize path context = .ok () := by
  apply if_pos
  rcases h with rfl | rfl <;> decide

end SecurityConfig

inductive ResponseBody (β : Type) where
  | appStatus (dto : AppStatusDto)
  | customers (dtos : List CustomerListItemDto)
  | resource (dto : β)

structure Application (A β : Type) where
  store : Store A
  order : RowOrder Customer
  resources : String → SecurityContext → Except JavaException (ResponseEntity (ResponseBody β))

namespace Application

open JwtAuthorizationFilter SecurityConfig

def dispatch (app : Application A β) (path : String) (context : SecurityContext) :
    Except JavaException (ResponseEntity (ResponseBody β)) :=
  if path = "/api" then .ok ⟨200, some (.appStatus AppStatusController.getStatus)⟩
  else if path = "/api/v1/customers" then
    .ok ⟨200, some (.customers (CustomerController.getCustomers app.order app.store))⟩
  else app.resources path context

def filterChain (app : Application A β) (path : String) : FilterChain Unit (ResponseEntity (ResponseBody β)) :=
  fun context s =>
    match authorize path context with
    | .error _ => (.ok authenticationEntryPoint, s)
    | .ok _ => (app.dispatch path context, s)

def respond (app : Application A β) (parseClaimsJws : JwtParser) (secret : String) (header : Option String)
    (path : String) : Except JavaException (ResponseEntity (ResponseBody β)) :=
  (doFilter parseClaimsJws secret header (app.filterChain path) none ()).1

section
variable {parseClaimsJws : JwtParser} {secret : String} {header : Option String}

theorem respond_rejected (app : Application A β) (h : Rejected parseClaimsJws secret header) (path : String) :
    ∃ e, app.respond parseClaimsJws secret header path = .error e := by
  obtain ⟨e, he⟩ := rejected_iff.mp h
  exact ⟨e, by rw [respond, doFilter, he]⟩

theorem respond_open (app : Application A β) (h : ¬ Rejected parseClaimsJws secret header) {path : String}
    (hpath : path = "/api" ∨ path = "/api/v1/customers") :
    app.respond parseClaimsJws secret header path = app.dispatch path none := by
  have hchain : ∀ context, (app.filterChain path context ()).1 = app.dispatch path none := by
    intro context
    rw [filterChain, authorize_open hpath]
    rcases hpath with rfl | rfl <;> rfl
  rw [respond, doFilter]
  rcases hauth : getAuthentication parseClaimsJws secret header with e | _ | authentication
  · exact absurd (rejected_iff.mpr ⟨e, hauth⟩) h
  · exact hchain none
  · exact hchain (some authentication)

theorem respond_secured (app : Application A β) (h : getAuthentication parseClaimsJws secret header = .ok none)
    {path : String} (hpath : permitted path = false) :
    app.respond parseClaimsJws secret header path = .ok authenticationEntryPoint := by
  rw [respond, doFilter, h]
  simp only [filterChain, authorize, hpath, authenticated]
  rfl

end

end Application

namespace JwtAuthorizationFilter

open SecurityConfig

structure Transparent (parseClaimsJws : JwtParser) (secret : String) (header : Option String) : Prop where
  invokedOnce : ∃ context, (∀ (σ β : Type) (filterChain : FilterChain σ β) (s : σ),
      doFilter parseClaimsJws secret header filterChain none s = filterChain context s) ∧
    (context ≠ none ↔ Accepted parseClaimsJws secret header)
  entryPoint : Rejected parseClaimsJws secret header → ∀ (A β : Type) (app : Application A β) (path : String),
    permitted path = false → app.respond parseClaimsJws secret header path = .ok authenticationEntryPoint

section
variable {parseClaimsJws : JwtParser} {secret : String} {header : Option String}

theorem rejected_not_transparent (h : Rejected parseClaimsJws secret header) :
    ¬ Transparent parseClaimsJws secret header := by
  rintro ⟨⟨context, hchain, -⟩, -⟩
  obtain ⟨e, he⟩ := rejected_iff.mp h
  have hcount := hchain ℕ Unit (fun _ n => (.ok (), n + 1)) 0
  rw [doFilter, he] at hcount
  cases hcount

theorem transparent_of_not_rejected (h : ¬ Rejected parseClaimsJws secret header) :
    Transparent parseClaimsJws secret header := by
  refine ⟨?_, fun hrejected => absurd hrejected h⟩
  rcases hauth : getAuthentication parseClaimsJws secret header with e | _ | authentication
  · exact absurd (rejected_iff.mpr ⟨e, hauth⟩) h
  · refine ⟨none, fun σ β filterChain s => by rw [doFilter, hauth], ?_⟩
    rw [accepted_iff, hauth]
    simp
  · refine ⟨some authentication, fun σ β filterChain s => by rw [doFilter, hauth], ?_⟩
    rw [accepted_iff, hauth]
    simp

end

/-- The filter treats two headers transparently, and the open endpoints answer both alike, exactly
when neither is a bearer token that is rejected: such a token ends the request in the filter. -/
theorem transparent_iff (parseClaimsJws : JwtParser) (secret : String) (header header' : Option String) :
    (Transparent parseClaimsJws secret header ∧ Transparent parseClaimsJws secret header' ∧
      ∀ (A β : Type) (app : Application A β) (path : String), path = "/api" ∨ path = "/api/v1/customers" →
        app.respond parseClaimsJws secret header path = app.respond parseClaimsJws secret header' path) ↔
      ¬ Rejected parseClaimsJws secret header ∧ ¬ Rejected parseClaimsJws secret header' := by
  constructor
  · rintro ⟨htransparent, htransparent', -⟩
    exact ⟨fun h => rejected_not_transparent h htransparent, fun h => rejected_not_transparent h htransparent'⟩
  · rintro ⟨h, h'⟩
    refine ⟨transparent_of_not_rejected h, transparent_of_not_rejected h', ?_⟩
    intro A β app path hpath
    rw [app.respond_open h hpath, app.respond_open h' hpath]

def rejectAll : JwtParser := fun _ _ => .error .jwt

theorem malformed_token_not_transparent :
    doFilter rejectAll "secret" (some "Bearer x") (fun context log => (.ok (), log ++ [context])) none [] =
        (.error .jwt, []) ∧
      ¬ Transparent rejectAll "secret" (some "Bearer x") ∧
      ∃ app : Application ℤ Unit, app.respond rejectAll "secret" (some "Bearer x") "/api" = .error .jwt ∧
        app.respond rejectAll "secret" none "/api" = .ok ⟨200, some (.appStatus ⟨"1.0.0"⟩)⟩ := by
  have hheader : "Bearer x" = "Bearer " ++ "x" := by decide
  have hauth : getAuthentication rejectAll "secret" (some "Bearer x") = .error .jwt := by
    rw [hheader]
    exact getAuthentication_bearer_error rfl
  refine ⟨by rw [doFilter, hauth], rejected_not_transparent (rejected_iff.mpr ⟨_, hauth⟩),
    ⟨.empty none, .arbitrary, fun _ _ => .ok ⟨200, none⟩⟩, ?_, ?_⟩
  · rw [Application.respond, doFilter, hauth]
  · rw [Application.respond_open _ _ (.inl rfl)]
    · rfl
    · rintro ⟨token, hheader, -⟩
      cases hheader

end JwtAuthorizationFilter

end EBank

import EBank.Models

/-!
From the `Authorization` header to the identity key the controllers see. The signature check and
the decoding of the token belong to the JWT library: `JwtParser` stands for them.
-/

namespace EBank

inductive ClaimValue where
  | null
  | string (value : String)
  | other
  deriving DecidableEq, Repr

abbrev Claims := String → Option ClaimValue

/-- `setSigningKey(secret).build().parseClaimsJws(token)`. -/
abbrev JwtParser := String → String → Except JavaException Claims

def Claims.getString (claims : Claims) (claimName : String) : Except JavaException (Option String) :=
  match claims claimName with
  | none => .ok none
  | some .null => .ok none
  | some (.string value) => .ok (some value)
  | some .other => .error .requiredType

structure Authentication where
  principal : Option String
  authenticated : Bool
  deriving DecidableEq, Repr

-- the constructor with credentials and authorities
def UsernamePasswordAuthenticationToken (principal : Option String) : Authentication := ⟨principal, true⟩

abbrev SecurityContext := Option Authentication

abbrev contextOf (identityKey : String) : SecurityContext :=
  some (UsernamePasswordAuthenticationToken (some identityKey))

namespace JwtAuthorizationFilter

def TOKEN_PREFIX : List Char := "Bearer ".toList

def IDENTITY_KEY : String := "identity_key"

def isBlank (s : String) : Bool := s.toList.all (fun c => c ≤ ' ')

def getAuthentication (parseClaimsJws : JwtParser) (secret : String) (header : Option String) :
    Except JavaException (Option Authentication) :=
  match header with
  | none => .ok none
  | some header =>
    if ¬ isBlank header ∧ TOKEN_PREFIX.isPrefixOf header.toList then do
      let token := String.ofList (header.toList.drop TOKEN_PREFIX.length)
      let claims ← parseClaimsJws secret token
      let identityKey ← Claims.getString claims IDENTITY_KEY
      return some (UsernamePasswordAuthenticationToken identityKey)
    else .ok none

def doFilterInternal (parseClaimsJws : JwtParser) (secret : String) (header : Option String)
    (context : SecurityContext) :
    Except JavaException SecurityContext := do
  match ← getAuthentication parseClaimsJws secret header with
  | none => return context
  | some authentication => return some authentication

theorem getAuthentication_token (parseClaimsJws : JwtParser) (secret token : String) :
    getAuthentication parseClaimsJws secret (some ("Bearer " ++ token)) = do
      let claims ← parseClaimsJws secret token
      let identityKey ← Claims.getString claims IDENTITY_KEY
      return some (UsernamePasswordAuthenticationToken identityKey) := by
  have hlist : ("Bearer " ++ token).toList = TOKEN_PREFIX ++ token.toList := String.toList_append
  have hblank : isBlank ("Bearer " ++ token) = false := by
    rw [isBlank, hlist]
    rfl
  have hprefix : TOKEN_PREFIX.isPrefixOf (TOKEN_PREFIX ++ token.toList) = true := by simp
  rw [getAuthentication, if_pos ⟨by simp [hblank], hlist ▸ hprefix⟩, hlist, List.drop_left,
    String.ofList_toList]

theorem getAuthentication_bearer_error {parseClaimsJws : JwtParser} {secret token : String}
    {e : JavaException} (h : parseClaimsJws secret token = .error e) :
    getAuthentication parseClaimsJws secret (some ("Bearer " ++ token)) = .error e := by
  rw [getAuthentication_token, h]
  rfl

theorem getAuthentication_bearer {parseClaimsJws : JwtParser} {secret token : String} {claims : Claims}
    (h : parseClaimsJws secret token = .ok claims) :
    getAuthentication parseClaimsJws secret (some ("Bearer " ++ token)) =
      (claims.getString IDENTITY_KEY).map (fun identityKey =>
          some (UsernamePasswordAuthenticationToken identityKey)) := by
  rw [getAuthentication_token, h, ok_bind, bind_return]

end JwtAuthorizationFilter

namespace SecurityConfig

-- `anyRequest().authenticated()`
def authenticated (context : SecurityContext) : Except JavaException Authentication :=
  match context with
  | some authentication =>
    if authentication.authenticated then .ok authentication else .error .insufficientAuthentication
  | none => .error .insufficientAuthentication

end SecurityConfig

namespace SecurityContextUtils

def getIdentityKey (context : SecurityContext) : Except JavaException (Option String) :=
  match context with
  | some authentication => .ok authentication.principal
  | none => .error .nullPointer

end SecurityContextUtils

end EBank

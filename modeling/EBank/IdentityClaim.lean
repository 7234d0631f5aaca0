import EBank.Controllers

namespace EBank.BasicController

open JwtAuthorizationFilter

variable {A : Type}

def accessWithToken (parseClaimsJws : JwtParser) (secret token : String) (store : Store A)
    (customerId : Long) : Except JavaException Customer := do
  let context ← doFilterInternal parseClaimsJws secret (some ("Bearer " ++ token)) none
  let authentication ← SecurityConfig.authenticated context
  getCustomerOrAccessDenied store (some authentication) customerId

structure NeedsMatchingClaim (store : Store A) (claims : Claims) (customerId : Long)
    (access : Except JavaException Customer) : Prop where
  granted : ∀ customer, access = .ok customer → customer ∈ store.customers ∧ customer.id = customerId ∧
    ∃ key, claims IDENTITY_KEY = some (.string key) ∧ customer.identityKey = some key
  denied : (∀ customer, access ≠ .ok customer) → access = .error accessDenied

section
variable {parseClaimsJws : JwtParser} {secret token : String} {claims : Claims}
  (h : parseClaimsJws secret token = .ok claims) (store : Store A) (customerId : Long)
include h

theorem accessWithToken_eq : accessWithToken parseClaimsJws secret token store customerId =
    claims.getString IDENTITY_KEY >>= fun identityKey =>
      getCustomerOrAccessDenied store (some (UsernamePasswordAuthenticationToken identityKey)) customerId := by
  rw [accessWithToken, doFilterInternal, getAuthentication_bearer h]
  cases claims.getString IDENTITY_KEY <;> rfl

theorem accessWithToken_key {identityKey : Option String}
    (hkey : claims.getString IDENTITY_KEY = .ok identityKey) :
    accessWithToken parseClaimsJws secret token store customerId =
      match matchingCustomer store identityKey customerId with
      | some customer => .ok customer
      | none => .error accessDenied := by
  rw [accessWithToken_eq h, hkey, ok_bind, getCustomerOrAccessDenied_eq]
  rfl

end

theorem needsMatchingClaim_key_iff (store : Store A) (claims : Claims) (identityKey : Option String)
    (customerId : Long) :
    NeedsMatchingClaim store claims customerId
      (match matchingCustomer store identityKey customerId with
        | some customer => .ok customer
        | none => .error accessDenied) ↔
      ∀ customer, matchingCustomer store identityKey customerId = some customer →
        ∃ key, claims IDENTITY_KEY = some (.string key) ∧ identityKey = some key := by
  constructor
  · intro hneeds customer hc
    obtain ⟨-, -, hkey⟩ := matchingCustomer_eq_some_iff.mp hc
    rw [hc] at hneeds
    obtain ⟨-, -, key, hclaim, hcustomer⟩ := hneeds.granted customer rfl
    exact ⟨key, hclaim, hkey ▸ hcustomer⟩
  · intro hmatch
    cases hc : matchingCustomer store identityKey customerId with
    | none => exact ⟨fun customer hok => by simp at hok, fun _ => rfl⟩
    | some found =>
      refine ⟨?_, fun hnone => absurd rfl (hnone found)⟩
      rintro customer hok
      obtain ⟨hmem, hid, hkey⟩ := matchingCustomer_eq_some_iff.mp hc
      obtain ⟨key, hclaim, he⟩ := hmatch found hc
      rw [← Except.ok.inj hok]
      exact ⟨hmem, hid, key, hclaim, hkey.trans he⟩

section
variable {parseClaimsJws : JwtParser} {secret token : String} {claims : Claims}
  (h : parseClaimsJws secret token = .ok claims) (store : Store A) (customerId : Long)
include h

theorem needsMatchingClaim_of_string {key : String} (hclaim : claims IDENTITY_KEY = some (.string key)) :
    NeedsMatchingClaim store claims customerId (accessWithToken parseClaimsJws secret token store customerId) := by
  have hkey : claims.getString IDENTITY_KEY = .ok (some key) := by rw [Claims.getString, hclaim]
  rw [accessWithToken_key h store customerId hkey]
  apply (needsMatchingClaim_key_iff store claims (some key) customerId).mpr
  exact fun _ _ => ⟨key, hclaim, rfl⟩

-- the derived query turns the null argument into IS NULL
theorem needsMatchingClaim_iff_of_null (hkey : claims.getString IDENTITY_KEY = .ok none) :
    NeedsMatchingClaim store claims customerId (accessWithToken parseClaimsJws secret token store customerId) ↔
      ∀ customer ∈ store.customers, customer.id = customerId → customer.identityKey ≠ none := by
  rw [accessWithToken_key h store customerId hkey, needsMatchingClaim_key_iff]
  constructor
  · intro hmatch customer hmem hid hnone
    obtain ⟨key, -, hkey⟩ := hmatch customer (matchingCustomer_eq_some_iff.mpr ⟨hmem, hid, hnone⟩)
    simp at hkey
  · intro hall customer hc
    obtain ⟨hmem, hid, hkey⟩ := matchingCustomer_eq_some_iff.mp hc
    exact absurd hkey (hall customer hmem hid)

/-- Besides a string claim only a missing one is handled as it should be, and that only where the
requested customer has a key: a missing claim matches the customers without one. -/
theorem accessWithToken_needsMatchingClaim_iff :
    NeedsMatchingClaim store claims customerId (accessWithToken parseClaimsJws secret token store customerId) ↔
      (∃ key, claims IDENTITY_KEY = some (.string key)) ∨
      (claims IDENTITY_KEY = none ∨ claims IDENTITY_KEY = some .null) ∧
        ∀ customer ∈ store.customers, customer.id = customerId → customer.identityKey ≠ none := by
  rcases hclaim : claims IDENTITY_KEY with _ | _ | key | _
  · have hkey : claims.getString IDENTITY_KEY = .ok none := by rw [Claims.getString, hclaim]
    simpa using needsMatchingClaim_iff_of_null h store customerId hkey
  · have hkey : claims.getString IDENTITY_KEY = .ok none := by rw [Claims.getString, hclaim]
    simpa using needsMatchingClaim_iff_of_null h store customerId hkey
  · simpa using needsMatchingClaim_of_string h store customerId hclaim
  · have hraised : accessWithToken parseClaimsJws secret token store customerId = .error .requiredType := by
      rw [accessWithToken_eq h, Claims.getString, hclaim]
      rfl
    rw [hraised]
    constructor
    · intro hneeds
      exact absurd (hneeds.denied (by simp)) (by simp [accessDenied])
    · simp

end

def keyless : Store ℤ := .empty none

def keyed : Store ℤ := .empty (some "key")

def subjectOnly : Claims := fun claimName => if claimName = "sub" then some (.string "1") else none

def acceptKeyless : JwtParser := fun _ _ => .ok subjectOnly

theorem keyed_needsMatchingClaim :
    NeedsMatchingClaim keyed subjectOnly 1
      (accessWithToken acceptKeyless "secret" "token" keyed 1) := by
  apply (accessWithToken_needsMatchingClaim_iff rfl keyed 1).mpr
  right
  exact ⟨.inl (by decide), by decide⟩

theorem keyless_granted :
    accessWithToken acceptKeyless "secret" "token" keyless 1 = .ok ⟨1, none, none, none⟩ ∧
      ¬ NeedsMatchingClaim keyless subjectOnly 1
        (accessWithToken acceptKeyless "secret" "token" keyless 1) := by
  have hgranted : accessWithToken acceptKeyless "secret" "token" keyless 1 = .ok ⟨1, none, none, none⟩ := by
    have hkey : subjectOnly.getString IDENTITY_KEY = .ok none := by decide
    rw [accessWithToken_key rfl keyless 1 hkey]
    decide
  refine ⟨hgranted, ?_⟩
  intro hneeds
  obtain ⟨-, -, key, hclaim, -⟩ := hneeds.granted _ hgranted
  simp [subjectOnly, IDENTITY_KEY] at hclaim

end EBank.BasicController

import Registration.Failure
import Registration.Rule.Check

/-!
# Rules

Each rule judges one field, or what several fields say together, and settles
what an omitted field means.

* `Draft`: a record under validation, with the grant types found valid;
* `Rule`, `Rule.all`: the rules in the order in which they are applied;
* `Rule.apply`: the draft after a rule, or why it fails; a failing rule changes
  nothing.
-/

namespace Registration

structure Draft where
  record : Record
  grants : List String

inductive Rule where
  | applicationType
  | responseTypes
  | grantTypes
  | responseAndGrantMatch
  | redirectUris
  | scope
  | subjectType
  | tokenEndpointAuthMethod
  | postLogoutRedirectUris
  | preauthorizedScope
  | trustedUriPrefixes
  | functionalUserGroupIds
  | outputParameters
  deriving DecidableEq, Repr

namespace Rule

def all : List Rule :=
  [applicationType, responseTypes, grantTypes, responseAndGrantMatch, redirectUris, scope,
   subjectType, tokenEndpointAuthMethod, postLogoutRedirectUris, preauthorizedScope,
   trustedUriPrefixes, functionalUserGroupIds, outputParameters]

def name : Rule → String
  | applicationType => "application_type"
  | responseTypes => "response_types"
  | grantTypes => "grant_types"
  | responseAndGrantMatch => "response_and_grant_match"
  | redirectUris => "redirect_uris"
  | scope => "scope"
  | subjectType => "subject_type"
  | tokenEndpointAuthMethod => "token_endpoint_auth_method"
  | postLogoutRedirectUris => "post_logout_redirect_uris"
  | preauthorizedScope => "preauthorized_scope"
  | trustedUriPrefixes => "trusted_uri_prefixes"
  | functionalUserGroupIds => "functional_user_group_ids"
  | outputParameters => "output_parameters"

def ofName? (name : String) : Option Rule :=
  all.find? fun r => r.name == name

theorem mem_all (r : Rule) : r ∈ all := by
  cases r <;> decide

/-! ## Response types and grant types -/

/-- Whether a required grant type is missing. Only a text can be there, and only what may be a key,
or a set, can be asked for. -/
def isMissing (grants : List String) (required : Value) : Except Fault Bool :=
  match required with
  | .str s => .ok (!s.isEmpty && !grants.contains s)
  | .set items => .ok !items.isEmpty
  | v => if v.isTruthy && !v.isHashable then .error .wrongType else .ok v.isTruthy

/-- The grant type that a response type requires, if it is missing. -/
def missingGrant? (policy : Policy) (grants : List String) (v : Value) :
    Except Fault (Option Value) :=
  match policy.grantTypeFor v with
  | .error e => .error e
  | .ok required => (isMissing grants required).map fun missing =>
      if missing then some required else none

/-- Every response type has the grant type that it requires. -/
def grantMatch (policy : Policy) (grants : List String) : List Value → Except Failure Unit
  | [] => .ok ()
  | v :: vs =>
    match missingGrant? policy grants v with
    | .error e => .error (.fault e)
    | .ok (some required) =>
      .error (.refuse (.grantResponseMismatch required) .responseTypes v)
    | .ok none => grantMatch policy grants vs

def responseMatch (policy : Policy) (d : Draft) : Except Failure Unit :=
  let v := d.record.value .responseTypes
  if v.isEmpty then .ok ()
  else
    match v.elements? with
    | some vs => grantMatch policy d.grants vs
    | none => .error (.fault .wrongType)

/-! ## Settling a field -/

/-- A field that becomes the empty list if it is omitted; else its value is settled. -/
def orEmptyList (f : Field) (settle : Value → Except Failure Record) (r : Record) :
    Except Failure Record :=
  if (r.value f).isNull then .ok (r.put f (.list [])) else settle (r.value f)

/-- Web applications, the default kind, must be reached by absolute URIs. -/
def needsAbsoluteUris (r : Record) : Bool :=
  (r.value .applicationType).isEmpty || (r.value .applicationType).text? == some "web"

def redirections (r : Record) : Except Failure Record :=
  orEmptyList .redirectUris
    (fun v => (uris .redirectUris (needsAbsoluteUris r) v).map fun _ => r) r

def logoutRedirections (r : Record) : Except Failure Record :=
  orEmptyList .postLogoutRedirectUris
    (fun v => (uris .postLogoutRedirectUris true v).map fun _ => r) r

/-- The value of the field is walked through once more when it has been found in order. -/
def terminatedPrefixes (r : Record) (v : Value) : Except Failure Record :=
  match uris .trustedUriPrefixes true v, v.elements? with
  | .error e, _ => .error e
  | .ok _, none => .error (.fault .wrongType)
  | .ok _, some vs => (slashTerminated vs).map fun ws => r.put .trustedUriPrefixes (.list ws)

/-- Every prefix is made to end with a slash, so that it matches whole path segments. -/
def trustedPrefixes (r : Record) : Except Failure Record :=
  orEmptyList .trustedUriPrefixes (terminatedPrefixes r) r

def groups (r : Record) : Except Failure Record :=
  orEmptyList .functionalUserGroupIds
    (fun v => (identifiers .functionalUserGroupIds v).map fun _ => r) r

/-- A time that the server assigns may only be sent as zero. -/
def unassignedTime (f : Field) (r : Record) : Except Failure Unit :=
  if (r.value f).isNull || (r.value f).isZero then .ok ()
  else .error (.refuse .outputParameterNotAllowed f (r.value f))

/-- What the server assigns may only be sent as if it were not assigned. -/
def outputs (r : Record) : Except Failure Unit :=
  match unassignedTime .clientIdIssuedAt r, unassignedTime .clientSecretExpiresAt r with
  | .error e, _ => .error e
  | _, .error e => .error e
  | _, _ =>
    if (r.value .registrationClientUri).isEmpty then .ok ()
    else .error (.refuse .outputParameterNotAllowed .registrationClientUri
      (r.value .registrationClientUri))

/-! ## Applying a rule -/

/-- No rule is set yet for the two scopes: any value is accepted. -/
def apply (policy : Policy) (rule : Rule) (d : Draft) : Except Failure Draft :=
  match rule with
  | applicationType => (scalar policy .applicationType d.record).map fun _ => d
  | responseTypes => (enumerated policy .responseTypes d.record).map fun _ => d
  | grantTypes => (enumerated policy .grantTypes d.record).map fun gs => { d with grants := gs }
  | responseAndGrantMatch => (responseMatch policy d).map fun _ => d
  | redirectUris => (redirections d.record).map fun r => { d with record := r }
  | scope => .ok d
  | subjectType => (scalar policy .subjectType d.record).map fun _ => d
  | tokenEndpointAuthMethod => (scalar policy .tokenEndpointAuthMethod d.record).map fun _ => d
  | postLogoutRedirectUris => (logoutRedirections d.record).map fun r => { d with record := r }
  | preauthorizedScope => .ok d
  | trustedUriPrefixes => (trustedPrefixes d.record).map fun r => { d with record := r }
  | functionalUserGroupIds => (groups d.record).map fun r => { d with record := r }
  | outputParameters => (outputs d.record).map fun _ => d

end Rule

end Registration

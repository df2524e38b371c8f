/-!
# Registered fields

* `Field`: the fields of client metadata to which a meaning is given;
* `Field.all`: their order;
* `Field.outputs`: those that the server assigns;
* `Field.name`, `Field.ofName?`: their names in a request.
-/

namespace Registration

inductive Field where
  | clientName
  | applicationType
  | responseTypes
  | grantTypes
  | redirectUris
  | postLogoutRedirectUris
  | trustedUriPrefixes
  | scope
  | preauthorizedScope
  | subjectType
  | tokenEndpointAuthMethod
  | functionalUserGroupIds
  | clientIdIssuedAt
  | clientSecretExpiresAt
  | registrationClientUri
  deriving DecidableEq, Repr

namespace Field

def all : List Field :=
  [clientName, applicationType, responseTypes, grantTypes, redirectUris, postLogoutRedirectUris,
   trustedUriPrefixes, scope, preauthorizedScope, subjectType, tokenEndpointAuthMethod,
   functionalUserGroupIds, clientIdIssuedAt, clientSecretExpiresAt, registrationClientUri]

/-- The fields that a server assigns and a client may not send. -/
def outputs : List Field :=
  [clientIdIssuedAt, clientSecretExpiresAt, registrationClientUri]

def name : Field → String
  | clientName => "client_name"
  | applicationType => "application_type"
  | responseTypes => "response_types"
  | grantTypes => "grant_types"
  | redirectUris => "redirect_uris"
  | postLogoutRedirectUris => "post_logout_redirect_uris"
  | trustedUriPrefixes => "trusted_uri_prefixes"
  | scope => "scope"
  | preauthorizedScope => "preauthorized_scope"
  | subjectType => "subject_type"
  | tokenEndpointAuthMethod => "token_endpoint_auth_method"
  | functionalUserGroupIds => "functional_user_groupIds"
  | clientIdIssuedAt => "client_id_issued_at"
  | clientSecretExpiresAt => "client_secret_expires_at"
  | registrationClientUri => "registration_client_uri"

def ofName? (name : String) : Option Field :=
  all.find? fun f => f.name == name

theorem mem_all (f : Field) : f ∈ all := by
  cases f <;> decide

theorem ofName?_name (f : Field) : ofName? f.name = some f := by
  cases f <;> decide

theorem name_of_ofName? {name : String} {f : Field} (h : ofName? name = some f) :
    f.name = name := by
  have := List.find?_some h
  simpa using this

end Field

end Registration

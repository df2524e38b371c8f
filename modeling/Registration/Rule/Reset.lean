import Registration.Defaults
import Registration.Rule.Basic

/-!
# Putting fields back

* `Rule.reset`: a draft with the fields that a rule judges put back to what
  stands in for them.
-/

namespace Registration

namespace Rule

/-- The record with the fields that a rule judges put back. -/
def resetRecord (defaults : Defaults) (rule : Rule) (r : Record) : Record :=
  match rule with
  | applicationType => r.put .applicationType defaults.applicationType
  | responseTypes => r.put .responseTypes (.list [])
  | grantTypes => r.put .grantTypes (.list [])
  | responseAndGrantMatch =>
    (r.put .responseTypes (.list [defaults.responseType])).put .grantTypes
      (.list [defaults.grantType])
  | redirectUris => r.put .redirectUris (.list [])
  | scope => r.remove .scope
  | subjectType => r.remove .subjectType
  | tokenEndpointAuthMethod =>
    r.putOrRemove .tokenEndpointAuthMethod defaults.tokenEndpointAuthMethod
  | postLogoutRedirectUris => r.put .postLogoutRedirectUris (.list [])
  | preauthorizedScope => r.remove .preauthorizedScope
  | trustedUriPrefixes => r.put .trustedUriPrefixes (.list [])
  | functionalUserGroupIds => r.put .functionalUserGroupIds (.list [])
  | outputParameters =>
    ((r.put .clientIdIssuedAt (.int 0)).put .clientSecretExpiresAt (.int 0)).remove
      .registrationClientUri

/-- A rejected list of grant types leaves none. -/
def reset (defaults : Defaults) (rule : Rule) (d : Draft) : Draft where
  record := rule.resetRecord defaults d.record
  grants := if rule = grantTypes then [] else d.grants

end Rule

end Registration

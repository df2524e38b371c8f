import Registration.Record.Basic

/-!
# Defaults

What stands in for a field that is omitted or rejected.

* `Defaults`: the values, which are configuration;
* `Record.fillDefaults`: a record with its omitted fields filled.
-/

namespace Registration

structure Defaults where
  applicationType : Value
  responseType : Value
  grantType : Value
  tokenEndpointAuthMethod : Value

namespace Defaults

def stock : Defaults where
  applicationType := .str "web"
  responseType := .str "code"
  grantType := .str "authorization_code"
  tokenEndpointAuthMethod := .str "client_secret_basic"

end Defaults

namespace Record

/-- A field is put back to a value, of which `null` means that it is omitted. -/
def putOrRemove (r : Record) (f : Field) (v : Value) : Record :=
  if v.isNull then r.remove f else r.put f v

/-- An empty field is filled with the value `v`. -/
def fillEmpty (f : Field) (v : Value) (r : Record) : Record :=
  if (r.value f).isEmpty then r.put f v else r

/-- An omitted list is filled with the empty one. -/
def fillList (f : Field) (r : Record) : Record :=
  if (r.value f).isNull then r.put f (.list []) else r

/-- The omitted fields are filled without a look at the others. -/
def fillDefaults (d : Defaults) (r : Record) : Record :=
  let r := r.fillEmpty .applicationType d.applicationType
  let r := r.fillEmpty .responseTypes (.list [d.responseType])
  let r := r.fillEmpty .grantTypes (.list [d.grantType])
  let r := r.fillEmpty .tokenEndpointAuthMethod d.tokenEndpointAuthMethod
  let r := r.fillList .redirectUris
  let r := r.fillList .postLogoutRedirectUris
  r.fillList .trustedUriPrefixes

end Record

end Registration

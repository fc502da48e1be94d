import AccessControl.Settings
import AccessControl.Token

/-!
# Configuration

What a running service goes by.  It starts as the checked settings; a setting
that is changed later is taken as it is, without another check, so that most of
it is kept as plain values.
-/

namespace AccessControl

structure Configuration where
  appName : Value
  appVersion : Value
  debug : Value
  apiVersion : Value
  databaseName : Value
  signer : Signer
  origins : List Value
  credentials : Value
  methods : List Value
  headers : List Value
  /-- How deep the body of a request may be nested. -/
  depth : Nat

namespace Configuration

/-- The items of a list. -/
def itemsOf : Value → List Value
  | .list items => items
  | _ => []

/-- The configuration with these settings, for a runtime that reads JSON to this
depth. -/
def ofFields (fields : Fields) (depth : Nat := Json.deepest) :
    Configuration :=
  let value (name : String) : Value := (Fields.get? fields name).getD .null
  { appName := value "app_name"
    appVersion := value "app_version"
    debug := value "debug"
    apiVersion := value "api_version"
    databaseName := value "database_name"
    signer :=
      ⟨value "secret_key", value "algorithm",
        value "access_token_expire_minutes", depth⟩
    origins := itemsOf (value "cors_allowed_origins")
    credentials := value "cors_allow_credentials"
    methods := itemsOf (value "cors_allowed_methods")
    headers := itemsOf (value "cors_allowed_headers")
    depth := depth }

/-- The settings with changes made afterwards. -/
def ofSettings (settings : Settings) (changes : Fields)
    (depth : Nat := Json.deepest) : Configuration :=
  ofFields (Fields.merge settings.dump changes) depth

end Configuration

end AccessControl

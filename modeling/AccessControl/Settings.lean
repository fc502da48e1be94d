import AccessControl.Json.Reader
import AccessControl.Settings.Scalar

/-!
# Settings

What can be chosen when the service is started.  A setting comes from an
argument, or else from a variable of the environment, or else is the default;
the names of both count in any case unless an option says otherwise.  Lists are
given in the environment as JSON.
-/

namespace AccessControl

structure Settings where
  appName : String
  appVersion : String
  debug : Bool
  environment : String
  apiVersion : String
  databaseUri : Option String
  databaseName : String
  secretKey : String
  algorithm : String
  tokenMinutes : Int
  origins : List String
  credentials : Bool
  methods : List String
  headers : List String

namespace Settings

def default : Settings :=
  { appName := "IAM Policy Service"
    appVersion := "1.0.0"
    debug := false
    environment := "development"
    apiVersion := "v1"
    databaseUri := none
    databaseName := "iam_db"
    secretKey := "change-me-in-production"
    algorithm := "HS256"
    tokenMinutes := 1440
    origins :=
      ["http://localhost:4200", "http://localhost:3000",
       "http://127.0.0.1:4200"]
    credentials := true
    methods := ["*"]
    headers := ["*"] }

def dump (settings : Settings) : Fields :=
  [("app_name", .text settings.appName),
   ("app_version", .text settings.appVersion),
   ("debug", .boolean settings.debug),
   ("environment", .text settings.environment),
   ("api_version", .text settings.apiVersion),
   ("mongodb_atlas_uri", (settings.databaseUri.map Value.text).getD .null),
   ("database_name", .text settings.databaseName),
   ("secret_key", .text settings.secretKey),
   ("algorithm", .text settings.algorithm),
   ("access_token_expire_minutes", .integer settings.tokenMinutes),
   ("cors_allowed_origins", .texts settings.origins),
   ("cors_allow_credentials", .boolean settings.credentials),
   ("cors_allowed_methods", .texts settings.methods),
   ("cors_allowed_headers", .texts settings.headers)]

def names : List String := Fields.names default.dump

def listNames : List String :=
  ["cors_allowed_origins", "cors_allowed_methods", "cors_allowed_headers"]

inductive Fault where
  | unreadable (name : String)
  /-- Lists or records in a variable are nested too deep to be read. -/
  | tooDeep (isList : Bool)
  | invalid (issues : List Issue)

/-- What is said about a variable that is not JSON. -/
def unreadableMessage (name : String) : String :=
  s!"error parsing value for field \x22{name}\x22 from source " ++
    "\x22EnvSettingsSource\x22"

def textOrNull (place : List Step) : Value → Verdict (Option String)
  | .null => .ok none
  | value => (Validation.text place value).map some

/-- A setting that was given, checked, or its default. -/
def chosen {α : Type} (given : Fields) (name : String)
    (check : List Step → Value → Verdict α) (default : α) : Verdict α :=
  match Fields.get? given name with
  | some value => check [.field name] value
  | none => .ok default

def ofFields (given : Fields) : Verdict Settings :=
  let text (name : String) (default : String) : Verdict String :=
    chosen given name Validation.text default
  let texts (name : String) (default : List String) : Verdict (List String) :=
    chosen given name Validation.texts default
  let appName := text "app_name" default.appName
  let appVersion := text "app_version" default.appVersion
  let debug := chosen given "debug" Validation.switch default.debug
  let environment := text "environment" default.environment
  let apiVersion := text "api_version" default.apiVersion
  let databaseUri :=
    chosen given "mongodb_atlas_uri" textOrNull default.databaseUri
  let databaseName := text "database_name" default.databaseName
  let secretKey := text "secret_key" default.secretKey
  let algorithm := text "algorithm" default.algorithm
  let tokenMinutes :=
    chosen given "access_token_expire_minutes" Validation.wholeNumber
      default.tokenMinutes
  let origins := texts "cors_allowed_origins" default.origins
  let credentials :=
    chosen given "cors_allow_credentials" Validation.switch
      default.credentials
  let methods := texts "cors_allowed_methods" default.methods
  let headers := texts "cors_allowed_headers" default.headers
  let issues :=
    appName.issues ++ appVersion.issues ++ debug.issues ++
      environment.issues ++ apiVersion.issues ++ databaseUri.issues ++
      databaseName.issues ++ secretKey.issues ++ algorithm.issues ++
      tokenMinutes.issues ++ origins.issues ++ credentials.issues ++
      methods.issues ++ headers.issues
  if issues.isEmpty then do
    .ok
      { appName := ← appName
        appVersion := ← appVersion
        debug := ← debug
        environment := ← environment
        apiVersion := ← apiVersion
        databaseUri := ← databaseUri
        databaseName := ← databaseName
        secretKey := ← secretKey
        algorithm := ← algorithm
        tokenMinutes := ← tokenMinutes
        origins := ← origins
        credentials := ← credentials
        methods := ← methods
        headers := ← headers }
  else .error issues

/-- How names and variables are read. -/
structure Options where
  /-- Whether names count only as they are written. -/
  exactNames : Bool
  /-- What the names of variables have in front of the names of settings. -/
  front : String
  /-- Whether empty variables count as missing. -/
  skipsEmpty : Bool
  /-- The text of a variable that stands for null. -/
  nullText : Option String
  /-- What stands between the name of a setting and the name of a part of it. -/
  divider : Option String
  /-- How deep a variable that is JSON may be nested. -/
  depth : Nat

namespace Options

/-- An argument that is a text. -/
def text? (arguments : Fields) (name : String) : Option String :=
  match Fields.get? arguments name with
  | some (.text text) => some text
  | _ => none

/-- Whether an argument is there and counts as true. -/
def isOn (arguments : Fields) (name : String) : Bool :=
  (Fields.get? arguments name).any Value.isTruthy

def ofArguments (arguments : Fields) (depth : Nat) : Options :=
  { exactNames := isOn arguments "_case_sensitive"
    front := (text? arguments "_env_prefix").getD ""
    skipsEmpty := isOn arguments "_env_ignore_empty"
    nullText := text? arguments "_env_parse_none_str"
    divider :=
      (text? arguments "_env_nested_delimiter").filter fun mark => mark != ""
    depth := depth }

def spelled (options : Options) (name : String) : String :=
  if options.exactNames then name else Text.lowered name

/-- Whether a name that was given is the wanted one. -/
def accepts (options : Options) (given wanted : String) : Bool :=
  options.spelled given == options.spelled wanted

end Options

/-- The variables that count. -/
def countedVariables (options : Options) (environment : List (String × String)) :
    List (String × String) :=
  environment.filter fun entry => !(options.skipsEmpty && entry.2 == "")

/-- The text of the last variable for a setting. -/
def lookUp? (options : Options) (environment : List (String × String))
    (name : String) : Option String :=
  ((countedVariables options environment).reverse.find? fun entry =>
    options.accepts entry.1 (options.front ++ name)).map Prod.snd

/-- The variables for parts of a setting, as a record, if there are any. -/
def parts? (options : Options) (environment : List (String × String))
    (name : String) : Option Value := do
  let divider ← options.divider
  let begins := (options.spelled (options.front ++ name) ++ divider).toList
  let found := (countedVariables options environment).filter fun entry =>
    begins.isPrefixOf (options.spelled entry.1).toList
  if found.isEmpty then none
  else
    some (.record (found.map fun entry =>
      (String.ofList (entry.1.toList.drop begins.length), .text entry.2)))

/-- The value of a variable for a list: JSON, where null stands for nothing. -/
def listFrom (depth : Nat) (name text : String) :
    Except Fault (Option (String × Value)) :=
  match Json.read text depth with
  | .ok .null => .ok none
  | .ok value => .ok (some (name, value))
  | .error (.tooDeep isList) => .error (.tooDeep isList)
  | .error _ => .error (.unreadable name)

/-- The value that the environment gives a setting: only a list has parts. -/
def fromEnvironment (options : Options) (environment : List (String × String))
    (name : String) : Except Fault (Option (String × Value)) :=
  match lookUp? options environment name with
  | none =>
      if listNames.contains name then
        .ok ((parts? options environment name).map fun parts => (name, parts))
      else .ok none
  | some text =>
      if options.nullText == some text then .ok (some (name, .null))
      else if listNames.contains name then listFrom options.depth name text
      else .ok (some (name, .text text))

/-- All that the environment gives. -/
def environmentFields (options : Options)
    (environment : List (String × String)) : Except Fault Fields := do
  let found ← names.mapM (fromEnvironment options environment)
  .ok (found.filterMap id)

/-- The settings among the arguments, each by the first argument with its name. -/
def argumentFields (options : Options) (arguments : Fields) : Fields :=
  names.filterMap fun name =>
    (arguments.find? fun argument => options.accepts argument.1 name).map
      fun argument => (name, argument.2)

/-- The settings that arguments and environment give together. -/
def ofSources (environment : List (String × String)) (arguments : Fields)
    (depth : Nat := Json.deepest) : Except Fault Settings := do
  let options := Options.ofArguments arguments depth
  let outside ← environmentFields options environment
  (ofFields (Fields.merge outside (argumentFields options arguments))).mapError
    Fault.invalid

end Settings

end AccessControl

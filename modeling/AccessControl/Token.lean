import AccessControl.Bytes.Sha2
import AccessControl.Failure
import AccessControl.Json.Writer

/-!
# Bearer tokens

A token is a header, claims and a signature, each in Base64 for URLs, with
points between them.  A token made here carries its expiry in the claim `exp`.
A token is accepted when its header names the configured algorithm, its
signature fits, and its claims stand the checks, which are made in a fixed
order.
-/

namespace AccessControl

/-- What tokens are signed with, by which algorithm, and how many minutes one lives
when nothing else is asked for.  These are settings as they were given, and one
of the wrong kind shows only when a token is made or checked. -/
structure Signer where
  secret : Value
  algorithm : Value
  lifetimeMinutes : Value
  /-- How deep the parts of a token, and a secret that is JSON, may be nested. -/
  depth : Nat

namespace Token

def point : UInt8 := 0x2e

def bytesOf (text : List Char) : List UInt8 :=
  (String.ofList text).toUTF8.toList

inductive MakingFault where
  | claimsNotRecord (claims : Value)
  | clock (fault : Clock.Fault)
  | expiry (fault : Duration.Fault)
  /-- A point in time in a claim has no instant that dates have. -/
  | claimTime (fault : Duration.Fault)
  | unknownAlgorithm
  | unwritableClaims
  | unsigned

/-- The claims that are times. -/
def timeClaims : List String := ["exp", "iat", "nbf"]

/-- A point in time as whole seconds. -/
def stamped (value : Value) : Except Duration.Fault Value :=
  match value with
  | .date date =>
      (Duration.dated date.instant).map fun _ => .integer date.seconds
  | other => .ok other

/-- The claims with every time as whole seconds. -/
def withTimes (claims : Fields) : Except Duration.Fault Fields :=
  claims.mapM fun claim =>
    if timeClaims.contains claim.1 then
      (stamped claim.2).map fun value => (claim.1, value)
    else .ok claim

def header (algorithm : Value) : Value :=
  .record [("alg", algorithm), ("typ", .text "JWT")]

/-- How long a token lives: as asked for, or else as configured; a duration of
nothing counts as not asked for. -/
def lifetime (signer : Signer) : Option Int → Except Duration.Fault Int
  | some duration =>
      if duration = 0 then
        Duration.ofValue Duration.minute signer.lifetimeMinutes
      else .ok duration
  | none => Duration.ofValue Duration.minute signer.lifetimeMinutes

/-- The second at which a token made at this time expires. -/
def expiry (signer : Signer) (now : Timestamp) (asked : Option Int) :
    Except Duration.Fault Int := do
  let duration ← lifetime signer asked
  let instant ← Duration.after now.instant duration
  .ok (Int.fdiv instant Timestamp.second)

/-- The second at which a token made now expires. -/
def expiryNow (signer : Signer) (now : Except Clock.Fault Timestamp)
    (asked : Option Int) : Except MakingFault Int := do
  let time ← now.mapError MakingFault.clock
  (expiry signer time asked).mapError MakingFault.expiry

/-- The header and the claims, written. -/
def signingInput? (algorithm : Value) (claims : Fields) :
    Option (List UInt8) := do
  let front ← Json.write? (header algorithm)
  let back ← Json.write? (.record claims)
  some (Base64.encode (bytesOf front) ++
    point :: Base64.encode (bytesOf back))

/-- The token of written claims. -/
def sealed (signer : Signer) (claims : Fields) :
    Except MakingFault (List UInt8) :=
  if (Algorithm.nameable? signer.algorithm).isNone then
    .error .unknownAlgorithm
  else
    match signingInput? signer.algorithm claims with
    | none => .error .unwritableClaims
    | some input =>
        match Key.signing signer.algorithm signer.secret with
        | .ok (some (member, secret)) =>
            .ok (input ++
              point :: Base64.encode (Hmac.sign member secret input))
        | _ => .error .unsigned

/-- The claims that are put into a token: those given, with the expiry. -/
def claimsWith (claims : Fields) (expiry : Int) :
    Except Duration.Fault Fields :=
  withTimes (Fields.set claims "exp" (.integer expiry))

def make (signer : Signer) (now : Except Clock.Fault Timestamp)
    (asked : Option Int) (claims : Value) :
    Except MakingFault (List UInt8) := do
  match claims with
  | .record fields =>
      let second ← expiryNow signer now asked
      let claims ← (claimsWith fields second).mapError MakingFault.claimTime
      sealed signer claims
  | .list items =>
      let _ ← expiryNow signer now asked
      .error (.claimsNotRecord (.list items))
  | other => .error (.claimsNotRecord other)

/-- The bytes before the first point and those after it. -/
def splitFirst? (bytes : List UInt8) : Option (List UInt8 × List UInt8) :=
  match bytes.dropWhile (· != point) with
  | _ :: rest => some (bytes.takeWhile (· != point), rest)
  | [] => none

/-- The bytes before the last point and those after it. -/
def splitLast? (bytes : List UInt8) : Option (List UInt8 × List UInt8) :=
  (splitFirst? bytes.reverse).map fun parts =>
    (parts.2.reverse, parts.1.reverse)

def rejected : Failure :=
  .refused (.unauthenticated (.text "Invalid or expired token"))

/-- What is there, or else the token is rejected. -/
def found {α : Type} : Option α → Except Failure α
  | some value => .ok value
  | none => .error rejected

/-- The record that a segment holds. -/
def recordOf (depth : Nat) (bytes : List UInt8) : Except Failure Fields := do
  let text ← found (String.fromUTF8? ⟨bytes.toArray⟩)
  match Json.read text depth with
  | .ok (.record fields) => .ok fields
  | .error (.tooDeep isList) => .error (.tooDeep isList)
  | _ => .error rejected

/-- Whether a header names the configured algorithm. -/
def namesAlgorithm (signer : Signer) (algorithm : Value) : Bool :=
  algorithm.isTruthy && algorithm.same signer.algorithm

/-- The claims of a token with the right header and signature. -/
def verified (signer : Signer) (token : List UInt8) :
    Except Failure Fields := do
  let (input, last) ← found (splitLast? token)
  let (front, back) ← found (splitFirst? input)
  let head ← recordOf signer.depth (← found (Base64.decode? front))
  let content ← found (Base64.decode? back)
  let given ← found (Base64.decode? last)
  let algorithm := (Fields.get? head "alg").getD .null
  if !namesAlgorithm signer algorithm then .error rejected
  else
    let fits (member : Sha2.Member) (secret : List UInt8) : Bool :=
      given = Hmac.sign member secret input
    match Key.verifies signer.depth algorithm signer.secret fits with
    | .error fault => .error (.key fault)
    | .ok false => .error rejected
    | .ok true => recordOf signer.depth content

/-- The whole number that a claim stands for. -/
def wholeNumber (claim : Value) : Except Failure Int :=
  match claim with
  | .boolean value => .ok (if value then 1 else 0)
  | .number n =>
      match n.truncated with
      | .integer value => .ok value
      | .notANumber => .error rejected
      | .infinite => .error .claimInfinite
  | .text value =>
      match Text.integer? value.toList with
      | some n => .ok n
      | none => .error rejected
  | other => .error (.claimNotNumeric other)

/-- Accepts a claim that is missing or a whole number with the property. -/
def checkTime (claims : Fields) (name : String)
    (accepts : Int → Except Failure Bool) : Except Failure Unit :=
  match Fields.get? claims name with
  | none => .ok ()
  | some claim => do
      if ← accepts (← wholeNumber claim) then .ok () else .error rejected

/-- Accepts a claim that is missing or has the property. -/
def checkClaim (claims : Fields) (name : String) (accepts : Value → Bool) :
    Except Failure Unit :=
  match Fields.get? claims name with
  | none => .ok ()
  | some claim => if accepts claim then .ok () else .error rejected

def isText : Value → Bool
  | .text _ => true
  | _ => false

/-- Compares the current second with that of a claim. -/
def compared (now : Except Clock.Fault Timestamp) (relation : Int → Int → Bool)
    (second : Int) : Except Failure Bool :=
  (now.mapError Failure.clock).map fun time => relation time.seconds second

/-- The checks, in their order.  The clock is looked at only where a claim has to
be compared with it. -/
def check (now : Except Clock.Fault Timestamp) (claims : Fields) :
    Except Failure Unit := do
  checkTime claims "iat" fun _ => .ok true
  checkTime claims "nbf" (compared now fun time start => start ≤ time)
  checkTime claims "exp" (compared now fun time expiry => time ≤ expiry)
  checkClaim claims "aud" fun _ => false
  checkClaim claims "sub" isText
  checkClaim claims "jti" isText
  checkClaim claims "at_hash" fun _ => false

def claimsOf (signer : Signer) (now : Except Clock.Fault Timestamp)
    (token : List UInt8) : Except Failure Fields := do
  let claims ← verified signer token
  check now claims
  .ok claims

/-- The claims of an acceptable token, which may be given as any value. -/
def claimsOfValue (signer : Signer) (now : Except Clock.Fault Timestamp) :
    Value → Except Failure Fields
  | .text token => claimsOf signer now token.toUTF8.toList
  | other => .error (.notText other "rsplit")

end Token

end AccessControl

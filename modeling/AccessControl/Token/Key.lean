import AccessControl.Bytes.Base64
import AccessControl.Bytes.Sha2
import AccessControl.Json.Reader
import AccessControl.Text.Basic

/-!
# Keys of signatures

A token is signed with the secret as it stands, and checked with every key that
the secret names: a secret that is JSON stands for the key or the keys in it, any
other one for itself.  What can be a key depends on the algorithm.  Only a
shared secret signs anything here; a text that looks like one half of a key pair
is refused as such a secret.
-/

namespace AccessControl

/-- What an algorithm asks of its key. -/
inductive Algorithm where
  | shared (member : Sha2.Member)
  | paired
  /-- Takes a key of this length, and signs nothing. -/
  | cipher (length : Nat)
  /-- Takes every text, and signs nothing. -/
  | direct

namespace Algorithm

/-- The algorithms with a shared secret. -/
def hashes : List (String × Algorithm) :=
  [("HS256", shared Sha2.sha256), ("HS384", shared Sha2.sha384),
   ("HS512", shared Sha2.sha512)]

/-- The algorithms with key pairs that a token may name. -/
def pairs : List (String × Algorithm) :=
  ["RS256", "RS384", "RS512", "RSA1_5", "RSA-OAEP", "RSA-OAEP-256", "ES256",
    "ES384", "ES512"].map fun name => (name, paired)

/-- The ciphers that a token may name. -/
def ciphers : List (String × Algorithm) :=
  [("A128KW", cipher 16), ("A192KW", cipher 24), ("A256KW", cipher 32),
   ("A128GCM", cipher 16), ("A192GCM", cipher 24), ("A256GCM", cipher 32),
   ("A128CBC-HS256", cipher 32), ("A192CBC-HS384", cipher 48),
   ("A256CBC-HS512", cipher 64)]

/-- The algorithms that a token may name. -/
def nameable : List (String × Algorithm) :=
  hashes ++ pairs ++ ciphers ++ [("dir", direct)]

/-- The algorithms that are known and cannot be named by a token. -/
def others : List (String × Algorithm) :=
  [("ECDH-ES", paired), ("ECDH-ES+A128KW", paired),
   ("ECDH-ES+A192KW", paired), ("ECDH-ES+A256KW", paired),
   ("A128CBC", cipher 16), ("A192CBC", cipher 24), ("A256CBC", cipher 32)]

def nameable? : Value → Option Algorithm
  | .text name => nameable.lookup name
  | _ => none

def ofName? : Value → Option Algorithm
  | .text name => (nameable ++ others).lookup name
  | _ => none

end Algorithm

namespace Key

/-- Why there is no key, or none that can be used. -/
inductive Fault where
  | unknownAlgorithm
  /-- The key is neither a text nor a record. -/
  | notSecret
  /-- The text is one half of a key pair, or a certificate. -/
  | notShared
  /-- The record describes a key of this other kind. -/
  | otherKind (kind : Value)
  | notPaired
  | wrongLength (bits : Nat) (algorithm : String)
  /-- The content of the key that a record describes is no text. -/
  | noContent (content : Value)
  | unreadableContent
  | noLength (key : Value)
  | noKeys (value : Value)

/-- What stands between the dashes at the beginning of a file with a key or a
certificate. -/
def labels : List String :=
  ["CERTIFICATE", "TRUSTED CERTIFICATE", "PRIVATE KEY", "PUBLIC KEY",
   "ENCRYPTED PRIVATE KEY", "OPENSSH PRIVATE KEY", "DSA PRIVATE KEY",
   "RSA PRIVATE KEY", "RSA PUBLIC KEY", "EC PRIVATE KEY", "DH PARAMETERS",
   "NEW CERTIFICATE REQUEST", "CERTIFICATE REQUEST", "SSH2 PUBLIC KEY",
   "SSH2 ENCRYPTED PRIVATE KEY", "X509 CRL"]

/-- The dashes at the beginning and at the end, next to a dash or a blank. -/
def boundaries (label : String) : List (List Char) :=
  ["-", " "].flatMap fun front =>
    ["-", " "].map fun back =>
      s!"----{front}BEGIN {label}{back}----".toList

/-- Whether the text holds the first line of a file with a key. -/
def hasBoundary (text : List Char) : Bool :=
  labels.any fun label =>
    (boundaries label).any fun boundary => Text.occursIn boundary text

/-- The names that begin the keys of a remote login. -/
def loginKinds : List String :=
  ["ssh-ed25519", "ssh-rsa", "ssh-dss", "ecdsa-sha2-nistp256",
   "ecdsa-sha2-nistp384", "ecdsa-sha2-nistp521"]

def certificateEnding : String := "-cert-v01@openssh.com"

def isGap (c : Char) : Bool :=
  c = ' ' || (0x09 ≤ c.toNat && c.toNat ≤ 0x0d)

/-- Whether the text begins like a certificate of a remote login: a word with the
ending, blanks on the line, and another word. -/
def isLoginCertificate (text : List Char) : Bool :=
  let word := text.takeWhile fun c => !isGap c
  let after := text.dropWhile fun c => !isGap c
  let next := after.dropWhile fun c => c = ' ' || c = '\t'
  certificateEnding.toList.isSuffixOf word && next.length < after.length &&
    next.head?.any fun c => !isGap c

/-- Whether a text is no shared secret. -/
def isForeign (text : List Char) : Bool :=
  hasBoundary text ||
    loginKinds.any (fun kind => Text.occursIn kind.toList text) ||
    isLoginCertificate text

/-- The kind of a key that a record describes as a shared secret. -/
def sharedKind : String := "oct"

/-- The secret that a record describes. -/
def described (fields : Fields) : Except Fault (List UInt8) :=
  let kind := (Fields.get? fields "kty").getD .null
  if kind.same (.text sharedKind) then
    match (Fields.get? fields "k").getD .null with
    | .text content =>
        match Base64.decode? content.toUTF8.toList with
        | some bytes => .ok bytes
        | none => .error .unreadableContent
    | other => .error (.noContent other)
  else .error (.otherKind kind)

/-- The secret in a key. -/
def secret : Value → Except Fault (List UInt8)
  | .text text =>
      if isForeign text.toList then .error .notShared
      else .ok text.toUTF8.toList
  | .record fields => described fields
  | _ => .error .notSecret

/-- How many characters, items or fields a key has. -/
def length : Value → Except Fault Nat
  | .text text => .ok text.length
  | .list items => .ok items.length
  | .record fields => .ok fields.length
  | other => .error (.noLength other)

/-- The hash and the secret that signatures are made with; none where the
algorithm takes the key and signs nothing with it. -/
def signing (algorithm : Value) (key : Value) :
    Except Fault (Option (Sha2.Member × List UInt8)) :=
  match Algorithm.ofName? algorithm with
  | none => .error .unknownAlgorithm
  | some (.shared member) =>
      (secret key).map fun bytes => some (member, bytes)
  | some .paired => .error .notPaired
  | some (.cipher size) => do
      if (← length key) = size then .ok none
      else .error (.wrongLength (8 * size) algorithm.plain)
  | some .direct =>
      match key with
      | .text _ => .ok none
      | other => .error (.noLength other)

/-- The secret as JSON, where it is that; numbers stand for their characters. -/
def content (depth : Nat) (secret : Value) : Value :=
  match secret with
  | .text text =>
      match Json.readAs Json.literally depth text with
      | .ok value => value
      | .error _ => secret
  | other => other

/-- The keys in a value: a set of keys under its name, one key with a kind, the
values of any other record, the items of a list, or the value itself. -/
def keysOf (value : Value) : Except Fault (List Value) :=
  match value with
  | .record fields =>
      match Fields.get? fields "keys" with
      | some keys =>
          match keys.members? with
          | some found => .ok found
          | none => .error (.noKeys keys)
      | none =>
          if (Fields.get? fields "kty").isSome || fields.isEmpty then
            .ok [value]
          else .ok (fields.map Prod.snd)
  | .list items => .ok items
  | other => .ok [other]

/-- Whether one of the keys checks the signature.  The first key that cannot be
used ends the search. -/
def anySigns (algorithm : Value)
    (fits : Sha2.Member → List UInt8 → Bool) :
    List Value → Except Fault Bool
  | [] => .ok false
  | key :: rest => do
      match ← signing algorithm key with
      | some (member, bytes) =>
          if fits member bytes then .ok true else anySigns algorithm fits rest
      | none => anySigns algorithm fits rest

/-- Whether the signature fits one of the keys that the secret names. -/
def verifies (depth : Nat) (algorithm secret : Value)
    (fits : Sha2.Member → List UInt8 → Bool) : Except Fault Bool := do
  anySigns algorithm fits (← keysOf (content depth secret))

namespace Fault

def message : Fault → String
  | unknownAlgorithm => "Unable to find an algorithm for key"
  | notSecret => "Expecting a string- or bytes-formatted key."
  | notShared =>
      "The specified key is an asymmetric key or x509 certificate and should " ++
        "not be used as an HMAC secret."
  | otherKind kind =>
      s!"Incorrect key type. Expected: '{sharedKind}', Received: " ++ kind.plain
  | notPaired => "Could not deserialize key data."
  | wrongLength bits algorithm =>
      s!"Key must be {bits} bit for alg {algorithm}"
  | noContent content => s!"'{content.kind}' object has no attribute 'encode'"
  | unreadableContent => "Incorrect padding"
  | noLength key => s!"object of type '{key.kind}' has no len()"
  | noKeys value => s!"'{value.kind}' object is not iterable"

end Fault

end Key

end AccessControl

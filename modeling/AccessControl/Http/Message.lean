import AccessControl.Envelope
import AccessControl.Refusal
import AccessControl.Text.Basic

/-!
# Requests and responses

A request names a method and a path and brings headers and a body; the names of
headers count in any case.  The text of a header is received byte by byte: each
byte of its UTF-8 form is taken for a character.  A response has a status,
headers, and a value or a text.
-/

namespace AccessControl.Http

structure Request where
  method : String
  path : String
  headers : List (String × String)
  /-- Where the request comes from, when that is known. -/
  client : Option String
  body : String

namespace Request

/-- The text of the first header with this name, which is given in lower case, as
it was sent. -/
def sent? (request : Request) (name : String) : Option String :=
  (request.headers.find? fun header => Text.lowered header.1 == name).map
    Prod.snd

def received (text : String) : String :=
  String.ofList (text.toUTF8.toList.map fun byte => Char.ofNat byte.toNat)

/-- The text of the first header with this name as it is received. -/
def header? (request : Request) (name : String) : Option String :=
  (request.sent? name).map received

/-- The host that the request is for.  A client that is given none sends a name of
its own. -/
def host (request : Request) : String :=
  (request.header? "host").getD "testserver"

end Request

inductive Content where
  | json (value : Value)
  | text (text : String)

structure Response where
  status : Nat
  headers : List (String × String)
  content : Content

namespace Response

/-- A value without any header. -/
def json (status : Nat) (value : Value) : Response :=
  ⟨status, [], .json value⟩

def enveloped (status : Nat) (wrap : Value → Except Failure Envelope) :
    Except Failure Response :=
  (wrap (.integer status)).map fun envelope => json status envelope.body

def detail (status : Nat) (detail : Value)
    (headers : List (String × String)) : Response :=
  ⟨status, headers, .json (.record [("detail", detail)])⟩

def ofRefusal (refusal : Refusal) : Response :=
  detail refusal.status refusal.detail
    (refusal.headers.map fun header => (Text.lowered header.1, header.2))

def adding (headers : List (String × String)) (response : Response) : Response :=
  { response with headers := response.headers ++ headers }

end Response

end AccessControl.Http

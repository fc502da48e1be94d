import AccessControl.Value

/-!
# Action tokens

A policy names what it is about by tokens.  `*` stands for every verb on every
subject, and `Subject:Verb` for one verb on one subject, where `*` on either
side stands for all of that side.  The words `all` and `manage` are what the
wildcards expand to, so a token may not spell them out itself.
-/

namespace AccessControl

/-- The token, half or resource that stands for all. -/
def wildcard : String := "*"

/-- The subject type that stands for every subject. -/
def allSubjects : String := "all"

/-- The verb that stands for every verb. -/
def manage : String := "manage"

/-- What a token is about. -/
structure Target where
  subjectType : String
  verb : String
deriving DecidableEq, Repr

namespace Action

inductive Reason where
  | malformed
  | reserved (word : String)
deriving DecidableEq, Repr

/-- Why a token was refused. -/
structure Fault where
  token : String
  reason : Reason
deriving DecidableEq, Repr

namespace Fault

def message (fault : Fault) : String :=
  match fault.reason with
  | .malformed => "Malformed action"
  | .reserved word => s!"'{word}' is a reserved keyword"

end Fault

/-- The parts of a token before and after its only colon. -/
def halves? (token : List Char) : Option (List Char × List Char) :=
  match token.dropWhile (· != ':') with
  | _ :: rest =>
      if rest.contains ':' then none
      else some (token.takeWhile (· != ':'), rest)
  | [] => none

/-- A half of a token: the wildcard expands to the word, and everything else is
kept. -/
def expand (word half : String) : String :=
  if half = wildcard then word else half

def parse (token : String) : Except Fault Target :=
  if token = wildcard then .ok ⟨allSubjects, manage⟩
  else
    match halves? token.toList with
    | some (front, back) =>
        let subject := String.ofList front
        let verb := String.ofList back
        if front.isEmpty || back.isEmpty then .error ⟨token, .malformed⟩
        else if subject = allSubjects then
          .error ⟨token, .reserved allSubjects⟩
        else if verb = manage then .error ⟨token, .reserved manage⟩
        else .ok ⟨expand allSubjects subject, expand manage verb⟩
    | none => .error ⟨token, .malformed⟩

/-- Reads a token given as a value; only texts are tokens. -/
def ofValue : Value → Except Fault Target
  | .text token => parse token
  | other => .error ⟨other.plain, .malformed⟩

end Action

end AccessControl

import AccessControl.Failure
import AccessControl.Text.Digit

/-!
# Tenants

Every tenant keeps its documents in collections of its own.  Their names start
with the tenant's slug: the unit name without blanks around it and in lower
case, which may hold letters a to z, digits and hyphens and may not start with
a hyphen.  In collection names the hyphens become underscores.
-/

namespace AccessControl

namespace Tenant

/-- The unit name without blanks around it and in lower case. -/
def slug (unit : List Char) : List Char :=
  (Text.trim Text.isBlank unit).flatMap Text.lower

/-- Letters a to z, digits and the hyphen. -/
def isSlugCharacter (c : Char) : Bool :=
  (0x61 ≤ c.toNat && c.toNat ≤ 0x7a) || Text.isDigit c || c == '-'

/-- Slug characters, at least one, and no hyphen in front. -/
def isSlug : List Char → Bool
  | [] => false
  | first :: rest => first != '-' && (first :: rest).all isSlugCharacter

/-- Hyphens as underscores. -/
def underscored (slug : List Char) : List Char :=
  slug.map fun c => if c = '-' then '_' else c

end Tenant

/-- A tenant: its unit name as it was spelled, and the beginning of its collection
names. -/
structure Tenant where
  unit : String
  stem : String
deriving DecidableEq, Repr

namespace Tenant

/-- The tenant with this unit name. -/
def ofUnit (unit : String) : Except Failure Tenant :=
  let found := slug unit.toList
  if isSlug found then .ok ⟨unit, String.ofList (underscored found)⟩
  else .error (.badUnit unit)

def ofValue : Value → Except Failure Tenant
  | .text unit => ofUnit unit
  | other => .error (.notText other "strip")

/-- The name of one of the tenant's collections. -/
def collection (tenant : Tenant) (name : String) : String :=
  s!"{tenant.stem}_{name}"

def policies (tenant : Tenant) : String := tenant.collection "policies"

def principals (tenant : Tenant) : String := tenant.collection "users"

def groups (tenant : Tenant) : String := tenant.collection "groups"

end Tenant

/-- The name of a collection that all tenants share. -/
def sharedCollection (name : String) : String := name

end AccessControl

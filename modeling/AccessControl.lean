import AccessControl.Http.Service
import AccessControl.Log.Line
import AccessControl.Policy.Draft
import AccessControl.Proofs.Acceptance
import AccessControl.Proofs.Action
import AccessControl.Proofs.Matching
import AccessControl.Proofs.Decision
import AccessControl.Proofs.Holdings
import AccessControl.Proofs.Effective
import AccessControl.Proofs.Operation
import AccessControl.Proofs.Consistency
import AccessControl.Proofs.Endpoint
import AccessControl.Proofs.Authorization
import AccessControl.Proofs.Restoration
import AccessControl.Proofs.Anonymity
import AccessControl.Proofs.Interleaving
import AccessControl.Proofs.Spelling
import AccessControl.Proofs.Untouched
import AccessControl.Proofs.Token
import AccessControl.Proofs.Simultaneous
import AccessControl.Proofs.Isolation
import AccessControl.Proofs.Compilation
import AccessControl.Proofs.Safety
import AccessControl.Proofs.Logging
import AccessControl.Proofs.Namesakes
import AccessControl.Proofs.Precedence
import AccessControl.Proofs.Widening
import AccessControl.Proofs.Attributes
import AccessControl.Proofs.Conjunction
import AccessControl.Proofs.Deletion
import AccessControl.Proofs.Attachment
import AccessControl.Proofs.Patch
import AccessControl.Proofs.Offence
import AccessControl.Proofs.Listing
import AccessControl.Proofs.Conversion
import AccessControl.Proofs.Slug
import AccessControl.Proofs.Decimal
import AccessControl.Proofs.Numeral
import AccessControl.Proofs.Expiry
import AccessControl.Proofs.Escape
import AccessControl.Proofs.Handle
import AccessControl.Proofs.Identity

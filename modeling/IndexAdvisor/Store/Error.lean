import IndexAdvisor.Disk.Basic
import IndexAdvisor.Json.Fault
import IndexAdvisor.Text.Blank
import IndexAdvisor.Text.Shown

/-!
# Errors of stores

Records belong to a principal, whose name must not be blank. A stored line is damaged if its
checksum is wrong or if it does not hold a record.
-/

set_option autoImplicit false

namespace IndexAdvisor.Store

/-- Why an operation on stored records fails. Lines are counted from 1. -/
inductive Error where
  | invalidPrincipal (name : String)
  | queryNotFound (key : String)
  | recommendationNotFound (key : String) (id : UInt32)
  | checksumMismatch (line : Nat)
  | corruptRecord (line : Nat) (fault : Json.Fault)
  | disk (fault : Disk.Fault)
  deriving DecidableEq, Repr

namespace Error

/-- The code of the error. -/
def code : Error → String
  | invalidPrincipal _ => "DBO_STORE_INVALID_PRINCIPAL"
  | queryNotFound _ => "DBO_STORE_QUERY_NOT_FOUND"
  | recommendationNotFound _ _ => "DBO_STORE_RECOMMENDATION_NOT_FOUND"
  | checksumMismatch _ => "DBO_STORE_CHECKSUM_MISMATCH"
  | corruptRecord _ _ => "DBO_STORE_CORRUPT_RECORD"
  | disk _ => "DBO_STORE_IO"

/-- The words for the error. -/
def message : Error → String
  | invalidPrincipal name =>
    "Invalid principal: " ++ Text.shown name
  | queryNotFound key => "Query not found: " ++ key
  | recommendationNotFound key id =>
    "Recommendation " ++ toString id.toNat ++ " not found for query " ++ key
  | checksumMismatch line => "Checksum mismatch on line " ++ toString line
  | corruptRecord line fault =>
    "Corrupt record on line " ++ toString line ++ ": " ++ fault.message
  | disk fault => "I/O error: " ++ fault.message

/-- Stored data is damaged. -/
def isCorruption : Error → Bool
  | checksumMismatch _ => true
  | corruptRecord _ _ => true
  | _ => false

end Error

/-- The name may own records: it is not blank. -/
def isPrincipal (name : String) : Bool := !Text.isBlankText name.toList

/-- Refuses a blank name. -/
def checkPrincipal (name : String) : Except Error Unit :=
  if isPrincipal name then .ok () else .error (.invalidPrincipal name)

end IndexAdvisor.Store

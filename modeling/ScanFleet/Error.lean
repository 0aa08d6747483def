import ScanFleet.Model.Assignment
import ScanFleet.Geo.Area

set_option autoImplicit false

/-! # Errors

What can go wrong, in three layers: in the data of the model, in a job, and in the fleet. Each error
is a cause; its wording is one function. An error report is the form in which an administrator sees
an error: a code, a message and the time. -/

namespace ScanFleet

/-- What is wrong with the data of the model. -/
inductive ModelError where
  | invalidArea (detail : String)
  | unknownKind (name : String)
  | missingLookup (detail : String)
  | invalidAssignment (detail : String)
  deriving DecidableEq, Repr, Inhabited

/-- The wording of an error. -/
def ModelError.message : ModelError → String
  | invalidArea detail => "Invalid area: " ++ detail
  | unknownKind name => "Unknown instance type: " ++ name
  | missingLookup detail => "Missing lookup: " ++ detail
  | invalidAssignment detail => "Invalid assignment: " ++ detail

/-- What is wrong with a job. -/
inductive JobError where
  | construction (detail : String)
  | unregistered (kind : String)
  | poisoned (lock : String)
  | model (error : ModelError)
  deriving DecidableEq, Repr, Inhabited

/-- The wording of an error. -/
def JobError.message : JobError → String
  | construction detail => "Job construction failed: " ++ detail
  | unregistered kind => "No job controller registered for type: " ++ kind
  | poisoned lock => "Job state lock poisoned: " ++ lock
  | model error => error.message

/-- What is wrong with a request to the fleet. -/
inductive FleetError where
  | invalidRequest (detail : String)
  | instanceNotFound (name : String)
  | deviceNotFound (uuid : String)
  | assignmentNotFound (id : UInt32)
  | geofenceNotFound (name : String)
  | ivListNotFound (name : String)
  | storage (detail : String)
  | configuration (detail : String)
  | job (error : JobError)
  | model (error : ModelError)
  deriving DecidableEq, Repr, Inhabited

namespace FleetError

/-- The wording of an error. -/
def message : FleetError → String
  | invalidRequest detail => "Invalid request: " ++ detail
  | instanceNotFound name => "Instance not found: " ++ name
  | deviceNotFound uuid => "Device not found: " ++ uuid
  | assignmentNotFound id => "Assignment not found: " ++ toString id
  | geofenceNotFound name => "Geofence not found: " ++ name
  | ivListNotFound name => "IV list not found: " ++ name
  | storage detail => "Storage error: " ++ detail
  | configuration detail => "Configuration error: " ++ detail
  | job error => error.message
  | model error => error.message

/-- The code of an error in a report. -/
def code : FleetError → String
  | invalidRequest _ => "INVALID_REQUEST"
  | instanceNotFound _ => "INSTANCE_NOT_FOUND"
  | deviceNotFound _ => "DEVICE_NOT_FOUND"
  | assignmentNotFound _ => "ASSIGNMENT_NOT_FOUND"
  | geofenceNotFound _ => "GEOFENCE_NOT_FOUND"
  | ivListNotFound _ => "IV_LIST_NOT_FOUND"
  | storage _ => "STORAGE_ERROR"
  | configuration _ => "CONFIGURATION_ERROR"
  | job _ => "JOB_ERROR"
  | model _ => "INVALID_DATA"

/-- What a report says about an error: where the code tells the kind of error, only the detail. -/
def reportMessage : FleetError → String
  | invalidRequest detail | instanceNotFound detail | deviceNotFound detail
  | geofenceNotFound detail | ivListNotFound detail | storage detail | configuration detail =>
    detail
  | error => error.message

end FleetError

/-- An error as an administrator sees it. -/
structure ErrorReport where
  code : String
  message : String
  /-- Further details under their names. -/
  details : Option (Table (String × String)) := none
  timestamp : Instant

namespace ErrorReport

/-- A report with the time that a clock shows; nothing when it shows none. -/
def write? (code message : String) (details : Option (Table (String × String)))
    (clock : Instant) : Option ErrorReport :=
  clock.byClock true { code, message, details, timestamp := clock }

/-- The report on an error, by the clock. -/
def ofError? (error : FleetError) (clock : Instant) : Option ErrorReport :=
  write? error.code error.reportMessage none clock

/-- Details are an object of texts; of several details with one name the last stays. -/
instance : JsonForm (Table (String × String)) where
  toJson details := .object (details.rows.map fun row => (row.1, .text row.2))
  ofJson?
    | .object members =>
      (members.mapM fun member =>
        (ofJson? member.2).map fun text => (member.1, text)).map Table.ofList
    | _ => none

/-- An instant is written as a text. -/
instance : JsonForm Instant where
  toJson instant := .text (String.ofList instant.text)
  ofJson?
    | .text s => Instant.ofText? s.toList
    | _ => none

instance : JsonForm ErrorReport where
  toJson r := .object
    [("error_code", toJson r.code), ("message", toJson r.message), ("details", toJson r.details),
     ("timestamp", toJson r.timestamp)]
  ofJson? j := do
    let r ← j.record? ["error_code", "message", "details", "timestamp"]
    return ⟨← r.required "error_code", ← r.required "message", ← r.nullable "details",
      ← r.required "timestamp"⟩

end ErrorReport

end ScanFleet

import ResourceServer.Ability
import ResourceServer.Report
import ResourceServer.Filter.Operator
import ResourceServer.Value.Printer
import ResourceServer.Yaml.Fault

/-!
# Errors

Every failure is named by its cause. `message` words it, `category` says which family it belongs to,
and the request family is the one that a client can mend: its errors come from parsing, before any
transaction is opened.
-/

namespace ResourceServer

/-- Families of errors. -/
inductive Category
  | rest
  | configuration
  | request
  | malformedRequest
  | malformedFilter
  | unsupportedOperator
  | nestingLimit
  | fieldNotAllowed
  | relationNotAllowed
  | invalidPayload
  | unsupportedOperation
  | denied
  | notFound
  | transaction
  | lookup
  | value
  | type
  | attribute
  | overflow
  | division
  | runtime
  | validation
  | integrity
  | statement
  | compilation
  | argument
  | operational
  | binding
  | session
  | path
  | emptyNumeral
  | recursion
  | missingFile
  | address
  | document (stage : Yaml.Stage)
deriving DecidableEq, Repr

/-- Whether a family consists of faults of the request. -/
def Category.isRequest : Category → Bool
  | .request | .malformedRequest | .malformedFilter | .unsupportedOperator | .nestingLimit
  | .fieldNotAllowed | .relationNotAllowed | .invalidPayload | .unsupportedOperation => true
  | _ => false

/-- What the resources of a batch must be. -/
inductive BatchShape
  | payloads
  | keys
  | payloadsByKey
deriving DecidableEq, Repr

/-- Faults of request parameters. -/
inductive ParameterFault
  | notBoolean (name : String) (value : Value)
  | notInteger (name : String) (value : Value)
  | belowMinimum (name : String) (minimum number : Int)
  | notTextList (name : String)
  | notJson (name detail : String)
  | sortEntry (entry : Value)
  | sortDirection (direction : Value)
  | sortShape
  | searchValue (value : Value)
  | notSearchable (resource : String)
  | key (resource : String) (value : Value)
  | includesShape
  | includeEntry (entry : Value)
  | payloadShape (payload : Value)
  | resourcesShape (expected : BatchShape)
deriving Repr

/-- Faults of filter entries. -/
inductive FilterFault
  | notJson (name detail : String)
  | notList
  | entryShape (entry : Value)
  | entryType (word : Value)
  | emptyNesting
  | missingField (entry : Value)
  | invalid (field reason : String)
deriving Repr

/-- What is nested too deeply. -/
inductive Nesting
  | filters
  | relations
deriving DecidableEq, Repr

/-- What a field is used for. -/
inductive Usage
  | filterable
  | sortable
  | searchable
  | fillable
  | selectable
deriving DecidableEq, Repr

/-- Misuse of transactions. -/
inductive TransactionFault
  | alreadyActive
  | noneActive
  | abandoned
deriving DecidableEq, Repr

/-- Names that are declared nowhere. -/
inductive LookupFault
  | relation (name resource : String)
  | relationTarget (target : String)
  | column (name : String)
  | scheme (word : String)
deriving DecidableEq, Repr

/-- Faults of the configuration and of the declared resources. -/
inductive ConfigFault
  | alreadyRegistered (name : String)
  | unknownResource (name : String)
  | noBinding (name : String)
  | alreadyFinalized (name : String)
  | missingKeyColumn (column resource : String)
  | missingSoftDeleteColumn (column resource : String)
  | unknownFields (usage : Usage) (resource : String) (fields : List String)
  | unknownTarget (resource relation target : String)
  | missingForeignKey (column resource relation owner : String)
  | unresolvedInclude (path resource : String) (cause : LookupFault)
  | undeclaredAggregate (relation resource : String)
  | invalidSettings (reports : List Report)
  | missingFile (path : String)
  | fileNotMapping (path : String)
  | sectionNotMapping
  | malformedYaml
  | unsetVariable (name : String)
deriving Repr

/-- Values that an operation cannot use. -/
inductive ValueFault
  | tooManyDigits (digits : Nat)
  | notNumeral (text : String) (base : Nat := 10)
  | notDecimal (text : String)
  | outOfCalendar (part : Moment.Part) (year : Nat)
  | offsetTooGreat (seconds : Int)
  | notMember (value : Value) (choice : String)
  | operandNotList (operator : Filter.Operator) (kind : String)
  | unsupportedComparison (operator : Filter.Operator)
  | unknownField (field model : String)
  | duplicateKey (column : String) (key : Value)
  | duplicateValues (values : Record) (resource : String)
  | pairLength (index length : Nat)
  | notJsonNumber
deriving Repr

/-- Violated constraints of a database. -/
inductive IntegrityFault
  | unique (table : String) (columns : List String)
  | notNull (table column : String)
  | datatype
deriving DecidableEq, Repr

/-- Failures without wording of their own. -/
inductive PlainFault
  | type
  | attribute
  | overflow
  | division
  | statement
  | compilation
  | argument
  | operational
  | binding
  | session
  | path
  | emptyNumeral
  | recursion
  | missingFile
  | address
deriving DecidableEq, Repr

/-- A failure. -/
inductive Error
  | malformed (fault : ParameterFault)
  | malformedFilter (fault : FilterFault)
  | unsupportedOperator (operator : Value)
  | nestingLimit (subject : Nesting) (depth limit : Nat)
  | fieldNotAllowed (field resource : String) (usage : Usage)
  | relationNotAllowed (path resource : String)
  | invalidPayload (resource : String) (reports : List Report)
  | noSoftDeletes (resource : String)
  | storeThroughRelation (resource : String)
  | denied (ability : Ability)
  | notFound (resource : String) (key : Value)
  | transaction (fault : TransactionFault)
  | configuration (fault : ConfigFault)
  | document (fault : Yaml.Fault)
  | lookup (fault : LookupFault)
  | value (fault : ValueFault)
  | integrity (fault : IntegrityFault)
  | validation (reports : List Report)
  | strayHookReply (label point : String) (reply : Value)
  | plain (fault : PlainFault)
  | raised (category : Category) (message : String)
deriving Repr, Inhabited

/-- The word for a use of a field. -/
def Usage.word : Usage → String
  | .filterable => "filterable"
  | .sortable => "sortable"
  | .searchable => "searchable"
  | .fillable => "fillable"
  | .selectable => "selectable"

/-- The wording of a fault in the parameters. -/
def ParameterFault.message : ParameterFault → String
  | .notBoolean name value => s!"Parameter '{name}' must be a boolean, got {value.describe}"
  | .notInteger name value => s!"Parameter '{name}' must be an integer, got {value.describe}"
  | .belowMinimum name minimum number => s!"Parameter '{name}' must be >= {minimum}, got {number}"
  | .notTextList name =>
      s!"Parameter '{name}' must be a comma separated string or a list of strings"
  | .notJson name detail => s!"Parameter '{name}' is not valid JSON: {detail}"
  | .sortEntry entry => s!"Sort entry must be an object with a field, got {entry.describe}"
  | .sortDirection direction => s!"Sort direction must be 'asc' or 'desc', got {direction.describe}"
  | .sortShape => "Parameter 'sort' must be a string or a list of sort entries"
  | .searchValue value => s!"Search value must be a string, got {value.describe}"
  | .notSearchable resource => s!"Resource '{resource}' is not searchable"
  | .key resource value => s!"Invalid key for resource '{resource}': {value.describe}"
  | .includesShape => "'includes' must be a list of relation entries"
  | .includeEntry entry => s!"Include entry must be an object with a relation, got {entry.describe}"
  | .payloadShape payload => s!"Resource payload must be an object, got {payload.describe}"
  | .resourcesShape .payloads => "'resources' must be a list of payloads"
  | .resourcesShape .keys => "'resources' must be a list of keys"
  | .resourcesShape .payloadsByKey => "'resources' must map keys to payloads"

/-- The wording of a fault in a filter entry. -/
def FilterFault.message : FilterFault → String
  | .notJson name detail => s!"Parameter '{name}' is not valid JSON: {detail}"
  | .notList => "Filters must be a list of filter entries"
  | .entryShape entry => s!"Filter entry must be an object, got {entry.describe}"
  | .entryType word => s!"Filter type must be 'and' or 'or', got {word.describe}"
  | .emptyNesting => "'nested' must be a non-empty list of filter entries"
  | .missingField entry => s!"Filter entry is missing a field: {entry.describe}"
  | .invalid field reason => s!"Invalid filter on '{field}': {reason}"

/-- The wording of a misused transaction. -/
def TransactionFault.message : TransactionFault → String
  | .alreadyActive => "A transaction is already active in this thread"
  | .noneActive => "No active transaction"
  | .abandoned => "Failed to commit transaction"

/-- The wording of an unknown name. -/
def LookupFault.message : LookupFault → String
  | .relation name resource => s!"Relation '{name}' is not declared on resource '{resource}'"
  | .relationTarget target => s!"Relation target '{target}' is not registered"
  | .column name => name
  | .scheme word => word

/-- The wording of a configuration fault. -/
def ConfigFault.message : ConfigFault → String
  | .alreadyRegistered name => s!"Resource '{name}' is already registered"
  | .unknownResource name => s!"Unknown resource: '{name}'"
  | .noBinding name => s!"No binding for resource: '{name}'"
  | .alreadyFinalized name => s!"Cannot bind '{name}': registry is already finalized"
  | .missingKeyColumn column resource => s!"Key column '{column}' missing on resource '{resource}'"
  | .missingSoftDeleteColumn column resource =>
      s!"Soft-delete column '{column}' missing on resource '{resource}'"
  | .unknownFields usage resource fields =>
      s!"Unknown {usage.word} fields on resource '{resource}': "
        ++ (Value.list (fields.map .text)).describe
  | .unknownTarget resource relation target =>
      s!"Relation '{resource}.{relation}' targets unknown resource '{target}'"
  | .missingForeignKey column resource relation owner =>
      s!"Foreign key '{column}' of relation '{resource}.{relation}' missing on resource '{owner}'"
  | .unresolvedInclude path resource cause =>
      s!"Include path '{path}' does not resolve on resource '{resource}': "
        ++ Text.quoted cause.message
  | .undeclaredAggregate relation resource =>
      s!"Aggregate relation '{relation}' is not declared on resource '{resource}'"
  | .invalidSettings _ => "Invalid nexrest configuration"
  | .missingFile path => s!"Configuration file not found: {path}"
  | .fileNotMapping path => s!"Configuration in {path} must be a mapping"
  | .sectionNotMapping => "'nexrest' section must be a mapping"
  | .malformedYaml => "YAML parsing error"
  | .unsetVariable name => s!"Environment variable '{name}' is not set"

/-- The wording of an unusable value. -/
def ValueFault.message : ValueFault → String
  | .tooManyDigits digits =>
      s!"Exceeds the limit (4300 digits) for integer string conversion: value has {digits} digits; "
        ++ "use sys.set_int_max_str_digits() to increase the limit"
  | .notNumeral text base =>
      s!"invalid literal for int() with base {base}: " ++ ((Text.quoted text).take 200).toString
  | .notDecimal text => "could not convert string to float: " ++ Text.quoted text
  | .outOfCalendar .year year => s!"year {year} is out of range"
  | .outOfCalendar .month _ => "month must be in 1..12"
  | .outOfCalendar .day _ => "day is out of range for month"
  | .outOfCalendar .hour _ => "hour must be in 0..23"
  | .outOfCalendar .minute _ => "minute must be in 0..59"
  | .outOfCalendar .second _ => "second must be in 0..59"
  | .offsetTooGreat seconds =>
      "offset must be a timedelta strictly between -timedelta(hours=24) and timedelta(hours=24), not "
        ++ Moment.spanText seconds ++ "."
  | .notMember value choice => s!"{value.describe} is not a valid {choice}"
  | .operandNotList operator kind =>
      s!"Invalid value type for operator {operator.label}: expected list, got {kind}"
  | .unsupportedComparison operator => s!"Unsupported operator: {operator.label}"
  | .unknownField field model => s!"Field '{field}' not found in model {model}"
  | .duplicateKey column key =>
      "Duplicate primary key: \x7b'" ++ column ++ "': " ++ key.describe ++ "\x7d"
  | .duplicateValues values resource =>
      s!"Duplicate value for unique {(Value.object values).describe} on '{resource}'"
  | .pairLength index length =>
      s!"dictionary update sequence element #{index} has length {length}; 2 is required"
  | .notJsonNumber => "Out of range float values are not JSON compliant"

/-- The wording of a violated constraint. -/
def IntegrityFault.message : IntegrityFault → String
  | .unique table columns =>
      "UNIQUE constraint failed: " ++ String.intercalate ", " (columns.map fun column => table ++ "." ++ column)
  | .notNull table column => s!"NOT NULL constraint failed: {table}.{column}"
  | .datatype => "datatype mismatch"

namespace PlainFault

/-- The family of a failure without wording. -/
def category : PlainFault → Category
  | .type => .type
  | .attribute => .attribute
  | .overflow => .overflow
  | .division => .division
  | .statement => .statement
  | .compilation => .compilation
  | .argument => .argument
  | .operational => .operational
  | .binding => .binding
  | .session => .session
  | .path => .path
  | .emptyNumeral => .emptyNumeral
  | .recursion => .recursion
  | .missingFile => .missingFile
  | .address => .address

end PlainFault

/-- The family of a fault in a configuration text. -/
def Yaml.Fault.category (fault : Yaml.Fault) : Category :=
  match fault.stage?, fault with
  | some stage, _ => .document stage
  | none, .codeTooGreat => .overflow
  | none, .codeBeyondCharacters => .value
  | none, _ => .recursion

/-- Whether a failure of a family has a wording. -/
def Category.isWorded : Category → Bool
  | .type | .attribute | .overflow | .division | .validation | .statement | .compilation | .argument
  | .operational | .binding | .session | .path | .emptyNumeral | .recursion | .missingFile | .address
  | .document _ => false
  | _ => true

namespace Error

/-- The family of an error. -/
def category : Error → Category
  | .malformed _ => .malformedRequest
  | .malformedFilter _ => .malformedFilter
  | .unsupportedOperator _ => .unsupportedOperator
  | .nestingLimit .. => .nestingLimit
  | .fieldNotAllowed .. => .fieldNotAllowed
  | .relationNotAllowed .. => .relationNotAllowed
  | .invalidPayload .. => .invalidPayload
  | .noSoftDeletes _ => .unsupportedOperation
  | .storeThroughRelation _ => .unsupportedOperation
  | .denied _ => .denied
  | .notFound .. => .notFound
  | .transaction _ => .transaction
  | .configuration _ => .configuration
  | .document fault => fault.category
  | .lookup _ => .lookup
  | .value _ => .value
  | .integrity _ => .integrity
  | .validation _ => .validation
  | .strayHookReply .. => .type
  | .plain fault => fault.category
  | .raised category _ => category

/-- The wording of an error. -/
def message : Error → String
  | .malformed fault => fault.message
  | .malformedFilter fault => fault.message
  | .unsupportedOperator operator => s!"Unsupported filter operator: {operator.describe}"
  | .nestingLimit subject depth limit =>
      let what := match subject with
        | .filters => "filters"
        | .relations => "relations"
      s!"Max nested depth of {what} exceeded: {depth} > {limit}"
  | .fieldNotAllowed field resource usage =>
      s!"Field '{field}' is not {usage.word} on resource '{resource}'"
  | .relationNotAllowed path resource =>
      s!"Relation '{path}' is not allowed on resource '{resource}'"
  | .invalidPayload resource _ => s!"Invalid payload for resource '{resource}'"
  | .noSoftDeletes resource => s!"Resource '{resource}' does not support soft deletes"
  | .storeThroughRelation resource => s!"Cannot store '{resource}' through this relation"
  | .denied ability => s!"This action is unauthorized: {ability.word}"
  | .notFound resource key => s!"Resource '{resource}' with key {key.describe} not found"
  | .transaction fault => fault.message
  | .configuration fault => fault.message
  | .document fault => fault.message
  | .lookup fault => fault.message
  | .value fault => fault.message
  | .integrity fault => fault.message
  | .validation _ => "The input is not valid"
  | .strayHookReply label point reply =>
      s!"Hook {label}.{point} must return a HookResult, got {reply.describe}"
  | .plain _ => ""
  | .raised _ message => message

/-- The validation reports that an error carries. -/
def reports : Error → List Report
  | .invalidPayload _ reports => reports
  | .validation reports => reports
  | .configuration (.invalidSettings reports) => reports
  | _ => []

/-- Whether the error has a wording. -/
def isWorded : Error → Bool
  | .strayHookReply .. => true
  | error => error.category.isWorded

/-- Whether the error is a fault of the request. -/
def isRequestError (error : Error) : Bool := error.category.isRequest

end Error

end ResourceServer

import RecordMap.Text.Utf8
import RecordMap.Value.Shown

/-!
# Faults

A fault says what went wrong and, from the outside in, what was being done at the time.  Each cause
is a case of its own, with the names and values it is about; the wording of all of them is in
`Cause.message`.  `Fault.context` puts a cause in front of a fault.
-/

namespace RecordMap

/-- Why a declaration is no model, or a record does not fit one. -/
inductive ModelFlaw
  | noTableName
  | emptyColumnName (field : String)
  | ignoredKey (field : String)
  | lengthOfNonText (field : String)
  | autoIncrementOfNonKey (field : String)
  | repeatedColumn (column : String)
  | secondKey
  | noKey
  | noStoredColumn
  | recordSize (values fields : Nat)
  | nothingToUpdate
  | emptyBatch
  | stated (text : String)
  deriving DecidableEq

namespace ModelFlaw

def message : ModelFlaw → String
  | .noTableName => "no table name"
  | .emptyColumnName f => "field `" ++ f ++ "` has an empty column name"
  | .ignoredKey f => "primary key `" ++ f ++ "` cannot be ignored"
  | .lengthOfNonText f => "max length on non-string field `" ++ f ++ "`"
  | .autoIncrementOfNonKey f =>
    "auto-increment field `" ++ f ++ "` must be an integer primary key"
  | .repeatedColumn c => "column `" ++ c ++ "` is declared more than once"
  | .secondKey => "more than one primary key column"
  | .noKey => "no primary key column"
  | .noStoredColumn => "no stored columns"
  | .recordSize values fields =>
    "record has " ++ Decimal.text values ++ " values but the model declares " ++ Decimal.text fields ++
      " fields"
  | .nothingToUpdate => "no columns to update besides the primary key"
  | .emptyBatch => "insert_many requires at least one record"
  | .stated text => text

end ModelFlaw

/-- Why a filter cannot be put into SQL. -/
inductive FilterFlaw
  | notStored (field model : String)
  | unknownField (field model : String)
  | capturedNonValue (name : String)
  | argumentCount (method : String) (count : Nat)
  | nullPattern (method : String)
  | unmatchable (method : String) (value : Value)
  | stated (text : String)
  deriving DecidableEq

namespace FilterFlaw

def message : FilterFlaw → String
  | .notStored field model => "field `" ++ field ++ "` of model `" ++ model ++ "` is not stored"
  | .unknownField field model => "model `" ++ model ++ "` has no field `" ++ field ++ "`"
  | .capturedNonValue name => "captured `" ++ name ++ "` does not resolve to a value"
  | .argumentCount method count =>
    "`" ++ method ++ "` takes one argument besides its receiver, got " ++ Decimal.text count
  | .nullPattern method => "`" ++ method ++ "` needs a non-null argument"
  | .unmatchable method value => "`" ++ method ++ "` cannot match against " ++ value.shown
  | .stated text => text

end FilterFlaw

/-- Why a text is no URL with a path. -/
inductive UrlFlaw
  | emptyHost
  | addressBrackets
  | hostCharacter
  | serviceNumber
  | path (flaw : Utf8.Flaw)
  deriving DecidableEq

namespace UrlFlaw

def message : UrlFlaw → String
  | .emptyHost => "empty host"
  | .addressBrackets => "invalid IPv6 address"
  | .hostCharacter => "invalid domain character"
  | .serviceNumber => "invalid port number"
  | .path flaw => flaw.message

end UrlFlaw

/-- Why a text is no connection string. -/
inductive ConnectionFlaw
  | noAssignment (segment : String)
  | unknownKey (key : String)
  | notMilliseconds (value : String)
  | notTruthValue (key value : String)
  | unknownJournalMode (value : String)
  | unsupportedVersion (value : String)
  | noPath
  | url (text : String) (flaw : UrlFlaw)
  | stated (text : String)
  deriving DecidableEq

namespace ConnectionFlaw

def message : ConnectionFlaw → String
  | .noAssignment segment => "expected `key=value`, found `" ++ segment ++ "`"
  | .unknownKey key => "unknown key `" ++ key ++ "`"
  | .notMilliseconds value =>
    "busy_timeout must be a number of milliseconds, found `" ++ value ++ "`"
  | .notTruthValue key value => "`" ++ key ++ "` must be a boolean, found `" ++ value ++ "`"
  | .unknownJournalMode value => "unknown journal mode `" ++ value ++ "`"
  | .unsupportedVersion value => "only version 3 is supported, found `" ++ value ++ "`"
  | .noPath => "missing `path`"
  | .url text flaw => text ++ ": " ++ flaw.message
  | .stated text => text

end ConnectionFlaw

/-- What was being done, or a remark in free words. -/
inductive Remark
  | declaring (field model : String)
  | describing (typeName : String)
  | writing (column table : String)
  | reading (column table : String)
  | absent (column table : String)
  | stated (text : String)
  deriving DecidableEq

namespace Remark

def message : Remark → String
  | .declaring field model => "field `" ++ field ++ "` of model `" ++ model ++ "`"
  | .describing typeName => "building descriptor for `" ++ typeName ++ "`"
  | .writing column table => "column `" ++ column ++ "` in table `" ++ table ++ "`"
  | .reading column table => "reading column `" ++ column ++ "` of table `" ++ table ++ "`"
  | .absent column table =>
    "column `" ++ column ++ "` of table `" ++ table ++ "` is missing from the result row"
  | .stated text => text

end Remark

/-- A failure reported from outside: its message and, one after the other, what lay behind it. -/
structure Report where
  message : String
  behind : List String
  deriving DecidableEq

def Report.messages (r : Report) : List String := r.message :: r.behind

inductive Cause
  | model (name : String) (flaw : ModelFlaw)
  | filter (flaw : FilterFlaw)
  | connection (flaw : ConnectionFlaw)
  | missingKey (table column : String) (value : Value)
  | nullComparison (symbol : String)
  | nullConstraint (table column : String)
  | conversion (value : Value) (target : String)
  | unsupportedOperator (symbol : String)
  | unstorable (type : String)
  | backend (sql : Option String) (report : Report)
  | foreign (report : Report)
  | remark (r : Remark)
  deriving DecidableEq

namespace Cause

def message : Cause → String
  | .model name flaw => "invalid model `" ++ name ++ "`: " ++ flaw.message
  | .filter flaw => "invalid expression: " ++ flaw.message
  | .connection flaw => "invalid connection string: " ++ flaw.message
  | .missingKey table column value =>
    "missing primary key `" ++ column ++ "` for table `" ++ table ++ "` (value: " ++
      value.shown ++ ")"
  | .nullComparison symbol =>
    "cannot compare against null with `" ++ symbol ++
      "`; only `=` and `!=` are defined for null"
  | .nullConstraint table column =>
    "null is not allowed for column `" ++ column ++ "` in table `" ++ table ++ "`"
  | .conversion value target => "cannot convert " ++ value.shown ++ " to " ++ target
  | .unsupportedOperator symbol => "unsupported operator `" ++ symbol ++ "` in filter expression"
  | .unstorable type => "unsupported type: " ++ type ++ " has no storage mapping"
  | .backend sql report =>
    "backend execution failed: " ++ String.intercalate ": " report.messages ++
      (match sql with
        | some text => "; sql=" ++ text
        | none => "")
  | .foreign report => report.message
  | .remark r => r.message

/-- The statement that the backend rejected, if it is known. -/
def sql? : Cause → Option String
  | .backend sql _ => sql
  | _ => none

/-- The sort of a cause, whatever names and values it is about. -/
inductive Kind
  | model
  | filter
  | connection
  | missingKey
  | nullComparison
  | nullConstraint
  | conversion
  | unsupportedOperator
  | unstorable
  | backend
  | foreign
  | remark
  deriving DecidableEq

def kind : Cause → Kind
  | .model _ _ => .model
  | .filter _ => .filter
  | .connection _ => .connection
  | .missingKey _ _ _ => .missingKey
  | .nullComparison _ => .nullComparison
  | .nullConstraint _ _ => .nullConstraint
  | .conversion _ _ => .conversion
  | .unsupportedOperator _ => .unsupportedOperator
  | .unstorable _ => .unstorable
  | .backend _ _ => .backend
  | .foreign _ => .foreign
  | .remark _ => .remark

/-- The messages behind the cause: a failure from outside is reported with all of its own. -/
def sources (c : Cause) : List String :=
  match c with
  | .backend _ report => c.message :: report.messages
  | .foreign report => report.messages
  | _ => []

end Cause

/-- A cause, and below it the causes that it was put in front of. -/
structure Fault where
  outer : Cause
  inner : List Cause
  deriving DecidableEq

namespace Fault

def ofCause (c : Cause) : Fault := ⟨c, []⟩

def causes (e : Fault) : List Cause := e.outer :: e.inner

/-- The cause that everything else was put in front of. -/
def root (e : Fault) : Cause := e.inner.getLastD e.outer

/-- The kind of what was put in front last. -/
def kind (e : Fault) : Cause.Kind := e.outer.kind

def message (e : Fault) : String := String.intercalate ": " (e.causes.map Cause.message)

/-- Puts `c` in front of `e`.  If `c` is more than one cause, only its text is kept. -/
def context (e c : Fault) : Fault :=
  if c.inner.isEmpty then ⟨c.outer, e.causes⟩ else ⟨.remark (.stated c.message), e.causes⟩

def sql? (e : Fault) : Option String := e.outer.sql?

def sources (e : Fault) : List String := e.outer.sources

end Fault

/-- The outcome of an operation that can fail. -/
abbrev Outcome (α : Type) := Except Fault α

namespace Outcome

def fail {α : Type} (c : Cause) : Outcome α := .error (Fault.ofCause c)

/-- Says what was being done when `x` failed. -/
def during {α : Type} (r : Remark) (x : Outcome α) : Outcome α :=
  x.mapError fun e => e.context (Fault.ofCause (.remark r))

end Outcome

end RecordMap

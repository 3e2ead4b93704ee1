/-! # Errors of the execution layer

The error values the modelled code returns, with the texts it puts in them.
-/
namespace Dodam.Execution
universe u

inductive DodamError
  | unsupportedSql (message : String)
  | invalidFilter (message : String)
  | unsupportedFilterType (column dataType : String)
  | unknownColumn (column : String)
  | ambiguousColumn (column : String)
  | unknownTableQualifier (qualifier : String)
  | invalidCast (message : String)
  | typeMismatch (message : String)
  | invalidAggregate (text : String)
  | unsupportedAggregateType (function column dataType : String)
  | unsupportedGroupByType (column dataType : String)
  | arrow
  | parquet (message : String)
deriving DecidableEq, Repr

/-- A call ends in an `Err` or in a panic. -/
inductive Failure
  | err (error : DodamError)
  | panicked
deriving DecidableEq, Repr

abbrev Result := Except Failure

def unsupportedSql {α : Type u} (message : String) : Result α := .error (.err (.unsupportedSql message))
def unknownColumn {α : Type u} (column : String) : Result α := .error (.err (.unknownColumn column))
def invalidFilter {α : Type u} (message : String) : Result α := .error (.err (.invalidFilter message))
def invalidCast {α : Type u} (message : String) : Result α := .error (.err (.invalidCast message))
def typeMismatch {α : Type u} (message : String) : Result α := .error (.err (.typeMismatch message))
def parquetGeneral {α : Type u} (message : String) : Result α := .error (.err (.parquet message))

end Dodam.Execution

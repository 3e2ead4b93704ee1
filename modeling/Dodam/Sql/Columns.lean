import Dodam.Sql.Literals

/-! # Column references

How a reference is resolved to the name of a column: for a query on one table,
where a qualifier is the table or the column of a struct field, and for a join,
where a name without a qualifier is given to a table by its prefix.
-/
namespace Dodam.Sql
open Foundation Execution

section Single
variable (host : Host) (tableAlias : Option String)

def sqlColumnName (expr : SqlExpr) : Result String :=
  match expr with
  | .identifier value => .ok value
  | .compoundIdentifier [qualifier,column] =>
    match tableAlias with
    | some table => if qualifier ≠ table then .error (.err (.unknownTableQualifier qualifier)) else .ok column
    | none => .ok (qualifier ++ "." ++ column)
  | .compoundIdentifier _ =>
    unsupportedSql s!"only table-qualified columns are supported, got {host.display expr}"
  | _ => unsupportedSql s!"expected column identifier, got {host.display expr}"

/-- The column and the path of fields of a reference into a struct. -/
def parseStructFieldAccess : SqlExpr → Option (String × String)
  | .compoundIdentifier parts =>
    match tableAlias,parts with
    | none,column :: field :: fields => some (column,".".intercalate (field :: fields))
    | some table,qualifier :: column :: field :: fields =>
      if qualifier = table then some (column,".".intercalate (field :: fields)) else none
    | _,_ => none
  | _ => none

end Single

section Join
variable (host : Host) (tableAliases : List String)

def inferTpchTableAlias (columnPrefix : String) : Option String :=
  let table := match (columnPrefix.toList.map Char.toLower) with
    | ['c'] => some "customer"
    | ['o'] => some "orders"
    | ['l'] => some "lineitem"
    | ['p'] => some "part"
    | ['p','s'] => some "partsupp"
    | ['s'] => some "supplier"
    | ['n'] => some "nation"
    | ['r'] => some "region"
    | _ => none
  table.bind fun table => tableAliases.find? fun candidate => eqIgnoreAsciiCase candidate table

def isTpchColumnPrefix (columnPrefix : String) : Bool :=
  columnPrefix.toList.map Char.toLower ∈ [['c'],['o'],['l'],['p'],['p','s'],['s'],['n'],['r']]

def validateJoinQualifier (qualifier : String) : Result Unit :=
  if tableAliases.any fun table => eqIgnoreAsciiCase table qualifier then .ok ()
  else .error (.err (.unknownTableQualifier qualifier))

def inferUnqualifiedJoinBound (column : String) : Result String :=
  let unclear {α : Type} : Result α := unsupportedSql s!"cannot infer JOIN table for unqualified column {column}"
  match splitOnce '_' column.toList with
  | none => .error (.err (.ambiguousColumn column))
  | some (columnPrefix,_) =>
    let text := String.ofList columnPrefix
    if (eqIgnoreAsciiCase text "supplier" || eqIgnoreAsciiCase text "total") &&
        tableAliases.any fun table => eqIgnoreAsciiCase table "revenue" then .ok ("revenue." ++ column)
    else
      match inferTpchTableAlias tableAliases text with
      | some table => .ok (table ++ "." ++ column)
      | none =>
        if isTpchColumnPrefix text then unknownColumn column
        else
          match columnPrefix with
          | [] => unclear
          | initial :: _ =>
            match tableAliases.filter fun table =>
                (table.toList.head?.map Char.toLower) = some initial.toLower with
            | [table] => .ok (table ++ "." ++ column)
            | _ => unclear

def joinColumnName (expr : SqlExpr) : Result String :=
  match expr with
  | .identifier value =>
    match splitOnce '.' value.toList with
    | some (qualifier,_) => (validateJoinQualifier tableAliases (String.ofList qualifier)).map fun _ => value
    | none => inferUnqualifiedJoinBound tableAliases value
  | .compoundIdentifier [column] => inferUnqualifiedJoinBound tableAliases column
  | .compoundIdentifier [qualifier,column] =>
    (validateJoinQualifier tableAliases qualifier).map fun _ => qualifier ++ "." ++ column
  | .compoundIdentifier _ =>
    unsupportedSql s!"only table-qualified columns are supported, got {host.display expr}"
  | _ => unsupportedSql s!"expected JOIN column, got {host.display expr}"

def parseJoinStructFieldAccess : SqlExpr → Result (Option (String × String))
  | .compoundIdentifier (qualifier :: column :: field :: fields) =>
    if tableAliases.any fun table => eqIgnoreAsciiCase table qualifier then
      .ok (some (qualifier ++ "." ++ column,".".intercalate (field :: fields)))
    else .error (.err (.unknownTableQualifier qualifier))
  | _ => .ok none

end Join
end Dodam.Sql

import SqlSyntax.Canonical.Piece
import SqlSyntax.Source

/-!
# Warnings

What a statement can be warned about. A warning does not keep a statement from
being accepted. It carries its cause as data; `Finding.code` is the stable name
of the cause and `Finding.message` its wording.
-/

namespace SqlSyntax

inductive WarningCode where
  | wildcardInAggregate
  | duplicateAlias
  | joinWithoutCondition
  | ungroupedColumn
  | aggregateInWhere
  | unknownQualifier
  | subqueryColumnCount
  | insertArityMismatch
  | missingWhere
  | duplicateColumn
  | multiplePrimaryKeys
  | havingWithoutGrouping
deriving DecidableEq, Repr

def WarningCode.text : WarningCode → String
  | .wildcardInAggregate => "wildcard_in_aggregate"
  | .duplicateAlias => "duplicate_alias"
  | .joinWithoutCondition => "join_without_condition"
  | .ungroupedColumn => "ungrouped_column"
  | .aggregateInWhere => "aggregate_in_where"
  | .unknownQualifier => "unknown_qualifier"
  | .subqueryColumnCount => "subquery_column_count"
  | .insertArityMismatch => "insert_arity_mismatch"
  | .missingWhere => "missing_where"
  | .duplicateColumn => "duplicate_column"
  | .multiplePrimaryKeys => "multiple_primary_keys"
  | .havingWithoutGrouping => "having_without_grouping"

/-- What there is to warn about. -/
inductive Finding where
  /-- `*` in a selection that groups or aggregates. -/
  | wildcardInAggregate
  /-- A relation whose name, in lower case, another one before it has. -/
  | repeatedRelation (name : String)
  /-- A column of the result whose name another one before it has. -/
  | repeatedAlias (name : String)
  | joinWithoutCondition (kind : JoinKind)
  /-- A column that is neither grouped by nor inside an aggregate. -/
  | ungroupedColumn (column : QualifiedName)
  | aggregateInWhere (function : QualifiedName)
  | aggregateInJoin (function : QualifiedName)
  | unknownQualifier (name : String)
  /-- A subquery with `count` columns where there should be one. -/
  | subqueryColumns (count : Nat)
  | rowLength (actual expected : Nat)
  /-- `UPDATE` or `DELETE` without a condition. -/
  | missingWhere (verb : Keyword)
  | repeatedColumn (name : String)
  | repeatedPrimaryKey
  | havingWithoutGrouping
deriving DecidableEq, Repr

namespace Finding

def code : Finding → WarningCode
  | .wildcardInAggregate => .wildcardInAggregate
  | .repeatedRelation _ | .repeatedAlias _ => .duplicateAlias
  | .joinWithoutCondition _ => .joinWithoutCondition
  | .ungroupedColumn _ => .ungroupedColumn
  | .aggregateInWhere _ | .aggregateInJoin _ => .aggregateInWhere
  | .unknownQualifier _ => .unknownQualifier
  | .subqueryColumns _ => .subqueryColumnCount
  | .rowLength .. => .insertArityMismatch
  | .missingWhere _ => .missingWhere
  | .repeatedColumn _ => .duplicateColumn
  | .repeatedPrimaryKey => .multiplePrimaryKeys
  | .havingWithoutGrouping => .havingWithoutGrouping

/-- The name of an aggregate in capitals. -/
def aggregateName (function : QualifiedName) : String := capitals (render function.pieces)

def message : Finding → String
  | .wildcardInAggregate => "Wildcard projected in a grouped or aggregated query"
  | .repeatedRelation name => "Table name or alias '" ++ name ++ "' is used more than once"
  | .repeatedAlias name => "Alias '" ++ name ++ "' is used more than once"
  | .joinWithoutCondition kind => kind.keyword.text ++ " JOIN has no ON or USING condition"
  | .ungroupedColumn column =>
    "Column '" ++ render column.pieces ++ "' is neither grouped nor aggregated"
  | .aggregateInWhere function =>
    "Aggregate " ++ aggregateName function ++ "() is not allowed in WHERE"
  | .aggregateInJoin function =>
    "Aggregate " ++ aggregateName function ++ "() is not allowed in a join condition"
  | .unknownQualifier name => "Unknown table or alias '" ++ name ++ "'"
  | .subqueryColumns count =>
    "Subquery returns " ++ toString count ++ " columns where one is expected"
  | .rowLength actual expected =>
    "Row has " ++ toString actual ++ " values but " ++ toString expected ++ " are expected"
  | .missingWhere verb => verb.text ++ " without WHERE affects every row"
  | .repeatedColumn name => "Column '" ++ name ++ "' is defined more than once"
  | .repeatedPrimaryKey => "Table defines more than one primary key"
  | .havingWithoutGrouping => "HAVING is used without GROUP BY or aggregates"

end Finding

/-- A finding and the bytes of the source that it is about. -/
structure Warning where
  finding : Finding
  span : Span
deriving DecidableEq, Repr

namespace Warning

def code (w : Warning) : WarningCode := w.finding.code

def message (w : Warning) : String := w.finding.message

/-- The warning as a line of text. -/
def describe (w : Warning) : String := "[" ++ w.code.text ++ "] " ++ w.message

end Warning

end SqlSyntax

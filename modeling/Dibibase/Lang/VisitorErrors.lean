import Dibibase.Lang.Visitor
import Dibibase.Library.Execution

/-!
# What the visitor throws

The visitor throws `unsupported_cql_statement_error` at the first part of a statement that it has no
case for. Before it gets there it may meet a part that is missing, and then its behaviour is undefined.
-/

namespace Dibibase

open Library

namespace CqlParser

/-- The visitor has a value for the expression. -/
def Expression.Supported : Expression → Prop
  | .constant value => value ≠ .other
  | .assignment => False

/-- The visitor has a condition for the relation. -/
def Relation.Supported (relation : Relation) : Prop :=
  relation.objectNames ≠ [] ∧ ∃ constant, relation.constant = some constant ∧ constant ≠ .other

/-- A relation of a column with something else than a constant of the supported kinds. -/
def Relation.Unsupported (relation : Relation) : Prop :=
  relation.objectNames ≠ [] ∧ relation.constant = some .other

/-- There is a part that the visitor does not support, and in front of it nothing is missing. -/
def Cql.Unsupported : Cql → Prop
  | .createTable ctx => ∃ column ∈ ctx.columns, column.dataType = .other
  | .insert ctx => ∀ expressions, ctx.expressionList = some expressions →
      ∃ expression ∈ expressions, ¬expression.Supported
  | .select ctx => SelectElement.functionCall none ∉ ctx.selectElements ∧
      ∃ before relation after, ctx.whereSpec.getD [] = before ++ relation :: after ∧
        (∀ other ∈ before, other.Supported) ∧ relation.Unsupported

end CqlParser

namespace CQL3Visitor

open CqlParser

variable {strtold : List UInt8 → BitVec 64} {e : Exception}

end CQL3Visitor

end Dibibase

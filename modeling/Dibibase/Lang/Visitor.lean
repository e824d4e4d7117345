import Dibibase.Lang.Statements

/-!
# From parse trees to statements

What the visitor makes of the parse trees of the three statements that are executed. The
contexts hold what the visitor looks at; a clause that is not there is a null pointer in the
source. A statement keeps, besides what its execution needs, the names that responses use.
-/

namespace Dibibase

namespace CqlParser

/-- `constant`. A UUID, a hexadecimal literal, a code block and `null` are `other`. -/
inductive Constant where
  | stringLiteral (text : List UInt8)
  | decimalLiteral (text : List UInt8)
  | floatLiteral (text : List UInt8)
  | booleanLiteral (value : Bool)
  | other
  deriving DecidableEq, Repr

/-- `expression`: a constant, or a map, set, list or tuple. -/
inductive Expression where
  | constant (constant : Constant)
  | assignment
  deriving DecidableEq, Repr

inductive DataTypeName where
  | ascii (decimalLiteral : List UInt8)
  | bigint | boolean | double | float | int | smallint | tinyint
  | blob (decimalLiteral : List UInt8)
  | other
  deriving DecidableEq, Repr

structure ColumnDefinition where
  column : List UInt8
  dataType : DataTypeName
  /-- Whether `PRIMARY KEY` stands behind the type. -/
  primary : Bool
  deriving DecidableEq, Repr

/-- `primaryKeyDefinition`, of each list the first element. -/
inductive PrimaryKeyDefinition where
  | singlePrimaryKey (column : List UInt8)
  | compoundKey (partitionKey clusteringKey : List UInt8)
  | compositeKey (partitionKey clusteringKey : List UInt8)
  deriving DecidableEq, Repr

structure CreateTable where
  keyspace : Option (List UInt8)
  table : List UInt8
  columns : List ColumnDefinition
  primaryKey : Option PrimaryKeyDefinition
  deriving DecidableEq, Repr

structure Insert where
  keyspace : Option (List UInt8)
  table : List UInt8
  insertColumnSpec : Option (List (List UInt8))
  /-- `VALUES` with expressions; nothing stands for a JSON constant. -/
  expressionList : Option (List Expression)
  /-- Whether there is a `USING` clause. -/
  usingTtlTimestamp : Bool
  deriving DecidableEq, Repr

/-- `selectElement`: names, of which the second is the alias, or a function call with its alias. -/
inductive SelectElement where
  | column (name : List UInt8) (asName : Option (List UInt8))
  | functionCall (asName : Option (List UInt8))
  deriving DecidableEq, Repr

/-- `relationElement`: the names that stand in it directly, its operator and its constant. -/
structure Relation where
  objectNames : List (List UInt8)
  op : Option Operator
  constant : Option Constant
  deriving DecidableEq, Repr

structure Select where
  selectElements : List SelectElement
  keyspace : Option (List UInt8)
  table : List UInt8
  whereSpec : Option (List Relation)
  deriving DecidableEq, Repr

inductive Cql where
  | createTable (ctx : CreateTable)
  | insert (ctx : Insert)
  | select (ctx : Select)
  deriving DecidableEq, Repr

end CqlParser

/-- `CreateTableStatement`, `InsertStatement` and `SelectStatement`. -/
inductive CqlStatement where
  | createTable (keyspace table : List UInt8) (schema : Schema)
  | insert (keyspace table : List UInt8) (columns : List (List UInt8)) (values : List Data)
  | select (keyspace table : List UInt8) (relations : List RelationElement)
  deriving DecidableEq, Repr

namespace CqlStatement

/-- What routing and execution use of a statement. -/
def statement : CqlStatement → Statement
  | createTable _ table schema => .createTable table schema
  | insert _ table _ values => .insert table values
  | select _ table relations => .select table relations

/-- `execute(db)`. The columns that an `INSERT` names are not used. -/
def execute (stmt : CqlStatement) : Method Database (Option Record) := stmt.statement.execute

end CqlStatement

namespace CQL3Visitor

open CqlParser

variable (strtold : List UInt8 → BitVec 64)

/-- The values of literals. A decimal literal is cut to the 32 bits of an `int`, and the C
library's `strtold` reads a float literal. -/
def visitConstant : Constant → Except Exception Data
  | .stringLiteral text => return .ascii text
  | .decimalLiteral text => return .int ((strtoll text).setWidth 32)
  | .floatLiteral text => return .double (strtold text)
  | .booleanLiteral value => return .boolean value
  | .other => throw .unsupportedCqlStatement

def visitExpression : Expression → Except Exception Data
  | .constant constant => visitConstant strtold constant
  | .assignment => throw .unsupportedCqlStatement

/-- Types with their sizes. The length in brackets is cut to 32 bits. -/
def visitDataTypeName : DataTypeName → Except Exception DataType
  | .ascii text => return ⟨.ascii, (strtoll text).setWidth 32⟩
  | .bigint => return ⟨.bigint, 8⟩
  | .boolean => return ⟨.boolean, 1⟩
  | .double => return ⟨.double, 8⟩
  | .float => return ⟨.float, 4⟩
  | .int => return ⟨.int, 4⟩
  | .smallint => return ⟨.smallint, 2⟩
  | .tinyint => return ⟨.tinyint, 1⟩
  | .blob text => return ⟨.blob, (strtoll text).setWidth 32⟩
  | .other => throw .unsupportedCqlStatement

def visitPrimaryKeyDefinition : PrimaryKeyDefinition → List UInt8 × List UInt8
  | .singlePrimaryKey column => (column, column)
  | .compoundKey partition cluster => (partition, cluster)
  | .compositeKey partition cluster => (partition, cluster)

/-- The loop over the columns that sets the keys a `PRIMARY KEY` clause names, from the field with
index `i` on. -/
def setKeys (names : List UInt8 × List UInt8) : Nat → List Field → Schema → Schema
  | _, [], schema => schema
  | i, field :: fields, schema =>
    let schema :=
      if field.name = names.1 then schema.setPartitionKeyIndex (BitVec.ofNat 64 i) else schema
    let schema :=
      if field.name = names.2 then schema.setSortKeyIndex (BitVec.ofNat 64 i) else schema
    setKeys names (i + 1) fields schema

/-- The columns, from the one with index `i` on. -/
def visitColumnDefinitions : Nat → List ColumnDefinition → Schema → Except Exception Schema
  | _, [], schema => return schema
  | i, column :: columns, schema => do
    let type ← visitDataTypeName column.dataType
    let schema := schema.pushBack ⟨column.column, type⟩
    visitColumnDefinitions (i + 1) columns
      (if column.primary then
        (schema.setPartitionKeyIndex (BitVec.ofNat 64 i)).setSortKeyIndex (BitVec.ofNat 64 i)
      else schema)

def visitColumnDefinitionList (columns : List ColumnDefinition)
    (primaryKey : Option PrimaryKeyDefinition) : Except Exception Schema := do
  let schema ← visitColumnDefinitions 0 columns ⟨0, 0, []⟩
  match primaryKey with
  | none => return schema
  | some definition => return setKeys (visitPrimaryKeyDefinition definition) 0 schema.fields schema

def visitCreateTable (ctx : CreateTable) : Except Exception CqlStatement :=
  return .createTable (ctx.keyspace.getD []) ctx.table
    (← visitColumnDefinitionList ctx.columns ctx.primaryKey)

/-- The `USING` clause is visited whether it is there or not. -/
def visitUsingTtlTimestamp (present : Bool) : Except Exception Unit :=
  if present then return () else throw .undefinedBehaviour

def visitInsert (ctx : Insert) : Except Exception CqlStatement := do
  match ctx.expressionList with
  | none => throw .unsupportedCqlStatement
  | some expressions => do
    let values ← expressions.mapM (visitExpression strtold)
    visitUsingTtlTimestamp ctx.usingTtlTimestamp
    return .insert (ctx.keyspace.getD []) ctx.table (ctx.insertColumnSpec.getD []) values

/-- The name of an element, which a function call has only as its alias. -/
def visitSelectElement : SelectElement → Except Exception (List UInt8)
  | .column name _ => return name
  | .functionCall (some asName) => return asName
  | .functionCall none => throw .undefinedBehaviour

def visitRelationElement (ctx : Relation) : Except Exception RelationElement := do
  let column ← match ctx.objectNames with
    | _ :: column :: _ => pure column
    | [column] => pure column
    | [] => throw .undefinedBehaviour
  match ctx.constant with
  | none => throw .undefinedBehaviour
  | some constant =>
    return ⟨column, ctx.op.getD .eq, ← visitConstant strtold constant⟩

def visitSelect (ctx : Select) : Except Exception CqlStatement := do
  let _ ← ctx.selectElements.mapM visitSelectElement
  let relations ← (ctx.whereSpec.getD []).mapM (visitRelationElement strtold)
  return .select (ctx.keyspace.getD []) ctx.table relations

def visitCql : Cql → Except Exception CqlStatement
  | .createTable ctx => visitCreateTable ctx
  | .insert ctx => visitInsert strtold ctx
  | .select ctx => visitSelect strtold ctx

end CQL3Visitor

end Dibibase

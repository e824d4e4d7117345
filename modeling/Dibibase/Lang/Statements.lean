import Dibibase.Db.Database

/-!
# Statements

The statements that the server executes, with the routing key that each takes from its own
data and its effect on the database of a node.
-/

namespace Dibibase

open Library

/-- `RelationElement::Operator`. -/
inductive Operator where
  | eq | lt | gt | lte | gte
  deriving DecidableEq, Repr

structure RelationElement where
  column : List UInt8
  op : Operator
  operand : Data
  deriving DecidableEq, Repr

inductive Statement where
  | createTable (table : List UInt8) (schema : Schema)
  | insert (table : List UInt8) (values : List Data)
  | select (table : List UInt8) (relations : List RelationElement)
  deriving DecidableEq, Repr

namespace Statement

/-- `partition_key()`. An `INSERT` takes the second of its values, and a `SELECT` the operand of
its first relation. -/
def partitionKey : Statement → Except Exception (Option (List UInt8))
  | createTable _ _ => return none
  | insert _ values => do
    match values[1]? with
    | none => throw .undefinedBehaviour
    | some value => return some (← value.print)
  | select _ relations => do
    match relations[0]? with
    | none => throw .undefinedBehaviour
    | some relation => return some (← relation.operand.print)

/-- `execute(db)`. -/
def execute : Statement → Method Database (Option Record)
  | createTable table schema => do
    Database.createTable table schema
    return none
  | insert table values => do
    Database.writeRecord table ⟨values.map Data.clone⟩
    return none
  | select table relations => do
    match relations[0]? with
    | none => throw .undefinedBehaviour
    | some relation =>
      let db := (← get).1
      return some (← Method.ofProcess (db.readRecord table relation.operand.clone))

end Statement

end Dibibase

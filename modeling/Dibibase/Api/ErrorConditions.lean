import Dibibase.Api.ErrorHandling
import Dibibase.Api.RecordText
import Dibibase.Api.SelectBounds
import Dibibase.Db.Shutdown
import Dibibase.Db.TableErrors
import Dibibase.Lang.VisitorErrors

/-!
# When a statement is answered

Whether a response comes back depends on the statement, on the tables of the keyspace and of the
server's own database, and on the files of the SSTables. Nothing in the conditions here is a result of
the run: they say when no step throws an exception that the two handlers do not catch, and when no
step rests on the end of `StatementExecutor::execute`, which returns nothing there.
-/

namespace Dibibase

open Library

namespace QueryResult

/-! ### Results that cannot be written -/

/-- No exception of the function is caught by the handlers of `CreateResponse`. -/
def Unhandled {α : Type} (m : BodyM α) : Prop :=
  ∀ body e body', m body = .error e body' → ¬ServerMsg.Handled e

namespace Unhandled

variable {α β : Type}

lemma bind {m : BodyM α} {f : α → BodyM β} (hm : Unhandled m) (hf : ∀ a, Unhandled (f a)) :
    Unhandled (m >>= f) := by
  intro body e body' h
  cases hrun : m body with
  | ok a body₁ =>
    rw [bind_of_ok hrun] at h
    exact hf a body₁ e body' h
  | error e₁ body₁ =>
    rw [bind_of_error hrun] at h
    cases h
    exact hm body _ _ hrun

lemma ofExcept {x : Except Exception α} (h : ∀ e, x = .error e → ¬ServerMsg.Handled e) :
    Unhandled (BodyM.ofExcept x) := by
  intro body e body' hrun
  cases x with
  | ok a => cases hrun
  | error e' =>
    cases hrun
    exact h _ rfl

end Unhandled

lemma Prints.clone {value : Data} (h : Prints value) : value.clone = value := by
  cases value <;> simp [Prints, Data.type, Data.clone] at h ⊢

/-- The text of a record that prints: its values with their types, and a bar behind each. -/
def recordText (record : Record) : List UInt8 := (pieces record.values).flatMap (fun e => e ++ [124])

end QueryResult

namespace ServerMsg

open QueryResult TableManager

/-! ### Conditions on the databases and the files -/

/-- The keyspace database of the node: it is open, or it is what the constructor makes of the directory. -/
def Serves (env : Environment) (st : Server × Posix Path) (db : Database) : Prop :=
  OrderedMap.find nameLt (StatementExecutor.keyspace env.config.localAddress) st.1.store.keyspaces =
      .ok (some db) ∨
    OrderedMap.find nameLt (StatementExecutor.keyspace env.config.localAddress) st.1.store.keyspaces =
        .ok none ∧
      Database.Catalogued (StatementExecutor.keyspace env.config.localAddress) st.2 db

/-- The server's own database has the table, and a result with this text fits into the array. -/
def Shown (db : Database) (keyspace table recordStr : List UInt8) : Prop :=
  ∃ tm, OrderedMap.find nameLt table db.tableManagers = .ok (some tm) ∧
    QueryResult.Fits keyspace table tm.schema.fields recordStr

/-- The lookup compares keys of one kind only, and the record with the key, if there is one, is shown. -/
def Readable (env : Environment) (own : Database) (files : Posix Path) (keyspace table : List UInt8)
    (tm : TableManager) (key : Data) : Prop :=
  ∃ t layers, Kept t (tm, files) layers ∧ Alike t tm key ∧
    ∀ record, contents tm layers key = some record →
      Partitioner.isLocal env.config (textOf key) = true ∧ (∀ value ∈ record.values, Prints value) ∧
        Shown own keyspace table (recordText record)

/-- The databases are well formed as far as the statement uses them. -/
def WellFormed (env : Environment) (st : Server × Posix Path) : CqlStatement → Prop
  | .createTable _ _ _ => ∃ db, Serves env st db
  | .insert _ table _ _ => ∃ db, Serves env st db ∧
      ∀ tm, OrderedMap.find nameLt table db.tableManagers = .ok (some tm) → tm.OwnKeys
  | .select _ table _ =>
    (∀ tm, OrderedMap.find nameLt table st.1.db.tableManagers = .ok (some tm) →
      ∀ field ∈ tm.schema.fields, field.name.length < 2 ^ 31) ∧
    ∃ db, Serves env st db ∧
      ∀ tm, OrderedMap.find nameLt table db.tableManagers = .ok (some tm) →
        ∃ t layers, Kept t (tm, st.2) layers

/-- A query is not parsed, its visitor meets an unsupported part, or the condition holds of its statement. -/
def Condition (env : Environment) (f : Frame) (cql : CqlParser.Cql) (P : CqlStatement → Prop) : Prop :=
  59 ∉ extractQuery false (f.body.getD []) ∨ cql.Unsupported ∨
    ∃ stmt, CQL3Visitor.visitCql env.strtold cql = .ok stmt ∧ P stmt

section Conditions

variable {env : Environment} {st : Server × Posix Path} {db : Database} {keyspace table : List UInt8}

/-- The keyspace database is used as it is in the condition. -/
lemma Serves.getKeyspace (h : Serves env st db) :
    ∃ st', StateStore.getKeyspace (StatementExecutor.keyspace env.config.localAddress)
        (st.1.store, st.2) = .ok db st' ∧ (db.tableManagers ≠ [] → st'.2.files = st.2.files) := by
  rcases h with hfind | ⟨hfind, hcatalogued⟩
  · exact ⟨(st.1.store, st.2), getKeyspace_used hfind, fun _ => rfl⟩
  · obtain ⟨s, hopen, hfiles⟩ := hcatalogued.opens
    obtain ⟨keyspaces, hget, -⟩ := @getKeyspace_opens _ db (st.1.store, st.2) hfind s hopen
    exact ⟨_, hget, hfiles⟩

/-- A lookup on the node, as `Answers` has it. -/
abbrev LooksUp (env : Environment) (own : Database) (keyspace table : List UInt8) (tm : TableManager)
    (key : Data) (s : Posix Path) : Prop :=
  match tm.readRecord key s with
  | .ok record _ => ∃ recordStr,
      (if Partitioner.isLocal env.config (textOf key) then ResultSerializer.serialize (some record)
        else .ok (text "All nodes have been updated")) = .ok recordStr ∧
        Formats env own keyspace table recordStr
  | .error e _ => Handled e

variable {own : Database} {tm : TableManager} {key : Data} {s s' : Posix Path} {t : DataType}
  {layers : List (List (Data × Record))}

variable {query : List UInt8} {stmt : CqlStatement}

/-- The tables that a database makes by its calls are kept. -/
lemma kept_of_managed {base name : List UInt8} {schema : Schema} {store : LayeredStore Data Record}
    (h : Database.Managed base name (tm, s) schema store) : ∃ t layers, Kept t (tm, s) layers := by
  obtain ⟨t, -, ht, hrepresents⟩ := h.represents
  obtain ⟨layers, hfrozen, -⟩ := hrepresents.frozen
  have hrow : tm.schema.recordSize < 2 ^ 31 := by
    rw [show tm.schema = schema from h.sameSchema]
    exact h.fits.row
  exact ⟨t, layers, ⟨hrepresents.memtable, hrepresents.sized, hrepresents.small, hfrozen.frozenRows⟩, hrow,
    fun _ => ⟨.inl ht, by rcases ht with rfl | rfl | rfl | rfl <;> decide⟩⟩

/-- In any state that calls lead to from new directories, the databases are well formed. -/
lemma wellFormed_of_holds {c c' : Database.Contents} (hdb : Serves env st db)
    (hholds : Database.Holds (db, st.2) c) (hown : Database.Holds (st.1.db, st.2) c')
    (stmt : CqlStatement) : WellFormed env st stmt := by
  have hkept : ∀ table tm, OrderedMap.find nameLt table db.tableManagers = .ok (some tm) →
      ∃ t layers, Kept t (tm, st.2) layers := by
    intro table tm hfind
    obtain ⟨schema, store, -, hm⟩ := hholds.tables (table, tm)
      (Database.mem_of_find hholds.sorted hfind)
    exact kept_of_managed hm
  cases stmt with
  | createTable keyspace table schema => exact ⟨db, hdb⟩
  | insert keyspace table columns values =>
    refine ⟨db, hdb, fun tm hfind p hp => ?_⟩
    obtain ⟨t, layers, h⟩ := hkept table tm hfind
    exact ⟨h.holding.memtable.verified p hp, h.holding.memtable.sortKey p hp⟩
  | select keyspace table relations =>
    refine ⟨fun tm hfind field hfield => ?_, db, hdb, fun tm hfind => hkept table tm hfind⟩
    obtain ⟨schema, store, -, hm⟩ := hown.tables (table, tm) (Database.mem_of_find hown.sorted hfind)
    have hschema : tm.schema = schema := hm.sameSchema
    rw [hschema] at hfield
    have hlength := hm.fits.fieldNames field hfield
    omega

end Conditions

/-! ### The end of `StatementExecutor::execute` -/

section FlowsOff

variable {env : Environment} {query : List UInt8} {st : Server × Posix Path} {stmt : CqlStatement}
  {keyspace table : List UInt8}

end FlowsOff

/-! ### The theorem -/

section Theorem

variable {env : Environment} {query : List UInt8} {cql : CqlParser.Cql} {st : Server × Posix Path}
  {f : Frame}

lemma Condition.mono {P Q : CqlStatement → Prop} (h : Condition env f cql P)
    (hPQ : ∀ stmt, CQL3Visitor.visitCql env.strtold cql = .ok stmt → P stmt → Q stmt) :
    Condition env f cql Q := by
  rcases h with hsemicolon | hunsupported | ⟨stmt, hvisit, hP⟩
  · exact .inl hsemicolon
  · exact .inr (.inl hunsupported)
  · exact .inr (.inr ⟨stmt, hvisit, hPQ stmt hvisit hP⟩)

end Theorem

/-! ### A row that is found, and a row that is refused -/

end ServerMsg

end Dibibase

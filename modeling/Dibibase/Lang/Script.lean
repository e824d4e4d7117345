import Dibibase.Db.Shutdown
import Dibibase.Lang.Meaning
import Dibibase.Lang.Visitor

/-!
# Scripts

The program `lang` executes the statements of a file one after the other on the database in the
directory `database`. It prints the name of the table of each statement and the values that a
`SELECT` has found, one to a line. Nothing catches an exception, so that the first one ends the
program behind what has been printed; the destructor of the database runs only at the end of the
file.
-/

namespace Dibibase

open Library

/-- `m_table`, or that of the `FROM` clause. -/
def CqlStatement.table : CqlStatement → List UInt8
  | createTable _ table _ => table
  | insert _ table _ _ => table
  | select _ table _ => table

namespace Script

/-- The database of the program, and what it has written to the standard output. -/
structure State where
  db : Database
  out : List UInt8

/-- A line with its end, which `std::endl` writes. -/
def endLine (out line : List UInt8) : List UInt8 := out ++ line ++ [10]

def putLine (line : List UInt8) : Method State Unit :=
  modify (fun st => ({ st.1 with out := endLine st.1.out line }, st.2))

/-- A call on the database. -/
def onDatabase {α : Type} (m : Method Database α) : Method State α := fun st =>
  match m (st.1.db, st.2) with
  | .ok a st' => .ok a (⟨st'.1, st.1.out⟩, st'.2)
  | .error e st' => .error e (⟨st'.1, st.1.out⟩, st'.2)

/-- One round of the loop over the statements. -/
def executeStatement (stmt : CqlStatement) : Method State Unit := do
  let result ← onDatabase stmt.execute
  putLine stmt.table
  match stmt with
  | .createTable _ _ _ | .insert _ _ _ _ => return ()
  | .select _ _ _ =>
    match result with
    | none => return ()
    | some record => record.values.forM (fun value => do
      let line ← Method.ofExcept value.print
      putLine line)

/-- `main()`, with the text of the file. The state is the standard output and the process. -/
def main (root : List UInt8 → List CqlParser.Cql) (strtold : List UInt8 → BitVec 64)
    (input : List UInt8) : Method (List UInt8) Unit := do
  let statements ← Method.ofExcept ((root input).mapM (CQL3Visitor.visitCql strtold))
  let db ← Method.ofProcess (Database.open (text "database"))
  let db ← fun st =>
    match statements.forM executeStatement (⟨db, st.1⟩, st.2) with
    | .ok _ st' => .ok st'.1.db (st'.1.out, st'.2)
    | .error e st' => .error e (st'.1.out, st'.2)
  Method.ofProcess db.flushMetadata

/-! ### What a script prints -/

/-- The contents of the database and the text that has been printed. -/
abbrev Meaning := EStateM Exception (Database.Contents × List UInt8)

def emit (line : List UInt8) : Meaning Unit := modify (fun st => (st.1, endLine st.2 line))

def onContents {α : Type} (m : EStateM Exception Database.Contents α) : Meaning α := fun st =>
  match m st.1 with
  | .ok a c => .ok a (c, st.2)
  | .error e c => .error e (c, st.2)

/-- The texts of values, as far as they have one. -/
def emitValues (values : List Data) : Meaning Unit :=
  values.forM (fun value =>
    match value.print with
    | .ok line => emit line
    | .error e => throw e)

/-- A statement works on the contents, and prints its table and what it has found. -/
def mean (stmt : CqlStatement) : Meaning Unit := do
  let result ← onContents stmt.statement.mean
  emit stmt.table
  match result with
  | none => return ()
  | some record => emitValues record.values

/-- The database holds the contents, and the same text has been printed. -/
structure Prints (st : State × Posix Path) (m : Database.Contents × List UInt8) : Prop where
  holds : Database.Holds (st.1.db, st.2) m.1
  out : st.1.out = m.2

lemma relates_onDatabase {α : Type} {m : Method Database α} {n : EStateM Exception Database.Contents α}
    (h : Relates Database.Fails Database.Holds m n) :
    Relates Database.Fails Prints (onDatabase m) (onContents n) := by
  rintro st c ⟨hholds, hout⟩
  unfold onDatabase onContents
  rcases (h _ _ hholds).cases with ⟨a, st', c', hm, hn, h'⟩ | ⟨e, d, st', c', hm, hn, hfails, h'⟩
  · rw [hm, hn]
    exact .ok a ⟨h', hout⟩
  · rw [hm, hn]
    exact .error hfails ⟨h', hout⟩

lemma relates_putLine (line : List UInt8) :
    Relates Database.Fails Prints (putLine line) (emit line) := by
  rintro st c ⟨hholds, hout⟩
  exact .ok () ⟨hholds, congrArg (endLine · line) hout⟩

lemma relates_values (values : List Data) :
    Relates Database.Fails Prints (values.forM (fun value => do
      let line ← Method.ofExcept value.print
      putLine line)) (emitValues values) := by
  refine Relates.forM (fun value _ => ?_)
  rintro st c h
  cases hprint : value.print with
  | ok line =>
    rw [bind_of_ok (Method.ofExcept_ok rfl st)]
    exact relates_putLine line st c h
  | error e =>
    rw [bind_of_error (Method.ofExcept_error rfl st)]
    exact .error (.refl e) h

/-- A statement other than a `SELECT` finds nothing. -/
lemma result_eq_none {stmt : CqlStatement} {m m' : Database.Contents × List UInt8}
    {result : Option Record} (h : onContents stmt.statement.mean m = .ok result m')
    (hselect : ∀ k t r, stmt ≠ .select k t r) : result = none := by
  unfold onContents at h
  split at h
  · rename_i a c hmean
    cases h
    cases stmt with
    | createTable keyspace table schema =>
      obtain ⟨u, c₁, -, hreturn⟩ := bind_eq_ok hmean
      cases hreturn
      rfl
    | insert keyspace table columns values =>
      obtain ⟨u, c₁, -, hreturn⟩ := bind_eq_ok hmean
      cases hreturn
      rfl
    | select keyspace table relations => exact absurd rfl (hselect _ _ _)
  · cases h

/-- The round of a statement prints what the statement means. -/
lemma relates_executeStatement {stmt : CqlStatement} (hfits : stmt.statement.Fits) :
    Relates Database.Fails Prints (executeStatement stmt) (mean stmt) := by
  intro st m h
  rcases (relates_onDatabase (Statement.relates_execute hfits) st m h).cases with
    ⟨result, st', m', hrun, hmean, h'⟩ | ⟨e, d, st', m', hrun, hmean, hfails, h'⟩
  · rw [executeStatement, mean, bind_of_ok hmean, CqlStatement.execute, bind_of_ok hrun]
    refine (relates_putLine stmt.table).bind (fun _ => ?_) st' m' h'
    cases stmt with
    | createTable keyspace table schema =>
      rw [result_eq_none hmean (by simp)]
      exact Relates.pure ()
    | insert keyspace table columns values =>
      rw [result_eq_none hmean (by simp)]
      exact Relates.pure ()
    | select keyspace table relations =>
      cases result with
      | none => exact Relates.pure ()
      | some record => exact relates_values record.values
  · rw [executeStatement, mean, bind_of_error hmean, CqlStatement.execute, bind_of_error hrun]
    exact .error hfails h'

/-- What the statements of a script make of an empty database, and what they print. -/
def interpret (statements : List CqlStatement) :
    EStateM.Result Exception (Database.Contents × List UInt8) Unit :=
  statements.forM mean (fun _ => none, [])

/-- The text that a run of the interpreter has printed, whether it came to the end or not. -/
def printed : EStateM.Result Exception (Database.Contents × List UInt8) Unit → List UInt8
  | .ok _ m => m.2
  | .error _ m => m.2

/-- Every script that starts without tables prints what its statements mean. If they fail at one
of them the program ends there for the same reason, and otherwise it ends with the destructor of a
database that holds what they mean. -/
theorem main_prints (root : List UInt8 → List CqlParser.Cql) (strtold : List UInt8 → BitVec 64)
    (input : List UInt8) {statements : List CqlStatement} {s : Posix Path}
    (hparsed : (root input).mapM (CQL3Visitor.visitCql strtold) = .ok statements)
    (hfits : ∀ stmt ∈ statements, stmt.statement.Fits)
    (hfresh : Database.Fresh (text "database") s) :
    ((main root strtold input).after ([], s)).1 = printed (interpret statements) ∧
      match interpret statements with
      | .ok _ m => ∃ db s', Database.Holds (db, s') m.1 ∧
          main root strtold input ([], s) = Method.ofProcess db.flushMetadata (m.2, s')
      | .error d m =>
        ∃ e s', Database.Fails e d ∧ main root strtold input ([], s) = .error e (m.2, s') := by
  obtain ⟨s₀, hopen, -, -⟩ := Database.open_fresh hfresh.metadata
  obtain ⟨-, hholds, -⟩ := hfresh.holds hopen
  have hrun := Relates.forM (fun stmt hmem => relates_executeStatement (hfits stmt hmem))
    (⟨⟨text "database", []⟩, []⟩, s₀) (fun _ => none, []) ⟨hholds, rfl⟩
  have hopen' : (Method.ofProcess (Database.open (text "database")) : Method (List UInt8) Database)
      ([], s) = .ok ⟨text "database", []⟩ ([], s₀) := Method.ofProcess_ok hopen
  have hmain : main root strtold input ([], s) = _ :=
    (bind_of_ok (Method.ofExcept_ok hparsed ([], s))).trans (bind_of_ok hopen')
  unfold interpret
  rcases hrun.cases with ⟨u, st', m', hforM, hmean, hholds', hout⟩ |
    ⟨e, d, st', m', hforM, hmean, hfails, hholds', hout⟩
  · rw [hmean]
    have hend : main root strtold input ([], s) =
        Method.ofProcess st'.1.db.flushMetadata (m'.2, st'.2) := by
      rw [hmain, ← hout]
      exact bind_of_ok (by rw [hforM])
    refine ⟨?_, st'.1.db, st'.2, hholds', hend⟩
    rw [Method.after, hend, Method.ofProcess]
    cases st'.1.db.flushMetadata st'.2 with
    | ok u s' => rfl
    | error e s' => rfl
  · rw [hmean]
    have hend : main root strtold input ([], s) = .error e (m'.2, st'.2) := by
      rw [hmain, ← hout]
      exact bind_of_error (by rw [hforM])
    refine ⟨?_, e, st'.2, hfails, hend⟩
    rw [Method.after, hend]
    rfl

def script : List UInt8 := text
  "CREATE TABLE t (k INT PRIMARY KEY, v INT);
INSERT INTO t VALUES (1, 2) USING TTL 60; INSERT INTO t VALUES (3, 4) USING TTL 60;
SELECT * FROM t WHERE k = 1; SELECT * FROM t WHERE k = 5;"

/-- What the parser finds in the script: a new table, two records for it, a `SELECT` of one of them and a
`SELECT` of a third. -/
def fiveStatements (input : List UInt8) : List CqlParser.Cql :=
  if input = script then
    [.createTable ⟨none, text "t", [⟨text "k", .int, true⟩, ⟨text "v", .int, false⟩], none⟩,
      .insert ⟨none, text "t", none, some [.constant (.decimalLiteral (text "1")),
        .constant (.decimalLiteral (text "2"))], true⟩,
      .insert ⟨none, text "t", none, some [.constant (.decimalLiteral (text "3")),
        .constant (.decimalLiteral (text "4"))], true⟩,
      .select ⟨[], none, text "t",
        some [⟨[text "k"], some .eq, some (.decimalLiteral (text "1"))⟩]⟩,
      .select ⟨[], none, text "t",
        some [⟨[text "k"], some .eq, some (.decimalLiteral (text "5"))⟩]⟩]
  else []

/-- The first `SELECT` prints its record and the second ends the program. -/
theorem main_prints_fiveStatements :
    ((main fiveStatements (fun _ => 0) script).after ([], Posix.start (fun _ => 0))).1 =
      text "t\nt\nt\nt\n1\n2\n" := by
  have hfits : ∀ stmt ∈ ([.createTable [] (text "t") TableManager.intPairs,
      .insert [] (text "t") [] [.int 1, .int 2], .insert [] (text "t") [] [.int 3, .int 4],
      .select [] (text "t") [⟨text "k", .eq, .int 1⟩], .select [] (text "t") [⟨text "k", .eq, .int 5⟩]] :
      List CqlStatement), stmt.statement.Fits := by
    intro stmt hmem
    simp only [List.mem_cons, List.not_mem_nil, or_false] at hmem
    rcases hmem with rfl | rfl | rfl | rfl | rfl
    · refine ⟨⟨⟨_, ⟨_, rfl, rfl⟩, .inr (.inr (.inl rfl))⟩, ?_, ?_, ?_, ?_⟩, ⟨?_, ?_⟩⟩ <;> decide
    · simp [CqlStatement.statement, Statement.Fits, Record.Sized, Data.Sized, Data.clone]
    · simp [CqlStatement.statement, Statement.Fits, Record.Sized, Data.Sized, Data.clone]
    · trivial
    · trivial
  have hprints := (main_prints fiveStatements (fun _ => 0) script (by decide +kernel) hfits
    (Database.fresh_start _ (fun _ => 0))).1
  rw [hprints]
  decide +kernel

end Script

end Dibibase

import Dibibase.Lang.Visitor

/-!
# The translation of INSERT

The whole statement that the visitor makes of an `INSERT`, with the clauses that its execution
does not use. The number behind `TIMESTAMP` is stored as the time to live.
-/

namespace Dibibase

namespace CqlParser

/-- `DECIMAL_LITERAL`, one digit or more. -/
structure DecimalLiteral where
  text : List UInt8
  ne_nil : text ≠ []
  digits : ∀ c ∈ text, isDigit c = true
  deriving DecidableEq

def DecimalLiteral.value (literal : DecimalLiteral) : Nat := decimalValue literal.text

inductive BatchType where
  | logged
  | unlogged
  deriving DecidableEq

structure BeginBatch where
  batchType : Option BatchType
  usingTimestampSpec : Option DecimalLiteral
  deriving DecidableEq

inductive UsingTtlTimestamp where
  | ttl (ttl : DecimalLiteral)
  | ttlAndTimestamp (ttl timestamp : DecimalLiteral)
  | timestamp (timestamp : DecimalLiteral)
  | timestampAndTtl (timestamp ttl : DecimalLiteral)
  deriving DecidableEq

namespace UsingTtlTimestamp

/-- `ttl()`. -/
def ttl? : UsingTtlTimestamp → Option DecimalLiteral
  | ttl t => some t
  | ttlAndTimestamp t _ => some t
  | timestamp _ => none
  | timestampAndTtl _ t => some t

/-- `timestamp()`. -/
def timestamp? : UsingTtlTimestamp → Option DecimalLiteral
  | ttl _ => none
  | ttlAndTimestamp _ s => some s
  | timestamp s => some s
  | timestampAndTtl s _ => some s

end UsingTtlTimestamp

structure InsertContext where
  beginBatch : Option BeginBatch
  keyspace : Option (List UInt8)
  table : List UInt8
  insertColumnSpec : Option (List (List UInt8))
  /-- The list behind `VALUES`; nothing stands for a JSON constant. -/
  insertValuesSpec : Option (List Expression)
  ifNotExist : Bool
  usingTtlTimestamp : Option UsingTtlTimestamp
  deriving DecidableEq

/-- The part that `Insert` keeps. -/
def InsertContext.insert (ctx : InsertContext) : Insert :=
  ⟨ctx.keyspace, ctx.table, ctx.insertColumnSpec, ctx.insertValuesSpec,
    ctx.usingTtlTimestamp.isSome⟩

/-- A string, decimal or boolean constant. -/
inductive Expression.Plain : Expression → Prop where
  | string (text : List UInt8) : Plain (.constant (.stringLiteral text))
  | decimal (literal : DecimalLiteral) : Plain (.constant (.decimalLiteral literal.text))
  | boolean (value : Bool) : Plain (.constant (.booleanLiteral value))

end CqlParser

structure TimestampSpec where
  valid : Bool
  timestamp : BitVec 64
  deriving DecidableEq

inductive Batch.Kind where
  | logged
  | unlogged
  | unvalid
  deriving DecidableEq

structure Batch where
  valid : Bool
  type : Batch.Kind
  timestampSpec : TimestampSpec
  deriving DecidableEq

/-- `Batch()`, which sets only what `TimestampSpec()` sets. -/
def Batch.init (memory : Batch) : Batch :=
  { memory with timestampSpec := { memory.timestampSpec with valid := false } }

structure TtlTimestamp where
  ttlValid : Bool
  ttl : BitVec 64
  timestampValid : Bool
  timestamp : BitVec 64
  deriving DecidableEq

/-- `TtlTimestamp()`, which leaves the numbers as they stand in memory. -/
def TtlTimestamp.init (memory : TtlTimestamp) : TtlTimestamp :=
  { memory with ttlValid := false, timestampValid := false }

structure InsertStatement where
  batch : Batch
  keyspace : List UInt8
  table : List UInt8
  columns : List (List UInt8)
  values : List Data
  ifNotExists : Bool
  ttlTimestamp : TtlTimestamp
  deriving DecidableEq

namespace InsertStatement

open CqlParser

/-- What executing and answering an `INSERT` use of it. -/
def cqlStatement (stmt : InsertStatement) : CqlStatement :=
  .insert stmt.keyspace stmt.table stmt.columns stmt.values

def visitBeginBatch (memory : Batch) (ctx : BeginBatch) : Batch :=
  let batch := { Batch.init memory with valid := true }
  let batch := match ctx.batchType with
    | some .logged => { batch with type := .logged }
    | some .unlogged => { batch with type := .unlogged }
    | none => batch
  match ctx.usingTimestampSpec with
  | some literal => { batch with timestampSpec := ⟨true, strtoll literal.text⟩ }
  | none => batch

/-- Both numbers are stored in the field of the time to live. A null context is dereferenced. -/
def visitUsingTtlTimestamp (memory : TtlTimestamp) :
    Option UsingTtlTimestamp → Except Exception TtlTimestamp
  | none => throw .undefinedBehaviour
  | some ctx =>
    let ttlTimestamp := TtlTimestamp.init memory
    let ttlTimestamp := match ctx.ttl? with
      | some literal => { ttlTimestamp with ttlValid := true, ttl := strtoll literal.text }
      | none => ttlTimestamp
    let ttlTimestamp := match ctx.timestamp? with
      | some literal => { ttlTimestamp with timestampValid := true, ttl := strtoll literal.text }
      | none => ttlTimestamp
    return ttlTimestamp

variable (strtold : List UInt8 → BitVec 64)

def visitInsertValuesSpec : Option (List Expression) → Except Exception (List Data)
  | some expressions => expressions.mapM (CQL3Visitor.visitExpression strtold)
  | none => throw .unsupportedCqlStatement

/-- `visitInsert`, where `batch` and `ttlTimestamp` stand in the memory that it does not set. -/
def visitInsert (batch : Batch) (ttlTimestamp : TtlTimestamp) (ctx : InsertContext) :
    Except Exception InsertStatement := do
  let values ← visitInsertValuesSpec strtold ctx.insertValuesSpec
  let ttlTimestamp ← visitUsingTtlTimestamp ttlTimestamp ctx.usingTtlTimestamp
  return {
    batch := match ctx.beginBatch with
      | some ctx => visitBeginBatch batch ctx
      | none => Batch.init batch
    keyspace := ctx.keyspace.getD []
    table := ctx.table
    columns := ctx.insertColumnSpec.getD []
    values := values
    ifNotExists := ctx.ifNotExist
    ttlTimestamp := ttlTimestamp }

/-- The visitor that execution is modelled with makes the same statement. -/
theorem cqlStatement_visitInsert (batch : Batch) (ttlTimestamp : TtlTimestamp)
    (ctx : InsertContext) :
    cqlStatement <$> visitInsert strtold batch ttlTimestamp ctx =
      CQL3Visitor.visitInsert strtold ctx.insert := by
  unfold visitInsert CQL3Visitor.visitInsert InsertContext.insert
  cases hexpressions : ctx.insertValuesSpec with
  | none => rfl
  | some expressions =>
    simp only [visitInsertValuesSpec]
    cases hvalues : expressions.mapM (CQL3Visitor.visitExpression strtold) with
    | error e => rfl
    | ok values =>
      cases husing : ctx.usingTtlTimestamp <;> rfl

/-- What is written as an expression: a text, in its quotes, a number or a truth value. -/
inductive Written : Expression → Data → Prop where
  | string (text : List UInt8) : Written (.constant (.stringLiteral text)) (.ascii text)
  | decimal {literal : List UInt8} {n : BitVec 32} (h : n.toInt = decimalValue literal) :
      Written (.constant (.decimalLiteral literal)) (.int n)
  | boolean (value : Bool) : Written (.constant (.booleanLiteral value)) (.boolean value)

/-- A number is valid exactly when its clause is written, and then it is the one written there. -/
def StoresNumber (clause : Option DecimalLiteral) (valid : Bool) (number : BitVec 64) : Prop :=
  valid = clause.isSome ∧ ∀ literal ∈ clause, number.toNat = literal.value

/-- The statement says what the parse tree says. -/
structure Carries (ctx : InsertContext) (stmt : InsertStatement) : Prop where
  keyspace : stmt.keyspace = ctx.keyspace.getD []
  table : stmt.table = ctx.table
  columns : stmt.columns = ctx.insertColumnSpec.getD []
  values : List.Forall₂ Written (ctx.insertValuesSpec.getD []) stmt.values
  ifNotExists : stmt.ifNotExists = ctx.ifNotExist
  ttl : StoresNumber (ctx.usingTtlTimestamp.bind UsingTtlTimestamp.ttl?)
    stmt.ttlTimestamp.ttlValid stmt.ttlTimestamp.ttl
  timestamp : StoresNumber (ctx.usingTtlTimestamp.bind UsingTtlTimestamp.timestamp?)
    stmt.ttlTimestamp.timestampValid stmt.ttlTimestamp.timestamp

/-! ### Numbers -/

section Numbers

variable (literal : DecimalLiteral)

lemma toNat_strtoll_eq_iff : (strtoll literal.text).toNat = literal.value ↔
    literal.value < 2 ^ 63 := by
  rw [toNat_strtoll literal.ne_nil literal.digits, DecimalLiteral.value]
  omega

/-- A decimal constant becomes an `int`. -/
lemma toInt_strtoll_eq_iff : ((strtoll literal.text).setWidth 32).toInt = literal.value ↔
    literal.value < 2 ^ 31 := by
  have hstrtoll : (strtoll literal.text).toNat = min literal.value (2 ^ 63 - 1) :=
    toNat_strtoll literal.ne_nil literal.digits
  constructor
  · intro h
    have hlt := BitVec.toInt_lt (x := (strtoll literal.text).setWidth 32)
    omega
  · intro h
    have hlow : ((strtoll literal.text).setWidth 32).toNat = literal.value := by
      rw [BitVec.toNat_setWidth, hstrtoll]
      omega
    rw [BitVec.toInt_eq_toNat_of_lt (by omega), hlow]

end Numbers

/-! ### The values -/

variable {strtold}

/-- A constant is kept unless it is a number above the largest `int`. -/
lemma written_iff {e : Expression} (he : e.Plain) :
    (∃ value, CQL3Visitor.visitExpression strtold e = .ok value ∧ Written e value) ↔
      ∀ literal, e = .constant (.decimalLiteral literal) → decimalValue literal < 2 ^ 31 := by
  cases he with
  | string text =>
    exact iff_of_true ⟨.ascii text, rfl, .string text⟩ (fun _ h => by cases h)
  | boolean value =>
    exact iff_of_true ⟨.boolean value, rfl, .boolean value⟩ (fun _ h => by cases h)
  | decimal literal =>
    constructor
    · rintro ⟨value, hvalue, hwritten⟩ text htext
      cases htext
      cases hvalue
      cases hwritten with
      | decimal h => exact (toInt_strtoll_eq_iff literal).mp h
    · intro h
      exact ⟨_, rfl, .decimal ((toInt_strtoll_eq_iff literal).mpr (h literal.text rfl))⟩

/-! ### The clauses -/

section Clauses

lemma visitUsingTtlTimestamp_some (memory : TtlTimestamp) (clause : UsingTtlTimestamp) :
    ∃ ttlTimestamp, visitUsingTtlTimestamp memory (some clause) = .ok ttlTimestamp ∧
      ttlTimestamp.ttlValid = clause.ttl?.isSome ∧
      ttlTimestamp.timestampValid = clause.timestamp?.isSome ∧
      ttlTimestamp.timestamp = memory.timestamp ∧
      (clause.timestamp? = none → ∀ literal ∈ clause.ttl?,
        ttlTimestamp.ttl = strtoll literal.text) := by
  cases clause with
  | ttl t => exact ⟨_, rfl, rfl, rfl, rfl, fun _ _ h => by cases h; rfl⟩
  | ttlAndTimestamp t s => exact ⟨_, rfl, rfl, rfl, rfl, fun h => nomatch h⟩
  | timestamp s => exact ⟨_, rfl, rfl, rfl, rfl, fun h => nomatch h⟩
  | timestampAndTtl s t => exact ⟨_, rfl, rfl, rfl, rfl, fun h => nomatch h⟩

/-- Whatever stands in memory, both numbers are right exactly when there is no `TIMESTAMP` and
the time to live is not above the largest `long long`. -/
lemma storesNumber_iff {clause : UsingTtlTimestamp} :
    (∀ memory, ∃ ttlTimestamp, visitUsingTtlTimestamp memory (some clause) = .ok ttlTimestamp ∧
      StoresNumber clause.ttl? ttlTimestamp.ttlValid ttlTimestamp.ttl ∧
      StoresNumber clause.timestamp? ttlTimestamp.timestampValid ttlTimestamp.timestamp) ↔
    clause.timestamp? = none ∧ ∀ literal ∈ clause.ttl?, literal.value < 2 ^ 63 := by
  constructor
  · intro h
    have hnone : clause.timestamp? = none := by
      cases htimestamp : clause.timestamp? with
      | none => rfl
      | some literal =>
        -- the field is not set, and memory may hold another number
        obtain ⟨_, hvisit, -, hstores⟩ := h ⟨false, 0, false, BitVec.ofNat 64 (literal.value + 1)⟩
        obtain ⟨_, hvisit', -, -, hmemory, -⟩ := visitUsingTtlTimestamp_some
          ⟨false, 0, false, BitVec.ofNat 64 (literal.value + 1)⟩ clause
        cases hvisit.symm.trans hvisit'
        have hnumber := hstores.2 literal (by simp [htimestamp])
        rw [hmemory, BitVec.toNat_ofNat] at hnumber
        omega
    refine ⟨hnone, ?_⟩
    intro literal hliteral
    obtain ⟨_, hvisit, hstores, -⟩ := h ⟨false, 0, false, 0⟩
    obtain ⟨_, hvisit', -, -, -, httl⟩ := visitUsingTtlTimestamp_some ⟨false, 0, false, 0⟩ clause
    cases hvisit.symm.trans hvisit'
    have hnumber := hstores.2 literal hliteral
    rw [httl hnone literal hliteral] at hnumber
    exact (toNat_strtoll_eq_iff literal).mp hnumber
  · rintro ⟨hnone, hbound⟩ memory
    obtain ⟨_, hvisit, hvalid, hvalid', -, httl⟩ := visitUsingTtlTimestamp_some memory clause
    refine ⟨_, hvisit, ⟨hvalid, ?_⟩, hvalid', ?_⟩
    · intro literal hliteral
      rw [httl hnone literal hliteral]
      exact (toNat_strtoll_eq_iff literal).mpr (hbound literal hliteral)
    · intro literal hliteral
      simp [hnone] at hliteral

end Clauses

/-! ### The statement -/

section Statement

variable {ctx : InsertContext} {expressions : List Expression} {clause : UsingTtlTimestamp}

/-- The names and the flag always arrive, so the statement is right when values and numbers are. -/
lemma carries_iff {batch : Batch} {memory : TtlTimestamp}
    (hexpressions : ctx.insertValuesSpec = some expressions)
    (husing : ctx.usingTtlTimestamp = some clause) :
    (∃ stmt, visitInsert strtold batch memory ctx = .ok stmt ∧ Carries ctx stmt) ↔
      (∃ values, expressions.mapM (CQL3Visitor.visitExpression strtold) = .ok values ∧
        List.Forall₂ Written expressions values) ∧
      ∃ ttlTimestamp, visitUsingTtlTimestamp memory (some clause) = .ok ttlTimestamp ∧
        StoresNumber clause.ttl? ttlTimestamp.ttlValid ttlTimestamp.ttl ∧
        StoresNumber clause.timestamp? ttlTimestamp.timestampValid ttlTimestamp.timestamp := by
  unfold visitInsert
  rw [hexpressions, husing]
  simp only [visitInsertValuesSpec]
  cases hvalues : expressions.mapM (CQL3Visitor.visitExpression strtold) with
  | error e =>
    constructor
    · rintro ⟨_, h, -⟩
      cases h
    · rintro ⟨⟨_, h, -⟩, -⟩
      cases h
  | ok values =>
    obtain ⟨ttlTimestamp, hvisit, -⟩ := visitUsingTtlTimestamp_some memory clause
    rw [hvisit]
    constructor
    · rintro ⟨_, h, hcarries⟩
      cases h
      have hwritten := hcarries.values
      have httl := hcarries.ttl
      have htimestamp := hcarries.timestamp
      rw [hexpressions] at hwritten
      rw [husing] at httl htimestamp
      exact ⟨⟨values, rfl, hwritten⟩, ttlTimestamp, rfl, httl, htimestamp⟩
    · rintro ⟨⟨_, h, hwritten⟩, _, h', httl, htimestamp⟩
      cases h
      cases h'
      refine ⟨_, rfl, rfl, rfl, rfl, ?_, rfl, ?_, ?_⟩
      · rw [hexpressions]
        exact hwritten
      · rw [husing]
        exact httl
      · rw [husing]
        exact htimestamp

/-- The translation preserves the statement exactly when nothing is written behind `TIMESTAMP` and
the numbers fit: the time to live in a `long long`, the values in an `int`. -/
theorem visitInsert_carries_iff (strtold : List UInt8 → BitVec 64)
    (hexpressions : ctx.insertValuesSpec = some expressions) (hplain : ∀ e ∈ expressions, e.Plain)
    (husing : ctx.usingTtlTimestamp = some clause) :
    (∀ batch memory, ∃ stmt,
      visitInsert strtold batch memory ctx = .ok stmt ∧ Carries ctx stmt) ↔
    clause.timestamp? = none ∧ (∀ literal ∈ clause.ttl?, literal.value < 2 ^ 63) ∧
      ∀ literal, .constant (.decimalLiteral literal) ∈ expressions →
        decimalValue literal < 2 ^ 31 := by
  have hvalues : (∃ values, expressions.mapM (CQL3Visitor.visitExpression strtold) = .ok values ∧
      List.Forall₂ Written expressions values) ↔
      ∀ literal, .constant (.decimalLiteral literal) ∈ expressions →
        decimalValue literal < 2 ^ 31 := by
    rw [exists_mapM_forall₂_iff]
    constructor
    · intro h literal hmem
      exact (written_iff (hplain _ hmem)).mp (h _ hmem) literal rfl
    · intro h e he
      apply (written_iff (hplain e he)).mpr
      rintro literal rfl
      exact h literal he
  simp only [carries_iff hexpressions husing, hvalues]
  rw [← and_assoc, ← storesNumber_iff]
  constructor
  · intro h
    exact ⟨fun memory => (h ⟨false, .unvalid, false, 0⟩ memory).2,
      (h ⟨false, .unvalid, false, 0⟩ ⟨false, 0, false, 0⟩).1⟩
  · intro h _ memory
    exact ⟨h.2, h.1 memory⟩

/-- `INSERT INTO t VALUES (1, 'a', true) USING TTL 5`. -/
theorem visitInsert_carries_ttl :
    ∃ stmt,
      visitInsert (fun _ => 0) ⟨false, .unvalid, false, 0⟩ ⟨true, 9, true, 9⟩
          ⟨none, none, text "t", none,
            some [.constant (.decimalLiteral (text "1")), .constant (.stringLiteral (text "'a'")),
              .constant (.booleanLiteral true)],
            false, some (.ttl ⟨text "5", by decide, List.all_eq_true.mp rfl⟩)⟩ = .ok stmt ∧
        Carries ⟨none, none, text "t", none,
          some [.constant (.decimalLiteral (text "1")), .constant (.stringLiteral (text "'a'")),
            .constant (.booleanLiteral true)],
          false, some (.ttl ⟨text "5", by decide, List.all_eq_true.mp rfl⟩)⟩ stmt := by
  refine (visitInsert_carries_iff (fun _ => 0) rfl ?_ rfl).mpr ⟨rfl, ?_, ?_⟩ _ _
  · intro e he
    simp only [List.mem_cons, List.not_mem_nil, or_false] at he
    rcases he with rfl | rfl | rfl
    · exact .decimal ⟨text "1", by decide, List.all_eq_true.mp rfl⟩
    · exact .string _
    · exact .boolean true
  · rintro literal ⟨⟩
    decide
  · intro literal hliteral
    have htext : literal = text "1" := by simpa using hliteral
    rw [htext]
    decide

/-- `INSERT INTO t VALUES (1) USING TTL 5 AND TIMESTAMP 7`: the time to live is 7. -/
theorem not_carries_timestamp :
    ∃ stmt,
      visitInsert (fun _ => 0) ⟨false, .unvalid, false, 0⟩ ⟨false, 0, false, 0⟩
          ⟨none, none, text "t", none, some [.constant (.decimalLiteral (text "1"))], false,
            some (.ttlAndTimestamp ⟨text "5", by decide, List.all_eq_true.mp rfl⟩
              ⟨text "7", by decide, List.all_eq_true.mp rfl⟩)⟩ = .ok stmt ∧
        stmt.ttlTimestamp = ⟨true, 7, true, 0⟩ ∧
        ¬Carries ⟨none, none, text "t", none, some [.constant (.decimalLiteral (text "1"))], false,
          some (.ttlAndTimestamp ⟨text "5", by decide, List.all_eq_true.mp rfl⟩
            ⟨text "7", by decide, List.all_eq_true.mp rfl⟩)⟩ stmt := by
  refine ⟨_, rfl, by decide, ?_⟩
  intro h
  have hnumber := h.ttl.2 ⟨text "5", by decide, List.all_eq_true.mp rfl⟩ rfl
  revert hnumber
  decide

end Statement

end InsertStatement

end Dibibase

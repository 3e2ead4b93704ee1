import Dodam.Sql.PredicateEval

/-! # Predicates decided by statistics

The condition of a filtered aggregate is replaced by a truth value when the
statistics of a column decide it: a NULL test when no row group counts a NULL, a
comparison with a literal when the bounds of every row group do.
-/
namespace Dodam.Sql
open Foundation Execution

/-- The type of a column, as far as statistics are read by it. -/
inductive ColumnType
  | int32
  | int64
  | uint32
  | date32
  | decimal128 (precision : UInt8) (scale : Int8)
  | other (dataType : String)
deriving DecidableEq

structure PrimitiveRowGroupMinMax where
  rowGroup : ℕ
  rows : ℕ
  nullCount : Option ℕ
  min : ℤ
  max : ℤ
  dataType : ColumnType

section Truth
variable (host : ScalarHost) (statistics : String → Result (Option (List PrimitiveRowGroupMinMax)))

def metadataLiteralToI128 (literal : LiteralValue) : ColumnType → Result (Option ℤ)
  | .decimal128 precision scale => literalAsDecimal128ForType precision scale literal
  | .date32 => literalAsDate32ForType literal
  | .int32 | .int64 | .uint32 =>
    match literalAsI64ForType host literal with
    | .ok value => .ok value
    | .error (.err (.invalidCast _)) => .ok none
    | .error error => .error error
  | .other _ => .ok none

def metadataLiteralToI128ForRanges (literal : LiteralValue) (ranges : List PrimitiveRowGroupMinMax) :
    Result (Option ℤ) :=
  match ranges.head? with
  | none => .ok none
  | some first => metadataLiteralToI128 host literal first.dataType

def metadataRangeComparisonAlwaysTrue (min max : ℤ) (op : ComparisonOp) (literal : ℤ) : Bool :=
  match op with
  | .eq => min = literal && max = literal
  | .notEq => literal < min || max < literal
  | .gt => literal < min
  | .gtEq => literal ≤ min
  | .lt => max < literal
  | .ltEq => max ≤ literal

def metadataRangeComparisonAlwaysFalse (min max : ℤ) (op : ComparisonOp) (literal : ℤ) : Bool :=
  match op with
  | .eq => literal < min || max < literal
  | .notEq => min = literal && max = literal
  | .gt => max ≤ literal
  | .gtEq => max < literal
  | .lt => literal ≤ min
  | .ltEq => literal < min

def parquetColumnIsNeverNull (column : String) : Result (Option Bool) := do
  match ← statistics column with
  | none => return none
  | some ranges => return if ranges.all fun range => range.nullCount = some 0 then some true else none

def metadataRangesTruth (op : ComparisonOp) (ranges : List PrimitiveRowGroupMinMax) (literal : ℤ) : Option Bool :=
  if ranges.all fun range => metadataRangeComparisonAlwaysTrue range.min range.max op literal then some true
  else if ranges.all fun range => metadataRangeComparisonAlwaysFalse range.min range.max op literal then some false
  else none

def parquetMetadataColumnLiteralPredicateTruth (columnExpr : SqlExpr) (op : ComparisonOp) (literalExpr : SqlExpr) :
    Result (Option Bool) :=
  match sqlColumnName host.toHost none columnExpr,sqlLiteralValue host.toHost literalExpr with
  | .ok column,.ok literal =>
    if literal = .null then .ok none
    else do
      match ← statistics column with
      | none => return none
      | some ranges =>
        if ranges.isEmpty ∨ ranges.any fun range => range.nullCount ≠ some 0 then return none
        else
          let literal ← metadataLiteralToI128ForRanges host literal ranges
          return literal.bind (metadataRangesTruth op ranges)
  | _,_ => .ok none

/-- The operands are exchanged only after an error. -/
def parquetMetadataPredicateTruth : SqlExpr → Result (Option Bool)
  | .isNotNull inner => do
    let column ← sqlColumnName host.toHost none inner
    parquetColumnIsNeverNull statistics column
  | .binaryOp left op right =>
    match op.comparison with
    | none => .ok none
    | some op =>
      match parquetMetadataColumnLiteralPredicateTruth host statistics left op right with
      | .ok truth => .ok truth
      | .error _ =>
        parquetMetadataColumnLiteralPredicateTruth host statistics right (reverseBinaryOperator op) left
  | _ => .ok none

end Truth

section File

def ArrayRef.columnType : ArrayRef → ColumnType
  | .int32 _ => .int32
  | .int64 _ => .int64
  | .uint32 _ => .uint32
  | .date32 _ => .date32
  | .decimal128 precision scale _ => .decimal128 precision scale
  | array => .other array.dataType

/-- The stored numbers of an integer, date, timestamp or decimal column. -/
def ArrayRef.numbers : ArrayRef → List (Option ℤ)
  | .int32 values | .date32 values => values.map (Option.map Int32.toInt)
  | .int64 values | .date64 values | .timestampMillisecond _ values => values.map (Option.map Int64.toInt)
  | .uint32 values => values.map (Option.map fun value => (value.toNat : ℤ))
  | .decimal128 _ _ values => values
  | _ => []

def ArrayRef.number (array : ArrayRef) (row : ℕ) : Option ℤ := array.numbers[row]?.join

/-- Statistics that bound the numbers of a column and count its NULLs. -/
structure PrimitiveRowGroupMinMax.Describes (range : PrimitiveRowGroupMinMax) (array : ArrayRef) : Prop where
  dataType_eq : range.dataType = array.columnType
  nullCount_eq : ∀ count, range.nullCount = some count → array.nullCount = count
  bounds : ∀ row value, array.number row = some value → range.min ≤ value ∧ value ≤ range.max

/-- The row groups of a file and their statistics, which are given for some columns. -/
structure ParquetFile where
  rowGroups : List NamedBatch
  statistics : String → Result (Option (List PrimitiveRowGroupMinMax))
  describes : ∀ column ranges, statistics column = .ok (some ranges) →
    List.Forall₂ (fun range group => ∃ array, group.columns.lookup column = some array ∧ range.Describes array)
      ranges rowGroups

/-- A batch of rows of the file: its columns have the types of the file, and each row is a row of some row group. -/
structure ParquetFile.Reads (file : ParquetFile) (batch : NamedBatch) : Prop where
  typed : ∀ column ∈ batch.columns, ∀ group ∈ file.rowGroups, ∀ stored,
    group.columns.lookup column.1 = some stored → column.2.columnType = stored.columnType
  rows : ∀ row < batch.numRows, ∃ group ∈ file.rowGroups, ∃ i < group.numRows, ∀ column ∈ batch.columns,
    ∃ stored, group.columns.lookup column.1 = some stored ∧ column.2.isNull row = stored.isNull i ∧
      column.2.number row = stored.number i

end File
end Dodam.Sql

/-! ## What statistics decide

A truth value that the statistics of a column decide is the one that the
predicate evaluator gives on every row, where the two read the literal alike.
-/
namespace Dodam.Sql
open Foundation Execution

section Ranges
variable {op : ComparisonOp} {min max literal value : ℤ}

theorem metadataRangeComparisonAlwaysTrue_sound
    (h : metadataRangeComparisonAlwaysTrue min max op literal = true) (hmin : min ≤ value) (hmax : value ≤ max) :
    ComparesTo op value literal := by
  cases op <;> simp [metadataRangeComparisonAlwaysTrue] at h <;> simp only [ComparesTo] <;> omega

theorem metadataRangeComparisonAlwaysFalse_sound
    (h : metadataRangeComparisonAlwaysFalse min max op literal = true) (hmin : min ≤ value) (hmax : value ≤ max) :
    ¬ ComparesTo op value literal := by
  cases op <;> simp [metadataRangeComparisonAlwaysFalse] at h <;> simp only [ComparesTo] <;> omega

theorem metadataRangesTruth_sound {ranges : List PrimitiveRowGroupMinMax} {b : Bool}
    (h : metadataRangesTruth op ranges literal = some b) {range : PrimitiveRowGroupMinMax} (hmem : range ∈ ranges)
    (hmin : range.min ≤ value) (hmax : value ≤ range.max) :
    compareOptionalValues op (some value) (some literal) = some b := by
  rw [metadataRangesTruth] at h
  split at h
  next hall =>
    cases h
    have hrange := List.all_eq_true.mp hall range hmem
    exact congrArg some ((orderingHolds_iff op value literal).mpr
      (metadataRangeComparisonAlwaysTrue_sound hrange hmin hmax))
  next =>
    split at h
    next hall =>
      cases h
      have hrange := List.all_eq_true.mp hall range hmem
      exact congrArg some ((orderingHolds_eq_false_iff op value literal).mpr
        (metadataRangeComparisonAlwaysFalse_sound hrange hmin hmax))
    next => cases h

end Ranges

section Cells
variable {array : ArrayRef}

theorem ArrayRef.not_isNull_of_nullCount (h : array.nullCount = 0) {row : ℕ} (hrow : row < array.length) :
    array.isNull row = false := by
  rw [ArrayRef.nullCount,List.countP_eq_zero] at h
  exact eq_false_of_ne_true (h row (List.mem_range.mpr hrow))

theorem getElem?_map_of_ne_none {α : Type} [DecidableEq α] {f : α → ℤ} {values : List (Option α)} {row : ℕ}
    (hrow : row < values.length) (hnull : decide (values[row]? = some none) = false) :
    ∃ value, (values.map (Option.map f))[row]? = some (some value) := by
  have hget : values[row]? = some values[row] := List.getElem?_eq_getElem hrow
  rw [List.getElem?_map,hget]
  rw [hget] at hnull
  cases hvalue : values[row] with
  | none => rw [hvalue] at hnull; cases hnull
  | some value => exact ⟨f value,rfl⟩

theorem ArrayRef.numbers_of_not_isNull (htype : ∀ dataType, array.columnType ≠ .other dataType) {row : ℕ}
    (hrow : row < array.length) (hnull : array.isNull row = false) :
    ∃ value, array.numbers[row]? = some (some value) := by
  cases array with
  | int32 values | int64 values | uint32 values | date32 values => exact getElem?_map_of_ne_none hrow hnull
  | decimal128 precision scale values =>
    have h := getElem?_map_of_ne_none (f := id) hrow hnull
    rw [Option.map_id,List.map_id] at h
    exact h
  | _ => exact absurd rfl (htype _)

theorem ArrayRef.length_numbers (htype : ∀ dataType, array.columnType ≠ .other dataType) :
    array.numbers.length = array.length := by
  cases array with
  | int32 values | int64 values | uint32 values | date32 values => exact List.length_map _
  | decimal128 precision scale values => rfl
  | _ => exact absurd rfl (htype _)

end Cells

section Literals
variable {host : ScalarHost} {literal : LiteralValue} {n : ℤ} {op : ComparisonOp} {array : ArrayRef}

theorem literalAsI64_of_metadata
    (h : (match literalAsI64ForType host literal with
      | .ok value => .ok value
      | .error (.err (.invalidCast _)) => .ok none
      | .error error => .error error : Result (Option ℤ)) = .ok (some n)) :
    literalAsI64ForType host literal = .ok (some n) := by
  split at h
  next value hvalue => rw [hvalue]; exact h
  next => cases h
  next => cases h

theorem metadataLiteralToI128_ne_other (h : metadataLiteralToI128 host literal array.columnType = .ok (some n))
    (dataType : String) : array.columnType ≠ .other dataType := by
  intro he
  rw [he] at h
  cases h

theorem vectorArrayLiteralCompare_of_metadata
    (h : metadataLiteralToI128 host literal array.columnType = .ok (some n)) (htype : array.columnType ≠ .uint32) :
    vectorArrayLiteralCompare host op literal array =
      .ok (some (vectorCompare (compareOptionalValues op) array.numbers (some n))) := by
  cases array with
  | int32 values | int64 values => rw [vectorArrayLiteralCompare,literalAsI64_of_metadata h]; rfl
  | date32 values =>
    have hliteral : literalAsDate32ForType literal = .ok (some n) := h
    rw [vectorArrayLiteralCompare,hliteral]
    rfl
  | decimal128 precision scale values =>
    have hliteral : literalAsDecimal128ForType precision scale literal = .ok (some n) := h
    rw [vectorArrayLiteralCompare,hliteral]
    rfl
  | uint32 values => exact absurd rfl htype
  | boolean values => cases h
  | float64 values => cases h
  | date64 values => cases h
  | timestampMillisecond dataType values => cases h
  | utf8 values => cases h
  | other dataType nulls => cases h

end Literals

section Rows
variable {file : ParquetFile} {batch : NamedBatch} {name : String} {array : ArrayRef}
  {ranges : List PrimitiveRowGroupMinMax}

theorem ParquetFile.Reads.not_isNull (hreads : file.Reads batch) (hmem : (name,array) ∈ batch.columns)
    (hstatistics : file.statistics name = .ok (some ranges))
    (hnulls : ∀ range ∈ ranges, range.nullCount = some 0) {row : ℕ} (hrow : row < batch.numRows) :
    array.isNull row = false := by
  obtain ⟨group,hgroup,i,hi,hcolumns⟩ := hreads.rows row hrow
  obtain ⟨stored,hstored,hisNull,-⟩ := hcolumns _ hmem
  obtain ⟨range,hrange,described,hlookup,hdescribes⟩ :=
    exists_of_forall₂_right (file.describes name ranges hstatistics) hgroup
  have he : described = stored := Option.some.inj (hlookup.symm.trans hstored)
  rw [he] at hdescribes
  obtain ⟨before,after,hcolumns,-⟩ := List.lookup_eq_some_iff.mp hstored
  have hlength : stored.length = group.numRows := group.length_eq (name,stored) (by rw [hcolumns]; simp)
  rw [hisNull]
  exact stored.not_isNull_of_nullCount (hdescribes.nullCount_eq 0 (hnulls range hrange)) (hlength ▸ hi)

theorem ParquetFile.Reads.bounds (hreads : file.Reads batch) (hmem : (name,array) ∈ batch.columns)
    (hstatistics : file.statistics name = .ok (some ranges)) {row : ℕ} (hrow : row < batch.numRows) {value : ℤ}
    (hvalue : array.number row = some value) : ∃ range ∈ ranges, range.min ≤ value ∧ value ≤ range.max := by
  obtain ⟨group,hgroup,i,-,hcolumns⟩ := hreads.rows row hrow
  obtain ⟨stored,hstored,-,hnumber⟩ := hcolumns _ hmem
  obtain ⟨range,hrange,described,hlookup,hdescribes⟩ :=
    exists_of_forall₂_right (file.describes name ranges hstatistics) hgroup
  have he : described = stored := Option.some.inj (hlookup.symm.trans hstored)
  rw [he] at hdescribes
  exact ⟨range,hrange,hdescribes.bounds i value (hnumber ▸ hvalue)⟩

theorem ParquetFile.Reads.dataType (hreads : file.Reads batch) (hmem : (name,array) ∈ batch.columns)
    (hstatistics : file.statistics name = .ok (some ranges)) {range : PrimitiveRowGroupMinMax}
    (hrange : range ∈ ranges) : range.dataType = array.columnType := by
  obtain ⟨group,hgroup,stored,hlookup,hdescribes⟩ :=
    exists_of_forall₂_left (file.describes name ranges hstatistics) hrange
  rw [hdescribes.dataType_eq]
  exact (hreads.typed _ hmem group hgroup stored hlookup).symm

end Rows

section Operands
variable {host : ScalarHost}

/-- What the statistics read as a literal, the evaluator reads as the same literal, but for dates and substrings. -/
def readsAsLiteral : SqlExpr → Bool
  | .typedString _ _ => false
  | .substring _ _ _ => false
  | _ => true

theorem parseScalarSqlExpression_literal {expr : SqlExpr} {literal : LiteralValue} (hexpr : readsAsLiteral expr = true)
    (h : sqlLiteralValue host.toHost expr = .ok literal) :
    parseScalarSqlExpression host.toHost none expr = .ok (.literal literal) := by
  cases expr with
  | value value =>
    rw [sqlLiteralValue] at h
    rw [parseScalarSqlExpression,parseScalarExpression,h]
    rfl
  | binaryOp left op right =>
    have hop : op = .plus ∨ op = .minus := by
      by_contra hop
      rw [sqlLiteralValue,if_neg hop] at h
      cases h
    have harithmetic : op = .plus ∨ op = .minus ∨ op = .multiply ∨ op = .divide :=
      hop.elim Or.inl fun hop => Or.inr (Or.inl hop)
    rw [parseScalarSqlExpression,parseScalarExpression,if_pos harithmetic,h]
  | unaryOp op expr =>
    have hsign : (op = .minus ∨ op = .plus) ∧ (sqlLiteralValue host.toHost expr).toOption.isSome := by
      cases op with
      | plus =>
        rw [sqlLiteralValue] at h
        exact ⟨Or.inr rfl,by rw [h]; rfl⟩
      | minus =>
        rw [sqlLiteralValue] at h
        obtain ⟨inner,hinner,-⟩ := bind_eq_ok_iff.mp h
        exact ⟨Or.inl rfl,by rw [hinner]; rfl⟩
      | not | other display => cases h
    rw [parseScalarSqlExpression,parseScalarExpression,if_pos ⟨rfl,hsign⟩,h]
    rfl
  | typedString dataType value => cases hexpr
  | substring expr start length => cases hexpr
  | identifier _ | compoundIdentifier _ | interval _ _ | nested _ | isNull _ | isNotNull _ | inList _ _ _
  | inSubquery _ _ _ | existsSubquery _ _ | subquery _ | between _ _ _ _ | like _ _ _ _ _ _ | function _ _
  | cast _ _ | other _ => cases h

theorem literalOfTypedString_eq_ok {dataType : String} {value : Value} {literal : LiteralValue}
    (h : literalOfTypedString host.toHost dataType value = .ok literal) : eqIgnoreAsciiCase dataType "date" = true ∧
      ∃ text, (value = .singleQuotedString text ∨ value = .doubleQuotedString text) ∧ literal = .utf8 text := by
  unfold literalOfTypedString at h
  split at h
  next htype =>
    refine ⟨htype,?_⟩
    cases value with
    | singleQuotedString text => exact ⟨text,Or.inl rfl,(Except.ok.inj h).symm⟩
    | doubleQuotedString text => exact ⟨text,Or.inr rfl,(Except.ok.inj h).symm⟩
    | number _ _ | boolean _ | null | other _ => cases h
  next => cases h

theorem castEvaluatedScalar_date {dataType text : String} {days : ℤ} (rows : ℕ)
    (htype : eqIgnoreAsciiCase dataType "date" = true) (htext : parseDate32Days text = .ok days) :
    castEvaluatedScalar host (evaluatedLiteral rows (.utf8 text)) dataType =
      .ok (.date32 (List.replicate rows (some days))) := by
  have hlower : String.ofList (dataType.toList.map Char.toLower) = "date" := by
    have h : dataType.toList.map Char.toLower = "date".toList.map Char.toLower := of_decide_eq_true htype
    rw [h]
    rfl
  have hread : readRows parseDate32Days (List.replicate rows (some text)) = .ok (List.replicate rows (some days)) := by
    rw [readRows,mapM_eq_map (g := fun _ => some days)]
    · rw [List.map_replicate]
    · intro value hvalue
      rw [List.eq_of_mem_replicate hvalue]
      exact map_eq_ok_iff.mpr ⟨days,htext,rfl⟩
  rw [castEvaluatedScalar,hlower]
  have htarget : parseDecimalCastTarget "date" = .ok none := by decide
  rw [htarget]
  have hcast : castToDate32 (evaluatedLiteral rows (.utf8 text)) = .ok (List.replicate rows (some days)) := hread
  simp only [except_bind_ok]
  rw [if_neg (by decide),if_neg (by decide),if_neg (by decide),if_pos trivial,hcast]
  rfl

end Operands

section Decided
variable {host : ScalarHost} {file : ParquetFile} {batch : NamedBatch} {name : String} {array : ArrayRef}
  {op : ComparisonOp} {literalExpr : SqlExpr} {b : Bool}

/-- What a verdict on a comparison of a column with a literal rests on. -/
structure DecidesRows (host : ScalarHost) (op : ComparisonOp) (literalExpr : SqlExpr) (array : ArrayRef) (b : Bool)
    (literal : LiteralValue) (n : ℤ) : Prop where
  literal_eq : sqlLiteralValue host.toHost literalExpr = .ok literal
  literal_ne : literal ≠ .null
  number_eq : metadataLiteralToI128 host literal array.columnType = .ok (some n)
  rows : ∀ value ∈ array.numbers, value.isSome = true ∧ compareOptionalValues op value (some n) = some b

theorem decidesRows (hreads : file.Reads batch) (hmem : (name,array) ∈ batch.columns)
    (h : parquetMetadataColumnLiteralPredicateTruth host file.statistics (.identifier name) op literalExpr =
      .ok (some b)) : ∃ literal n, DecidesRows host op literalExpr array b literal n := by
  have hcolumn : sqlColumnName host.toHost none (.identifier name) = .ok name := rfl
  rw [parquetMetadataColumnLiteralPredicateTruth,hcolumn] at h
  cases hliteral : sqlLiteralValue host.toHost literalExpr with
  | error error => rw [hliteral] at h; cases h
  | ok literal =>
    simp only [hliteral] at h
    by_cases hnull : literal = .null
    · rw [if_pos hnull] at h
      cases h
    rw [if_neg hnull] at h
    obtain ⟨found,hstatistics,h⟩ := bind_eq_ok_iff.mp h
    cases found with
    | none => cases h
    | some ranges =>
      by_cases hdecline : ranges.isEmpty ∨ ranges.any fun range => range.nullCount ≠ some 0
      · simp only [if_pos hdecline] at h
        cases h
      simp only [if_neg hdecline] at h
      obtain ⟨number,hnumber,htruth⟩ := bind_eq_ok_iff.mp h
      have htruth : number.bind (metadataRangesTruth op ranges) = some b := Except.ok.inj htruth
      obtain ⟨n,rfl,htruth⟩ := Option.bind_eq_some_iff.mp htruth
      obtain ⟨hempty,hnulls⟩ := not_or.mp hdecline
      have hnulls : ∀ range ∈ ranges, range.nullCount = some 0 := by
        intro range hrange
        by_contra hcount
        exact hnulls (List.any_eq_true.mpr ⟨range,hrange,decide_eq_true hcount⟩)
      cases ranges with
      | nil => exact absurd rfl hempty
      | cons first rest =>
        have htype : first.dataType = array.columnType := hreads.dataType hmem hstatistics List.mem_cons_self
        have hnumber : metadataLiteralToI128 host literal array.columnType = .ok (some n) := htype ▸ hnumber
        refine ⟨literal,n,hliteral,hnull,hnumber,fun value hvalue => ?_⟩
        have hstored := metadataLiteralToI128_ne_other hnumber
        obtain ⟨row,hrow,hget⟩ := List.mem_iff_getElem.mp hvalue
        have hlength : row < array.length := array.length_numbers hstored ▸ hrow
        have hrow : row < batch.numRows := batch.length_eq _ hmem ▸ hlength
        obtain ⟨cell,hcell⟩ := array.numbers_of_not_isNull hstored hlength
          (hreads.not_isNull hmem hstatistics hnulls hrow)
        have he : value = some cell := by
          rw [List.getElem?_eq_getElem (by assumption),hget] at hcell
          exact Option.some.inj hcell
        rw [he]
        have hnumberAt : array.number row = some cell := by
          rw [ArrayRef.number,hcell]
          rfl
        obtain ⟨range,hrange,hmin,hmax⟩ := hreads.bounds hmem hstatistics hrow hnumberAt
        exact ⟨rfl,metadataRangesTruth_sound htruth hrange hmin hmax⟩

theorem DecidesRows.vectorCompare {literal : LiteralValue} {n : ℤ}
    (h : DecidesRows host op literalExpr array b literal n) :
    vectorCompare (compareOptionalValues op) array.numbers (some n) = List.replicate array.length (some b) := by
  rw [vectorCompare_eq_replicate h.rows,array.length_numbers (metadataLiteralToI128_ne_other h.number_eq)]

/-- A date in a typed string is read by a cast, and compared as a day count. -/
theorem DecidesRows.generalComparison_date {literal : LiteralValue} {n : ℤ} {dataType : String} {value : Value}
    (h : DecidesRows host op (.typedString dataType value) array b literal n) (hfind : batch.FindsColumn name array)
    (hdate : array.columnType = .date32) :
    generalComparison host batch (singlePredicateParser host.toHost none) op (.identifier name)
      (.typedString dataType value) = .ok (List.replicate batch.numRows (some b)) := by
  have hliteral : literalOfTypedString host.toHost dataType value = .ok literal := h.literal_eq
  obtain ⟨htype,text,hquoted,hvalue⟩ := literalOfTypedString_eq_ok hliteral
  have hparse : parseScalarSqlExpression host.toHost none (.typedString dataType value) =
      .ok (.cast (.literal (.utf8 text)) dataType) := by
    rcases hquoted with rfl | rfl <;> rfl
  have hnumber := h.number_eq
  rw [hdate,hvalue] at hnumber
  obtain ⟨days,htext,hdays⟩ := map_eq_ok_iff.mp hnumber
  have hn : days = n := Option.some.inj hdays
  cases array with
  | date32 values =>
    have hcell : evaluateScalarExpression host batch (.column name) = .ok (.array (.date32 values)) :=
      map_eq_ok_iff.mpr ⟨_,hfind.outputColumn,rfl⟩
    have hcast : evaluateScalarExpression host batch (.cast (.literal (.utf8 text)) dataType) =
        .ok (.values (.date32 (List.replicate batch.numRows (some n)))) := by
      rw [evaluateScalarExpression]
      exact map_eq_ok_iff.mpr ⟨_,castEvaluatedScalar_date batch.numRows htype (hn ▸ htext),rfl⟩
    have hlength : (values.map (Option.map Int32.toInt)).length = batch.numRows := by
      rw [List.length_map]
      exact hfind.length_eq
    rw [generalComparison]
    simp only [singlePredicateParser,parseScalarSqlExpression_identifier,hparse,except_bind_ok,hcell,hcast]
    refine congrArg Except.ok ?_
    have hzip := zipWith_replicate_right (compareOptionalValues op) (values.map (Option.map Int32.toInt)) (some n)
    rw [hlength] at hzip
    refine hzip.trans (List.eq_replicate_iff.mpr ⟨by rw [List.length_map,hlength],fun result hresult => ?_⟩)
    obtain ⟨cell,hmem,he⟩ := List.mem_map.mp hresult
    rw [← he,(h.rows cell hmem).2]
  | int32 _ | int64 _ | uint32 _ | decimal128 _ _ _ | boolean _ | float64 _ | date64 _ | timestampMillisecond _ _
  | utf8 _ | other _ _ => cases hdate

/-- The column is meant by its own name, and what stands against it is one literal to both. -/
def ReadsAlike (batch : NamedBatch) : SqlExpr → Prop
  | .isNotNull (.identifier name) => ∃ array, batch.FindsColumn name array
  | .binaryOp (.identifier name) _ (.typedString _ _) =>
    ∃ array, batch.FindsColumn name array ∧ array.columnType = .date32
  | .binaryOp (.identifier name) _ right =>
    ∃ array, batch.FindsColumn name array ∧ array.columnType ≠ .uint32 ∧ readsAsLiteral right = true
  | _ => False

variable {operator : BinaryOperator}

theorem comparison_of_truth {left right : SqlExpr}
    (h : parquetMetadataPredicateTruth host file.statistics (.binaryOp left operator right) = .ok (some b)) :
    ∃ op, operator.comparison = some op := by
  cases hop : operator.comparison with
  | some op => exact ⟨op,rfl⟩
  | none =>
    rw [parquetMetadataPredicateTruth,hop] at h
    cases h

theorem parquetMetadataPredicateTruth_comparison {right : SqlExpr}
    (hop : operator.comparison = some op)
    (h : parquetMetadataPredicateTruth host file.statistics (.binaryOp (.identifier name) operator right) =
      .ok (some b)) :
    parquetMetadataColumnLiteralPredicateTruth host file.statistics (.identifier name) op right = .ok (some b) := by
  rw [parquetMetadataPredicateTruth,hop] at h
  simp only at h
  split at h
  next truth htruth => rw [htruth,h]
  next error herror =>
    have hliteral : sqlLiteralValue host.toHost (.identifier name) = expectedLiteral host.toHost (.identifier name) := rfl
    rw [parquetMetadataColumnLiteralPredicateTruth,hliteral] at h
    cases hcolumn : sqlColumnName host.toHost none right with
    | ok column => rw [hcolumn] at h; cases h
    | error error => rw [hcolumn] at h; cases h

theorem evaluateScalarPredicate_of_decides {literal : LiteralValue} {n : ℤ}
    (hop : operator.comparison = some op) (h : DecidesRows host op literalExpr array b literal n)
    (hfind : batch.FindsColumn name array) (hread : readsAsLiteral literalExpr = true)
    (htype : array.columnType ≠ .uint32) :
    evaluateScalarPredicate host batch (.binaryOp (.identifier name) operator literalExpr) none =
      .ok (List.replicate batch.numRows (some b)) := by
  have hmask : vectorArrayLiteralCompare host op literal array =
      .ok (some (Sql.vectorCompare (compareOptionalValues op) array.numbers (some n))) :=
    vectorArrayLiteralCompare_of_metadata h.number_eq htype
  rw [h.vectorCompare,hfind.length_eq] at hmask
  exact evaluateScalarPredicate_of_vector hop (parseScalarSqlExpression_identifier host.toHost name none)
    (parseScalarSqlExpression_literal hread h.literal_eq) h.literal_ne hfind.outputColumn hmask

theorem evaluateScalarPredicate_date {literal : LiteralValue} {n : ℤ} {dataType : String}
    {value : Value} (hop : operator.comparison = some op)
    (h : DecidesRows host op (.typedString dataType value) array b literal n) (hfind : batch.FindsColumn name array)
    (hdate : array.columnType = .date32) :
    evaluateScalarPredicate host batch (.binaryOp (.identifier name) operator (.typedString dataType value)) none =
      .ok (List.replicate batch.numRows (some b)) := by
  have hgeneral := h.generalComparison_date hfind hdate
  obtain ⟨-,text,hquoted,-⟩ := literalOfTypedString_eq_ok h.literal_eq
  have hparse : parseScalarSqlExpression host.toHost none (.typedString dataType value) =
      .ok (.cast (.literal (.utf8 text)) dataType) := by
    rcases hquoted with rfl | rfl <;> rfl
  have hvector : vectorComparison host batch (singlePredicateParser host.toHost none) op (.identifier name)
      (.typedString dataType value) = .ok none := by
    rw [vectorComparison]
    simp only [singlePredicateParser,parseScalarSqlExpression_identifier,hparse]
    rfl
  rw [evaluateScalarPredicate,evaluateScalarPredicateWithParser,evaluatePredicateWith_comparison hop,orGeneral,
    tryEvaluateVectorScalarPredicate_comparison hop,hvector]
  exact hgeneral

/-- A NULL test that no counted NULL decides. -/
theorem evaluateScalarPredicate_isNotNull (hreads : file.Reads batch) (hfind : batch.FindsColumn name array)
    (h : parquetColumnIsNeverNull file.statistics name = .ok (some b)) :
    evaluateScalarPredicate host batch (.isNotNull (.identifier name)) none =
      .ok (List.replicate batch.numRows (some b)) := by
  obtain ⟨found,hstatistics,h⟩ := bind_eq_ok_iff.mp h
  cases found with
  | none => cases h
  | some ranges =>
    have hnever : (if ranges.all fun range => range.nullCount = some 0 then some true else none) = some b :=
      Except.ok.inj h
    split at hnever
    next hall =>
      cases hnever
      have hnulls : ∀ range ∈ ranges, range.nullCount = some 0 := fun range hrange =>
        of_decide_eq_true (List.all_eq_true.mp hall range hrange)
      have hcell : evaluateScalarExpression host batch (.column name) = .ok (.array array) :=
        map_eq_ok_iff.mpr ⟨_,hfind.outputColumn,rfl⟩
      have hmask : (List.range array.length).map (fun row => some (array.isNull row != true)) =
          List.replicate batch.numRows (some true) := by
        refine List.eq_replicate_iff.mpr ⟨by rw [List.length_map,List.length_range,hfind.length_eq],fun result hresult => ?_⟩
        obtain ⟨row,hrow,he⟩ := List.mem_map.mp hresult
        have hrow : row < batch.numRows := hfind.length_eq ▸ List.mem_range.mp hrow
        rw [← he,hreads.not_isNull hfind.mem hstatistics hnulls hrow]
        rfl
      have hpredicate : evaluateScalarPredicate host batch (.isNotNull (.identifier name)) none =
          nullPredicate host batch (singlePredicateParser host.toHost none) true (.identifier name) := rfl
      rw [hpredicate,nullPredicate]
      simp only [singlePredicateParser,parseScalarSqlExpression_identifier,except_bind_ok,hcell]
      exact congrArg Except.ok hmask
    next => cases hnever

/-- A verdict of the statistics is what the evaluator says of every row. -/
theorem parquetMetadataPredicateTruth_sound {predicate : SqlExpr} (hreads : file.Reads batch)
    (h : parquetMetadataPredicateTruth host file.statistics predicate = .ok (some b))
    (halike : ReadsAlike batch predicate) :
    evaluateScalarPredicate host batch predicate none = .ok (List.replicate batch.numRows (some b)) := by
  unfold ReadsAlike at halike
  split at halike
  next name =>
    obtain ⟨array,hfind⟩ := halike
    exact evaluateScalarPredicate_isNotNull hreads hfind h
  next name operator dataType value =>
    obtain ⟨array,hfind,hdate⟩ := halike
    obtain ⟨op,hop⟩ := comparison_of_truth h
    obtain ⟨literal,n,hdecides⟩ := decidesRows hreads hfind.mem (parquetMetadataPredicateTruth_comparison hop h)
    exact evaluateScalarPredicate_date hop hdecides hfind hdate
  next name operator right _ =>
    obtain ⟨array,hfind,htype,hread⟩ := halike
    obtain ⟨op,hop⟩ := comparison_of_truth h
    obtain ⟨literal,n,hdecides⟩ := decidesRows hreads hfind.mem (parquetMetadataPredicateTruth_comparison hop h)
    exact evaluateScalarPredicate_of_decides hop hdecides hfind hread htype
  next => exact halike.elim

end Decided

section Examples

def nineFile : ParquetFile where
  rowGroups := [nineBatch]
  statistics column := .ok (if column = "a" then some [⟨0,1,some 0,9,9,.int64⟩] else none)
  describes column ranges h := by
    have h := Except.ok.inj h
    split at h
    next hcolumn =>
      cases h
      rw [hcolumn]
      refine .cons ⟨.int64 [some 9],rfl,rfl,fun count hcount => ?_,fun row value hvalue => ?_⟩ .nil
      · cases hcount
        rfl
      · cases row with
        | zero => cases hvalue; exact ⟨le_refl _,le_refl _⟩
        | succ row => cases hvalue
    next => cases h

theorem nineFile_reads : nineFile.Reads nineBatch where
  typed column hcolumn group hgroup stored hstored := by
    cases List.mem_singleton.mp hcolumn
    cases List.mem_singleton.mp hgroup
    cases hstored
    rfl
  rows row hrow := by
    have hzero : row = 0 := Nat.lt_one_iff.mp hrow
    refine ⟨nineBatch,List.mem_singleton_self _,0,Nat.one_pos,fun column hcolumn => ?_⟩
    cases List.mem_singleton.mp hcolumn
    rw [hzero]
    exact ⟨.int64 [some 9],rfl,rfl,rfl⟩

/-- `a < 10` -/
theorem parquetMetadataPredicateTruth_sound_nine :
    evaluateScalarPredicate asciiHost nineBatch (.binaryOp (.identifier "a") .lt (.value (.number "10" false))) none =
      .ok [some true] :=
  have hverdict : parquetMetadataPredicateTruth asciiHost nineFile.statistics
      (.binaryOp (.identifier "a") .lt (.value (.number "10" false))) = .ok (some true) := rfl
  parquetMetadataPredicateTruth_sound nineFile_reads hverdict ⟨.int64 [some 9],rfl,by decide,rfl⟩

/-- `a < SUBSTRING('10x', 1, 2)`, a number to the statistics and a text to the evaluator -/
def substringPredicate : SqlExpr :=
  .binaryOp (.identifier "a") .lt (.substring (.value (.singleQuotedString "10x"))
    (some (.value (.number "1" false))) (some (.value (.number "2" false))))

/-- The statistics call the predicate true of a row that the evaluator calls false. -/
theorem parquetMetadataPredicateTruth_substring :
    ¬ ∀ (host : ScalarHost) (file : ParquetFile) (batch : NamedBatch) (predicate : SqlExpr) (b : Bool), file.Reads batch →
      parquetMetadataPredicateTruth host file.statistics predicate = .ok (some b) →
      evaluateScalarPredicate host batch predicate none = .ok (List.replicate batch.numRows (some b)) := by
  intro h
  have htrue := h asciiHost nineFile nineBatch substringPredicate true nineFile_reads rfl
  have hfalse : evaluateScalarPredicate asciiHost nineBatch substringPredicate none = .ok [some false] := rfl
  rw [hfalse] at htrue
  cases htrue

end Examples
end Dodam.Sql

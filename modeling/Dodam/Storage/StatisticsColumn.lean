import Dodam.Execution.Filter.Expr

/-! # The statistics that pruning consults

Row groups are pruned by the statistics of a column chunk.
-/
namespace Dodam.Storage
open Foundation Execution

inductive ArrowType
  | boolean
  | int32
  | int64
  | uint32
  | float64
  | date32
  | date64
  | utf8
  | decimal128 (precision : UInt8) (scale : Int8)
  | timestamp (unit : TimeUnit)
  | other (name : String)
  | struct (fields : List (String × ArrowType))
  | list (item : ArrowType)
  | map (key value : ArrowType)

abbrev Schema := List (String × ArrowType)

mutual

/-- The paths of the leaves of a type, in the order of its columns in a file. -/
def ArrowType.leafPaths : ArrowType → List (List String)
  | .struct fields => leafPathsOfFields fields
  | .list item => item.leafPaths.map (["list","element"] ++ ·)
  | .map key value => key.leafPaths.map (["key_value","key"] ++ ·) ++ value.leafPaths.map (["key_value","value"] ++ ·)
  | _ => [[]]

def leafPathsOfFields : List (String × ArrowType) → List (List String)
  | [] => []
  | (name,type) :: fields => type.leafPaths.map (name :: ·) ++ leafPathsOfFields fields

end

/-- A leaf of a schema: the position of its root field and its path. -/
structure Leaf where
  root : ℕ
  path : List String
deriving DecidableEq

def schemaLeaves (schema : Schema) : List Leaf :=
  schema.zipIdx.flatMap fun e => e.1.2.leafPaths.map fun path => ⟨e.2,e.1.1 :: path⟩

inductive StatisticsValues
  | boolean (min max : Option Bool)
  | int32 (min max : Option ℤ)
  | int64 (min max : Option ℤ)
  | double
  | byteArray (min max : Option (List UInt8))
  | fixedLenByteArray (min max : Option (List UInt8))
  | other

structure Statistics where
  values : StatisticsValues
  isMinMaxDeprecated : Bool
  minIsExact : Bool
  maxIsExact : Bool

def Statistics.inexact (statistics : Statistics) : Bool :=
  statistics.isMinMaxDeprecated || !statistics.minIsExact || !statistics.maxIsExact

structure ColumnChunkMetaData where
  leaf : Leaf
  statistics : Option Statistics

/-- A row group holds a chunk for each leaf of the schema, in their order. -/
structure RowGroupMetaData (schema : Schema) where
  columns : List ColumnChunkMetaData
  columns_leaves : columns.map ColumnChunkMetaData.leaf = schemaLeaves schema

/-- The first field that a test accepts, with its position. -/
def Schema.position (schema : Schema) (accepts : String × ArrowType → Bool) : Option ((String × ArrowType) × ℕ) :=
  schema.zipIdx.find? fun e => accepts e.1

section Readers
variable {schema : Schema}

/-- The chunk that a reader takes for the field that its test accepts. -/
def RowGroupMetaData.consulted (rowGroup : RowGroupMetaData schema) (accepts : String × ArrowType → Bool) : Option ColumnChunkMetaData :=
  (schema.position accepts).bind fun e => rowGroup.columns[e.2]?

abbrev TypedComparison := StatisticsValues → ArrowType → ComparisonExpr → Result Bool

def mayContainComparison (typed : TypedComparison) (statistics : Statistics) (dataType : ArrowType) (comparison : ComparisonExpr) :
    Result Bool :=
  if statistics.inexact then .ok true else typed statistics.values dataType comparison

def rowGroupMayMatchComparison (typed : TypedComparison) (rowGroups : List (RowGroupMetaData schema)) (rowGroupIndex : ℕ)
    (comparison : ComparisonExpr) : Result Bool :=
  match schema.position fun field => field.1 = comparison.column with
  | none => .ok true
  | some (field,columnIndex) =>
    match (rowGroups[rowGroupIndex]?).bind fun rowGroup => rowGroup.columns[columnIndex]? with
    | none => .ok true
    | some column =>
      match column.statistics with
      | none => .ok true
      | some statistics => mayContainComparison typed statistics field.2 comparison

/-- The first byte string above every string that starts with the given bytes. -/
def asciiPrefixUpperBound (bytes : List UInt8) : Option (List UInt8) :=
  match bytes.reverse.dropWhile (· = 255) with
  | [] => none
  | byte :: rest => some ((byte + 1) :: rest).reverse

/-- The bounds of the strings that match a pattern, which is a text followed by `%`. -/
def likePrefixPruningRange (pattern : List Char) (escape : Option Char) : Option (List UInt8 × Option (List UInt8)) :=
  if escape.isSome || pattern.contains '_' || pattern.head? = some '%' then none
  else if pattern.getLast? ≠ some '%' then none
  else
    let stem := pattern.dropLast
    if stem.isEmpty || stem.contains '%' || !stem.all (·.toNat < 128) then none
    else some (stem.map (·.toNat.toUInt8),asciiPrefixUpperBound (stem.map (·.toNat.toUInt8)))

def prefixRangeMayMatch (min max : Option (List UInt8)) (lowerBound : List UInt8) (upperBound : Option (List UInt8)) : Bool :=
  (max.all fun max => lowerBound ≤ max) && upperBound.all fun upperBound => min.all fun min => min < upperBound

def rowGroupMayMatchLike (rowGroups : List (RowGroupMetaData schema)) (rowGroupIndex : ℕ) (like : LikeExpr) : Bool :=
  match likePrefixPruningRange like.pattern.toList like.escape with
  | none => true
  | some (lowerBound,upperBound) =>
    if like.negated then true
    else
      match schema.position fun field => field.1 = like.column with
      | some ((_,.utf8),columnIndex) =>
        match (rowGroups[rowGroupIndex]?).bind fun rowGroup => rowGroup.columns[columnIndex]? with
        | none => true
        | some column =>
          match column.statistics with
          | some ⟨.byteArray min max,false,true,true⟩ => prefixRangeMayMatch min max lowerBound upperBound
          | _ => true
      | _ => true

def rowGroupMayMatch (typed : TypedComparison) (rowGroups : List (RowGroupMetaData schema)) (rowGroupIndex : ℕ) : Expr → Result Bool
  | .comparison comparison =>
    if comparison.value = .null then .ok true else rowGroupMayMatchComparison typed rowGroups rowGroupIndex comparison
  | .and left right =>
    rowGroupMayMatch typed rowGroups rowGroupIndex left >>= fun mayMatch =>
      if mayMatch then rowGroupMayMatch typed rowGroups rowGroupIndex right else .ok false
  | .or left right =>
    rowGroupMayMatch typed rowGroups rowGroupIndex left >>= fun mayMatch =>
      if mayMatch then .ok true else rowGroupMayMatch typed rowGroups rowGroupIndex right
  | .like like => if like.caseInsensitive then .ok true else .ok (rowGroupMayMatchLike rowGroups rowGroupIndex like)
  | _ => .ok true

def pruneRowGroups (typed : TypedComparison) (rowGroups : List (RowGroupMetaData schema)) (pruningPredicates : List Expr) :
    Result (List ℕ) :=
  (List.range rowGroups.length).filterMapM fun rowGroupIndex => do
    let verdicts ← pruningPredicates.mapM (rowGroupMayMatch typed rowGroups rowGroupIndex)
    return if verdicts.all id then some rowGroupIndex else none

def isInt64 : ArrowType → Bool
  | .int64 => true
  | _ => false

def readParquetI64ColumnMax (rowGroups : List (RowGroupMetaData schema)) (column : String) : Option ℤ :=
  (rowGroups.foldlM (fun (maxValue : Option ℤ) (rowGroup : RowGroupMetaData schema) =>
    (rowGroup.consulted fun field => field.1 = column && isInt64 field.2).bind fun chunk =>
      chunk.statistics.bind fun statistics =>
        if statistics.inexact then none
        else
          match statistics.values with
          | .int64 _ (some value) => some (some ((maxValue.map (max · value)).getD value))
          | _ => none) none).join

/-- The types whose bounds are read as integers. -/
def isRangeType : ArrowType → Bool
  | .int32 | .int64 | .date32 | .date64 | .timestamp _ | .uint32 | .decimal128 _ _ => true
  | _ => false

def rowGroupI128MinMax (decimalBytes : List UInt8 → Option ℤ) (dataType : ArrowType) (values : StatisticsValues) : Option (ℤ × ℤ) :=
  match dataType, values with
  | .int32, .int32 (some min) (some max) => some (min,max)
  | .date32, .int32 (some min) (some max) => some (min,max)
  | .int64, .int64 (some min) (some max) => some (min,max)
  | .date64, .int64 (some min) (some max) => some (min,max)
  | .timestamp _, .int64 (some min) (some max) => some (min,max)
  | .uint32, .int32 (some min) (some max) => if 0 ≤ min ∧ 0 ≤ max then some (min,max) else none
  | .decimal128 _ _, .int32 (some min) (some max) => some (min,max)
  | .decimal128 _ _, .int64 (some min) (some max) => some (min,max)
  | .decimal128 _ _, .fixedLenByteArray (some min) (some max) =>
    (decimalBytes min).bind fun min => (decimalBytes max).map fun max => (min,max)
  | .decimal128 _ _, .byteArray (some min) (some max) =>
    (decimalBytes min).bind fun min => (decimalBytes max).map fun max => (min,max)
  | _, _ => none

def readParquetPrimitiveColumnMinMaxByRowGroup (decimalBytes : List UInt8 → Option ℤ) (rowGroups : List (RowGroupMetaData schema))
    (column : String) : Option (List (ℤ × ℤ)) :=
  (schema.position fun field => field.1 = column && isRangeType field.2).bind fun e =>
    rowGroups.mapM fun rowGroup =>
      (rowGroup.columns[e.2]?).bind fun chunk =>
        chunk.statistics.bind fun statistics =>
          if statistics.inexact then none else rowGroupI128MinMax decimalBytes e.1.2 statistics.values

end Readers

def leavesBefore (schema : Schema) (i : ℕ) : ℕ := ((schema.take i).map fun field => field.2.leafPaths.length).sum

/-- The leaf at the position of a field is one of its own. -/
def WellPlaced (schema : Schema) (i : ℕ) : Prop := leavesBefore schema i ≤ i ∧ i < leavesBefore schema (i + 1)

instance (schema : Schema) (i : ℕ) : Decidable (WellPlaced schema i) := inferInstanceAs (Decidable (_ ∧ _))

section Leaves
variable {schema : Schema}

theorem leavesBefore_cons (field : String × ArrowType) (schema : Schema) (i : ℕ) :
    leavesBefore (field :: schema) (i + 1) = field.2.leafPaths.length + leavesBefore schema i := by
  simp [leavesBefore]

/-- The leaves of the fields of a schema whose positions start at `start`. -/
def leavesFrom (start : ℕ) (schema : Schema) : List Leaf :=
  (schema.zipIdx start).flatMap fun e => e.1.2.leafPaths.map fun path => ⟨e.2,e.1.1 :: path⟩

theorem leavesFrom_cons (start : ℕ) (field : String × ArrowType) (schema : Schema) :
    leavesFrom start (field :: schema) =
      (field.2.leafPaths.map fun path => (⟨start,field.1 :: path⟩ : Leaf)) ++ leavesFrom (start + 1) schema := rfl

theorem le_root_of_mem {start : ℕ} {leaf : Leaf} (h : leaf ∈ leavesFrom start schema) : start ≤ leaf.root := by
  obtain ⟨e,he,hleaf⟩ := List.mem_flatMap.mp h
  obtain ⟨_,_,rfl⟩ := List.mem_map.mp hleaf
  exact (List.mem_zipIdx he).1

/-- The leaves of a field stand behind those of the fields before it. -/
theorem root_leavesFrom (schema : Schema) (start i k : ℕ) :
    ((leavesFrom start schema)[k]?).map Leaf.root = some (start + i) ↔ leavesBefore schema i ≤ k ∧ k < leavesBefore schema (i + 1) := by
  induction schema generalizing start i k with
  | nil => simp [leavesFrom,leavesBefore]
  | cons field schema ih =>
    rw [leavesFrom_cons,leavesBefore_cons,List.getElem?_append,List.length_map]
    by_cases hk : k < field.2.leafPaths.length
    · -- a leaf of the first field
      rw [if_pos hk,List.getElem?_map,List.getElem?_eq_getElem hk]
      simp only [Option.map_some,Option.some.injEq]
      cases i with
      | zero => simp [leavesBefore,hk]
      | succ i =>
        rw [leavesBefore_cons]
        omega
    · rw [if_neg hk]
      cases i with
      | zero =>
        have hzero : leavesBefore schema 0 = 0 := rfl
        rw [hzero]
        constructor
        · intro h
          obtain ⟨leaf,hleaf,hroot⟩ := Option.map_eq_some_iff.mp h
          have hle := le_root_of_mem (List.mem_of_getElem? hleaf)
          omega
        · omega
      | succ i =>
        have hsum : start + (i + 1) = start + 1 + i := by omega
        rw [hsum,ih,leavesBefore_cons]
        omega

theorem root_schemaLeaves (i k : ℕ) :
    ((schemaLeaves schema)[k]?).map Leaf.root = some i ↔ leavesBefore schema i ≤ k ∧ k < leavesBefore schema (i + 1) := by
  have h := root_leavesFrom schema 0 i k
  rw [Nat.zero_add] at h
  exact h

theorem root_columns (rowGroup : RowGroupMetaData schema) (k : ℕ) :
    (rowGroup.columns[k]?).map (·.leaf.root) = ((schemaLeaves schema)[k]?).map Leaf.root := by
  rw [← rowGroup.columns_leaves,List.getElem?_map,Option.map_map]
  rfl

end Leaves

section Pruning
variable {schema : Schema}

/-- The columns whose statistics a predicate asks for. -/
def pruningColumns : Expr → List String
  | .comparison comparison => [comparison.column]
  | .like like => [like.column]
  | .and left right | .or left right => pruningColumns left ++ pruningColumns right
  | _ => []

def SameChunks (g g' : RowGroupMetaData schema) (i : ℕ) : Prop :=
  ∀ k : ℕ, ((schemaLeaves schema)[k]?).map Leaf.root = some i → g.columns[k]? = g'.columns[k]?

/-- The fields of the predicate's columns are well placed and have the same chunks in both row groups. -/
def SameOwnStatistics (g g' : RowGroupMetaData schema) (columns : List String) : Prop :=
  ∀ column ∈ columns, ∀ e ∈ schema.position fun field => field.1 = column, WellPlaced schema e.2 ∧ SameChunks g g' e.2

variable {g g' : RowGroupMetaData schema} {rowGroups rowGroups' : List (RowGroupMetaData schema)}

theorem column_eq {columns : List String} (h : SameOwnStatistics g g' columns) {column : String}
    (hcolumn : column ∈ columns) {e : (String × ArrowType) × ℕ} (he : (schema.position fun field => field.1 = column) = some e) :
    g.columns[e.2]? = g'.columns[e.2]? :=
  (h column hcolumn e he).2 e.2 ((root_schemaLeaves e.2 e.2).mpr (h column hcolumn e he).1)

theorem rowGroupMayMatchComparison_congr (typed : TypedComparison) {index : ℕ} (hg : rowGroups[index]? = some g) (hg' : rowGroups'[index]? = some g') {comparison : ComparisonExpr}
    (h : SameOwnStatistics g g' [comparison.column]) :
    rowGroupMayMatchComparison typed rowGroups index comparison = rowGroupMayMatchComparison typed rowGroups' index comparison := by
  unfold rowGroupMayMatchComparison
  rw [hg,hg']
  cases he : schema.position fun field => field.1 = comparison.column with
  | none => rfl
  | some e =>
    simp only [Option.bind_some]
    rw [column_eq h (List.mem_singleton_self _) he]

theorem rowGroupMayMatchLike_congr {index : ℕ} (hg : rowGroups[index]? = some g) (hg' : rowGroups'[index]? = some g') {like : LikeExpr}
    (h : SameOwnStatistics g g' [like.column]) : rowGroupMayMatchLike rowGroups index like = rowGroupMayMatchLike rowGroups' index like := by
  unfold rowGroupMayMatchLike
  rw [hg,hg']
  cases likePrefixPruningRange like.pattern.toList like.escape with
  | none => rfl
  | some bounds =>
    cases he : schema.position fun field => field.1 = like.column with
    | none => rfl
    | some e =>
      have hcolumn := column_eq h (List.mem_singleton_self _) he
      obtain ⟨⟨name,type⟩,columnIndex⟩ := e
      cases type <;> simp only [Option.bind_some,hcolumn]

theorem rowGroupMayMatch_congr (typed : TypedComparison) {index : ℕ} (hg : rowGroups[index]? = some g) (hg' : rowGroups'[index]? = some g') {predicate : Expr}
    (h : SameOwnStatistics g g' (pruningColumns predicate)) :
    rowGroupMayMatch typed rowGroups index predicate = rowGroupMayMatch typed rowGroups' index predicate := by
  induction predicate with
  | comparison comparison => simp only [rowGroupMayMatch,rowGroupMayMatchComparison_congr typed hg hg' h]
  | like like => simp only [rowGroupMayMatch,rowGroupMayMatchLike_congr hg hg' h]
  | and left right ihl ihr | or left right ihl ihr =>
    have hleft := ihl fun column hcolumn => h column (List.mem_append_left _ hcolumn)
    have hright := ihr fun column hcolumn => h column (List.mem_append_right _ hcolumn)
    simp only [rowGroupMayMatch,hleft,hright]
  | _ => rfl

/-- A reader takes a chunk of the field's own leaves exactly when the field is well placed, and where a predicate's
columns are well placed its verdict depends on their own chunks only. -/
theorem consulted_own (schema : Schema) :
    (∀ (rowGroup : RowGroupMetaData schema) (accepts : String × ArrowType → Bool),
      (rowGroup.consulted accepts).map (·.leaf.root) = (schema.position accepts).map Prod.snd ↔
        ∀ e ∈ schema.position accepts, WellPlaced schema e.2) ∧
      ∀ (typed : TypedComparison) (rowGroups rowGroups' : List (RowGroupMetaData schema)) (index : ℕ) (g g' : RowGroupMetaData schema)
        (predicate : Expr), rowGroups[index]? = some g → rowGroups'[index]? = some g' →
        SameOwnStatistics g g' (pruningColumns predicate) →
        rowGroupMayMatch typed rowGroups index predicate = rowGroupMayMatch typed rowGroups' index predicate := by
  constructor
  · intro rowGroup accepts
    unfold RowGroupMetaData.consulted
    cases schema.position accepts with
    | none => simp
    | some e =>
      rw [Option.bind_some,root_columns,Option.map_some,root_schemaLeaves]
      simp [WellPlaced]
  · intro typed rowGroups rowGroups' index g g' predicate hg hg' h
    exact rowGroupMayMatch_congr typed hg hg' h

section Samples

def exactInt64 (min max : ℤ) : Option Statistics := some ⟨.int64 (some min) (some max),false,true,true⟩

/-- Two `Int64` columns. -/
def flatSchema : Schema := [("a",.int64),("b",.int64)]

def flatRowGroup (first : ℤ) : RowGroupMetaData flatSchema := ⟨[⟨⟨0,["a"]⟩,exactInt64 0 first⟩,⟨⟨1,["b"]⟩,exactInt64 3 8⟩],rfl⟩

/-- A struct of two `Int64` columns before another one. -/
def structSchema : Schema := [("s",.struct [("x",.int64),("y",.int64)]),("k",.int64)]

def structRowGroup : RowGroupMetaData structSchema :=
  ⟨[⟨⟨0,["s","x"]⟩,exactInt64 0 1⟩,⟨⟨0,["s","y"]⟩,exactInt64 0 5⟩,⟨⟨1,["k"]⟩,exactInt64 100 200⟩],rfl⟩

/-- Equality with an `Int64` literal. -/
def typedInt64 : TypedComparison
  | .int64 (some min) (some max), _, ⟨_,.eq,.int64 value⟩ => .ok (min ≤ value.toInt && value.toInt ≤ max)
  | _, _, _ => .ok true

theorem consulted_own_flat :
    rowGroupMayMatch typedInt64 [flatRowGroup 1] 0 (.comparison ⟨"b",.eq,.int64 5⟩) =
      rowGroupMayMatch typedInt64 [flatRowGroup 9] 0 (.comparison ⟨"b",.eq,.int64 5⟩) := by
  apply (consulted_own flatSchema).2 _ _ _ _ (flatRowGroup 1) (flatRowGroup 9) _ rfl rfl
  intro column hcolumn e he
  obtain rfl := List.mem_singleton.mp hcolumn
  obtain rfl : e = (("b",.int64),1) := (Option.some.inj he).symm
  refine ⟨by decide,fun k hk => ?_⟩
  match k, hk with
  | 1, _ => rfl

/-- The bounds of `s.y` prune a row group whose `k` may be the literal. -/
theorem consulted_other :
    (structRowGroup.consulted fun field => field.1 = "k").map (·.leaf) = some ⟨0,["s","y"]⟩ ∧
      rowGroupMayMatch typedInt64 [structRowGroup] 0 (.comparison ⟨"k",.eq,.int64 150⟩) = .ok false := by
  decide

end Samples
end Pruning
end Dodam.Storage

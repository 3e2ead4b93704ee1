import Dodam.Execution.BatchView

/-! # Evaluating a filter on a view

Comparisons and IN lists over integer columns are evaluated without arrays: a column without
NULLs gives its mask in words of 64 rows, any other one row after the other.
-/
namespace Dodam.Execution
open Foundation

section Words

/-- A word's bits are appended at once when they are all the same. -/
def appendBooleanMaskWord (values : List Bool) (len mask : ℕ) : List Bool :=
  if len = 0 then values
  else
    let validMask := if len = 64 then 2 ^ 64 - 1 else 2 ^ len - 1
    let mask := mask &&& validMask
    if mask = 0 then values ++ List.replicate len false
    else if mask = validMask then values ++ List.replicate len true
    else values ++ (List.range len).map mask.testBit

def maskWord (lanes : ℕ) (valueAt : ℕ → Bool) : ℕ :=
  (List.range lanes).foldl (fun mask lane => if valueAt lane then mask ||| 1 <<< lane else mask) 0

def maskWordsFrom (len : ℕ) (valueAt : ℕ → Bool) (row : ℕ) (values : List Bool) : List Bool :=
  if row + 64 ≤ len then
    maskWordsFrom len valueAt (row + 64)
      (appendBooleanMaskWord values 64 (maskWord 64 fun lane => valueAt (row + lane)))
  else if row < len then
    appendBooleanMaskWord values (len - row) (maskWord (len - row) fun lane => valueAt (row + lane))
  else values
termination_by len - row

def booleanArrayNoNullsFromLen (len : ℕ) (valueAt : ℕ → Bool) : Mask := (maskWordsFrom len valueAt 0 []).map some

def booleanArrayNoNullsFromI32Bytes (data : List UInt8) (len : ℕ) (valueAt : Int32 → Bool) : Mask :=
  booleanArrayNoNullsFromLen len fun row => valueAt (readI32LeUnaligned data row)

def booleanArrayNoNullsFromI64Bytes (data : List UInt8) (len : ℕ) (valueAt : Int64 → Bool) : Mask :=
  booleanArrayNoNullsFromLen len fun row => valueAt (readI64LeUnaligned data row)

end Words

section Views

def compareI64 (left : ℤ) (op : ComparisonOp) (right : ℤ) : Bool := decide (op.Holds left right)

/-- The comparison of a view with a literal; `fromBytes` reads a mask off bytes. -/
def compareView {α : Type} [Inhabited α] (toI64 : α → ℤ) (read : List UInt8 → ℕ → α)
    (fromBytes : List UInt8 → ℕ → (α → Bool) → Mask) (values : VectorView α) (op : ComparisonOp) (literal : ℤ) : Mask :=
  match values.valuesIfNullFree with
  | some raw => booleanArrayNoNullsFromLen raw.length fun row => compareI64 (toI64 (raw.getD row default)) op literal
  | none =>
    match values.bytes with
    | some (data,len) => fromBytes data len fun value => compareI64 (toI64 value) op literal
    | none => (List.range values.len).map fun row =>
      if values.isNull row then none else some (compareI64 (toI64 (values.value read row)) op literal)

def compareI64View (values : VectorView Int64) (op : ComparisonOp) (literal : ℤ) : Mask :=
  compareView Int64.toInt readI64LeUnaligned booleanArrayNoNullsFromI64Bytes values op literal

def compareI32View (values : VectorView Int32) (op : ComparisonOp) (literal : ℤ) : Mask :=
  compareView Int32.toInt readI32LeUnaligned booleanArrayNoNullsFromI32Bytes values op literal

def compareDate32View (values : VectorView Int32) (op : ComparisonOp) (literal : ℤ) : Mask :=
  compareView Int32.toInt readI32LeUnaligned booleanArrayNoNullsFromI32Bytes values op literal

/-- Lists of up to four members are compared one by one. -/
def smallInListMatch (value : ℤ) : List ℤ → Bool
  | [] => false
  | [a] => value = a
  | [a,b] => value = a || value = b
  | [a,b,c] => value = a || value = b || value = c
  | [a,b,c,d] => value = a || value = b || value = c || value = d
  | list => list.contains value

def inListResult (matched negated hasNull : Bool) : Option Bool :=
  if matched then some !negated else if hasNull then none else some negated

def selectedInListResult (matched negated hasNull : Bool) : Bool :=
  if matched then !negated else if hasNull then false else negated

def inListView {α : Type} [Inhabited α] (toI64 : α → ℤ) (read : List UInt8 → ℕ → α)
    (fromBytes : List UInt8 → ℕ → (α → Bool) → Mask) (values : VectorView α) (list : List ℤ) (negated hasNull : Bool) : Mask :=
  match if hasNull then none else values.valuesIfNullFree with
  | some raw => booleanArrayNoNullsFromLen raw.length fun row =>
      selectedInListResult (smallInListMatch (toI64 (raw.getD row default)) list) negated false
  | none =>
    match if hasNull then none else values.bytes with
    | some (data,len) => fromBytes data len fun value =>
        selectedInListResult (smallInListMatch (toI64 value) list) negated false
    | none => (List.range values.len).map fun row =>
      if values.isNull row then none
      else inListResult (smallInListMatch (toI64 (values.value read row)) list) negated hasNull

def inListI64View (values : VectorView Int64) (list : List ℤ) (negated hasNull : Bool) : Mask :=
  inListView Int64.toInt readI64LeUnaligned booleanArrayNoNullsFromI64Bytes values list negated hasNull

def inListI32View (values : VectorView Int32) (list : List ℤ) (negated hasNull : Bool) : Mask :=
  inListView Int32.toInt readI32LeUnaligned booleanArrayNoNullsFromI32Bytes values list negated hasNull

end Views

section Evaluate
variable {γ : Type*} (view : BatchView γ) (columns : List String)

def projectedViewColumnIndex (column : String) : Option ℕ := columns.findIdx? (· = column)

def evaluateProjectedViewComparisonMask (comparison : ComparisonExpr) : Result (Option Mask) :=
  if comparison.value = .null then .ok (some (List.replicate view.numRows none))
  else
    match projectedViewColumnIndex columns comparison.column with
    | none => .ok none
    | some index =>
      match view.i64Vector index with
      | some values => (comparison.value.asI64 comparison.column).map fun literal =>
          some (compareI64View values comparison.op literal)
      | none =>
        match view.i32Vector index with
        | some values => (comparison.value.asI32 comparison.column).map fun literal =>
            some (compareI32View values comparison.op literal)
        | none =>
          match view.date32Vector index with
          | some values => (dateLiteralAsI32 comparison.value comparison.column).map fun literal =>
              some (compareDate32View values comparison.op literal)
          | none => .ok none

def nonNullMembers (values : List LiteralValue) : List LiteralValue := values.filter fun value => value ≠ .null

def evaluateProjectedViewInListMask (column : String) (values : List LiteralValue) (negated hasNull : Bool) :
    Result (Option Mask) :=
  match projectedViewColumnIndex columns column with
  | none => .ok none
  | some index =>
    match view.i64Vector index with
    | some probe => ((nonNullMembers values).mapM fun value : LiteralValue => value.asI64 column).map fun list =>
        some (inListI64View probe list negated hasNull)
    | none =>
      match view.i32Vector index with
      | some probe => ((nonNullMembers values).mapM fun value : LiteralValue => value.asI32 column).map fun list =>
          some (inListI32View probe list negated hasNull)
      | none => .ok none

def evaluateProjectedViewExprMask : Expr → Result (Option Mask)
  | .boolean value => .ok (some (List.replicate view.numRows value))
  | .comparison comparison => evaluateProjectedViewComparisonMask view columns comparison
  | .inList column values negated hasNull => evaluateProjectedViewInListMask view columns column values negated hasNull
  | .not expr => (evaluateProjectedViewExprMask expr).map (Option.map notMask)
  | .and left right => (evaluateProjectedViewExprMask left).bind fun
    | none => .ok none
    | some left => (evaluateProjectedViewExprMask right).map (Option.map (andMasks left))
  | .or left right => (evaluateProjectedViewExprMask left).bind fun
    | none => .ok none
    | some left => (evaluateProjectedViewExprMask right).map (Option.map (orMasks left))
  | .columnComparison _ _ _ | .like _ | .isNull _ _ => .ok none

def evaluateProjectedViewFilterMask (filter : Expr) : Result (Option Mask) := evaluateProjectedViewExprMask view columns filter

end Evaluate

def ProjectedView.rows {γ : Type*} (projected : ProjectedView γ) (column : String) : List (Option ℤ) :=
  match (projectedViewColumnIndex projected.columns column).bind fun index => projected.view.arrays[index]? with
  | some (.stored (.int64 values)) => values.map (Option.map Int64.toInt)
  | some (.stored (.int32 values)) | some (.stored (.date32 values)) => values.map (Option.map Int32.toInt)
  | _ => []

/-- The record batch looks the column up where the view does. -/
def ProjectedView.SameLookup {γ : Type*} (projected : ProjectedView γ) (column : String) : Prop :=
  ∀ index, projectedViewColumnIndex projected.columns column = some index → columnIndex projected.columns column = .ok index

/-- A NULL meets a list with members, and a list with an undeclared NULL is met by its values only. -/
def InListAgrees (values : List LiteralValue) (hasNull : Bool) (row : Option ℤ) : Prop :=
  hasNull = true ∨ (row = none → values ≠ []) ∧
    ∀ x, row = some x → LiteralValue.null ∈ values → ∃ n : Int64, LiteralValue.int64 n ∈ values ∧ n.toInt = x

/-- Every name of the filter is looked up alike, and every IN list agrees with every row. -/
def ProjectedView.Agrees {γ : Type*} (projected : ProjectedView γ) : Expr → Prop
  | .comparison comparison => comparison.value ≠ .null → projected.SameLookup comparison.column
  | .inList column values _ hasNull => (nonNullMembers values ≠ [] → projected.SameLookup column) ∧
      ∀ row ∈ projected.rows column, InListAgrees values hasNull row
  | .not expr => projected.Agrees expr
  | .and left right | .or left right => projected.Agrees left ∧ projected.Agrees right
  | .boolean _ | .columnComparison _ _ _ | .like _ | .isNull _ _ => True

section Words
variable {valueAt : ℕ → Bool}

theorem testBit_maskWord (lanes i : ℕ) : (maskWord lanes valueAt).testBit i = (decide (i < lanes) && valueAt i) := by
  induction lanes with
  | zero => simp [maskWord]
  | succ lanes ih =>
    have hstep : maskWord (lanes + 1) valueAt =
        if valueAt lanes then maskWord lanes valueAt ||| 1 <<< lanes else maskWord lanes valueAt := by
      simp [maskWord,List.range_succ]
    rw [hstep]
    by_cases hi : i = lanes
    · subst hi
      cases hvalue : valueAt i <;> simp [hvalue,ih,Nat.one_shiftLeft]
    · have hlt : i < lanes + 1 ↔ i < lanes := by omega
      cases hvalue : valueAt lanes
      · simp [ih,hlt]
      · simp [ih,hlt,Nat.one_shiftLeft,Ne.symm hi]

theorem and_maskWord (lanes : ℕ) : maskWord lanes valueAt &&& (2 ^ lanes - 1) = maskWord lanes valueAt := by
  refine Nat.eq_of_testBit_eq fun i => ?_
  rw [Nat.testBit_and,testBit_maskWord,Nat.testBit_two_pow_sub_one]
  cases decide (i < lanes) <;> simp

theorem appendBooleanMaskWord_maskWord (values : List Bool) (lanes : ℕ) :
    appendBooleanMaskWord values lanes (maskWord lanes valueAt) = values ++ (List.range lanes).map valueAt := by
  have hvalid : (if lanes = 64 then 2 ^ 64 - 1 else 2 ^ lanes - 1) = 2 ^ lanes - 1 := by
    split_ifs with h
    · rw [h]
    · rfl
  have hlane : ∀ i ∈ List.range lanes, (maskWord lanes valueAt).testBit i = valueAt i := fun i hi => by
    simp [testBit_maskWord,List.mem_range.mp hi]
  have hconstant : ∀ b : Bool, (∀ i ∈ List.range lanes, (maskWord lanes valueAt).testBit i = b) →
      List.replicate lanes b = (List.range lanes).map valueAt := by
    intro b hb
    refine (List.eq_replicate_iff.mpr ⟨by simp,fun c hc => ?_⟩).symm
    obtain ⟨i,hi,rfl⟩ := List.mem_map.mp hc
    rw [← hlane i hi,hb i hi]
  unfold appendBooleanMaskWord
  dsimp only
  rw [hvalid,and_maskWord]
  split_ifs with hempty hzero hfull
  · rw [hempty]
    simp
  · rw [hconstant false fun i _ => by rw [hzero,Nat.zero_testBit]]
  · rw [hconstant true fun i hi => by rw [hfull,Nat.testBit_two_pow_sub_one]; simpa using hi]
  · rw [List.map_congr_left hlane]

theorem maskWordsFrom_eq (len row : ℕ) (values : List Bool) :
    maskWordsFrom len valueAt row values = values ++ (List.range' row (len - row)).map valueAt := by
  have hword : ∀ row lanes, (List.range lanes).map (fun lane => valueAt (row + lane)) =
      (List.range' row lanes).map valueAt := by
    intro row lanes
    rw [List.range'_eq_map_range,List.map_map]
    rfl
  induction row, values using maskWordsFrom.induct len valueAt with
  | case1 row values h ih =>
    have hsplit : len - row = 64 + (len - (row + 64)) := by omega
    rw [maskWordsFrom,if_pos h,ih,appendBooleanMaskWord_maskWord,hword,List.append_assoc,← List.map_append,hsplit,
      ← List.range'_append_1]
  | case2 row values h htail => rw [maskWordsFrom,if_neg h,if_pos htail,appendBooleanMaskWord_maskWord,hword]
  | case3 row values h htail =>
    have hempty : len - row = 0 := by omega
    rw [maskWordsFrom,if_neg h,if_neg htail,hempty]
    simp

theorem booleanArrayNoNullsFromLen_eq (len : ℕ) (valueAt : ℕ → Bool) :
    booleanArrayNoNullsFromLen len valueAt = (List.range len).map fun row => some (valueAt row) := by
  rw [booleanArrayNoNullsFromLen,maskWordsFrom_eq,List.nil_append,Nat.sub_zero,← List.range_eq_range',List.map_map]
  rfl

end Words

section Views
variable {α : Type} [Inhabited α] {toI64 : α → ℤ} {read : List UInt8 → ℕ → α}
variable {fromBytes : List UInt8 → ℕ → (α → Bool) → Mask} {values : VectorView α}

theorem map_content_of_nullFree {raw : List α} (hraw : values.valuesIfNullFree = some raw) (answer : α → Bool) :
    booleanArrayNoNullsFromLen raw.length (fun row => answer (raw.getD row default)) =
      (values.content read).map (Option.map answer) := by
  rw [booleanArrayNoNullsFromLen_eq,VectorView.content_of_nullFree hraw,List.map_map]
  have hvalues := congrArg (List.map fun value => some (answer value)) (map_range_getD raw default)
  rw [List.map_map] at hvalues
  exact hvalues

theorem compareView_eq (hwell : values.WellFormed)
    (hbytes : ∀ data len (valueAt : α → Bool), fromBytes data len valueAt =
      booleanArrayNoNullsFromLen len fun row => valueAt (read data row)) (op : ComparisonOp) (literal : ℤ) :
    compareView toI64 read fromBytes values op literal =
      compare ((values.content read).map (Option.map toI64)) literal op := by
  have hcompare : compare ((values.content read).map (Option.map toI64)) literal op =
      (values.content read).map (Option.map fun value => compareI64 (toI64 value) op literal) := by
    rw [compare,List.map_map]
    refine List.map_congr_left fun value _ => ?_
    cases value <;> rfl
  rw [hcompare]
  unfold compareView
  split
  · rename_i raw hraw
    exact map_content_of_nullFree hraw fun value => compareI64 (toI64 value) op literal
  · split
    · rename_i data len hview
      rw [hbytes,booleanArrayNoNullsFromLen_eq,VectorView.content_of_bytes hview,List.map_map]
      rfl
    · rw [VectorView.content_eq hwell,List.map_map]
      refine List.map_congr_left fun row _ => ?_
      rw [Function.comp_apply]
      split_ifs <;> rfl

theorem smallInListMatch_iff (value : ℤ) (list : List ℤ) : smallInListMatch value list = decide (value ∈ list) := by
  unfold smallInListMatch
  split <;> simp [Bool.decide_or,Bool.or_assoc]

/-- An answer for each row, from the row's value alone. -/
theorem inListView_eq (hwell : values.WellFormed)
    (hbytes : ∀ data len (valueAt : α → Bool), fromBytes data len valueAt =
      booleanArrayNoNullsFromLen len fun row => valueAt (read data row)) (list : List ℤ) (negated hasNull : Bool) :
    inListView toI64 read fromBytes values list negated hasNull =
      ((values.content read).map (Option.map toI64)).map fun row =>
        row.bind fun value => inListResult (decide (value ∈ list)) negated hasNull := by
  have hplain : hasNull = false → ∀ matched, some (selectedInListResult matched negated false) =
      inListResult matched negated hasNull := by
    rintro rfl matched
    cases matched <;> rfl
  have hanswer : hasNull = false → ∀ content : List (Option α),
      content.map (Option.map fun value => selectedInListResult (smallInListMatch (toI64 value) list) negated false) =
        (content.map (Option.map toI64)).map fun row =>
          row.bind fun value => inListResult (decide (value ∈ list)) negated hasNull := by
    intro hnull content
    rw [List.map_map]
    refine List.map_congr_left fun value _ => ?_
    cases value with
    | none => rfl
    | some value =>
      rw [Option.map_some,hplain hnull,smallInListMatch_iff]
      rfl
  unfold inListView
  split
  · rename_i raw hraw
    have hnull : hasNull = false := by
      cases hasNull with
      | true => cases hraw
      | false => rfl
    rw [← hanswer hnull]
    subst hnull
    exact map_content_of_nullFree hraw fun value => selectedInListResult (smallInListMatch (toI64 value) list) negated false
  · split
    · rename_i data len hview
      have hnull : hasNull = false := by
        cases hasNull with
        | true => cases hview
        | false => rfl
      rw [← hanswer hnull]
      subst hnull
      rw [hbytes,booleanArrayNoNullsFromLen_eq,VectorView.content_of_bytes hview,List.map_map]
      rfl
    · rw [VectorView.content_eq hwell,List.map_map,List.map_map]
      refine List.map_congr_left fun row _ => ?_
      rw [Function.comp_apply,Function.comp_apply]
      split_ifs
      · rfl
      · rw [smallInListMatch_iff]
        rfl

end Views

section Rows
variable {rows : List (Option ℤ)} {f g : Option ℤ → Option Bool}

theorem orMasks_map : orMasks (rows.map f) (rows.map g) = rows.map fun row => orKleene (f row) (g row) := by
  rw [orMasks,List.zipWith_map,List.zipWith_self]

theorem nullifyFalseValues_map :
    nullifyFalseValues (rows.map f) = rows.map fun row => if f row = some true then f row else none := by
  rw [nullifyFalseValues,List.map_map]
  rfl

theorem notMask_map : notMask (rows.map f) = rows.map fun row => (f row).map not := by
  rw [notMask,List.map_map]
  rfl

def memberAnswer (convert : LiteralValue → Result ℤ) (value : LiteralValue) (row : Option ℤ) : Option Bool :=
  if value = .null then none
  else
    match convert value with
    | .ok n => row.map fun x => decide (x = n)
    | .error _ => none

/-- The members one after the other, then the NULL of the list, then the negation. -/
def inListAnswer (convert : LiteralValue → Result ℤ) (values : List LiteralValue) (negated hasNull : Bool)
    (row : Option ℤ) : Option Bool :=
  let found := values.foldl (fun found value => orKleene found (memberAnswer convert value row)) (some false)
  let found := if hasNull then if found = some true then found else none else found
  if negated then found.map not else found

variable {γ : Type*} {kernels : Kernels γ} {batch : Batch γ} {column : String} {convert : LiteralValue → Result ℤ}
variable {values : List LiteralValue} {list : List ℤ}

theorem mem_nonNullMembers {value : LiteralValue} : value ∈ nonNullMembers values ↔ value ∈ values ∧ value ≠ .null := by
  rw [nonNullMembers,List.mem_filter,decide_eq_true_eq]

theorem convert_of_mapM (hlist : (nonNullMembers values).mapM convert = .ok list) :
    (∀ value ∈ values, value ≠ .null → ∃ n ∈ list, convert value = .ok n) ∧
      ∀ n ∈ list, ∃ value ∈ values, value ≠ .null ∧ convert value = .ok n := by
  have hpairs := mapM_ok_iff.mp hlist
  constructor
  · intro value hvalue hnull
    exact exists_of_forall₂_left hpairs (mem_nonNullMembers.mpr ⟨hvalue,hnull⟩)
  · intro n hn
    obtain ⟨value,hvalue,hconvert⟩ := exists_of_forall₂_right hpairs hn
    exact ⟨value,(mem_nonNullMembers.mp hvalue).1,(mem_nonNullMembers.mp hvalue).2,hconvert⟩

theorem evaluateInList_eq (hrows : rows.length = batch.numRows)
    (hcompare : ∀ value, value ≠ .null → ∀ n, value ∈ values → convert value = .ok n →
      evaluateBatchComparison kernels batch ⟨column,.eq,value⟩ = .ok (compare rows n .eq))
    (hlist : (nonNullMembers values).mapM convert = .ok list) (negated hasNull : Bool) :
    evaluateInList kernels batch column values negated hasNull = .ok (rows.map (inListAnswer convert values negated hasNull)) := by
  have hmember : ∀ value ∈ values, evaluateBatchComparison kernels batch ⟨column,.eq,value⟩ =
      .ok (rows.map (memberAnswer convert value)) := by
    intro value hvalue
    by_cases hnull : value = .null
    · subst hnull
      unfold evaluateBatchComparison
      have hnone : memberAnswer convert .null = fun _ => none := funext fun _ => if_pos rfl
      rw [if_pos rfl,← hrows,hnone,List.map_const']
    · obtain ⟨n,-,hn⟩ := (convert_of_mapM hlist).1 value hvalue hnull
      rw [hcompare value hnull n hvalue hn,compare]
      refine congrArg Except.ok (List.map_congr_left fun row _ => ?_)
      unfold memberAnswer
      rw [if_neg hnull,hn]
      rfl
  have hfold : ∀ (members : List LiteralValue) (f : Option ℤ → Option Bool), (∀ value ∈ members, value ∈ values) →
      members.foldlM (fun mask value => (evaluateBatchComparison kernels batch ⟨column,.eq,value⟩).map (orMasks mask))
          (rows.map f) =
        .ok (rows.map fun row => members.foldl (fun found value => orKleene found (memberAnswer convert value row)) (f row)) := by
    intro members
    induction members with
    | nil =>
      intro f _
      rfl
    | cons value members ih =>
      intro f hmem
      rw [List.forall_mem_cons] at hmem
      rw [List.foldlM_cons,hmember value hmem.1]
      refine (congrArg (fun mask => members.foldlM _ mask) orMasks_map).trans ?_
      exact ih _ hmem.2
  have hstart : List.replicate batch.numRows (some false) = rows.map fun _ => some false := by
    rw [List.map_const',hrows]
  unfold evaluateInList
  rw [hstart,hfold values _ fun _ h => h]
  refine congrArg Except.ok ?_
  dsimp only
  cases hasNull <;> cases negated
  · rfl
  · exact notMask_map
  · exact nullifyFalseValues_map
  · exact (congrArg notMask nullifyFalseValues_map).trans notMask_map

/-- What the members make of a row before the list's own NULL. -/
theorem found_eq (hlist : (nonNullMembers values).mapM convert = .ok list) (row : Option ℤ) :
    values.foldl (fun found value => orKleene found (memberAnswer convert value row)) (some false) =
      match row with
      | none => if values = [] then some false else none
      | some x => if x ∈ list then some true else if .null ∈ values then none else some false := by
  obtain ⟨hconvert,hmember⟩ := convert_of_mapM hlist
  cases row with
  | none =>
    have hnone : ∀ value, memberAnswer convert value none = none := fun value => by
      unfold memberAnswer
      split_ifs
      · rfl
      · split <;> rfl
    apply truth_ext
    · rw [foldl_orKleene_eq_true]
      simp only [hnone]
      split_ifs <;> simp
    · rw [foldl_orKleene_eq_false]
      simp only [hnone]
      split_ifs with hempty
      · simp [hempty]
      · simpa using List.exists_mem_of_ne_nil values hempty
  | some x =>
    have hvalue : ∀ value ∈ values, value ≠ .null → ∃ n ∈ list, convert value = .ok n ∧
        memberAnswer convert value (some x) = some (decide (x = n)) := by
      intro value hmem hnull
      obtain ⟨n,hn,hok⟩ := hconvert value hmem hnull
      refine ⟨n,hn,hok,?_⟩
      unfold memberAnswer
      rw [if_neg hnull,hok]
      rfl
    have htrue : (∃ value ∈ values, memberAnswer convert value (some x) = some true) ↔ x ∈ list := by
      constructor
      · rintro ⟨value,hmem,hanswer⟩
        by_cases hnull : value = .null
        · subst hnull
          cases hanswer
        · obtain ⟨n,hn,-,hmatch⟩ := hvalue value hmem hnull
          obtain rfl : x = n := by simpa using hmatch.symm.trans hanswer
          exact hn
      · intro hx
        obtain ⟨value,hmem,hnull,hok⟩ := hmember x hx
        obtain ⟨n,-,hok',hmatch⟩ := hvalue value hmem hnull
        obtain rfl : x = n := Except.ok.inj (hok.symm.trans hok')
        exact ⟨value,hmem,hmatch.trans (congrArg some (decide_eq_true rfl))⟩
    have hfalse : (∀ value ∈ values, memberAnswer convert value (some x) = some false) ↔
        x ∉ list ∧ LiteralValue.null ∉ values := by
      constructor
      · intro hall
        refine ⟨fun hx => ?_,fun hnull => ?_⟩
        · obtain ⟨value,hmem,hanswer⟩ := htrue.mpr hx
          cases hanswer.symm.trans (hall value hmem)
        · cases hall _ hnull
      · rintro ⟨hx,hnull⟩ value hmem
        obtain ⟨n,hn,-,hmatch⟩ := hvalue value hmem (ne_of_mem_of_not_mem hmem hnull)
        rw [hmatch,decide_eq_false (ne_of_mem_of_not_mem hn hx).symm]
    dsimp only
    apply truth_ext
    · rw [foldl_orKleene_eq_true,htrue]
      split_ifs with hx hnull <;> simp [hx]
    · rw [foldl_orKleene_eq_false,hfalse]
      by_cases hx : x ∈ list <;> by_cases hnull : LiteralValue.null ∈ values <;> simp [hx,hnull]

theorem inListAnswer_eq_iff (hlist : (nonNullMembers values).mapM convert = .ok list) (negated hasNull : Bool) (row : Option ℤ) :
    inListAnswer convert values negated hasNull row =
        (row.bind fun value => inListResult (decide (value ∈ list)) negated hasNull) ↔
      hasNull = true ∨ (row = none → values ≠ []) ∧ ∀ x, row = some x → .null ∈ values → x ∈ list := by
  unfold inListAnswer
  rw [found_eq hlist]
  cases row with
  | none =>
    by_cases hempty : values = [] <;> cases hasNull <;> cases negated <;> simp [hempty]
  | some x =>
    by_cases hx : x ∈ list <;> by_cases hnull : LiteralValue.null ∈ values <;> cases hasNull <;> cases negated <;>
      simp [hx,hnull,inListResult]

end Rows

section Agreement
variable {γ : Type*} {kernels : Kernels γ} {projected : ProjectedView γ} {name : String} {index : ℕ}

theorem length_arrays (view : BatchView γ) : view.arrays.length = view.numColumns := by
  cases view <;> simp [BatchView.arrays,BatchView.numColumns]

theorem names_batch : projected.batch.names = projected.columns := by
  have hlength : projected.columns.length ≤ projected.view.arrays.length := by
    rw [length_arrays,projected.length_columns]
  exact List.map_fst_zip hlength

/-- An integer column: how literals become integers, and the comparison of the array. -/
def ComparesAs (convert : LiteralValue → Result ℤ) (rows : List (Option ℤ)) (column : Column) (name : String) : Prop :=
  ∀ (op : ComparisonOp) (value : LiteralValue), value ≠ .null →
    evaluateComparison column ⟨name,op,value⟩ = (convert value).map fun n => compare rows n op

theorem comparesAs_int64 (values : List (Option Int64)) :
    ComparesAs (fun value => value.asI64 name) (values.map (Option.map Int64.toInt)) (.int64 values) name := by
  intro op value hnull
  unfold evaluateComparison
  dsimp only
  rw [if_neg hnull]
  cases value.asI64 name <;> rfl

theorem comparesAs_int32 (values : List (Option Int32)) :
    ComparesAs (fun value => value.asI32 name) (values.map (Option.map Int32.toInt)) (.int32 values) name := by
  intro op value hnull
  unfold evaluateComparison
  dsimp only
  rw [if_neg hnull]
  cases value.asI32 name <;> rfl

theorem comparesAs_date32 (values : List (Option Int32)) :
    ComparesAs (fun value => dateLiteralAsI32 value name) (values.map (Option.map Int32.toInt)) (.date32 values) name := by
  intro op value hnull
  unfold evaluateComparison
  dsimp only
  rw [if_neg hnull]
  cases dateLiteralAsI32 value name <;> rfl

variable {convert : LiteralValue → Result ℤ} {rows : List (Option ℤ)} {column : Column}
variable {value : LiteralValue} {mask : Mask}

theorem evaluateBatchComparison_projected (hcolumn : ComparesAs convert rows column name)
    (hlookup : columnIndex projected.columns name = .ok index)
    (harray : projected.view.arrays[index]? = some (.stored column)) (hnull : value ≠ .null)
    (op : ComparisonOp) : evaluateBatchComparison kernels projected.batch ⟨name,op,value⟩ =
      (convert value).map fun n => compare rows n op := by
  have hat : ∃ field, projected.batch.columns[index]? = some (field,.stored column) := by
    have hlt : index < projected.columns.length := by
      rw [projected.length_columns,← length_arrays]
      exact (List.getElem?_eq_some_iff.mp harray).1
    refine ⟨projected.columns[index],?_⟩
    rw [ProjectedView.batch,List.getElem?_zip_eq_some]
    exact ⟨List.getElem?_eq_getElem hlt,harray⟩
  obtain ⟨field,hat⟩ := hat
  rw [← hcolumn op value hnull]
  exact evaluateBatchComparison_stored kernels op hnull ((congrArg (columnIndex · name) names_batch).trans hlookup) hat

/-- A comparison of the view that has a mask: the column, its integers and the literal. -/
theorem comparison_of_view {comparison : ComparisonExpr} (hnull : comparison.value ≠ .null)
    (h : evaluateProjectedViewComparisonMask projected.view projected.columns comparison = .ok (some mask)) :
    ∃ index column rows convert literal, projectedViewColumnIndex projected.columns comparison.column = some index ∧
      projected.view.arrays[index]? = some (.stored column) ∧ ComparesAs convert rows column comparison.column ∧
      convert comparison.value = .ok literal ∧ mask = compare rows literal comparison.op := by
  unfold evaluateProjectedViewComparisonMask at h
  rw [if_neg hnull] at h
  split at h
  · cases h
  · rename_i index hindex
    split at h
    · rename_i values hvalues
      obtain ⟨literal,hliteral,heq⟩ := map_eq_ok_iff.mp h
      obtain ⟨harray,hwell,-⟩ := (arrays_of_vectors projected.wellFormed).1 _ hvalues
      refine ⟨index,_,_,_,literal,hindex,harray,comparesAs_int64 _,hliteral,?_⟩
      rw [← Option.some.inj heq]
      exact compareView_eq hwell (fun _ _ _ => rfl) comparison.op literal
    · split at h
      · rename_i values hvalues
        obtain ⟨literal,hliteral,heq⟩ := map_eq_ok_iff.mp h
        obtain ⟨harray,hwell,-⟩ := (arrays_of_vectors projected.wellFormed).2.1 _ hvalues
        refine ⟨index,_,_,_,literal,hindex,harray,comparesAs_int32 _,hliteral,?_⟩
        rw [← Option.some.inj heq]
        exact compareView_eq hwell (fun _ _ _ => rfl) comparison.op literal
      · split at h
        · rename_i values hvalues
          obtain ⟨literal,hliteral,heq⟩ := map_eq_ok_iff.mp h
          obtain ⟨harray,hwell,-⟩ := (arrays_of_vectors projected.wellFormed).2.2 _ hvalues
          refine ⟨index,_,_,_,literal,hindex,harray,comparesAs_date32 _,hliteral,?_⟩
          rw [← Option.some.inj heq]
          exact compareView_eq hwell (fun _ _ _ => rfl) comparison.op literal
        · cases h

theorem int64_of_asI64 {n : ℤ} (h : value.asI64 name = .ok n) :
    ∃ m : Int64, value = .int64 m ∧ m.toInt = n := by
  cases value with
  | int64 m => exact ⟨m,rfl,Except.ok.inj h⟩
  | _ => cases h

theorem int64_of_asI32 {n : ℤ} (h : value.asI32 name = .ok n) :
    ∃ m : Int64, value = .int64 m ∧ m.toInt = n := by
  cases value with
  | int64 m =>
    have hchecked := (okOr_eq_ok (invalidFilter_ne_ok _)).mp h
    exact ⟨m,rfl,(checkedSigned_eq_some.mp hchecked).2⟩
  | _ => cases h

/-- An IN list of the view that has a mask: the column, its integers and the members. -/
theorem inList_of_view {values : List LiteralValue} {negated hasNull : Bool}
    (h : evaluateProjectedViewInListMask projected.view projected.columns name values negated hasNull = .ok (some mask)) :
    ∃ index column convert list, projectedViewColumnIndex projected.columns name = some index ∧
      projected.view.arrays[index]? = some (.stored column) ∧ ComparesAs convert (projected.rows name) column name ∧
      (projected.rows name).length = projected.batch.numRows ∧
      (∀ value n, convert value = .ok n → ∃ m : Int64, value = .int64 m ∧ m.toInt = n) ∧
      (nonNullMembers values).mapM convert = .ok list ∧
      mask = (projected.rows name).map fun row => row.bind fun value => inListResult (decide (value ∈ list)) negated hasNull := by
  unfold evaluateProjectedViewInListMask at h
  split at h
  · cases h
  · rename_i index hindex
    split at h
    · rename_i probe hprobe
      obtain ⟨list,hlist,heq⟩ := map_eq_ok_iff.mp h
      obtain ⟨harray,hwell,hlen⟩ := (arrays_of_vectors projected.wellFormed).1 _ hprobe
      have hrows : projected.rows name = (probe.content readI64LeUnaligned).map (Option.map Int64.toInt) := by
        unfold ProjectedView.rows
        rw [hindex,Option.bind_some,harray]
      rw [hrows]
      refine ⟨index,_,_,list,hindex,harray,comparesAs_int64 _,?_,?_,hlist,?_⟩
      · rw [List.length_map,VectorView.length_content,hlen]
        rfl
      · exact fun _ _ => int64_of_asI64
      · rw [← Option.some.inj heq]
        exact inListView_eq hwell (fun _ _ _ => rfl) list negated hasNull
    · split at h
      · rename_i probe hprobe
        obtain ⟨list,hlist,heq⟩ := map_eq_ok_iff.mp h
        obtain ⟨harray,hwell,hlen⟩ := (arrays_of_vectors projected.wellFormed).2.1 _ hprobe
        have hrows : projected.rows name = (probe.content readI32LeUnaligned).map (Option.map Int32.toInt) := by
          unfold ProjectedView.rows
          rw [hindex,Option.bind_some,harray]
        rw [hrows]
        refine ⟨index,_,_,list,hindex,harray,comparesAs_int32 _,?_,?_,hlist,?_⟩
        · rw [List.length_map,VectorView.length_content,hlen]
          rfl
        · exact fun _ _ => int64_of_asI32
        · rw [← Option.some.inj heq]
          exact inListView_eq hwell (fun _ _ _ => rfl) list negated hasNull
      · cases h

theorem inList_agrees_iff {values : List LiteralValue} {negated hasNull : Bool}
    (h : evaluateProjectedViewInListMask projected.view projected.columns name values negated hasNull = .ok (some mask))
    (hlookup : nonNullMembers values ≠ [] → projected.SameLookup name) :
    evaluateInList kernels projected.batch name values negated hasNull = .ok mask ↔
      ∀ row ∈ projected.rows name, InListAgrees values hasNull row := by
  obtain ⟨index,column,convert,list,hindex,harray,hcolumn,hrows,hint,hlist,rfl⟩ := inList_of_view h
  have hcompare : ∀ value, value ≠ .null → ∀ n, value ∈ values → convert value = .ok n →
      evaluateBatchComparison kernels projected.batch ⟨name,.eq,value⟩ = .ok (compare (projected.rows name) n .eq) := by
    intro value hnull n hmem hn
    have hsome : nonNullMembers values ≠ [] := List.ne_nil_of_mem (mem_nonNullMembers.mpr ⟨hmem,hnull⟩)
    rw [evaluateBatchComparison_projected hcolumn (hlookup hsome index hindex) harray hnull,hn]
    rfl
  rw [evaluateInList_eq hrows hcompare hlist,Except.ok.injEq,List.map_inj_left]
  refine forall₂_congr fun row _ => (inListAnswer_eq_iff hlist negated hasNull row).trans ?_
  refine or_congr_right (and_congr_right fun _ => forall₂_congr fun x _ => imp_congr_right fun _ => ?_)
  obtain ⟨hconvert,hmember⟩ := convert_of_mapM hlist
  constructor
  · intro hx
    obtain ⟨value,hmem,-,hok⟩ := hmember x hx
    obtain ⟨n,rfl,hn⟩ := hint value x hok
    exact ⟨n,hmem,hn⟩
  · rintro ⟨n,hmem,rfl⟩
    obtain ⟨m,hm,hok⟩ := hconvert _ hmem (fun hnull => nomatch hnull)
    obtain ⟨n',heq,rfl⟩ := hint _ _ hok
    cases heq
    exact hm

theorem evaluateFilter_of_view {expr : Expr}
    (h : evaluateProjectedViewExprMask projected.view projected.columns expr = .ok (some mask)) (hagrees : projected.Agrees expr) :
    evaluateFilter kernels projected.batch expr = .ok mask := by
  induction expr generalizing mask with
  | boolean value =>
    cases h
    rfl
  | comparison comparison =>
    by_cases hnull : comparison.value = .null
    · unfold evaluateProjectedViewExprMask evaluateProjectedViewComparisonMask at h
      rw [if_pos hnull] at h
      cases h
      exact if_pos hnull
    · obtain ⟨index,column,rows,convert,literal,hindex,harray,hcolumn,hliteral,rfl⟩ := comparison_of_view hnull h
      refine (evaluateBatchComparison_projected hcolumn (hagrees hnull index hindex) harray hnull comparison.op).trans ?_
      rw [hliteral]
      rfl
  | inList column values negated hasNull => exact (inList_agrees_iff h hagrees.1).mpr hagrees.2
  | not expr ih =>
    obtain ⟨found,hfound,heq⟩ := map_eq_ok_iff.mp h
    obtain ⟨inner,rfl,rfl⟩ := Option.map_eq_some_iff.mp heq
    exact map_eq_ok_iff.mpr ⟨inner,ih hfound hagrees,rfl⟩
  | and left right ihl ihr | or left right ihl ihr =>
    obtain ⟨found,hleft,h⟩ := bind_eq_ok_iff.mp h
    cases found with
    | none => cases h
    | some maskLeft =>
      obtain ⟨found,hright,heq⟩ := map_eq_ok_iff.mp h
      obtain ⟨maskRight,rfl,rfl⟩ := Option.map_eq_some_iff.mp heq
      exact bind_eq_ok_iff.mpr ⟨maskLeft,ihl hleft hagrees.1,map_eq_ok_iff.mpr ⟨maskRight,ihr hright hagrees.2,rfl⟩⟩
  | columnComparison _ _ _ => cases h
  | like _ => cases h
  | isNull _ _ => cases h

/-- Whenever the view has a mask, it is the record batch's, where names are looked
up alike and the IN lists agree with their rows. An IN list by itself has the mask
of the batch exactly when it agrees with every row. -/
theorem evaluateProjectedViewFilterMask_exact (kernels : Kernels γ) (projected : ProjectedView γ) :
    (∀ filter mask, evaluateProjectedViewFilterMask projected.view projected.columns filter = .ok (some mask) →
        projected.Agrees filter → evaluateFilter kernels projected.batch filter = .ok mask) ∧
      ∀ column values negated hasNull mask,
        evaluateProjectedViewFilterMask projected.view projected.columns (.inList column values negated hasNull) =
            .ok (some mask) → (nonNullMembers values ≠ [] → projected.SameLookup column) →
          (evaluateFilter kernels projected.batch (.inList column values negated hasNull) = .ok mask ↔
            ∀ row ∈ projected.rows column, InListAgrees values hasNull row) :=
  ⟨fun _ _ h hagrees => evaluateFilter_of_view h hagrees,fun _ _ _ _ _ h hlookup => inList_agrees_iff h hlookup⟩

end Agreement

def nullRow : ProjectedView Unit where
  view := .rawColumns [.i64Nullable [] [0]]
  columns := ["x"]
  length_columns := rfl
  wellFormed := by
    intro column hcolumn
    rw [List.mem_singleton.mp hcolumn]
    exact ⟨rfl,.inr rfl⟩

/-- No value is in the empty list, but the view leaves a NULL open. -/
theorem nullRow_notIn_empty :
    evaluateProjectedViewFilterMask nullRow.view nullRow.columns (.inList "x" [] true false) = .ok (some [none]) ∧
      evaluateFilter ⟨fun _ _ => .ok [],fun _ _ _ _ => .ok [],fun _ _ => .ok [],fun _ _ _ => .ok []⟩ nullRow.batch
        (.inList "x" [] true false) = .ok [some true] := by
  constructor
  · rfl
  · rfl

end Dodam.Execution

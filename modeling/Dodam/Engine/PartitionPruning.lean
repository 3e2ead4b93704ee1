import Dodam.Execution.PartitionColumns

/-! # Partition pruning

Conditions on partition columns decide which fragments a scan reads; they compare the text of
the directory with the printed literal, and are then dropped from the filter.
-/
namespace Dodam.Engine
open Execution Foundation Storage

section Prune
variable {π γ : Type*}

def literalPartitionValue : LiteralValue → String
  | .null => "NULL"
  | .boolean value => toString value
  | .utf8 value => value
  | .int64 value => toString value.toInt
  | .float64 display => display

def partitionPredicateSupported (partitionColumns : List String) : Expr → Bool
  | .comparison comparison =>
    comparison.column ∈ partitionColumns && comparison.op = .eq && comparison.value ≠ .null
  | .inList column values negated hasNull => column ∈ partitionColumns && !negated && !hasNull && !values.isEmpty
  | _ => false

def partitionPredicateMatches (partitionValues : List (String × String)) : Expr → Bool
  | .comparison comparison =>
    (partitionValues.lookup comparison.column).any (· = literalPartitionValue comparison.value)
  | .inList column values _ hasNull => !hasNull && (partitionValues.lookup column).any fun value =>
      values.any fun literal => value = literalPartitionValue literal
  | _ => false

def partitionColumns (fragments : List (FileFragment π)) : List String :=
  fragments.flatMap fun fragment => fragment.partitionValues.map Prod.fst

def pruneTableSourcePartitions (fragments : List (FileFragment π)) (filter : Option Expr) :
    List (FileFragment π) × Option Expr :=
  match filter with
  | none => (fragments,none)
  | some filter =>
    if partitionColumns fragments = [] then (fragments,some filter)
    else
      let supported := partitionPredicateSupported (partitionColumns fragments)
      let partitionPredicates := filter.conjuncts.filter supported
      let residual := filter.conjuncts.filter fun conjunct => !supported conjunct
      if partitionPredicates = [] then (fragments,some filter)
      else (fragments.filter fun fragment =>
        partitionPredicates.all (partitionPredicateMatches fragment.partitionValues),exprsToFilter residual)

/-- The rows of a fragment that pass, each by its batch and its position there. -/
def scanPartitionedFragment (kernels : Kernels γ) (readFile : π → Projection → Result (List (Batch γ)))
    (projection : Projection) (filter : Option Expr) (fragment : FileFragment π) : Result (List (Batch γ × ℕ)) :=
  (readFile fragment.location (projectionWithoutPartitionColumns projection fragment.partitionValues)).bind
    fun batches => (batches.mapM fun batch =>
      (addPartitionColumns batch projection fragment.partitionValues).bind fun batch =>
        (filterBatch kernels batch filter).map fun rows => rows.map fun row => (batch,row)).map List.flatten

def scanPartitionedFragments (kernels : Kernels γ) (readFile : π → Projection → Result (List (Batch γ)))
    (projection : Projection) (fragments : List (FileFragment π)) (filter : Option Expr) :
    Result (List (Batch γ × ℕ)) :=
  (fragments.mapM (scanPartitionedFragment kernels readFile projection filter)).map List.flatten

end Prune

/-- The pruned scan returns what the scan of all fragments returns under the whole filter. -/
def PruningFilters {π γ : Type*} (kernels : Kernels γ) (readFile : π → Projection → Result (List (Batch γ)))
    (projection : Projection) (fragments : List (FileFragment π)) (filter : Expr) : Prop :=
  ∀ rows, scanPartitionedFragments kernels readFile projection fragments (some filter) = .ok rows →
    scanPartitionedFragments kernels readFile projection (pruneTableSourcePartitions fragments (some filter)).1
      (pruneTableSourcePartitions fragments (some filter)).2 = .ok rows

/-- No conjunct decides about fragments; or no part of the filter is left out, and every column that
decides reads the text of each fragment. -/
def PrunesOwnPartitions {π γ : Type*} (readFile : π → Projection → Result (List (Batch γ)))
    (projection : Projection) (fragments : List (FileFragment π)) (filter : Expr) : Prop :=
  (∀ conjunct ∈ filter.conjuncts, partitionPredicateSupported (partitionColumns fragments) conjunct = false) ∨
    filter.KeepsConjuncts ∧ ∀ comparison : ComparisonExpr, .comparison comparison ∈ filter.conjuncts →
      partitionPredicateSupported (partitionColumns fragments) (.comparison comparison) = true →
      ∀ fragment ∈ fragments, ∀ batches : List (Batch γ),
        readFile fragment.location (projectionWithoutPartitionColumns projection fragment.partitionValues) =
          .ok batches → ∀ batch ∈ batches, ∀ attached,
            addPartitionColumns batch projection fragment.partitionValues = .ok attached →
              ReadsOwnPartition comparison.column fragment.partitionValues attached

section Predicates
variable {π γ : Type*} {kernels : Kernels γ} {batch : Batch γ}

theorem literalPartitionValue_eq (value : LiteralValue) : literalPartitionValue value = value.display := by
  cases value <;> rfl

theorem not_inList_mem_conjuncts {expr : Expr} {column : String} {values : List LiteralValue} {negated hasNull : Bool} :
    .inList column values negated hasNull ∉ expr.conjuncts := by
  induction expr with
  | and left right ihl ihr =>
    rw [Expr.conjuncts,List.mem_append]
    exact not_or.mpr ⟨ihl,ihr⟩
  | _ => simp [Expr.conjuncts]

theorem supported_conjunct {columns : List String} {filter conjunct : Expr} (h : conjunct ∈ filter.conjuncts)
    (hsupported : partitionPredicateSupported columns conjunct = true) :
    ∃ comparison : ComparisonExpr, conjunct = .comparison comparison ∧ comparison.op = .eq ∧
      comparison.value ≠ .null := by
  cases conjunct with
  | comparison comparison =>
    simp only [partitionPredicateSupported,Bool.and_eq_true,decide_eq_true_iff] at hsupported
    exact ⟨comparison,rfl,hsupported.1.2,hsupported.2⟩
  | inList _ _ _ _ => exact absurd h not_inList_mem_conjuncts
  | _ => cases hsupported

theorem passes_partitionColumn {comparison : ComparisonExpr} {index row : ℕ} {value : String}
    (hop : comparison.op = .eq) (hvalue : comparison.value ≠ .null)
    (hindex : columnIndex batch.names comparison.column = .ok index)
    (hcolumn : batch.columns[index]? = some (comparison.column,partitionColumn batch.numRows value)) :
    Passes kernels batch (.comparison comparison) row ↔
      row < batch.numRows ∧ value = literalPartitionValue comparison.value := by
  have hmask : evaluateFilter kernels batch (.comparison comparison) =
      .ok (Execution.compare (List.replicate batch.numRows (some value)) comparison.value.asStr .eq) := by
    rw [evaluateFilter,evaluateBatchComparison,if_neg hvalue,hindex]
    simp only [Except.bind,hcolumn]
    show evaluateComparison (.utf8 (List.replicate batch.numRows (some value))) comparison = _
    rw [evaluateComparison,if_neg hvalue,← hop]
    rfl
  have hrow : (Execution.compare (List.replicate batch.numRows (some value)) comparison.value.asStr .eq)[row]? =
      if row < batch.numRows then some (some (decide (value = comparison.value.display))) else none := by
    rw [Execution.compare,List.map_replicate,List.getElem?_replicate]
    rfl
  rw [passes_iff_of_ok hmask,hrow,literalPartitionValue_eq]
  split_ifs with hlt
  · simp [hlt]
  · simp [hlt]

theorem passes_iff_matches {comparison : ComparisonExpr} {partitionValues : List (String × String)}
    {attached : Batch γ} (hop : comparison.op = .eq) (hvalue : comparison.value ≠ .null)
    (hown : ReadsOwnPartition comparison.column partitionValues attached)
    (hdefined : Defined kernels attached (.comparison comparison)) (row : ℕ) :
    Passes kernels attached (.comparison comparison) row ↔
      row < attached.numRows ∧ partitionPredicateMatches partitionValues (.comparison comparison) = true := by
  obtain ⟨mask,hmask⟩ := hdefined
  rw [evaluateFilter,evaluateBatchComparison,if_neg hvalue] at hmask
  obtain ⟨index,hindex,-⟩ := bind_eq_ok_iff.mp hmask
  obtain ⟨value,hlookup,hcolumn⟩ := hown index hindex
  rw [passes_partitionColumn hop hvalue hindex hcolumn,partitionPredicateMatches,hlookup,Option.any_some,
    decide_eq_true_iff]

end Predicates

section Batches
variable {π γ : Type*} {kernels : Kernels γ} {columns : List String} {filter : Expr}
  {partitionValues : List (String × String)} {attached : Batch γ} {rows : List ℕ}

/-- On a batch of a fragment, the conditions that decide pass at every row or at none. -/
theorem filterBatch_pruned (hkeeps : filter.KeepsConjuncts)
    (hown : ∀ comparison : ComparisonExpr, .comparison comparison ∈ filter.conjuncts →
      partitionPredicateSupported columns (.comparison comparison) = true →
      ReadsOwnPartition comparison.column partitionValues attached)
    (h : filterBatch kernels attached (some filter) = .ok rows) :
    if (filter.conjuncts.filter (partitionPredicateSupported columns)).all (partitionPredicateMatches partitionValues)
    then filterBatch kernels attached
      (exprsToFilter (filter.conjuncts.filter fun conjunct => !partitionPredicateSupported columns conjunct)) = .ok rows
    else rows = [] := by
  obtain ⟨hdefined,hrows⟩ := filterBatch_some h
  have hparts := (forall_conjuncts (fun _ _ => defined_and) hkeeps).mp hdefined
  have hpasses : ∀ row, Passes kernels attached filter row ↔
      ∀ part ∈ filter.conjuncts, Passes kernels attached part row :=
    fun row => forall_conjuncts (P := fun expr => Passes kernels attached expr row) (fun _ _ => passes_and) hkeeps
  have hdecides : ∀ part ∈ filter.conjuncts, partitionPredicateSupported columns part = true → ∀ row,
      Passes kernels attached part row ↔
        row < attached.numRows ∧ partitionPredicateMatches partitionValues part = true := by
    intro part hpart hsupported row
    obtain ⟨comparison,rfl,hop,hvalue⟩ := supported_conjunct hpart hsupported
    exact passes_iff_matches hop hvalue (hown comparison hpart hsupported) (hparts _ hpart) row
  split_ifs with hall
  · rw [List.all_eq_true] at hall
    refine filterBatch_exprsToFilter h (fun part hpart => hparts part (List.mem_filter.mp hpart).1) fun row hrow => ?_
    rw [hpasses]
    constructor
    · exact fun hpass part hpart => hpass part (List.mem_filter.mp hpart).1
    · intro hpass part hpart
      by_cases hsupported : partitionPredicateSupported columns part = true
      · exact (hdecides part hpart hsupported row).mpr ⟨hrow,hall part (List.mem_filter.mpr ⟨hpart,hsupported⟩)⟩
      · exact hpass part (List.mem_filter.mpr ⟨hpart,by rw [Bool.not_eq_true',Bool.eq_false_iff]; exact hsupported⟩)
  · refine List.eq_nil_iff_forall_not_mem.mpr fun row hrow => hall (List.all_eq_true.mpr fun part hpart => ?_)
    obtain ⟨hmem,hsupported⟩ := List.mem_filter.mp hpart
    exact ((hdecides part hmem hsupported row).mp ((hpasses row).mp ((hrows row).mp hrow).2 part hmem)).2

end Batches

section Fragments
variable {π γ : Type*} {kernels : Kernels γ} {readFile : π → Projection → Result (List (Batch γ))}
  {projection : Projection}

theorem scanPartitionedFragment_eq_ok {filter : Option Expr} {fragment : FileFragment π} {rows : List (Batch γ × ℕ)} :
    scanPartitionedFragment kernels readFile projection filter fragment = .ok rows ↔
      ∃ batches parts, readFile fragment.location
          (projectionWithoutPartitionColumns projection fragment.partitionValues) = .ok batches ∧
        List.Forall₂ (fun batch part => ∃ attached kept,
          addPartitionColumns batch projection fragment.partitionValues = .ok attached ∧
            filterBatch kernels attached filter = .ok kept ∧ part = kept.map fun row => (attached,row)) batches parts ∧
        rows = parts.flatten := by
  constructor
  · intro h
    obtain ⟨batches,hread,h⟩ := bind_eq_ok_iff.mp h
    obtain ⟨parts,hparts,rfl⟩ := map_eq_ok_iff.mp h
    refine ⟨batches,parts,hread,(mapM_ok_iff.mp hparts).imp fun batch part hpart => ?_,rfl⟩
    obtain ⟨attached,hattached,hpart⟩ := bind_eq_ok_iff.mp hpart
    obtain ⟨kept,hkept,rfl⟩ := map_eq_ok_iff.mp hpart
    exact ⟨attached,kept,hattached,hkept,rfl⟩
  · rintro ⟨batches,parts,hread,hparts,rfl⟩
    refine bind_eq_ok_iff.mpr ⟨batches,hread,map_eq_ok_iff.mpr ⟨parts,mapM_ok_iff.mpr (hparts.imp ?_),rfl⟩⟩
    rintro batch part ⟨attached,kept,hattached,hkept,rfl⟩
    exact bind_eq_ok_iff.mpr ⟨attached,hattached,map_eq_ok_iff.mpr ⟨kept,hkept,rfl⟩⟩

/-- A fragment that is read gives the same rows under the rest of the filter; one that is not has none. -/
theorem scanPartitionedFragment_pruned {columns : List String} {filter : Expr} {fragment : FileFragment π}
    (hkeeps : filter.KeepsConjuncts)
    (hown : ∀ comparison : ComparisonExpr, .comparison comparison ∈ filter.conjuncts →
      partitionPredicateSupported columns (.comparison comparison) = true → ∀ batches : List (Batch γ),
      readFile fragment.location (projectionWithoutPartitionColumns projection fragment.partitionValues) =
        .ok batches → ∀ batch ∈ batches, ∀ attached,
          addPartitionColumns batch projection fragment.partitionValues = .ok attached →
            ReadsOwnPartition comparison.column fragment.partitionValues attached)
    {rows : List (Batch γ × ℕ)}
    (h : scanPartitionedFragment kernels readFile projection (some filter) fragment = .ok rows) :
    if (filter.conjuncts.filter (partitionPredicateSupported columns)).all
        (partitionPredicateMatches fragment.partitionValues)
    then scanPartitionedFragment kernels readFile projection
      (exprsToFilter (filter.conjuncts.filter fun conjunct => !partitionPredicateSupported columns conjunct))
        fragment = .ok rows
    else rows = [] := by
  obtain ⟨batches,parts,hread,hparts,rfl⟩ := scanPartitionedFragment_eq_ok.mp h
  have hpruned := (List.forall₂_and_left _ _).mpr
    ⟨fun batch hbatch => fun comparison hc hs => hown comparison hc hs batches hread batch hbatch,hparts⟩
  split_ifs with hall
  · refine scanPartitionedFragment_eq_ok.mpr ⟨batches,parts,hread,hpruned.imp ?_,rfl⟩
    rintro batch part ⟨hown,attached,kept,hattached,hkept,rfl⟩
    have hsame := filterBatch_pruned hkeeps (fun comparison hc hs => hown comparison hc hs attached hattached) hkept
    rw [if_pos hall] at hsame
    exact ⟨attached,kept,hattached,hsame,rfl⟩
  · have hnone : List.Forall₂ (fun _ part => part = []) batches parts := by
      refine hpruned.imp ?_
      rintro batch part ⟨hown,attached,kept,hattached,hkept,rfl⟩
      have hsame := filterBatch_pruned hkeeps (fun comparison hc hs => hown comparison hc hs attached hattached) hkept
      rw [if_neg hall] at hsame
      rw [hsame]
      rfl
    clear hparts hpruned h hread
    induction hnone with
    | nil => rfl
    | cons hpart _ ih => rw [List.flatten_cons,hpart,ih,List.nil_append]

theorem mapM_filter_flatten {α β ε : Type*} {f g : α → Except ε (List β)} {keep : α → Bool} {l : List α}
    {parts : List (List β)}
    (h : ∀ a ∈ l, ∀ part, f a = .ok part → if keep a then g a = .ok part else part = [])
    (hparts : l.mapM f = .ok parts) : ((l.filter keep).mapM g).map List.flatten = .ok parts.flatten := by
  have hall := mapM_ok_iff.mp hparts
  clear hparts
  induction hall with
  | nil => rfl
  | @cons a part l parts hpart _ ih =>
    have hrest := ih fun b hb => h b (List.mem_cons_of_mem _ hb)
    have hone := h a List.mem_cons_self part hpart
    obtain ⟨kept,hkept,hflat⟩ := map_eq_ok_iff.mp hrest
    rw [List.filter_cons,List.flatten_cons]
    split_ifs with hkeep
    · rw [if_pos hkeep] at hone
      refine map_eq_ok_iff.mpr ⟨part :: kept,mapM_ok_iff.mpr (.cons hone (mapM_ok_iff.mp hkept)),?_⟩
      rw [List.flatten_cons,hflat]
    · rw [if_neg hkeep] at hone
      rw [hone,List.nil_append]
      exact hrest

/-- Pruning is filtering when nothing is left out of the filter and the columns that decide read the
text of the fragments. -/
theorem pruningFilters_of_own (kernels : Kernels γ) (readFile : π → Projection → Result (List (Batch γ)))
    (projection : Projection) (fragments : List (FileFragment π)) (filter : Expr)
    (h : PrunesOwnPartitions readFile projection fragments filter) :
    PruningFilters kernels readFile projection fragments filter := by
  intro rows hrows
  unfold pruneTableSourcePartitions
  dsimp only
  split_ifs with hcolumns hpredicates
  · exact hrows
  · exact hrows
  · rcases h with hnone | ⟨hkeeps,hown⟩
    · refine absurd (List.filter_eq_nil_iff.mpr fun conjunct hconjunct => ?_) hpredicates
      rw [hnone conjunct hconjunct]
      exact Bool.false_ne_true
    · obtain ⟨parts,hparts,rfl⟩ := map_eq_ok_iff.mp hrows
      refine mapM_filter_flatten (fun fragment hfragment part hpart => ?_) hparts
      exact scanPartitionedFragment_pruned hkeeps
        (fun comparison hc hs => hown comparison hc hs fragment hfragment) hpart

end Fragments

section Samples

/-- No floating-point column, comparison of columns, LIKE or NULL test occurs in the samples. -/
def sampleKernels : Kernels Unit :=
  { float64Comparison := fun _ _ => .error .panicked
    columnComparison := fun _ _ _ _ => .error .panicked
    like := fun _ _ => .error .panicked
    isNull := fun _ _ _ => .error .panicked }

def sampleBatch : Batch Unit := { numRows := 2, columns := [("id",.stored (.int64 [some 1,some 2]))] }

def sampleFile (_ : Unit) (_ : Projection) : Result (List (Batch Unit)) := .ok [sampleBatch]

/-- Files below the directories `dt=2024` and `dt=2025`. -/
def sampleFragments : List (FileFragment Unit) :=
  [⟨(),.parquet,[("dt","2024")]⟩,⟨(),.parquet,[("dt","2025")]⟩]

def dateIs (value : String) : Expr := .comparison ⟨"dt",.eq,.utf8 value⟩

theorem ownPartitionColumn_sample (value : String) : OwnPartitionColumn "dt" [("dt",value)] sampleBatch := by
  refine ⟨value,List.mem_singleton_self _,fun partition hp _ => List.mem_singleton.mp hp,?_⟩
  intro name hname
  have hid : name = "id" := List.mem_singleton.mp hname
  subst hid
  rintro (hsame | ⟨qualifier,unqualified,hsplit,-⟩)
  · exact absurd hsame (by decide +kernel)
  · have hnone : splitOnce '.' "dt".toList = none := by decide +kernel
    rw [hnone] at hsplit
    cases hsplit

theorem pruningFilters_sample : PruningFilters sampleKernels sampleFile .all sampleFragments
    (.and (dateIs "2024") (.comparison ⟨"id",.eq,.int64 1⟩)) := by
  refine pruningFilters_of_own _ _ _ _ _ (.inr ⟨⟨trivial,trivial⟩,?_⟩)
  intro comparison hc hsupported fragment hfragment batches hbatches batch hbatch attached hattached
  have hsample : batch = sampleBatch := by
    cases Except.ok.inj hbatches
    exact List.mem_singleton.mp hbatch
  subst hsample
  rcases List.mem_cons.mp hc with hdate | hid
  · cases hdate
    rcases List.mem_cons.mp hfragment with rfl | hfragment
    · exact (ownPartitionColumn_sample "2024").reads hattached
    · cases List.mem_singleton.mp hfragment
      exact (ownPartitionColumn_sample "2025").reads hattached
  · cases List.mem_singleton.mp hid
    exact absurd hsupported (by decide +kernel)

/-- The IN list is dropped together with the date. -/
theorem pruning_drops_inList : ¬PruningFilters sampleKernels sampleFile .all sampleFragments
    (.and (dateIs "2024") (.inList "id" [.int64 1] false false)) := by
  intro h
  obtain ⟨rows,hrows,hlength⟩ : ∃ rows, scanPartitionedFragments sampleKernels sampleFile .all sampleFragments
      (some (.and (dateIs "2024") (.inList "id" [.int64 1] false false))) = .ok rows ∧ rows.length = 1 :=
    ⟨_,rfl,rfl⟩
  have hpruned := h rows hrows
  have htwo : (scanPartitionedFragments sampleKernels sampleFile .all [⟨(),.parquet,[("dt","2024")]⟩] none).map
      List.length = .ok 2 := rfl
  have hsource : pruneTableSourcePartitions sampleFragments
      (some (.and (dateIs "2024") (.inList "id" [.int64 1] false false))) =
        ([⟨(),.parquet,[("dt","2024")]⟩],none) := rfl
  rw [hsource] at hpruned
  rw [hpruned] at htwo
  cases hlength.symm.trans (Except.ok.inj htwo)

end Samples

end Dodam.Engine

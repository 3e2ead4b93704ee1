import Dodam.Execution.Aggregate.SimpleCaseCorrect

/-! # The simple CASE of SQL

A row has the result of the first WHEN that SQL finds equal to its key, where NULL is equal to
nothing.
-/
namespace Dodam.Execution.Aggregate
open Foundation GroupAggregateResult

section Specification
variable {α : Type}

def sqlEquals : Option Scalar → GroupKeyLiteral → Option Bool
  | some (.int32 value),.int64 expected => some (value = expected)
  | some (.int64 value),.int64 expected => some (value = expected)
  | some (.uint64 value),.int64 expected => some ((value : ℤ) = expected)
  | some (.utf8 value),.utf8 expected => some (value = expected)
  | _,_ => none

/-- The result of the first WHEN that is true, or that of ELSE. -/
def caseResult (cell : Option Scalar) : List (GroupKeyLiteral × α) → α → α
  | [],elseResult => elseResult
  | (condition,result) :: branches,elseResult =>
    if sqlEquals cell condition = some true then result else caseResult cell branches elseResult

def sqlCaseRows (plan : SimpleCaseKeyCountSumPlan) (batch : RecordBatch) :
    Result (List (GroupValue × Option Scalar)) :=
  if batch.numRows = 0 then .ok []
  else
    (batch.column plan.column).bind fun keyColumn => (batch.column plan.sumColumn).map fun sumColumn =>
      (List.range keyColumn.len).map fun row =>
        (caseResult keyColumn.cells[row]?.join plan.branches plan.elseValue,sumColumn.cells[row]?.join)

def sqlCaseStreamRows (plan : SimpleCaseKeyCountSumPlan) (stream : List (Result RecordBatch)) :
    Result (List (GroupValue × Option Scalar)) :=
  (stream.mapM fun batch : Result RecordBatch => batch.bind (sqlCaseRows plan)).map List.flatten

def Comparable : Scalar → GroupKeyLiteral → Prop
  | _,.null => True
  | .int32 _,.int64 _ => True
  | .int64 _,.int64 _ => True
  | .uint64 _,.int64 expected => 0 ≤ expected
  | .utf8 _,.utf8 _ => True
  | _,_ => False

/-- Every literal up to the first that is equal is comparable. -/
def BranchesComparable (value : Scalar) : List (GroupKeyLiteral × α) → Prop
  | [] => True
  | (condition,_) :: branches =>
    Comparable value condition ∧ (sqlEquals (some value) condition ≠ some true → BranchesComparable value branches)

/-- Among integers, the literals of an Int32 key are in its range. -/
def LiteralsInRange : List GroupKeyLiteral → Prop
  | [] => True
  | .int64 value :: literals => InSigned 32 value ∧ LiteralsInRange literals
  | _ :: _ => True

structure BatchGrouped (plan : SimpleCaseKeyCountSumPlan) (batch : RecordBatch) (keyColumn sumColumn : ArrayRef) :
    Prop where
  key : batch.column plan.column = .ok keyColumn
  sum : batch.column plan.sumColumn = .ok sumColumn
  kind : ∃ kind, countSumOutputKind sumColumn (.sum plan.sumColumn) = .ok kind
  inRange : ∀ values, keyColumn = .int32 values → LiteralsInRange (plan.branches.map Prod.fst)
  comparable : ∀ value, some value ∈ keyColumn.cells → BranchesComparable value plan.branches

def StreamGrouped (plan : SimpleCaseKeyCountSumPlan) (stream : List (Result RecordBatch)) : Prop :=
  ∀ batch ∈ stream, ∃ content, batch = .ok content ∧
    (content.numRows ≠ 0 → ∃ keyColumn sumColumn, BatchGrouped plan content keyColumn sumColumn)

def NoNullBranch (plan : SimpleCaseKeyCountSumPlan) (stream : List (Result RecordBatch)) : Prop :=
  GroupKeyLiteral.null ∈ plan.branches.map Prod.fst → ∀ batch, .ok batch ∈ stream → ∀ keyColumn,
    batch.column plan.column = .ok keyColumn → none ∉ keyColumn.cells

def GroupAggregateResult.hasRows (group : GroupAggregateResult) : Bool :=
  decide (⟨.countStar,.count 0⟩ ∉ group.values)

end Specification

section Rows
variable {α : Type} {column : ArrayRef} {row : ℕ}

theorem columnValueMatchesLiteral_none (hcell : column.cells[row]?.join = none) (literal : GroupKeyLiteral) :
    columnValueMatchesLiteral column row literal = .ok (decide (literal = .null)) := by
  unfold columnValueMatchesLiteral
  rw [hcell]
  cases literal <;> rfl

variable {value : Scalar} {literal : GroupKeyLiteral}

theorem matches_other (hcell : column.cells[row]?.join = some value)
    (h : ¬ Comparable value literal) (matched : Bool) : columnValueMatchesLiteral column row literal ≠ .ok matched := by
  intro heq
  unfold columnValueMatchesLiteral at heq
  rw [hcell] at heq
  cases literal with
  | null => exact h trivial
  | boolean expected =>
    cases value with
    | other =>
      dsimp only at heq
      split at heq
      · cases heq
      · cases heq
    | _ => cases heq
  | int64 expected =>
    cases value with
    | int32 value => exact h trivial
    | int64 value => exact h trivial
    | uint64 value =>
      dsimp only at heq
      rw [if_neg (show ¬ 0 ≤ expected from h)] at heq
      cases heq
    | _ => cases heq
  | float64 bits => cases value <;> cases heq
  | utf8 expected =>
    cases value with
    | utf8 value => exact h trivial
    | _ => cases heq

theorem matches_comparable (hcell : column.cells[row]?.join = some value)
    (h : Comparable value literal) :
    columnValueMatchesLiteral column row literal = .ok (decide (sqlEquals (some value) literal = some true)) := by
  unfold columnValueMatchesLiteral
  rw [hcell]
  cases literal with
  | null => cases value <;> rfl
  | boolean expected => cases value <;> exact h.elim
  | int64 expected =>
    cases value with
    | int32 value => simp [sqlEquals]
    | int64 value => simp [sqlEquals]
    | uint64 value =>
      have hnonneg : 0 ≤ expected := h
      have hvalue : value = expected.toNat ↔ (value : ℤ) = expected := by omega
      simp [sqlEquals,hnonneg,hvalue]
    | _ => exact h.elim
  | float64 bits => cases value <;> exact h.elim
  | utf8 expected =>
    cases value with
    | utf8 value => simp [sqlEquals]
    | _ => exact h.elim

theorem simpleCaseGroupIdForRow_none (hcell : column.cells[row]?.join = none) (branches : List (GroupKeyLiteral × α))
    (elseGroup : α) : ∃ group, simpleCaseGroupIdForRow column row branches elseGroup = .ok group ∧
      (GroupKeyLiteral.null ∉ branches.map Prod.fst → group = caseResult none branches elseGroup) := by
  induction branches with
  | nil => exact ⟨elseGroup,rfl,fun _ => rfl⟩
  | cons branch branches ih =>
    obtain ⟨condition,result⟩ := branch
    obtain ⟨group,hgroup,hresult⟩ := ih
    rw [simpleCaseGroupIdForRow,columnValueMatchesLiteral_none hcell]
    by_cases hnull : condition = .null
    · exact ⟨result,by rw [decide_eq_true hnull]; rfl,fun h => absurd (by simp [hnull]) h⟩
    · refine ⟨group,by rw [decide_eq_false hnull]; exact hgroup,fun h => ?_⟩
      rw [caseResult,if_neg (show sqlEquals none condition ≠ some true from (Option.some_ne_none true).symm)]
      exact hresult fun hmem => h (List.mem_cons_of_mem _ hmem)

theorem simpleCaseGroupIdForRow_some (hcell : column.cells[row]?.join = some value)
    (branches : List (GroupKeyLiteral × α)) (elseGroup group : α) :
    simpleCaseGroupIdForRow column row branches elseGroup = .ok group ↔
      BranchesComparable value branches ∧ group = caseResult (some value) branches elseGroup := by
  induction branches with
  | nil => exact ⟨fun h => ⟨trivial,(Except.ok.inj h).symm⟩,fun h => congrArg Except.ok h.2.symm⟩
  | cons branch branches ih =>
    obtain ⟨condition,result⟩ := branch
    rw [simpleCaseGroupIdForRow,BranchesComparable,caseResult]
    by_cases hcomparable : Comparable value condition
    · rw [matches_comparable hcell hcomparable]
      by_cases hequal : sqlEquals (some value) condition = some true
      · rw [decide_eq_true hequal,if_pos hequal]
        exact ⟨fun h => ⟨⟨hcomparable,fun hne => absurd hequal hne⟩,(Except.ok.inj h).symm⟩,
          fun h => congrArg Except.ok h.2.symm⟩
      · rw [decide_eq_false hequal,if_neg hequal]
        exact ih.trans (and_congr_left fun _ => ⟨fun h => ⟨hcomparable,fun _ => h⟩,fun h => h.2 hequal⟩)
    · refine iff_of_false (fun h => ?_) fun h => hcomparable h.1.1
      obtain ⟨matched,hmatched,-⟩ := bind_eq_ok_iff.mp h
      exact matches_other hcell hcomparable matched hmatched

theorem exists_groupId_iff (branches : List (GroupKeyLiteral × α)) (elseGroup : α) :
    (∃ group, simpleCaseGroupIdForRow column row branches elseGroup = .ok group) ↔
      ∀ value, column.cells[row]?.join = some value → BranchesComparable value branches := by
  cases hcell : column.cells[row]?.join with
  | none =>
    obtain ⟨group,hgroup,-⟩ := simpleCaseGroupIdForRow_none hcell branches elseGroup
    exact iff_of_true ⟨group,hgroup⟩ nofun
  | some value =>
    constructor
    · rintro ⟨group,hgroup⟩ value' hvalue
      cases hvalue
      exact ((simpleCaseGroupIdForRow_some hcell branches elseGroup group).mp hgroup).1
    · exact fun h => ⟨_,(simpleCaseGroupIdForRow_some hcell branches elseGroup _).mpr ⟨h value rfl,rfl⟩⟩

theorem groupId_eq_caseResult {branches : List (GroupKeyLiteral × α)} {elseGroup group : α}
    (h : simpleCaseGroupIdForRow column row branches elseGroup = .ok group)
    (hnull : column.cells[row]?.join = none → GroupKeyLiteral.null ∉ branches.map Prod.fst) :
    group = caseResult column.cells[row]?.join branches elseGroup := by
  cases hcell : column.cells[row]?.join with
  | none =>
    obtain ⟨group',hgroup,hresult⟩ := simpleCaseGroupIdForRow_none hcell branches elseGroup
    rw [h] at hgroup
    cases hgroup
    exact hresult (hnull hcell)
  | some value => exact ((simpleCaseGroupIdForRow_some hcell branches elseGroup group).mp h).2

end Rows

section Batches
variable {ops : FloatOps} {plan : SimpleCaseKeyCountSumPlan}

theorem exists_i32Conditions_iff (literals : List GroupKeyLiteral) :
    (∃ conditions, simpleCaseI32Conditions literals = .ok conditions) ↔ LiteralsInRange literals := by
  induction literals with
  | nil => exact iff_of_true ⟨_,rfl⟩ trivial
  | cons literal literals ih =>
    cases literal with
    | int64 value =>
      rw [simpleCaseI32Conditions,LiteralsInRange,← ih]
      split_ifs with hrange
      · constructor
        · rintro ⟨conditions,h⟩
          obtain ⟨rest,hrest,-⟩ := map_eq_ok_iff.mp h
          exact ⟨hrange,rest,hrest⟩
        · rintro ⟨-,rest,hrest⟩
          exact ⟨_,map_eq_ok_iff.mpr ⟨rest,hrest,rfl⟩⟩
      · exact iff_of_false (by rintro ⟨_,⟨⟩⟩) fun h => hrange h.1
    | _ => exact iff_of_true ⟨_,rfl⟩ trivial

theorem BranchesComparable.zip {α β : Type} {value : Scalar} {branches : List (GroupKeyLiteral × α)}
    (h : BranchesComparable value branches) (ids : List β) :
    BranchesComparable value ((branches.map Prod.fst).zip ids) := by
  induction branches generalizing ids with
  | nil => exact trivial
  | cons branch branches ih =>
    cases ids with
    | nil => exact trivial
    | cons id ids => exact ⟨h.1,fun hne => ih (h.2 hne) ids⟩

variable {batch : RecordBatch} {keyColumn sumColumn : ArrayRef}

variable (ops) in
theorem BatchGrouped.update
    (h : BatchGrouped plan batch keyColumn sumColumn) (branchIds : List ℕ) (elseId : ℕ) (groups : List CountSumGroup) :
    ∃ groups', updateSimpleCaseKeyCountSumGroups ops plan keyColumn sumColumn branchIds elseId groups = .ok groups' := by
  have hfold : ∀ groupId : ℕ → Result ℕ, (∀ row, ∃ id, groupId row = .ok id) → ∃ groups',
      (List.range keyColumn.len).foldlM (fun groups row => (groupId row).map fun id =>
        groups.modify id (·.update ops sumColumn.cells[row]?.join)) groups = .ok groups' := by
    intro groupId hgroupId
    obtain ⟨groups',hgroups,-⟩ := foldlM_total (fun _ _ => True) (l := List.range keyColumn.len) (s := groups)
      (f := fun groups row => (groupId row).map fun id => groups.modify id (·.update ops sumColumn.cells[row]?.join))
      trivial fun _ row _ groups _ _ => by
        obtain ⟨id,hid⟩ := hgroupId row
        exact ⟨_,map_eq_ok_iff.mpr ⟨id,hid,rfl⟩,trivial⟩
    exact ⟨groups',hgroups⟩
  have hrow : ∀ row, ∃ id, simpleCaseGroupIdForRow keyColumn row ((plan.branches.map Prod.fst).zip branchIds) elseId =
      .ok id := fun row => (exists_groupId_iff _ _).mpr fun value hvalue =>
    (h.comparable value (List.mem_of_getElem? (Option.join_eq_some_iff.mp hvalue))).zip branchIds
  unfold updateSimpleCaseKeyCountSumGroups
  cases keyColumn with
  | int32 values =>
    obtain ⟨conditions,hconditions⟩ := (exists_i32Conditions_iff _).mpr (h.inRange values rfl)
    dsimp only
    rw [hconditions]
    cases conditions with
    | none => exact hfold _ hrow
    | some conditions => exact hfold _ fun row => ⟨_,rfl⟩
  | _ => exact hfold _ hrow

theorem literalsInRange_of_update {values : List (Option ℤ)} {branchIds : List ℕ} {elseId : ℕ}
    {groups groups' : List CountSumGroup}
    (h : updateSimpleCaseKeyCountSumGroups ops plan (.int32 values) sumColumn branchIds elseId groups = .ok groups') :
    LiteralsInRange (plan.branches.map Prod.fst) := by
  obtain ⟨conditions,hconditions,-⟩ := bind_eq_ok_iff.mp h
  exact (exists_i32Conditions_iff _).mp ⟨conditions,hconditions⟩

theorem caseRows_of_rows (hrows : batch.numRows ≠ 0)
    (hkey : batch.column plan.column = .ok keyColumn) (hsum : batch.column plan.sumColumn = .ok sumColumn) :
    caseRows plan batch = (List.range keyColumn.len).mapM fun row =>
      (simpleCaseGroupIdForRow keyColumn row plan.branches plan.elseValue).map fun key =>
        (key,sumColumn.cells[row]?.join) := by
  rw [caseRows,if_neg hrows,hkey,hsum]
  rfl

theorem comparable_of_caseRows {rows : List (GroupValue × Option Scalar)}
    (h : (List.range keyColumn.len).mapM (fun row =>
      (simpleCaseGroupIdForRow keyColumn row plan.branches plan.elseValue).map fun key =>
        (key,sumColumn.cells[row]?.join)) = .ok rows) {value : Scalar} (hvalue : some value ∈ keyColumn.cells) :
    BranchesComparable value plan.branches := by
  obtain ⟨row,hrow,hget⟩ := List.mem_iff_getElem.mp hvalue
  obtain ⟨entry,-,hentry⟩ := exists_of_forall₂_left (mapM_ok_iff.mp h) (List.mem_range.mpr hrow)
  obtain ⟨key,hkey,-⟩ := map_eq_ok_iff.mp hentry
  refine (exists_groupId_iff plan.branches plan.elseValue).mp ⟨key,hkey⟩ value ?_
  rw [List.getElem?_eq_getElem hrow,hget]
  rfl

theorem simpleCaseBatch_total
    (h : batch.numRows ≠ 0 → ∃ keyColumn sumColumn, BatchGrouped plan batch keyColumn sumColumn) (state : CaseState) :
    ∃ state', simpleCaseBatch ops plan state (.ok batch) = .ok state' := by
  have hbatch : simpleCaseBatch ops plan state (.ok batch) = if batch.numRows = 0 then .ok state else _ := rfl
  by_cases hne : batch.numRows = 0
  · exact ⟨state,hbatch.trans (if_pos hne)⟩
  obtain ⟨keyColumn,sumColumn,hgrouped⟩ := h hne
  obtain ⟨kind,hkind⟩ := hgrouped.kind
  obtain ⟨ids,hids⟩ : ∃ ids, ids =
    state.ids.elim (simpleCaseGroupIds plan kind state.table) fun ids => (ids,state.table) := ⟨_,rfl⟩
  obtain ⟨groups,hgroups⟩ := hgrouped.update ops ids.1.1 ids.1.2 ids.2.groups
  refine ⟨⟨{ ids.2 with groups },some ids.1⟩,?_⟩
  rw [hbatch,if_neg hne,hgrouped.key,hgrouped.sum]
  change (countSumOutputKind sumColumn _).bind _ = _
  rw [hkind]
  subst hids
  exact map_eq_ok_iff.mpr ⟨groups,hgroups,rfl⟩

theorem collect_ok_iff (stream : List (Result RecordBatch)) :
    (∃ metrics, collectSimpleCaseKeyCountSumGroups ops plan stream = .ok metrics) ↔ StreamGrouped plan stream := by
  constructor
  · rintro ⟨metrics,h⟩ batch hbatch
    obtain ⟨state,hfold,-⟩ := map_eq_ok_iff.mp h
    obtain ⟨rows,hrows,-⟩ := foldlM_simpleCaseBatch_run hfold
    obtain ⟨parts,hparts,-⟩ := map_eq_ok_iff.mp hrows
    obtain ⟨part,-,hpart⟩ := exists_of_forall₂_left (mapM_ok_iff.mp hparts) hbatch
    obtain ⟨content,rfl,hcontent⟩ := bind_eq_ok_iff.mp hpart
    have hsteps := foldlM_ok_inv (fun seen (_ : CaseState) => ∀ batch ∈ seen, ∃ state state',
      simpleCaseBatch ops plan state batch = .ok state') (fun _ hmem => absurd hmem List.not_mem_nil)
      (fun seen batch state state' hseen hstep b hb => by
        rcases List.mem_append.mp hb with hb | hb
        · exact hseen b hb
        · cases List.mem_singleton.mp hb
          exact ⟨state,state',hstep⟩) hfold
    obtain ⟨before,after,hstep⟩ := hsteps _ hbatch
    refine ⟨content,rfl,fun hne => ?_⟩
    obtain ⟨keyColumn,sumColumn,kind,ids,table,groups,hkey,hsum,hkind,-,hgroups,-⟩ := simpleCaseBatch_of_rows hne hstep
    rw [caseRows_of_rows hne hkey hsum] at hcontent
    refine ⟨keyColumn,sumColumn,hkey,hsum,⟨kind,hkind⟩,?_,fun value => comparable_of_caseRows hcontent⟩
    rintro values rfl
    exact literalsInRange_of_update hgroups
  · intro h
    have hstep : ∀ batch ∈ stream, ∀ state, ∃ state', simpleCaseBatch ops plan state batch = .ok state' := by
      intro batch hbatch state
      obtain ⟨content,rfl,hgrouped⟩ := h batch hbatch
      exact simpleCaseBatch_total hgrouped state
    obtain ⟨state,hfold,-⟩ := foldlM_total (f := simpleCaseBatch ops plan) (l := stream) (s := ⟨⟨∅,[]⟩,none⟩)
      (fun _ _ => True) trivial fun seen batch rest state hstream _ =>
        have ⟨state',h⟩ := hstep batch (hstream ▸ List.mem_append_right _ List.mem_cons_self) state
        ⟨state',h,trivial⟩
    exact ⟨_,map_eq_ok_iff.mpr ⟨state,hfold,rfl⟩⟩

end Batches

section Groups
variable {ops : FloatOps} {plan : SimpleCaseKeyCountSumPlan} {stream : List (Result RecordBatch)}
variable {rows : List (GroupValue × Option Scalar)} {kind : CountSumOutputKind}

theorem sqlCaseRows_eq {batch : RecordBatch} (h : caseRows plan batch = .ok rows)
    (hnull : GroupKeyLiteral.null ∈ plan.branches.map Prod.fst → ∀ keyColumn,
      batch.column plan.column = .ok keyColumn → none ∉ keyColumn.cells) : sqlCaseRows plan batch = .ok rows := by
  rw [caseRows] at h
  rw [sqlCaseRows]
  split_ifs at h ⊢ with hempty
  · exact h
  obtain ⟨keyColumn,hkey,h⟩ := bind_eq_ok_iff.mp h
  obtain ⟨sumColumn,hsum,h⟩ := bind_eq_ok_iff.mp h
  refine bind_eq_ok_iff.mpr ⟨keyColumn,hkey,map_eq_ok_iff.mpr ⟨sumColumn,hsum,?_⟩⟩
  have hall := (List.forall₂_and_left (p := (· ∈ List.range keyColumn.len)) _ _).mpr ⟨fun _ hrow => hrow,mapM_ok_iff.mp h⟩
  have heq := hall.imp fun row entry hrow => show
      (caseResult keyColumn.cells[row]?.join plan.branches plan.elseValue,sumColumn.cells[row]?.join) = entry by
    obtain ⟨hlt,hentry⟩ := hrow
    obtain ⟨key,hgroup,rfl⟩ := map_eq_ok_iff.mp hentry
    refine congrArg (·,sumColumn.cells[row]?.join) (groupId_eq_caseResult hgroup fun hnone hmem => ?_).symm
    have hcell := List.getElem?_eq_getElem (l := keyColumn.cells) (List.mem_range.mp hlt)
    rw [hcell] at hnone
    exact hnull hmem keyColumn hkey (hnone ▸ List.getElem_mem _)
  exact List.forall₂_eq_eq_eq ▸ List.forall₂_map_left_iff.mpr heq

theorem sqlCaseStreamRows_eq (h : caseStreamRows plan stream = .ok rows)
    (hnull : NoNullBranch plan stream) : sqlCaseStreamRows plan stream = .ok rows := by
  obtain ⟨parts,hparts,rfl⟩ := map_eq_ok_iff.mp h
  refine map_eq_ok_iff.mpr ⟨parts,mapM_ok_iff.mpr ?_,rfl⟩
  have hall := (List.forall₂_and_left (p := (· ∈ stream)) _ _).mpr ⟨fun _ hbatch => hbatch,mapM_ok_iff.mp hparts⟩
  refine hall.imp fun batch part hpart => ?_
  obtain ⟨hmem,hpart⟩ := hpart
  obtain ⟨content,rfl,hcontent⟩ := bind_eq_ok_iff.mp hpart
  exact sqlCaseRows_eq hcontent fun hbranch => hnull hbranch content hmem

theorem hasRows_iff {key : GroupValue}
    {cells : List (Option Scalar)} (hcells : (cells : Multiset (Option Scalar)) = valuesAt (rows : Multiset _) key)
    {group : GroupAggregateResult} (heq : group = ⟨[key],[⟨.countStar,.count cells.length⟩,
      ⟨.sum plan.sumColumn,caseSum ops kind (cells.filterMap id)⟩]⟩) :
    group.hasRows = true ↔ ∃ row ∈ rows, row.1 = key := by
  have hcount : group.hasRows = true ↔ cells ≠ [] := by
    rw [heq,hasRows,decide_eq_true_iff]
    simp [eq_comm]
  have hempty : cells = [] ↔ valuesAt (rows : Multiset (GroupValue × Option Scalar)) key = 0 := by
    rw [← hcells,Multiset.coe_eq_zero]
  rw [hcount,ne_eq,hempty,valuesAt,Multiset.map_eq_zero,Multiset.filter_eq_nil]
  simp only [Multiset.mem_coe,not_forall,not_not,exists_prop]

/-- The groups of a table that have rows, in some order, are those of its rows. -/
theorem CaseState.Holds.filtered {table : CaseTable} {branchIds : List ℕ} {elseId : ℕ}
    (h : CaseState.Holds ops kind plan rows table branchIds elseId) {groups : List GroupAggregateResult}
    (hgroups : groups.Perm (table.groups.map (CountSumGroup.finish .countStar (.sum plan.sumColumn))))
    (hsums : ∀ row ∈ rows, ∀ value, row.2 = some value → kind.Sums value) :
    CaseGroupsExact ops kind plan rows (groups.filter hasRows) := by
  refine ⟨?_,?_,?_⟩
  · have hnodup := (keys_perm hgroups).nodup_iff.mpr
      (h.held.grouping.nodup.map fun _ _ heq => List.head_eq_of_cons_eq heq)
    exact hnodup.sublist (List.filter_sublist.map _)
  · intro keys
    constructor
    · intro hmem
      obtain ⟨group,hgroup,rfl⟩ := List.mem_map.mp hmem
      obtain ⟨hgroup,hhas⟩ := List.mem_filter.mp hgroup
      obtain ⟨g,hg,rfl⟩ := List.mem_map.mp (hgroups.mem_iff.mp hgroup)
      obtain ⟨cells,hcells,heq⟩ := h.finish hsums hg
      obtain ⟨row,hrow,hkey⟩ := (hasRows_iff hcells heq).mp hhas
      exact ⟨row,hrow,congrArg (fun key => [key]) hkey⟩
    · rintro ⟨row,hrow,rfl⟩
      obtain ⟨g,hg,hkey⟩ := List.mem_map.mp (h.held.grouping.covers row hrow)
      obtain ⟨cells,hcells,heq⟩ := h.finish hsums hg
      refine List.mem_map.mpr ⟨g.finish .countStar (.sum plan.sumColumn),List.mem_filter.mpr ⟨?_,?_⟩,?_⟩
      · exact hgroups.mem_iff.mpr (List.mem_map_of_mem hg)
      · exact (hasRows_iff hcells heq).mpr ⟨row,hrow,hkey.symm⟩
      · exact congrArg (fun key => [key]) hkey
  · intro group hgroup
    obtain ⟨g,hg,rfl⟩ := List.mem_map.mp (hgroups.mem_iff.mp (List.mem_filter.mp hgroup).1)
    obtain ⟨cells,hcells,heq⟩ := h.finish hsums hg
    exact ⟨g.key,cells,rfl,hcells,congrArg values heq⟩

theorem groups_with_rows {metrics : AggregateMetrics}
    (h : collectSimpleCaseKeyCountSumGroups ops plan stream = .ok metrics) :
    ∃ rows, caseStreamRows plan stream = .ok rows ∧ ∀ kind, OneSumKind plan kind stream →
      CaseGroupsExact ops kind plan rows (metrics.groups.filter hasRows) := by
  obtain ⟨state,hfold,rfl⟩ := map_eq_ok_iff.mp h
  obtain ⟨rows,hrows,hrun⟩ := foldlM_simpleCaseBatch_run hfold
  refine ⟨rows,hrows,fun kind' hkind' => ?_⟩
  cases hids : state.ids with
  | none =>
    obtain ⟨rfl,htable⟩ := hrun.start hids
    rw [htable]
    exact ⟨List.nodup_nil,fun keys => iff_of_false List.not_mem_nil fun ⟨_,hrow,_⟩ => Multiset.notMem_zero _ hrow,
      fun _ hgroup => absurd hgroup List.not_mem_nil⟩
  | some ids =>
    obtain ⟨-,kind,hheld,hone⟩ := hrun.held ids hids
    obtain rfl := hone kind' hkind'
    exact hheld.filtered (List.perm_insertionSort _ _) (hrun.sums kind hkind')

end Groups

section Refused

def letterCase : SimpleCaseKeyCountSumPlan := ⟨"k",[(.utf8 "a",.utf8 (some "x"))],.utf8 (some "y"),"s"⟩

def dictionaryBatch : RecordBatch where
  columns := [⟨"k",.other "Dictionary(Int32, Utf8)" [some ()]⟩,⟨"s",.int64 [some 1]⟩]
  numRows := 1
  lengths := by decide

end Refused

end Dodam.Execution.Aggregate

import Dodam.Execution.Aggregate.CountSumMinMaxCorrect

/-! # The finished groups of the direct aggregates

Finishing returns each group once.
-/
namespace Dodam.Execution.Aggregate
open Foundation SingleKeyCall

section Finish
variable {κ : Type} {entries : List (ℤ × ℕ)} {groups : List (KeyedGroup κ)} {value : κ → ℤ}

theorem map_filterMap_entries (h : ∀ entry ∈ entries, ∃ group, groups[entry.2]? = some group ∧
      value group.key = entry.1) :
    (entries.filterMap fun entry => groups[entry.2]?).map (fun group => value group.key) = entries.map Prod.fst := by
  induction entries with
  | nil => rfl
  | cons entry entries ih =>
    obtain ⟨group,hgroup,hkey⟩ := h entry List.mem_cons_self
    rw [List.filterMap_cons_some (f := fun entry : ℤ × ℕ => groups[entry.2]?) hgroup,List.map_cons,List.map_cons,hkey,
      ih fun e he => h e (List.mem_cons_of_mem _ he)]

theorem finishOrderedCopyKeyGroups_perm (value : κ → ℤ) (hnodup : (entries.map Prod.fst).Nodup)
    (hentries : ∀ entry, entry ∈ entries ↔ ∃ group, groups[entry.2]? = some group ∧ value group.key = entry.1) :
    (finishOrderedCopyKeyGroups entries groups).Perm groups := by
  have hperm : (finishOrderedCopyKeyGroups entries groups).Perm (entries.filterMap fun entry => groups[entry.2]?) :=
    (List.perm_insertionSort _ entries).filterMap _
  refine hperm.trans ((List.perm_ext_iff_of_nodup ?_ ?_).mpr fun group => ?_)
  · refine List.Nodup.of_map (fun group => value group.key) ?_
    rw [map_filterMap_entries fun entry he => (hentries entry).mp he]
    exact hnodup
  · refine List.nodup_iff_getElem?_ne_getElem?.mpr fun i j hij hj heq => ?_
    have hj' : groups[j]? = some groups[j] := List.getElem?_eq_getElem hj
    have hmem : ∀ k, groups[k]? = some groups[j] → (value groups[j].key,k) ∈ entries :=
      fun k hk => (hentries _).mpr ⟨_,hk,rfl⟩
    have hsame := List.inj_on_of_nodup_map hnodup (hmem i (heq.trans hj')) (hmem j hj') rfl
    exact absurd (Prod.ext_iff.mp hsame).2 hij.ne
  · rw [List.mem_filterMap]
    constructor
    · rintro ⟨entry,-,hgroup⟩
      exact List.mem_of_getElem? hgroup
    · intro hgroup
      obtain ⟨i,hi⟩ := List.getElem?_of_mem hgroup
      exact ⟨(value group.key,i),(hentries _).mpr ⟨group,hi,rfl⟩,hi⟩

theorem sortGroupResults_perm (results : List GroupAggregateResult) : (sortGroupResults results).Perm results :=
  List.perm_insertionSort _ _

variable {tuning : Tuning} {maxKind : CountSumMinMaxMaxKind} {registered : List GroupValue → Prop}
  {rows : Multiset (List GroupValue × DirectRow)}

theorem i32_results (shape : CountSumMinMaxShape) {table : I32Table}
    (h : NamedHolds (denseKeyIndex tuning) denseWF i32Name maxKind registered rows table) :
    ResultsOf shape i32Name table (finishSingleKeyCountSumMinMaxGroups shape (.int32 table)) := by
  obtain ⟨keys,held,htable,-,-⟩ := h
  have hwf : table.index.WF := htable.wf
  refine List.Perm.map _ (finishOrderedCopyKeyGroups_perm Subtype.val
    (DenseI32GroupIndex.nodup_iter hwf) fun entry => ?_)
  rw [DenseI32GroupIndex.mem_iter hwf]
  constructor
  · rintro ⟨hkey,hget⟩
    obtain ⟨group,hgroup,heq⟩ := Table.keyAt_eq_some.mp ((htable.get (k := ⟨entry.1,hkey⟩)).mp hget)
    exact ⟨group,hgroup,congrArg Subtype.val heq⟩
  · rintro ⟨group,hgroup,hkey⟩
    rw [← hkey]
    exact ⟨group.key.2,htable.get.mpr (Table.keyAt_eq_some.mpr ⟨group,hgroup,rfl⟩)⟩

theorem i64_results (shape : CountSumMinMaxShape) {table : I64Table}
    (h : NamedHolds (adaptiveKeyIndex tuning) adaptiveWF i64Name maxKind registered rows table) :
    ResultsOf shape i64Name table (finishSingleKeyCountSumMinMaxGroups shape (.int64 table)) := by
  obtain ⟨keys,held,htable,-,-⟩ := h
  obtain ⟨hwf,hrange⟩ := htable.wf
  refine List.Perm.map _ (finishOrderedCopyKeyGroups_perm Subtype.val
    (AdaptiveCopyGroupIndex.nodup_iter hwf) fun entry => ?_)
  rw [AdaptiveCopyGroupIndex.mem_iter hwf]
  constructor
  · intro hget
    have hkey := hrange _ _ hget
    obtain ⟨group,hgroup,heq⟩ := Table.keyAt_eq_some.mp ((htable.get (k := ⟨entry.1,hkey⟩)).mp hget)
    exact ⟨group,hgroup,congrArg Subtype.val heq⟩
  · rintro ⟨group,hgroup,hkey⟩
    rw [← hkey]
    exact htable.get.mpr (Table.keyAt_eq_some.mpr ⟨group,hgroup,rfl⟩)

end Finish

section Exact
variable {filter : DecimalDateRangeFilter}

def qualifying (filter : DecimalDateRangeFilter) (rows : List (List GroupValue × DirectRow)) :
    List (List GroupValue × DirectRow) :=
  rows.filter fun row => row.2.Qualifies filter

/-- Every key of a dictionary page has a row that qualifies. -/
def NoIdleKey (filter : DecimalDateRangeFilter) (calls : List SingleKeyCall) : Prop :=
  ∀ call ∈ calls, ∀ key, call.Registers key →
    ∃ row ∈ qualifying filter (calls.flatMap rows), row.1 = key

/-- Rows handed over as already filtered satisfy the filter. -/
def SingleKeyCall.Prepared (filter : DecimalDateRangeFilter) : SingleKeyCall → Prop
  | call@(i32Slices _ _ _ _ true) => ∀ row ∈ call.rows, row.2.Qualifies filter
  | _ => True

theorem qualifying_eq_matchingRows {rows : List (List GroupValue × DirectRow)}
    (hvalid : ∀ row ∈ rows, row.2.decimalValid = true) : qualifying filter rows = matchingRows filter rows := by
  refine List.filter_congr fun row hrow => ?_
  rw [Bool.eq_iff_iff,decide_eq_true_iff]
  exact and_iff_left (.inl (hvalid row hrow))

theorem visited_eq_qualifying {call : SingleKeyCall} (hprepared : call.Prepared filter)
    (hvalid : ∀ row ∈ call.rows, row.2.decimalValid = true) :
    call.visited filter = qualifying filter call.rows := by
  unfold visited
  split
  · next keys sums decimals dates =>
    exact (List.filter_eq_self.mpr fun row hrow => decide_eq_true (hprepared row hrow)).symm
  · exact (qualifying_eq_matchingRows hvalid).symm

theorem flatMap_qualifying {α : Type} (f : α → List (List GroupValue × DirectRow)) (l : List α) :
    l.flatMap (fun a => qualifying filter (f a)) = qualifying filter (l.flatMap f) :=
  List.filter_flatMap.symm

variable {tuning : Tuning} {simd : Bool} {shape : CountSumMinMaxShape}

theorem SingleKeyTable.Holds.groupsExact {registered : List GroupValue → Prop}
    {rows : Multiset (List GroupValue × DirectRow)} {table : SingleKeyTable}
    (h : table.Holds tuning shape.maxKind registered rows) :
    (∀ held, GroupsExact shape held (finishSingleKeyCountSumMinMaxGroups shape table) →
      ∀ k, registered k → ∃ row ∈ held, row.1 = k) ∧
    ((∀ k, registered k → ∃ row ∈ rows, row.1 = k) → (∀ row ∈ rows, row.2.decimalValid = true) → SumsFit rows →
      GroupsExact shape rows (finishSingleKeyCountSumMinMaxGroups shape table)) := by
  cases table with
  | utf8 table =>
    have hresults : ResultsOf shape utf8Name table (finishSingleKeyCountSumMinMaxGroups shape (.utf8 table)) :=
      sortGroupResults_perm _
    exact NamedHolds.groupsExact h utf8Name_injective hresults
  | int32 table => exact NamedHolds.groupsExact h i32Name_injective (i32_results shape h)
  | int64 table => exact NamedHolds.groupsExact h i64Name_injective (i64_results shape h)

theorem holds_start (tuning : Tuning) {start : SingleKeyCountSumMinMaxVectorState}
    (hstart : start ∈ [newI32WithMaxKind shape,newI64WithMaxKind shape,newUtf8WithMaxKind shape]) :
    start.shape = shape ∧ start.table.Holds tuning shape.maxKind (fun _ => False) 0 := by
  simp only [List.mem_cons,List.not_mem_nil,or_false] at hstart
  rcases hstart with rfl | rfl | rfl
  · exact ⟨rfl,namedHolds_empty ⟨List.nodup_nil,fun _ h => absurd h List.not_mem_nil⟩ fun _ => rfl⟩
  · exact ⟨rfl,namedHolds_empty ⟨List.nodup_nil,fun _ _ h => nomatch h⟩ fun _ => rfl⟩
  · exact ⟨rfl,namedHolds_empty trivial fun key => by cases key <;> rfl⟩

/-- The groups of a run over one key are those of the rows that qualify unless a page has an idle key. -/
theorem singleKey_groups {start state : SingleKeyCountSumMinMaxVectorState} {calls : List SingleKeyCall}
    (hstart : start ∈ [newI32WithMaxKind shape,newI64WithMaxKind shape,newUtf8WithMaxKind shape])
    (hrun : runSingleKey tuning simd filter start calls = .ok state) :
    (GroupsExact shape (qualifying filter (calls.flatMap rows) : List _) state.finish.groups →
      NoIdleKey filter calls) ∧
    (NoIdleKey filter calls → (∀ call ∈ calls, call.Prepared filter) →
      (∀ call ∈ calls, ∀ row ∈ call.rows, row.2.decimalValid = true) →
      SumsFit (qualifying filter (calls.flatMap rows) : List _) →
        GroupsExact shape (qualifying filter (calls.flatMap rows) : List _) state.finish.groups) := by
  obtain ⟨hshape,hempty⟩ := holds_start tuning hstart
  rw [← hshape] at hempty
  obtain ⟨hshape',htable⟩ := runSingleKey_holds hempty hrun
  rw [hshape,zero_add] at htable
  obtain ⟨hregistered,hexact⟩ := htable.groupsExact
  have hfinish : state.finish.groups = finishSingleKeyCountSumMinMaxGroups shape state.table := by
    rw [← hshape,← hshape']
    rfl
  rw [hfinish]
  refine ⟨fun h call hcall key hkey => ?_,fun hidle hprepared hvalid hfit => ?_⟩
  · obtain ⟨row,hrow,heq⟩ := hregistered _ h key (.inr ⟨call,hcall,.inl hkey⟩)
    exact ⟨row,Multiset.mem_coe.mp hrow,heq⟩
  · have hvisited : calls.flatMap (visited filter) =
        qualifying filter (calls.flatMap rows) := by
      rw [← flatMap_qualifying]
      exact List.flatMap_congr fun call hcall =>
        visited_eq_qualifying (hprepared call hcall) (hvalid call hcall)
    rw [hvisited] at hexact
    refine hexact ?_ (fun row hrow => ?_) hfit
    · rintro k (hfalse | ⟨call,hcall,hregisters | ⟨row,hrow,rfl⟩⟩)
      · exact hfalse.elim
      · exact hidle call hcall k hregisters
      · refine ⟨row,?_,rfl⟩
        rw [← hvisited]
        exact Multiset.mem_coe.mpr (List.mem_flatMap.mpr ⟨call,hcall,hrow⟩)
    · obtain ⟨call,hcall,hmem⟩ := List.mem_flatMap.mp (List.mem_filter.mp (Multiset.mem_coe.mp hrow)).1
      exact hvalid call hcall row hmem

theorem twoKey_groups {state : TwoKeyCountSumMinMaxVectorState} {calls : List TwoKeyCall}
    (hrun : runTwoKey filter (newWithMaxKind shape) calls = .ok state)
    (hvalid : ∀ call ∈ calls, ∀ row ∈ call.rows, row.2.decimalValid = true)
    (hfit : SumsFit (qualifying filter (calls.flatMap TwoKeyCall.rows) : List _)) :
    GroupsExact shape (qualifying filter (calls.flatMap TwoKeyCall.rows) : List _) state.finish.groups := by
  have hempty : TwoKeyTable.NamedHolds shape.maxKind (fun _ => False) 0 (newWithMaxKind shape).table :=
    namedHolds_empty trivial fun _ => rfl
  obtain ⟨hshape,htable⟩ := runTwoKey_holds hempty hrun
  have hrows : ∀ row ∈ calls.flatMap TwoKeyCall.rows, row.2.decimalValid = true := by
    intro row hrow
    obtain ⟨call,hcall,hmem⟩ := List.mem_flatMap.mp hrow
    exact hvalid call hcall row hmem
  have hresults : ResultsOf shape twoKeyName state.table state.finish.groups := by
    have hperm := sortGroupResults_perm (state.table.groups.map fun group =>
      .ofGroup state.shape [.int64 group.key.1,.date32 group.key.2] group.state)
    rw [hshape] at hperm
    rw [TwoKeyCountSumMinMaxVectorState.finish,hshape]
    exact hperm
  rw [← qualifying_eq_matchingRows hrows,zero_add] at htable
  refine (NamedHolds.groupsExact htable twoKeyName_injective hresults).2 ?_ (fun row hrow => ?_) hfit
  · rintro k (hfalse | hrow)
    · exact hfalse.elim
    · exact hrow
  · exact hrows row (List.mem_filter.mp (Multiset.mem_coe.mp hrow)).1

end Exact

end Dodam.Execution.Aggregate

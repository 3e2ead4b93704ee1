import Dodam.Execution.Aggregate.DictionaryPage

/-! # Groups of the rows that qualify

What a direct aggregate should return, from the rows that satisfy the filter: one group for each
of their keys, with exact values.
-/
namespace Dodam.Execution.Aggregate
open Foundation

section Specification

/-- The row satisfies the filter. No bound is satisfied by a NULL decimal. -/
def DirectRow.Qualifies (filter : DecimalDateRangeFilter) (row : DirectRow) : Prop :=
  filter.matchesRow row.decimal row.date = true ∧
    (row.decimalValid = true ∨ filter.decimalMin = none ∧ filter.decimalMax = none)

instance (filter : DecimalDateRangeFilter) (row : DirectRow) : Decidable (row.Qualifies filter) :=
  inferInstanceAs (Decidable (_ ∧ _))

def decimals (rows : Multiset DirectRow) : Multiset ℤ :=
  (rows.filter fun row => row.decimalValid = true).map DirectRow.decimal

def maxInputs (maxKind : CountSumMinMaxMaxKind) (rows : Multiset DirectRow) : Multiset ℤ :=
  match maxKind with
  | .date32 => rows.map fun row => row.date
  | .decimal128 _ _ => decimals rows

/-- The result has the number, the sum, the least decimal and the greatest value of the rows. -/
def ExactResult (shape : CountSumMinMaxShape) (rows : Multiset DirectRow) (result : GroupAggregateResult) : Prop :=
  ∃ least greatest, BestOf (· ≤ ·) (decimals rows) least ∧ BestOf (· ≥ ·) (maxInputs shape.maxKind rows) greatest ∧
    result = .ofGroup shape result.keys ⟨none,⟨rows.card,(rows.map DirectRow.sum).sum,rows.card⟩,least,greatest⟩

structure GroupsExact (shape : CountSumMinMaxShape) (rows : Multiset (List GroupValue × DirectRow))
    (groups : List GroupAggregateResult) : Prop where
  nodup : (groups.map GroupAggregateResult.keys).Nodup
  exists_iff : ∀ keys, keys ∈ groups.map GroupAggregateResult.keys ↔ ∃ row ∈ rows, row.1 = keys
  exact : ∀ group ∈ groups, ExactResult shape (valuesAt rows group.keys) group

/-- 64 bits can count the rows, and no part of the rows of a key has a sum out of range. -/
def SumsFit (rows : Multiset (List GroupValue × DirectRow)) : Prop :=
  InUnsigned 64 rows.card ∧ ∀ keys, PartsFit 64 ((valuesAt rows keys).map DirectRow.sum)

end Specification

section Named
variable {ι κ : Type} [DecidableEq κ] {ops : KeyIndex ι κ} {WF : ι → Prop} {name : κ → List GroupValue}
  {maxKind : CountSumMinMaxMaxKind} {registered : List GroupValue → Prop}
  {rows : Multiset (List GroupValue × DirectRow)} {table : Table ι (KeyedGroup κ)}

def nameRow (name : κ → List GroupValue) (row : κ × DirectRow) : List GroupValue × DirectRow := (name row.1,row.2)

def NamedHolds (ops : KeyIndex ι κ) (WF : ι → Prop) (name : κ → List GroupValue) (maxKind : CountSumMinMaxMaxKind)
    (registered : List GroupValue → Prop) (rows : Multiset (List GroupValue × DirectRow))
    (table : Table ι (KeyedGroup κ)) : Prop :=
  ∃ (keys : κ → Prop) (held : Multiset (κ × DirectRow)), TableHolds ops WF maxKind keys held table ∧
    rows = held.map (nameRow name) ∧ ∀ k, registered k ↔ ∃ key, keys key ∧ name key = k

theorem namedHolds_empty {index : ι} (hwf : WF index) (hnone : ∀ k, ops.get index k = none) :
    NamedHolds ops WF name maxKind (fun _ => False) 0 ⟨index,[]⟩ :=
  ⟨fun _ => False,0,Table.holds_empty hwf hnone,rfl,fun _ => ⟨False.elim,fun ⟨_,h,_⟩ => h⟩⟩

theorem NamedHolds.step (h : NamedHolds ops WF name maxKind registered rows table)
    {table' : Table ι (KeyedGroup κ)} {m : κ → Prop} {l : List (κ × DirectRow)}
    (hstep : ∀ keys held, TableHolds ops WF maxKind keys held table →
      TableHolds ops WF maxKind (fun k => keys k ∨ m k) (held + l) table')
    {more' : List GroupValue → Prop} (hmore : ∀ k, more' k ↔ ∃ key, m key ∧ name key = k) :
    NamedHolds ops WF name maxKind (fun k => registered k ∨ more' k) (rows + (l.map (nameRow name) : List _)) table' := by
  obtain ⟨keys,held,htable,rfl,hkeys⟩ := h
  refine ⟨_,_,hstep keys held htable,?_,fun k => ?_⟩
  · rw [Multiset.map_add,Multiset.map_coe]
  · simp only [hkeys,hmore,or_and_right,exists_or]

omit [DecidableEq κ] in
theorem mem_map_nameRow {l : List (κ × DirectRow)} (k : List GroupValue) :
    (∃ row ∈ l.map (nameRow name), row.1 = k) ↔ ∃ key, (∃ row ∈ l, row.1 = key) ∧ name key = k := by
  constructor
  · rintro ⟨_,hrow,rfl⟩
    obtain ⟨row,hmem,rfl⟩ := List.mem_map.mp hrow
    exact ⟨row.1,⟨row,hmem,rfl⟩,rfl⟩
  · rintro ⟨_,⟨row,hrow,rfl⟩,rfl⟩
    exact ⟨_,List.mem_map_of_mem hrow,rfl⟩

variable {shape : CountSumMinMaxShape} {results : List GroupAggregateResult}

/-- The results are those of the groups of the table, in some order. -/
def ResultsOf (shape : CountSumMinMaxShape) (name : κ → List GroupValue) (table : Table ι (KeyedGroup κ))
    (results : List GroupAggregateResult) : Prop :=
  results.Perm (table.groups.map fun group => .ofGroup shape (name group.key) group.state)

omit [DecidableEq κ] in
theorem ResultsOf.keys_perm (h : ResultsOf shape name table results) :
    (results.map GroupAggregateResult.keys).Perm ((table.groups.map KeyedGroup.key).map name) := by
  refine (h.map _).trans (List.Perm.of_eq ?_)
  rw [List.map_map,List.map_map]
  rfl

theorem NamedHolds.mem_keys (h : NamedHolds ops WF name maxKind registered rows table)
    (hresults : ResultsOf shape name table results) (k : List GroupValue) :
    k ∈ results.map GroupAggregateResult.keys ↔ registered k := by
  obtain ⟨keys,held,htable,rfl,hkeys⟩ := h
  rw [hresults.keys_perm.mem_iff,hkeys,List.mem_map]
  exact exists_congr fun key => and_congr_left fun _ => htable.keys key

theorem valuesAt_nameRow (hname : Function.Injective name) (held : Multiset (κ × DirectRow)) (key : κ) :
    valuesAt (held.map (nameRow name)) (name key) = valuesAt held key := by
  rw [valuesAt,Multiset.filter_map,Multiset.map_map,valuesAt]
  exact congrArg _ (Multiset.filter_congr fun row _ => hname.eq_iff)

theorem NamedHolds.result (h : NamedHolds ops WF name maxKind registered rows table)
    (hname : Function.Injective name) (hresults : ResultsOf shape name table results)
    {result : GroupAggregateResult} (hresult : result ∈ results) :
    ∃ group : KeyedGroup κ, GroupHolds maxKind (valuesAt rows result.keys) group ∧
      result = .ofGroup shape result.keys group.state := by
  obtain ⟨keys,held,htable,rfl,-⟩ := h
  obtain ⟨group,hgroup,rfl⟩ := List.mem_map.mp (hresults.mem_iff.mp hresult)
  refine ⟨group,?_,rfl⟩
  have hheld := htable.grouping.holds group hgroup
  rw [← valuesAt_nameRow hname] at hheld
  exact hheld

omit [DecidableEq κ] in
theorem GroupHolds.exact {held : Multiset DirectRow} {group : KeyedGroup κ} {keys : List GroupValue}
    (h : GroupHolds shape.maxKind held group) (hcard : InUnsigned 64 held.card)
    (hfit : PartsFit 64 (held.map DirectRow.sum)) (hvalid : ∀ row ∈ held, row.decimalValid = true) :
    ExactResult shape held (.ofGroup shape keys group.state) := by
  obtain ⟨hmin,hmax⟩ := h.2 hcard
  have htally := h.1.eq (by rw [Multiset.card_map]; exact hcard) (by rw [values_map_some]; exact hfit)
  rw [values_map_some,Multiset.card_map,Multiset.card_map] at htally
  have hdecimals : decimals held = held.map DirectRow.decimal := by
    rw [decimals,Multiset.filter_eq_self.mpr hvalid]
  refine ⟨group.state.minDecimal,group.state.maxValue,?_,?_,?_⟩
  · rw [hdecimals]
    exact hmin
  · have hinputs : maxInputs shape.maxKind held = held.map (DirectRow.maxInput shape.maxKind) := by
      cases hkind : shape.maxKind with
      | date32 => rfl
      | decimal128 precision scale => exact hdecimals
    rw [hinputs]
    exact hmax
  · rw [← htally]
    rfl

theorem NamedHolds.groupsExact (h : NamedHolds ops WF name shape.maxKind registered rows table)
    (hname : Function.Injective name) (hresults : ResultsOf shape name table results) :
    (∀ qualifying, GroupsExact shape qualifying results → ∀ k, registered k → ∃ row ∈ qualifying, row.1 = k) ∧
      ((∀ k, registered k → ∃ row ∈ rows, row.1 = k) → (∀ row ∈ rows, row.2.decimalValid = true) → SumsFit rows →
        GroupsExact shape rows results) := by
  refine ⟨fun qualifying hexact k hk => (hexact.exists_iff k).mp ((h.mem_keys hresults k).mpr hk),?_⟩
  intro hregistered hvalid hfit
  refine ⟨?_,fun k => (h.mem_keys hresults k).trans ⟨hregistered k,?_⟩,fun result hresult => ?_⟩
  · obtain ⟨keys,held,htable,-,-⟩ := h
    exact hresults.keys_perm.nodup_iff.mpr (htable.grouping.nodup.map hname)
  · rintro ⟨row,hrow,rfl⟩
    obtain ⟨keys,held,htable,rfl,hkeys⟩ := h
    obtain ⟨row,hmem,rfl⟩ := Multiset.mem_map.mp hrow
    exact (hkeys _).mpr ⟨row.1,(htable.keys _).mp (htable.grouping.covers row hmem),rfl⟩
  · obtain ⟨group,hgroup,heq⟩ := h.result hname hresults hresult
    rw [heq]
    refine GroupHolds.exact hgroup ?_ (hfit.2 _) fun row hrow => ?_
    · exact lt_of_le_of_lt (card_valuesAt_le rows _) hfit.1
    · obtain ⟨entry,hentry,rfl⟩ := Multiset.mem_map.mp hrow
      exact hvalid entry (Multiset.mem_of_mem_filter hentry)

end Named

end Dodam.Execution.Aggregate

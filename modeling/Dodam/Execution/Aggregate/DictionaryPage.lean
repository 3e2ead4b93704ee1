import Dodam.Execution.Aggregate.CountSumMinMaxHolds

/-! # Dictionary pages of a direct aggregate

The loop over a dictionary page finds the group of a row through the ids of the page and a cache
of group ids.
-/
namespace Dodam.Execution.Aggregate
open Foundation

/-- The keys of the rows of a page: NULL by the definition level, else the text of the next id. -/
def dictionaryKeys (dictionary : List (Option String)) : List ℤ → List ℤ → List (Option String)
  | [], _ => []
  | level :: levels, ids =>
    if level = 0 then none :: dictionaryKeys dictionary levels ids
    else dictionary[(ids.headD 0).toNat]?.join :: dictionaryKeys dictionary levels ids.tail

section Scan
variable {maxKind : CountSumMinMaxMaxKind} {dictionary : List (Option String)} {filter : DecimalDateRangeFilter}
  {registered : Option String → Prop} {rows waiting : Multiset (Option String × DirectRow)}

variable {row : DirectRow} {scan scan' : DictionaryScan}

theorem matchingRows_cons_of_pos {κ : Type} {key : κ} {l : List (κ × DirectRow)}
    (h : filter.matchesRow row.decimal row.date = true) :
    matchingRows filter ((key,row) :: l) = (key,row) :: matchingRows filter l :=
  List.filter_cons_of_pos h

theorem matchingRows_cons_of_neg {κ : Type} {key : κ} {l : List (κ × DirectRow)}
    (h : ¬filter.matchesRow row.decimal row.date = true) :
    matchingRows filter ((key,row) :: l) = matchingRows filter l :=
  List.filter_cons_of_neg h

def Cached (dictionary : List (Option String)) (table : Utf8Table) (groupIds : List (Option ℕ)) : Prop :=
  ∀ d id : ℕ, groupIds[d]?.join = some id → ∃ text, dictionary[d]? = some (some text) ∧
    utf8KeyIndex.get table.index (some text) = some id

theorem cached_start (table : Utf8Table) (n : ℕ) : Cached dictionary table (List.replicate n none) := by
  intro d id h
  rw [List.getElem?_replicate] at h
  split_ifs at h <;> cases h

theorem Cached.groupId {table : Utf8Table} {groupIds : List (Option ℕ)} (h : Cached dictionary table groupIds)
    (key : Option String) : Cached dictionary (table.groupId utf8KeyIndex .new key).2 groupIds := by
  intro d id hd
  obtain ⟨text,htext,hget⟩ := h d id hd
  exact ⟨text,htext,Table.get_groupId_of_get lawful_utf8KeyIndex trivial hget key⟩

/-- The cached lookup answers the group of the text of the id. -/
theorem groupIdForDictionary_eq_ok {dictionaryKey : ℤ} {groupIds groupIds' : List (Option ℕ)}
    {table table' : Utf8Table} {groupId : ℕ} (hcached : Cached dictionary table groupIds)
    (h : countSumMinMaxGroupIdForDictionaryUtf8Cached dictionary dictionaryKey groupIds table =
      .ok (groupId,groupIds',table')) :
    ∃ text, dictionary[dictionaryKey.toNat]? = some (some text) ∧
      table.groupId utf8KeyIndex .new (some text) = (groupId,table') ∧ Cached dictionary table' groupIds' := by
  unfold countSumMinMaxGroupIdForDictionaryUtf8Cached at h
  split_ifs at h with hnegative
  · cases h
  · dsimp only at h
    cases hslot : groupIds[dictionaryKey.toNat]?.join with
    | some id =>
      rw [hslot] at h
      cases h
      obtain ⟨text,htext,hget⟩ := hcached _ _ hslot
      exact ⟨text,htext,Table.groupId_of_get hget,hcached⟩
    | none =>
      rw [hslot] at h
      cases hentry : dictionary[dictionaryKey.toNat]? with
      | none =>
        rw [hentry] at h
        cases h
      | some entry =>
        cases entry with
        | none =>
          rw [hentry] at h
          cases h
        | some text =>
          rw [hentry] at h
          split_ifs at h with hlt
          · cases h
            refine ⟨text,rfl,rfl,fun d id hd => ?_⟩
            rw [List.getElem?_set] at hd
            split_ifs at hd with heq
            · subst heq
              refine ⟨text,hentry,?_⟩
              rw [← Option.some.inj (hd : some _ = some id)]
              exact Table.get_groupId lawful_utf8KeyIndex trivial _
            · exact hcached.groupId (some text) d id hd
          · cases h

theorem dictionaryRow_eq_ok {level : ℤ} (hcached : Cached dictionary scan.table scan.groupIds)
    (h : dictionaryRow maxKind dictionary filter scan (level,row) = .ok scan') :
    Cached dictionary scan'.table scan'.groupIds ∧
      ∃ key, (∀ levels, dictionaryKeys dictionary (level :: levels) scan.ids =
          key :: dictionaryKeys dictionary levels scan'.ids) ∧
        (scan'.table,scan'.partials) = if filter.matchesRow row.decimal row.date = true
          then Table.gatherRow utf8KeyIndex .new (partialStart maxKind) (partialUpdate maxKind)
            (scan.table,scan.partials) (key,row)
          else ((scan.table.groupId utf8KeyIndex .new key).2,scan.partials) := by
  obtain ⟨⟨groupId,found⟩,hfound,rfl⟩ := map_eq_ok_iff.mp h
  split_ifs at hfound with hlevel
  · cases hfound
    refine ⟨?_,none,fun levels => ?_,?_⟩
    · dsimp only
      split_ifs <;> exact hcached.groupId none
    · rw [dictionaryKeys,if_pos hlevel]
      split_ifs <;> rfl
    · dsimp only
      split_ifs <;> rfl
  · cases hids : scan.ids with
    | nil =>
      rw [hids] at hfound
      cases hfound
    | cons dictionaryKey ids =>
      rw [hids] at hfound
      obtain ⟨⟨id,groupIds,table⟩,hid,hmap⟩ := map_eq_ok_iff.mp hfound
      cases hmap
      obtain ⟨text,htext,hgroup,hcached'⟩ := groupIdForDictionary_eq_ok hcached hid
      refine ⟨?_,some text,fun levels => ?_,?_⟩
      · dsimp only
        split_ifs <;> exact hcached'
      · rw [dictionaryKeys,if_neg hlevel]
        split_ifs <;> exact congrArg (· :: _) (congrArg Option.join htext)
      · dsimp only [Table.gatherRow]
        rw [hgroup]
        split_ifs <;> rfl

/-- The rows of a page: every key is registered, and the rows that match wait in the partials. -/
theorem dictionaryRows_eq_ok {entries : List (ℤ × DirectRow)}
    (hcached : Cached dictionary scan.table scan.groupIds)
    (hgathered : Table.Gathered utf8KeyIndex (fun _ => True) KeyedGroup.key (GroupHolds maxKind)
      (PartHolds maxKind 64) registered rows waiting (scan.table,scan.partials))
    (h : entries.foldlM (dictionaryRow maxKind dictionary filter) scan = .ok scan') :
    Table.Gathered utf8KeyIndex (fun _ => True) KeyedGroup.key (GroupHolds maxKind) (PartHolds maxKind 64)
      (fun k => registered k ∨ k ∈ dictionaryKeys dictionary (entries.map Prod.fst) scan.ids) rows
      (waiting + (matchingRows filter ((dictionaryKeys dictionary (entries.map Prod.fst) scan.ids).zip
        (entries.map Prod.snd)) : List (Option String × DirectRow))) (scan'.table,scan'.partials) := by
  induction entries generalizing scan registered waiting with
  | nil =>
    obtain rfl : scan = scan' := Except.ok.inj h
    have hnone : (matchingRows filter ((dictionaryKeys dictionary [] scan.ids).zip []) :
        List (Option String × DirectRow)) = [] := rfl
    rw [List.map_nil,List.map_nil,hnone,Multiset.coe_nil,add_zero]
    exact hgathered.congr fun k => (or_iff_left List.not_mem_nil).symm
  | cons entry entries ih =>
    obtain ⟨level,row⟩ := entry
    rw [List.foldlM_cons] at h
    obtain ⟨next,hnext,hrest⟩ := except_bind_eq_ok.mp h
    obtain ⟨hcached',key,hkeys,hstep⟩ := dictionaryRow_eq_ok hcached hnext
    rw [List.map_cons,List.map_cons,hkeys,List.zip_cons_cons]
    have hregistered : ∀ (l : List (Option String)) k,
        ((registered k ∨ k = key) ∨ k ∈ l) ↔ registered k ∨ k ∈ key :: l := by
      intro l k
      rw [List.mem_cons,or_assoc]
    by_cases hmatch : filter.matchesRow row.decimal row.date = true
    · rw [if_pos hmatch] at hstep
      have hone := hgathered.gatherRow lawful_utf8KeyIndex (fun _ => rfl) groupHolds_new partHolds_partialStart
        (fun _ _ v hheld => hheld.partialUpdate v) (key,row)
      rw [← hstep] at hone
      have hall := ih hcached' hone hrest
      rw [matchingRows_cons_of_pos hmatch,← Multiset.cons_coe,← Multiset.singleton_add,← add_assoc]
      exact hall.congr (hregistered _)
    · rw [if_neg hmatch] at hstep
      have hone := hgathered.groupId lawful_utf8KeyIndex (fun _ => rfl) groupHolds_new key
      rw [← hstep] at hone
      have hall := ih hcached' hone hrest
      rw [matchingRows_cons_of_neg hmatch]
      exact hall.congr (hregistered _)

end Scan
end Dodam.Execution.Aggregate

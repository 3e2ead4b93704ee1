import Dodam.Execution.Aggregate.GroupIndexRuns
import Dodam.Execution.Aggregate.SimpleCase

/-! # Count and sum groups in the order of their keys

A group gets a position at its first row, and an index keeps the positions of the integer keys.
-/
namespace Dodam.Execution.Aggregate
open Foundation DenseI32GroupIndex Aggregate.CountSumGroup

/-- An index by its two operations. An insert gives none where a computation overflows. -/
structure GroupIndexOps (ι : Type) where
  get : ι → ℤ → Option ℕ
  insert : ι → ℤ → ℕ → Option ι

structure CountSumTable (ι : Type) where
  index : ι
  nullGroup : Option ℕ
  groups : List CountSumGroup

section Rows
variable {ι : Type}

/-- The position of a key, which gets a group of its own when it is new. -/
def countSumGroupId (indexOps : GroupIndexOps ι) (name : ℤ → GroupValue) (sumOutput : CountSumOutputKind)
    (table : CountSumTable ι) (key : ℤ) : Option (ℕ × CountSumTable ι) :=
  match indexOps.get table.index key with
  | some groupId => some (groupId,table)
  | none => (indexOps.insert table.index key table.groups.length).map fun index =>
    (table.groups.length,{ table with
      index := index
      groups := table.groups ++ [.new sumOutput (name key)] })

def countSumNullGroupId (sumOutput : CountSumOutputKind) (table : CountSumTable ι) (key : GroupValue) :
    ℕ × CountSumTable ι :=
  match table.nullGroup with
  | some groupId => (groupId,table)
  | none => (table.groups.length,{ table with
      nullGroup := some table.groups.length
      groups := table.groups ++ [.new sumOutput key] })

def denseI32Ops (limits : SlotLimits) : GroupIndexOps DenseI32GroupIndex :=
  ⟨get,insertI32 limits⟩

def adaptiveOps (tuning : Tuning) : GroupIndexOps AdaptiveCopyGroupIndex :=
  ⟨AdaptiveCopyGroupIndex.get,fun index key groupId => some (index.insert tuning key groupId)⟩

def int64Key (key : ℤ) : GroupValue := .int64 (some key)
def uint64Key (key : ℤ) : GroupValue := .uint64 (some key.toNat)

def countSumGroupIdForI32 (limits : SlotLimits) (sumOutput : CountSumOutputKind) :
    CountSumTable DenseI32GroupIndex → ℤ → Option (ℕ × CountSumTable DenseI32GroupIndex) :=
  countSumGroupId (denseI32Ops limits) int64Key sumOutput

def countSumGroupIdForI64 (tuning : Tuning) (sumOutput : CountSumOutputKind) :
    CountSumTable AdaptiveCopyGroupIndex → ℤ → Option (ℕ × CountSumTable AdaptiveCopyGroupIndex) :=
  countSumGroupId (adaptiveOps tuning) int64Key sumOutput

def countSumGroupIdForU64 (tuning : Tuning) (sumOutput : CountSumOutputKind) :
    CountSumTable AdaptiveCopyGroupIndex → ℤ → Option (ℕ × CountSumTable AdaptiveCopyGroupIndex) :=
  countSumGroupId (adaptiveOps tuning) uint64Key sumOutput

/-- A row, by its key and the value of its sum input. -/
abbrev CountSumRow := Option ℤ × Option Scalar

def CountSumTable.addRow (ops : FloatOps) (groupId : CountSumTable ι → ℤ → Option (ℕ × CountSumTable ι))
    (sumOutput : CountSumOutputKind) (nullKey : GroupValue) (table : CountSumTable ι) (row : CountSumRow) :
    Option (CountSumTable ι) :=
  let found := match row.1 with
    | some key => groupId table key
    | none => some (countSumNullGroupId sumOutput table nullKey)
  found.map fun found => { found.2 with groups := found.2.groups.modify found.1 (·.update ops row.2) }

/-- What happens to the groups of 32-bit keys. -/
inductive I32Step
  | row (row : CountSumRow)
  | ensureDenseRange (min max : ℤ) (maxSlots : ℕ)

def I32Step.InRange : I32Step → Prop
  | .row cells => ∀ key ∈ cells.1, InSigned 32 key
  | .ensureDenseRange min max _ => InSigned 32 min ∧ InSigned 32 max

def I32Step.keys : I32Step → List (Option ℤ)
  | .row cells => [cells.1]
  | .ensureDenseRange _ _ _ => []

def CountSumTable.i32Step (ops : FloatOps) (limits : SlotLimits) (sumOutput : CountSumOutputKind)
    (table : CountSumTable DenseI32GroupIndex) : I32Step → Option (CountSumTable DenseI32GroupIndex)
  | .row row => table.addRow ops (countSumGroupIdForI32 limits sumOutput) sumOutput (.int64 none) row
  | .ensureDenseRange min max maxSlots =>
    (table.index.ensureDenseRangeI32 limits min max maxSlots).map fun result => { table with index := result.2 }

def CountSumTable.i64Row (ops : FloatOps) (tuning : Tuning) (sumOutput : CountSumOutputKind)
    (table : CountSumTable AdaptiveCopyGroupIndex) (row : CountSumRow) : Option (CountSumTable AdaptiveCopyGroupIndex) :=
  table.addRow ops (countSumGroupIdForI64 tuning sumOutput) sumOutput (.int64 none) row

def CountSumTable.u64Row (ops : FloatOps) (tuning : Tuning) (sumOutput : CountSumOutputKind)
    (table : CountSumTable AdaptiveCopyGroupIndex) (row : CountSumRow) : Option (CountSumTable AdaptiveCopyGroupIndex) :=
  table.addRow ops (countSumGroupIdForU64 tuning sumOutput) sumOutput (.uint64 none) row

def takeGroups (groups : List (Option CountSumGroup)) : List ℕ → List CountSumGroup
  | [] => []
  | groupId :: ids =>
    match groups[groupId]?.join with
    | some group => group :: takeGroups (groups.set groupId none) ids
    | none => takeGroups groups ids

def finishOrderedCountSumGroups (entries : List (ℤ × ℕ)) (nullGroup : Option ℕ) (groups : List CountSumGroup)
    (countExpr sumExpr : AggregateExpr) : List GroupAggregateResult :=
  let sorted := entries.insertionSort fun left right => left.1 ≤ right.1
  (takeGroups (groups.map some) (nullGroup.toList ++ sorted.map Prod.snd)).map (finish countExpr sumExpr)

end Rows

/-- Each group is there once: the NULL group first, then one group for each key, in their order. -/
structure FinishedInOrder (name : ℤ → GroupValue) (nullKey : GroupValue) (keys : List (Option ℤ))
    (groups results : List GroupAggregateResult) : Prop where
  perm : results.Perm groups
  order : ∃ sorted : List ℤ, sorted.Pairwise (· < ·) ∧ (∀ key, key ∈ sorted ↔ some key ∈ keys) ∧
    results.map GroupAggregateResult.keys = (if none ∈ keys then [[nullKey]] else []) ++ sorted.map fun key => [name key]

/-- A table finishes its groups in the order of the keys, in whatever order its index gives the entries. -/
def CountSumTable.FinishesInOrder {ι : Type} (table : CountSumTable ι) (name : ℤ → GroupValue) (nullKey : GroupValue)
    (keys : List (Option ℤ)) (found : List (ℤ × ℕ)) : Prop :=
  ∀ entries, entries.Perm found → ∀ countExpr sumExpr,
    FinishedInOrder name nullKey keys (table.groups.map (finish countExpr sumExpr))
      (finishOrderedCountSumGroups entries table.nullGroup table.groups countExpr sumExpr)

section Take

variable {ids : List ℕ}

theorem takeGroups_eq (hnodup : ids.Nodup) (groups : List (Option CountSumGroup)) :
    takeGroups groups ids = ids.filterMap fun groupId => groups[groupId]?.join := by
  induction ids generalizing groups with
  | nil => rfl
  | cons groupId ids ih =>
    rw [List.nodup_cons] at hnodup
    have hrest : (ids.filterMap fun i => (groups.set groupId none)[i]?.join) = ids.filterMap fun i => groups[i]?.join := by
      refine List.filterMap_congr fun i hi => ?_
      rw [List.getElem?_set_ne]
      rintro rfl
      exact hnodup.1 hi
    unfold takeGroups
    cases hgroup : groups[groupId]?.join with
    | some group =>
      rw [List.filterMap_cons_some (f := fun i => groups[i]?.join) hgroup,ih hnodup.2,hrest]
    | none =>
      rw [List.filterMap_cons_none (f := fun i => groups[i]?.join) hgroup]
      exact ih hnodup.2 groups

theorem takeGroups_some (hnodup : ids.Nodup) (groups : List CountSumGroup) :
    takeGroups (groups.map some) ids = ids.filterMap fun groupId => groups[groupId]? := by
  rw [takeGroups_eq hnodup]
  refine List.filterMap_congr fun i _ => ?_
  rw [List.getElem?_map]
  cases groups[i]? <;> rfl

theorem filterMap_range_getElem? {α : Type} (xs : List α) : ((List.range xs.length).filterMap fun i => xs[i]?) = xs := by
  induction xs using List.reverseRecOn with
  | nil => rfl
  | append_singleton xs x ih =>
    rw [List.length_append,List.length_singleton,List.range_succ,List.filterMap_append]
    have hfront : ((List.range xs.length).filterMap fun i => (xs ++ [x])[i]?) = xs := by
      refine (List.filterMap_congr fun i hi => ?_).trans ih
      exact List.getElem?_append_left (List.mem_range.mp hi)
    rw [hfront,List.filterMap_cons_some (f := fun i => (xs ++ [x])[i]?) List.getElem?_concat_length]
    rfl

theorem takeGroups_perm {groups : List CountSumGroup} (h : ids.Perm (List.range groups.length)) :
    (takeGroups (groups.map some) ids).Perm groups := by
  rw [takeGroups_some (h.nodup_iff.mpr List.nodup_range)]
  have hperm := h.filterMap fun i => groups[i]?
  rwa [filterMap_range_getElem?] at hperm

end Take

/-- The names of the groups, and where the index and the NULL group find them. -/
structure Registers (name : ℤ → GroupValue) (nullKey : GroupValue) (keys : List (Option ℤ)) (entries : List (ℤ × ℕ))
    (nullGroup : Option ℕ) (names : List GroupValue) : Prop where
  nodup : (entries.map Prod.fst).Nodup
  mem : ∀ key, key ∈ entries.map Prod.fst ↔ some key ∈ keys
  null : nullGroup.isSome ↔ none ∈ keys
  positions : (nullGroup.toList ++ entries.map Prod.snd).Perm (List.range names.length)
  named : ∀ e ∈ entries, names[e.2]? = some (name e.1)
  nullNamed : ∀ groupId ∈ nullGroup, names[groupId]? = some nullKey

namespace Registers
variable {name : ℤ → GroupValue} {nullKey : GroupValue} {keys : List (Option ℤ)} {entries : List (ℤ × ℕ)}
  {nullGroup : Option ℕ} {names : List GroupValue}

theorem empty : Registers name nullKey [] [] none [] where
  nodup := List.nodup_nil
  mem _ := iff_of_false List.not_mem_nil List.not_mem_nil
  null := iff_of_false Bool.false_ne_true List.not_mem_nil
  positions := .refl _
  named _ he := absurd he List.not_mem_nil
  nullNamed _ h := by cases h

theorem again (h : Registers name nullKey keys entries nullGroup names) {key : Option ℤ} (hkey : key ∈ keys) :
    Registers name nullKey (keys ++ [key]) entries nullGroup names := by
  have hsame : ∀ k, k ∈ keys ++ [key] ↔ k ∈ keys := by
    intro k
    rw [List.mem_append,List.mem_singleton]
    exact or_iff_left_of_imp fun heq => heq ▸ hkey
  exact { h with
    mem := fun k => (h.mem k).trans (hsame _).symm
    null := h.null.trans (hsame _).symm }

theorem getElem?_push {key value : GroupValue} {i : ℕ} (h : names[i]? = some value) :
    (names ++ [key])[i]? = some value := by
  rw [List.getElem?_append_left (List.getElem?_eq_some_iff.mp h).1,h]

theorem pushKey (h : Registers name nullKey keys entries nullGroup names) {key : ℤ} (hnew : key ∉ entries.map Prod.fst) :
    Registers name nullKey (keys ++ [some key]) (entries ++ [(key,names.length)]) nullGroup (names ++ [name key]) where
  nodup := nodup_push h.nodup hnew _
  mem k := by
    rw [List.map_append,List.mem_append,List.mem_append,h.mem]
    simp
  null := by
    rw [h.null]
    simp
  positions := by
    rw [List.map_append,← List.append_assoc,List.length_append,List.length_singleton,List.range_succ]
    exact h.positions.append_right _
  named e he := by
    rcases List.mem_append.mp he with he | he
    · exact getElem?_push (h.named e he)
    · rw [List.mem_singleton.mp he]
      exact List.getElem?_concat_length
  nullNamed groupId hid := getElem?_push (h.nullNamed groupId hid)

theorem pushNull (h : Registers name nullKey keys entries none names) :
    Registers name nullKey (keys ++ [none]) entries (some names.length) (names ++ [nullKey]) where
  nodup := h.nodup
  mem k := by
    rw [h.mem,List.mem_append]
    simp
  null := by simp
  positions := by
    have hpositions := h.positions
    rw [Option.toList_none,List.nil_append] at hpositions
    rw [List.length_append,List.length_singleton,List.range_succ,Option.toList_some]
    exact (List.perm_append_comm).trans (hpositions.append_right _)
  named e he := getElem?_push (h.named e he)
  nullNamed groupId hid := by
    cases hid
    exact List.getElem?_concat_length

theorem perm (h : Registers name nullKey keys entries nullGroup names) {entries' : List (ℤ × ℕ)}
    (hperm : entries'.Perm entries) : Registers name nullKey keys entries' nullGroup names where
  nodup := (hperm.map Prod.fst).nodup_iff.mpr h.nodup
  mem key := (hperm.map Prod.fst).mem_iff.trans (h.mem key)
  null := h.null
  positions := ((hperm.map Prod.snd).append_left _).trans h.positions
  named e he := h.named e (hperm.mem_iff.mp he)
  nullNamed := h.nullNamed

theorem filterMap_positions (h : ∀ e ∈ entries, names[e.2]? = some (name e.1)) :
    ((entries.map Prod.snd).filterMap fun i => names[i]?) = entries.map fun e => name e.1 := by
  rw [List.filterMap_map,← List.filterMap_eq_map']
  exact List.filterMap_congr h

theorem filterMap_null (h : Registers name nullKey keys entries nullGroup names) :
    (nullGroup.toList.filterMap fun i => names[i]?) = if none ∈ keys then [nullKey] else [] := by
  cases nullGroup with
  | none => rw [if_neg fun hmem => Bool.false_ne_true (h.null.mpr hmem)]; rfl
  | some groupId =>
    rw [if_pos (h.null.mp rfl),Option.toList_some,List.filterMap_cons_some (f := fun i => names[i]?) (h.nullNamed _ rfl)]
    rfl

theorem pairwise_sorted (entries : List (ℤ × ℕ)) :
    (entries.insertionSort fun left right => left.1 ≤ right.1).Pairwise fun left right => left.1 ≤ right.1 := by
  have : Std.Total fun left right : ℤ × ℕ => left.1 ≤ right.1 := ⟨fun left right => le_total left.1 right.1⟩
  have : IsTrans (ℤ × ℕ) fun left right => left.1 ≤ right.1 := ⟨fun _ _ _ => le_trans⟩
  exact List.pairwise_insertionSort _ entries

theorem finishedInOrder {groups : List CountSumGroup}
    (h : Registers name nullKey keys entries nullGroup (groups.map key)) (countExpr sumExpr : AggregateExpr) :
    FinishedInOrder name nullKey keys (groups.map (finish countExpr sumExpr))
      (finishOrderedCountSumGroups entries nullGroup groups countExpr sumExpr) := by
  have hsorted := h.perm (List.perm_insertionSort (fun left right => left.1 ≤ right.1) entries)
  have hle := pairwise_sorted entries
  unfold finishOrderedCountSumGroups
  generalize (entries.insertionSort fun left right => left.1 ≤ right.1) = sorted at hsorted hle
  have hids := hsorted.positions
  rw [List.length_map] at hids
  refine ⟨(takeGroups_perm hids).map _,sorted.map Prod.fst,?_,hsorted.mem,?_⟩
  · have hne := List.pairwise_map.mp hsorted.nodup
    exact List.pairwise_map.mpr (hle.imp₂ (fun _ _ => lt_of_le_of_ne) hne)
  · have hnames : (nullGroup.toList ++ sorted.map Prod.snd).filterMap (fun i => (groups.map key)[i]?) =
        (if none ∈ keys then [nullKey] else []) ++ sorted.map fun e => name e.1 := by
      rw [List.filterMap_append,hsorted.filterMap_null,filterMap_positions hsorted.named]
    have hkeys : ((takeGroups (groups.map some) (nullGroup.toList ++ sorted.map Prod.snd)).map key) =
        (nullGroup.toList ++ sorted.map Prod.snd).filterMap fun i => (groups.map key)[i]? := by
      rw [takeGroups_some (hids.nodup_iff.mpr List.nodup_range),List.map_filterMap]
      exact List.filterMap_congr fun i _ => List.getElem?_map.symm
    have hfinish : GroupAggregateResult.keys ∘ finish countExpr sumExpr = (fun key => [key]) ∘ key :=
      rfl
    rw [List.map_map,hfinish,← List.map_map,hkeys,hnames,List.map_append,List.map_map,List.map_map]
    split_ifs <;> rfl

end Registers

section Run
variable {ι : Type} {indexOps : GroupIndexOps ι} {InRange : ℤ → Prop} {Answers : List (ℤ × ℕ) → ι → Prop}
  {name : ℤ → GroupValue} {nullKey : GroupValue} {keys : List (Option ℤ)} {table : CountSumTable ι}

/-- An index answers with its entries, and a new key is one more of them. -/
structure GroupIndexOps.Lawful (indexOps : GroupIndexOps ι) (InRange : ℤ → Prop) (Answers : List (ℤ × ℕ) → ι → Prop) :
    Prop where
  get : ∀ {entries index key}, Answers entries index → InRange key → indexOps.get index key = smallGet entries key
  insert : ∀ {entries index key}, Answers entries index → InRange key → key ∉ entries.map Prod.fst → ∀ groupId,
    ∃ index', indexOps.insert index key groupId = some index' ∧ Answers (entries ++ [(key,groupId)]) index'

structure CountSumTable.Holds (InRange : ℤ → Prop) (Answers : List (ℤ × ℕ) → ι → Prop) (name : ℤ → GroupValue)
    (nullKey : GroupValue) (keys : List (Option ℤ)) (entries : List (ℤ × ℕ)) (table : CountSumTable ι) : Prop where
  answers : Answers entries table.index
  inRange : ∀ e ∈ entries, InRange e.1
  registers : Registers name nullKey keys entries table.nullGroup (table.groups.map key)

theorem countSumGroupId_holds (sumOutput : CountSumOutputKind) (hops : indexOps.Lawful InRange Answers) {entries : List (ℤ × ℕ)}
    (h : table.Holds InRange Answers name nullKey keys entries) {key : ℤ} (hkey : InRange key) :
    ∃ groupId table' entries', countSumGroupId indexOps name sumOutput table key = some (groupId,table') ∧
      table'.Holds InRange Answers name nullKey (keys ++ [some key]) entries' := by
  unfold countSumGroupId
  rw [hops.get h.answers hkey]
  cases hget : smallGet entries key with
  | some groupId =>
    have hmem : key ∈ entries.map Prod.fst :=
      List.mem_map.mpr ⟨_,(mem_iff_smallGet h.registers.nodup).mpr hget,rfl⟩
    exact ⟨groupId,table,entries,rfl,h.answers,h.inRange,h.registers.again ((h.registers.mem key).mp hmem)⟩
  | none =>
    have hnew : key ∉ entries.map Prod.fst := smallGet_eq_none.mp hget
    obtain ⟨index,hinsert,hanswers⟩ := hops.insert h.answers hkey hnew table.groups.length
    refine ⟨_,_,entries ++ [(key,table.groups.length)],congrArg (Option.map _) hinsert,hanswers,fun e he => ?_,?_⟩
    · rcases List.mem_append.mp he with he | he
      · exact h.inRange e he
      · rw [List.mem_singleton.mp he]
        exact hkey
    · have hpush := h.registers.pushKey hnew
      rw [List.length_map] at hpush
      rw [List.map_append]
      exact hpush

theorem countSumNullGroupId_holds (sumOutput : CountSumOutputKind) {entries : List (ℤ × ℕ)}
    (h : table.Holds InRange Answers name nullKey keys entries) :
    (countSumNullGroupId sumOutput table nullKey).2.Holds InRange Answers name nullKey (keys ++ [none]) entries := by
  obtain ⟨index,nullGroup,groups⟩ := table
  cases nullGroup with
  | some groupId => exact ⟨h.answers,h.inRange,h.registers.again (h.registers.null.mp rfl)⟩
  | none =>
    have hpush := h.registers.pushNull
    rw [List.length_map] at hpush
    refine ⟨h.answers,h.inRange,?_⟩
    rw [countSumNullGroupId,List.map_append]
    exact hpush

theorem key_update (ops : FloatOps) (group : CountSumGroup) (value : Option Scalar) :
    (group.update ops value).key = group.key := by
  unfold update
  split <;> rfl

theorem map_key_modify (ops : FloatOps) (groups : List CountSumGroup) (i : ℕ) (value : Option Scalar) :
    (groups.modify i (·.update ops value)).map key = groups.map key := by
  refine List.ext_getElem? fun k => ?_
  rw [List.getElem?_map,List.getElem?_map,List.getElem?_modify]
  cases groups[k]? with
  | none => rfl
  | some group =>
    refine congrArg some ?_
    split_ifs
    · exact key_update ops group value
    · rfl

theorem addRow_holds (ops : FloatOps) (sumOutput : CountSumOutputKind) (hops : indexOps.Lawful InRange Answers) {entries : List (ℤ × ℕ)}
    (h : table.Holds InRange Answers name nullKey keys entries) (row : CountSumRow) (hrow : ∀ key ∈ row.1, InRange key) :
    ∃ table' entries',
      table.addRow ops (countSumGroupId indexOps name sumOutput) sumOutput nullKey row = some table' ∧
        table'.Holds InRange Answers name nullKey (keys ++ [row.1]) entries' := by
  obtain ⟨key,value⟩ := row
  cases key with
  | none =>
    have hnull := countSumNullGroupId_holds sumOutput h
    refine ⟨_,entries,rfl,hnull.answers,hnull.inRange,?_⟩
    rw [map_key_modify]
    exact hnull.registers
  | some key =>
    obtain ⟨groupId,table',entries',hid,hholds⟩ := countSumGroupId_holds sumOutput hops h (hrow key rfl)
    refine ⟨_,entries',congrArg (Option.map _) hid,hholds.answers,hholds.inRange,?_⟩
    rw [map_key_modify]
    exact hholds.registers

theorem foldlM_holds {σ : Type} {step : CountSumTable ι → σ → Option (CountSumTable ι)} {keysOf : σ → List (Option ℤ)}
    {Good : σ → Prop} (hstep : ∀ {table keys entries} s, Good s → table.Holds InRange Answers name nullKey keys entries →
      ∃ table' entries', step table s = some table' ∧
        table'.Holds InRange Answers name nullKey (keys ++ keysOf s) entries')
    (steps : List σ) (hsteps : ∀ s ∈ steps, Good s) {entries : List (ℤ × ℕ)}
    (h : table.Holds InRange Answers name nullKey keys entries) :
    ∃ table' entries', steps.foldlM step table = some table' ∧
      table'.Holds InRange Answers name nullKey (keys ++ steps.flatMap keysOf) entries' := by
  induction steps generalizing table keys entries with
  | nil => exact ⟨table,entries,rfl,by rwa [List.flatMap_nil,List.append_nil]⟩
  | cons s steps ih =>
    obtain ⟨table',entries',hfirst,hholds⟩ := hstep s (hsteps s List.mem_cons_self) h
    obtain ⟨table'',entries'',hrest,hholds'⟩ := ih (fun t ht => hsteps t (List.mem_cons_of_mem _ ht)) hholds
    refine ⟨table'',entries'',?_,?_⟩
    · rw [List.foldlM_cons,hfirst]
      exact hrest
    · rwa [List.append_assoc,← List.flatMap_cons] at hholds'

theorem foldlM_addRow_holds (ops : FloatOps) (sumOutput : CountSumOutputKind) (hops : indexOps.Lawful InRange Answers)
    (rows : List CountSumRow) (hrows : ∀ row ∈ rows, ∀ key ∈ row.1, InRange key) {entries : List (ℤ × ℕ)}
    (h : table.Holds InRange Answers name nullKey keys entries) : ∃ table' entries',
      rows.foldlM (CountSumTable.addRow ops (countSumGroupId indexOps name sumOutput) sumOutput nullKey) table =
        some table' ∧ table'.Holds InRange Answers name nullKey (keys ++ rows.map Prod.fst) entries' := by
  rw [← List.flatMap_pure_eq_map]
  exact foldlM_holds (fun row hrow h => addRow_holds ops sumOutput hops h row hrow) rows hrows h

theorem CountSumTable.Holds.finishesInOrder {entries found : List (ℤ × ℕ)}
    (h : table.Holds InRange Answers name nullKey keys entries) (hfound : found.Perm entries) :
    table.FinishesInOrder name nullKey keys found := fun _ hperm countExpr sumExpr =>
  (h.registers.perm (hperm.trans hfound)).finishedInOrder countExpr sumExpr

end Run

open CountSumTable

section Dense
variable {limits : SlotLimits} (hlimit : limits.denseI32GroupIndexMaxSlots < 2 ^ 31)

def denseAnswers (entries : List (ℤ × ℕ)) (index : DenseI32GroupIndex) : Prop := index.Answers entries

include hlimit in
theorem lawful_denseI32Ops : (denseI32Ops limits).Lawful (InSigned 32) denseAnswers where
  get h hkey := h.get _ hkey
  insert h hkey hnew groupId := h.insertI32 hlimit hkey hnew groupId

include hlimit in
theorem i32Step_holds (ops : FloatOps) (sumOutput : CountSumOutputKind) {table : CountSumTable DenseI32GroupIndex}
    {keys : List (Option ℤ)} {entries : List (ℤ × ℕ)} (step : I32Step) (hstep : step.InRange)
    (h : table.Holds (InSigned 32) denseAnswers int64Key (.int64 none) keys entries) :
    ∃ table' entries', table.i32Step ops limits sumOutput step = some table' ∧
      table'.Holds (InSigned 32) denseAnswers int64Key (.int64 none) (keys ++ step.keys) entries' := by
  cases step with
  | row cells => exact addRow_holds ops sumOutput (lawful_denseI32Ops hlimit) h cells hstep
  | ensureDenseRange low high maxSlots =>
    obtain ⟨answer,index,hrequest,hanswers⟩ := DenseI32GroupIndex.Answers.ensureDenseRangeI32 hlimit h.answers hstep.1 hstep.2 maxSlots
    refine ⟨_,entries,congrArg (Option.map _) hrequest,hanswers,h.inRange,?_⟩
    rw [I32Step.keys,List.append_nil]
    exact h.registers

end Dense

section Adaptive

/-- An index that answers with some entries, whatever the keys. -/
structure AdaptiveAnswers (entries : List (ℤ × ℕ)) (index : AdaptiveCopyGroupIndex) : Prop where
  wf : index.WF
  get : ∀ key, index.get key = smallGet entries key

variable {index : AdaptiveCopyGroupIndex}

theorem AdaptiveAnswers.insert (tuning : Tuning) {entries : List (ℤ × ℕ)}
    (h : AdaptiveAnswers entries index) {key : ℤ} (hnew : key ∉ entries.map Prod.fst) (groupId : ℕ) :
    AdaptiveAnswers (entries ++ [(key,groupId)]) (index.insert tuning key groupId) := by
  have hnone : index.get key = none := (h.get key).trans (smallGet_eq_none.mpr hnew)
  obtain ⟨hwf,hget⟩ := @AdaptiveCopyGroupIndex.insert_spec key index tuning h.wf groupId hnone
  refine ⟨hwf,fun k => ?_⟩
  rw [hget k,h.get k]
  exact (smallGet_push hnew groupId k).symm

theorem AdaptiveAnswers.perm {entries : List (ℤ × ℕ)}
    (h : AdaptiveAnswers entries index) (hnodup : (entries.map Prod.fst).Nodup) : index.iter.Perm entries := by
  refine (List.perm_ext_iff_of_nodup ((AdaptiveCopyGroupIndex.nodup_iter h.wf).of_map _) (hnodup.of_map _)).mpr fun e => ?_
  obtain ⟨key,groupId⟩ := e
  rw [AdaptiveCopyGroupIndex.mem_iter h.wf,mem_iff_smallGet hnodup,h.get]

theorem lawful_adaptiveOps (tuning : Tuning) : (adaptiveOps tuning).Lawful (fun _ => True) AdaptiveAnswers where
  get h _ := h.get _
  insert h _ hnew groupId := ⟨_,rfl,h.insert tuning hnew groupId⟩

def insertEntries (tuning : Tuning) (entries : List (ℤ × ℕ)) : AdaptiveCopyGroupIndex :=
  entries.foldl (fun index e => index.insert tuning e.1 e.2) .default

theorem adaptiveAnswers_insertEntries (tuning : Tuning) {entries : List (ℤ × ℕ)}
    (hnodup : (entries.map Prod.fst).Nodup) : AdaptiveAnswers entries (insertEntries tuning entries) := by
  induction entries using List.reverseRecOn with
  | nil => exact ⟨List.nodup_nil,fun _ => rfl⟩
  | append_singleton entries e ih =>
    rw [List.map_append] at hnodup
    have hnew : e.1 ∉ entries.map Prod.fst := fun hmem =>
      List.disjoint_of_nodup_append hnodup hmem (List.mem_singleton.mpr rfl)
    rw [insertEntries,List.foldl_append]
    exact (ih hnodup.of_append_left).insert tuning hnew e.2

end Adaptive

/-- Every run of calls gives the map of the inserted keys, and every run of rows gives groups that are finished in order. -/
structure GroupIndexesAreMaps (limits : SlotLimits) : Prop where
  dense : ∀ calls, NewKeys calls → ∃ index,
    calls.foldlM (call limits) .default = some index ∧ index.IsMapOf limits (insertedBy calls)
  adaptive : ∀ tuning entries, (entries.map Prod.fst).Nodup →
    (∀ key, (insertEntries tuning entries).get key = smallGet entries key) ∧
      (insertEntries tuning entries).iter.Perm entries
  finishedI32 : ∀ ops sumOutput (steps : List I32Step), (∀ step ∈ steps, step.InRange) →
    ∃ (table : CountSumTable DenseI32GroupIndex) (found : List (ℤ × ℕ)),
    steps.foldlM (i32Step ops limits sumOutput) ⟨.default,none,[]⟩ = some table ∧
      table.index.startIter.Yields found ∧ table.FinishesInOrder int64Key (.int64 none) (steps.flatMap I32Step.keys) found
  finishedI64 : ∀ ops tuning sumOutput (rows : List CountSumRow), ∃ table : CountSumTable AdaptiveCopyGroupIndex,
    rows.foldlM (i64Row ops tuning sumOutput) ⟨.default,none,[]⟩ = some table ∧
      table.FinishesInOrder int64Key (.int64 none) (rows.map Prod.fst) table.index.iter
  finishedU64 : ∀ ops tuning sumOutput (rows : List CountSumRow), ∃ table : CountSumTable AdaptiveCopyGroupIndex,
    rows.foldlM (u64Row ops tuning sumOutput) ⟨.default,none,[]⟩ = some table ∧
      table.FinishesInOrder uint64Key (.uint64 none) (rows.map Prod.fst) table.index.iter

theorem run_isMapOf {limits : SlotLimits} (hlimit : limits.denseI32GroupIndexMaxSlots < 2 ^ 31) {calls : List IndexCall}
    (h : NewKeys calls) : ∃ index, calls.foldlM (call limits) .default = some index ∧
      index.IsMapOf limits (insertedBy calls) := by
  obtain ⟨index,hrun,hanswers⟩ := foldlM_call hlimit h
  exact ⟨index,hrun,hanswers.isMapOf hlimit h.nodup (inserted_inRange h)⟩

theorem i32Steps_finishInOrder {limits : SlotLimits} (hlimit : limits.denseI32GroupIndexMaxSlots < 2 ^ 31) (ops : FloatOps)
    (sumOutput : CountSumOutputKind) (steps : List I32Step) (hsteps : ∀ step ∈ steps, step.InRange) : ∃ table found,
      steps.foldlM (i32Step ops limits sumOutput) ⟨.default,none,[]⟩ = some table ∧
        table.index.startIter.Yields found ∧
          table.FinishesInOrder int64Key (.int64 none) (steps.flatMap I32Step.keys) found := by
  have hstart : (mk default none []).Holds (InSigned 32) denseAnswers int64Key
      (.int64 none) [] [] :=
    ⟨answers_default,fun _ he => absurd he List.not_mem_nil,.empty⟩
  obtain ⟨table,entries,hrun,hholds⟩ := foldlM_holds (i32Step_holds hlimit ops sumOutput) steps hsteps hstart
  have hanswers : table.index.Answers entries := hholds.answers
  exact ⟨table,table.index.iter,hrun,yields_iter hanswers.wf,
    hholds.finishesInOrder (hanswers.perm hholds.registers.nodup hholds.inRange)⟩

theorem adaptiveRows_finishInOrder (ops : FloatOps) (tuning : Tuning) (name : ℤ → GroupValue) (nullKey : GroupValue)
    (sumOutput : CountSumOutputKind) (rows : List CountSumRow) : ∃ table,
      rows.foldlM (addRow ops (countSumGroupId (adaptiveOps tuning) name sumOutput) sumOutput nullKey)
        ⟨.default,none,[]⟩ = some table ∧ table.FinishesInOrder name nullKey (rows.map Prod.fst) table.index.iter := by
  have hstart : (mk AdaptiveCopyGroupIndex.default none []).Holds (fun _ => True) AdaptiveAnswers name
      nullKey [] [] :=
    ⟨⟨List.nodup_nil,fun _ => rfl⟩,fun _ _ => trivial,.empty⟩
  obtain ⟨table,entries,hrun,hholds⟩ :=
    foldlM_addRow_holds ops sumOutput (lawful_adaptiveOps tuning) rows (fun _ _ _ _ => trivial) hstart
  exact ⟨table,hrun,hholds.finishesInOrder (hholds.answers.perm hholds.registers.nodup)⟩

/-- The indexes are maps, and the groups are finished in order, just when the limit of slots is below 2^31. -/
theorem groupIndexesAreMaps_iff (limits : SlotLimits) :
    GroupIndexesAreMaps limits ↔ limits.denseI32GroupIndexMaxSlots < 2 ^ 31 := by
  constructor
  · intro h
    by_contra hlimit
    obtain ⟨index,hrun,-⟩ := h.dense _ newKeys_overflowingRequests
    rw [requests_overflow (not_lt.mp hlimit)] at hrun
    cases hrun
  · intro hlimit
    exact {
      dense := fun calls h => run_isMapOf hlimit h
      adaptive := fun tuning entries hnodup =>
        ⟨(adaptiveAnswers_insertEntries tuning hnodup).get,(adaptiveAnswers_insertEntries tuning hnodup).perm hnodup⟩
      finishedI32 := i32Steps_finishInOrder hlimit
      finishedI64 := fun ops tuning sumOutput => adaptiveRows_finishInOrder ops tuning int64Key _ sumOutput
      finishedU64 := fun ops tuning sumOutput => adaptiveRows_finishInOrder ops tuning uint64Key _ sumOutput }

/-- A key at the upper end, and then a range at the lower end, with 2^32 slots: the position is no 32-bit integer. -/
theorem dense_range_overflows : NewKeys [.insert (2 ^ 31 - 1) 0,.ensureDenseRange (-2 ^ 31) (-2 ^ 31) (2 ^ 32)] ∧
    [IndexCall.insert (2 ^ 31 - 1) 0,.ensureDenseRange (-2 ^ 31) (-2 ^ 31) (2 ^ 32)].foldlM
      (DenseI32GroupIndex.call ⟨8,2 ^ 32⟩) .default = none := by
  constructor
  · refine ⟨fun call hcall => ?_,List.nodup_singleton _⟩
    rcases List.mem_cons.mp hcall with rfl | hcall
    · exact (by decide : InSigned 32 (2 ^ 31 - 1))
    · rw [List.mem_singleton.mp hcall]
      exact ⟨by decide,by decide⟩
  · have hinsert : default.call ⟨8,2 ^ 32⟩ (.insert (2 ^ 31 - 1) 0) = some (.small [(2 ^ 31 - 1,0)]) := rfl
    have hcount : (SlotLimits.mk 8 (2 ^ 32)).denseI32SlotCount (-2 ^ 31) (2 ^ 31 - 1) = some (2 ^ 32) := by
      rw [SlotLimits.denseI32SlotCount,if_pos ⟨by decide,by decide⟩]
      rfl
    have hoffset : denseOffset (-2 ^ 31) (2 ^ 31 - 1) = none := by decide
    have hrequest : (small [(2 ^ 31 - 1,0)]).call ⟨8,2 ^ 32⟩
        (.ensureDenseRange (-2 ^ 31) (-2 ^ 31) (2 ^ 32)) = none := by
      have hmin : min (-2 ^ 31 : ℤ) (2 ^ 31 - 1) = -2 ^ 31 := by decide
      have hmax : max (-2 ^ 31 : ℤ) (2 ^ 31 - 1) = 2 ^ 31 - 1 := by decide
      simp only [call,ensureDenseRangeI32,List.foldl_cons,List.foldl_nil,hmin,hmax,
        hcount,placeEntries,List.foldlM_cons,slotPosition,hoffset]
      rfl
    rw [List.foldlM_cons,hinsert]
    change List.foldlM (call ⟨8,2 ^ 32⟩) (.small [(2 ^ 31 - 1,0)]) _ = _
    rw [List.foldlM_cons,hrequest]
    rfl

end Dodam.Execution.Aggregate

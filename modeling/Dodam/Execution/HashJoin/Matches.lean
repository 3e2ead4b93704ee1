import Dodam.Execution.HashJoin.Probe
import Dodam.Execution.HashJoin.Valid

/-! # The matches of a probe row and the rows they mark

Whatever layout a probe takes, a served key finds the build rows that join the
probe row. A tracker remembers exactly the build rows that some probe row joins.
-/
namespace Dodam.Execution
open Foundation MatchedBuildTracker

section Matches
variable {α : Type} {batches : List (RecordBatch α)} {types : List DataType}

/-- The build rows that join a probe row, with their references. -/
def matchesOf (batches : List (RecordBatch α)) (row : Row α) : List (BuildRowRef × Row α) :=
  (rowRefs batches).filter fun p => Joins row.ownedKey p.2.ownedKey

/-- The references a lookup returns for a probe row. -/
def foundRefs (batches : List (RecordBatch α)) (row : Row α) : List BuildRowRef :=
  (matchesOf batches row).map Prod.fst

theorem map_snd_matchesOf (batches : List (RecordBatch α)) (row : Row α) :
    (↑((matchesOf batches row).map Prod.snd) : Multiset (Row α)) =
      matching Row.ownedKey Row.ownedKey (allRows batches) row := by
  unfold matching allRows matchesOf
  rw [Multiset.filter_coe,← map_snd_rowRefs,List.filter_map]
  rfl

theorem matchesOf_eq_nil_iff (batches : List (RecordBatch α)) (row : Row α) :
    matchesOf batches row = [] ↔ Unmatched Row.ownedKey Row.ownedKey (allRows batches) row := by
  rw [unmatched_iff_matching,← map_snd_matchesOf,Multiset.coe_eq_zero,List.map_eq_nil_iff]

theorem foundRefs_eq_nil_iff (batches : List (RecordBatch α)) (row : Row α) :
    foundRefs batches row = [] ↔ Unmatched Row.ownedKey Row.ownedKey (allRows batches) row := by
  rw [foundRefs,List.map_eq_nil_iff,matchesOf_eq_nil_iff]

variable {row : Row α}

theorem mem_foundRefs {p : BuildRowRef × Row α} (hp : p ∈ rowRefs batches) :
    p.1 ∈ foundRefs batches row ↔ Joins row.ownedKey p.2.ownedKey := by
  unfold foundRefs matchesOf
  rw [List.mem_map]
  constructor
  · rintro ⟨q,hq,he⟩
    obtain ⟨hq,hj⟩ := List.mem_filter.mp hq
    have hq' : (p.1,q.2) ∈ rowRefs batches := he ▸ hq
    rw [← rowRefs_functional hq' hp]
    simpa using hj
  · intro hj
    exact ⟨p,List.mem_filter.mpr ⟨hp,by simpa using hj⟩,rfl⟩

theorem ownedKey_eq_of_types {κ : Type} (layout : KeyLayout κ) (hl : types = layout.types)
    (hrow : cellsMatch row.key types = true) :
    row.ownedKey = (layout.read row.key).map layout.embed :=
  layout.ownedKey_eq row.key (hl ▸ hrow)

theorem joins_iff_read {κ : Type} (layout : KeyLayout κ) (hl : types = layout.types) {b : Row α}
    (hrow : cellsMatch row.key types = true) (hb : cellsMatch b.key types = true) {k : κ}
    (hk : layout.read row.key = some k) :
    Joins row.ownedKey b.ownedKey ↔ layout.read b.key = some k := by
  rw [ownedKey_eq_of_types layout hl hrow,ownedKey_eq_of_types layout hl hb,hk,Option.map_some,
    joins_some_left,Option.map_eq_some_iff]
  constructor
  · rintro ⟨k',hk',he⟩
    rw [hk',layout.embed_injective he]
  · intro hb
    exact ⟨k,hb,rfl⟩

theorem Serves.find_eq {κ : Type} [DecidableEq κ] {layout : KeyLayout κ}
    {find : κ → Option (List BuildRowRef)} (h : Serves layout types (rowRefs batches) find)
    (ht : Typed types batches) (hrow : cellsMatch row.key types = true) :
    (layout.read row.key).bind find = nonEmpty (foundRefs batches row) := by
  unfold foundRefs matchesOf
  cases hr : layout.read row.key with
  | none =>
    rw [ownedKey_eq_of_types layout h.types_eq hrow,hr]
    simp
  | some k =>
    rw [Option.bind_some,h.answers k,refsOf]
    congr 2
    apply List.filter_congr
    intro p hp
    rw [decide_eq_decide,joins_iff_read layout h.types_eq hrow (ht.cellsMatch hp) hr]

theorem ServesSet.contains_eq {contains : Int32 → Bool}
    (h : ServesSet types (rowRefs batches) contains) (ht : Typed types batches)
    (hrow : cellsMatch row.key types = true) :
    ((int32Layout.read row.key).any contains = true) ↔ foundRefs batches row ≠ [] := by
  have hserves : Serves int32Layout types (rowRefs batches) fun k =>
      nonEmpty (refsOf int32Layout.read (rowRefs batches) k) := ⟨h.types_eq,fun k => rfl⟩
  have hfind := hserves.find_eq ht hrow
  rw [Ne,← nonEmpty_eq_none,← hfind]
  cases hr : int32Layout.read row.key with
  | none => simp
  | some k =>
    rw [Option.any_some,h.contains_iff,Option.bind_some,nonEmpty_eq_none]

end Matches

section Tracker
variable {α : Type} {batches : List (RecordBatch α)} {types : List DataType}

/-- The tracker of a build after some probe rows: it has marked exactly the build rows that one
of them joins. -/
def Tracks (batches : List (RecordBatch α)) (dense : Option DenseI32BuildRows)
    (probed : Multiset (Row α)) (tracker : MatchedBuildTracker) : Prop :=
  match dense,tracker with
  | none,.set rows => ∀ p ∈ rowRefs batches,
      p.1 ∈ rows ↔ ¬ Unmatched Row.ownedKey Row.ownedKey probed p.2
  | some d,.denseI32 min isMatched matchedCount =>
      min = d.min ∧ isMatched.length = d.slots.len ∧ matchedCount = isMatched.count true ∧
      ∀ p ∈ rowRefs batches, ∀ k, int32Layout.read p.2.key = some k →
        (isMatched[(k.toInt - d.min).toNat]? = some true ↔
          ¬ Unmatched Row.ownedKey Row.ownedKey probed p.2)
  | _,_ => False

theorem tracks_emptySet : Tracks batches none 0 emptySet := by
  intro p _
  simp

theorem tracks_forBuild (build : HashJoinBuild α) :
    Tracks batches build.i32DenseUniqueRows 0 (forBuild build) := by
  unfold forBuild
  cases build.i32DenseUniqueRows with
  | none => exact tracks_emptySet
  | some d =>
    refine ⟨rfl,List.length_replicate,?_,?_⟩
    · simp [List.count_replicate]
    · intro p _ k _
      simp [List.getElem?_replicate]

theorem unmatched_snoc (probed : Multiset (Row α)) (row b : Row α) :
    ¬ Unmatched Row.ownedKey Row.ownedKey (probed + {row}) b ↔
      ¬ Unmatched Row.ownedKey Row.ownedKey probed b ∨ Joins row.ownedKey b.ownedKey := by
  rw [unmatched_add,not_and_or]
  refine or_congr_right ?_
  simp only [Unmatched,Multiset.mem_singleton,forall_eq,not_not]
  exact joins_comm

variable {probed : Multiset (Row α)} {tracker : MatchedBuildTracker} {row : Row α}

theorem Tracks.skip {dense : Option DenseI32BuildRows} (h : Tracks batches dense probed tracker)
    (hrow : foundRefs batches row = []) : Tracks batches dense (probed + {row}) tracker := by
  have hnone : ∀ p ∈ rowRefs batches, (¬ Unmatched Row.ownedKey Row.ownedKey (probed + {row}) p.2 ↔
      ¬ Unmatched Row.ownedKey Row.ownedKey probed p.2) := by
    intro p hp
    rw [unmatched_snoc,← mem_foundRefs hp,hrow]
    simp
  cases dense with
  | none =>
    cases tracker with
    | set rows =>
      intro p hp
      rw [hnone p hp]
      exact h p hp
    | denseI32 => exact h
  | some d =>
    cases tracker with
    | set rows => exact h
    | denseI32 min isMatched matchedCount =>
      refine ⟨h.1,h.2.1,h.2.2.1,fun p hp k hk => ?_⟩
      rw [hnone p hp]
      exact h.2.2.2 p hp k hk

theorem Tracks.markRefs (h : Tracks batches none probed tracker) (row : Row α) :
    Tracks batches none (probed + {row}) (tracker.markRefs (foundRefs batches row)) := by
  cases tracker with
  | denseI32 => exact h
  | set rows =>
    intro p hp
    rw [unmatched_snoc,← h p hp,← mem_foundRefs hp,Finset.mem_union,List.mem_toFinset]

theorem Tracks.markRef (h : Tracks batches none probed tracker) {r : BuildRowRef}
    (hr : foundRefs batches row = [r]) :
    Tracks batches none (probed + {row}) (tracker.markRef r) := by
  cases tracker with
  | denseI32 => exact h
  | set rows =>
    have hm := Tracks.markRefs h row
    rw [hr] at hm
    intro p hp
    rw [← hm p hp,Finset.mem_insert,Finset.mem_union,List.mem_toFinset,List.mem_singleton]
    exact or_comm

theorem count_set_true {l : List Bool} {i : ℕ} (h : l[i]? = some false) :
    (l.set i true).count true = l.count true + 1 := by
  obtain ⟨hlt,hget⟩ := List.getElem?_eq_some_iff.mp h
  rw [List.count_set hlt,hget]
  simp

theorem Tracks.markI32Key {d : DenseI32BuildRows} (hd : DenseUnique types (rowRefs batches) d)
    (h : Tracks batches (some d) probed tracker) (ht : Typed types batches)
    (hrow : cellsMatch row.key types = true) {k : Int32} (hk : int32Layout.read row.key = some k)
    (hfound : foundRefs batches row ≠ []) :
    Tracks batches (some d) (probed + {row}) (tracker.markI32Key k) := by
  cases tracker with
  | set rows => exact h
  | denseI32 min isMatched matchedCount =>
    obtain ⟨rfl,hlen,hcount,hmarks⟩ := h
    have hjoins : ∀ p ∈ rowRefs batches,
        (Joins row.ownedKey p.2.ownedKey ↔ int32Layout.read p.2.key = some k) := fun p hp =>
      joins_iff_read int32Layout hd.serves.types_eq hrow (ht.cellsMatch hp) hk
    -- the row found sits in the slot of the key
    obtain ⟨r,hr⟩ := List.exists_mem_of_ne_nil _ hfound
    obtain ⟨p,hp,rfl⟩ := List.mem_map.mp hr
    obtain ⟨hp,hj⟩ := List.mem_filter.mp hp
    have hread := (hjoins p hp).mp (by simpa using hj)
    obtain ⟨hle,hlt⟩ := hd.inside p hp k hread
    have hlenle := hd.len_le
    have hi : (k.toInt - d.min).toNat < isMatched.length := by omega
    have hindex : asUnsigned 64 (k.toInt - d.min) = (k.toInt - d.min).toNat :=
      asUnsigned_of_nonneg (by omega) (by omega)
    -- whatever was there, the slot of the key is marked afterwards and no other one changes
    obtain ⟨marks,count,htracker,hlen',hcount',hget⟩ : ∃ marks count,
        (denseI32 d.min isMatched matchedCount).markI32Key k =
          .denseI32 d.min marks count ∧ marks.length = isMatched.length ∧
        count = marks.count true ∧ ∀ i, marks[i]? =
          if i = (k.toInt - d.min).toNat then some true else isMatched[i]? := by
      have hin : InSigned 32 (k.toInt - d.min) := ⟨by omega,by omega⟩
      simp only [markI32Key,checkedSigned_of_mem hin,hindex]
      split
      · next hf =>
        refine ⟨_,_,rfl,List.length_set,by rw [count_set_true hf,hcount],fun i => ?_⟩
        rw [List.getElem?_set]
        by_cases he : (k.toInt - d.min).toNat = i
        · rw [if_pos he,if_pos (by omega),if_pos he.symm]
        · rw [if_neg he,if_neg (Ne.symm he)]
      · next hf =>
        refine ⟨_,_,rfl,rfl,hcount,fun i => ?_⟩
        split
        · next he =>
          rw [he,List.getElem?_eq_getElem hi]
          rw [List.getElem?_eq_getElem hi] at hf
          simpa using hf
        · rfl
    rw [htracker]
    refine ⟨rfl,by rw [hlen',hlen],hcount',?_⟩
    intro q hq k' hk'
    have hle' := (hd.inside q hq k' hk').1
    rw [hget,unmatched_snoc,← hmarks q hq k' hk',hjoins q hq,hk']
    split
    · next he =>
      have hkk : k' = k := int32_toInt_injective (by omega)
      simp [hkk]
    · next he =>
      have hkk : k' ≠ k := fun h => he (by rw [h])
      simp [hkk]

end Tracker
end Dodam.Execution

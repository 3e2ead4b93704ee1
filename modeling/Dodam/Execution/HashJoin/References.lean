import Dodam.Execution.HashJoin.Dense

/-! # Row references and what a layout answers

`rowRefs` lists the rows of a build input in the order in which every build loop visits them.
-/
namespace Dodam.Execution
open Foundation

section References
variable {α : Type}

/-- Every row of the input with its reference. -/
def rowRefs (batches : List (RecordBatch α)) : List (BuildRowRef × Row α) :=
  batches.zipIdx.flatMap fun batch => batch.1.rows.zipIdx.map fun row => (⟨batch.2,row.2⟩,row.1)

theorem forEachRow_eq {σ : Type} (f : σ → BuildRowRef → Row α → Result σ) (state : σ)
    (batches : List (RecordBatch α)) :
    forEachRow f state batches =
      (rowRefs batches).foldlM (fun state p => f state p.1 p.2) state := by
  rw [rowRefs,foldlM_flatMap]
  unfold forEachRow
  congr 1
  funext state batch
  rw [List.foldlM_map]

variable {batches : List (RecordBatch α)} {p : BuildRowRef × Row α}

theorem mem_rowRefs {rowRef : BuildRowRef} {row : Row α} : (rowRef,row) ∈ rowRefs batches ↔
      ∃ batch, batches[rowRef.batch]? = some batch ∧ batch.rows[rowRef.row]? = some row := by
  rw [rowRefs,List.mem_flatMap]
  constructor
  · rintro ⟨⟨batch,i⟩,hb,hm⟩
    obtain ⟨⟨r,j⟩,hr,he⟩ := List.mem_map.mp hm
    cases he
    exact ⟨batch,List.mem_zipIdx_iff_getElem?.mp hb,List.mem_zipIdx_iff_getElem?.mp hr⟩
  · rintro ⟨batch,hb,hr⟩
    exact ⟨(batch,rowRef.batch),List.mem_zipIdx_iff_getElem?.mpr hb,
      List.mem_map.mpr ⟨(row,rowRef.row),List.mem_zipIdx_iff_getElem?.mpr hr,rfl⟩⟩

theorem map_snd_rowRefs_from (batches : List (RecordBatch α)) (n : ℕ) :
    (((batches.zipIdx n).flatMap fun batch =>
      batch.1.rows.zipIdx.map fun row => ((⟨batch.2,row.2⟩ : BuildRowRef),row.1)).map Prod.snd) =
      batches.flatMap RecordBatch.rows := by
  induction batches generalizing n with
  | nil => rfl
  | cons batch batches ih =>
    rw [List.zipIdx_cons,List.flatMap_cons,List.map_append,ih,List.flatMap_cons,List.map_map]
    congr 1
    exact List.zipIdx_map_fst 0 batch.rows

theorem map_snd_rowRefs (batches : List (RecordBatch α)) :
    (rowRefs batches).map Prod.snd = batches.flatMap RecordBatch.rows :=
  map_snd_rowRefs_from batches 0

theorem rowRefs_functional {rowRef : BuildRowRef} {row row' : Row α}
    (h : (rowRef,row) ∈ rowRefs batches) (h' : (rowRef,row') ∈ rowRefs batches) : row = row' := by
  obtain ⟨batch,hb,hr⟩ := mem_rowRefs.mp h
  obtain ⟨batch',hb',hr'⟩ := mem_rowRefs.mp h'
  rw [hb] at hb'
  cases hb'
  rw [hr] at hr'
  exact Option.some.inj hr'

theorem nodup_fst_rowRefs (batches : List (RecordBatch α)) :
    ((rowRefs batches).map Prod.fst).Nodup := by
  unfold rowRefs
  rw [List.map_flatMap,List.nodup_flatMap]
  constructor
  · rintro ⟨batch,i⟩ _
    rw [List.map_map]
    have hidx : (batch.rows.zipIdx.map Prod.snd).Nodup := by
      rw [List.zipIdx_map_snd]
      exact List.nodup_range'
    have hmk : Function.Injective fun row => (⟨i,row⟩ : BuildRowRef) := fun a b h => by
      simpa using h
    have h := hidx.map hmk
    rw [List.map_map] at h
    exact h
  · have hidx : (batches.zipIdx.map Prod.snd).Nodup := by
      rw [List.zipIdx_map_snd]
      exact List.nodup_range'
    refine (List.pairwise_map.mp hidx).imp ?_
    rintro ⟨batch,i⟩ ⟨batch',j⟩ hij r hr hr'
    obtain ⟨p,hp,rfl⟩ := List.mem_map.mp hr
    obtain ⟨q,-,rfl⟩ := List.mem_map.mp hp
    obtain ⟨p',hp',he⟩ := List.mem_map.mp hr'
    obtain ⟨q',-,rfl⟩ := List.mem_map.mp hp'
    simp only [BuildRowRef.mk.injEq] at he
    exact hij he.1.symm

def Typed (types : List DataType) (batches : List (RecordBatch α)) : Prop :=
  ∀ batch ∈ batches, batch.keyTypes = types

/-- Every row index fits the 32 bits of a reference. -/
def Addressable (batches : List (RecordBatch α)) : Prop := ∀ batch ∈ batches, batch.numRows ≤ 2 ^ 32

theorem Typed.cellsMatch {types : List DataType}
    (h : Typed types batches) (hp : p ∈ rowRefs batches) : cellsMatch p.2.key types = true := by
  obtain ⟨batch,hb,hr⟩ := mem_rowRefs.mp hp
  rw [← h batch (List.mem_of_getElem? hb)]
  exact batch.typed p.2 (List.mem_of_getElem? hr)

theorem Addressable.row_lt (h : Addressable batches) (hp : p ∈ rowRefs batches) : p.1.row < 2 ^ 32 := by
  obtain ⟨batch,hb,hr⟩ := mem_rowRefs.mp hp
  have hlt := (List.getElem?_eq_some_iff.mp hr).1
  have := h batch (List.mem_of_getElem? hb)
  unfold RecordBatch.numRows at this
  omega

theorem exists_of_not_addressable (h : ¬ Addressable batches) :
    ∃ p ∈ rowRefs batches, 2 ^ 32 ≤ p.1.row := by
  unfold Addressable at h
  push Not at h
  obtain ⟨batch,hb,hlt⟩ := h
  obtain ⟨i,hi⟩ := List.mem_iff_getElem?.mp hb
  refine ⟨(⟨i,2 ^ 32⟩,batch.rows.get ⟨2 ^ 32,hlt⟩),mem_rowRefs.mpr ⟨batch,hi,?_⟩,le_refl _⟩
  exact List.getElem?_eq_getElem hlt

end References

section Answers
variable {α κ : Type} [DecidableEq κ]

/-- The references of the rows whose key reads as `k`. -/
def refsOf (read : List (Option KeyValue) → Option κ) (seen : List (BuildRowRef × Row α)) (k : κ) :
    List BuildRowRef :=
  (seen.filter fun p => read p.2.key = some k).map Prod.fst

/-- A list of matches as a lookup returns it. -/
def nonEmpty {β : Type} (l : List β) : Option (List β) := if l.isEmpty then none else some l

def Answers (read : List (Option KeyValue) → Option κ) (seen : List (BuildRowRef × Row α))
    (find : κ → Option (List BuildRowRef)) : Prop :=
  ∀ k, find k = nonEmpty (refsOf read seen k)

variable (read : List (Option KeyValue) → Option κ)

variable {β : Type} {seen : List (BuildRowRef × Row α)} {p : BuildRowRef × Row α} {k key : κ}
variable {rowRef : BuildRowRef} {unique : Option (Map κ BuildRowRef)}
variable {multi : Option (Map κ (List BuildRowRef))}

@[simp] theorem nonEmpty_nil : nonEmpty ([] : List β) = none := rfl
@[simp] theorem nonEmpty_append_singleton (l : List β) (b : β) :
    nonEmpty (l ++ [b]) = some (l ++ [b]) := by
  cases l <;> rfl
theorem nonEmpty_eq_none {l : List β} : nonEmpty l = none ↔ l = [] := by
  cases l <;> simp [nonEmpty]
theorem nonEmpty_eq_some {l r : List β} : nonEmpty l = some r ↔ l = r ∧ l ≠ [] := by
  cases l <;> simp [nonEmpty]
theorem getD_nonEmpty (l : List β) : (nonEmpty l).getD [] = l := by
  cases l <;> rfl

@[simp] theorem refsOf_nil (k : κ) : refsOf read ([] : List (BuildRowRef × Row α)) k = [] := rfl
theorem refsOf_append (seen seen' : List (BuildRowRef × Row α)) (k : κ) :
    refsOf read (seen ++ seen') k = refsOf read seen k ++ refsOf read seen' k := by
  simp [refsOf]
theorem refsOf_snoc_of_eq
    (h : read p.2.key = some k) : refsOf read (seen ++ [p]) k = refsOf read seen k ++ [p.1] := by
  rw [refsOf_append]
  simp [refsOf,h]
theorem refsOf_snoc_of_ne
    (h : read p.2.key ≠ some k) : refsOf read (seen ++ [p]) k = refsOf read seen k := by
  rw [refsOf_append]
  simp [refsOf,h]
theorem mem_refsOf :
    rowRef ∈ refsOf read seen k ↔ ∃ row, (rowRef,row) ∈ seen ∧ read row.key = some k := by
  simp [refsOf]
theorem refsOf_ne_nil : refsOf read seen k ≠ [] ↔ ∃ p ∈ seen, read p.2.key = some k := by
  simp [refsOf,List.filter_eq_nil_iff]

/-- The maps of one layout answer for the rows seen. Once there is a map of lists there is no
map of single references left. -/
def MapsAnswer (seen : List (BuildRowRef × Row α)) (unique : Option (Map κ BuildRowRef))
    (multi : Option (Map κ (List BuildRowRef))) : Prop :=
  (∀ m, multi = some m → unique = none ∧ Answers read seen m.lookup) ∧
    ∀ u, unique = some u → Answers read seen fun k => (u.lookup k).map fun r => [r]

theorem mapsAnswer_none (seen : List (BuildRowRef × Row α)) : MapsAnswer read seen none none := by
  constructor
  · intro m h
    cases h
  · intro u h
    cases h

theorem mapsAnswer_init_unique :
    MapsAnswer read ([] : List (BuildRowRef × Row α)) (some ∅) none := by
  constructor
  · intro m h
    cases h
  · rintro u ⟨⟩ k
    rfl

theorem mapsAnswer_init_multi :
    MapsAnswer read ([] : List (BuildRowRef × Row α)) none (some ∅) := by
  constructor
  · rintro m ⟨⟩
    exact ⟨rfl,fun k => rfl⟩
  · intro u h
    cases h

theorem Answers.of_refsOf_eq {seen' : List (BuildRowRef × Row α)}
    {find : κ → Option (List BuildRowRef)} (h : Answers read seen find)
    (he : ∀ k, refsOf read seen' k = refsOf read seen k) : Answers read seen' find :=
  fun k => by rw [he,h k]

theorem MapsAnswer.skip (h : MapsAnswer read seen unique multi) (hp : read p.2.key = none) :
    MapsAnswer read (seen ++ [p]) unique multi := by
  have he : ∀ k, refsOf read (seen ++ [p]) k = refsOf read seen k := fun k =>
    refsOf_snoc_of_ne read (by rw [hp]; simp)
  exact ⟨fun m hm => ⟨(h.1 m hm).1,(h.1 m hm).2.of_refsOf_eq read he⟩,
    fun u hu => (h.2 u hu).of_refsOf_eq read he⟩

theorem Answers.pushEntry {m : Map κ (List BuildRowRef)} (h : Answers read seen m.lookup)
    (hp : read p.2.key = some key) : Answers read (seen ++ [p]) (Map.pushEntry m key p.1).lookup := by
  intro k
  change (Map.pushEntry m key p.1).lookup k = _
  have hkey : m.lookup key = nonEmpty (refsOf read seen key) := h key
  have hk' : m.lookup k = nonEmpty (refsOf read seen k) := h k
  rw [Map.lookup_pushEntry]
  split
  · next hk =>
    rw [hk,hkey,getD_nonEmpty,refsOf_snoc_of_eq read hp,nonEmpty_append_singleton]
  · next hk =>
    rw [hk',refsOf_snoc_of_ne read (by rw [hp]; simpa using Ne.symm hk)]

theorem MapsAnswer.insertBuildRef (h : MapsAnswer read seen unique multi)
    (hp : read p.2.key = some key) :
    MapsAnswer read (seen ++ [p]) (insertBuildRef key p.1 unique multi).1
      (insertBuildRef key p.1 unique multi).2 := by
  have hne : ∀ k, k ≠ key → read p.2.key ≠ some k := fun k hk => by
    rw [hp]
    simpa using Ne.symm hk
  cases multi with
  | some m =>
    obtain ⟨rfl,hm⟩ := h.1 m rfl
    constructor
    · rintro m' ⟨⟩
      exact ⟨rfl,hm.pushEntry read hp⟩
    · intro u hu
      cases hu
  | none =>
    cases unique with
    | none => exact mapsAnswer_none read _
    | some u =>
      have hu : ∀ k, (u.lookup k).map (fun r => [r]) = nonEmpty (refsOf read seen k) := h.2 u rfl
      have hkey := hu key
      cases hl : u.lookup key with
      | none =>
        rw [hl,Option.map_none,eq_comm,nonEmpty_eq_none] at hkey
        have hi : Execution.insertBuildRef key p.1 (some u) none = (some (u.insert key p.1),none) := by
          simp only [Execution.insertBuildRef,hl]
        rw [hi]
        constructor
        · intro m hm
          cases hm
        · rintro u' ⟨⟩ k
          change ((u.insert key p.1).lookup k).map (fun r => [r]) = _
          by_cases hk : k = key
          · rw [hk,AList.lookup_insert,refsOf_snoc_of_eq read hp,hkey]
            rfl
          · rw [AList.lookup_insert_ne hk,hu k,refsOf_snoc_of_ne read (hne k hk)]
      | some previous =>
        rw [hl,Option.map_some,eq_comm,nonEmpty_eq_some] at hkey
        have hi : Execution.insertBuildRef key p.1 (some u) none =
            (none,some ((Map.singletons (u.insert key p.1)).insert key
              (previous :: ((Map.singletons (u.insert key p.1)).lookup key).getD []))) := by
          simp only [Execution.insertBuildRef,hl]
        rw [hi]
        constructor
        · rintro m ⟨⟩
          refine ⟨rfl,fun k => ?_⟩
          change (AList.insert key _ _).lookup k = _
          by_cases hk : k = key
          · rw [hk,AList.lookup_insert,Map.lookup_singletons,AList.lookup_insert,
              refsOf_snoc_of_eq read hp,hkey.1]
            rfl
          · rw [AList.lookup_insert_ne hk,Map.lookup_singletons,AList.lookup_insert_ne hk,hu k,
              refsOf_snoc_of_ne read (hne k hk)]
        · intro u' hu'
          cases hu'

theorem insertBuildRef_isSome : ((insertBuildRef key rowRef unique multi).1.isSome ∨
      (insertBuildRef key rowRef unique multi).2.isSome) ↔ (unique.isSome ∨ multi.isSome) := by
  unfold insertBuildRef
  cases multi with
  | some m => simp
  | none =>
    cases unique with
    | none => simp
    | some u => cases hl : u.lookup key <;> simp [hl]

theorem insertBuildRef_unique_none : (insertBuildRef key rowRef none multi).1 = none := by
  cases multi <;> rfl

end Answers
end Dodam.Execution

import Dodam.Execution.HashJoin.BuildRelation
import Dodam.Foundation.MergeJoin
import Mathlib.Order.Fin.Basic

/-! # The sort-merge join

Each side is joined to one batch and sorted by its key column, NULLs last; two cursors walk the
sides and give the row indices of all pairs in a run of equal keys. The format and the sort
kernel are parameters: the format tells keys of one type apart, and the kernel gives a
permutation that is sorted by it.
-/
namespace Dodam.Execution
open Foundation

/-- A key in the row format, compared byte by byte. -/
abbrev RowBytes := List (Fin 256)

def mergeRowsMessage : String := "sort-merge join currently supports up to u32::MAX rows per side"

section Model
variable {α : Type} (encodeRow : OwnedRow → RowBytes) (lexsortToIndices : List (List (Option KeyValue)) → List ℕ)

/-- `concat_batches` on the schema of the first batch. -/
def concatBatches : List (RecordBatch α) → Result (List DataType × List (Row α))
  | [] => .error .panicked
  | first :: rest =>
    if ∀ batch ∈ rest, batch.keyTypes = first.keyTypes then .ok (first.keyTypes,(first :: rest).flatMap RecordBatch.rows)
    else .error (.err .arrow)

def takeRows (rows : List (Row α)) (indices : List ℕ) : Result (List (Row α)) :=
  indices.mapM fun index =>
    match rows[index]? with
    | none => .error .panicked
    | some row => .ok row

/-- `sort_single_batch_by_column`: ascending, NULLs last. -/
def sortSingleBatchByColumn (rows : List (Row α)) : Result (List (Row α)) :=
  takeRows rows (lexsortToIndices (rows.map Row.key))

def encodedKey (row : Row α) : Option RowBytes := row.ownedKey.map encodeRow

def runPairs (leftStart leftRows rightStart rightRows : ℕ) : Result (List (ℕ × ℕ)) := do
  let pairs ← (List.range' leftStart leftRows).mapM fun leftIndex => do
    let leftIndex ← u32TryFrom leftIndex mergeRowsMessage
    (List.range' rightStart rightRows).mapM fun rightIndex => do
      let rightIndex ← u32TryFrom rightIndex mergeRowsMessage
      return (leftIndex,rightIndex)
  return pairs.flatten

/-- The two cursors: the rows from `leftRow` and from `rightRow` on are left to join. -/
def mergeLoop : List (Row α) → List (Row α) → ℕ → ℕ → Result (List (ℕ × ℕ))
  | a :: left,b :: right,leftRow,rightRow =>
    match encodedKey encodeRow a,encodedKey encodeRow b with
    | none,_ => mergeLoop left (b :: right) (leftRow + 1) rightRow
    | some _,none => mergeLoop (a :: left) right leftRow (rightRow + 1)
    | some leftKey,some rightKey =>
      if leftKey < rightKey then mergeLoop left (b :: right) (leftRow + 1) rightRow
      else if rightKey < leftKey then mergeLoop (a :: left) right leftRow (rightRow + 1)
      else do
        let leftRun := a :: left.takeWhile fun row => encodedKey encodeRow row = some leftKey
        let rightRun := b :: right.takeWhile fun row => encodedKey encodeRow row = some leftKey
        let pairs ← runPairs leftRow leftRun.length rightRow rightRun.length
        let rest ← mergeLoop (left.dropWhile fun row => encodedKey encodeRow row = some leftKey)
          (right.dropWhile fun row => encodedKey encodeRow row = some leftKey) (leftRow + leftRun.length)
          (rightRow + rightRun.length)
        return pairs ++ rest
  | _,_,_,_ => .ok []
termination_by left right => left.length + right.length
decreasing_by
  · simp only [List.length_cons]; omega
  · simp only [List.length_cons]; omega
  · simp only [List.length_cons]; omega
  · simp only [List.length_cons]; omega
  · have hleft := (List.dropWhile_sublist (l := left) fun row => decide (encodedKey encodeRow row = some leftKey)).length_le
    have hright := (List.dropWhile_sublist (l := right) fun row => decide (encodedKey encodeRow row = some leftKey)).length_le
    simp only [List.length_cons]
    omega

def keyTypeName (types : List DataType) : String := ", ".intercalate (types.map DataType.debug)

/-- `sort_merge_join_batches`. -/
def sortMergeJoinBatches (leftKey rightKey : String) (leftBatches rightBatches : List (RecordBatch α)) :
    Result (OutputBatch α) := do
  let (leftTypes,left) ← concatBatches leftBatches
  let (rightTypes,right) ← concatBatches rightBatches
  let left ← sortSingleBatchByColumn lexsortToIndices left
  let right ← sortSingleBatchByColumn lexsortToIndices right
  if leftTypes ≠ rightTypes then
    unsupportedSql s!"JOIN key types must match: {leftKey} is {keyTypeName leftTypes}, {rightKey} is {keyTypeName rightTypes}"
  else
    let pairs ← mergeLoop encodeRow left right 0 0
    let leftTaken ← takeRows left (pairs.map Prod.fst)
    let rightTaken ← takeRows right (pairs.map Prod.snd)
    return (leftTaken.zip rightTaken).map fun pair => (some pair.1,some pair.2)

end Model

section Rows
variable {α : Type} {rows : List (Row α)} {leftStart leftRows rightStart rightRows : ℕ}

theorem takeRow_eq_ok {index : ℕ} {row : Row α} : (match rows[index]? with
      | none => .error .panicked
      | some row => .ok row : Result (Row α)) = .ok row ↔ some row = rows[index]? := by
  cases rows[index]? with
  | none => exact iff_of_false nofun nofun
  | some row' => simp [eq_comm]

theorem takeRows_eq_ok {out : List (Row α)} {indices : List ℕ} :
    takeRows rows indices = .ok out ↔ out.map some = indices.map (rows[·]?) := by
  rw [takeRows,mapM_ok_iff,← List.forall₂_eq_eq_eq,List.forall₂_map_left_iff,List.forall₂_map_right_iff]
  simp only [takeRow_eq_ok]
  exact ⟨List.Forall₂.flip,List.Forall₂.flip⟩

theorem takeRows_total {indices : List ℕ} (h : ∀ index ∈ indices, index < rows.length) :
    ∃ out, takeRows rows indices = .ok out := by
  refine exists_mapM_ok fun index hindex => ?_
  rw [List.getElem?_eq_getElem (h index hindex)]
  exact ⟨_,rfl⟩

theorem eq_map_of_mapM_ok {β γ : Type} {f : β → Result γ} {g : β → γ} {l : List β} {out : List γ}
    (hf : ∀ b ∈ l, ∀ c, f b = .ok c → c = g b) (h : l.mapM f = .ok out) : out = l.map g := by
  have hsteps := mapM_ok_iff.mp h
  rw [← List.forall₂_eq_eq_eq,List.forall₂_map_right_iff]
  refine List.Forall₂.flip ?_
  exact ((List.forall₂_and_left _ _).mpr ⟨hf,hsteps⟩).imp fun b c hbc => hbc.1 c hbc.2

theorem u32TryFrom_eq_ok {row row' : ℕ} {message : String} : u32TryFrom row message = .ok row' ↔ row < 2 ^ 32 ∧ row = row' := by
  unfold u32TryFrom
  split_ifs with hrow
  · exact ⟨fun h => ⟨hrow,Except.ok.inj h⟩,fun h => congrArg Except.ok h.2⟩
  · exact iff_of_false nofun fun h => hrow h.1

theorem runPairs_eq {pairs : List (ℕ × ℕ)}
    (h : runPairs leftStart leftRows rightStart rightRows = .ok pairs) :
    pairs = List.range' leftStart leftRows ×ˢ List.range' rightStart rightRows := by
  obtain ⟨lists,hlists,⟨⟩⟩ := except_bind_eq_ok.mp h
  rw [eq_map_of_mapM_ok (g := fun i => (List.range' rightStart rightRows).map fun j => (i,j)) (fun i _ inner hinner => ?_) hlists]
  · rfl
  · obtain ⟨i',hi,hinner⟩ := except_bind_eq_ok.mp hinner
    obtain ⟨-,rfl⟩ := u32TryFrom_eq_ok.mp hi
    refine eq_map_of_mapM_ok (fun j _ pair hpair => ?_) hinner
    obtain ⟨j',hj,⟨⟩⟩ := except_bind_eq_ok.mp hpair
    obtain ⟨-,rfl⟩ := u32TryFrom_eq_ok.mp hj
    rfl

theorem runPairs_total (hleft : leftStart + leftRows ≤ 2 ^ 32)
    (hright : rightStart + rightRows ≤ 2 ^ 32) : ∃ pairs, runPairs leftStart leftRows rightStart rightRows = .ok pairs := by
  have hlists : ∃ lists, ((List.range' leftStart leftRows).mapM fun leftIndex => do
      let leftIndex ← u32TryFrom leftIndex mergeRowsMessage
      (List.range' rightStart rightRows).mapM fun rightIndex => do
        let rightIndex ← u32TryFrom rightIndex mergeRowsMessage
        (.ok (leftIndex,rightIndex) : Result (ℕ × ℕ))) = .ok lists := by
    refine exists_mapM_ok fun i hi => ?_
    rw [List.mem_range'_1] at hi
    have hindex : u32TryFrom i mergeRowsMessage = .ok i := u32TryFrom_eq_ok.mpr ⟨by omega,rfl⟩
    rw [hindex,except_bind_ok]
    refine exists_mapM_ok fun j hj => ?_
    rw [List.mem_range'_1] at hj
    have hindex : u32TryFrom j mergeRowsMessage = .ok j := u32TryFrom_eq_ok.mpr ⟨by omega,rfl⟩
    exact ⟨_,by rw [hindex]; rfl⟩
  obtain ⟨lists,hlists⟩ := hlists
  exact ⟨lists.flatten,except_bind_eq_ok.mpr ⟨lists,hlists,rfl⟩⟩

end Rows

section Loop
variable {α : Type} {encodeRow : OwnedRow → RowBytes} {left right : List (Row α)}

theorem map_product {β γ β' γ' : Type} (f : β → β') (g : γ → γ') (l : List β) (r : List γ) :
    (l ×ˢ r).map (Prod.map f g) = l.map f ×ˢ r.map g := by
  induction l with
  | nil => rfl
  | cons b l ih =>
    rw [List.product_cons,List.map_append,ih,List.map_cons,List.product_cons,List.map_map,List.map_map]
    rfl

variable {rows run rest l r : List (Row α)} {i j : ℕ}

theorem map_range'_of_drop (h : rows.drop i = run ++ rest) :
    (List.range' i run.length).map (rows[·]?) = run.map some := by
  refine List.ext_getElem (by simp) fun n hn _ => ?_
  rw [List.length_map,List.length_range'] at hn
  rw [List.getElem_map,List.getElem_map,List.getElem_range',Nat.one_mul,← List.getElem?_drop,h,List.getElem?_append_left hn,
    List.getElem?_eq_getElem hn]

theorem drop_succ {row : Row α} (h : rows.drop i = row :: rest) : rows.drop (i + 1) = rest := by
  rw [← List.drop_drop,h,List.drop_one,List.tail_cons]

theorem drop_run (h : rows.drop i = run ++ rest) : rows.drop (i + run.length) = rest := by
  rw [← List.drop_drop,h,List.drop_left]

/-- The index pairs of the loop are those of the rows that the merge join pairs. -/
theorem mergeLoop_rows {pairs : List (ℕ × ℕ)} (hl : left.drop i = l) (hr : right.drop j = r)
    (h : mergeLoop encodeRow l r i j = .ok pairs) : pairs.map (Prod.map (left[·]?) (right[·]?)) =
      (mergeJoin (encodedKey encodeRow) (encodedKey encodeRow) l r).map fun pair => (some pair.1,some pair.2) := by
  fun_induction mergeJoin (encodedKey encodeRow) (encodedKey encodeRow) l r generalizing i j pairs with
  | case1 a l b r hnone ih =>
    rw [mergeLoop,hnone] at h
    exact ih (drop_succ hl) hr h
  | case2 a l b r k hnone hk ih =>
    rw [mergeLoop,hk,hnone] at h
    exact ih hl (drop_succ hr) h
  | case3 a l b r k k' hk' hk hlt ih =>
    rw [mergeLoop,hk,hk'] at h
    dsimp only at h
    rw [if_pos hlt] at h
    exact ih (drop_succ hl) hr h
  | case4 a l b r k k' hk' hk hnot hlt ih =>
    rw [mergeLoop,hk,hk'] at h
    dsimp only at h
    rw [if_neg hnot,if_pos hlt] at h
    exact ih hl (drop_succ hr) h
  | case5 a l b r k k' hk' hk hnot hnot' ih =>
    rw [mergeLoop,hk,hk'] at h
    dsimp only at h
    rw [if_neg hnot,if_neg hnot'] at h
    obtain ⟨first,hfirst,h⟩ := except_bind_eq_ok.mp h
    obtain ⟨rest,hrest,⟨⟩⟩ := except_bind_eq_ok.mp h
    have hsplit : left.drop i = (a :: l.takeWhile fun row => encodedKey encodeRow row = some k) ++
        l.dropWhile fun row => encodedKey encodeRow row = some k := by
      rw [hl,List.cons_append,List.takeWhile_append_dropWhile]
    have hsplit' : right.drop j = (b :: r.takeWhile fun row => encodedKey encodeRow row = some k) ++
        r.dropWhile fun row => encodedKey encodeRow row = some k := by
      rw [hr,List.cons_append,List.takeWhile_append_dropWhile]
    rw [List.map_append,List.map_append,ih (drop_run hsplit) (drop_run hsplit') hrest,runPairs_eq hfirst,map_product,
      map_range'_of_drop hsplit,map_range'_of_drop hsplit',← map_product]
    rfl
  | case6 l r hstop =>
    cases l with
    | nil =>
      rw [mergeLoop] at h
      · cases h
        rfl
      · intro _ _ _ _ heq
        cases heq
    | cons a l =>
      cases r with
      | nil =>
        rw [mergeLoop] at h
        · cases h
          rfl
        · intro _ _ _ _ _ heq
          cases heq
      | cons b r => exact (hstop a l b r rfl rfl).elim

theorem mergeLoop_total (hl : i + l.length ≤ 2 ^ 32) (hr : j + r.length ≤ 2 ^ 32) :
    ∃ pairs, mergeLoop encodeRow l r i j = .ok pairs := by
  fun_induction mergeLoop encodeRow l r i j with
  | case1 a l b r i j hnone ih => exact ih (by rw [List.length_cons] at hl; omega) hr
  | case2 a l b r i j k hnone hk ih => exact ih hl (by rw [List.length_cons] at hr; omega)
  | case3 a l b r i j k k' hk' hk hlt ih => exact ih (by rw [List.length_cons] at hl; omega) hr
  | case4 a l b r i j k k' hk' hk hnot hlt ih => exact ih hl (by rw [List.length_cons] at hr; omega)
  | case5 a l b r i j k k' hk' hk hnot hnot' leftRun rightRun ih =>
    have hleft : leftRun.length + (l.dropWhile fun row => encodedKey encodeRow row = some k).length = (a :: l).length := by
      rw [← List.length_append,List.cons_append,List.takeWhile_append_dropWhile]
    have hright : rightRun.length + (r.dropWhile fun row => encodedKey encodeRow row = some k).length = (b :: r).length := by
      rw [← List.length_append,List.cons_append,List.takeWhile_append_dropWhile]
    obtain ⟨first,hfirst⟩ := @runPairs_total i leftRun.length j rightRun.length (by omega) (by omega)
    obtain ⟨rest,hrest⟩ := ih (by omega) (by omega)
    exact ⟨first ++ rest,by rw [hfirst,except_bind_ok,hrest]; rfl⟩
  | case6 => exact ⟨[],rfl⟩

end Loop

/-- The row format tells the keys of the column types apart. -/
def EncodesKeys (types : List DataType) (encodeRow : OwnedRow → RowBytes) : Prop :=
  ∀ key key' k k', cellsMatch key types = true → cellsMatch key' types = true → ownedKey key = some k → ownedKey key' = some k' →
    encodeRow k = encodeRow k' → k = k'

/-- The sort kernel gives every row once, in the order of the row format with NULLs last. -/
structure SortsKeys (types : List DataType) (encodeRow : OwnedRow → RowBytes)
    (lexsortToIndices : List (List (Option KeyValue)) → List ℕ) : Prop where
  perm : ∀ keys, (∀ key ∈ keys, cellsMatch key types = true) → (lexsortToIndices keys).Perm (List.range keys.length)
  sorted : ∀ keys, (∀ key ∈ keys, cellsMatch key types = true) → (lexsortToIndices keys).Pairwise fun i j =>
    ∀ key key', keys[i]? = some key → keys[j]? = some key' → KeyLe ((ownedKey key).map encodeRow) ((ownedKey key').map encodeRow)

section Claim
variable {α : Type} {encodeRow : OwnedRow → RowBytes} {lexsortToIndices : List (List (Option KeyValue)) → List ℕ}
  {types : List DataType}

theorem concatBatches_typed {batches : List (RecordBatch α)} (hne : batches ≠ []) (ht : Typed types batches) :
    concatBatches batches = .ok (types,batches.flatMap RecordBatch.rows) := by
  cases batches with
  | nil => exact (hne rfl).elim
  | cons first rest =>
    have hfirst := ht first List.mem_cons_self
    exact (if_pos fun batch hbatch => (ht batch (List.mem_cons_of_mem _ hbatch)).trans hfirst.symm).trans (by rw [hfirst])

theorem sortSingleBatchByColumn_sorted (hsort : SortsKeys types encodeRow lexsortToIndices) {rows : List (Row α)}
    (ht : ∀ row ∈ rows, cellsMatch row.key types = true) :
    ∃ out, sortSingleBatchByColumn lexsortToIndices rows = .ok out ∧ out.Perm rows ∧ KeySorted (encodedKey encodeRow) out := by
  have hkeys : ∀ key ∈ rows.map Row.key, cellsMatch key types = true := by
    intro key hkey
    obtain ⟨row,hrow,rfl⟩ := List.mem_map.mp hkey
    exact ht row hrow
  have hperm := hsort.perm _ hkeys
  have hsorted := hsort.sorted _ hkeys
  rw [List.length_map] at hperm
  obtain ⟨out,hout⟩ := @takeRows_total _ rows (lexsortToIndices (rows.map Row.key)) fun index hindex =>
    List.mem_range.mp (hperm.mem_iff.mp hindex)
  have htaken := takeRows_eq_ok.mp hout
  refine ⟨out,hout,?_,?_⟩
  · have hrange : (List.range rows.length).map (rows[·]?) = rows.map some :=
      List.ext_getElem (by simp) fun i hi _ => by
        rw [List.length_map,List.length_range] at hi
        rw [List.getElem_map,List.getElem_map,List.getElem_range,List.getElem?_eq_getElem hi]
    have hsome : (out.map some).Perm (rows.map some) := by
      rw [htaken,← hrange]
      exact hperm.map _
    simpa [List.filterMap_map] using hsome.filterMap id
  · have hpairs : (out.map some).Pairwise fun x y => ∀ a b : Row α, x = some a → y = some b →
        KeyLe (encodedKey encodeRow a) (encodedKey encodeRow b) := by
      rw [htaken,List.pairwise_map]
      refine hsorted.imp fun {i j} h (a b : Row α) ha hb => h a.key b.key ?_ ?_
      · rw [List.getElem?_map,ha,Option.map_some]
      · rw [List.getElem?_map,hb,Option.map_some]
    rw [List.pairwise_map] at hpairs
    exact hpairs.imp fun {a b} h => h a b rfl rfl

theorem taken_rows {left right leftTaken rightTaken : List (Row α)} {pairs : List (ℕ × ℕ)}
    (hleft : takeRows left (pairs.map Prod.fst) = .ok leftTaken) (hright : takeRows right (pairs.map Prod.snd) = .ok rightTaken) :
    (leftTaken.zip rightTaken).map (fun pair => (some pair.1,some pair.2)) = pairs.map (Prod.map (left[·]?) (right[·]?)) := by
  have hzip : (leftTaken.map some).zip (rightTaken.map some) = (leftTaken.zip rightTaken).map (Prod.map some some) := List.zip_map
  rw [takeRows_eq_ok.mp hleft,takeRows_eq_ok.mp hright,List.map_map,List.map_map,List.zip_map'] at hzip
  exact hzip.symm

theorem joins_encoded {left right : List (RecordBatch α)} (hencode : EncodesKeys types encodeRow) (hleft : Typed types left)
    (hright : Typed types right) : ∀ a ∈ allRows left, ∀ b ∈ allRows right,
      (Joins (encodedKey encodeRow a) (encodedKey encodeRow b) ↔ Joins a.ownedKey b.ownedKey) := by
  intro a ha b hb
  rw [allRows,← map_snd_rowRefs,Multiset.mem_coe] at ha hb
  obtain ⟨p,hp,rfl⟩ := List.mem_map.mp ha
  obtain ⟨q,hq,rfl⟩ := List.mem_map.mp hb
  unfold encodedKey
  cases hk : p.2.ownedKey with
  | none => simp
  | some k =>
    rw [Option.map_some,joins_some_left,joins_some_left,Option.map_eq_some_iff]
    constructor
    · rintro ⟨k',hk',heq⟩
      rw [hk',hencode _ _ _ _ (hright.cellsMatch hq) (hleft.cellsMatch hp) hk' hk heq]
    · intro hk'
      exact ⟨k,hk',rfl⟩

/-- A sort-merge join of two inputs with one key column of the same type gives the pairs of the inner join, and it gives them
whenever the rows of a side can be counted by 32 bits. -/
theorem sortMergeJoinBatches_inner (keyType : DataType) (hencode : EncodesKeys [keyType] encodeRow)
    (hsort : SortsKeys [keyType] encodeRow lexsortToIndices) (leftKey rightKey : String) (left right : List (RecordBatch α))
    (hleft : left ≠ []) (hright : right ≠ []) (htl : Typed [keyType] left) (htr : Typed [keyType] right) :
    (∀ output, sortMergeJoinBatches encodeRow lexsortToIndices leftKey rightKey left right = .ok output →
        (↑output : Multiset (JoinedRow α)) = nestedLoopJoin Row.ownedKey Row.ownedKey .inner (allRows left) (allRows right)) ∧
      (totalRows left ≤ 2 ^ 32 → totalRows right ≤ 2 ^ 32 →
        ∃ output, sortMergeJoinBatches encodeRow lexsortToIndices leftKey rightKey left right = .ok output) := by
  have hcells : ∀ {batches : List (RecordBatch α)}, Typed [keyType] batches → ∀ row ∈ batches.flatMap RecordBatch.rows,
      cellsMatch row.key [keyType] = true := by
    intro batches ht row hrow
    obtain ⟨batch,hbatch,hrow⟩ := List.mem_flatMap.mp hrow
    exact ht batch hbatch ▸ batch.typed row hrow
  obtain ⟨l,hl,hlperm,hlsorted⟩ := sortSingleBatchByColumn_sorted hsort (hcells htl)
  obtain ⟨r,hr,hrperm,hrsorted⟩ := sortSingleBatchByColumn_sorted hsort (hcells htr)
  have hrun : sortMergeJoinBatches encodeRow lexsortToIndices leftKey rightKey left right = do
      let pairs ← mergeLoop encodeRow l r 0 0
      let leftTaken ← takeRows l (pairs.map Prod.fst)
      let rightTaken ← takeRows r (pairs.map Prod.snd)
      return (leftTaken.zip rightTaken).map fun pair => (some pair.1,some pair.2) := by
    unfold sortMergeJoinBatches
    rw [concatBatches_typed hleft htl,except_bind_ok]
    dsimp only
    rw [concatBatches_typed hright htr,except_bind_ok]
    rw [hl,except_bind_ok,hr,except_bind_ok]
    exact if_neg fun h => h rfl
  rw [hrun]
  constructor
  · intro output houtput
    obtain ⟨pairs,hpairs,houtput⟩ := except_bind_eq_ok.mp houtput
    obtain ⟨leftTaken,hleftTaken,houtput⟩ := except_bind_eq_ok.mp houtput
    obtain ⟨rightTaken,hrightTaken,⟨⟩⟩ := except_bind_eq_ok.mp houtput
    have hrows := mergeLoop_rows (List.drop_zero) (List.drop_zero) hpairs
    rw [taken_rows hleftTaken hrightTaken,hrows,mergeJoin_eq_innerPairs hlsorted hrsorted,Multiset.coe_eq_coe.mpr hlperm,
      Multiset.coe_eq_coe.mpr hrperm]
    exact innerPairs_congr (joins_encoded hencode htl htr)
  · intro hsmall hsmall'
    have hlength : l.length ≤ 2 ^ 32 := by
      rw [hlperm.length_eq,List.length_flatMap]
      exact hsmall
    have hlength' : r.length ≤ 2 ^ 32 := by
      rw [hrperm.length_eq,List.length_flatMap]
      exact hsmall'
    obtain ⟨pairs,hpairs⟩ := @mergeLoop_total _ encodeRow l r 0 0 (by omega) (by omega)
    have hinside : ∀ pair ∈ pairs, pair.1 < l.length ∧ pair.2 < r.length := by
      intro pair hpair
      have hrow := List.mem_map_of_mem (f := Prod.map (l[·]?) (r[·]?)) hpair
      rw [mergeLoop_rows List.drop_zero List.drop_zero hpairs] at hrow
      obtain ⟨rows,-,hrows⟩ := List.mem_map.mp hrow
      obtain ⟨ha,hb⟩ := Prod.ext_iff.mp hrows
      exact ⟨(List.getElem?_eq_some_iff.mp ha.symm).1,(List.getElem?_eq_some_iff.mp hb.symm).1⟩
    obtain ⟨leftTaken,hleftTaken⟩ := @takeRows_total _ l (pairs.map Prod.fst) fun index hindex => by
      obtain ⟨pair,hpair,rfl⟩ := List.mem_map.mp hindex
      exact (hinside pair hpair).1
    obtain ⟨rightTaken,hrightTaken⟩ := @takeRows_total _ r (pairs.map Prod.snd) fun index hindex => by
      obtain ⟨pair,hpair,rfl⟩ := List.mem_map.mp hindex
      exact (hinside pair hpair).2
    exact ⟨_,by rw [hpairs,except_bind_ok,hleftTaken,except_bind_ok,hrightTaken]; rfl⟩

end Claim

/-- An Int32 key in the row format: big-endian with the sign bit flipped. -/
def encodeInt32Row : OwnedRow → RowBytes
  | [.int32 value] =>
    let bits := (value.toInt + 2 ^ 31).toNat
    [Fin.ofNat 256 (bits / 2 ^ 24),Fin.ofNat 256 (bits / 2 ^ 16),Fin.ofNat 256 (bits / 2 ^ 8),Fin.ofNat 256 bits]
  | _ => []

theorem bytes_injective {a b : ℕ} (ha : a < 2 ^ 32) (hb : b < 2 ^ 32)
    (h : a / 2 ^ 24 % 256 = b / 2 ^ 24 % 256 ∧ a / 2 ^ 16 % 256 = b / 2 ^ 16 % 256 ∧ a / 2 ^ 8 % 256 = b / 2 ^ 8 % 256 ∧
      a % 256 = b % 256) : a = b := by
  have hstep : ∀ {m n : ℕ}, m / 256 = n / 256 → m % 256 = n % 256 → m = n := by
    intro m n hdiv hmod
    rw [← Nat.div_add_mod m 256,hdiv,hmod,Nat.div_add_mod]
  obtain ⟨h3,h2,h1,h0⟩ := h
  have hhigh : a / 2 ^ 24 < 256 := Nat.div_lt_of_lt_mul ha
  have hhigh' : b / 2 ^ 24 < 256 := Nat.div_lt_of_lt_mul hb
  rw [Nat.mod_eq_of_lt hhigh,Nat.mod_eq_of_lt hhigh'] at h3
  have h2' := hstep (by rwa [Nat.div_div_eq_div_mul,Nat.div_div_eq_div_mul]) h2
  have h1' := hstep (by rwa [Nat.div_div_eq_div_mul,Nat.div_div_eq_div_mul]) h1
  exact hstep h1' h0

theorem encodesKeys_int32 : EncodesKeys [.int32] encodeInt32Row := by
  intro key key' k k' hkey hkey' hk hk' heq
  have hread := int32Layout.ownedKey_eq key hkey
  have hread' := int32Layout.ownedKey_eq key' hkey'
  rw [hk] at hread
  rw [hk'] at hread'
  obtain ⟨v,-,rfl⟩ := Option.map_eq_some_iff.mp hread.symm
  obtain ⟨v',-,rfl⟩ := Option.map_eq_some_iff.mp hread'.symm
  have hbits : ∀ w : Int32, 0 ≤ w.toInt + 2 ^ 31 ∧ (w.toInt + 2 ^ 31).toNat < 2 ^ 32 := by
    intro w
    have hlow := w.le_toInt
    have hhigh := w.toInt_lt
    omega
  simp only [int32Layout,encodeInt32Row,List.cons.injEq,Fin.ext_iff,Fin.ofNat_eq_cast,Fin.val_natCast,and_true] at heq
  have hnat := bytes_injective (hbits v).2 (hbits v').2 heq
  have hsame : v.toInt + 2 ^ 31 = v'.toInt + 2 ^ 31 := by
    rw [← Int.toNat_of_nonneg (hbits v).1,hnat,Int.toNat_of_nonneg (hbits v').1]
  rw [Int32.toInt_inj.mp (add_right_cancel hsame)]

def sortByRowFormat (encodeRow : OwnedRow → RowBytes) (keys : List (List (Option KeyValue))) : List ℕ :=
  (List.range keys.length).mergeSort fun i j =>
    decide (KeyLe ((ownedKey (keys.getD i [])).map encodeRow) ((ownedKey (keys.getD j [])).map encodeRow))

theorem sortsKeys_sortByRowFormat (types : List DataType) (encodeRow : OwnedRow → RowBytes) :
    SortsKeys types encodeRow (sortByRowFormat encodeRow) where
  perm keys _ := List.mergeSort_perm _ _
  sorted keys _ := by
    refine (List.pairwise_mergeSort ?_ ?_ _).imp fun {i j} h key key' hi hj => ?_
    · intro a b c hab hbc
      simp only [decide_eq_true_eq] at hab hbc ⊢
      exact hab.trans hbc
    · intro a b
      simp only [Bool.or_eq_true,decide_eq_true_eq]
      exact keyLe_total _ _
    · rw [List.getD_eq_getElem?_getD,List.getD_eq_getElem?_getD,hi,hj] at h
      exact of_decide_eq_true h

/-- A row with the key 7 joins the rows with this key on the other side. -/
theorem sortMergeJoinBatches_inner_seven :
    ∃ output, sortMergeJoinBatches encodeInt32Row (sortByRowFormat encodeInt32Row) "a" "b" [sevenBatch] [sevenBatch,sevenBatch] =
        .ok output ∧
      (↑output : Multiset (JoinedRow Unit)) =
        nestedLoopJoin Row.ownedKey Row.ownedKey .inner (allRows [sevenBatch]) (allRows [sevenBatch,sevenBatch]) := by
  obtain ⟨hsound,htotal⟩ := sortMergeJoinBatches_inner .int32 encodesKeys_int32 (sortsKeys_sortByRowFormat [.int32] encodeInt32Row) "a" "b"
    [sevenBatch] [sevenBatch,sevenBatch] (List.cons_ne_nil _ _) (List.cons_ne_nil _ _) (by simp [Typed,sevenBatch])
    (by simp [Typed,sevenBatch])
  obtain ⟨output,houtput⟩ := htotal (by decide) (by decide)
  exact ⟨output,houtput,hsound output houtput⟩

end Dodam.Execution

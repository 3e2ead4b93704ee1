import Dodam.Storage.KeySet
import Dodam.Storage.Table

/-! # Scans filtered by a key set

A table of one Parquet fragment is read in chunks of row groups, each filtered by the key
predicate; any other layout falls back to the plain scan.
-/
namespace Dodam.Engine
open Foundation Storage

section Scan
variable {π ρ : Type*} (fs : FileSystem π ρ) (column : String) (key : ρ → Option ℤ)

/-- The rows whose bit in the mask of the filter column is set. -/
def filterByKeys (accepts : ℤ → Bool) (rows : List ρ) : List ρ :=
  ((rows.zip (evaluateKeys accepts (rows.map key))).filter (·.2)).map (·.1)

/-- One worker: it opens `path` and reads its row groups through the filter. -/
def scanFilteredRowGroups (path : π) (accepts : ℤ → Bool) (rowGroups : List ℕ) : Option (List ρ) :=
  (fs.openFile path).bind fun file =>
    if file.schema.lookup column = some "Int64" then
      (rowGroups.mapM fun rowGroup => file.rowGroups[rowGroup]?).map fun groups =>
        groups.flatMap (filterByKeys key accepts)
    else none

def scanKeyFiltered (path : π) (accepts : ℤ → Bool) (rowGroupChunk : ℕ) : Option (Multiset ρ) :=
  (planTableSource fs path).bind fun source =>
    match source.format, source.fragments with
    | .parquet, [fragment] =>
      if fragment.format = .parquet then
        (fs.openFile fragment.location).bind fun file =>
          let rowGroups := List.range file.rowGroups.length
          if rowGroups.isEmpty then some 0
          else
            ((rowGroups.toChunks (max rowGroupChunk 1)).mapM
              (scanFilteredRowGroups fs column key path accepts)).map fun rows => (rows.flatten : List ρ)
      else none
    | _, fragments => scanFragments fs fragments

def scanParquetBatchesI64SetFiltered (path : π) (keys : List ℤ) (rowGroupChunk : ℕ) : Option (Multiset ρ) :=
  scanKeyFiltered fs column key path (I64SetPredicate.fromHashSet keys).contains rowGroupChunk

def scanParquetBatchesI64BloomFiltered (path : π) (keys : List ℤ) (rowGroupChunk : ℕ) : Option (Multiset ρ) :=
  scanKeyFiltered fs column key path (I64BloomPredicate.fromHashSet keys).mightContain rowGroupChunk

end Scan

section Filter
variable {ρ : Type*} {key : ρ → Option ℤ}

theorem filterByKeys_eq (accepts : ℤ → Bool) (rows : List ρ) :
    filterByKeys key accepts rows = rows.filter fun row => passesKeys accepts (key row) := by
  unfold filterByKeys
  rw [evaluateKeys_eq,List.map_map]
  induction rows with
  | nil => rfl
  | cons row rows ih =>
    rw [List.map_cons,List.zip_cons_cons,List.filter_cons,List.filter_cons]
    simp only [Function.comp_apply]
    split_ifs
    · rw [List.map_cons,ih]
    · exact ih

theorem filter_passesKeys {accepts : ℤ → Bool} {keys : List ℤ} (h : ∀ k, accepts k = true ↔ k ∈ keys)
    (row : ρ) : passesKeys accepts (key row) = true ↔ ∃ k ∈ key row, k ∈ keys := by
  unfold passesKeys
  cases key row with
  | none => simp
  | some k => simp [h k]

end Filter

section Correct
variable {π ρ : Type*} {fs : FileSystem π ρ} {column : String} {key : ρ → Option ℤ}

def tableRows (fs : FileSystem π ρ) (source : TableScanSource π) : Multiset ρ :=
  (source.fragments.flatMap fun fragment =>
    ((fs.openFile fragment.location).elim [] fun file => file.rowGroups.flatten) : List ρ)

/-- Every fragment is a readable Parquet file with the filter column as `i64`. -/
def ReadableKeys (fs : FileSystem π ρ) (column : String) (source : TableScanSource π) : Prop :=
  ∀ fragment ∈ source.fragments, fragment.format = .parquet ∧
    ∃ file, fs.openFile fragment.location = some file ∧ file.schema.lookup column = some "Int64"

variable {source : TableScanSource π} {path : π} {file : ParquetFile ρ}

theorem scanFragments_of_readable (h : ReadableKeys fs column source) :
    scanFragments fs source.fragments = some (tableRows fs source) := by
  have hformat : scanFormat source.fragments = some .parquet := by
    unfold ReadableKeys at h
    cases hf : source.fragments with
    | nil => rfl
    | cons first rest =>
      rw [hf] at h
      have hfirst := (h first (by simp)).1
      unfold scanFormat
      dsimp only
      rw [if_pos,hfirst]
      rw [List.all_eq_true]
      intro fragment hfragment
      rw [decide_eq_true_iff,hfirst]
      exact (h fragment hfragment).1
  have hopen : (source.fragments.mapM fun fragment => fs.openFile fragment.location) =
      some (source.fragments.map fun fragment => (fs.openFile fragment.location).getD ⟨[],[]⟩) := by
    refine mapM_eq_some_map fun fragment hfragment => ?_
    obtain ⟨-,file,hfile,-⟩ := h fragment hfragment
    rw [hfile]
    rfl
  rw [scanFragments,hformat,Option.bind_some,if_pos rfl,hopen,Option.map_some,tableRows,List.flatMap_map]
  congr 2
  refine List.flatMap_congr fun fragment hfragment => ?_
  obtain ⟨-,file,hfile,-⟩ := h fragment hfragment
  rw [hfile]
  rfl

variable (key) in
theorem scanFilteredRowGroups_chunks (hopen : fs.openFile path = some file)
    (hcolumn : file.schema.lookup column = some "Int64") (accepts : ℤ → Bool) (rowGroupChunk : ℕ) :
    ((((List.range file.rowGroups.length).toChunks rowGroupChunk).mapM
      (scanFilteredRowGroups fs column key path accepts)).map List.flatten) =
        some (file.rowGroups.flatten.filter fun row => passesKeys accepts (key row)) := by
  have hchunk : ∀ chunk ∈ (List.range file.rowGroups.length).toChunks rowGroupChunk,
      scanFilteredRowGroups fs column key path accepts chunk =
        some (chunk.flatMap fun i => (file.rowGroups.getD i []).filter fun row => passesKeys accepts (key row)) := by
    intro chunk hchunk
    have hread : (chunk.mapM fun i => file.rowGroups[i]?) = some (chunk.map fun i => file.rowGroups.getD i []) := by
      refine mapM_eq_some_map fun i hi => ?_
      have hlt : i < file.rowGroups.length := by
        rw [← List.mem_range,← flatten_toChunks rowGroupChunk (List.range file.rowGroups.length)]
        exact List.mem_flatten.mpr ⟨chunk,hchunk,hi⟩
      rw [List.getD_eq_getElem?_getD,List.getElem?_eq_getElem hlt]
      rfl
    rw [scanFilteredRowGroups,hopen,Option.bind_some,if_pos hcolumn,hread,Option.map_some,List.flatMap_map]
    simp only [filterByKeys_eq]
  have hgroups : (List.range file.rowGroups.length).map (fun i => file.rowGroups.getD i []) = file.rowGroups := by
    refine List.ext_getElem (by simp) fun i hi hi' => ?_
    rw [List.getElem_map,List.getElem_range,List.getD_eq_getElem _ _ hi']
  rw [mapM_eq_some_map hchunk,Option.map_some,← List.flatMap_def,← List.flatMap_assoc,List.flatMap_id',
    flatten_toChunks,List.filter_flatten,← List.flatMap_def]
  congr 1
  conv_rhs => rw [← hgroups,List.flatMap_map]

variable (key) in
theorem scanKeyFiltered_of_other (hplan : planTableSource fs path = some source)
    (hreadable : ReadableKeys fs column source) (hlength : source.fragments.length ≠ 1) (accepts : ℤ → Bool)
    (rowGroupChunk : ℕ) :
    scanKeyFiltered fs column key path accepts rowGroupChunk = some (tableRows fs source) := by
  rw [← scanFragments_of_readable hreadable,scanKeyFiltered,hplan,Option.bind_some]
  rcases source with ⟨_ | ⟨first,_ | ⟨second,rest⟩⟩,format⟩
  · cases format <;> rfl
  · exact absurd rfl hlength
  · cases format <;> rfl

theorem planTableSource_format (h : planTableSource fs path = some source) :
    source.format = .parquet := by
  have henrich : ∀ fragments, enrichTableSource fs fragments = some source → source.format = .parquet := by
    intro fragments h
    obtain ⟨files,-,h⟩ := Option.bind_eq_some_iff.mp h
    split_ifs at h
    cases h
    rfl
  unfold planTableSource at h
  split at h
  · obtain ⟨fragments,-,h⟩ := Option.bind_eq_some_iff.mp h
    exact henrich fragments h
  · cases h
  · split_ifs at h
    · obtain ⟨fragments,-,h⟩ := Option.bind_eq_some_iff.mp h
      exact henrich fragments h
    · cases h
      rfl

theorem planTableSource_of_openFile
    (h : planTableSource fs path = some source) (hopen : fs.openFile path = some file) :
    source.fragments = [.localParquet path] := by
  have hentry : fs.entry path = some (.file file) := by
    unfold FileSystem.openFile at hopen
    split at hopen
    · next f hf =>
      cases hopen
      exact hf
    · cases hopen
  unfold planTableSource at h
  rw [hentry] at h
  obtain ⟨fragments,hfragments,h⟩ := Option.bind_eq_some_iff.mp h
  obtain ⟨files,-,h⟩ := Option.bind_eq_some_iff.mp h
  split_ifs at h
  cases h
  rw [localParquetTable,hentry] at hfragments
  exact (Option.some.inj hfragments).symm

variable (column key) in
theorem scanKeyFiltered_of_single {fragment : FileFragment π} (hplan : planTableSource fs path = some source)
    (hfragments : source.fragments = [fragment]) (hformat : fragment.format = .parquet)
    (hfile : fs.openFile fragment.location = some file) (accepts : ℤ → Bool) (rowGroupChunk : ℕ) :
    scanKeyFiltered fs column key path accepts rowGroupChunk =
      if file.rowGroups = [] then some (0 : Multiset ρ)
      else (((List.range file.rowGroups.length).toChunks (max rowGroupChunk 1)).mapM
        (scanFilteredRowGroups fs column key path accepts)).map fun rows => ((rows.flatten : List ρ) : Multiset ρ) := by
  have hsource := planTableSource_format hplan
  rcases source with ⟨fragments,format⟩
  subst hfragments hsource
  rw [scanKeyFiltered,hplan,Option.bind_some]
  dsimp only
  rw [if_pos hformat,hfile,Option.bind_some]
  simp only [List.isEmpty_iff,List.range_eq_nil,List.length_eq_zero_iff]

theorem scanKeyFiltered_of_openFile
    (hplan : planTableSource fs path = some source) (hreadable : ReadableKeys fs column source)
    (hopen : fs.openFile path = some file) (accepts : ℤ → Bool) (rowGroupChunk : ℕ) :
    scanKeyFiltered fs column key path accepts rowGroupChunk =
      some ((tableRows fs source).filter fun row => passesKeys accepts (key row) = true) := by
  have hfragments := planTableSource_of_openFile hplan hopen
  have hcolumn : file.schema.lookup column = some "Int64" := by
    obtain ⟨-,f,hf,hcolumn⟩ := hreadable (.localParquet path) (by rw [hfragments]; simp)
    cases hopen.symm.trans hf
    exact hcolumn
  rw [scanKeyFiltered_of_single column key hplan hfragments rfl hopen]
  have hrows : tableRows fs source = (file.rowGroups.flatten : List ρ) := by
    simp [tableRows,hfragments,FileFragment.localParquet,hopen]
  rw [hrows,Multiset.filter_coe]
  split_ifs with hempty
  · rw [hempty]
    rfl
  · have hscan := scanFilteredRowGroups_chunks key hopen hcolumn accepts (max rowGroupChunk 1)
    obtain ⟨rows,hrows,hflatten⟩ := Option.map_eq_some_iff.mp hscan
    rw [hrows,Option.map_some,hflatten]
    simp

def memberRows (fs : FileSystem π ρ) (key : ρ → Option ℤ) (source : TableScanSource π) (keys : List ℤ) : Multiset ρ :=
  (tableRows fs source).filter fun row => ∃ k ∈ key row, k ∈ keys

/-- The exact variant returns the rows with a key of the set, the Bloom variant these and maybe other
rows of the table, each once. -/
def FiltersExactly (fs : FileSystem π ρ) (column : String) (key : ρ → Option ℤ) (path : π)
    (source : TableScanSource π) (keys : List ℤ) (rowGroupChunk : ℕ) : Prop :=
  scanParquetBatchesI64SetFiltered fs column key path keys rowGroupChunk = some (memberRows fs key source keys) ∧
    ∃ rows, scanParquetBatchesI64BloomFiltered fs column key path keys rowGroupChunk = some rows ∧
      memberRows fs key source keys ≤ rows ∧ rows ≤ tableRows fs source

/-- One fragment, and the path is the file itself or nothing is to be read; or several fragments (or
none), all of whose rows have a key of the set. -/
def LayoutFilters (fs : FileSystem π ρ) (key : ρ → Option ℤ) (path : π) (source : TableScanSource π)
    (keys : List ℤ) : Prop :=
  if source.fragments.length = 1 then
    (∃ file, fs.openFile path = some file) ∨
      ∀ fragment ∈ source.fragments, ∀ file, fs.openFile fragment.location = some file → file.rowGroups = []
  else ∀ row ∈ tableRows fs source, ∃ k ∈ key row, k ∈ keys

theorem memberRows_le_filter {keys : List ℤ} {accepts : ℤ → Bool}
    (h : ∀ k ∈ keys, accepts k = true) : memberRows fs key source keys ≤
      (tableRows fs source).filter fun row => passesKeys accepts (key row) = true := by
  refine Multiset.monotone_filter_right _ fun row hrow => ?_
  obtain ⟨k,hk,hmem⟩ := hrow
  rw [show key row = some k from hk]
  exact h k hmem

theorem filtersExactly_of_openFile
    (hplan : planTableSource fs path = some source) (hreadable : ReadableKeys fs column source)
    (hopen : fs.openFile path = some file) (keys : List ℤ) (rowGroupChunk : ℕ) :
    FiltersExactly fs column key path source keys rowGroupChunk := by
  refine ⟨?_,_,scanKeyFiltered_of_openFile hplan hreadable hopen _ _,memberRows_le_filter fun k hk =>
    I64BloomPredicate.mightContain_fromHashSet hk,Multiset.filter_le _ _⟩
  rw [scanParquetBatchesI64SetFiltered,scanKeyFiltered_of_openFile hplan hreadable hopen]
  congr 1
  exact Multiset.filter_congr fun row _ =>
    filter_passesKeys (I64SetPredicate.contains_fromHashSet keys) row

theorem mapM_scanFilteredRowGroups_none (hopen : fs.openFile path = none) (accepts : ℤ → Bool)
    {chunks : List (List ℕ)} (h : chunks ≠ []) :
    chunks.mapM (scanFilteredRowGroups fs column key path accepts) = none := by
  cases chunks with
  | nil => exact absurd rfl h
  | cons chunk chunks =>
    rw [List.mapM_cons,scanFilteredRowGroups,hopen]
    rfl

/-- For every readable table, the filtered scans are exact precisely for these layouts. -/
theorem filtersExactly_iff {path : π} {source : TableScanSource π} (hplan : planTableSource fs path = some source)
    (hreadable : ReadableKeys fs column source) (keys : List ℤ) (rowGroupChunk : ℕ) :
    FiltersExactly fs column key path source keys rowGroupChunk ↔ LayoutFilters fs key path source keys := by
  unfold LayoutFilters
  split_ifs with hlength
  · obtain ⟨fragment,hfragments⟩ := List.length_eq_one_iff.mp hlength
    obtain ⟨hformat,file,hfile,-⟩ := hreadable fragment (by rw [hfragments]; simp)
    have hscan := scanKeyFiltered_of_single column key hplan hfragments hformat hfile
    constructor
    · rintro ⟨hset,-⟩
      cases hopen : fs.openFile path with
      | some opened => exact .inl ⟨opened,rfl⟩
      | none =>
        right
        intro f hf f' hf'
        rw [hfragments,List.mem_singleton] at hf
        subst hf
        cases hfile.symm.trans hf'
        by_contra hgroups
        -- there is a chunk of row groups, and its worker fails
        have hchunks : (List.range file.rowGroups.length).toChunks (max rowGroupChunk 1) ≠ [] := fun hnil => by
          have hflat := flatten_toChunks (max rowGroupChunk 1) (List.range file.rowGroups.length)
          rw [hnil] at hflat
          exact hgroups (List.length_eq_zero_iff.mp (List.range_eq_nil.mp hflat.symm))
        rw [scanParquetBatchesI64SetFiltered,hscan,if_neg hgroups,mapM_scanFilteredRowGroups_none hopen _ hchunks]
          at hset
        cases hset
    · rintro (⟨opened,hopen⟩ | hempty)
      · exact filtersExactly_of_openFile hplan hreadable hopen keys rowGroupChunk
      · have hgroups := hempty fragment (by rw [hfragments]; simp) file hfile
        have hrows : tableRows fs source = 0 := by
          simp [tableRows,hfragments,hfile,hgroups]
        have hmember : memberRows fs key source keys = 0 := by
          rw [memberRows,hrows]
          rfl
        refine ⟨?_,0,?_,hmember.le,Multiset.zero_le _⟩
        · rw [scanParquetBatchesI64SetFiltered,hscan,if_pos hgroups,hmember]
        · rw [scanParquetBatchesI64BloomFiltered,hscan,if_pos hgroups]
  · have hscan := scanKeyFiltered_of_other key hplan hreadable hlength
    constructor
    · rintro ⟨hset,-⟩
      rw [scanParquetBatchesI64SetFiltered,hscan] at hset
      exact Multiset.filter_eq_self.mp (Option.some.inj hset).symm
    · intro hall
      have hmember : memberRows fs key source keys = tableRows fs source := Multiset.filter_eq_self.mpr hall
      refine ⟨?_,_,hscan _ _,hmember.le,le_rfl⟩
      rw [scanParquetBatchesI64SetFiltered,hscan,hmember]

end Correct

/-- Two files with one `i64` column, whose values are the rows, and a directory of both. -/
def keyFiles : FileSystem String (Option ℤ) where
  entry path :=
    if path = "t/a.parquet" then some (.file ⟨[("k","Int64")],[[some 1,none],[some 5]]⟩)
    else if path = "t/b.parquet" then some (.file ⟨[("k","Int64")],[[some 2]]⟩)
    else if path = "t" then some (.directory [.localParquet "t/a.parquet",.localParquet "t/b.parquet"])
    else none
  catalog _ := none

theorem filtersExactly_keyFile :
    FiltersExactly keyFiles "k" id "t/a.parquet" ⟨[.localParquet "t/a.parquet"],.parquet⟩ [1,7] 4 := by
  refine (filtersExactly_iff (by decide) ?_ [1,7] 4).mpr
    (.inl ⟨⟨[("k","Int64")],[[some 1,none],[some 5]]⟩,rfl⟩)
  intro fragment hfragment
  rw [List.mem_singleton] at hfragment
  subst hfragment
  exact ⟨rfl,_,rfl,rfl⟩

/-- The directory of both files: keys 5 and 2 and a NULL come back for the set of 1. -/
theorem keyFiles_second_fragment :
    planTableSource keyFiles "t" =
        some ⟨[.localParquet "t/a.parquet",.localParquet "t/b.parquet"],.parquet⟩ ∧
      ¬FiltersExactly keyFiles "k" id "t"
        ⟨[.localParquet "t/a.parquet",.localParquet "t/b.parquet"],.parquet⟩ [1] 4 := by
  refine ⟨by decide,fun h => ?_⟩
  have hset := h.1
  revert hset
  decide

end Dodam.Engine

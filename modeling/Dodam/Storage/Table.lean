import Mathlib.Data.Multiset.Filter

/-! # Tables on disk

A table is named by the path of a Parquet file, by a directory of such files or by an entry of
the catalog.
-/
namespace Dodam.Storage

inductive StorageFormat where
  | parquet
  | csv
  | json
  | arrowIpc
deriving DecidableEq

inductive Projection
  | all
  | columns (columns : List String)

structure FileFragment (π : Type*) where
  location : π
  format : StorageFormat
  partitionValues : List (String × String)
deriving DecidableEq

structure TableScanSource (π : Type*) where
  fragments : List (FileFragment π)
  format : StorageFormat
deriving DecidableEq

/-- A file: the names and types of its columns, and its rows by row group. -/
structure ParquetFile (ρ : Type*) where
  schema : List (String × String)
  rowGroups : List (List ρ)

/-- What a path names; a directory lists the Parquet files below it. -/
inductive Entry (π ρ : Type*) where
  | file (file : ParquetFile ρ)
  | directory (fragments : List (FileFragment π))
  | other

structure CatalogTable (π : Type*) where
  location : π
  fragments : List (FileFragment π)

structure FileSystem (π ρ : Type*) where
  entry : π → Option (Entry π ρ)
  catalog : π → Option (CatalogTable π)

section Plan
variable {π ρ : Type*} (fs : FileSystem π ρ)

/-- A file that can be opened and read; `none` is an error, as everywhere below. -/
def FileSystem.openFile (path : π) : Option (ParquetFile ρ) :=
  match fs.entry path with
  | some (.file file) => some file
  | _ => none

def FileFragment.localParquet (path : π) : FileFragment π := ⟨path,.parquet,[]⟩

def localParquetTable (root : π) : Option (List (FileFragment π)) :=
  match fs.entry root with
  | some (.file _) => some [.localParquet root]
  | some (.directory fragments) => some fragments
  | _ => none

/-- The fragments' files must be readable and have one schema. -/
def enrichTableSource (fragments : List (FileFragment π)) : Option (TableScanSource π) :=
  (fragments.mapM fun fragment => fs.openFile fragment.location).bind fun files =>
    if files.Pairwise (fun left right => left.schema = right.schema) then some ⟨fragments,.parquet⟩
    else none

def planTableSource (path : π) : Option (TableScanSource π) :=
  match fs.entry path, fs.catalog path with
  | some _, _ => (localParquetTable fs path).bind (enrichTableSource fs)
  | none, none => none
  | none, some table =>
    if table.fragments.isEmpty then (localParquetTable fs table.location).bind (enrichTableSource fs)
    else some ⟨table.fragments,.parquet⟩

def scanFormat (fragments : List (FileFragment π)) : Option StorageFormat :=
  match fragments with
  | [] => some .parquet
  | first :: _ => if fragments.all (·.format = first.format) then some first.format else none

def scanFragments (fragments : List (FileFragment π)) : Option (Multiset ρ) :=
  (scanFormat fragments).bind fun format =>
    if format = .parquet then
      (fragments.mapM fun fragment => fs.openFile fragment.location).map fun files =>
        (files.flatMap fun file => file.rowGroups.flatten : List ρ)
    else none

end Plan
end Dodam.Storage

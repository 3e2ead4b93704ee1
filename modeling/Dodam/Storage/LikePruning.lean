import Dodam.Storage.StatisticsColumn
import Dodam.Execution.Filter.LikeCorrect

/-! # LIKE against the bounds of a column

A pattern that is an ASCII text followed by `%` asks for the strings between the text and the first string above it.
-/
namespace Dodam.Storage
open Foundation Execution

theorem lt_asciiPrefixUpperBound {bytes upper : List UInt8} (h : asciiPrefixUpperBound bytes = some upper) (rest : List UInt8) :
    bytes ++ rest < upper := by
  unfold asciiPrefixUpperBound at h
  have hcut := congrArg List.reverse (List.takeWhile_append_dropWhile (p := (· = 255)) (l := bytes.reverse))
  rw [List.reverse_reverse,List.reverse_append] at hcut
  have hlast := List.head?_dropWhile_not (· = (255 : UInt8)) bytes.reverse
  cases hdrop : bytes.reverse.dropWhile (· = 255) with
  | nil => simp [hdrop] at h
  | cons byte stem =>
    simp only [hdrop,Option.some.injEq,List.reverse_cons,List.head?_cons,List.append_assoc] at h hcut hlast
    rw [← hcut,← h,List.append_assoc,List.append_assoc]
    have hbyte : byte ≠ 255 := by simpa using hlast
    refine List.append_left_lt (List.Lex.rel ?_)
    grind

theorem sqlLike_stem {stem text : List Char} (hmany : '%' ∉ stem) (hone : '_' ∉ stem)
    (h : SqlLike writeSelf none (stem ++ ['%']) text) : stem <+: text := by
  induction stem generalizing text with
  | nil => exact List.nil_prefix
  | cons c stem ih =>
    rw [List.mem_cons,not_or] at hmany hone
    obtain ⟨rest,rfl,hrest⟩ := (sqlLike_literal (by simp) (Ne.symm hmany.1) (Ne.symm hone.1)).mp h
    exact (List.prefix_cons_inj c).mpr (ih hmany.2 hone.2 hrest)

theorem prefix_of_range {pattern text : List Char} {escape : Option Char} {lower : List UInt8} {upper : Option (List UInt8)}
    (h : likePrefixPruningRange pattern escape = some (lower,upper)) (hlike : SqlLike writeSelf escape pattern text) :
    lower <+: utf8.encode text ∧ upper = asciiPrefixUpperBound lower := by
  unfold likePrefixPruningRange at h
  simp only [Option.ite_none_left_eq_some,Bool.or_eq_true,not_or,Option.some.injEq,Prod.mk.injEq,not_not] at h
  obtain ⟨⟨⟨hescape,hone⟩,-⟩,hlast,⟨⟨-,hmany⟩,hascii⟩,rfl,rfl⟩ := h
  have hcut : pattern = pattern.dropLast ++ ['%'] := by
    rw [List.dropLast_append_getLast? _ hlast]
  have hstem : pattern.dropLast <+: text := by
    refine sqlLike_stem (by simpa using hmany) (fun hmem => hone ?_) ?_
    · simpa using List.mem_of_mem_dropLast hmem
    · rw [← hcut]
      simpa [Option.not_isSome_iff_eq_none.mp hescape] using hlike
  obtain ⟨rest,rfl⟩ := hstem
  rw [SyncCode.encode_append,utf8_encode_ascii (by simpa using hascii)]
  exact ⟨List.prefix_append _ _,rfl⟩

theorem prefixRangeMayMatch_of_bounds {min max : Option (List UInt8)} {lower bytes : List UInt8} (hpre : lower <+: bytes)
    (hmin : ∀ m ∈ min, m ≤ bytes) (hmax : ∀ m ∈ max, bytes ≤ m) :
    prefixRangeMayMatch min max lower (asciiPrefixUpperBound lower) = true := by
  simp only [prefixRangeMayMatch,Bool.and_eq_true,Option.all_eq_true,decide_eq_true_eq]
  refine ⟨fun m hm => List.le_trans hpre.le (hmax m hm),fun upper hupper m hm => List.lt_of_le_of_lt (hmin m hm) ?_⟩
  obtain ⟨rest,rfl⟩ := hpre
  exact lt_asciiPrefixUpperBound hupper rest

section Pruned
variable {schema : Schema} {rowGroups : List (RowGroupMetaData schema)} {index : ℕ} {g : RowGroupMetaData schema}

/-- The field that a column name finds is well placed, and the statistics of its chunks bound the text. -/
def BoundsText (g : RowGroupMetaData schema) (column text : String) : Prop :=
  ∀ e ∈ schema.position fun field => field.1 = column, WellPlaced schema e.2 ∧ ∀ chunk ∈ g.columns, chunk.leaf.root = e.2 →
    ∀ min max, ∀ statistics ∈ chunk.statistics, statistics.values = .byteArray min max →
      (∀ m ∈ min, m ≤ utf8.encode text.toList) ∧ ∀ m ∈ max, utf8.encode text.toList ≤ m

theorem not_matches_of_pruned (typed : TypedComparison) (tables : CaseTables) {like : LikeExpr} {text : String}
    (hg : rowGroups[index]? = some g) (hbounds : BoundsText g like.column text)
    (h : rowGroupMayMatch typed rowGroups index (.like like) = .ok false) : ¬like.Matches tables text := by
  simp only [rowGroupMayMatch] at h
  split_ifs at h with hcase
  · cases h
  have hlike := Except.ok.inj h
  intro hmatches
  rw [LikeExpr.Matches,if_neg hcase] at hmatches
  unfold rowGroupMayMatchLike at hlike
  simp only [hg,Option.bind_some] at hlike
  split at hlike
  · cases hlike
  rename_i hrange
  split_ifs at hlike
  split at hlike
  · rename_i i hposition
    split at hlike
    · cases hlike
    rename_i chunk hchunk
    split at hlike
    · rename_i hstatistics
      obtain ⟨hplaced,hown⟩ := hbounds _ hposition
      have hroot : chunk.leaf.root = i := by
        have hleaf := (root_columns g i).trans ((root_schemaLeaves i i).mpr hplaced)
        simpa [hchunk] using hleaf
      obtain ⟨hmin,hmax⟩ := hown chunk (List.mem_of_getElem? hchunk) hroot _ _ _ hstatistics rfl
      obtain ⟨hpre,rfl⟩ := prefix_of_range hrange hmatches
      simp [prefixRangeMayMatch_of_bounds hpre hmin hmax] at hlike
    · cases hlike
  · cases hlike

/-- A column between `b` and `d`. -/
def utf8RowGroup : RowGroupMetaData [("t",.utf8)] :=
  ⟨[⟨⟨0,["t"]⟩,some ⟨.byteArray (some [98]) (some [100]),false,true,true⟩⟩],rfl⟩

theorem not_matches_of_pruned_below : ¬(⟨"t","a%",false,none,false⟩ : LikeExpr).Matches asciiTables "bz" := by
  have hg : [utf8RowGroup][0]? = some utf8RowGroup := rfl
  refine not_matches_of_pruned typedInt64 _ hg ?_ (by decide)
  intro e he
  obtain rfl := Option.some.inj he
  refine ⟨by decide,?_⟩
  simp [utf8RowGroup]
  decide

end Pruned
end Dodam.Storage

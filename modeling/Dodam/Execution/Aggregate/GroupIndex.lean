import Dodam.Foundation.KeyedTable
import Dodam.Foundation.Machine
import Dodam.Foundation.Window

/-! # Group indexes

The maps from integer keys to group ids: a short list, then slots over a range
of keys or a hash map. Inserting a new key, and asking for a dense range, change
no other answer.
-/
namespace Dodam.Execution
open Foundation

/-- What the environment variables of the process set. A table of slots has at most 2^31 of them. -/
structure Tuning where
  smallGroupLinearLimit : ℕ
  denseI32GroupIndexMaxSlots : ℕ
  denseI32GroupIndexMaxSlots_le : denseI32GroupIndexMaxSlots ≤ 2 ^ 31
  denseI32BatchAccumulateMaxSlots : ℕ
  denseI32BlockAccumulateSampleRows : ℕ
  denseI32BlockAccumulateSampleRows_ge : 64 ≤ denseI32BlockAccumulateSampleRows
  denseI32BlockAccumulateMaxSampleUnique : ℕ
  denseI32DirectUpdateEnabled : Bool
  primitivePageDenseI32AggregateEnabled : Bool
  primitivePageDenseI32MaxSlots : ℕ
  i32BatchGroupCacheEnabled : Bool
  i32BatchGroupCacheMaxSlots : ℕ

def Tuning.default : Tuning where
  smallGroupLinearLimit := 8
  denseI32GroupIndexMaxSlots := 65536
  denseI32GroupIndexMaxSlots_le := by decide
  denseI32BatchAccumulateMaxSlots := 65536
  denseI32BlockAccumulateSampleRows := 256
  denseI32BlockAccumulateSampleRows_ge := by decide
  denseI32BlockAccumulateMaxSampleUnique := 32
  denseI32DirectUpdateEnabled := false
  primitivePageDenseI32AggregateEnabled := false
  primitivePageDenseI32MaxSlots := 1000000
  i32BatchGroupCacheEnabled := false
  i32BatchGroupCacheMaxSlots := 4096

section Small
variable {κ : Type} [DecidableEq κ]

/-- The linear search of a short list of keys. -/
def smallGet (groups : List (κ × ℕ)) (key : κ) : Option ℕ :=
  (groups.find? fun e => e.1 = key).map Prod.snd

theorem smallGet_cons (e : κ × ℕ) (groups : List (κ × ℕ)) (key : κ) :
    smallGet (e :: groups) key = if e.1 = key then some e.2 else smallGet groups key := by
  unfold smallGet
  by_cases h : e.1 = key
  · rw [List.find?_cons_of_pos (by simpa using h),if_pos h]
    rfl
  · rw [List.find?_cons_of_neg (by simpa using h),if_neg h]

variable {groups : List (κ × ℕ)} {key : κ}

theorem smallGet_eq_none : smallGet groups key = none ↔ key ∉ groups.map Prod.fst := by
  induction groups with
  | nil => simp [smallGet]
  | cons e groups ih =>
    rw [smallGet_cons,List.map_cons,List.mem_cons]
    split_ifs with h
    · simp [h]
    · rw [ih]
      simp [Ne.symm h]

theorem smallGet_append (groups : List (κ × ℕ)) (e : κ × ℕ) (key : κ) :
    smallGet (groups ++ [e]) key =
      (smallGet groups key).or (if e.1 = key then some e.2 else none) := by
  induction groups with
  | nil =>
    rw [List.nil_append,smallGet_cons]
    rfl
  | cons e' groups ih =>
    rw [List.cons_append,smallGet_cons,smallGet_cons,ih]
    split_ifs <;> rfl

omit [DecidableEq κ] in
theorem nodup_push (hnodup : (groups.map Prod.fst).Nodup)
    (hnew : key ∉ groups.map Prod.fst) (id : ℕ) : ((groups ++ [(key,id)]).map Prod.fst).Nodup := by
  rw [List.map_append,List.map_singleton,List.nodup_append']
  refine ⟨hnodup,List.nodup_singleton _,fun k hk hk' => hnew ?_⟩
  obtain rfl : k = key := List.mem_singleton.mp hk'
  exact hk

theorem smallGet_push (hnew : key ∉ groups.map Prod.fst) (id : ℕ)
    (k : κ) : smallGet (groups ++ [(key,id)]) k = if k = key then some id else smallGet groups k := by
  rw [smallGet_append]
  by_cases hk : k = key
  · rw [hk,smallGet_eq_none.mpr hnew,if_pos rfl]
    rfl
  · rw [if_neg (Ne.symm hk),if_neg hk,Option.or_none]

theorem mem_iff_smallGet (hnodup : (groups.map Prod.fst).Nodup) {id : ℕ} :
    (key,id) ∈ groups ↔ smallGet groups key = some id := by
  induction groups with
  | nil => simp [smallGet]
  | cons e groups ih =>
    rw [List.map_cons,List.nodup_cons] at hnodup
    rw [smallGet_cons,List.mem_cons,ih hnodup.2]
    split_ifs with h
    · have hnone : smallGet groups key = none := smallGet_eq_none.mpr (h ▸ hnodup.1)
      rw [hnone,Prod.ext_iff,Option.some.injEq]
      simp [h,eq_comm]
    · simp [Prod.ext_iff,Ne.symm h]

end Small

/-- `AdaptiveCopyGroupIndex`: a short list, then a hash map. -/
inductive AdaptiveCopyGroupIndex
  | small (groups : List (ℤ × ℕ))
  | hash (groups : Map ℤ ℕ)

namespace AdaptiveCopyGroupIndex

def default : AdaptiveCopyGroupIndex := small []

def get (index : AdaptiveCopyGroupIndex) (key : ℤ) : Option ℕ :=
  match index with
  | small groups => smallGet groups key
  | hash groups => groups.lookup key

def hashOf (groups : List (ℤ × ℕ)) : Map ℤ ℕ := groups.foldl (fun map e => map.insert e.1 e.2) ∅

def insert (tuning : Tuning) (index : AdaptiveCopyGroupIndex) (key : ℤ) (groupId : ℕ) :
    AdaptiveCopyGroupIndex :=
  match index with
  | small groups =>
    if groups.length < tuning.smallGroupLinearLimit then small (groups ++ [(key,groupId)])
    else hash ((hashOf groups).insert key groupId)
  | hash groups => hash (groups.insert key groupId)

def iter : AdaptiveCopyGroupIndex → List (ℤ × ℕ)
  | small groups => groups
  | hash groups => groups.toPairs

def WF : AdaptiveCopyGroupIndex → Prop
  | small groups => (groups.map Prod.fst).Nodup
  | hash _ => True

end AdaptiveCopyGroupIndex

/-- `DenseI32GroupIndex`: a short list, slots over a range of keys, or a hash map. -/
inductive DenseI32GroupIndex
  | small (groups : List (ℤ × ℕ))
  | dense (min : ℤ) (slots : List (Option ℕ))
  | hash (groups : Map ℤ ℕ)

def denseI32SlotCount (tuning : Tuning) (min max : ℤ) : Option ℕ :=
  if 0 ≤ max - min + 1 ∧ max - min + 1 ≤ tuning.denseI32GroupIndexMaxSlots then
    some (max - min + 1).toNat
  else none

def fillSlots (min : ℤ) (groups : List (ℤ × ℕ)) (slots : List (Option ℕ)) : List (Option ℕ) :=
  groups.foldl (fun slots e => slots.set (e.1 - min).toNat (some e.2)) slots

/-- `key.checked_sub(min)`, as an index. -/
def denseOffset (min key : ℤ) : Option ℕ :=
  (checkedSigned 32 (key - min)).bind fun offset => if 0 ≤ offset then some offset.toNat else none

def minMaxI32WithNewKey (groups : List (ℤ × ℕ)) (key : ℤ) : ℤ × ℤ :=
  groups.foldl (fun range e => (min range.1 e.1,max range.2 e.1)) (key,key)

def expandDenseI32Slots (tuning : Tuning) (min : ℤ) (slots : List (Option ℕ)) (key : ℤ) :
    Option (ℤ × List (Option ℕ)) := do
  let length ← checkedSigned 32 slots.length
  let oldMax ← checkedSigned 32 (min + (length - 1))
  let newMin := Min.min min key
  let slotCount ← denseI32SlotCount tuning newMin (Max.max oldMax key)
  return (newMin,widenSlots slots (min - newMin).toNat slotCount)

namespace DenseI32GroupIndex

def default : DenseI32GroupIndex := small []

def get (index : DenseI32GroupIndex) (key : ℤ) : Option ℕ :=
  match index with
  | small groups => smallGet groups key
  | dense min slots => (denseOffset min key).bind fun offset => slots[offset]?.join
  | hash groups => groups.lookup key

/-- Slots for the keys so far and the given range, when they are few enough. -/
def ensureDenseRange (tuning : Tuning) (index : DenseI32GroupIndex) (min max : ℤ) (maxSlots : ℕ) :
    Bool × DenseI32GroupIndex :=
  match index with
  | small groups =>
    let rangeMin := groups.foldl (fun rangeMin e => Min.min rangeMin e.1) min
    let rangeMax := groups.foldl (fun rangeMax e => Max.max rangeMax e.1) max
    match denseI32SlotCount tuning rangeMin rangeMax with
    | none => (false,index)
    | some slotCount =>
      if maxSlots < slotCount then (false,index)
      else (true,dense rangeMin (fillSlots rangeMin groups (List.replicate slotCount none)))
  | dense denseMin slots =>
    let newMin := Min.min denseMin min
    match checkedSigned 32 (Max.max (denseMin + slots.length - 1) max) with
    | none => (false,index)
    | some newMax =>
      match denseI32SlotCount tuning newMin newMax with
      | none => (false,index)
      | some slotCount =>
        if maxSlots < slotCount then (false,index)
        else if newMin = denseMin ∧ slotCount = slots.length then (true,index)
        else (true,dense newMin (widenSlots slots (denseMin - newMin).toNat slotCount))
  | hash _ => (false,index)

/-- A key outside the slots: they grow, or they become a hash map. -/
def insertOutside (tuning : Tuning) (min : ℤ) (slots : List (Option ℕ)) (key : ℤ) (groupId : ℕ) :
    DenseI32GroupIndex :=
  (expandDenseI32Slots tuning min slots key).elim
    (hash ((AdaptiveCopyGroupIndex.hashOf (windowPairs min slots)).insert key groupId))
    fun expanded => dense expanded.1 (expanded.2.set (key - expanded.1).toNat (some groupId))

def insert (tuning : Tuning) (index : DenseI32GroupIndex) (key : ℤ) (groupId : ℕ) : DenseI32GroupIndex :=
  match index with
  | small groups =>
    if groups.length < tuning.smallGroupLinearLimit then small (groups ++ [(key,groupId)])
    else
      let range := minMaxI32WithNewKey groups key
      match denseI32SlotCount tuning range.1 range.2 with
      | some slotCount =>
        let slots := fillSlots range.1 groups (List.replicate slotCount none)
        dense range.1 (slots.set (key - range.1).toNat (some groupId))
      | none => hash ((AdaptiveCopyGroupIndex.hashOf groups).insert key groupId)
  | dense min slots =>
    match (denseOffset min key).filter (· < slots.length) with
    | some offset => dense min (slots.set offset (some groupId))
    | none => insertOutside tuning min slots key groupId
  | hash groups => hash (groups.insert key groupId)

def iter : DenseI32GroupIndex → List (ℤ × ℕ)
  | small groups => groups
  | dense min slots => windowPairs min slots
  | hash groups => groups.toPairs

def WF : DenseI32GroupIndex → Prop
  | small groups => (groups.map Prod.fst).Nodup ∧ ∀ e ∈ groups, InSigned 32 e.1
  | dense min slots => InSigned 32 min ∧ slots.length ≤ 2 ^ 31 ∧ min + slots.length ≤ 2 ^ 31
  | hash groups => ∀ e ∈ groups.toPairs, InSigned 32 e.1

end DenseI32GroupIndex

section Fill

variable {groups : List (ℤ × ℕ)}

theorem lookup_foldl_insert_small (hnodup : (groups.map Prod.fst).Nodup) (map : Map ℤ ℕ) (key : ℤ) :
    (groups.foldl (fun map e => map.insert e.1 e.2) map).lookup key =
      (smallGet groups key).or (map.lookup key) := by
  induction groups generalizing map with
  | nil => rfl
  | cons e groups ih =>
    rw [List.map_cons,List.nodup_cons] at hnodup
    rw [List.foldl_cons,ih hnodup.2,smallGet_cons]
    split_ifs with h
    · rw [smallGet_eq_none.mpr (h ▸ hnodup.1),← h,AList.lookup_insert]
      rfl
    · rw [AList.lookup_insert_ne (Ne.symm h)]

theorem lookup_hashOf (hnodup : (groups.map Prod.fst).Nodup) (key : ℤ) :
    (AdaptiveCopyGroupIndex.hashOf groups).lookup key = smallGet groups key := by
  rw [AdaptiveCopyGroupIndex.hashOf,lookup_foldl_insert_small hnodup,AList.lookup_empty,Option.or_none]

theorem length_fillSlots (min : ℤ) (groups : List (ℤ × ℕ)) (slots : List (Option ℕ)) :
    (fillSlots min groups slots).length = slots.length := by
  unfold fillSlots
  induction groups generalizing slots with
  | nil => rfl
  | cons e groups ih => rw [List.foldl_cons,ih,List.length_set]

theorem windowGet_fillSlots {min : ℤ} (hnodup : (groups.map Prod.fst).Nodup)
    {slots : List (Option ℕ)} (hrange : ∀ e ∈ groups, min ≤ e.1 ∧ e.1 < min + slots.length) (key : ℤ) :
    windowGet min (fillSlots min groups slots) key = (smallGet groups key).or (windowGet min slots key) := by
  unfold fillSlots
  induction groups generalizing slots with
  | nil => rfl
  | cons e groups ih =>
    rw [List.map_cons,List.nodup_cons] at hnodup
    obtain ⟨hmin,hlen⟩ := hrange e List.mem_cons_self
    rw [List.foldl_cons,ih hnodup.2,windowGet_set hmin hlen,smallGet_cons]
    · by_cases h : e.1 = key
      · rw [if_pos h,smallGet_eq_none.mpr (h ▸ hnodup.1),if_pos h.symm]
        rfl
      · rw [if_neg h,if_neg (Ne.symm h)]
    · rw [List.length_set]
      exact fun e' he' => hrange e' (List.mem_cons_of_mem _ he')

theorem windowGet_filled {min : ℤ} (hnodup : (groups.map Prod.fst).Nodup)
    {count : ℕ} (hrange : ∀ e ∈ groups, min ≤ e.1 ∧ e.1 < min + count) (key : ℤ) :
    windowGet min (fillSlots min groups (List.replicate count none)) key = smallGet groups key := by
  rw [windowGet_fillSlots hnodup,windowGet_replicate,Option.or_none]
  rw [List.length_replicate]
  exact hrange

theorem foldl_min_le (groups : List (ℤ × ℕ)) (start : ℤ) :
    groups.foldl (fun low e => min low e.1) start ≤ start ∧
      ∀ e ∈ groups, groups.foldl (fun low e => min low e.1) start ≤ e.1 := by
  induction groups generalizing start with
  | nil => exact ⟨le_rfl,fun e he => absurd he List.not_mem_nil⟩
  | cons e groups ih =>
    obtain ⟨hle,hall⟩ := ih (min start e.1)
    rw [List.foldl_cons]
    refine ⟨hle.trans (min_le_left _ _),fun e' he' => ?_⟩
    rcases List.mem_cons.mp he' with rfl | he'
    · exact hle.trans (min_le_right _ _)
    · exact hall e' he'

theorem le_foldl_max (groups : List (ℤ × ℕ)) (start : ℤ) :
    start ≤ groups.foldl (fun high e => max high e.1) start ∧
      ∀ e ∈ groups, e.1 ≤ groups.foldl (fun high e => max high e.1) start := by
  induction groups generalizing start with
  | nil => exact ⟨le_rfl,fun e he => absurd he List.not_mem_nil⟩
  | cons e groups ih =>
    obtain ⟨hle,hall⟩ := ih (max start e.1)
    rw [List.foldl_cons]
    refine ⟨(le_max_left _ _).trans hle,fun e' he' => ?_⟩
    rcases List.mem_cons.mp he' with rfl | he'
    · exact (le_max_right _ _).trans hle
    · exact hall e' he'

theorem foldl_min_mem {P : ℤ → Prop} (hgroups : ∀ e ∈ groups, P e.1) {start : ℤ}
    (hstart : P start) : P (groups.foldl (fun low e => min low e.1) start) := by
  induction groups generalizing start with
  | nil => exact hstart
  | cons e groups ih =>
    refine ih (fun e' he' => hgroups e' (List.mem_cons_of_mem _ he')) ?_
    change P (min start e.1)
    rcases min_choice start e.1 with h | h
    · exact h.symm ▸ hstart
    · exact h.symm ▸ hgroups e List.mem_cons_self

theorem foldl_max_mem {P : ℤ → Prop} (hgroups : ∀ e ∈ groups, P e.1) {start : ℤ}
    (hstart : P start) : P (groups.foldl (fun high e => max high e.1) start) := by
  induction groups generalizing start with
  | nil => exact hstart
  | cons e groups ih =>
    refine ih (fun e' he' => hgroups e' (List.mem_cons_of_mem _ he')) ?_
    change P (max start e.1)
    rcases max_choice start e.1 with h | h
    · exact h.symm ▸ hstart
    · exact h.symm ▸ hgroups e List.mem_cons_self

theorem minMaxI32WithNewKey_eq (groups : List (ℤ × ℕ)) (key : ℤ) :
    minMaxI32WithNewKey groups key = (groups.foldl (fun low e => min low e.1) key,
      groups.foldl (fun high e => max high e.1) key) := by
  suffices h : ∀ low high, groups.foldl (fun range e => (min range.1 e.1,max range.2 e.1)) (low,high) =
      (groups.foldl (fun low e => min low e.1) low,groups.foldl (fun high e => max high e.1) high) from
    h key key
  induction groups with
  | nil => exact fun _ _ => rfl
  | cons e groups ih => exact fun low high => ih _ _

theorem denseI32SlotCount_eq_some {tuning : Tuning} {low high : ℤ} {count : ℕ}
    (h : denseI32SlotCount tuning low high = some count) :
    (count : ℤ) = high - low + 1 ∧ count ≤ 2 ^ 31 := by
  have hmax := tuning.denseI32GroupIndexMaxSlots_le
  unfold denseI32SlotCount at h
  split_ifs at h with hspan
  obtain rfl := Option.some.inj h
  omega

end Fill

namespace AdaptiveCopyGroupIndex

variable {key : ℤ} {index : AdaptiveCopyGroupIndex}

theorem insert_spec (tuning : Tuning) (hwf : index.WF) {id : ℕ} (hnone : index.get key = none) :
    (index.insert tuning key id).WF ∧ ∀ k, (index.insert tuning key id).get k =
      if k = key then some id else index.get k := by
  cases index with
  | small groups =>
    have hnew : key ∉ groups.map Prod.fst := smallGet_eq_none.mp hnone
    unfold insert
    dsimp only
    split_ifs
    · exact ⟨nodup_push hwf hnew id,smallGet_push hnew id⟩
    · refine ⟨trivial,fun k => ?_⟩
      change ((hashOf groups).insert key id).lookup k = if k = key then some id else smallGet groups k
      split_ifs with hk
      · rw [hk,AList.lookup_insert]
      · rw [AList.lookup_insert_ne hk,lookup_hashOf hwf]
  | hash groups =>
    refine ⟨trivial,fun k => ?_⟩
    change (groups.insert key id).lookup k = if k = key then some id else groups.lookup k
    split_ifs with hk
    · rw [hk,AList.lookup_insert]
    · rw [AList.lookup_insert_ne hk]

theorem mem_iter (hwf : index.WF) {id : ℕ} : (key,id) ∈ index.iter ↔ index.get key = some id := by
  cases index with
  | small groups => exact mem_iff_smallGet hwf
  | hash groups => exact Map.mem_toPairs

theorem nodup_iter (hwf : index.WF) : (index.iter.map Prod.fst).Nodup := by
  cases index with
  | small groups => exact hwf
  | hash groups => exact groups.nodup_toPairs_fst

end AdaptiveCopyGroupIndex

open AdaptiveCopyGroupIndex

namespace DenseI32GroupIndex

variable {key : ℤ}

theorem denseOffset_eq_some {min : ℤ} {offset : ℕ} :
    denseOffset min key = some offset ↔ InSigned 32 (key - min) ∧ key - min = offset := by
  unfold denseOffset checkedSigned
  split_ifs with h
  · rw [Option.bind_some]
    split_ifs with h0
    · rw [Option.some.injEq]
      exact ⟨fun heq => ⟨h,by omega⟩,fun heq => by omega⟩
    · refine iff_of_false (by simp) ?_
      rintro ⟨-,heq⟩
      omega
  · exact iff_of_false (by simp) fun hand => h hand.1

variable {low : ℤ} {slots : List (Option ℕ)}

theorem get_dense (hwf : (dense low slots).WF)
    (hkey : InSigned 32 key) : (dense low slots).get key = windowGet low slots key := by
  obtain ⟨⟨hlow,hhigh⟩,hlen,hend⟩ := hwf
  obtain ⟨hkl,hkh⟩ := hkey
  change (denseOffset low key).bind (fun offset => slots[offset]?.join) = _
  cases hoffset : denseOffset low key with
  | some offset =>
    obtain ⟨-,heq⟩ := denseOffset_eq_some.mp hoffset
    have hle : low ≤ key := by omega
    unfold windowGet
    rw [if_pos hle,heq]
    rfl
  | none =>
    by_cases hle : low ≤ key
    · rw [windowGet_of_ge]
      · rfl
      · by_contra hlt
        have hin : InSigned 32 (key - low) := by
          constructor
          · norm_num
            omega
          · norm_num
            omega
        rw [denseOffset_eq_some.mpr ⟨hin,(Int.toNat_of_nonneg (by omega)).symm⟩] at hoffset
        cases hoffset
    · rw [windowGet_of_lt (by omega)]
      rfl

/-- What an operation on the index may change. -/
structure Extends (index index' : DenseI32GroupIndex) (new : ℤ → Option ℕ) : Prop where
  wf : index'.WF
  get : ∀ k, InSigned 32 k → index'.get k = (new k).or (index.get k)

theorem dense_wf {high : ℤ} (hlow : InSigned 32 low)
    (hhigh : InSigned 32 high) (hlen : (slots.length : ℤ) = high - low + 1) (hle : slots.length ≤ 2 ^ 31) :
    (dense low slots).WF := by
  refine ⟨hlow,hle,?_⟩
  have := hhigh.2
  norm_num at this ⊢
  omega

def Covers (index : DenseI32GroupIndex) (low high : ℤ) : Prop :=
  ∃ min slots, index = dense min slots ∧ min ≤ low ∧ high < min + slots.length

variable {index : DenseI32GroupIndex}

theorem ensureDenseRange_spec (tuning : Tuning) (hwf : index.WF) {high : ℤ}
    (hlow : InSigned 32 low) (hhigh : InSigned 32 high) (maxSlots : ℕ) :
    Extends index (index.ensureDenseRange tuning low high maxSlots).2 (fun _ => none) ∧
      ((index.ensureDenseRange tuning low high maxSlots).1 = true →
        Covers (index.ensureDenseRange tuning low high maxSlots).2 low high) := by
  have hsame : Extends index index (fun _ => none) := ⟨hwf,fun _ _ => rfl⟩
  cases index with
  | small groups =>
    obtain ⟨hnodup,hkeys⟩ := hwf
    obtain ⟨hmin,hmins⟩ := foldl_min_le groups low
    obtain ⟨hmax,hmaxs⟩ := le_foldl_max groups high
    have hmin' : InSigned 32 (groups.foldl (fun low e => min low e.1) low) := foldl_min_mem hkeys hlow
    have hmax' : InSigned 32 (groups.foldl (fun high e => max high e.1) high) := foldl_max_mem hkeys hhigh
    unfold ensureDenseRange
    dsimp only
    generalize groups.foldl (fun low e => min low e.1) low = rangeMin at *
    generalize groups.foldl (fun high e => max high e.1) high = rangeMax at *
    cases hcount : denseI32SlotCount tuning rangeMin rangeMax with
    | none => exact ⟨hsame,fun h => absurd h Bool.false_ne_true⟩
    | some count =>
      dsimp only
      split_ifs with hslots
      · exact ⟨hsame,fun h => h.elim⟩
      · obtain ⟨hspan,hle⟩ := denseI32SlotCount_eq_some hcount
        have hlen : (fillSlots rangeMin groups (List.replicate count none)).length = count := by
          rw [length_fillSlots,List.length_replicate]
        have hdense : (dense rangeMin (fillSlots rangeMin groups (List.replicate count none))).WF :=
          dense_wf hmin' hmax' (by rw [hlen,hspan]) (by rw [hlen]; exact hle)
        refine ⟨⟨hdense,fun k hk => ?_⟩,fun _ => ⟨rangeMin,_,rfl,hmin,by rw [hlen]; omega⟩⟩
        rw [get_dense hdense hk,windowGet_filled hnodup]
        · rfl
        · intro e he
          have := hmins e he
          have := hmaxs e he
          omega
  | dense denseMin slots =>
    unfold ensureDenseRange
    dsimp only
    cases hnew : checkedSigned 32 (max (denseMin + slots.length - 1) high) with
    | none => exact ⟨hsame,fun h => absurd h Bool.false_ne_true⟩
    | some newMax =>
      obtain ⟨hin,rfl⟩ := checkedSigned_eq_some.mp hnew
      dsimp only
      cases hcount : denseI32SlotCount tuning (min denseMin low) (max (denseMin + slots.length - 1) high) with
      | none => exact ⟨hsame,fun h => absurd h Bool.false_ne_true⟩
      | some count =>
        obtain ⟨hspan,hle⟩ := denseI32SlotCount_eq_some hcount
        dsimp only
        split_ifs with hslots hfits
        · exact ⟨hsame,fun h => h.elim⟩
        · refine ⟨hsame,fun _ => ⟨denseMin,slots,rfl,?_,?_⟩⟩
          · omega
          · omega
        · have hbefore : ((denseMin - min denseMin low).toNat : ℤ) = denseMin - min denseMin low := by omega
          have hlen : (widenSlots slots (denseMin - min denseMin low).toNat count).length = count :=
            length_widenSlots (by omega)
          have hmin' : InSigned 32 (min denseMin low) := by
            rcases min_choice denseMin low with h | h
            · exact h.symm ▸ hwf.1
            · exact h.symm ▸ hlow
          have hdense : (dense (min denseMin low)
              (widenSlots slots (denseMin - min denseMin low).toNat count)).WF :=
            dense_wf hmin' hin (by rw [hlen,hspan]) (by rw [hlen]; exact hle)
          refine ⟨⟨hdense,fun k hk => ?_⟩,fun _ => ⟨_,_,rfl,min_le_right _ _,by rw [hlen]; omega⟩⟩
          have hwiden := windowGet_widen slots (denseMin - min denseMin low).toNat count denseMin k
          rw [hbefore,sub_sub_cancel] at hwiden
          rw [get_dense hdense hk,get_dense hwf hk,hwiden]
          rfl
  | hash groups => exact ⟨hsame,fun h => absurd h Bool.false_ne_true⟩

theorem hash_spec {groups : List (ℤ × ℕ)} (hnodup : (groups.map Prod.fst).Nodup)
    (hkeys : ∀ e ∈ groups, InSigned 32 e.1) (hkey : InSigned 32 key) (id : ℕ) :
    (hash ((hashOf groups).insert key id)).WF ∧ ∀ k,
      (hash ((hashOf groups).insert key id)).get k =
        if k = key then some id else smallGet groups k := by
  have hget : ∀ k, ((hashOf groups).insert key id).lookup k =
      if k = key then some id else smallGet groups k := by
    intro k
    split_ifs with hk
    · rw [hk,AList.lookup_insert]
    · rw [AList.lookup_insert_ne hk,lookup_hashOf hnodup]
  refine ⟨fun e he => ?_,hget⟩
  have hlookup := Map.mem_toPairs.mp he
  rw [hget] at hlookup
  split_ifs at hlookup with hk
  · exact hk ▸ hkey
  · exact hkeys e ((mem_iff_smallGet hnodup).mpr hlookup)

theorem nodup_windowPairs (low : ℤ) (slots : List (Option ℕ)) :
    ((windowPairs low slots).map Prod.fst).Nodup :=
  (windowPairs_sorted low slots).1.imp fun h => h.ne

theorem smallGet_windowPairs (low : ℤ) (slots : List (Option ℕ)) (key : ℤ) :
    smallGet (windowPairs low slots) key = windowGet low slots key := by
  refine Option.ext fun id => ?_
  rw [← mem_iff_smallGet (nodup_windowPairs low slots)]
  exact mem_windowPairs

theorem mem_windowPairs_inSigned (hwf : (dense low slots).WF)
    {e : ℤ × ℕ} (he : e ∈ windowPairs low slots) : InSigned 32 e.1 := by
  obtain ⟨hlow,-,hend⟩ := hwf
  obtain ⟨i,heq,hi⟩ := windowGet_eq_some.mp (mem_windowPairs.mp he)
  have hlen : i < slots.length := (List.getElem?_eq_some_iff.mp hi).1
  have := hlow.1
  constructor
  · norm_num at this ⊢
    omega
  · norm_num
    omega

theorem expandDenseI32Slots_eq_some {tuning : Tuning} {newLow : ℤ}
    {newSlots : List (Option ℕ)} (h : expandDenseI32Slots tuning low slots key = some (newLow,newSlots)) :
    newLow = min low key ∧ ∃ count : ℕ, newSlots = widenSlots slots (low - newLow).toNat count ∧
      (count : ℤ) = max (low + (slots.length - 1)) key - newLow + 1 ∧ count ≤ 2 ^ 31 ∧
      InSigned 32 (low + (slots.length - 1)) := by
  unfold expandDenseI32Slots at h
  obtain ⟨length,hlength,hrest⟩ := Option.bind_eq_some_iff.mp h
  obtain ⟨oldMax,hold,hnew⟩ := Option.bind_eq_some_iff.mp hrest
  obtain ⟨count,hcount,heq⟩ := Option.bind_eq_some_iff.mp hnew
  obtain ⟨-,rfl⟩ := checkedSigned_eq_some.mp hlength
  obtain ⟨hin,rfl⟩ := checkedSigned_eq_some.mp hold
  obtain ⟨hspan,hle⟩ := denseI32SlotCount_eq_some hcount
  obtain ⟨rfl,rfl⟩ := Prod.mk.inj (Option.some.inj heq)
  exact ⟨rfl,count,rfl,hspan,hle,hin⟩

theorem insert_dense_cases (tuning : Tuning) (low : ℤ) (slots : List (Option ℕ)) (key : ℤ) (id : ℕ) :
    (∃ offset, denseOffset low key = some offset ∧ offset < slots.length ∧
      (dense low slots).insert tuning key id = dense low (slots.set offset (some id))) ∨
    (∃ newLow newSlots, expandDenseI32Slots tuning low slots key = some (newLow,newSlots) ∧
      (dense low slots).insert tuning key id =
        dense newLow (newSlots.set (key - newLow).toNat (some id))) ∨
    (dense low slots).insert tuning key id =
      hash ((hashOf (windowPairs low slots)).insert key id) := by
  cases hoffset : (denseOffset low key).filter (· < slots.length) with
  | some offset =>
    obtain ⟨hsome,hlt⟩ := Option.filter_eq_some_iff.mp hoffset
    refine Or.inl ⟨offset,hsome,of_decide_eq_true hlt,?_⟩
    simp only [insert,hoffset]
  | none =>
    have hinsert : (dense low slots).insert tuning key id = insertOutside tuning low slots key id := by
      simp only [insert,hoffset]
    rw [hinsert]
    unfold insertOutside
    cases expandDenseI32Slots tuning low slots key with
    | some expanded => exact Or.inr (Or.inl ⟨expanded.1,expanded.2,rfl,rfl⟩)
    | none => exact Or.inr (Or.inr rfl)

theorem insert_dense_spec (tuning : Tuning) (hwf : (dense low slots).WF) (hkey : InSigned 32 key) {id : ℕ} :
    ((dense low slots).insert tuning key id).WF ∧ ∀ k, InSigned 32 k →
      ((dense low slots).insert tuning key id).get k =
        if k = key then some id else (dense low slots).get k := by
  rcases insert_dense_cases tuning low slots key id with
    ⟨offset,hsome,hlt,heq⟩ | ⟨newLow,newSlots,hexpand,heq⟩ | heq
  · obtain ⟨-,hoffset⟩ := denseOffset_eq_some.mp hsome
    have hdense : (dense low (slots.set offset (some id))).WF :=
      ⟨hwf.1,by rw [List.length_set]; exact hwf.2.1,by rw [List.length_set]; exact hwf.2.2⟩
    rw [heq]
    refine ⟨hdense,fun k hk => ?_⟩
    have hto : (key - low).toNat = offset := by omega
    rw [get_dense hdense hk,get_dense hwf hk,← hto,windowGet_set (by omega) (by omega)]
  · obtain ⟨rfl,count,rfl,hspan,hle,hold⟩ := expandDenseI32Slots_eq_some hexpand
    have hbefore : ((low - min low key).toNat : ℤ) = low - min low key := by omega
    have hlen : (widenSlots slots (low - min low key).toNat count).length = count :=
      length_widenSlots (by omega)
    have hlow : InSigned 32 (min low key) := by
      rcases min_choice low key with h | h
      · exact h.symm ▸ hwf.1
      · exact h.symm ▸ hkey
    have hhigh : InSigned 32 (max (low + (slots.length - 1)) key) := by
      rcases max_choice (low + (slots.length - 1)) key with h | h
      · exact h.symm ▸ hold
      · exact h.symm ▸ hkey
    have hdense : (dense (min low key) ((widenSlots slots (low - min low key).toNat count).set
        (key - min low key).toNat (some id))).WF :=
      dense_wf hlow hhigh (by rw [List.length_set,hlen,hspan]) (by rw [List.length_set,hlen]; exact hle)
    rw [heq]
    refine ⟨hdense,fun k hk => ?_⟩
    have hwiden := windowGet_widen slots (low - min low key).toNat count low k
    rw [hbefore,sub_sub_cancel] at hwiden
    rw [get_dense hdense hk,get_dense hwf hk,windowGet_set (min_le_right _ _) (by rw [hlen]; omega),hwiden]
  · obtain ⟨hhash,hget⟩ := hash_spec (nodup_windowPairs low slots)
      (fun e he => mem_windowPairs_inSigned hwf he) hkey id
    rw [heq]
    refine ⟨hhash,fun k hk => ?_⟩
    rw [get_dense hwf hk,← smallGet_windowPairs]
    exact hget k

theorem insert_spec (tuning : Tuning) (hwf : index.WF)
    (hkey : InSigned 32 key) {id : ℕ} (hnone : index.get key = none) :
    (index.insert tuning key id).WF ∧ ∀ k, InSigned 32 k → (index.insert tuning key id).get k =
      if k = key then some id else index.get k := by
  cases index with
  | small groups =>
    obtain ⟨hnodup,hkeys⟩ := hwf
    have hnew : key ∉ groups.map Prod.fst := smallGet_eq_none.mp hnone
    unfold insert
    dsimp only
    split_ifs with hsmall
    · refine ⟨⟨nodup_push hnodup hnew id,fun e he => ?_⟩,fun k _ => smallGet_push hnew id k⟩
      rcases List.mem_append.mp he with he | he
      · exact hkeys e he
      · rw [List.mem_singleton.mp he]
        exact hkey
    · rw [minMaxI32WithNewKey_eq]
      obtain ⟨hmin,hmins⟩ := foldl_min_le groups key
      obtain ⟨hmax,hmaxs⟩ := le_foldl_max groups key
      have hmin' : InSigned 32 (groups.foldl (fun low e => min low e.1) key) := foldl_min_mem hkeys hkey
      have hmax' : InSigned 32 (groups.foldl (fun high e => max high e.1) key) := foldl_max_mem hkeys hkey
      generalize groups.foldl (fun low e => min low e.1) key = low at *
      generalize groups.foldl (fun high e => max high e.1) key = high at *
      cases hcount : denseI32SlotCount tuning low high with
      | none =>
        obtain ⟨hhash,hget⟩ := hash_spec hnodup hkeys hkey id
        exact ⟨hhash,fun k _ => hget k⟩
      | some count =>
        obtain ⟨hspan,hle⟩ := denseI32SlotCount_eq_some hcount
        have hlen : (fillSlots low groups (List.replicate count none)).length = count := by
          rw [length_fillSlots,List.length_replicate]
        have hdense : (dense low ((fillSlots low groups (List.replicate count none)).set (key - low).toNat
            (some id))).WF :=
          dense_wf hmin' hmax' (by rw [List.length_set,hlen,hspan]) (by rw [List.length_set,hlen]; exact hle)
        refine ⟨hdense,fun k hk => ?_⟩
        rw [get_dense hdense hk,windowGet_set hmin (by rw [hlen]; omega),windowGet_filled hnodup]
        · rfl
        · intro e he
          have := hmins e he
          have := hmaxs e he
          omega
  | dense low slots => exact insert_dense_spec tuning hwf hkey
  | hash groups =>
    have hget : ∀ k, (groups.insert key id).lookup k = if k = key then some id else groups.lookup k := by
      intro k
      split_ifs with hk
      · rw [hk,AList.lookup_insert]
      · rw [AList.lookup_insert_ne hk]
    refine ⟨fun e he => ?_,fun k _ => hget k⟩
    have hlookup := Map.mem_toPairs.mp he
    rw [hget] at hlookup
    split_ifs at hlookup with hk
    · exact hk ▸ hkey
    · exact hwf e (Map.mem_toPairs.mpr hlookup)

theorem mem_iter (hwf : index.WF) {id : ℕ} :
    (key,id) ∈ index.iter ↔ InSigned 32 key ∧ index.get key = some id := by
  cases index with
  | small groups =>
    refine ⟨fun h => ⟨hwf.2 _ h,(mem_iff_smallGet hwf.1).mp h⟩,fun h => (mem_iff_smallGet hwf.1).mpr h.2⟩
  | dense low slots =>
    constructor
    · intro h
      have hkey : InSigned 32 key := mem_windowPairs_inSigned hwf h
      exact ⟨hkey,(get_dense hwf hkey).trans (mem_windowPairs.mp h)⟩
    · rintro ⟨hkey,hget⟩
      rw [get_dense hwf hkey] at hget
      exact mem_windowPairs.mpr hget
  | hash groups =>
    exact ⟨fun h => ⟨hwf _ h,Map.mem_toPairs.mp h⟩,fun h => Map.mem_toPairs.mpr h.2⟩

theorem nodup_iter (hwf : index.WF) : (index.iter.map Prod.fst).Nodup := by
  cases index with
  | small groups => exact hwf.1
  | dense low slots => exact nodup_windowPairs low slots
  | hash groups => exact groups.nodup_toPairs_fst

end DenseI32GroupIndex
end Dodam.Execution

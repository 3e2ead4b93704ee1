import Dodam.Execution.Aggregate.GroupIndex

/-! # Runs of the group indexes

Inserts of new keys and requests for dense ranges, with every index computed in 32 bits under
any limit of slots. With 2^31 slots a request can ask for an offset that is no 32-bit integer.
-/
namespace Dodam.Execution
open Foundation Execution

/-- The two limits, which the environment may set to any number. -/
structure SlotLimits where
  smallGroupLinearLimit : ℕ
  denseI32GroupIndexMaxSlots : ℕ

/-- The position of a key among the slots: none where the subtraction overflows or the position is past the end. -/
def slotPosition (min : ℤ) (slots : List (Option ℕ)) (key : ℤ) : Option ℕ :=
  (denseOffset min key).filter (· < slots.length)

def placeEntries (min : ℤ) (slots : List (Option ℕ)) (entries : List (ℤ × ℕ)) : Option (List (Option ℕ)) :=
  entries.foldlM (fun slots e => (slotPosition min slots e.1).map fun i => slots.set i (some e.2)) slots

/-- Old slots copied from a position on: none where they reach past the end. -/
def copySlots (slots : List (Option ℕ)) (before count : ℕ) : Option (List (Option ℕ)) :=
  if before + slots.length ≤ count then some (widenSlots slots before count) else none

namespace SlotLimits
variable (limits : SlotLimits)

def denseI32SlotCount (min max : ℤ) : Option ℕ :=
  if 0 ≤ max - min + 1 ∧ max - min + 1 ≤ limits.denseI32GroupIndexMaxSlots then some (max - min + 1).toNat else none

/-- `Some` when the slots were expanded, with what the copy gives. -/
def expandDenseI32Slots (min : ℤ) (slots : List (Option ℕ)) (key : ℤ) : Option (ℤ × Option (List (Option ℕ))) := do
  let length ← checkedSigned 32 slots.length
  let oldMax ← checkedSigned 32 (min + (length - 1))
  let newMin := Min.min min key
  let slotCount ← limits.denseI32SlotCount newMin (Max.max oldMax key)
  return (newMin,copySlots slots (min - newMin).toNat slotCount)

end SlotLimits

namespace DenseI32GroupIndex
variable (limits : SlotLimits)

/-- `ensure_dense_range`; none where an index overflows or is out of range. -/
def ensureDenseRangeI32 (index : DenseI32GroupIndex) (min max : ℤ) (maxSlots : ℕ) : Option (Bool × DenseI32GroupIndex) :=
  match index with
  | small groups =>
    let rangeMin := groups.foldl (fun rangeMin e => Min.min rangeMin e.1) min
    let rangeMax := groups.foldl (fun rangeMax e => Max.max rangeMax e.1) max
    match limits.denseI32SlotCount rangeMin rangeMax with
    | none => some (false,index)
    | some slotCount =>
      if maxSlots < slotCount then some (false,index)
      else (placeEntries rangeMin (List.replicate slotCount none) groups).map fun slots => (true,dense rangeMin slots)
  | dense denseMin slots =>
    let newMin := Min.min denseMin min
    match checkedSigned 32 (Max.max (denseMin + slots.length - 1) max) with
    | none => some (false,index)
    | some newMax =>
      match limits.denseI32SlotCount newMin newMax with
      | none => some (false,index)
      | some slotCount =>
        if maxSlots < slotCount then some (false,index)
        else if newMin = denseMin ∧ slotCount = slots.length then some (true,index)
        else (denseOffset newMin denseMin).bind fun baseOffset =>
          (copySlots slots baseOffset slotCount).map fun slots => (true,dense newMin slots)
  | hash _ => some (false,index)

/-- A key outside the slots: they grow, or the entries whose keys are 32-bit integers become a hash map. -/
def insertOutsideI32 (min : ℤ) (slots : List (Option ℕ)) (key : ℤ) (groupId : ℕ) : Option DenseI32GroupIndex :=
  (limits.expandDenseI32Slots min slots key).elim
    (some (hash ((AdaptiveCopyGroupIndex.hashOf
      ((windowPairs min slots).filter fun e => (checkedSigned 32 e.1).isSome)).insert key groupId)))
    fun expanded => expanded.2.bind fun newSlots =>
      (placeEntries expanded.1 newSlots [(key,groupId)]).map fun slots => dense expanded.1 slots

/-- `insert`; none where an index overflows or is out of range. -/
def insertI32 (index : DenseI32GroupIndex) (key : ℤ) (groupId : ℕ) : Option DenseI32GroupIndex :=
  match index with
  | small groups =>
    if groups.length < limits.smallGroupLinearLimit then some (small (groups ++ [(key,groupId)]))
    else
      let range := minMaxI32WithNewKey groups key
      match limits.denseI32SlotCount range.1 range.2 with
      | some slotCount =>
        (placeEntries range.1 (List.replicate slotCount none) (groups ++ [(key,groupId)])).map fun slots =>
          dense range.1 slots
      | none => some (hash ((AdaptiveCopyGroupIndex.hashOf groups).insert key groupId))
  | dense min slots =>
    match slotPosition min slots key with
    | some offset => some (dense min (slots.set offset (some groupId)))
    | none => insertOutsideI32 limits min slots key groupId
  | hash groups => some (hash (groups.insert key groupId))

end DenseI32GroupIndex

/-- `DenseI32GroupIndexIter`: the entries of a list or a hash map, or the slots from an offset on. -/
inductive DenseI32GroupIndexIter
  | entries (rest : List (ℤ × ℕ))
  | dense (min : ℤ) (offset : ℕ) (slots : List (Option ℕ))

namespace DenseI32GroupIndexIter

/-- The next slot that holds a group, and the offset behind it. -/
def nextSlot (min : ℤ) (offset : ℕ) : List (Option ℕ) → Option ((ℤ × ℕ) × ℕ)
  | [] => none
  | none :: slots => nextSlot min (offset + 1) slots
  | some groupId :: _ => (checkedSigned 32 (min + offset)).map fun key => ((key,groupId),offset + 1)

def next : DenseI32GroupIndexIter → Option ((ℤ × ℕ) × DenseI32GroupIndexIter)
  | entries [] => none
  | entries (entry :: rest) => some (entry,entries rest)
  | dense min offset slots =>
    (nextSlot min offset (slots.drop offset)).map fun found => (found.1,dense min found.2 slots)

inductive Yields : DenseI32GroupIndexIter → List (ℤ × ℕ) → Prop
  | done {iter : DenseI32GroupIndexIter} (h : iter.next = none) : Yields iter []
  | more {iter iter' : DenseI32GroupIndexIter} {entry : ℤ × ℕ} {rest : List (ℤ × ℕ)} (h : iter.next = some (entry,iter'))
    (hrest : Yields iter' rest) : Yields iter (entry :: rest)

end DenseI32GroupIndexIter

/-- `iter`, before the first entry. -/
def DenseI32GroupIndex.startIter : DenseI32GroupIndex → DenseI32GroupIndexIter
  | small groups => .entries groups
  | dense min slots => .dense min 0 slots
  | hash groups => .entries groups.toPairs

section Run

inductive IndexCall
  | insert (key : ℤ) (groupId : ℕ)
  | ensureDenseRange (min max : ℤ) (maxSlots : ℕ)

def IndexCall.inserted : IndexCall → Option (ℤ × ℕ)
  | insert key groupId => some (key,groupId)
  | ensureDenseRange _ _ _ => none

def insertedBy (calls : List IndexCall) : List (ℤ × ℕ) := calls.filterMap IndexCall.inserted

def IndexCall.InRange : IndexCall → Prop
  | insert key _ => InSigned 32 key
  | ensureDenseRange min max _ => InSigned 32 min ∧ InSigned 32 max

structure NewKeys (calls : List IndexCall) : Prop where
  inRange : ∀ call ∈ calls, call.InRange
  nodup : ((insertedBy calls).map Prod.fst).Nodup

def DenseI32GroupIndex.call (limits : SlotLimits) (index : DenseI32GroupIndex) : IndexCall → Option DenseI32GroupIndex
  | .insert key groupId => index.insertI32 limits key groupId
  | .ensureDenseRange min max maxSlots => (index.ensureDenseRangeI32 limits min max maxSlots).map Prod.snd

/-- The index is the map of some entries, and a refused request leaves it as it is. -/
structure DenseI32GroupIndex.IsMapOf (limits : SlotLimits) (entries : List (ℤ × ℕ)) (index : DenseI32GroupIndex) :
    Prop where
  get : ∀ key, InSigned 32 key → index.get key = smallGet entries key
  iter : ∃ found, index.startIter.Yields found ∧ found.Perm entries ∧
    ∀ min slots, index = dense min slots → (found.map Prod.fst).Pairwise (· < ·)
  answers : ∀ min max maxSlots, InSigned 32 min → InSigned 32 max → ∃ answer index',
    index.ensureDenseRangeI32 limits min max maxSlots = some (answer,index') ∧ (answer = false → index' = index)

end Run

section Calls
variable {calls : List IndexCall} {call : IndexCall}

theorem insertedBy_concat (calls : List IndexCall) (call : IndexCall) :
    insertedBy (calls ++ [call]) = insertedBy calls ++ call.inserted.toList := by
  rw [insertedBy,List.filterMap_append]
  cases h : call.inserted <;> simp [insertedBy,h]

theorem NewKeys.of_concat (h : NewKeys (calls ++ [call])) :
    NewKeys calls := by
  refine ⟨fun c hc => h.inRange c (List.mem_append_left _ hc),?_⟩
  have hnodup := h.nodup
  rw [insertedBy_concat,List.map_append] at hnodup
  exact hnodup.of_append_left

end Calls

section Positions
variable {min : ℤ} {slots : List (Option ℕ)}

theorem slotPosition_of_mem (hlen : slots.length ≤ 2 ^ 31) {key : ℤ} (hlow : min ≤ key) (hhigh : key < min + slots.length) :
    slotPosition min slots key = some (key - min).toNat := by
  have hoffset : denseOffset min key = some (key - min).toNat := by
    refine DenseI32GroupIndex.denseOffset_eq_some.mpr ⟨?_,(Int.toNat_of_nonneg (by omega)).symm⟩
    unfold InSigned
    omega
  rw [slotPosition,hoffset,Option.filter_some,if_pos]
  rw [decide_eq_true_eq]
  omega

theorem placeEntries_eq (hlen : slots.length ≤ 2 ^ 31) {entries : List (ℤ × ℕ)}
    (hentries : ∀ e ∈ entries, min ≤ e.1 ∧ e.1 < min + slots.length) :
    placeEntries min slots entries = some (fillSlots min entries slots) := by
  induction entries generalizing slots with
  | nil => rfl
  | cons e entries ih =>
    obtain ⟨hlow,hhigh⟩ := hentries e List.mem_cons_self
    have hrest := @ih (slots.set (e.1 - min).toNat (some e.2)) (by rw [List.length_set]; exact hlen)
      (by rw [List.length_set]; exact fun e he => hentries e (List.mem_cons_of_mem _ he))
    unfold placeEntries at hrest ⊢
    rw [List.foldlM_cons,slotPosition_of_mem hlen hlow hhigh]
    exact hrest

theorem copySlots_eq {before count : ℕ} (h : before + slots.length ≤ count) :
    copySlots slots before count = some (widenSlots slots before count) := if_pos h

end Positions

namespace SlotLimits

/-- The limits as they are when the slots are not too many. -/
def tuning (limits : SlotLimits) (h : limits.denseI32GroupIndexMaxSlots < 2 ^ 31) : Tuning :=
  { Tuning.default with
    smallGroupLinearLimit := limits.smallGroupLinearLimit
    denseI32GroupIndexMaxSlots := limits.denseI32GroupIndexMaxSlots
    denseI32GroupIndexMaxSlots_le := h.le }

theorem denseI32SlotCount_eq (limits : SlotLimits) (h : limits.denseI32GroupIndexMaxSlots < 2 ^ 31) (low high : ℤ) :
    limits.denseI32SlotCount low high = Execution.denseI32SlotCount (limits.tuning h) low high := rfl

theorem smallGroupLinearLimit_tuning (limits : SlotLimits) (h : limits.denseI32GroupIndexMaxSlots < 2 ^ 31) :
    (limits.tuning h).smallGroupLinearLimit = limits.smallGroupLinearLimit := rfl

theorem denseI32SlotCount_lt {limits : SlotLimits} (h : limits.denseI32GroupIndexMaxSlots < 2 ^ 31) {low high : ℤ}
    {count : ℕ} (hcount : Execution.denseI32SlotCount (limits.tuning h) low high = some count) :
    (count : ℤ) = high - low + 1 ∧ count < 2 ^ 31 := by
  obtain ⟨hspan,-⟩ := denseI32SlotCount_eq_some hcount
  refine ⟨hspan,?_⟩
  unfold Execution.denseI32SlotCount at hcount
  split_ifs at hcount with hrange
  have hle : high - low + 1 ≤ limits.denseI32GroupIndexMaxSlots := hrange.2
  omega

end SlotLimits

namespace DenseI32GroupIndex
variable {limits : SlotLimits} (hlimit : limits.denseI32GroupIndexMaxSlots < 2 ^ 31) {index : DenseI32GroupIndex}

/-- Below the limit a request overflows nowhere. -/
theorem ensureDenseRangeI32_eq (low high : ℤ) (maxSlots : ℕ) : index.ensureDenseRangeI32 limits low high maxSlots =
    some (index.ensureDenseRange (limits.tuning hlimit) low high maxSlots) := by
  cases index with
  | small groups =>
    obtain ⟨hmin,hmins⟩ := foldl_min_le groups low
    obtain ⟨hmax,hmaxs⟩ := le_foldl_max groups high
    unfold ensureDenseRangeI32 ensureDenseRange
    dsimp only
    generalize groups.foldl (fun low e => min low e.1) low = rangeMin at *
    generalize groups.foldl (fun high e => max high e.1) high = rangeMax at *
    rw [limits.denseI32SlotCount_eq hlimit]
    cases hcount : denseI32SlotCount (limits.tuning hlimit) rangeMin rangeMax with
    | none => rfl
    | some count =>
      obtain ⟨hspan,hlt⟩ := SlotLimits.denseI32SlotCount_lt hlimit hcount
      dsimp only
      split_ifs with hslots
      · rfl
      · rw [placeEntries_eq]
        · rfl
        · rw [List.length_replicate]
          exact hlt.le
        · intro e he
          have := hmins e he
          have := hmaxs e he
          rw [List.length_replicate]
          omega
  | dense denseMin slots =>
    unfold ensureDenseRangeI32 ensureDenseRange
    dsimp only
    cases hnew : checkedSigned 32 (max (denseMin + slots.length - 1) high) with
    | none => rfl
    | some newMax =>
      obtain ⟨-,rfl⟩ := checkedSigned_eq_some.mp hnew
      dsimp only
      rw [limits.denseI32SlotCount_eq hlimit]
      cases hcount : denseI32SlotCount (limits.tuning hlimit) (min denseMin low)
          (max (denseMin + slots.length - 1) high) with
      | none => rfl
      | some count =>
        obtain ⟨hspan,hlt⟩ := SlotLimits.denseI32SlotCount_lt hlimit hcount
        dsimp only
        split_ifs with hslots hfits
        · rfl
        · rfl
        · have hoffset : denseOffset (min denseMin low) denseMin = some (denseMin - min denseMin low).toNat := by
            refine denseOffset_eq_some.mpr ⟨?_,(Int.toNat_of_nonneg (by omega)).symm⟩
            unfold InSigned
            omega
          rw [hoffset,Option.bind_some,copySlots_eq (by omega)]
          rfl
  | hash groups => rfl

theorem expandDenseI32Slots_eq (low : ℤ) (slots : List (Option ℕ)) (key : ℤ) :
    limits.expandDenseI32Slots low slots key =
      (expandDenseI32Slots (limits.tuning hlimit) low slots key).map fun expanded =>
        (expanded.1,some expanded.2) := by
  unfold SlotLimits.expandDenseI32Slots expandDenseI32Slots
  cases hlength : checkedSigned 32 (slots.length : ℤ) with
  | none => rfl
  | some length =>
    obtain ⟨-,rfl⟩ := checkedSigned_eq_some.mp hlength
    simp only [Option.bind_eq_bind,Option.bind_some]
    cases hold : checkedSigned 32 (low + ((slots.length : ℤ) - 1)) with
    | none => rfl
    | some oldMax =>
      obtain ⟨-,rfl⟩ := checkedSigned_eq_some.mp hold
      simp only [Option.bind_some,limits.denseI32SlotCount_eq hlimit]
      cases hcount : denseI32SlotCount (limits.tuning hlimit) (min low key)
          (max (low + ((slots.length : ℤ) - 1)) key) with
      | none => rfl
      | some count =>
        obtain ⟨hspan,-⟩ := denseI32SlotCount_eq_some hcount
        rw [Option.bind_some,copySlots_eq (by omega)]
        rfl

theorem insertOutsideI32_eq {low : ℤ} {slots : List (Option ℕ)} (hwf : (dense low slots).WF) (key : ℤ) (groupId : ℕ) :
    insertOutsideI32 limits low slots key groupId =
      some (insertOutside (limits.tuning hlimit) low slots key groupId) := by
  have hfilter : (windowPairs low slots).filter (fun e => (checkedSigned 32 e.1).isSome) = windowPairs low slots := by
    refine List.filter_eq_self.mpr fun e he => ?_
    rw [checkedSigned_of_mem (mem_windowPairs_inSigned hwf he)]
    rfl
  rw [insertOutsideI32,expandDenseI32Slots_eq hlimit,hfilter,insertOutside]
  cases hnew : expandDenseI32Slots (limits.tuning hlimit) low slots key with
  | none => rfl
  | some expanded =>
    obtain ⟨newLow,newSlots⟩ := expanded
    obtain ⟨rfl,count,rfl,hspan,hle,-⟩ := expandDenseI32Slots_eq_some hnew
    have hlen : (widenSlots slots (low - min low key).toNat count).length = count := length_widenSlots (by omega)
    have hplace := @placeEntries_eq (min low key) (widenSlots slots (low - min low key).toNat count)
      (by rw [hlen]; exact hle) [(key,groupId)] (by
        intro e he
        rw [List.mem_singleton.mp he,hlen]
        omega)
    simp only [Option.map_some,Option.bind_some,Option.elim_some,hplace]
    rfl

/-- Below the limit an insert overflows nowhere. -/
theorem insertI32_eq (hwf : index.WF) (key : ℤ) (groupId : ℕ) :
    index.insertI32 limits key groupId = some (index.insert (limits.tuning hlimit) key groupId) := by
  cases index with
  | small groups =>
    unfold insertI32 insert
    dsimp only
    rw [limits.smallGroupLinearLimit_tuning]
    split_ifs with hsmall
    · rfl
    · rw [minMaxI32WithNewKey_eq]
      obtain ⟨hmin,hmins⟩ := foldl_min_le groups key
      obtain ⟨hmax,hmaxs⟩ := le_foldl_max groups key
      generalize groups.foldl (fun low e => min low e.1) key = rangeMin at *
      generalize groups.foldl (fun high e => max high e.1) key = rangeMax at *
      rw [limits.denseI32SlotCount_eq hlimit]
      cases hcount : denseI32SlotCount (limits.tuning hlimit) rangeMin rangeMax with
      | none => rfl
      | some count =>
        obtain ⟨hspan,hlt⟩ := SlotLimits.denseI32SlotCount_lt hlimit hcount
        dsimp only
        rw [placeEntries_eq]
        · rw [fillSlots,List.foldl_append]
          rfl
        · rw [List.length_replicate]
          exact hlt.le
        · intro e he
          rw [List.length_replicate]
          rcases List.mem_append.mp he with he | he
          · have := hmins e he
            have := hmaxs e he
            omega
          · rw [List.mem_singleton.mp he]
            dsimp only
            omega
  | dense low slots =>
    unfold insertI32 insert
    dsimp only
    rw [slotPosition]
    cases hposition : (denseOffset low key).filter (· < slots.length) with
    | some offset => rfl
    | none =>
      dsimp only
      exact insertOutsideI32_eq hlimit hwf key groupId
  | hash groups => rfl

omit hlimit in
theorem ensureDenseRange_refused (tuning : Tuning) (index : DenseI32GroupIndex) (low high : ℤ) (maxSlots : ℕ)
    (h : (index.ensureDenseRange tuning low high maxSlots).1 = false) :
    (index.ensureDenseRange tuning low high maxSlots).2 = index := by
  cases index with
  | small groups =>
    unfold ensureDenseRange at h ⊢
    dsimp only at h ⊢
    split at h
    · rfl
    · split_ifs at h ⊢
      rfl
  | dense min slots =>
    unfold ensureDenseRange at h ⊢
    dsimp only at h ⊢
    split at h
    · rfl
    · split at h
      · rfl
      · split_ifs at h ⊢
        rfl
  | hash groups => rfl

end DenseI32GroupIndex

namespace DenseI32GroupIndexIter

theorem yields_entries (entries : List (ℤ × ℕ)) : (DenseI32GroupIndexIter.entries entries).Yields entries := by
  induction entries with
  | nil => exact .done rfl
  | cons entry entries ih => exact .more rfl ih

theorem nextSlot_cases (min : ℤ) (offset : ℕ) (slots : List (Option ℕ))
    (hkeys : ∀ e ∈ windowPairs (min + offset) slots, InSigned 32 e.1) :
    (nextSlot min offset slots = none ∧ windowPairs (min + offset) slots = []) ∨
      ∃ entry n, nextSlot min offset slots = some (entry,offset + (n + 1)) ∧ n < slots.length ∧
        windowPairs (min + offset) slots = entry :: windowPairs (min + (offset + (n + 1) : ℕ)) (slots.drop (n + 1)) := by
  induction slots generalizing offset with
  | nil => exact .inl ⟨rfl,rfl⟩
  | cons slot slots ih =>
    have hshift : min + (offset : ℤ) + 1 = min + (offset + 1 : ℕ) := by push_cast; omega
    cases slot with
    | none =>
      rw [windowPairs,hshift] at hkeys ⊢
      rcases ih (offset + 1) hkeys with ⟨hnone,hempty⟩ | ⟨entry,n,hnext,hlt,hpairs⟩
      · exact .inl ⟨hnone,hempty⟩
      · refine .inr ⟨entry,n + 1,?_,Nat.succ_lt_succ hlt,?_⟩
        · rw [nextSlot,hnext,Nat.add_assoc,Nat.add_comm 1]
        · rw [hpairs,List.drop_succ_cons,Nat.add_assoc offset 1,Nat.add_comm 1]
    | some groupId =>
      rw [windowPairs,hshift] at hkeys ⊢
      refine .inr ⟨_,0,?_,Nat.succ_pos _,rfl⟩
      rw [nextSlot,checkedSigned_of_mem (hkeys _ List.mem_cons_self)]
      rfl

theorem yields_dense (min : ℤ) (slots : List (Option ℕ)) (offset : ℕ)
    (hkeys : ∀ e ∈ windowPairs (min + offset) (slots.drop offset), InSigned 32 e.1) :
    (DenseI32GroupIndexIter.dense min offset slots).Yields (windowPairs (min + offset) (slots.drop offset)) := by
  generalize hleft : slots.length - offset = left
  induction left using Nat.strong_induction_on generalizing offset with
  | _ left ih =>
    rcases nextSlot_cases min offset (slots.drop offset) hkeys with ⟨hnone,hempty⟩ | ⟨entry,n,hnext,hlt,hpairs⟩
    · rw [hempty]
      refine .done ?_
      rw [next,hnone]
      rfl
    · rw [List.length_drop,hleft] at hlt
      rw [List.drop_drop] at hpairs
      rw [hpairs] at hkeys ⊢
      have hrest := ih (left - (n + 1)) (by omega) (offset + (n + 1))
        (fun e he => hkeys e (List.mem_cons_of_mem _ he)) (by omega)
      refine .more ?_ hrest
      rw [next,hnext]
      rfl

end DenseI32GroupIndexIter

open DenseI32GroupIndexIter

namespace DenseI32GroupIndex
variable {limits : SlotLimits} {index : DenseI32GroupIndex}

theorem yields_iter (hwf : index.WF) : index.startIter.Yields index.iter := by
  cases index with
  | small groups => exact yields_entries groups
  | hash groups => exact yields_entries groups.toPairs
  | dense min slots =>
    have h := yields_dense min slots 0
    rw [Nat.cast_zero,add_zero,List.drop_zero] at h
    exact h fun e he => mem_windowPairs_inSigned hwf he

structure Answers (entries : List (ℤ × ℕ)) (index : DenseI32GroupIndex) : Prop where
  wf : index.WF
  get : ∀ key, InSigned 32 key → index.get key = smallGet entries key

theorem answers_default : DenseI32GroupIndex.default.Answers [] :=
  ⟨⟨List.nodup_nil,fun _ he => absurd he List.not_mem_nil⟩,fun _ _ => rfl⟩

theorem Answers.insertI32 (hlimit : limits.denseI32GroupIndexMaxSlots < 2 ^ 31) {entries : List (ℤ × ℕ)}
    (h : index.Answers entries) {key : ℤ} (hkey : InSigned 32 key) (hnew : key ∉ entries.map Prod.fst) (groupId : ℕ) :
    ∃ index', index.insertI32 limits key groupId = some index' ∧ index'.Answers (entries ++ [(key,groupId)]) := by
  have hnone : index.get key = none := (h.get key hkey).trans (smallGet_eq_none.mpr hnew)
  obtain ⟨hwf,hget⟩ := @insert_spec key index (limits.tuning hlimit) h.wf hkey groupId hnone
  refine ⟨_,insertI32_eq hlimit h.wf key groupId,hwf,fun k hk => ?_⟩
  rw [hget k hk,h.get k hk]
  exact (smallGet_push hnew groupId k).symm

theorem Answers.ensureDenseRangeI32 (hlimit : limits.denseI32GroupIndexMaxSlots < 2 ^ 31) {entries : List (ℤ × ℕ)}
    (h : index.Answers entries) {low high : ℤ} (hlow : InSigned 32 low) (hhigh : InSigned 32 high) (maxSlots : ℕ) :
    ∃ answer index', index.ensureDenseRangeI32 limits low high maxSlots = some (answer,index') ∧
      index'.Answers entries := by
  obtain ⟨⟨hwf,hget⟩,-⟩ := ensureDenseRange_spec (limits.tuning hlimit) h.wf hlow hhigh maxSlots
  exact ⟨_,_,ensureDenseRangeI32_eq hlimit low high maxSlots,hwf,fun k hk => (hget k hk).trans (h.get k hk)⟩

theorem foldlM_call (hlimit : limits.denseI32GroupIndexMaxSlots < 2 ^ 31) {calls : List IndexCall} (h : NewKeys calls) :
    ∃ index, calls.foldlM (DenseI32GroupIndex.call limits) default = some index ∧ index.Answers (insertedBy calls) := by
  induction calls using List.reverseRecOn with
  | nil => exact ⟨default,rfl,answers_default⟩
  | append_singleton calls call ih =>
    obtain ⟨index,hrun,hanswers⟩ := ih h.of_concat
    have hrange := h.inRange call (List.mem_append_right _ (List.mem_singleton.mpr rfl))
    have hnodup := h.nodup
    rw [insertedBy_concat] at hnodup ⊢
    rw [List.foldlM_append,hrun]
    change ∃ index', (index.call limits call).bind some = some index' ∧ _
    rw [Option.bind_fun_some]
    cases call with
    | insert key groupId =>
      have hnew : key ∉ (insertedBy calls).map Prod.fst := by
        rw [List.map_append] at hnodup
        exact fun hmem => List.disjoint_of_nodup_append hnodup hmem (List.mem_singleton.mpr rfl)
      exact hanswers.insertI32 hlimit hrange hnew groupId
    | ensureDenseRange min max maxSlots =>
      obtain ⟨answer,index',hrequest,hanswers'⟩ := hanswers.ensureDenseRangeI32 hlimit hrange.1 hrange.2 maxSlots
      refine ⟨index',?_,?_⟩
      · rw [call,hrequest]
        rfl
      · rw [IndexCall.inserted,Option.toList_none,List.append_nil]
        exact hanswers'

theorem Answers.perm {entries : List (ℤ × ℕ)} (h : index.Answers entries) (hnodup : (entries.map Prod.fst).Nodup)
    (hkeys : ∀ e ∈ entries, InSigned 32 e.1) : index.iter.Perm entries := by
  refine (List.perm_ext_iff_of_nodup ((nodup_iter h.wf).of_map _) (hnodup.of_map _)).mpr fun e => ?_
  obtain ⟨key,groupId⟩ := e
  rw [mem_iter h.wf,mem_iff_smallGet hnodup]
  constructor
  · rintro ⟨hkey,hget⟩
    exact (h.get key hkey).symm.trans hget
  · intro hget
    have hkey := hkeys _ ((mem_iff_smallGet hnodup).mpr hget)
    exact ⟨hkey,(h.get key hkey).trans hget⟩

theorem Answers.isMapOf (hlimit : limits.denseI32GroupIndexMaxSlots < 2 ^ 31) {entries : List (ℤ × ℕ)}
    (h : index.Answers entries) (hnodup : (entries.map Prod.fst).Nodup) (hkeys : ∀ e ∈ entries, InSigned 32 e.1) :
    index.IsMapOf limits entries where
  get := h.get
  iter := by
    refine ⟨index.iter,yields_iter h.wf,h.perm hnodup hkeys,?_⟩
    rintro min slots rfl
    exact (windowPairs_sorted min slots).1
  answers low high maxSlots _ _ :=
    ⟨_,_,ensureDenseRangeI32_eq hlimit low high maxSlots,ensureDenseRange_refused _ index low high maxSlots⟩

theorem inserted_inRange {calls : List IndexCall} (h : NewKeys calls) : ∀ e ∈ insertedBy calls, InSigned 32 e.1 := by
  intro e he
  obtain ⟨call,hcall,hinserted⟩ := List.mem_filterMap.mp he
  have hrange := h.inRange call hcall
  cases call with
  | insert key groupId =>
    cases hinserted
    exact hrange
  | ensureDenseRange min max maxSlots => cases hinserted

/-- Two requests: for a range of no key, and for one of 2^31 keys that does not contain its end. -/
def overflowingRequests : List IndexCall := [.ensureDenseRange 0 (-1) 0,.ensureDenseRange (-2 ^ 31) (-1) (2 ^ 31)]

theorem newKeys_overflowingRequests : NewKeys overflowingRequests := by
  refine ⟨fun call hcall => ?_,List.nodup_nil⟩
  rcases List.mem_cons.mp hcall with rfl | hcall
  · exact ⟨by decide,by decide⟩
  · rw [List.mem_singleton.mp hcall]
    exact ⟨by decide,by decide⟩

theorem requests_overflow (h : 2 ^ 31 ≤ limits.denseI32GroupIndexMaxSlots) :
    overflowingRequests.foldlM (DenseI32GroupIndex.call limits) default = none := by
  have hnoKey : limits.denseI32SlotCount 0 (-1) = some 0 := by
    rw [SlotLimits.denseI32SlotCount,if_pos ⟨by decide,by omega⟩]
    rfl
  have hmany : limits.denseI32SlotCount (-2 ^ 31) (-1) = some (2 ^ 31) := by
    rw [SlotLimits.denseI32SlotCount,if_pos ⟨by decide,by omega⟩]
    rfl
  have hfirst : default.call limits (.ensureDenseRange 0 (-1) 0) = some (dense 0 []) := by
    rfl
  have hsecond : (dense 0 []).call limits (.ensureDenseRange (-2 ^ 31) (-1) (2 ^ 31)) = none := by
    have hmax : checkedSigned 32 (max (0 + (([] : List (Option ℕ)).length : ℤ) - 1) (-1)) = some (-1) := by decide
    have hmin : min (0 : ℤ) (-2 ^ 31) = -2 ^ 31 := by decide
    have hoffset : denseOffset (-2 ^ 31) 0 = none := by decide
    simp only [call,ensureDenseRangeI32,hmax,hmin,hmany,hoffset]
    rfl
  rw [overflowingRequests,List.foldlM_cons,hfirst]
  change (List.foldlM (DenseI32GroupIndex.call limits) (dense 0 []) _) = _
  rw [List.foldlM_cons,hsecond]
  rfl

end DenseI32GroupIndex

end Dodam.Execution

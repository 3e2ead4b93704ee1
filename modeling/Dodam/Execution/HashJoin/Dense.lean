import Dodam.Execution.HashJoin.Build
import Dodam.Foundation.Fold
import Mathlib.Data.List.ReduceOption

/-! # Dense key arrays answer like the maps they are made from

Filling an array from entries with different offsets loses none of them, and a
dense lookup finds exactly the key whose offset it computes: an offset that
overflows the key type, or is negative, is past the end of the array.
-/
namespace Dodam.Execution
open Foundation

section Fill
variable {ρ : Type}

/-- What the array holds after some entries. -/
structure Filled (width : ℕ) (seen : List (ℕ × ρ)) (dense : List (Option ρ)) : Prop where
  length_eq : dense.length = width
  lt : ∀ e ∈ seen, e.1 < width
  count : (seen.map Prod.fst).Nodup → dense.countP Option.isSome = seen.length
  mem : (seen.map Prod.fst).Nodup → ∀ i v, dense[i]? = some (some v) ↔ (i,v) ∈ seen

theorem filled_nil (width : ℕ) : Filled width ([] : List (ℕ × ρ)) (List.replicate width none) where
  length_eq := List.length_replicate
  lt _ h := by simp at h
  count _ := by simp [List.countP_replicate]
  mem _ i v := by simp [List.getElem?_replicate]

variable {dense : List (Option ρ)}

theorem Filled.step {width : ℕ} {seen : List (ℕ × ρ)}
    (h : Filled width seen dense) {e : ℕ × ρ} (he : e.1 < width) :
    Filled width (seen ++ [e]) (dense.set e.1 (some e.2)) := by
  have hlen := h.length_eq
  -- a new offset meets an empty slot
  have hempty : ((seen ++ [e]).map Prod.fst).Nodup →
      (seen.map Prod.fst).Nodup ∧ dense[e.1]? = some none := by
    intro hn
    rw [List.map_append,List.nodup_append] at hn
    refine ⟨hn.1,?_⟩
    rw [List.getElem?_eq_getElem (by omega)]
    have hlt : e.1 < dense.length := by omega
    cases hv : dense[e.1] with
    | none => rfl
    | some v =>
      have hm := (h.mem hn.1 e.1 v).mp (by rw [List.getElem?_eq_getElem (by omega),hv])
      exact absurd rfl (hn.2.2 e.1 (List.mem_map.mpr ⟨_,hm,rfl⟩) e.1 (by simp))
  refine ⟨by simpa using hlen,?_,?_,?_⟩
  · intro e' he'
    rcases List.mem_append.mp he' with he' | he'
    · exact h.lt e' he'
    · rw [List.mem_singleton.mp he']
      exact he
  · intro hn
    obtain ⟨hn,hslot⟩ := hempty hn
    have hlt : e.1 < dense.length := by omega
    have hget : dense[e.1] = none := by
      rw [List.getElem?_eq_getElem (by omega)] at hslot
      exact Option.some.inj hslot
    rw [List.countP_set (by omega),hget,h.count hn]
    simp
  · intro hn i v
    have hn' := hempty hn
    rw [List.getElem?_set]
    by_cases hi : e.1 = i
    · subst hi
      rw [if_pos rfl,if_pos (by omega)]
      have hnot : (e.1,v) ∉ seen := fun hm => by
        rw [(h.mem hn'.1 e.1 v).mpr hm] at hn'
        simp at hn'
      simp [hnot,Prod.ext_iff,eq_comm]
    · rw [if_neg hi,h.mem hn'.1 i v,List.mem_append,List.mem_singleton]
      have hne : (i,v) ≠ e := fun he' => hi (by rw [← he'])
      simp [hne]

theorem fillDense_filled {width : ℕ} {entries : List (ℕ × ρ)}
    (h : fillDense width entries = .ok dense) : Filled width entries dense := by
  refine foldlM_ok_inv (Filled width) (filled_nil width) ?_ h
  intro seen e dense dense' hs hstep
  split at hstep
  · next hlt =>
    cases hstep
    exact hs.step (by rw [← hs.length_eq]; exact hlt)
  · cases hstep

theorem fillDense_total {width : ℕ} {entries : List (ℕ × ρ)} (h : ∀ e ∈ entries, e.1 < width) :
    ∃ dense, fillDense width entries = .ok dense ∧ Filled width entries dense := by
  refine foldlM_total (Filled width) (filled_nil width) ?_
  intro seen e rest dense hl hs
  have he := h e (by rw [hl]; simp)
  exact ⟨dense.set e.1 (some e.2),if_pos (by rw [hs.length_eq]; exact he),hs.step he⟩

theorem expectAll_eq (h : ∀ row ∈ dense, row.isSome) :
    expectAll dense = .ok dense.reduceOption := by
  unfold expectAll
  induction dense with
  | nil => rfl
  | cons row dense ih =>
    obtain ⟨v,rfl⟩ := Option.isSome_iff_exists.mp (h row List.mem_cons_self)
    rw [List.mapM_cons,ih fun row hr => h row (List.mem_cons_of_mem _ hr)]
    rfl

theorem getElem?_reduceOption (h : ∀ row ∈ dense, row.isSome) (i : ℕ) :
    dense.reduceOption[i]? = dense[i]?.join := by
  induction dense generalizing i with
  | nil => rfl
  | cons row dense ih =>
    obtain ⟨v,rfl⟩ := Option.isSome_iff_exists.mp (h row List.mem_cons_self)
    cases i with
    | zero => rfl
    | succ i => exact ih (fun row hr => h row (List.mem_cons_of_mem _ hr)) i

theorem packDense_spec {rows : ℕ} (h : dense.countP Option.isSome = rows) :
    ∃ slots, packDense dense rows = .ok slots ∧ slots.len = dense.length ∧
      ∀ i, slots.get i = dense[i]?.join := by
  unfold packDense
  split
  · next hl =>
    have hall : ∀ row ∈ dense, row.isSome := by
      rw [← List.countP_eq_length,h,hl]
    refine ⟨.complete dense.reduceOption,by rw [expectAll_eq hall]; rfl,?_,?_⟩
    · exact List.reduceOption_length_eq_iff.mpr hall
    · exact getElem?_reduceOption hall
  · exact ⟨.sparse dense,rfl,rfl,fun i => rfl⟩

end Fill

section Index

theorem two_pow_pred_le {width : ℕ} (hw : width ≤ 64) : (2 : ℤ) ^ (width - 1) ≤ 2 ^ 63 := by
  have hp := Nat.pow_le_pow_right (n := 2) (by omega) (show width - 1 ≤ 63 by omega)
  exact_mod_cast hp

theorem asUnsigned_signed {width : ℕ} (hw : width ≤ 64) {x : ℤ} (h : InSigned width x) :
    (0 ≤ x ∧ asUnsigned 64 x = x.toNat) ∨ (x < 0 ∧ 2 ^ 63 ≤ asUnsigned 64 x) := by
  have hb := two_pow_pred_le hw
  obtain ⟨hl,hu⟩ := h
  by_cases h0 : 0 ≤ x
  · exact Or.inl ⟨h0,asUnsigned_of_nonneg h0 (by omega)⟩
  · rw [asUnsigned_of_neg (by omega) (by omega)]
    exact Or.inr ⟨by omega,by omega⟩

theorem denseI32Index_near {key min : ℤ} (h0 : min ≤ key) (h : key - min < 2 ^ 31) :
    denseI32Index key min = (key - min).toNat := by
  rw [denseI32Index,wrapSigned_of_mem (by omega) ⟨by omega,by omega⟩,
    asUnsigned_of_nonneg (by omega) (by omega)]

theorem denseI32Index_far {key min : ℤ} (h0 : 2 ^ 31 ≤ key - min) (h : key - min < 2 ^ 32) :
    2 ^ 63 ≤ denseI32Index key min := by
  have hw : wrapSigned 32 (key - min) = key - min - 2 ^ 32 := by
    rw [wrapSigned,Int.bmod_eq_emod,Int.emod_eq_of_lt (by omega) (by omega)]
    norm_num
    omega
  rw [denseI32Index,hw,asUnsigned_of_neg (by omega) (by omega)]
  omega

theorem int32_sub_lt (a b : Int32) : a.toInt - b.toInt < 2 ^ 32 := by
  have ha := a.toInt_lt
  have hb := b.le_toInt
  omega

end Index

/-- The distance the keys span, as the width of a dense array. -/
def keySpan (keys : List ℤ) : ℕ :=
  match keys.min?,keys.max? with
  | some min,some max => (max - min + 1).toNat
  | _,_ => 0

section Lookup
variable {κ ρ : Type}

theorem offsets_nodup (offset : κ → ℕ) {l : List (κ × ρ)} (hl : (l.map Prod.fst).Nodup)
    (h : ∀ e ∈ l, ∀ e' ∈ l, offset e.1 = offset e'.1 → e.1 = e'.1) :
    ((l.map fun e => (offset e.1,e.2)).map Prod.fst).Nodup := by
  rw [List.map_map]
  have he : l.map (Prod.fst ∘ fun e => (offset e.1,e.2)) = (l.map Prod.fst).map offset := by
    rw [List.map_map]
    rfl
  rw [he]
  refine List.Nodup.map_on ?_ hl
  intro a ha b hb hab
  obtain ⟨x,hx,rfl⟩ := List.mem_map.mp ha
  obtain ⟨y,hy,rfl⟩ := List.mem_map.mp hb
  exact h x hx y hy hab

/-- A dense array filled from entries with distinct keys finds exactly these entries. -/
theorem getSigned_eq_some_iff {l : List (κ × ρ)} (hl : (l.map Prod.fst).Nodup) {toInt : κ → ℤ}
    (hinj : Function.Injective toInt) {w width : ℕ} (hw : w ≤ 64) (hwidth : width < 2 ^ 63) {min : ℤ}
    (hrange : ∀ e ∈ l,
      min ≤ toInt e.1 ∧ (toInt e.1 - min).toNat < width ∧ InSigned w (toInt e.1 - min))
    {dense : List (Option ρ)}
    (hdense : Filled width (l.map fun e => ((toInt e.1 - min).toNat,e.2)) dense)
    {slots : DenseSlots ρ} (hslots : ∀ i, slots.get i = dense[i]?.join) (k : κ) (v : ρ) :
    (⟨min,slots⟩ : DenseRows ρ).getSigned w (toInt k) = some v ↔ (k,v) ∈ l := by
  have hn : ((l.map fun e => ((toInt e.1 - min).toNat,e.2)).map Prod.fst).Nodup := by
    refine offsets_nodup (fun k => (toInt k - min).toNat) hl ?_
    intro e he e' he' h
    have h1 := (hrange e he).1
    have h2 := (hrange e' he').1
    exact hinj (by omega)
  -- an occupied slot belongs to the one key with its offset
  have hslot : min ≤ toInt k →
      (dense[(toInt k - min).toNat]? = some (some v) ↔ (k,v) ∈ l) := by
    intro hk
    rw [hdense.mem hn,List.mem_map]
    constructor
    · rintro ⟨⟨k',v'⟩,hm,he⟩
      have h1 := (hrange _ hm).1
      simp only [Prod.mk.injEq] at he h1
      have : k' = k := hinj (by omega)
      rw [← this,← he.2]
      exact hm
    · intro hm
      exact ⟨(k,v),hm,rfl⟩
  unfold DenseRows.getSigned
  by_cases hin : InSigned w (toInt k - min)
  · rw [checkedSigned_of_mem hin,Option.bind_some,hslots]
    rcases asUnsigned_signed hw hin with ⟨h0,he⟩ | ⟨h0,he⟩
    · rw [he,← hslot (by omega),Option.join_eq_some_iff]
    · rw [List.getElem?_eq_none (by rw [hdense.length_eq]; omega)]
      constructor
      · intro h
        cases h
      · intro hm
        have := (hrange _ hm).1
        dsimp only at this
        omega
  · rw [checkedSigned,if_neg hin]
    constructor
    · intro h
      cases h
    · intro hm
      exact absurd (hrange _ hm).2.2 hin

end Lookup

section Int32
variable {ρ : Type}

theorem int32_toInt_injective : Function.Injective Int32.toInt := fun _ _ => Int32.toInt_inj.mp
theorem int64_toInt_injective : Function.Injective Int64.toInt := fun _ _ => Int64.toInt_inj.mp

theorem keySpan_of_bounds {keys : List ℤ} {min max : ℤ} (hmin : keys.min? = some min)
    (hmax : keys.max? = some max) :
    min ∈ keys ∧ max ∈ keys ∧ (∀ k ∈ keys, min ≤ k ∧ k ≤ max) ∧
      keySpan keys = (max - min + 1).toNat := by
  rw [keySpan,hmin,hmax]
  rw [List.min?_eq_some_iff] at hmin
  rw [List.max?_eq_some_iff] at hmax
  exact ⟨hmin.1,hmax.1,fun k hk => ⟨hmin.2 k hk,hmax.2 k hk⟩,rfl⟩

theorem min?_max?_cases (keys : List ℤ) :
    keys = [] ∨ ∃ min max, keys.min? = some min ∧ keys.max? = some max := by
  cases keys with
  | nil => exact Or.inl rfl
  | cons k keys =>
    right
    cases hmin : (k :: keys).min? with
    | none => simp at hmin
    | some min =>
      cases hmax : (k :: keys).max? with
      | none => simp at hmax
      | some max => exact ⟨min,max,rfl,rfl⟩

variable {entries : List (Int32 × ρ)} {rows : ℕ} {m : Map Int32 ρ}

theorem denseI32Slots_none
    (h : entries = [] ∨ denseWidthLimit rows < keySpan (entries.map fun e => e.1.toInt)) :
    denseI32Slots entries rows = .ok none := by
  rcases min?_max?_cases (entries.map fun e => e.1.toInt) with h0 | ⟨min,max,hmin,hmax⟩
  · unfold denseI32Slots
    rw [h0]
    rfl
  · have hspan := (keySpan_of_bounds hmin hmax).2.2.2
    have h : denseWidthLimit rows < (max - min + 1).toNat := by
      rcases h with h | h
      · rw [h] at hmin
        simp at hmin
      · rwa [hspan] at h
    unfold denseI32Slots
    simp only [hmin,hmax]
    exact if_pos h

structure DenseI32Of (entries : List (Int32 × ρ)) (min : ℤ) (dense : List (Option ρ)) : Prop where
  count : dense.countP Option.isSome = entries.length
  get : ∀ slots : DenseSlots ρ, (∀ i, slots.get i = dense[i]?.join) → ∀ (k : Int32) v,
    (⟨min,slots⟩ : DenseRows ρ).getSigned 32 k.toInt = some v ↔ (k,v) ∈ entries

/-- A dense array is made exactly when the span of the keys is small enough; a span that the
limit admits and the key type does not is a panic. -/
theorem denseI32Slots_spec (hne : entries ≠ []) (hnodup : (entries.map Prod.fst).Nodup)
    (hle : keySpan (entries.map fun e => e.1.toInt) ≤ denseWidthLimit rows) :
    (keySpan (entries.map fun e => e.1.toInt) ≤ 2 ^ 31 → ∃ min dense,
      denseI32Slots entries rows = .ok (some (min,dense)) ∧ DenseI32Of entries min dense) ∧
    (2 ^ 31 < keySpan (entries.map fun e => e.1.toInt) →
      ∃ e, denseI32Slots entries rows = .error e) := by
  obtain ⟨min,max,hmin,hmax⟩ :=
    (min?_max?_cases (entries.map fun e => e.1.toInt)).resolve_left (by simpa using hne)
  obtain ⟨hminm,hmaxm,hb,hspan⟩ := keySpan_of_bounds hmin hmax
  rw [hspan] at hle ⊢
  have heq : denseI32Slots entries rows = (do
      let dense ← fillDense (max - min + 1).toNat
        (entries.map fun entry => (denseI32Index entry.1.toInt min,entry.2))
      return some (min,dense)) := by
    unfold denseI32Slots
    simp only [hmin,hmax]
    exact if_neg (not_lt.mpr hle)
  have hkey : ∀ e ∈ entries, min ≤ e.1.toInt ∧ e.1.toInt ≤ max := by
    intro e he
    exact hb _ (List.mem_map.mpr ⟨e,he,rfl⟩)
  constructor
  · intro hs
    have hentries : (entries.map fun entry => (denseI32Index entry.1.toInt min,entry.2)) =
        entries.map fun entry => ((entry.1.toInt - min).toNat,entry.2) := by
      apply List.map_congr_left
      intro e he
      obtain ⟨h1,h2⟩ := hkey e he
      rw [denseI32Index_near h1 (by omega)]
    have hlt : ∀ e ∈ entries.map fun entry => ((entry.1.toInt - min).toNat,entry.2),
        e.1 < (max - min + 1).toNat := by
      intro e he
      obtain ⟨e,hm,rfl⟩ := List.mem_map.mp he
      obtain ⟨h1,h2⟩ := hkey e hm
      omega
    obtain ⟨dense,hd,hf⟩ := fillDense_total hlt
    have hn : ((entries.map fun entry => ((entry.1.toInt - min).toNat,entry.2)).map
        Prod.fst).Nodup := by
      refine offsets_nodup (fun k => (k.toInt - min).toNat) hnodup ?_
      intro e he e' he' h
      have h1 := (hkey e he).1
      have h2 := (hkey e' he').1
      exact int32_toInt_injective (by omega)
    refine ⟨min,dense,?_,?_,?_⟩
    · rw [heq,hentries,hd]
      rfl
    · rw [hf.count hn,List.length_map]
    · intro slots hslots k v
      refine getSigned_eq_some_iff hnodup int32_toInt_injective (by omega) (by omega) ?_ hf hslots k v
      intro e he
      obtain ⟨h1,h2⟩ := hkey e he
      exact ⟨h1,by omega,by omega,by omega⟩
  · intro hs
    rcases except_cases (fillDense (max - min + 1).toNat
        (entries.map fun entry => (denseI32Index entry.1.toInt min,entry.2))) with ⟨d,hd⟩ | ⟨e,he⟩
    · obtain ⟨e,hm,hk⟩ := List.mem_map.mp hmaxm
      have hlt := (fillDense_filled hd).lt _ (List.mem_map.mpr ⟨e,hm,rfl⟩)
      obtain ⟨e',-,hk'⟩ := List.mem_map.mp hminm
      have hsub := int32_sub_lt e.1 e'.1
      have hfar := denseI32Index_far (show 2 ^ 31 ≤ e.1.toInt - min by omega) (by omega)
      omega
    · exact ⟨e,by rw [heq,he]; rfl⟩

theorem denseI32Rows_none
    (h : m.toPairs = [] ∨ denseWidthLimit rows < keySpan (m.toPairs.map fun e => e.1.toInt)) :
    denseI32Rows m rows = .ok none := by
  rw [denseI32Rows,denseI32Slots_none h]
  rfl

theorem denseI32Rows_some (hne : m.toPairs ≠ [])
    (hle : keySpan (m.toPairs.map fun e => e.1.toInt) ≤ denseWidthLimit rows)
    (hs : keySpan (m.toPairs.map fun e => e.1.toInt) ≤ 2 ^ 31) :
    ∃ d, denseI32Rows m rows = .ok (some d) ∧ ∀ k : Int32, d.getSigned 32 k.toInt = m.lookup k := by
  obtain ⟨min,dense,hd,hof⟩ := (denseI32Slots_spec hne m.nodup_toPairs_fst hle).1 hs
  have hcount : dense.countP Option.isSome = m.entries.length := by
    rw [hof.count,Map.length_toPairs]
  obtain ⟨slots,hp,-,hslots⟩ := packDense_spec hcount
  refine ⟨⟨min,slots⟩,?_,fun k => ?_⟩
  · rw [denseI32Rows,hd,except_bind_ok]
    dsimp only
    rw [hp]
    rfl
  · apply Option.ext
    intro v
    rw [hof.get slots hslots,Map.mem_toPairs]

theorem denseI32Rows_panics (hne : m.toPairs ≠ [])
    (hle : keySpan (m.toPairs.map fun e => e.1.toInt) ≤ denseWidthLimit rows)
    (hs : 2 ^ 31 < keySpan (m.toPairs.map fun e => e.1.toInt)) :
    ∃ e, denseI32Rows m rows = .error e := by
  obtain ⟨e,he⟩ := (denseI32Slots_spec hne m.nodup_toPairs_fst hle).2 hs
  exact ⟨e,by rw [denseI32Rows,he]; rfl⟩

theorem contains_eq_isSome (min : ℤ) (dense : List (Option Unit)) (key : Int32) :
    (⟨min,dense.map Option.isSome⟩ : DenseI32KeySet).contains key =
      ((⟨min,.sparse dense⟩ : DenseRows Unit).getSigned 32 key.toInt).isSome := by
  unfold DenseI32KeySet.contains DenseRows.getSigned
  cases checkedSigned 32 (key.toInt - min) with
  | none => rfl
  | some index =>
    simp only [Option.bind_some,DenseSlots.get,List.getD_eq_getElem?_getD,List.getElem?_map]
    cases dense[asUnsigned 64 index]? with
    | none => rfl
    | some slot => cases slot <;> rfl

theorem denseI32KeySet_none {keys : List Int32}
    (h : keys = [] ∨ denseWidthLimit rows < keySpan (keys.map Int32.toInt)) :
    denseI32KeySet keys rows = .ok none := by
  have h' : (keys.map fun key => (key,())) = [] ∨
      denseWidthLimit rows < keySpan ((keys.map fun key => (key,())).map fun e => e.1.toInt) := by
    rw [List.map_map]
    exact h.imp (by rintro rfl; rfl) id
  rw [denseI32KeySet,denseI32Slots_none h']
  rfl

theorem denseI32KeySet_spec {keys : List Int32} (hne : keys ≠ []) (hn : keys.Nodup)
    (hle : keySpan (keys.map Int32.toInt) ≤ denseWidthLimit rows) :
    (keySpan (keys.map Int32.toInt) ≤ 2 ^ 31 → ∃ d, denseI32KeySet keys rows = .ok (some d) ∧
      ∀ k, d.contains k = true ↔ k ∈ keys) ∧
    (2 ^ 31 < keySpan (keys.map Int32.toInt) → ∃ e, denseI32KeySet keys rows = .error e) := by
  have hne' : (keys.map fun key => (key,())) ≠ [] := by simpa using hne
  have hn' : ((keys.map fun key => (key,())).map Prod.fst).Nodup := by
    rw [List.map_map]
    exact (List.map_id keys).symm ▸ hn
  have hkeys : ((keys.map fun key => (key,())).map fun e => e.1.toInt) = keys.map Int32.toInt := by
    rw [List.map_map]
    rfl
  have hspec := denseI32Slots_spec hne' hn' (by rw [hkeys]; exact hle)
  rw [hkeys] at hspec
  constructor
  · intro hs
    obtain ⟨min,dense,hd,hof⟩ := hspec.1 hs
    refine ⟨⟨min,dense.map Option.isSome⟩,by rw [denseI32KeySet,hd]; rfl,fun k => ?_⟩
    rw [contains_eq_isSome,Option.isSome_iff_exists]
    constructor
    · rintro ⟨v,hv⟩
      have hm := (hof.get (.sparse dense) (fun i => rfl) k v).mp hv
      obtain ⟨k',hk',he⟩ := List.mem_map.mp hm
      cases he
      exact hk'
    · intro hk
      exact ⟨(),(hof.get (.sparse dense) (fun i => rfl) k ()).mpr (List.mem_map.mpr ⟨k,hk,rfl⟩)⟩
  · intro hs
    obtain ⟨e,he⟩ := hspec.2 hs
    exact ⟨e,by rw [denseI32KeySet,he]; rfl⟩

end Int32

section Int64

/-- A dense Int64 array always answers like its map: the width is checked before it is used. -/
theorem denseI64BuildRows_spec (m : Map Int64 BuildRowRef) (rows : ℕ) :
    ∃ o, denseI64BuildRows m rows = .ok o ∧
      ∀ d : DenseI64BuildRows, o = some d → ∀ k : Int64, d.getSigned 64 k.toInt = m.lookup k := by
  rcases min?_max?_cases (m.toPairs.map fun e => e.1.toInt) with h0 | ⟨min,max,hmin,hmax⟩
  · refine ⟨none,?_,fun d h => by cases h⟩
    unfold denseI64BuildRows
    rw [h0]
    rfl
  · obtain ⟨hminm,hmaxm,hb,-⟩ := keySpan_of_bounds hmin hmax
    unfold denseI64BuildRows
    simp only [hmin,hmax]
    cases hw : (checkedSigned 64 (max - min)).bind fun distance => checkedSigned 64 (distance + 1) with
    | none => exact ⟨none,rfl,fun d h => by cases h⟩
    | some width =>
      dsimp only
      obtain ⟨distance,hd1,hd2⟩ := Option.bind_eq_some_iff.mp hw
      obtain ⟨hin,rfl⟩ := checkedSigned_eq_some.mp hd1
      obtain ⟨hin',rfl⟩ := checkedSigned_eq_some.mp hd2
      split
      · exact ⟨none,rfl,fun d h => by cases h⟩
      · obtain ⟨hin1,hin2⟩ := hin'
        have hkey : ∀ e ∈ m.toPairs, min ≤ e.1.toInt ∧ e.1.toInt ≤ max := by
          intro e he
          exact hb _ (List.mem_map.mpr ⟨e,he,rfl⟩)
        have hentries : (m.toPairs.map fun e => (asUnsigned 64 (e.1.toInt - min),e.2)) =
            m.toPairs.map fun e => ((e.1.toInt - min).toNat,e.2) := by
          apply List.map_congr_left
          intro e he
          obtain ⟨h1,h2⟩ := hkey e he
          rw [asUnsigned_of_nonneg (by omega) (by omega)]
        have hlt : ∀ e ∈ m.toPairs.map fun e => ((e.1.toInt - min).toNat,e.2),
            e.1 < (max - min + 1).toNat := by
          intro e he
          obtain ⟨e,hm,rfl⟩ := List.mem_map.mp he
          obtain ⟨h1,h2⟩ := hkey e hm
          dsimp only
          omega
        obtain ⟨dense,hd,hf⟩ := fillDense_total hlt
        have hn : ((m.toPairs.map fun e => ((e.1.toInt - min).toNat,e.2)).map Prod.fst).Nodup := by
          refine offsets_nodup (fun k => (k.toInt - min).toNat) m.nodup_toPairs_fst ?_
          intro e he e' he' h
          have h1 := (hkey e he).1
          have h2 := (hkey e' he').1
          exact int64_toInt_injective (by omega)
        have hcount : dense.countP Option.isSome = m.entries.length := by
          rw [hf.count hn,List.length_map,Map.length_toPairs]
        obtain ⟨slots,hp,-,hslots⟩ := packDense_spec hcount
        refine ⟨some ⟨min,slots⟩,by rw [hentries,hd,except_bind_ok,hp]; rfl,?_⟩
        rintro d ⟨⟩ k
        apply Option.ext
        intro v
        rw [getSigned_eq_some_iff m.nodup_toPairs_fst int64_toInt_injective (by omega) (by omega)
          ?_ hf hslots k v,Map.mem_toPairs]
        intro e he
        obtain ⟨h1,h2⟩ := hkey e he
        exact ⟨h1,by omega,by omega,by omega⟩

end Int64

section Pair

variable {left right minLeft minRight : ℤ} {rightWidth i : ℕ} {l : List ((Int32 × Int32) × BuildRowRef)}
variable {entries : List (ℕ × BuildRowRef)}

theorem denseI32PairIndex_eq_some :
    denseI32PairIndex left right minLeft minRight rightWidth = some i ↔
      InSigned 32 (left - minLeft) ∧ InSigned 32 (right - minRight) ∧ 0 ≤ left - minLeft ∧
      0 ≤ right - minRight ∧ (right - minRight).toNat < rightWidth ∧
      (left - minLeft).toNat * rightWidth + (right - minRight).toNat ≤ maxUnsigned 64 ∧
      i = (left - minLeft).toNat * rightWidth + (right - minRight).toNat := by
  unfold denseI32PairIndex
  by_cases hl : InSigned 32 (left - minLeft)
  · by_cases hr : InSigned 32 (right - minRight)
    · rw [checkedSigned_of_mem hl,checkedSigned_of_mem hr]
      simp only [Option.bind_eq_bind,Option.bind_some,hl,hr,true_and]
      split_ifs with h1 h2 h3
      · simp only [false_iff]
        omega
      · simp only [false_iff]
        omega
      · rw [Option.some.injEq]
        constructor
        · intro he
          exact ⟨by omega,by omega,by omega,h3,he.symm⟩
        · intro he
          exact he.2.2.2.2.symm
      · simp only [false_iff]
        omega
    · rw [checkedSigned_of_mem hl,checkedSigned,if_neg hr]
      simp [hr]
  · rw [checkedSigned,if_neg hl]
    simp [hl]

theorem denseI32PairIndex_inj {a b a' b' : ℤ}
    (h : denseI32PairIndex a b minLeft minRight rightWidth = some i)
    (h' : denseI32PairIndex a' b' minLeft minRight rightWidth = some i) : a = a' ∧ b = b' := by
  obtain ⟨-,-,h1,h2,h3,-,h4⟩ := denseI32PairIndex_eq_some.mp h
  obtain ⟨-,-,h1',h2',h3',-,h4'⟩ := denseI32PairIndex_eq_some.mp h'
  rw [h4] at h4'
  have hq := congrArg (· / rightWidth) h4'
  have hm := congrArg (· % rightWidth) h4'
  simp only [Nat.add_comm _ ((b - minRight).toNat),Nat.add_comm _ ((b' - minRight).toNat),
    Nat.add_mul_div_right _ _ (show 0 < rightWidth by omega),Nat.div_eq_of_lt h3,
    Nat.div_eq_of_lt h3',Nat.add_mul_mod_self_right,Nat.mod_eq_of_lt h3,Nat.mod_eq_of_lt h3'] at hq hm
  omega

theorem denseI32PairIndex_lt {leftWidth : ℕ}
    (h : denseI32PairIndex left right minLeft minRight rightWidth = some i)
    (hl : (left - minLeft).toNat < leftWidth) : i < leftWidth * rightWidth := by
  obtain ⟨-,-,-,-,h3,-,rfl⟩ := denseI32PairIndex_eq_some.mp h
  calc (left - minLeft).toNat * rightWidth + (right - minRight).toNat
      < (left - minLeft).toNat * rightWidth + rightWidth := by omega
    _ = ((left - minLeft).toNat + 1) * rightWidth := by rw [Nat.add_mul,Nat.one_mul]
    _ ≤ leftWidth * rightWidth := Nat.mul_le_mul_right _ hl

theorem pairIndices_nodup (hentries : List.Forall₂ (fun e e' =>
      denseI32PairIndex e.1.1.toInt e.1.2.toInt minLeft minRight rightWidth = some e'.1 ∧
        e'.2 = e.2) l entries) (hl : (l.map Prod.fst).Nodup) : (entries.map Prod.fst).Nodup := by
  induction hentries with
  | nil => simp
  | @cons e e' l entries hab hrest ih =>
    rw [List.map_cons,List.nodup_cons] at hl ⊢
    refine ⟨?_,ih hl.2⟩
    intro hm
    obtain ⟨x',hx',he⟩ := List.mem_map.mp hm
    obtain ⟨x,hx,hidx,-⟩ := exists_of_forall₂_right hrest hx'
    obtain ⟨h1,h2⟩ := denseI32PairIndex_inj (he ▸ hidx) hab.1
    have hk : x.1 = e.1 := Prod.ext (int32_toInt_injective h1) (int32_toInt_injective h2)
    exact hl.1 (List.mem_map.mpr ⟨x,hx,hk⟩)

theorem getPair_eq_some_iff {width : ℕ} (hentries : List.Forall₂ (fun e e' =>
      denseI32PairIndex e.1.1.toInt e.1.2.toInt minLeft minRight rightWidth = some e'.1 ∧
        e'.2 = e.2) l entries)
    {dense : List (Option BuildRowRef)} (hn : (entries.map Prod.fst).Nodup)
    (hdense : Filled width entries dense) {slots : DenseSlots BuildRowRef}
    (hslots : ∀ i, slots.get i = dense[i]?.join) (k : Int32 × Int32) (v : BuildRowRef) :
    (⟨minLeft,minRight,rightWidth,slots⟩ : DenseI32PairBuildRows).get k = some v ↔ (k,v) ∈ l := by
  unfold DenseI32PairBuildRows.get
  rw [Option.bind_eq_some_iff]
  simp only [hslots,Option.join_eq_some_iff,hdense.mem hn]
  constructor
  · rintro ⟨i,hi,hm⟩
    obtain ⟨e,he,hidx,hv⟩ := exists_of_forall₂_right hentries hm
    obtain ⟨h1,h2⟩ := denseI32PairIndex_inj hidx hi
    have hk : e = (k,v) :=
      Prod.ext (Prod.ext (int32_toInt_injective h1) (int32_toInt_injective h2)) hv.symm
    rw [← hk]
    exact he
  · intro hm
    obtain ⟨e,he,hidx,hv⟩ := exists_of_forall₂_left hentries hm
    have hv : e.2 = v := hv
    exact ⟨e.1,hidx,hv ▸ he⟩

theorem forall₂_of_mapM_eq_some {α β : Type} {f : α → Option β} {l : List α} {r : List β}
    (h : l.mapM f = some r) : List.Forall₂ (fun a b => f a = some b) l r := by
  induction l generalizing r with
  | nil =>
    rw [List.mapM_nil] at h
    cases h
    exact .nil
  | cons a l ih =>
    simp only [List.mapM_cons,Option.bind_eq_bind,Option.bind_eq_some_iff] at h
    obtain ⟨b,hb,r',hr',h⟩ := h
    cases h
    exact .cons hb (ih hr')

/-- A dense pair array always answers like its map: an index that overflows gives it up. -/
theorem denseI32PairBuildRows_spec (m : Map (Int32 × Int32) BuildRowRef) (rows : ℕ) :
    ∃ o, denseI32PairBuildRows m rows = .ok o ∧
      ∀ d : DenseI32PairBuildRows, o = some d → ∀ k, d.get k = m.lookup k := by
  have hnone : ∃ o, (.ok none : Result (Option DenseI32PairBuildRows)) = .ok o ∧
      ∀ d : DenseI32PairBuildRows, o = some d → ∀ k, d.get k = m.lookup k :=
    ⟨none,rfl,fun d h => by cases h⟩
  unfold denseI32PairBuildRows
  rcases min?_max?_cases (m.toPairs.map fun e => e.1.1.toInt) with h0 | ⟨minLeft,maxLeft,hl,hl'⟩
  · simp only [h0]
    exact hnone
  · rcases min?_max?_cases (m.toPairs.map fun e => e.1.2.toInt) with h0 | ⟨minRight,maxRight,hr,hr'⟩
    · have : m.toPairs = [] := by simpa using h0
      rw [this] at hl
      simp at hl
    · simp only [hl,hl',hr,hr']
      split_ifs with h1 h2
      · exact hnone
      · exact hnone
      · split
        · exact hnone
        · next entries hmap =>
          have hforall := forall₂_of_mapM_eq_some hmap
          have hentries : List.Forall₂ (fun (e : (Int32 × Int32) × BuildRowRef) (e' : ℕ × BuildRowRef) =>
              denseI32PairIndex e.1.1.toInt e.1.2.toInt minLeft minRight
                (maxRight - minRight + 1).toNat = some e'.1 ∧ e'.2 = e.2) m.toPairs entries := by
            refine hforall.imp ?_
            intro e e' h
            obtain ⟨i,hi,rfl⟩ := Option.map_eq_some_iff.mp h
            exact ⟨hi,rfl⟩
          have hlt : ∀ e ∈ entries,
              e.1 < (maxLeft - minLeft + 1).toNat * (maxRight - minRight + 1).toNat := by
            intro e he
            obtain ⟨e',he',hi,-⟩ := exists_of_forall₂_right hentries he
            have hb := (keySpan_of_bounds hl hl').2.2.1 _ (List.mem_map.mpr ⟨e',he',rfl⟩)
            exact denseI32PairIndex_lt hi (by omega)
          have hn := pairIndices_nodup hentries m.nodup_toPairs_fst
          obtain ⟨dense,hd,hf⟩ := fillDense_total hlt
          have hcount : dense.countP Option.isSome = m.entries.length := by
            rw [hf.count hn,← hentries.length_eq,Map.length_toPairs]
          obtain ⟨slots,hp,-,hslots⟩ := packDense_spec hcount
          refine ⟨some ⟨minLeft,minRight,(maxRight - minRight + 1).toNat,slots⟩,
            by rw [hd,except_bind_ok,hp]; rfl,?_⟩
          rintro d ⟨⟩ k
          apply Option.ext
          intro v
          rw [getPair_eq_some_iff hentries hn hf hslots,Map.mem_toPairs]

end Pair

end Dodam.Execution

import Mathlib.Algebra.BigOperators.Group.Finset.Piecewise
import Mathlib.Data.List.AList
import Dodam.Foundation.KeyedRuns

/-! # Finite maps with the entry operations of a hash map -/
namespace Dodam.Foundation

/-- A finite map with one entry for each key. -/
abbrev Map (κ ν : Type*) := AList fun _ : κ => ν

namespace Map
variable {κ ν : Type*}

def toPairs (m : Map κ ν) : List (κ × ν) := m.entries.map fun e => (e.1,e.2)

theorem nodup_toPairs_fst (m : Map κ ν) : (m.toPairs.map Prod.fst).Nodup := by
  have h := m.keys_nodup
  rw [toPairs,List.map_map]
  exact h

@[simp] theorem length_toPairs (m : Map κ ν) : m.toPairs.length = m.entries.length :=
  List.length_map ..

variable [DecidableEq κ]

/-- `entry(key).or_default().push(value)`. -/
def pushEntry (m : Map κ (List ν)) (key : κ) (value : ν) : Map κ (List ν) :=
  m.insert key ((m.lookup key).getD [] ++ [value])

def singletons (m : Map κ ν) : Map κ (List ν) :=
  m.entries.foldl (fun acc e => acc.insert e.1 [e.2]) ∅

theorem lookup_pushEntry (m : Map κ (List ν)) (key k : κ) (value : ν) :
    (m.pushEntry key value).lookup k =
      if k = key then some ((m.lookup key).getD [] ++ [value]) else m.lookup k := by
  unfold pushEntry
  split
  · next h => rw [h,AList.lookup_insert]
  · next h => rw [AList.lookup_insert_ne h]

theorem lookup_foldl_insert_of_notMem (es : List (Sigma fun _ : κ => ν)) (acc : Map κ (List ν))
    {k : κ} (h : k ∉ es.keys) :
    (es.foldl (fun acc e => acc.insert e.1 [e.2]) acc).lookup k = acc.lookup k := by
  induction es generalizing acc with
  | nil => rfl
  | cons e es ih =>
    rw [List.keys_cons,List.mem_cons,not_or] at h
    rw [List.foldl_cons,ih _ h.2,AList.lookup_insert_ne h.1]

theorem lookup_foldl_insert (es : List (Sigma fun _ : κ => ν)) (hn : es.NodupKeys)
    (acc : Map κ (List ν)) (k : κ) :
    (es.foldl (fun acc e => acc.insert e.1 [e.2]) acc).lookup k =
      ((es.dlookup k).map fun v => [v]).or (acc.lookup k) := by
  induction es generalizing acc with
  | nil => rfl
  | cons e es ih =>
    obtain ⟨k',v⟩ := e
    rw [List.nodupKeys_cons] at hn
    rw [List.foldl_cons]
    by_cases h : k = k'
    · subst h
      rw [lookup_foldl_insert_of_notMem es _ hn.1,AList.lookup_insert,List.dlookup_cons_eq]
      rfl
    · rw [List.dlookup_cons_ne es _ h,ih hn.2,AList.lookup_insert_ne h]

theorem lookup_singletons (m : Map κ ν) (k : κ) :
    m.singletons.lookup k = (m.lookup k).map fun v => [v] := by
  unfold singletons
  rw [lookup_foldl_insert _ m.nodupKeys,AList.lookup_empty,Option.or_none]
  rfl

theorem mem_toPairs {m : Map κ ν} {k : κ} {v : ν} : (k,v) ∈ m.toPairs ↔ m.lookup k = some v := by
  change _ ↔ v ∈ m.lookup k
  rw [AList.mem_lookup_iff,toPairs,List.mem_map]
  constructor
  · rintro ⟨⟨k',v'⟩,he,heq⟩
    cases heq
    exact he
  · intro h
    exact ⟨⟨k,v⟩,h,rfl⟩

def lastFor : List (κ × ν) → κ → Option ν
  | [],_ => none
  | p :: pairs,key => (lastFor pairs key).or (if p.1 = key then some p.2 else none)

def insertAll (m : Map κ ν) (pairs : List (κ × ν)) : Map κ ν := pairs.foldl (fun m p => m.insert p.1 p.2) m

theorem lookup_insertAll (m : Map κ ν) (pairs : List (κ × ν)) (key : κ) :
    (m.insertAll pairs).lookup key = (lastFor pairs key).or (m.lookup key) := by
  induction pairs generalizing m with
  | nil => rfl
  | cons p pairs ih =>
    rw [insertAll,List.foldl_cons,← insertAll,ih,lastFor,Option.or_assoc]
    congr 1
    by_cases h : p.1 = key
    · rw [if_pos h,← h,AList.lookup_insert]
      rfl
    · rw [if_neg h,AList.lookup_insert_ne (Ne.symm h)]
      rfl

theorem lastFor_append (front back : List (κ × ν)) (key : κ) :
    lastFor (front ++ back) key = (lastFor back key).or (lastFor front key) := by
  induction front with
  | nil => simp [lastFor]
  | cons p front ih => rw [List.cons_append,lastFor,ih,lastFor,Option.or_assoc]

theorem lastFor_eq_none {pairs : List (κ × ν)} {key : κ} : lastFor pairs key = none ↔ key ∉ pairs.map Prod.fst := by
  induction pairs with
  | nil => simp [lastFor]
  | cons p pairs ih =>
    rw [lastFor,Option.or_eq_none_iff,ih,List.map_cons,List.mem_cons,not_or,and_comm]
    by_cases h : p.1 = key
    · simp [h]
    · simp [h,Ne.symm h]

theorem lastFor_eq_some {pairs : List (κ × ν)} (h : (pairs.map Prod.fst).Nodup) {key : κ} {value : ν} :
    lastFor pairs key = some value ↔ (key,value) ∈ pairs := by
  induction pairs with
  | nil => simp [lastFor]
  | cons p pairs ih =>
    obtain ⟨hfresh,hrest⟩ := List.nodup_cons.mp h
    rw [lastFor,List.mem_cons]
    by_cases hkey : p.1 = key
    · subst hkey
      rw [lastFor_eq_none.mpr hfresh,if_pos rfl]
      have hout : (p.1,value) ∉ pairs := fun hmem => hfresh (List.mem_map.mpr ⟨_,hmem,rfl⟩)
      simp [hout,Prod.ext_iff,eq_comm]
    · have hne : (key,value) ≠ p := fun heq => hkey (heq ▸ rfl)
      simp [hkey,hne,ih hrest]

section Total

def total (amount : ν → ℕ) (m : Map κ ν) : ℕ := (m.entries.map fun e => amount e.2).sum

variable (amount : ν → ℕ)

theorem total_insert (m : Map κ ν) (key : κ) (value : ν) : total amount (m.insert key value) = amount value + total amount (m.erase key) := by
  rw [total,AList.entries_insert,List.map_cons,List.sum_cons]
  rfl

theorem total_eq_of_lookup {m : Map κ ν} {key : κ} {value : ν} (h : m.lookup key = some value) :
    total amount m = amount value + total amount (m.erase key) := by
  have hmem : key ∈ m.entries.keys := AList.lookup_isSome.mp (by rw [h]; rfl)
  obtain ⟨found,front,back,hfront,hentries,herase⟩ := List.exists_of_kerase hmem
  have hfound : found = value := by
    have hlookup : m.entries.dlookup key = some value := h
    rw [hentries,List.dlookup_append,List.dlookup_eq_none.mpr hfront,Option.none_or,List.dlookup_cons_eq] at hlookup
    exact Option.some.inj hlookup
  have hrest : total amount (m.erase key) = ((front ++ back).map fun e => amount e.2).sum :=
    congrArg (fun entries => (entries.map fun e => amount e.2).sum) herase
  rw [total,hrest,hentries,hfound]
  simp only [List.map_append,List.map_cons,List.sum_append,List.sum_cons]
  omega

theorem total_erase_of_notMem {m : Map κ ν} {key : κ} (h : m.lookup key = none) : total amount (m.erase key) = total amount m := by
  have hmem : key ∉ m.entries.keys := AList.lookup_eq_none.mp h
  exact congrArg (fun entries => (entries.map fun e => amount e.2).sum) (List.kerase_of_notMem_keys hmem)

end Total

end Map
end Dodam.Foundation

/-! ## Lists with one entry for each key

Adding at a key changes its entry, or puts a new one at the end. What is kept in
several lists keeps its totals however it is split; it is a finite map just where
no key has an entry in two of them.
-/
namespace Dodam.Foundation

variable {κ α : Type*} [DecidableEq κ]

/-- `f` for the entry of a key, which is new with `f start` where there is none. -/
def modifyAt (f : α → α) (start : α) : List (κ × α) → κ → List (κ × α)
  | [],key => [(key,f start)]
  | entry :: entries,key => if entry.1 = key then (entry.1,f entry.2) :: entries else entry :: modifyAt f start entries key

section Keys
variable {f : α → α} {start : α} {entries : List (κ × α)} {key : κ}

theorem keys_modifyAt_of_mem (h : key ∈ entries.map Prod.fst) : (modifyAt f start entries key).map Prod.fst = entries.map Prod.fst := by
  induction entries with
  | nil => cases h
  | cons entry entries ih =>
    unfold modifyAt
    split_ifs with hkey
    · rfl
    · rw [List.map_cons,List.map_cons,ih]
      rcases List.mem_cons.mp h with h | h
      · exact absurd h.symm hkey
      · exact h

theorem modifyAt_of_notMem (h : key ∉ entries.map Prod.fst) : modifyAt f start entries key = entries ++ [(key,f start)] := by
  induction entries with
  | nil => rfl
  | cons entry entries ih =>
    rw [List.map_cons,List.mem_cons,not_or] at h
    unfold modifyAt
    rw [if_neg (Ne.symm h.1),ih h.2]
    rfl

theorem mem_keys_modifyAt {k : κ} : k ∈ (modifyAt f start entries key).map Prod.fst ↔ k = key ∨ k ∈ entries.map Prod.fst := by
  by_cases h : key ∈ entries.map Prod.fst
  · rw [keys_modifyAt_of_mem h]
    constructor
    · exact Or.inr
    · rintro (rfl | hk)
      · exact h
      · exact hk
  · rw [modifyAt_of_notMem h,List.map_append,List.mem_append,List.map_singleton,List.mem_singleton]
    exact or_comm

theorem nodup_modifyAt (h : (entries.map Prod.fst).Nodup) : ((modifyAt f start entries key).map Prod.fst).Nodup := by
  by_cases hkey : key ∈ entries.map Prod.fst
  · rw [keys_modifyAt_of_mem hkey]
    exact h
  · rw [modifyAt_of_notMem hkey,List.map_append,List.map_singleton]
    exact List.nodup_append'.mpr ⟨h,List.nodup_singleton _,List.disjoint_singleton.mpr hkey⟩

end Keys

theorem mem_modifyAt {f : α → α} {start : α} {entries : List (κ × α)} {key : κ} (h : (entries.map Prod.fst).Nodup) {entry : κ × α}
    (hentry : entry ∈ modifyAt f start entries key) :
    entry.1 ≠ key ∧ entry ∈ entries ∨ entry.1 = key ∧ (∃ old, (key,old) ∈ entries ∧ entry.2 = f old) ∨
      entry.1 = key ∧ key ∉ entries.map Prod.fst ∧ entry.2 = f start := by
  induction entries with
  | nil =>
    rw [List.mem_singleton.mp hentry]
    exact Or.inr (Or.inr ⟨rfl,List.not_mem_nil,rfl⟩)
  | cons first entries ih =>
    rw [List.map_cons,List.nodup_cons] at h
    unfold modifyAt at hentry
    split_ifs at hentry with hkey
    · rcases List.mem_cons.mp hentry with rfl | hentry
      · exact Or.inr (Or.inl ⟨hkey,first.2,hkey ▸ List.mem_cons_self,rfl⟩)
      · have hne : entry.1 ≠ key := fun heq => h.1 (hkey ▸ heq ▸ List.mem_map_of_mem hentry)
        exact Or.inl ⟨hne,List.mem_cons_of_mem _ hentry⟩
    · rcases List.mem_cons.mp hentry with rfl | hentry
      · exact Or.inl ⟨hkey,List.mem_cons_self⟩
      · rcases ih h.2 hentry with ⟨hne,hold⟩ | ⟨hsame,old,hold,hnew⟩ | ⟨hsame,hnone,hnew⟩
        · exact Or.inl ⟨hne,List.mem_cons_of_mem _ hold⟩
        · exact Or.inr (Or.inl ⟨hsame,old,List.mem_cons_of_mem _ hold,hnew⟩)
        · refine Or.inr (Or.inr ⟨hsame,?_,hnew⟩)
          rw [List.map_cons,List.mem_cons,not_or]
          exact ⟨Ne.symm hkey,hnone⟩

theorem modifyAt_map {ι : Type*} [DecidableEq ι] {g : κ → ι} (hg : Function.Injective g) (f : α → α) (start : α)
    (entries : List (κ × α)) (key : κ) :
    (modifyAt f start entries key).map (Prod.map g id) = modifyAt f start (entries.map (Prod.map g id)) (g key) := by
  induction entries with
  | nil => rfl
  | cons entry entries ih =>
    rw [List.map_cons]
    unfold modifyAt
    by_cases hkey : entry.1 = key
    · have hname : (Prod.map g id entry).1 = g key := congrArg g hkey
      rw [if_pos hkey,if_pos hname]
      rfl
    · have hname : (Prod.map g id entry).1 ≠ g key := fun h => hkey (hg h)
      rw [if_neg hkey,if_neg hname,List.map_cons,ih]

section Totals
variable [AddCommMonoid α] {f : α → α} {entries : List (κ × α)} {key : κ} {amount : α}

theorem keyTotal_modifyAt (hf : ∀ a, f a = a + amount) (k : κ) :
    keyTotal k (modifyAt f 0 entries key) = keyTotal k entries + if key = k then amount else 0 := by
  have hnil : keyTotal k ([] : List (κ × α)) = 0 := rfl
  induction entries with
  | nil =>
    unfold modifyAt
    rw [keyTotal_cons,hf,hnil,zero_add,zero_add,add_zero]
  | cons entry entries ih =>
    unfold modifyAt
    split_ifs with hkey hk hk
    · rw [keyTotal_cons,keyTotal_cons,hf]
      simp only [hkey,if_pos hk]
      exact add_right_comm ..
    · rw [keyTotal_cons,keyTotal_cons]
      simp only [hkey,if_neg hk,add_zero]
    · rw [keyTotal_cons,keyTotal_cons,ih,if_pos hk,add_assoc]
    · rw [keyTotal_cons,keyTotal_cons,ih,if_neg hk,add_assoc]

theorem keyTotal_concat (k : κ) (entries : List (κ × α)) (key : κ) (amount : α) :
    keyTotal k (entries ++ [(key,amount)]) = keyTotal k entries + if key = k then amount else 0 := by
  rw [keyTotal_append,keyTotal_cons]
  exact congrArg _ (add_zero _)

theorem keyTotal_of_notMem (h : key ∉ entries.map Prod.fst) : keyTotal key entries = 0 := by
  have hfilter : entries.filter (·.1 = key) = [] := by
    apply List.filter_eq_nil_iff.mpr
    intro entry hentry heq
    exact h (List.mem_map.mpr ⟨entry,hentry,of_decide_eq_true heq⟩)
  unfold keyTotal
  rw [hfilter]
  rfl

theorem eq_keyTotal_of_mem (h : (entries.map Prod.fst).Nodup) {entry : κ × α} (hmem : entry ∈ entries) :
    entry.2 = keyTotal entry.1 entries := by
  induction entries with
  | nil => cases hmem
  | cons first entries ih =>
    rw [List.map_cons,List.nodup_cons] at h
    rw [keyTotal_cons]
    rcases List.mem_cons.mp hmem with rfl | hmem
    · rw [if_pos rfl,keyTotal_of_notMem h.1,add_zero]
    · have hne : first.1 ≠ entry.1 := by
        intro heq
        exact h.1 (heq ▸ List.mem_map.mpr ⟨entry,hmem,rfl⟩)
      rw [if_neg hne,zero_add]
      exact ih h.2 hmem

end Totals

theorem sum_map_eq_sum_groups [AddCommMonoid α] {β : Type*} (keyOf : β → κ) (amount : β → α) {keys : List κ} (hnodup : keys.Nodup)
    {items : List β} (hmem : ∀ item ∈ items, keyOf item ∈ keys) :
    (items.map amount).sum = (keys.map fun key => ((items.filter fun item => keyOf item = key).map amount).sum).sum := by
  induction items with
  | nil => simp
  | cons item items ih =>
    have hsplit : ∀ key, (((item :: items).filter fun item => keyOf item = key).map amount).sum =
        (if keyOf item = key then amount item else 0) + ((items.filter fun item => keyOf item = key).map amount).sum := by
      intro key
      by_cases h : keyOf item = key
      · simp [h]
      · simp [h]
    have hone : (keys.map fun key => if keyOf item = key then amount item else 0).sum = amount item := by
      rw [← List.sum_toFinset _ hnodup,Finset.sum_ite_eq,if_pos (List.mem_toFinset.mpr (hmem item List.mem_cons_self))]
    rw [List.map_cons,List.sum_cons,ih fun item h => hmem item (List.mem_cons_of_mem _ h),funext hsplit,List.sum_map_add,hone]

theorem sum_map_ite [AddCommMonoid α] {β : Type*} (p : β → Bool) (amount : β → α) (items : List β) :
    (items.map fun item => if p item = true then amount item else 0).sum = ((items.filter p).map amount).sum := by
  induction items with
  | nil => rfl
  | cons item items ih =>
    rw [List.map_cons,List.sum_cons,ih]
    by_cases h : p item = true
    · rw [if_pos h,List.filter_cons_of_pos h,List.map_cons,List.sum_cons]
    · rw [if_neg h,List.filter_cons_of_neg h,zero_add]

section Maps
variable [AddCommMonoid α]

structure IsTotals (entries updates : List (κ × α)) : Prop where
  nodup : (entries.map Prod.fst).Nodup
  keys : ∀ key, key ∈ entries.map Prod.fst ↔ key ∈ updates.map Prod.fst
  totals : ∀ entry ∈ entries, entry.2 = keyTotal entry.1 updates

/-- The entries have the keys and the totals of the updates, maybe with several entries for a key. -/
structure SumsTo (entries updates : List (κ × α)) : Prop where
  keys : ∀ key, key ∈ entries.map Prod.fst ↔ key ∈ updates.map Prod.fst
  totals : ∀ key, keyTotal key entries = keyTotal key updates

theorem SumsTo.isTotals {entries updates : List (κ × α)} (h : SumsTo entries updates) (hnodup : (entries.map Prod.fst).Nodup) :
    IsTotals entries updates where
  nodup := hnodup
  keys := h.keys
  totals entry hentry := (eq_keyTotal_of_mem hnodup hentry).trans (h.totals entry.1)

/-- The entries after an amount is added at a key, anywhere among them. -/
def AddsEntry (key : κ) (amount : α) (entries entries' : List (κ × α)) : Prop :=
  (∀ k, k ∈ entries'.map Prod.fst ↔ k = key ∨ k ∈ entries.map Prod.fst) ∧
    ∀ k, keyTotal k entries' = keyTotal k entries + if key = k then amount else 0

theorem addsEntry_modifyAt {f : α → α} {amount : α} (hf : ∀ a, f a = a + amount) (entries : List (κ × α)) (key : κ) :
    AddsEntry key amount entries (modifyAt f 0 entries key) :=
  ⟨fun _ => mem_keys_modifyAt,fun k => keyTotal_modifyAt hf k⟩

theorem AddsEntry.append_right {entries entries' : List (κ × α)} {key : κ} {amount : α} (h : AddsEntry key amount entries entries')
    (others : List (κ × α)) : AddsEntry key amount (entries ++ others) (entries' ++ others) := by
  constructor
  · intro k
    rw [List.map_append,List.map_append,List.mem_append,List.mem_append,h.1,or_assoc]
  · intro k
    rw [keyTotal_append,keyTotal_append,h.2]
    exact add_right_comm ..

theorem AddsEntry.append_left {entries entries' : List (κ × α)} {key : κ} {amount : α} (h : AddsEntry key amount entries entries')
    (others : List (κ × α)) : AddsEntry key amount (others ++ entries) (others ++ entries') := by
  constructor
  · intro k
    rw [List.map_append,List.map_append,List.mem_append,List.mem_append,h.1]
    exact or_left_comm
  · intro k
    rw [keyTotal_append,keyTotal_append,h.2]
    exact (add_assoc ..).symm

theorem SumsTo.add {entries entries' updates : List (κ × α)} {key : κ} {amount : α} (h : SumsTo entries updates)
    (hadd : AddsEntry key amount entries entries') : SumsTo entries' (updates ++ [(key,amount)]) where
  keys k := by
    rw [hadd.1,h.keys,List.map_append,List.mem_append,List.map_singleton,List.mem_singleton]
    exact or_comm
  totals k := by
    rw [hadd.2,h.totals,keyTotal_concat]

theorem SumsTo.foldl {β γ : Type*} {step : β → γ → β} {entriesOf : β → List (κ × α)} {entry : γ → κ × α}
    (hstep : ∀ b c, AddsEntry (entry c).1 (entry c).2 (entriesOf b) (entriesOf (step b c))) (cs : List γ) {b : β}
    {updates : List (κ × α)} (h : SumsTo (entriesOf b) updates) :
    SumsTo (entriesOf (cs.foldl step b)) (updates ++ cs.map entry) := by
  induction cs generalizing b updates with
  | nil =>
    rw [List.map_nil,List.append_nil]
    exact h
  | cons c cs ih =>
    have hrest := ih (h.add (hstep b c))
    rw [List.append_assoc] at hrest
    exact hrest

theorem SumsTo.refl (updates : List (κ × α)) : SumsTo updates updates := ⟨fun _ => Iff.rfl,fun _ => rfl⟩

theorem SumsTo.trans {a b c : List (κ × α)} (hab : SumsTo a b) (hbc : SumsTo b c) : SumsTo a c :=
  ⟨fun key => (hab.keys key).trans (hbc.keys key),fun key => (hab.totals key).trans (hbc.totals key)⟩

theorem sumsTo_append {a b u v : List (κ × α)} (ha : SumsTo a u) (hb : SumsTo b v) : SumsTo (a ++ b) (u ++ v) where
  keys k := by
    rw [List.map_append,List.map_append,List.mem_append,List.mem_append,ha.keys,hb.keys]
  totals k := by
    rw [keyTotal_append,keyTotal_append,ha.totals,hb.totals]

theorem IsTotals.perm {a b u v : List (κ × α)} (ha : IsTotals a u) (hb : IsTotals b v) (h : u.Perm v) : a.Perm b := by
  have hmem : ∀ {a b u v : List (κ × α)}, IsTotals a u → IsTotals b v → u.Perm v → ∀ entry ∈ a, entry ∈ b := by
    intro a b u v ha hb h entry hentry
    have hkey : entry.1 ∈ b.map Prod.fst := by
      apply (hb.keys _).mpr
      apply (h.map Prod.fst).mem_iff.mp
      exact (ha.keys _).mp (List.mem_map_of_mem hentry)
    obtain ⟨other,hother,heq⟩ := List.mem_map.mp hkey
    have htotal : keyTotal entry.1 u = keyTotal entry.1 v := ((h.filter _).map _).sum_eq
    have hsame : other = entry := by
      apply Prod.ext heq
      rw [hb.totals other hother,ha.totals entry hentry,heq,htotal]
    exact hsame ▸ hother
  apply (List.perm_ext_iff_of_nodup ha.nodup.of_map hb.nodup.of_map).mpr
  intro entry
  exact ⟨hmem ha hb h entry,hmem hb ha h.symm entry⟩

end Maps
end Dodam.Foundation

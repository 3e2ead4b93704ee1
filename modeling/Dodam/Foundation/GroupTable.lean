import Dodam.Foundation.Grouping

/-! # Tables of groups behind an index

A table keeps one group for each registered key, and an index tells where. A new key gets a
group at the end.
-/
namespace Dodam.Foundation

/-- An index from keys to positions, by its two operations. -/
structure KeyIndex (ι κ : Type*) where
  get : ι → κ → Option ℕ
  insert : ι → κ → ℕ → ι

/-- Inserting a new key changes no other answer. -/
structure KeyIndex.Lawful {ι κ : Type*} [DecidableEq κ] (ops : KeyIndex ι κ) (WF : ι → Prop) : Prop where
  insert_spec : ∀ {index key} (id), WF index → ops.get index key = none → WF (ops.insert index key id) ∧
    ∀ k, ops.get (ops.insert index key id) k = if k = key then some id else ops.get index k

structure Table (ι γ : Type*) where
  index : ι
  groups : List γ

namespace Table
variable {ι κ β γ π : Type*}

/-- The position of a key, with a group of its own when it is new. -/
def groupId (ops : KeyIndex ι κ) (new : κ → γ) (table : Table ι γ) (key : κ) : ℕ × Table ι γ :=
  match ops.get table.index key with
  | some id => (id,table)
  | none => (table.groups.length,⟨ops.insert table.index key table.groups.length,table.groups ++ [new key]⟩)

def update (f : γ → γ) (table : Table ι γ) (id : ℕ) : Table ι γ :=
  { table with groups := table.groups.modify id f }

def addRow (ops : KeyIndex ι κ) (new : κ → γ) (add : γ → β → γ) (table : Table ι γ) (row : κ × β) : Table ι γ :=
  let (id,table) := table.groupId ops new row.1
  table.update (add · row.2) id

end Table

section Parts
variable {β γ π : Type*}

def upsert (start : π) (f : π → π) : List (ℕ × π) → ℕ → List (ℕ × π)
  | [], id => [(id,start)]
  | (i,part) :: rest, id => if i = id then (i,f part) :: rest else (i,part) :: upsert start f rest id

def mergeParts (update : γ → π → γ) (groups : List γ) (parts : List (ℕ × π)) : List γ :=
  parts.foldl (fun groups (id,part) => groups.modify id (update · part)) groups

/-- A row asks for its group, and its value waits in the part of the group. -/
def Table.gatherRow {ι κ : Type*} (ops : KeyIndex ι κ) (new : κ → γ) (start : β → π) (add : π → β → π)
    (state : Table ι γ × List (ℕ × π)) (row : κ × β) : Table ι γ × List (ℕ × π) :=
  let (id,table) := state.1.groupId ops new row.1
  (table,upsert (start row.2) (add · row.2) state.2 id)

theorem upsert_of_notMem {start : π} {f : π → π} {parts : List (ℕ × π)} {id : ℕ}
    (h : id ∉ parts.map Prod.fst) : upsert start f parts id = parts ++ [(id,start)] := by
  induction parts with
  | nil => rfl
  | cons e parts ih =>
    rw [List.map_cons,List.mem_cons,not_or] at h
    rw [upsert,if_neg (Ne.symm h.1),ih h.2,List.cons_append]

theorem upsert_of_mem {start : π} {f : π → π} {parts : List (ℕ × π)} (hnodup : (parts.map Prod.fst).Nodup)
    {i id : ℕ} {part : π} (h : parts[i]? = some (id,part)) :
    upsert start f parts id = parts.modify i fun e => (e.1,f e.2) := by
  induction parts generalizing i with
  | nil => cases h
  | cons e parts ih =>
    rw [List.map_cons,List.nodup_cons] at hnodup
    cases i with
    | zero =>
      cases h
      rw [upsert,if_pos rfl,List.modify_zero_cons]
    | succ i =>
      have hne : e.1 ≠ id := by
        rintro rfl
        have hmem : (e.1,part) ∈ parts := List.mem_of_getElem? (i := i) h
        exact hnodup.1 (List.mem_map.mpr ⟨_,hmem,rfl⟩)
      rw [upsert,if_neg hne,List.modify_succ_cons,ih hnodup.2 h]

theorem getElem?_mergeParts (update : γ → π → γ) {parts : List (ℕ × π)} (hnodup : (parts.map Prod.fst).Nodup)
    (groups : List γ) (i : ℕ) : (mergeParts update groups parts)[i]? =
      groups[i]?.map fun group => ((parts.find? (·.1 = i)).map Prod.snd).elim group (update group) := by
  induction parts generalizing groups with
  | nil =>
    rw [mergeParts,List.foldl_nil]
    exact Option.map_id'.symm
  | cons e parts ih =>
    obtain ⟨id,part⟩ := e
    rw [List.map_cons,List.nodup_cons] at hnodup
    have hstep := ih hnodup.2 (groups.modify id (update · part))
    rw [mergeParts] at hstep ⊢
    rw [List.foldl_cons,hstep,List.getElem?_modify]
    by_cases hi : id = i
    · have hnone : parts.find? (·.1 = i) = none := by
        refine List.find?_eq_none.mpr fun e he hfound => hnodup.1 ?_
        exact List.mem_map.mpr ⟨e,he,(of_decide_eq_true hfound).trans hi.symm⟩
      rw [List.find?_cons_of_pos (by simpa using hi),hnone]
      cases groups[i]? with
      | none => rfl
      | some group => exact congrArg some (if_pos hi)
    · rw [List.find?_cons_of_neg (by simpa using hi)]
      cases groups[i]? with
      | none => rfl
      | some group =>
        refine congrArg (Option.map _) (congrArg some (if_neg hi))

end Parts

section Grouping
variable {κ β γ π : Type*} [DecidableEq κ] {key : γ → κ} {Holds : Multiset β → γ → Prop}
  {rows : Multiset (κ × β)} {groups : List γ}

theorem Grouping.pushRows (h : Grouping key Holds rows groups) {g : γ} (hnew : key g ∉ groups.map key)
    {values : Multiset β} (hg : Holds values g) :
    Grouping key Holds (rows + rowsOf (key g) values) (groups ++ [g]) where
  nodup := by
    rw [List.map_append,List.map_singleton,List.nodup_append']
    refine ⟨h.nodup,List.nodup_singleton _,fun k hk hk' => ?_⟩
    rw [List.mem_singleton] at hk'
    exact hnew (hk' ▸ hk)
  holds g' hg' := by
    rw [valuesAt_add]
    rw [List.mem_append,List.mem_singleton] at hg'
    rcases hg' with hg' | rfl
    · have hne : key g ≠ key g' := fun heq => hnew (heq ▸ List.mem_map_of_mem hg')
      rw [valuesAt_rowsOf_ne hne,add_zero]
      exact h.holds g' hg'
    · rw [h.valuesAt_of_notMem hnew,valuesAt_rowsOf_self,zero_add]
      exact hg
  covers row hrow := by
    rw [List.map_append,List.mem_append]
    rcases Multiset.mem_add.mp hrow with hrow | hrow
    · exact .inl (h.covers row hrow)
    · obtain ⟨v,-,rfl⟩ := Multiset.mem_map.mp hrow
      exact .inr List.mem_cons_self

def PartsHold (Part : Multiset β → π → Prop) (values : Multiset (ℕ × β)) (parts : List (ℕ × π)) : Prop :=
  Grouping Prod.fst (fun values (entry : ℕ × π) => Part values entry.2) values parts

variable {Part : Multiset β → π → Prop}

theorem PartsHold.upsert {values : Multiset (ℕ × β)} {parts : List (ℕ × π)} (h : PartsHold Part values parts)
    {start : π} {f : π → π} {value : β} (hstart : Part {value} start)
    (hf : ∀ held part, Part held part → Part (held + {value}) (f part)) (id : ℕ) :
    PartsHold Part (values + {(id,value)}) (upsert start f parts id) := by
  by_cases hmem : id ∈ parts.map Prod.fst
  · obtain ⟨⟨_,part⟩,he,rfl⟩ := List.mem_map.mp hmem
    obtain ⟨i,hi⟩ := List.getElem?_of_mem he
    rw [upsert_of_mem (Grouping.nodup h) hi]
    exact Grouping.modify (f := fun e => (e.1,f e.2)) h hi (fun _ => rfl) fun held hheld => hf held _ hheld
  · rw [upsert_of_notMem hmem]
    exact Grouping.pushRows (g := (id,start)) h hmem hstart

end Grouping

namespace Table
variable {ι κ β γ π : Type*} [DecidableEq κ]

structure Holds (ops : KeyIndex ι κ) (WF : ι → Prop) (key : γ → κ) (Group : Multiset β → γ → Prop)
    (registered : κ → Prop) (rows : Multiset (κ × β)) (table : Table ι γ) : Prop where
  wf : WF table.index
  indexes : Indexes (fun _ => True) (ops.get table.index) (table.groups.map key)
  grouping : Grouping key Group rows table.groups
  keys : ∀ k, k ∈ table.groups.map key ↔ registered k

def keyAt (key : γ → κ) (table : Table ι γ) (id : ℕ) : Option κ := table.groups[id]?.map key

def Grows (key : γ → κ) (table table' : Table ι γ) : Prop :=
  ∀ id k, table.keyAt key id = some k → table'.keyAt key id = some k

variable {ops : KeyIndex ι κ} {WF : ι → Prop} {key : γ → κ} {Group : Multiset β → γ → Prop} {registered : κ → Prop}
  {rows : Multiset (κ × β)} {table : Table ι γ} {new : κ → γ}

theorem holds_empty {index : ι} (hwf : WF index) (hnone : ∀ k, ops.get index k = none) :
    Holds ops WF key Group (fun _ => False) (0 : Multiset (κ × β)) ⟨index,[]⟩ where
  wf := hwf
  indexes k _ i := by
    rw [hnone]
    exact iff_of_false (Option.some_ne_none i).symm (Option.some_ne_none k).symm
  grouping := grouping_empty
  keys k := iff_of_false List.not_mem_nil not_false

omit [DecidableEq κ] in
theorem keyAt_eq_some {id : ℕ} {k : κ} :
    table.keyAt key id = some k ↔ ∃ group, table.groups[id]? = some group ∧ key group = k :=
  Option.map_eq_some_iff

theorem Holds.get (h : Holds ops WF key Group registered rows table) {k : κ} {id : ℕ} :
    ops.get table.index k = some id ↔ table.keyAt key id = some k := by
  rw [h.indexes k trivial id,List.getElem?_map]
  rfl

/-- After asking for the position of a key, the key is registered and its group stands there. -/
theorem Holds.groupId (h : Holds ops WF key Group registered rows table) (hops : ops.Lawful WF)
    (hkey : ∀ k, key (new k) = k) (hnew : ∀ k, Group 0 (new k)) (k : κ) :
    Holds ops WF key Group (fun k' => registered k' ∨ k' = k) rows (table.groupId ops new k).2 ∧
      (table.groupId ops new k).2.keyAt key (table.groupId ops new k).1 = some k ∧
      Grows key table (table.groupId ops new k).2 := by
  unfold Table.groupId
  cases hget : ops.get table.index k with
  | some id =>
    have hat := h.get.mp hget
    refine ⟨⟨h.wf,h.indexes,h.grouping,fun k' => (h.keys k').trans ?_⟩,hat,fun _ _ h => h⟩
    refine ⟨.inl,fun hk => hk.elim (fun h => h) ?_⟩
    rintro rfl
    obtain ⟨group,hgroup,rfl⟩ := keyAt_eq_some.mp hat
    exact (h.keys _).mp (List.mem_map_of_mem (List.mem_of_getElem? hgroup))
  | none =>
    have hfresh : k ∉ table.groups.map key := h.indexes.notMem trivial hget
    obtain ⟨hwf,hinsert⟩ := hops.insert_spec table.groups.length h.wf hget
    refine ⟨⟨hwf,?_,h.grouping.push (by rw [hkey]; exact hfresh) (hnew k),fun k' => ?_⟩,?_,?_⟩
    · rw [List.map_append,List.map_singleton,hkey]
      refine h.indexes.push trivial hget ?_ fun k' _ hne => ?_
      · rw [hinsert,if_pos rfl,List.length_map]
      · rw [hinsert,if_neg hne]
    · rw [List.map_append,List.mem_append,h.keys,List.map_singleton,List.mem_singleton,hkey]
    · rw [keyAt,List.getElem?_append_right le_rfl,Nat.sub_self]
      exact congrArg some (hkey k)
    · intro id k' hk'
      obtain ⟨group,hgroup,rfl⟩ := keyAt_eq_some.mp hk'
      refine keyAt_eq_some.mpr ⟨group,?_,rfl⟩
      rw [List.getElem?_append_left (List.getElem?_eq_some_iff.mp hgroup).1]
      exact hgroup

omit [DecidableEq κ] in
theorem groupId_of_get {k : κ} {id : ℕ} (h : ops.get table.index k = some id) :
    table.groupId ops new k = (id,table) := by
  rw [Table.groupId,h]

theorem get_groupId (hops : ops.Lawful WF) (hwf : WF table.index) (k : κ) :
    ops.get (table.groupId ops new k).2.index k = some (table.groupId ops new k).1 := by
  unfold Table.groupId
  cases hget : ops.get table.index k with
  | some id => exact hget
  | none => exact ((hops.insert_spec _ hwf hget).2 k).trans (if_pos rfl)

theorem get_groupId_of_get (hops : ops.Lawful WF) (hwf : WF table.index) {k' : κ} {id : ℕ}
    (h : ops.get table.index k' = some id) (k : κ) :
    ops.get (table.groupId ops new k).2.index k' = some id := by
  unfold Table.groupId
  cases hget : ops.get table.index k with
  | some _ => exact h
  | none =>
    refine ((hops.insert_spec _ hwf hget).2 k').trans ((if_neg ?_).trans h)
    rintro rfl
    rw [h] at hget
    cases hget

theorem Holds.congr (h : Holds ops WF key Group registered rows table) {registered' : κ → Prop}
    (heq : ∀ k, registered k ↔ registered' k) : Holds ops WF key Group registered' rows table :=
  ⟨h.wf,h.indexes,h.grouping,fun k => (h.keys k).trans (heq k)⟩

omit [DecidableEq κ] in
theorem keyAt_update {f : γ → γ} (hkey : ∀ g, key (f g) = key g) (id i : ℕ) :
    (table.update f id).keyAt key i = table.keyAt key i := by
  rw [keyAt,Table.update,List.getElem?_modify,keyAt]
  cases table.groups[i]? with
  | none => rfl
  | some g =>
    refine congrArg some ?_
    split_ifs
    · exact hkey g
    · rfl

theorem Holds.update (h : Holds ops WF key Group registered rows table) {id : ℕ} {k : κ}
    (hid : table.keyAt key id = some k) {f : γ → γ} (hkey : ∀ g, key (f g) = key g) {values : Multiset β}
    (hf : ∀ held g, Group held g → Group (held + values) (f g)) :
    Holds ops WF key Group registered (rows + rowsOf k values) (table.update f id) := by
  obtain ⟨group,hgroup,rfl⟩ := keyAt_eq_some.mp hid
  have hkeys : (table.update f id).groups.map key = table.groups.map key := by
    refine List.ext_getElem? fun j => ?_
    rw [List.getElem?_map,List.getElem?_map]
    exact keyAt_update hkey id j
  refine ⟨h.wf,?_,h.grouping.modify hgroup hkey fun held => hf held _,fun k => ?_⟩
  · rw [hkeys]
    exact h.indexes
  · rw [hkeys]
    exact h.keys k

theorem Holds.addRow (h : Holds ops WF key Group registered rows table) (hops : ops.Lawful WF)
    (hkey : ∀ k, key (new k) = k) (hnew : ∀ k, Group 0 (new k)) {add : γ → β → γ}
    (hadd : ∀ g v, key (add g v) = key g) (hgroup : ∀ held g v, Group held g → Group (held + {v}) (add g v))
    (row : κ × β) : Holds ops WF key Group (fun k => registered k ∨ k = row.1) (rows + {row})
      (table.addRow ops new add row) := by
  obtain ⟨hid,hat,-⟩ := h.groupId hops hkey hnew row.1
  exact hid.update hat (fun g => hadd g row.2) fun held g => hgroup held g row.2

omit [DecidableEq κ] in
theorem registered_cons {l : List (κ × β)} {row : κ × β} {k : κ} :
    ((registered k ∨ k = row.1) ∨ ∃ r ∈ l, r.1 = k) ↔ registered k ∨ ∃ r ∈ row :: l, r.1 = k := by
  rw [List.exists_mem_cons_iff,or_assoc,@eq_comm _ k]

theorem Holds.addRows (h : Holds ops WF key Group registered rows table) (hops : ops.Lawful WF)
    (add : γ → β → γ) (hkey : ∀ k, key (new k) = k) (hnew : ∀ k, Group 0 (new k))
    (hadd : ∀ g v, key (add g v) = key g) (hgroup : ∀ held g v, Group held g → Group (held + {v}) (add g v))
    (l : List (κ × β)) : Holds ops WF key Group (fun k => registered k ∨ ∃ r ∈ l, r.1 = k) (rows + l)
      (l.foldl (Table.addRow ops new add) table) := by
  induction l generalizing registered rows table with
  | nil =>
    rw [Multiset.coe_nil,add_zero]
    exact h.congr fun k => (or_iff_left fun ⟨_,hr,_⟩ => List.not_mem_nil hr).symm
  | cons row l ih =>
    have hrest := ih (h.addRow hops hkey hnew hadd hgroup row)
    rw [add_assoc,Multiset.singleton_add,Multiset.cons_coe] at hrest
    exact hrest.congr fun _ => registered_cons

end Table

namespace Table
variable {ι κ β γ π : Type*} [DecidableEq κ] {ops : KeyIndex ι κ} {WF : ι → Prop} {key : γ → κ}
  {Group : Multiset β → γ → Prop} {Part : Multiset β → π → Prop} {registered : κ → Prop}
  {rows : Multiset (κ × β)} {table : Table ι γ}

def Waiting (key : γ → κ) (table : Table ι γ) (values : Multiset (ℕ × β)) (rows : Multiset (κ × β)) : Prop :=
  values.map (fun value => (table.keyAt key value.1,value.2)) = rows.map fun row => (some row.1,row.2)

omit [DecidableEq κ] in
theorem waiting_zero : Waiting key table (0 : Multiset (ℕ × β)) (0 : Multiset (κ × β)) := rfl

omit [DecidableEq κ] in
theorem Waiting.keyAt {values : Multiset (ℕ × β)} {waiting : Multiset (κ × β)}
    (h : Waiting key table values waiting) {value : ℕ × β} (hvalue : value ∈ values) :
    ∃ k, table.keyAt key value.1 = some k := by
  have hmem := Multiset.mem_map_of_mem (fun value => (table.keyAt key value.1,value.2)) hvalue
  rw [h] at hmem
  obtain ⟨row,-,hrow⟩ := Multiset.mem_map.mp hmem
  exact ⟨row.1,(Prod.ext_iff.mp hrow).1.symm⟩

omit [DecidableEq κ] in
theorem Waiting.grows {values : Multiset (ℕ × β)} {waiting : Multiset (κ × β)} {table' : Table ι γ}
    (h : Waiting key table values waiting) (hgrows : Grows key table table') :
    Waiting key table' values waiting := by
  refine Eq.trans (Multiset.map_congr rfl fun value hvalue => ?_) h
  obtain ⟨k,hk⟩ := h.keyAt hvalue
  rw [hk,hgrows _ _ hk]

omit [DecidableEq κ] in
theorem Waiting.add {values : Multiset (ℕ × β)} {waiting : Multiset (κ × β)}
    (h : Waiting key table values waiting) {id : ℕ} {k : κ} (hid : table.keyAt key id = some k) (value : β) :
    Waiting key table (values + {(id,value)}) (waiting + {(k,value)}) := by
  rw [Waiting,Multiset.map_add,h,Multiset.map_add,Multiset.map_singleton,Multiset.map_singleton,hid]

theorem Waiting.valuesAt_eq {values : Multiset (ℕ × β)} {waiting : Multiset (κ × β)}
    (h : Waiting key table values waiting) (hnodup : (table.groups.map key).Nodup) {id : ℕ} {k : κ}
    (hid : table.keyAt key id = some k) : valuesAt waiting k = valuesAt values id := by
  have hkeys : valuesAt (waiting.map fun row => (some row.1,row.2)) (some k) = valuesAt waiting k := by
    rw [valuesAt,Multiset.filter_map,Multiset.map_map,valuesAt]
    refine congrArg _ (Multiset.filter_congr fun row _ => ?_)
    exact Option.some_inj
  rw [← hkeys,← h,valuesAt,Multiset.filter_map,Multiset.map_map,valuesAt]
  refine congrArg _ (Multiset.filter_congr fun value hvalue => ?_)
  obtain ⟨k',hk'⟩ := h.keyAt hvalue
  constructor
  · intro heq
    refine (List.getElem?_inj ?_ hnodup).mp ?_
    · obtain ⟨group,hgroup,-⟩ := keyAt_eq_some.mp hk'
      rw [List.length_map]
      exact (List.getElem?_eq_some_iff.mp hgroup).1
    · rw [List.getElem?_map,List.getElem?_map]
      exact heq.trans hid.symm
  · rintro rfl
    exact hid

omit [DecidableEq κ] in
theorem Waiting.card_eq {values : Multiset (ℕ × β)} {waiting : Multiset (κ × β)}
    (h : Waiting key table values waiting) : values.card = waiting.card := by
  have hcard := congrArg Multiset.card h
  rwa [Multiset.card_map,Multiset.card_map] at hcard

theorem Holds.mergeParts (h : Holds ops WF key Group registered rows table) {values : Multiset (ℕ × β)}
    {waiting : Multiset (κ × β)} {parts : List (ℕ × π)} (hparts : PartsHold Part values parts)
    (hwaiting : Waiting key table values waiting) {update : γ → π → γ} (hkey : ∀ g p, key (update g p) = key g)
    (hupdate : ∀ held more g p, more.card ≤ waiting.card → Group held g → Part more p →
      Group (held + more) (update g p)) :
    Holds ops WF key Group registered (rows + waiting)
      { table with groups := Foundation.mergeParts update table.groups parts } := by
  have hat := getElem?_mergeParts update (Grouping.nodup hparts) table.groups
  have hkeys : (Foundation.mergeParts update table.groups parts).map key = table.groups.map key := by
    refine List.ext_getElem? fun j => ?_
    rw [List.getElem?_map,List.getElem?_map,hat]
    cases table.groups[j]? with
    | none => rfl
    | some g => cases parts.find? (·.1 = j) with
      | none => rfl
      | some e => exact congrArg some (hkey g e.2)
  refine ⟨h.wf,?_,⟨?_,?_,?_⟩,fun k => ?_⟩
  · rw [hkeys]
    exact h.indexes
  · rw [hkeys]
    exact h.grouping.nodup
  · intro g' hg'
    obtain ⟨j,hj⟩ := List.getElem?_of_mem hg'
    rw [hat] at hj
    obtain ⟨g,hg,rfl⟩ := Option.map_eq_some_iff.mp hj
    have hid : table.keyAt key j = some (key g) := keyAt_eq_some.mpr ⟨g,hg,rfl⟩
    have hold := h.grouping.holds g (List.mem_of_getElem? hg)
    cases hfind : parts.find? (·.1 = j) with
    | none =>
      have hnone : valuesAt values j = 0 := Grouping.valuesAt_of_notMem hparts fun hmem => by
        obtain ⟨e,he,hej⟩ := List.mem_map.mp hmem
        exact List.find?_eq_none.mp hfind e he (by simpa using hej)
      rw [Option.map_none,Option.elim_none,valuesAt_add,hwaiting.valuesAt_eq h.grouping.nodup hid,hnone,add_zero]
      exact hold
    | some e =>
      have hmem := List.mem_of_find?_eq_some hfind
      have hej : e.1 = j := by simpa using List.find?_some hfind
      have hpart := Grouping.holds hparts e hmem
      rw [hej] at hpart
      rw [Option.map_some,Option.elim_some,hkey,valuesAt_add,hwaiting.valuesAt_eq h.grouping.nodup hid]
      refine hupdate _ _ _ _ ?_ hold hpart
      rw [← hwaiting.card_eq]
      exact card_valuesAt_le values j
  · intro row hrow
    rw [hkeys]
    rcases Multiset.mem_add.mp hrow with hrow | hrow
    · exact h.grouping.covers row hrow
    · have hmem := Multiset.mem_map_of_mem (fun row => (some row.1,row.2)) hrow
      rw [← hwaiting] at hmem
      obtain ⟨value,-,hvalue⟩ := Multiset.mem_map.mp hmem
      obtain ⟨g,hg,hgk⟩ := keyAt_eq_some.mp (Prod.ext_iff.mp hvalue).1
      exact hgk ▸ List.mem_map_of_mem (List.mem_of_getElem? hg)
  · rw [hkeys]
    exact h.keys k

structure Gathered (ops : KeyIndex ι κ) (WF : ι → Prop) (key : γ → κ) (Group : Multiset β → γ → Prop)
    (Part : Multiset β → π → Prop) (registered : κ → Prop) (rows waiting : Multiset (κ × β))
    (state : Table ι γ × List (ℕ × π)) : Prop where
  table : Holds ops WF key Group registered rows state.1
  parts : ∃ values, PartsHold Part values state.2 ∧ Waiting key state.1 values waiting

section Gather
variable {waiting : Multiset (κ × β)} {state : Table ι γ × List (ℕ × π)} {new : κ → γ}

theorem gathered_start (P : Multiset β → π → Prop) (h : Holds ops WF key Group registered rows table) :
    Gathered ops WF key Group P registered rows 0 (table,[]) :=
  ⟨h,0,grouping_empty,waiting_zero⟩

theorem Gathered.groupId (h : Gathered ops WF key Group Part registered rows waiting state)
    (hops : ops.Lawful WF) (hkey : ∀ k, key (new k) = k) (hnew : ∀ k, Group 0 (new k)) (k : κ) :
    Gathered ops WF key Group Part (fun k' => registered k' ∨ k' = k) rows waiting
      ((state.1.groupId ops new k).2,state.2) := by
  obtain ⟨htable,-,hgrows⟩ := h.table.groupId hops hkey hnew k
  obtain ⟨values,hparts,hwaiting⟩ := h.parts
  exact ⟨htable,values,hparts,hwaiting.grows hgrows⟩

theorem Gathered.gatherRow (h : Gathered ops WF key Group Part registered rows waiting state)
    (hops : ops.Lawful WF) (hkey : ∀ k, key (new k) = k) (hnew : ∀ k, Group 0 (new k)) {start : β → π}
    {add : π → β → π} (hstart : ∀ v, Part {v} (start v))
    (hadd : ∀ held p v, Part held p → Part (held + {v}) (add p v)) (row : κ × β) :
    Gathered ops WF key Group Part (fun k => registered k ∨ k = row.1) rows (waiting + {row})
      (gatherRow ops new start add state row) := by
  obtain ⟨htable,hat,hgrows⟩ := h.table.groupId hops hkey hnew row.1
  obtain ⟨values,hparts,hwaiting⟩ := h.parts
  exact ⟨htable,_,hparts.upsert (hstart row.2) (fun held p => hadd held p row.2) _,
    (hwaiting.grows hgrows).add hat row.2⟩

theorem Gathered.congr (h : Gathered ops WF key Group Part registered rows waiting state)
    {registered' : κ → Prop} (heq : ∀ k, registered k ↔ registered' k) :
    Gathered ops WF key Group Part registered' rows waiting state :=
  ⟨h.table.congr heq,h.parts⟩

theorem Gathered.gatherRows (h : Gathered ops WF key Group Part registered rows waiting state)
    (hops : ops.Lawful WF) (hkey : ∀ k, key (new k) = k) (hnew : ∀ k, Group 0 (new k)) {start : β → π}
    {add : π → β → π} (hstart : ∀ v, Part {v} (start v))
    (hadd : ∀ held p v, Part held p → Part (held + {v}) (add p v)) (l : List (κ × β)) :
    Gathered ops WF key Group Part (fun k => registered k ∨ ∃ r ∈ l, r.1 = k) rows (waiting + l)
      (l.foldl (Table.gatherRow ops new start add) state) := by
  induction l generalizing registered waiting state with
  | nil =>
    rw [Multiset.coe_nil,add_zero]
    exact h.congr fun k => (or_iff_left fun ⟨_,hr,_⟩ => List.not_mem_nil hr).symm
  | cons row l ih =>
    have hrest := ih (h.gatherRow hops hkey hnew hstart hadd row)
    rw [add_assoc,Multiset.singleton_add,Multiset.cons_coe] at hrest
    exact hrest.congr fun _ => registered_cons

theorem Gathered.merge (h : Gathered ops WF key Group Part registered rows waiting state) (update : γ → π → γ)
    (hkey : ∀ g p, key (update g p) = key g)
    (hupdate : ∀ held more g p, more.card ≤ waiting.card → Group held g → Part more p →
      Group (held + more) (update g p)) :
    Holds ops WF key Group registered (rows + waiting)
      { state.1 with groups := Foundation.mergeParts update state.1.groups state.2 } := by
  obtain ⟨values,hparts,hwaiting⟩ := h.parts
  exact h.table.mergeParts hparts hwaiting hkey hupdate

end Gather

end Table
end Dodam.Foundation

import Dodam.Execution.PartitionColumns

/-! # Which column a name finds

Two names stand for the same column when one ends in the other behind its last dot, or when they
are the same aggregate of such columns.
-/
namespace Dodam.Execution
open Foundation

/-- The segment is behind the last dot of the name, or is the name. -/
def EndsInSegment (name segment : List Char) : Prop :=
  '.' ∉ segment ∧ (name = segment ∨ ∃ qualifier, name = qualifier ++ '.' :: segment)

/-- Two names of the same column, by a suffix or by the name of an aggregate. -/
inductive SameColumn : List Char → List Char → Prop
  | same (name : List Char) : SameColumn name name
  | endsIn {left right : List Char} (h : EndsInSegment left right) : SameColumn left right
  | endOf {left right : List Char} (h : EndsInSegment right left) : SameColumn left right
  | aggregate {function function' argument argument' : List Char} (hname : '(' ∉ function) (hname' : '(' ∉ function')
    (hsame : eqIgnoreAsciiCase function function' = true) (h : SameColumn argument argument') :
    SameColumn (function ++ '(' :: (argument ++ [')'])) (function' ++ '(' :: (argument' ++ [')']))

/-- A field that the suffix rule or the aggregate rule finds for a column. -/
def Designates (field column : String) : Prop :=
  SameColumn field.toList column.toList ∨
    ∃ qualifier, '.' ∉ qualifier ∧ column.toList = qualifier ++ '.' :: field.toList

theorem lastSegment_eq_iff {name segment : List Char} : lastSegment name = segment ↔ EndsInSegment name segment := by
  have hsplit := List.takeWhile_append_dropWhile (p := fun c : Char => decide (c ≠ '.')) (l := name.reverse)
  constructor
  · rintro rfl
    refine ⟨fun hdot => ?_,?_⟩
    · have := List.mem_takeWhile_imp (List.mem_reverse.mp hdot)
      simp at this
    · cases hrest : name.reverse.dropWhile fun c => decide (c ≠ '.') with
      | nil =>
        rw [hrest,List.append_nil] at hsplit
        exact .inl (by rw [lastSegment,hsplit,List.reverse_reverse])
      | cons c rest =>
        have hc : c = '.' := by
          have hhead := List.head_dropWhile_not (fun c : Char => decide (c ≠ '.')) (l := name.reverse)
            (by rw [hrest]; exact List.cons_ne_nil _ _)
          simp only [hrest,List.head_cons,decide_eq_false_iff_not,ne_eq,not_not] at hhead
          exact hhead
        refine .inr ⟨rest.reverse,?_⟩
        have hname := congrArg List.reverse hsplit
        rw [hrest,hc,List.reverse_append,List.reverse_reverse,List.reverse_cons,List.append_assoc] at hname
        exact hname.symm
  · have hall : ∀ segment : List Char, '.' ∉ segment → ∀ c ∈ segment.reverse, decide (c ≠ '.') = true := by
      intro segment hdot c hc
      rw [decide_eq_true_eq]
      rintro rfl
      exact hdot (List.mem_reverse.mp hc)
    rintro ⟨hdot,rfl | ⟨qualifier,rfl⟩⟩
    · rw [lastSegment,List.takeWhile_eq_self_iff.mpr (hall name hdot),List.reverse_reverse]
    · rw [lastSegment,List.reverse_append,List.reverse_cons,List.append_assoc,
        List.takeWhile_append_of_pos (hall segment hdot),List.singleton_append,List.takeWhile_cons_of_neg (by simp),
        List.append_nil,List.reverse_reverse]

theorem sameSegments_iff {left right : List Char} :
    sameSegments left right = true ↔ left = right ∨ EndsInSegment left right ∨ EndsInSegment right left := by
  rw [sameSegments,Bool.or_eq_true,Bool.or_eq_true,decide_eq_true_eq,decide_eq_true_eq,decide_eq_true_eq,lastSegment_eq_iff,
    lastSegment_eq_iff,or_assoc]

theorem physicalAggregateColumnParts_eq_some {column function argument : List Char} :
    physicalAggregateColumnParts column = some (function,argument) ↔
      column = function ++ '(' :: (argument ++ [')']) ∧ '(' ∉ function := by
  have hstrip : ∀ rest : List Char, stripSuffix ')' rest = some argument ↔ rest = argument ++ [')'] := by
    intro rest
    unfold stripSuffix
    constructor
    · intro h
      split_ifs at h with hlast
      rw [← Option.some.inj h,List.dropLast_append_getLast? _ hlast]
    · rintro rfl
      rw [if_pos List.getLast?_concat,List.dropLast_concat]
  unfold physicalAggregateColumnParts
  constructor
  · intro h
    obtain ⟨⟨name,rest⟩,hsplit,hrest⟩ := Option.bind_eq_some_iff.mp h
    obtain ⟨argument',hargument,heq⟩ := Option.map_eq_some_iff.mp hrest
    cases heq
    obtain ⟨rfl,hname⟩ := splitOnce_eq_some.mp hsplit
    rw [(hstrip rest).mp hargument]
    exact ⟨rfl,hname⟩
  · rintro ⟨rfl,hname⟩
    rw [splitOnce_append hname]
    exact Option.map_eq_some_iff.mpr ⟨argument,(hstrip _).mpr rfl,rfl⟩

theorem sameColumn_iff {left right : List Char} :
    SameColumn left right ↔ sameSegments left right = true ∨ ∃ function argument function' argument',
      physicalAggregateColumnParts left = some (function,argument) ∧
        physicalAggregateColumnParts right = some (function',argument') ∧ eqIgnoreAsciiCase function function' = true ∧
          SameColumn argument argument' := by
  constructor
  · rintro (_ | h | h | ⟨hname,hname',hsame,h⟩)
    · exact .inl (sameSegments_self _)
    · exact .inl (sameSegments_iff.mpr (.inr (.inl h)))
    · exact .inl (sameSegments_iff.mpr (.inr (.inr h)))
    · exact .inr ⟨_,_,_,_,physicalAggregateColumnParts_eq_some.mpr ⟨rfl,hname⟩,
        physicalAggregateColumnParts_eq_some.mpr ⟨rfl,hname'⟩,hsame,h⟩
  · rintro (h | ⟨function,argument,function',argument',hleft,hright,hsame,h⟩)
    · rcases sameSegments_iff.mp h with rfl | h | h
      · exact .same left
      · exact .endsIn h
      · exact .endOf h
    · obtain ⟨rfl,hname⟩ := physicalAggregateColumnParts_eq_some.mp hleft
      obtain ⟨rfl,hname'⟩ := physicalAggregateColumnParts_eq_some.mp hright
      exact .aggregate hname hname' hsame h

theorem physicalSameColumnTo_iff {depth : ℕ} {left right : List Char} (h : left.length ≤ depth) :
    physicalSameColumnTo depth left right = true ↔ SameColumn left right := by
  induction depth generalizing left right with
  | zero =>
    obtain rfl := List.eq_nil_of_length_eq_zero (Nat.le_zero.mp h)
    have hnone : physicalAggregateColumnParts [] = none := rfl
    rw [sameColumn_iff,hnone,physicalSameColumnTo]
    simp
  | succ depth ih =>
    rw [sameColumn_iff,physicalSameColumnTo]
    cases hleft : physicalAggregateColumnParts left with
    | none => simp
    | some parts =>
      cases hright : physicalAggregateColumnParts right with
      | none => simp
      | some parts' =>
        obtain ⟨function,argument⟩ := parts
        obtain ⟨function',argument'⟩ := parts'
        have hshorter : argument.length ≤ depth := by
          rw [(physicalAggregateColumnParts_eq_some.mp hleft).1,List.length_append,List.length_cons,List.length_append] at h
          omega
        rw [Bool.or_eq_true,Bool.and_eq_true,ih hshorter,or_comm]
        refine or_congr_right ⟨?_,?_⟩
        · rintro ⟨hsame,h⟩
          exact ⟨_,_,_,_,rfl,rfl,hsame,h⟩
        · rintro ⟨_,_,_,_,⟨⟩,⟨⟩,hsame,h⟩
          exact ⟨hsame,h⟩

theorem physicalSameColumn_iff {left right : String} :
    physicalSameColumn left right = true ↔ SameColumn left.toList right.toList := physicalSameColumnTo_iff le_rfl

theorem designates_of_resolves {field column : String} (h : Resolves field column) : Designates field column := by
  rcases h with h | ⟨qualifier,unqualified,hsplit,hfield⟩
  · exact .inl (physicalSameColumn_iff.mp h)
  · obtain ⟨hcolumn,hdot⟩ := splitOnce_eq_some.mp hsplit
    exact .inr ⟨qualifier,hdot,hfield ▸ hcolumn⟩

/-- A column is found at the field with its very name, and else only at a field that one of the rules designates, if and
only if no field before the one with its name is the same column by a suffix or as an aggregate. -/
theorem columnIndex_exact_iff (names : List String) (column : String) :
    ((∀ i : ℕ, names[i]? = some column → columnIndex names column = .ok i) ∧
        (column ∉ names → ∀ i, columnIndex names column = .ok i → ∃ field, names[i]? = some field ∧ Designates field column)) ↔
      ∀ i : ℕ, names[i]? = some column → ∀ j < i, ∀ field, names[j]? = some field → ¬SameColumn field.toList column.toList := by
  have hfound : ∀ i, (names.findIdx? fun name => physicalSameColumn name column) = some i → columnIndex names column = .ok i := by
    intro i hi
    rw [columnIndex,hi]
  constructor
  · rintro ⟨hexact,-⟩ i hi j hj field hfield hsame
    have hindex := hexact i hi
    obtain ⟨k,hk⟩ : ∃ k, (names.findIdx? fun name => physicalSameColumn name column) = some k := by
      refine Option.isSome_iff_exists.mp (List.findIdx?_isSome.trans (List.any_eq_true.mpr ?_))
      exact ⟨field,List.mem_of_getElem? hfield,physicalSameColumn_iff.mpr hsame⟩
    rw [hfound k hk] at hindex
    cases hindex
    obtain ⟨_,_,hbefore⟩ := List.findIdx?_eq_some_iff_getElem.mp hk
    refine hbefore j hj ?_
    rw [← physicalSameColumn_iff] at hsame
    obtain ⟨hlt,rfl⟩ := List.getElem?_eq_some_iff.mp hfield
    exact hsame
  · intro hbefore
    refine ⟨fun i hi => hfound i (List.findIdx?_eq_some_iff_getElem.mpr ?_),fun _ i hi => ?_⟩
    · obtain ⟨hlt,hname⟩ := List.getElem?_eq_some_iff.mp hi
      refine ⟨hlt,?_,fun j hj hsame => ?_⟩
      · rw [hname,physicalSameColumn_iff]
        exact .same _
      · exact hbefore i hi j hj _ (List.getElem?_eq_getElem _) (physicalSameColumn_iff.mp hsame)
    · obtain ⟨field,hfield,hresolves⟩ := columnIndex_resolves hi
      exact ⟨field,hfield,designates_of_resolves hresolves⟩

/-- The field with the very name comes second and is not found. -/
theorem columnIndex_shadowed :
    ["a.id","id"].Nodup ∧ ["a.id","id"][1]? = some "id" ∧ columnIndex ["a.id","id"] "id" = .ok 0 := by
  decide

end Dodam.Execution

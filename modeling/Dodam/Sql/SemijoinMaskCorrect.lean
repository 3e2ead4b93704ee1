import Dodam.Sql.SemijoinKeys

/-! # Semi-join masks and lists

The mask of a key set and the filter with the list of a small set are compared
with the SQL test of an outer column against the values of a subquery.
-/
namespace Dodam.Sql
open Foundation Execution SemijoinKeySet

section InList
variable {γ : Type*} {kernels : Kernels γ} {batch : Batch γ} {column : String} {values : List LiteralValue}
  {negated hasNull : Bool} {row : ℕ}

variable {answer : LiteralValue → Option Bool} {mask : Mask}

theorem foldlM_comparisons {found : Option Bool} (hmask : mask[row]? = some found)
    (h : ∀ value ∈ values, ∀ m, evaluateBatchComparison kernels batch ⟨column,.eq,value⟩ = .ok m →
      m[row]? = some (answer value)) {result : Mask} (hresult : values.foldlM (fun mask value =>
      (evaluateBatchComparison kernels batch ⟨column,.eq,value⟩).map (orMasks mask)) mask = .ok result) :
    result[row]? = some (values.foldl (fun found value => orKleene found (answer value)) found) := by
  induction values generalizing mask found with
  | nil =>
    cases hresult
    exact hmask
  | cons value values ih =>
    rw [List.forall_mem_cons] at h
    rw [List.foldlM_cons] at hresult
    obtain ⟨next,hnext,hresult⟩ := bind_eq_ok_iff.mp hresult
    obtain ⟨equal,hequal,rfl⟩ := map_eq_ok_iff.mp hnext
    exact ih (Meaning.getElem?_zipWith_some hmask (h.1 _ hequal)) h.2 hresult

theorem foldlM_comparisons_ok : (∃ result, values.foldlM (fun mask value =>
      (evaluateBatchComparison kernels batch ⟨column,.eq,value⟩).map (orMasks mask)) mask = .ok result) ↔
      ∀ value ∈ values, ∃ m, evaluateBatchComparison kernels batch ⟨column,.eq,value⟩ = .ok m := by
  induction values generalizing mask with
  | nil => exact iff_of_true ⟨mask,rfl⟩ (by simp)
  | cons value values ih =>
    rw [List.forall_mem_cons]
    constructor
    · rintro ⟨result,hresult⟩
      obtain ⟨next,hnext,hresult⟩ := bind_eq_ok_iff.mp hresult
      obtain ⟨equal,hequal,rfl⟩ := map_eq_ok_iff.mp hnext
      exact ⟨⟨equal,hequal⟩,ih.mp ⟨result,hresult⟩⟩
    · rintro ⟨⟨equal,hequal⟩,hvalues⟩
      have hrest : ∃ result, values.foldlM (fun mask value =>
          (evaluateBatchComparison kernels batch ⟨column,.eq,value⟩).map (orMasks mask)) (orMasks mask equal) = .ok result :=
        ih.mpr hvalues
      obtain ⟨result,hresult⟩ := hrest
      exact ⟨result,bind_eq_ok_iff.mpr ⟨_,map_eq_ok_iff.mpr ⟨equal,hequal,rfl⟩,hresult⟩⟩

theorem evaluateInList_ok :
    (∃ mask, evaluateInList kernels batch column values negated hasNull = .ok mask) ↔
      ∀ value ∈ values, ∃ m, evaluateBatchComparison kernels batch ⟨column,.eq,value⟩ = .ok m := by
  rw [← foldlM_comparisons_ok]
  unfold evaluateInList
  simp only [map_eq_ok_iff]
  exact ⟨fun ⟨_,result,hresult,_⟩ => ⟨result,hresult⟩,fun ⟨result,hresult⟩ => ⟨_,result,hresult,rfl⟩⟩

theorem evaluateInList_true (hrow : row < batch.numRows)
    (h : ∀ value ∈ values, ∀ m, evaluateBatchComparison kernels batch ⟨column,.eq,value⟩ = .ok m →
      m[row]? = some (answer value))
    (hmask : evaluateInList kernels batch column values negated hasNull = .ok mask) :
    mask[row]? = some (some true) ↔
      if negated then hasNull = false ∧ ∀ value ∈ values, answer value = some false
      else ∃ value ∈ values, answer value = some true := by
  obtain ⟨result,hresult,rfl⟩ := map_eq_ok_iff.mp hmask
  have hstart : (List.replicate batch.numRows (some false))[row]? = some (some false) := by
    rw [List.getElem?_replicate,if_pos hrow]
  have hfound := foldlM_comparisons hstart h hresult
  have htrue : values.foldl (fun found value => orKleene found (answer value)) (some false) = some true ↔
      ∃ value ∈ values, answer value = some true := by
    simp [foldl_orKleene_eq_true]
  have hfalse : values.foldl (fun found value => orKleene found (answer value)) (some false) = some false ↔
      ∀ value ∈ values, answer value = some false := by
    simp [foldl_orKleene_eq_false]
  rw [← htrue,← hfalse]
  generalize values.foldl (fun found value => orKleene found (answer value)) (some false) = found at hfound
  rcases found with _ | _ | _ <;> cases negated <;> cases hasNull <;>
    simp [notMask,nullifyFalseValues,hfound]

end InList

section Scan
variable {γ : Type*} {floats : Floats} {order : γ → String → Option Ordering} {kernels : Kernels γ}

/-- The types that an integer literal is brought to. -/
def ReadsInteger (value : ℤ) : TestedType → Prop
  | .boolean => False
  | .date32 => InSigned 32 value
  | .scaled (.timestamp .microsecond) => InSigned 64 (value * 1000)
  | .scaled (.timestamp .nanosecond) => InSigned 64 (value * 1000000)
  | type => IntegerFits value type

variable {value : Int64}

theorem typedLiteral_int64_iff {type : TestedType} {column : String} :
    (∃ d, typedLiteral floats type column (.int64 value) = .ok d) ↔ ReadsInteger value.toInt type := by
  have hmap : ∀ {α β : Type} {x : Result α} {f : α → β}, (∃ d, x.map f = .ok d) ↔ ∃ a, x = .ok a := by
    intro α β x f
    cases x <;> simp [Except.map]
  have hchecked : ∀ {w : ℕ} {x : ℤ} {text : String}, (∃ y, okOr (checkedSigned w x) (invalidComparison column text) = .ok y) ↔
      InSigned w x := by
    intro w x text
    simp [okOr_invalidComparison,checkedSigned_eq_some]
  have hnumber : type.IsNumber → ((∃ d, typedLiteral floats type column (.int64 value) = .ok d) ↔ IntegerFits value.toInt type) := by
    intro htype
    simp only [typedLiteral_integer htype,exists_and_left]
    exact and_iff_left ⟨_,rfl⟩
  cases type with
  | int32 | int64 | uint64 | float64 => exact hnumber trivial
  | boolean =>
    refine iff_of_false ?_ id
    rintro ⟨d,h⟩
    cases h
  | date32 => exact hmap.trans hchecked
  | date64 | utf8 => exact iff_of_true ⟨_,rfl⟩ trivial
  | scaled type =>
    cases type with
    | decimal128 precision scale => exact hnumber trivial
    | timestamp unit =>
      cases unit with
      | second | millisecond => exact iff_of_true ⟨_,rfl⟩ trivial
      | microsecond | nanosecond => exact hmap.trans hchecked

def Cell.StoredAs (order : γ → String → Option Ordering) (type : TestedType) (x : Option (Datum γ)) : Cell → Prop
  | .null => ∀ op d, (x.bind fun x => x.compare order op d) = none
  | .integer value => (type = .int32 ∨ type = .int64) ∧ x = some (.number value.toInt)
  | .date days => type = .date32 ∧ x = some (.instant (days.toInt * 86400))
  | .dateTime millis => type = .date64 ∧ x = some (.instant (millis.toInt / 1000))
  | _ => True

/-- The column that the name resolves to in the scan stores the outer column; `none` is a type that is not compared. -/
def ScansColumn (order : γ → String → Option Ordering) (scan : Batch γ) (name : String) (outer : ArrayRef) :
    Option TestedType → Prop
  | some type => ∃ data, HoldsColumn scan name type data ∧
      ∀ row < outer.length, ∃ x, data[row]? = some x ∧ (outer.cell row).StoredAs order type x
  | none => ∃ index field dataType rows, columnIndex scan.names name = .ok index ∧
      scan.columns[index]? = some (field,.stored (.unsupported dataType rows))

/-- A comparison with an integer, on a cell: NULL on NULL, and the equality of the keys. -/
def Cell.EqualsInteger (value : Int64) (x : Cell) (answer : Option Bool) : Prop :=
  (x = .null → answer = none) ∧ ∀ key, x.integerKey = some key → answer = some (decide (key = value))

theorem equalsInteger_of_storedAs {cell : Cell} {type : TestedType} {x : Option (Datum γ)} {column : String}
    {d : Datum String} (hstored : cell.StoredAs order type x) (hd : typedLiteral floats type column (.int64 value) = .ok d) :
    cell.EqualsInteger value (x.bind fun x => x.compare order .eq d) := by
  have hnumber : ∀ a b : Int64, decide ((OrderTest.eq).Holds (a.toInt : ℚ) b.toInt) = decide (a = b) := by
    intro a b
    simp [OrderTest.Holds,Int64.toInt_inj]
  refine ⟨fun hnull => ?_,fun key hkey => ?_⟩
  · subst hnull
    exact hstored .eq d
  · cases cell with
    | integer stored =>
      obtain ⟨htype,rfl⟩ := hstored
      cases hkey
      have hread : d = .number value.toInt := by
        rcases htype with rfl | rfl
        · obtain ⟨bound,hbound,rfl⟩ := map_eq_ok_iff.mp hd
          obtain ⟨-,rfl⟩ := checkedSigned_eq_some.mp (okOr_invalidComparison.mp hbound)
          rfl
        · cases hd
          rfl
      rw [hread]
      exact congrArg some (hnumber _ _)
    | date days =>
      obtain ⟨rfl,rfl⟩ := hstored
      cases hkey
      obtain ⟨bound,hbound,rfl⟩ := map_eq_ok_iff.mp hd
      obtain ⟨-,rfl⟩ := checkedSigned_eq_some.mp (okOr_invalidComparison.mp hbound)
      refine congrArg some (decide_eq_decide.mpr ?_)
      simp [OrderTest.Holds,← Int64.toInt_inj]
    | dateTime millis =>
      obtain ⟨rfl,rfl⟩ := hstored
      cases hkey
      cases hd
      refine congrArg some (decide_eq_decide.mpr ?_)
      simp [OrderTest.Holds,Int64.toInt_inj]
    | null | boolean | decimal | double | text | unread => cases hkey

variable {scan : Batch γ} {name : String} {outer : ArrayRef} {tested : Option TestedType}

/-- The types of columns that take an integer literal. -/
def TakesInteger (tested : Option TestedType) (value : Int64) : Prop := ∃ type, tested = some type ∧ ReadsInteger value.toInt type

theorem evaluateBatchComparison_int64_ok (hdoubles : ComparesDoubles floats order kernels)
    (hscan : ScansColumn order scan name outer tested) :
    (∃ m, evaluateBatchComparison kernels scan ⟨name,.eq,.int64 value⟩ = .ok m) ↔ TakesInteger tested value := by
  unfold TakesInteger
  cases tested with
  | none =>
    obtain ⟨index,field,dataType,rows,hindex,hcolumn⟩ := hscan
    refine iff_of_false ?_ (by simp)
    rintro ⟨m,hm⟩
    unfold evaluateBatchComparison at hm
    rw [if_neg (by simp),hindex] at hm
    simp only [Except.bind,hcolumn] at hm
    cases hm
  | some type =>
    obtain ⟨data,hcolumn,-⟩ := hscan
    have hread : (∃ d, typedLiteral floats type name (.int64 value) = .ok d) ↔ ReadsInteger value.toInt type :=
      typedLiteral_int64_iff
    rw [evaluateBatchComparison_typed hdoubles hcolumn (by simp)]
    simp only [Option.some.injEq,exists_eq_left',← hread]
    constructor
    · rintro ⟨m,hm⟩
      obtain ⟨d,hd,-⟩ := map_eq_ok_iff.mp hm
      exact ⟨d,hd⟩
    · rintro ⟨d,hd⟩
      exact ⟨_,map_eq_ok_iff.mpr ⟨d,hd,rfl⟩⟩

theorem exists_answers (hdoubles : ComparesDoubles floats order kernels)
    (hscan : ScansColumn order scan name outer tested) {row : ℕ} (hrow : row < outer.length) :
    ∃ answer : LiteralValue → Option Bool, ∀ value m,
      evaluateBatchComparison kernels scan ⟨name,.eq,.int64 value⟩ = .ok m →
        m[row]? = some (answer (.int64 value)) ∧ (outer.cell row).EqualsInteger value (answer (.int64 value)) := by
  cases tested with
  | none =>
    refine ⟨fun _ => none,fun value m hm => ?_⟩
    obtain ⟨type,htype,-⟩ := (evaluateBatchComparison_int64_ok hdoubles hscan).mp ⟨m,hm⟩
    cases htype
  | some type =>
    obtain ⟨data,hcolumn,hdata⟩ := hscan
    obtain ⟨x,hx,hstored⟩ := hdata row hrow
    refine ⟨fun value => (typedLiteral floats type name value).toOption.bind fun d => x.bind fun x => x.compare order .eq d,
      fun value m hm => ?_⟩
    rw [evaluateBatchComparison_typed hdoubles hcolumn (by simp)] at hm
    obtain ⟨d,hd,rfl⟩ := map_eq_ok_iff.mp hm
    dsimp only at hd ⊢
    rw [hd,List.getElem?_map,hx]
    exact ⟨rfl,equalsInteger_of_storedAs hstored hd⟩

end Scan

section Selected
variable {floats : Floats} {keys : SemijoinKeySet} {batches : List NamedBatch} {keyColumn : String} {first : ArrayRef}
  {arrays : List ArrayRef} {cells : List Cell} {form : KeyForm} {x : Cell} {row : ℕ} {negated : Bool} {mask : Mask}
  {batch : NamedBatch} {outerColumn : String} {outer : ArrayRef}

def SharesKey (floats : Floats) (form : KeyForm) (cells : List Cell) (x : Cell) : Prop :=
  ∃ key, form.key floats x = some key ∧ ∃ y ∈ cells, form.key floats y = some key

/-- The cells of the columns that a key set is collected from. -/
def keyCells (arrays : List ArrayRef) : List Cell := arrays.flatMap ArrayRef.cells

theorem not_sharesKey_null : ¬ SharesKey floats form cells .null := by
  simp [SharesKey]

structure Collected (floats : Floats) (keys : SemijoinKeySet) (form : KeyForm) (cells : List Cell) : Prop where
  form_eq : keys.form = some form
  mem_iff : ∀ key, keys.Mem key ↔ ∃ y ∈ cells, form.key floats y = some key
  null_iff : keys.hasNull = true ↔ .null ∈ cells
  read : ∀ y ∈ cells, y ≠ .null → (form.key floats y).isSome

theorem Collected.has_iff (h : Collected floats keys form cells) : keys.Has floats form x ↔ SharesKey floats form cells x := by
  unfold SemijoinKeySet.Has SharesKey
  simp only [h.mem_iff]

theorem collected (harrays : batches.mapM (fun batch => batch.keyArray keyColumn) = .ok (first :: arrays))
    (h : collectSemijoinKeySet floats batches keyColumn = .ok keys) :
    Collected floats keys first.keyForm (keyCells (first :: arrays)) := by
  have htakes := collectSemijoinKeySet_takes harrays h
  have hmem : ∀ key, ¬ (forDataType first).Mem key := by
    intro key
    cases first <;> simp [forDataType]
  have hnull : (forDataType first).hasNull = false := by cases first <;> rfl
  refine ⟨htakes.form_eq,fun key => ?_,?_,htakes.read⟩
  · simp only [htakes.mem_iff,hmem,false_or,keyCells]
  · rw [htakes.null_iff,hnull]
    simp [keyCells]

theorem mask_selects (hkeys : Collected floats keys form cells) (houter : batch.keyArray outerColumn = .ok outer)
    (hmask : semijoinMask floats batch outerColumn keys negated = .ok mask) (hrow : row < outer.length) :
    mask[row]? = some (some true) ↔
      if negated then .null ∉ cells ∧ (outer.cell row = .null → ¬ form.ReadsInLoop outer) ∧
        ¬ SharesKey floats form cells (outer.cell row)
      else SharesKey floats form cells (outer.cell row) := by
  unfold semijoinMask at hmask
  cases negated with
  | false =>
    unfold semijoinMembershipMask at hmask
    rw [if_neg Bool.false_ne_true,houter] at hmask
    obtain ⟨answer,hanswer,htrue,-,-⟩ := membershipMask_rows hkeys.form_eq hrow hmask
    rw [hanswer,if_neg Bool.false_ne_true,← hkeys.has_iff,← htrue,Option.some.injEq]
  | true =>
    unfold semijoinAntiMembershipMask at hmask
    rw [if_pos rfl,houter] at hmask
    rw [if_pos rfl,← hkeys.null_iff,← hkeys.has_iff]
    change keys.antiMembershipMask floats outer = .ok mask at hmask
    unfold antiMembershipMask at hmask
    by_cases hnull : keys.hasNull = true
    · rw [if_pos hnull] at hmask
      cases hmask
      simp [hnull,hrow]
    · rw [if_neg hnull] at hmask
      obtain ⟨membership,hmembership,rfl⟩ := map_eq_ok_iff.mp hmask
      obtain ⟨answer,hanswer,htrue,hnone,-⟩ := membershipMask_rows hkeys.form_eq hrow hmembership
      rw [List.getElem?_map,hanswer,← htrue]
      have hloop : (outer.cell row = .null → ¬ form.ReadsInLoop outer) ↔ answer ≠ none := by
        rw [ne_eq,hnone,not_and]
      rw [hloop]
      rcases answer with _ | _ | _ <;> simp [hnull]

theorem mask_reads (hkeys : Collected floats keys form cells) (houter : batch.keyArray outerColumn = .ok outer)
    (hmask : semijoinMask floats batch outerColumn keys negated = .ok mask) (hrow : row < outer.length)
    (hcells : negated = true → .null ∉ cells) (hx : outer.cell row ≠ .null) :
    (form.key floats (outer.cell row)).isSome := by
  obtain ⟨membership,hmembership⟩ : ∃ membership, keys.membershipMask floats outer = .ok membership := by
    unfold semijoinMask semijoinMembershipMask semijoinAntiMembershipMask at hmask
    rw [houter] at hmask
    cases negated with
    | false => exact ⟨mask,hmask⟩
    | true =>
      change keys.antiMembershipMask floats outer = .ok mask at hmask
      unfold antiMembershipMask at hmask
      rw [if_neg (mt hkeys.null_iff.mp (hcells rfl))] at hmask
      obtain ⟨membership,hmembership,-⟩ := map_eq_ok_iff.mp hmask
      exact ⟨membership,hmembership⟩
  obtain ⟨-,-,-,-,hread⟩ := membershipMask_rows hkeys.form_eq hrow hmembership
  exact hread hx

theorem mask_selects_empty (houter : batch.keyArray outerColumn = .ok outer)
    (hmask : semijoinMask floats batch outerColumn (.empty false) negated = .ok mask) (hrow : row < outer.length) :
    mask[row]? = some (some true) ↔ negated = true := by
  unfold semijoinMask semijoinMembershipMask semijoinAntiMembershipMask at hmask
  rw [houter] at hmask
  cases negated <;> cases hmask <;> simp [hrow]

theorem inSubquery_true_iff : inSubquery floats negated cells x = some true ↔
    if negated then .null ∉ cells ∧ (x = .null → cells = []) ∧ ¬ (x ≠ .null ∧ SharesValue floats cells x)
    else x ≠ .null ∧ SharesValue floats cells x := by
  by_cases hx : x = .null
  · subst hx
    cases negated with
    | false => simp [inSubquery_null]
    | true =>
      rw [notInSubquery_null]
      simp only [if_true,forall_const,ne_eq,not_true_eq_false,false_and,not_false_eq_true,and_true]
      exact ⟨fun h => ⟨by simp [h],h⟩,And.right⟩
  · cases negated with
    | false => simp [inSubquery_of_nonnull hx,hx]
    | true =>
      by_cases hnull : .null ∈ cells
      · exact iff_of_false (notInSubquery_with_null hnull) fun h => h.1 hnull
      · rw [notInSubquery_of_nonnull hx hnull]
        simp [hx,hnull]

theorem mem_sorted_literals {values : Finset Int64} {literal : LiteralValue} :
    literal ∈ (((values.image Int64.toInt).sort).map Int64.ofInt).map LiteralValue.int64 ↔
      ∃ value ∈ values, .int64 value = literal := by
  simp

variable {γ : Type*} {order : γ → String → Option Ordering} {kernels : Kernels γ} {scan : Batch γ}
  {tested : Option TestedType} {values : Finset Int64} {hasNull : Bool} {list : List LiteralValue}

theorem list_selects (hdoubles : ComparesDoubles floats order kernels)
    (hscan : ScansColumn order scan outerColumn outer tested) (hrows : scan.numRows = outer.length)
    (hkeys : Collected floats (.int64 values hasNull) .int64 cells) (hrow : row < outer.length)
    (hread : (negated = true → .null ∉ cells) → outer.cell row ≠ .null →
      (KeyForm.int64.key floats (outer.cell row)).isSome)
    (hlist : ∀ literal, literal ∈ list ↔ ∃ value ∈ values, .int64 value = literal)
    (hmask : evaluateInList kernels scan outerColumn list negated hasNull = .ok mask) :
    mask[row]? = some (some true) ↔
      if negated then .null ∉ cells ∧ (outer.cell row = .null → cells = []) ∧
        ¬ SharesKey floats .int64 cells (outer.cell row)
      else SharesKey floats .int64 cells (outer.cell row) := by
  obtain ⟨answer,hanswer⟩ := exists_answers hdoubles hscan hrow
  have hok : ∀ literal ∈ list, ∃ m, evaluateBatchComparison kernels scan ⟨outerColumn,.eq,literal⟩ = .ok m :=
    evaluateInList_ok.mp ⟨mask,hmask⟩
  have hequal : ∀ value ∈ values, (outer.cell row).EqualsInteger value (answer (.int64 value)) := by
    intro value hvalue
    obtain ⟨m,hm⟩ := hok _ ((hlist _).mpr ⟨value,hvalue,rfl⟩)
    exact (hanswer value m hm).2
  have hnone : hasNull = false ↔ .null ∉ cells := by
    rw [← hkeys.null_iff]
    simp [SemijoinKeySet.hasNull]
  have hselect : mask[row]? = some (some true) ↔
      if negated then .null ∉ cells ∧ ∀ value ∈ values, answer (.int64 value) = some false
      else ∃ value ∈ values, answer (.int64 value) = some true := by
    have hliterals : ∀ literal ∈ list, ∀ m,
        evaluateBatchComparison kernels scan ⟨outerColumn,.eq,literal⟩ = .ok m → m[row]? = some (answer literal) := by
      intro literal hliteral m hm
      obtain ⟨value,-,rfl⟩ := (hlist literal).mp hliteral
      exact (hanswer value m hm).1
    have hselect := evaluateInList_true (hrows ▸ hrow) hliterals hmask
    simpa [hlist,hnone,and_assoc] using hselect
  have hmem : ∀ key, key ∈ values ↔ ∃ y ∈ cells, KeyForm.int64.key floats y = some (.integer key) := by
    intro key
    rw [← hkeys.mem_iff]
    simp
  rw [hselect]
  by_cases hx : outer.cell row = .null
  · have hunknown : ∀ value ∈ values, answer (.int64 value) = none := fun value hvalue => (hequal value hvalue).1 hx
    rw [hx]
    cases negated with
    | false =>
      refine iff_of_false ?_ not_sharesKey_null
      rintro ⟨value,hvalue,htrue⟩
      rw [hunknown value hvalue] at htrue
      cases htrue
    | true =>
      refine and_congr_right fun hcells => ?_
      rw [and_iff_left not_sharesKey_null,forall_prop_of_true rfl]
      constructor
      · refine fun hfalse => List.eq_nil_iff_forall_not_mem.mpr fun y hy => ?_
        have hy' : y ≠ .null := fun h => hcells (h ▸ hy)
        obtain ⟨key,hkey⟩ := Option.isSome_iff_exists.mp (hkeys.read y hy hy')
        obtain ⟨value,hvalue,rfl⟩ := mem_int64.mp ((hkeys.mem_iff key).mpr ⟨y,hy,hkey⟩)
        have hvalue' := hfalse value hvalue
        rw [hunknown value hvalue] at hvalue'
        cases hvalue'
      · rintro rfl value hvalue
        obtain ⟨y,hy,-⟩ := (hmem value).mp hvalue
        exact absurd hy List.not_mem_nil
  · by_cases hblocked : negated = true ∧ .null ∈ cells
    · rw [if_pos hblocked.1,if_pos hblocked.1]
      exact iff_of_false (fun h => h.1 hblocked.2) fun h => h.1 hblocked.2
    · have hsome := hread (fun h hcells => hblocked ⟨h,hcells⟩) hx
      obtain ⟨key,hkey⟩ : ∃ key, (outer.cell row).integerKey = some key := by
        rw [KeyForm.key,Option.isSome_map] at hsome
        exact Option.isSome_iff_exists.mp hsome
      have hkey' : KeyForm.int64.key floats (outer.cell row) = some (.integer key) := congrArg (Option.map _) hkey
      have hanswers : ∀ value ∈ values, answer (.int64 value) = some (decide (key = value)) :=
        fun value hvalue => (hequal value hvalue).2 key hkey
      have hshares : SharesKey floats .int64 cells (outer.cell row) ↔ key ∈ values := by
        unfold SharesKey
        rw [hkey',hmem]
        simp
      rw [hshares]
      cases negated with
      | false =>
        constructor
        · rintro ⟨value,hvalue,htrue⟩
          rw [hanswers value hvalue,Option.some.injEq,decide_eq_true_eq] at htrue
          exact htrue ▸ hvalue
        · exact fun hvalue => ⟨key,hvalue,by rw [hanswers key hvalue,decide_eq_true rfl]⟩
      | true =>
        refine and_congr_right fun _ => ?_
        rw [and_iff_right fun h => absurd h hx]
        constructor
        · intro hfalse hvalue
          have hvalue' := hfalse key hvalue
          rw [hanswers key hvalue,decide_eq_true rfl] at hvalue'
          cases hvalue'
        · intro hkey value hvalue
          rw [hanswers value hvalue,decide_eq_false (show ¬ key = value from fun h => hkey (h ▸ hvalue))]

/-- The keys of the form answer for the values, in the rows of the outer column. -/
structure AnswersRows (floats : Floats) (form : KeyForm) (cells : List Cell) (outer : ArrayRef) (negated : Bool) : Prop where
  nulls : negated = true → .null ∈ outer.cells → .null ∉ cells → (cells = [] ↔ ¬ form.ReadsInLoop outer)
  values : (negated = true → .null ∉ cells) → ∀ x ∈ outer.cells, x ≠ .null →
    (SharesKey floats form cells x ↔ SharesValue floats cells x)

theorem mask_correct_iff (hkeys : Collected floats keys form cells) (houter : batch.keyArray outerColumn = .ok outer)
    (hmask : semijoinMask floats batch outerColumn keys negated = .ok mask) :
    (∀ row < outer.length, mask[row]? = some (some true) ↔ inSubquery floats negated cells (outer.cell row) = some true) ↔
      AnswersRows floats form cells outer negated := by
  have hrows : (∀ row < outer.length,
      mask[row]? = some (some true) ↔ inSubquery floats negated cells (outer.cell row) = some true) ↔
      ∀ x ∈ outer.cells, (if negated then .null ∉ cells ∧ (x = .null → ¬ form.ReadsInLoop outer) ∧
        ¬ SharesKey floats form cells x else SharesKey floats form cells x) ↔
        if negated then .null ∉ cells ∧ (x = .null → cells = []) ∧ ¬ (x ≠ .null ∧ SharesValue floats cells x)
        else x ≠ .null ∧ SharesValue floats cells x := by
    simp only [mem_cells,forall_exists_index,and_imp,forall_apply_eq_imp_iff₂]
    exact forall₂_congr fun row hrow => by rw [mask_selects hkeys houter hmask hrow,inSubquery_true_iff]
  rw [hrows]
  constructor
  · intro hall
    refine ⟨fun hneg hnull hcells => ?_,fun hcells x hx hvalid => ?_⟩
    · have hx := hall _ hnull
      subst hneg
      simpa [hcells,not_sharesKey_null,iff_comm] using hx
    · have hx := hall x hx
      cases negated with
      | false => simpa [hvalid] using hx
      | true => simpa [hvalid,hcells rfl,not_iff_not] using hx
  · rintro ⟨hnulls,hvalues⟩ x hx
    by_cases hvalid : x = .null
    · subst hvalid
      cases negated with
      | false => simp [not_sharesKey_null]
      | true =>
        refine and_congr_right fun hcells => ?_
        simp [not_sharesKey_null,hnulls rfl hx hcells]
    · cases negated with
      | false => simpa [hvalid] using hvalues (fun h => absurd h Bool.false_ne_true) x hx hvalid
      | true =>
        refine and_congr_right fun hcells => ?_
        simp [hvalid,hvalues (fun _ => hcells) x hx hvalid]

/-- The list of a small set selects the rows of the mask where every integer is read. -/
theorem list_correct_iff (hdoubles : ComparesDoubles floats order kernels)
    (hscan : ScansColumn order scan outerColumn outer tested) (hrows : scan.numRows = outer.length)
    (hkeys : Collected floats keys form cells) (houter : batch.keyArray outerColumn = .ok outer)
    (hmask : semijoinMask floats batch outerColumn keys negated = .ok mask)
    (hanswers : AnswersRows floats form cells outer negated) :
    (∀ maxValues expr, keys.toSmallInt64InListExpr outerColumn negated maxValues = some expr →
      ∃ listMask, evaluateFilter kernels scan expr = .ok listMask ∧
        ∀ row < outer.length, listMask[row]? = some (some true) ↔ mask[row]? = some (some true)) ↔
      (form = .int64 → ∀ y ∈ cells, ∀ value, y.integerKey = some value → TakesInteger tested value) := by
  have hform := hkeys.form_eq
  cases keys with
  | empty hasNull => cases hform
  | utf8 values hasNull | literal values hasNull =>
    cases hform
    exact iff_of_true (by rintro _ _ ⟨⟩) (by rintro ⟨⟩)
  | int64 values hasNull =>
    cases hform
    have hmem : ∀ key, key ∈ values ↔ ∃ y ∈ cells, y.integerKey = some key := by
      intro key
      have hmem := hkeys.mem_iff (.integer key)
      simpa [KeyForm.key] using hmem
    constructor
    · rintro hall - y hy value hvalue
      obtain ⟨listMask,hlist,-⟩ := hall values.card _ (if_pos le_rfl)
      have hliteral := mem_sorted_literals.mpr ⟨value,(hmem value).mpr ⟨y,hy,hvalue⟩,rfl⟩
      exact (evaluateBatchComparison_int64_ok hdoubles hscan).mp (evaluateInList_ok.mp ⟨listMask,hlist⟩ _ hliteral)
    · intro hfits maxValues expr hexpr
      unfold toSmallInt64InListExpr at hexpr
      dsimp only at hexpr
      split_ifs at hexpr
      cases hexpr
      have hok : ∃ listMask, evaluateFilter kernels scan (.inList outerColumn
          ((((values.image Int64.toInt).sort).map Int64.ofInt).map .int64) negated hasNull) = .ok listMask := by
        refine evaluateInList_ok.mpr fun literal hliteral => ?_
        obtain ⟨value,hvalue,rfl⟩ := mem_sorted_literals.mp hliteral
        obtain ⟨y,hy,hkey⟩ := (hmem value).mp hvalue
        exact (evaluateBatchComparison_int64_ok hdoubles hscan).mpr (hfits rfl y hy value hkey)
      obtain ⟨listMask,hlist⟩ := hok
      refine ⟨listMask,hlist,fun row hrow => ?_⟩
      have hread := mask_reads hkeys houter hmask hrow
      rw [list_selects hdoubles hscan hrows hkeys hrow hread (fun _ => mem_sorted_literals) hlist,
        mask_selects hkeys houter hmask hrow]
      cases negated with
      | false => exact Iff.rfl
      | true =>
        refine and_congr_right fun hcells => and_congr_left fun _ => forall_congr' fun hnull => ?_
        exact hanswers.nulls rfl (mem_cells.mpr ⟨row,hrow,hnull⟩) hcells

/-- When the keys of a subquery decide a test: NULL rows of NOT IN are kept exactly over no values, keys are shared
where values are, and integers are read by the outer column. -/
structure KeysDecide (floats : Floats) (arrays : List ArrayRef) (outer : ArrayRef) (negated : Bool)
    (tested : Option TestedType) : Prop where
  answers : ∀ first, arrays.head? = some first → AnswersRows floats first.keyForm (keyCells arrays) outer negated
  fits : ∀ first, arrays.head? = some first → first.keyForm = .int64 → ∀ y ∈ keyCells arrays, ∀ value,
    y.integerKey = some value → TakesInteger tested value

/-- The mask of a key set is the SQL test, and the list of a small set selects its rows, exactly when the keys decide. -/
theorem semijoinKeySet_decides_iff (hdoubles : ComparesDoubles floats order kernels)
    (harrays : batches.mapM (fun batch => batch.keyArray keyColumn) = .ok arrays)
    (hkeys : collectSemijoinKeySet floats batches keyColumn = .ok keys)
    (houter : batch.keyArray outerColumn = .ok outer)
    (hmask : semijoinMask floats batch outerColumn keys negated = .ok mask)
    (hscan : ScansColumn order scan outerColumn outer tested) (hrows : scan.numRows = outer.length) :
    ((∀ row < outer.length, mask[row]? = some (some true) ↔
        inSubquery floats negated (keyCells arrays) (outer.cell row) = some true) ∧
      ∀ maxValues expr, keys.toSmallInt64InListExpr outerColumn negated maxValues = some expr →
        ∃ listMask, evaluateFilter kernels scan expr = .ok listMask ∧
          ∀ row < outer.length, listMask[row]? = some (some true) ↔ mask[row]? = some (some true)) ↔
      KeysDecide floats arrays outer negated tested := by
  cases arrays with
  | nil =>
    obtain rfl := collectSemijoinKeySet_empty harrays hkeys
    have hselects : ∀ row < outer.length, mask[row]? = some (some true) ↔ negated = true :=
      fun row hrow => mask_selects_empty houter hmask hrow
    refine iff_of_true ⟨fun row hrow => ?_,fun maxValues expr hexpr => ?_⟩ ⟨by simp,by simp⟩
    · rw [hselects row hrow,inSubquery_true_iff]
      cases negated <;> simp [keyCells,SharesValue]
    · cases hexpr
      refine ⟨_,rfl,fun row hrow => ?_⟩
      rw [hselects row hrow]
      cases negated <;> simp [notMask,hrows,hrow]
  | cons first arrays =>
    have hcollected := collected harrays hkeys
    rw [mask_correct_iff hcollected houter hmask]
    constructor
    · rintro ⟨hanswers,hlist⟩
      have hfits := (list_correct_iff hdoubles hscan hrows hcollected houter hmask hanswers).mp hlist
      refine ⟨?_,?_⟩
      · rintro _ ⟨⟩
        exact hanswers
      · rintro _ ⟨⟩
        exact hfits
    · intro hdecide
      have hanswers := hdecide.answers first rfl
      exact ⟨hanswers,(list_correct_iff hdoubles hscan hrows hcollected houter hmask hanswers).mpr (hdecide.fits first rfl)⟩

end Selected

section Alike
variable {floats : Floats} {form : KeyForm} {cells : List Cell} {x y : Cell}

end Alike

section Examples

def keyBatch (column : ArrayRef) : NamedBatch where
  numRows := column.length
  columns := [("k",column)]
  structFieldArray _ _ := unknownColumn "field"
  listLengths _ _ := unknownColumn "list"
  length_eq := List.forall_mem_singleton.mpr rfl
  structField_length _ _ _ := nofun
  listLengths_length _ _ _ := nofun

/-- Among integers a NULL is not kept by NOT IN. -/
theorem semijoinKeySet_decides_integers : ((∀ row < 2, [some true,none][row]? = some (some true) ↔
      inSubquery textHost.floats true (keyCells [.int64 [some 3]]) ((ArrayRef.int64 [some 1,none]).cell row) = some true) ∧
    ∀ maxValues expr, (SemijoinKeySet.int64 (∅ ∪ [3].toFinset) false).toSmallInt64InListExpr "k" true maxValues = some expr →
      ∃ listMask, evaluateFilter (doubleKernels textHost.floats textHost.floats.partialCmp)
          ⟨2,[("k",.stored (.int64 [some 1,none]))]⟩ expr = .ok listMask ∧
        ∀ row < 2, listMask[row]? = some (some true) ↔ [some true,none][row]? = some (some true)) ↔
    KeysDecide textHost.floats [.int64 [some 3]] (.int64 [some 1,none]) true (some .int64) := by
  have harrays : [keyBatch (.int64 [some 3])].mapM (fun batch => batch.keyArray "k") = .ok [.int64 [some 3]] := rfl
  have hkeys : collectSemijoinKeySet textHost.floats [keyBatch (.int64 [some 3])] "k" =
      .ok (.int64 (∅ ∪ [3].toFinset) false) := rfl
  have houter : (keyBatch (.int64 [some 1,none])).keyArray "k" = .ok (.int64 [some 1,none]) := rfl
  have hmask : semijoinMask textHost.floats (keyBatch (.int64 [some 1,none])) "k" (.int64 (∅ ∪ [3].toFinset) false) true =
      .ok [some true,none] := rfl
  have hscan : ScansColumn textHost.floats.partialCmp ⟨2,[("k",.stored (.int64 [some 1,none]))]⟩ "k"
      (.int64 [some 1,none]) (some .int64) := by
    refine ⟨_,⟨0,"k",_,rfl,rfl,rfl,rfl⟩,fun row hrow => ?_⟩
    match row,hrow with
    | 0,_ => exact ⟨_,rfl,Or.inr rfl,rfl⟩
    | 1,_ => exact ⟨_,rfl,fun _ _ => rfl⟩
  exact semijoinKeySet_decides_iff (fun _ _ => rfl) harrays hkeys houter hmask hscan rfl

/-- A date that is NULL is kept by NOT IN over a date. -/
theorem semijoinKeySet_keeps_null_date : ∃ keys mask,
    collectSemijoinKeySet textHost.floats [keyBatch (.date32 [some 5])] "k" = .ok keys ∧
      semijoinMask textHost.floats (keyBatch (.date32 [none])) "k" keys true = .ok mask ∧
      ¬ (mask[0]? = some (some true) ↔
        inSubquery textHost.floats true (keyCells [.date32 [some 5]]) ((ArrayRef.date32 [none]).cell 0) = some true) := by
  refine ⟨_,_,rfl,rfl,?_⟩
  decide

end Examples
end Dodam.Sql

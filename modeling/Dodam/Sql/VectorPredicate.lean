import Dodam.Sql.VectorLike

/-! # The vector path and the general path

Where a literal is of the kind that a column is compared at, the vector path
gives the mask of the general evaluator, for every predicate built from such
comparisons.
-/
namespace Dodam.Sql
open Foundation Execution

section Reverse
variable {α : Type}

theorem orderingHolds_reverse (op : ComparisonOp) (ordering : Ordering) :
    orderingHolds (reverseBinaryOperator op) ordering.swap = orderingHolds op ordering := by
  cases op <;> cases ordering <;> rfl

theorem compareOptionalValues_reverse [Ord α] [Std.OrientedOrd α] (op : ComparisonOp) (left right : Option α) :
    compareOptionalValues (reverseBinaryOperator op) left right = compareOptionalValues op right left := by
  cases left with
  | none => cases right <;> rfl
  | some left =>
    cases right with
    | none => rfl
    | some right =>
      have hswap : compare left right = (compare right left).swap := Std.OrientedOrd.eq_swap
      rw [compareOptionalValues,compareOptionalValues,hswap,orderingHolds_reverse]

/-- Floating-point numbers compare the other way round with the operands exchanged. -/
def SwapsOperands (floats : Floats) : Prop :=
  ∀ left right, floats.partialCmp left right = (floats.partialCmp right left).map Ordering.swap

theorem compareOptionalF64_reverse {floats : Floats} (h : SwapsOperands floats) (op : ComparisonOp)
    (left right : Option String) :
    compareOptionalF64 floats (reverseBinaryOperator op) left right = compareOptionalF64 floats op right left := by
  cases left with
  | none => cases right <;> rfl
  | some left =>
    cases right with
    | none => rfl
    | some right =>
      rw [compareOptionalF64,compareOptionalF64,h left right]
      cases floats.partialCmp right left with
      | none => cases op <;> rfl
      | some ordering => exact congrArg some (orderingHolds_reverse op ordering)

end Reverse

section Rows
variable {α : Type} {compare : Option α → Option α → Option Bool}

theorem vectorCompare_eq_map {literal : Option α} (values : List (Option α))
    (hnull : compare none literal = none) (hsome : ∀ value, (compare (some value) literal).isSome = true) :
    vectorCompare compare values literal = values.map fun value => compare value literal := by
  rw [vectorCompare]
  split
  next hall =>
    refine List.map_congr_left fun value hvalue => ?_
    obtain ⟨value,rfl⟩ := Option.isSome_iff_exists.mp (List.all_eq_true.mp hall value hvalue)
    obtain ⟨result,hresult⟩ := Option.isSome_iff_exists.mp (hsome value)
    rw [hresult]
    rfl
  next =>
    refine List.map_congr_left fun value _ => ?_
    cases value with
    | none => exact hnull.symm
    | some value => rfl

theorem zipWith_replicate_left {β γ : Type} (f : α → β → γ) (a : α) (l : List β) :
    List.zipWith f (List.replicate l.length a) l = l.map fun b => f a b := by
  induction l with
  | nil => rfl
  | cons b l ih => rw [List.length_cons,List.replicate_succ,List.zipWith_cons_cons,ih,List.map_cons]

end Rows

section Kinds
variable {host : ScalarHost} {literal : LiteralValue} {array : ArrayRef} {mask : Mask} {op : ComparisonOp}

/-- In floating-point numbers, every cell stands to the literal as it does to an integer. -/
def AgreesInF64 (floats : Floats) (toF64 : ℤ → String) (cells : List (Option ℤ)) (display : String) (n : ℤ) : Prop :=
  ∀ cell, some cell ∈ cells → floats.partialCmp (toF64 cell) display = some (compare cell n)

/-- As texts, every cell stands to the literal as it does to an integer. -/
def AgreesAsText (text : ℤ → String) (cells : List (Option ℤ)) (literal : String) (n : ℤ) : Prop :=
  ∀ cell, some cell ∈ cells → compare (text cell) literal = compare cell n

/-- A literal of another kind than the column lies, at the type of the column, on the same side of every cell as
where the general evaluator compares it. -/
def ReadsLiteralExactly (host : ScalarHost) : ArrayRef → LiteralValue → Prop
  | .int32 values,.float64 display =>
    AgreesInF64 host.floats (intAsF64 host) (values.map (Option.map Int32.toInt)) display (host.toInt64 display).toInt
  | .int64 values,.float64 display =>
    AgreesInF64 host.floats (intAsF64 host) (values.map (Option.map Int64.toInt)) display (host.toInt64 display).toInt
  | .int32 values,.utf8 text => ∀ n, parseSigned 64 text.toList = some n →
    AgreesAsText toString (values.map (Option.map Int32.toInt)) text n
  | .int64 values,.utf8 text => ∀ n, parseSigned 64 text.toList = some n →
    AgreesAsText toString (values.map (Option.map Int64.toInt)) text n
  | .date32 values,.utf8 text => ∀ days, parseDate32Days text = .ok days →
    AgreesAsText formatDate32Days (values.map (Option.map Int32.toInt)) text days
  | .decimal128 precision scale values,.int64 n => ∀ scaled, decimalOfInt n precision scale = .ok scaled →
    AgreesInF64 host.floats (host.floats.ofDecimal · scale) values (host.floats.ofInt n) scaled
  | .decimal128 precision scale values,.float64 display =>
    ∀ scaled, parseDecimalLiteralToScaled display scale precision = .ok scaled →
      AgreesInF64 host.floats (host.floats.ofDecimal · scale) values display scaled
  | .decimal128 precision scale values,.utf8 text =>
    ∀ scaled, parseDecimalLiteralToScaled text scale precision = .ok scaled →
      AgreesAsText (formatDecimal128Value · scale) values text scaled
  | .float64 values,.utf8 text => ∀ number, host.floats.parse text = some number → ∀ cell, some cell ∈ values →
    host.floats.partialCmp cell number = some (compare (formatF64ForSqlVarchar cell) text)
  | .int32 _,.boolean _ | .int64 _,.boolean _ | .float64 _,.boolean _ => False
  | _,_ => True

section Core
variable {α : Type} {C : ComparisonOp → Option α → Option α → Option Bool} {values : List (Option α)} {cell : α}

theorem zipWith_eq_vectorCompare (hnull : C op none (some cell) = none)
    (hsome : ∀ value, (C op (some value) (some cell)).isSome = true) :
    List.zipWith (C op) values (List.replicate values.length (some cell)) = vectorCompare (C op) values (some cell) := by
  rw [zipWith_replicate_right,vectorCompare_eq_map values hnull hsome]

theorem zipWith_reverse_eq_vectorCompare (hnull : C op none (some cell) = none)
    (hsome : ∀ value, (C op (some value) (some cell)).isSome = true)
    (hreverse : ∀ left right, C (reverseBinaryOperator op) left right = C op right left) :
    List.zipWith (C (reverseBinaryOperator op)) (List.replicate values.length (some cell)) values =
      vectorCompare (C op) values (some cell) := by
  rw [zipWith_replicate_left,vectorCompare_eq_map values hnull hsome]
  exact List.map_congr_left fun value _ => hreverse _ _

end Core

/-- What the general evaluator gives for a column and a literal, on either side. -/
structure ComparesCells (host : ScalarHost) (op : ComparisonOp) (rows : ℕ) (values : ScalarValues)
    (literal : LiteralValue) (mask : Mask) : Prop where
  general : compareScalarValues host op values (evaluatedLiteral rows literal) = .ok mask
  reversed : compareScalarValues host (reverseBinaryOperator op) (evaluatedLiteral rows literal) values = .ok mask

variable {rows : ℕ}

theorem comparesCells_int64 {values : List (Option ℤ)} (hrows : values.length = rows) (n : Int64) :
    ComparesCells host op rows (.int64 values) (.int64 n)
      (vectorCompare (compareOptionalValues op) values (some n.toInt)) := by
  subst hrows
  exact ⟨congrArg Except.ok (zipWith_eq_vectorCompare rfl fun _ => rfl),congrArg Except.ok
    (zipWith_reverse_eq_vectorCompare rfl (fun _ => rfl) (compareOptionalValues_reverse op))⟩

theorem comparesCells_date32 {values : List (Option ℤ)} (hrows : values.length = rows) (n : Int64) :
    ComparesCells host op rows (.date32 values) (.int64 n)
      (vectorCompare (compareOptionalValues op) values (some n.toInt)) := by
  subst hrows
  exact ⟨congrArg Except.ok (zipWith_eq_vectorCompare rfl fun _ => rfl),congrArg Except.ok
    (zipWith_reverse_eq_vectorCompare rfl (fun _ => rfl) (compareOptionalValues_reverse op))⟩

theorem comparesCells_boolean {values : List (Option Bool)} (hrows : values.length = rows) (b : Bool) :
    ComparesCells host op rows (.boolean values) (.boolean b)
      (vectorCompare (compareOptionalValues op) values (some b)) := by
  subst hrows
  exact ⟨congrArg Except.ok (zipWith_eq_vectorCompare rfl fun _ => rfl),congrArg Except.ok
    (zipWith_reverse_eq_vectorCompare rfl (fun _ => rfl) (compareOptionalValues_reverse op))⟩

theorem comparesCells_float64 (hswap : SwapsOperands host.floats) {values : List (Option String)}
    (hrows : values.length = rows) (display : String) :
    ComparesCells host op rows (.float64 values) (.float64 display)
      (vectorCompare (compareOptionalF64 host.floats op) values (some display)) := by
  subst hrows
  exact ⟨congrArg Except.ok (zipWith_eq_vectorCompare rfl fun _ => rfl),congrArg Except.ok
    (zipWith_reverse_eq_vectorCompare rfl (fun _ => rfl) (compareOptionalF64_reverse hswap op))⟩

theorem scalarAsF64_int64 (n : Int64) :
    scalarAsF64 host (evaluatedLiteral rows (.int64 n)) = .ok (List.replicate rows (some (host.floats.ofInt n))) := by
  have hn : intAsF64 host n.toInt = host.floats.ofInt n := by rw [intAsF64,Int64.ofInt_toInt]
  refine congrArg Except.ok ?_
  rw [List.map_replicate,Option.map_some,hn]

theorem comparesCells_float64_int64 (hswap : SwapsOperands host.floats) {values : List (Option String)}
    (hrows : values.length = rows) (n : Int64) :
    ComparesCells host op rows (.float64 values) (.int64 n)
      (vectorCompare (compareOptionalF64 host.floats op) values (some (host.floats.ofInt n))) := by
  subst hrows
  have hgeneral : compareScalarValues host op (.float64 values) (evaluatedLiteral values.length (.int64 n)) =
      compareAsF64 host op (.float64 values) (evaluatedLiteral values.length (.int64 n)) := rfl
  have hreversed : compareScalarValues host (reverseBinaryOperator op) (evaluatedLiteral values.length (.int64 n))
      (.float64 values) =
      compareAsF64 host (reverseBinaryOperator op) (evaluatedLiteral values.length (.int64 n)) (.float64 values) := rfl
  constructor
  · rw [hgeneral,compareAsF64,scalarAsF64_int64]
    exact congrArg Except.ok (zipWith_eq_vectorCompare rfl fun _ => rfl)
  · rw [hreversed,compareAsF64,scalarAsF64_int64]
    exact congrArg Except.ok
      (zipWith_reverse_eq_vectorCompare rfl (fun _ => rfl) (compareOptionalF64_reverse hswap op))

theorem scalarAsUtf8_literal (hliteral : literal ≠ .null) : ∃ text, literalAsUtf8ForType literal = some text ∧
    scalarAsUtf8 (evaluatedLiteral rows literal) = List.replicate rows (some text) := by
  cases literal with
  | null => exact absurd rfl hliteral
  | boolean value => exact ⟨toString value,rfl,List.map_replicate⟩
  | int64 value => exact ⟨toString value.toInt,rfl,List.map_replicate⟩
  | float64 display => exact ⟨formatF64ForSqlVarchar display,rfl,List.map_replicate⟩
  | utf8 value => exact ⟨value,rfl,rfl⟩

theorem comparesCells_utf8 (hliteral : literal ≠ .null) {values : List (Option String)}
    (hrows : values.length = rows) : ComparesCells host op rows (.utf8 values) literal
      (values.map fun value => compareOptionalValues op value (literalAsUtf8ForType literal)) := by
  subst hrows
  obtain ⟨text,htext,hrows⟩ : ∃ text, literalAsUtf8ForType literal = some text ∧
      scalarAsUtf8 (evaluatedLiteral values.length literal) = List.replicate values.length (some text) :=
    scalarAsUtf8_literal hliteral
  have hgeneral : compareScalarValues host op (.utf8 values) (evaluatedLiteral values.length literal) =
      .ok (List.zipWith (compareOptionalValues op) values (scalarAsUtf8 (evaluatedLiteral values.length literal))) := rfl
  have hreversed : compareScalarValues host (reverseBinaryOperator op) (evaluatedLiteral values.length literal)
      (.utf8 values) = .ok (List.zipWith (compareOptionalValues (reverseBinaryOperator op))
        (scalarAsUtf8 (evaluatedLiteral values.length literal)) values) := by
    cases literal <;> rfl
  refine ⟨?_,?_⟩
  · rw [hgeneral,hrows,htext,zipWith_replicate_right]
  · rw [hreversed,hrows,htext,zipWith_replicate_left]
    exact congrArg Except.ok (List.map_congr_left fun value _ => compareOptionalValues_reverse op _ _)

section Converted
variable {values : ScalarValues} {n : ℤ} {display text : String} {cells : List (Option ℤ)}

/-- Cells and a literal that are compared as floating-point numbers. -/
theorem comparesCells_in_f64 (hswap : SwapsOperands host.floats) {toF64 : ℤ → String}
    (hvalues : scalarAsF64 host values = .ok (cells.map (Option.map toF64)))
    (hliteral : scalarAsF64 host (evaluatedLiteral rows literal) = .ok (List.replicate rows (some display)))
    (hgeneral : ∀ op, compareScalarValues host op values (evaluatedLiteral rows literal) =
      compareAsF64 host op values (evaluatedLiteral rows literal))
    (hreversed : ∀ op, compareScalarValues host op (evaluatedLiteral rows literal) values =
      compareAsF64 host op (evaluatedLiteral rows literal) values)
    (hrows : cells.length = rows) (h : AgreesInF64 host.floats toF64 cells display n) :
    ComparesCells host op rows values literal (vectorCompare (compareOptionalValues op) cells (some n)) := by
  subst hrows
  have hmap : (cells.map (Option.map toF64)).map (fun cell => compareOptionalF64 host.floats op cell (some display)) =
      vectorCompare (compareOptionalValues op) cells (some n) := by
    rw [vectorCompare_eq_map cells rfl fun _ => rfl,List.map_map]
    refine List.map_congr_left fun cell hcell => ?_
    cases cell with
    | none => rfl
    | some cell =>
      have hcompare := h cell hcell
      rw [Function.comp_apply,Option.map_some,compareOptionalF64,hcompare]
      rfl
  have hlength : (cells.map (Option.map toF64)).length = cells.length := List.length_map _
  constructor
  · have hzip := zipWith_replicate_right (compareOptionalF64 host.floats op) (cells.map (Option.map toF64)) (some display)
    rw [hlength] at hzip
    rw [hgeneral,compareAsF64,hvalues,hliteral]
    exact congrArg Except.ok (hzip.trans hmap)
  · have hzip := zipWith_replicate_left (compareOptionalF64 host.floats (reverseBinaryOperator op)) (some display)
      (cells.map (Option.map toF64))
    rw [hlength] at hzip
    rw [hreversed,compareAsF64,hvalues,hliteral]
    refine congrArg Except.ok (hzip.trans (Eq.trans (List.map_congr_left fun cell _ => ?_) hmap))
    exact compareOptionalF64_reverse hswap op _ _

theorem comparesCells_as_text {α : Type} {compareCells : Option α → Option α → Option Bool} {cells : List (Option α)}
    {number : α} {print : α → String} (hvalues : scalarAsUtf8 values = cells.map (Option.map print))
    (hnull : compareCells none (some number) = none)
    (hsome : ∀ cell, (compareCells (some cell) (some number)).isSome = true) (hrows : cells.length = rows)
    (h : ∀ cell, some cell ∈ cells →
      compareCells (some cell) (some number) = some (orderingHolds op (compare (print cell) text))) :
    ComparesCells host op rows values (.utf8 text) (vectorCompare compareCells cells (some number)) := by
  subst hrows
  have hmap : (cells.map (Option.map print)).map (fun cell => compareOptionalValues op cell (some text)) =
      vectorCompare compareCells cells (some number) := by
    rw [vectorCompare_eq_map cells hnull hsome,List.map_map]
    refine List.map_congr_left fun cell hcell => ?_
    cases cell with
    | none => exact hnull.symm
    | some cell => exact (h cell hcell).symm
  have hlength : (cells.map (Option.map print)).length = cells.length := List.length_map _
  have hgeneral : compareScalarValues host op values (evaluatedLiteral cells.length (.utf8 text)) =
      .ok (List.zipWith (compareOptionalValues op) (scalarAsUtf8 values)
        (List.replicate cells.length (some text))) := by
    cases values <;> rfl
  have hreversed : compareScalarValues host (reverseBinaryOperator op) (evaluatedLiteral cells.length (.utf8 text))
      values = .ok (List.zipWith (compareOptionalValues (reverseBinaryOperator op))
        (List.replicate cells.length (some text)) (scalarAsUtf8 values)) := rfl
  constructor
  · have hzip := zipWith_replicate_right (compareOptionalValues op) (cells.map (Option.map print)) (some text)
    rw [hlength] at hzip
    rw [hgeneral,hvalues]
    exact congrArg Except.ok (hzip.trans hmap)
  · have hzip := zipWith_replicate_left (compareOptionalValues (reverseBinaryOperator op)) (some text)
      (cells.map (Option.map print))
    rw [hlength] at hzip
    rw [hreversed,hvalues]
    refine congrArg Except.ok (hzip.trans (Eq.trans (List.map_congr_left fun cell _ => ?_) hmap))
    exact compareOptionalValues_reverse op _ _

theorem comparesCells_integers_as_text {print : ℤ → String} (hvalues : scalarAsUtf8 values = cells.map (Option.map print))
    (hrows : cells.length = rows) (h : AgreesAsText print cells text n) :
    ComparesCells host op rows values (.utf8 text) (vectorCompare (compareOptionalValues op) cells (some n)) :=
  comparesCells_as_text hvalues rfl (fun _ => rfl) hrows fun cell hcell =>
    congrArg (fun ordering => some (orderingHolds op ordering)) (h cell hcell).symm

variable {precision : UInt8} {scale : Int8}

theorem decimalOfInt_scale {value : Int64} {scaled : ℤ}
    (h : decimalOfInt value precision scale = .ok scaled) : (decimalScaleI128 scale).isSome = true := by
  obtain ⟨factor,hfactor,-⟩ := bind_eq_ok_iff.mp h
  rw [(okOr_eq_ok (invalidCast_ne_ok _)).mp hfactor]
  rfl

theorem parseDecimalLiteralToScaled_scale {value : String} {scaled : ℤ}
    (h : parseDecimalLiteralToScaled value scale precision = .ok scaled) : (decimalScaleI128 scale).isSome = true := by
  unfold parseDecimalLiteralToScaled at h
  split at h
  next => cases h
  next =>
    simp only at h
    split at h
    next => cases h
    next =>
      split at h
      next => cases h
      next =>
        obtain ⟨factor,hfactor,-⟩ := bind_eq_ok_iff.mp h
        rw [(okOr_eq_ok (invalidCast_ne_ok _)).mp hfactor]
        rfl

end Converted

section Columns
variable {values : List (Option ℤ)}

theorem comparesCells_integers (hswap : SwapsOperands host.floats) (hrows : values.length = rows)
    (hliteral : literal ≠ .null)
    (hexact : match literal with
      | .float64 display => AgreesInF64 host.floats (intAsF64 host) values display (host.toInt64 display).toInt
      | .utf8 text => ∀ n, parseSigned 64 text.toList = some n → AgreesAsText toString values text n
      | .boolean _ => False
      | _ => True)
    (h : (literalAsI64ForType host literal).map (fun literal =>
      some (vectorCompare (compareOptionalValues op) values literal)) = .ok (some mask)) :
    ComparesCells host op rows (.int64 values) literal mask := by
  obtain ⟨read,hread,hmask⟩ := map_eq_ok_iff.mp h
  rw [← Option.some.inj hmask]
  cases literal with
  | null => exact absurd rfl hliteral
  | boolean b => exact hexact.elim
  | int64 n =>
    cases hread
    exact comparesCells_int64 hrows n
  | float64 display =>
    cases hread
    exact comparesCells_in_f64 hswap rfl rfl (fun _ => rfl) (fun _ => rfl) hrows hexact
  | utf8 text =>
    obtain ⟨n,hn,rfl⟩ := map_eq_ok_iff.mp hread
    exact comparesCells_integers_as_text rfl hrows (hexact n ((okOr_eq_ok (invalidCast_ne_ok _)).mp hn))

end Columns

/-- The mask of the vector path, for a literal that is read exactly. -/
theorem comparesCells_of_vector (hswap : SwapsOperands host.floats) (hexact : ReadsLiteralExactly host array literal)
    (hliteral : literal ≠ .null) (hrows : array.length = rows)
    (h : vectorArrayLiteralCompare host op literal array = .ok (some mask)) :
    ∃ values, evaluatedArray array = .ok values ∧ ComparesCells host op rows values literal mask := by
  cases array with
  | int32 values | int64 values =>
    refine ⟨_,rfl,comparesCells_integers hswap ((List.length_map _).trans hrows) hliteral ?_ h⟩
    cases literal <;> exact hexact
  | date32 values =>
    have hlength : (values.map (Option.map Int32.toInt)).length = rows := (List.length_map _).trans hrows
    obtain ⟨read,hread,hmask⟩ := map_eq_ok_iff.mp h
    rw [← Option.some.inj hmask]
    cases literal with
    | int64 n =>
      obtain ⟨days,hdays,rfl⟩ := map_eq_ok_iff.mp hread
      have hdays : days = n.toInt := (checkedSigned_eq_some.mp ((okOr_eq_ok (invalidCast_ne_ok _)).mp hdays)).2.symm
      rw [hdays]
      exact ⟨_,rfl,comparesCells_date32 hlength n⟩
    | utf8 text =>
      obtain ⟨days,hdays,rfl⟩ := map_eq_ok_iff.mp hread
      exact ⟨_,rfl,comparesCells_integers_as_text rfl hlength (hexact days hdays)⟩
    | null => exact absurd rfl hliteral
    | boolean _ | float64 _ => cases hread
  | decimal128 precision scale values =>
    obtain ⟨read,hread,hmask⟩ := map_eq_ok_iff.mp h
    rw [← Option.some.inj hmask]
    cases literal with
    | int64 n =>
      obtain ⟨scaled,hscaled,rfl⟩ := map_eq_ok_iff.mp hread
      exact ⟨_,rfl,comparesCells_in_f64 hswap (scalarAsF64_decimal (decimalOfInt_scale hscaled)) (scalarAsF64_int64 n)
        (fun _ => rfl) (fun _ => rfl) hrows (hexact scaled hscaled)⟩
    | float64 display =>
      obtain ⟨scaled,hscaled,rfl⟩ := map_eq_ok_iff.mp hread
      exact ⟨_,rfl,comparesCells_in_f64 hswap (scalarAsF64_decimal (parseDecimalLiteralToScaled_scale hscaled)) rfl
        (fun _ => rfl) (fun _ => rfl) hrows (hexact scaled hscaled)⟩
    | utf8 text =>
      obtain ⟨scaled,hscaled,rfl⟩ := map_eq_ok_iff.mp hread
      exact ⟨_,rfl,comparesCells_integers_as_text rfl hrows (hexact scaled hscaled)⟩
    | null => exact absurd rfl hliteral
    | boolean _ => cases hread
  | float64 values =>
    cases literal with
    | int64 n => exact ⟨_,rfl,Option.some.inj (Except.ok.inj h) ▸ comparesCells_float64_int64 hswap hrows n⟩
    | float64 display => exact ⟨_,rfl,Option.some.inj (Except.ok.inj h) ▸ comparesCells_float64 hswap hrows display⟩
    | utf8 text =>
      obtain ⟨read,hread,hmask⟩ := map_eq_ok_iff.mp h
      obtain ⟨number,hnumber,rfl⟩ := map_eq_ok_iff.mp hread
      have hnumber := (okOr_eq_ok (invalidCast_ne_ok _)).mp hnumber
      rw [← Option.some.inj hmask]
      refine ⟨_,rfl,comparesCells_as_text rfl rfl (fun _ => rfl) hrows fun cell hcell => ?_⟩
      rw [compareOptionalF64,hexact number hnumber cell hcell]
    | null => exact absurd rfl hliteral
    | boolean _ => exact hexact.elim
  | boolean values =>
    cases literal with
    | boolean b => exact ⟨_,rfl,Option.some.inj (Except.ok.inj h) ▸ comparesCells_boolean hrows b⟩
    | null => exact absurd rfl hliteral
    | int64 _ | float64 _ | utf8 _ => cases h
  | utf8 values => exact ⟨_,rfl,Option.some.inj (Except.ok.inj h) ▸ comparesCells_utf8 hliteral hrows⟩
  | uint32 _ | date64 _ | timestampMillisecond _ _ | other _ _ => cases h

theorem length_scalarAsUtf8 (values : ScalarValues) : (scalarAsUtf8 values).length = values.length := by
  cases values <;> first | rfl | exact List.length_map _

theorem length_evaluatedArray {values : ScalarValues} (h : evaluatedArray array = .ok values) :
    values.length = array.length := by
  cases array with
  | uint32 _ | other _ _ => cases h
  | _ => cases h; first | rfl | exact List.length_map _

theorem comparesCells_null {values : ScalarValues} (hrows : values.length = rows) :
    ComparesCells host op rows values .null (List.replicate rows none) := by
  have hlength : (scalarAsUtf8 values).length = rows := (length_scalarAsUtf8 values).trans hrows
  have hgeneral : compareScalarValues host op values (evaluatedLiteral rows .null) =
      .ok (List.zipWith (compareOptionalValues op) (scalarAsUtf8 values) (List.replicate rows none)) := by
    cases values <;> rfl
  have hreversed : compareScalarValues host (reverseBinaryOperator op) (evaluatedLiteral rows .null) values =
      .ok (List.zipWith (compareOptionalValues (reverseBinaryOperator op)) (List.replicate rows none)
        (scalarAsUtf8 values)) := rfl
  have hnone (l : List (Option String)) {f : Option String → Option Bool} (hf : ∀ value, f value = none)
      (hl : l.length = rows) : l.map f = List.replicate rows none := by
    refine List.eq_replicate_iff.mpr ⟨(List.length_map _).trans hl,fun result hresult => ?_⟩
    obtain ⟨value,-,he⟩ := List.mem_map.mp hresult
    exact he.symm.trans (hf value)
  constructor
  · rw [hgeneral]
    have hzip := zipWith_replicate_right (compareOptionalValues op) (scalarAsUtf8 values) none
    rw [hlength] at hzip
    rw [hzip]
    exact congrArg Except.ok (hnone _ (fun value => by cases value <;> rfl) hlength)
  · rw [hreversed]
    have hzip := zipWith_replicate_left (compareOptionalValues (reverseBinaryOperator op)) none (scalarAsUtf8 values)
    rw [hlength] at hzip
    rw [hzip]
    exact congrArg Except.ok (hnone _ (fun _ => rfl) hlength)

end Kinds

section Comparison
variable {host : ScalarHost} {batch : NamedBatch} {op : ComparisonOp} {mask : Mask} {literal : LiteralValue}
  {left right : ScalarSqlExpression}

def compareExpressions (host : ScalarHost) (batch : NamedBatch) (op : ComparisonOp) (left right : ScalarSqlExpression) :
    Result Mask := do
  let left ← evaluateScalarExpression host batch left
  let right ← evaluateScalarExpression host batch right
  compareEvaluatedScalars host op left right

theorem reverseBinaryOperator_reverse (op : ComparisonOp) : reverseBinaryOperator (reverseBinaryOperator op) = op := by
  cases op <;> rfl

theorem compareExpressions_of_cells {value : EvaluatedScalar} {values : ScalarValues}
    (hvalue : evaluateScalarExpression host batch left = .ok value) (hread : value.materialize = .ok values)
    (h : ComparesCells host op batch.numRows values literal mask) :
    compareExpressions host batch op left (.literal literal) = .ok mask ∧
      compareExpressions host batch (reverseBinaryOperator op) (.literal literal) left = .ok mask := by
  have hliteral : evaluateScalarExpression host batch (.literal literal) =
      .ok (.values (evaluatedLiteral batch.numRows literal)) := rfl
  constructor
  · rw [compareExpressions,hvalue,hliteral]
    simp only [except_bind_ok,compareEvaluatedScalars,hread]
    exact h.general
  · rw [compareExpressions,hvalue,hliteral]
    simp only [except_bind_ok,compareEvaluatedScalars,hread]
    exact h.reversed

theorem compareExpressions_listLength
    (h : vectorListLengthLiteralCompare batch left op right = .ok (some mask)) :
    compareExpressions host batch op left right = .ok mask ∧
      compareExpressions host batch (reverseBinaryOperator op) right left = .ok mask := by
  unfold vectorListLengthLiteralCompare at h
  split at h
  next column field n hn =>
    obtain ⟨literal,rfl,hliteral⟩ : ∃ literal, right = .literal (.int64 literal) ∧ literal.toInt = n := by
      unfold scalarI64Literal at hn
      split at hn
      next literal => exact ⟨literal,rfl,Option.some.inj hn⟩
      next => cases hn
    obtain ⟨lengths,hlengths,hmask⟩ := map_eq_ok_iff.mp h
    have hmask := Option.some.inj hmask
    have hvalue : evaluateScalarExpression host batch (.listLength column field) =
        .ok (.values (.int64 (lengths.map (Option.map Int32.toInt)))) := by
      rw [evaluateScalarExpression,hlengths]
      rfl
    have hrows : (lengths.map (Option.map Int32.toInt)).length = batch.numRows :=
      (List.length_map _).trans (batch.listLengths_length _ _ _ hlengths)
    have hcells : ComparesCells host op batch.numRows _ (.int64 literal) _ := comparesCells_int64 hrows literal
    rw [vectorCompare_eq_map _ rfl fun _ => rfl,List.map_map,hliteral] at hcells
    exact compareExpressions_of_cells hvalue rfl (hmask ▸ hcells)
  next => cases h

/-- A NULL is compared with a column that is read, another literal with one that reads it exactly. -/
def ComparesAlike (host : ScalarHost) (batch : NamedBatch) : ScalarSqlExpression → ScalarSqlExpression → Prop
  | .column name,.literal literal | .literal literal,.column name =>
    if literal = .null then ∃ array values, batch.outputColumn name = .ok array ∧ evaluatedArray array = .ok values
    else ∀ array, batch.outputColumn name = .ok array → ReadsLiteralExactly host array literal
  | _,_ => True

theorem length_outputColumn {name : String} {array : ArrayRef} (h : batch.outputColumn name = .ok array) :
    array.length = batch.numRows := by
  obtain ⟨index,-,hcolumn⟩ := bind_eq_ok_iff.mp h
  obtain ⟨found,hfound,rfl⟩ := Option.map_eq_some_iff.mp ((okOr_eq_ok fun _ => by rintro ⟨⟩).mp hcolumn)
  exact batch.length_eq found (List.mem_of_getElem? hfound)

theorem comparesAlike_comm : ComparesAlike host batch left right ↔ ComparesAlike host batch right left := by
  cases left <;> cases right <;> rfl

theorem compareExpressions_column (hswap : SwapsOperands host.floats) (halike : ComparesAlike host batch left right)
    (h : vectorColumnLiteralCompare host batch left op right = .ok (some mask)) :
    compareExpressions host batch op left right = .ok mask ∧
      compareExpressions host batch (reverseBinaryOperator op) right left = .ok mask := by
  unfold vectorColumnLiteralCompare at h
  split at h
  next name literal =>
    have halike : if literal = .null then
        ∃ array values, batch.outputColumn name = .ok array ∧ evaluatedArray array = .ok values
      else ∀ array, batch.outputColumn name = .ok array → ReadsLiteralExactly host array literal := halike
    split at h
    next hnull =>
      rw [if_pos hnull] at halike
      obtain ⟨array,values,harray,hvalues⟩ := halike
      have hmask := Option.some.inj (Except.ok.inj h)
      have hrows := (length_evaluatedArray hvalues).trans (length_outputColumn harray)
      rw [hnull,← hmask]
      exact compareExpressions_of_cells (map_eq_ok_iff.mpr ⟨array,harray,rfl⟩) hvalues (comparesCells_null hrows)
    next hliteral =>
      rw [if_neg hliteral] at halike
      obtain ⟨array,harray,hmask⟩ := bind_eq_ok_iff.mp h
      obtain ⟨values,hvalues,hcells⟩ :=
        comparesCells_of_vector hswap (halike array harray) hliteral (length_outputColumn harray) hmask
      exact compareExpressions_of_cells (map_eq_ok_iff.mpr ⟨array,harray,rfl⟩) hvalues hcells
  next => cases h

theorem orElseMask_eq_some {first second : Result (Option Mask)} (h : orElseMask first second = .ok (some mask)) :
    first = .ok (some mask) ∨ second = .ok (some mask) := by
  obtain ⟨found,hfirst,h⟩ := bind_eq_ok_iff.mp h
  cases found with
  | none => exact Or.inr h
  | some found => exact Or.inl (hfirst.trans h)

theorem generalComparison_of_vector {parser : PredicateParser} {leftExpr rightExpr : SqlExpr}
    (hswap : SwapsOperands host.floats)
    (halike : ∀ left right, parser.parse leftExpr = .ok left → parser.parse rightExpr = .ok right →
      ComparesAlike host batch left right)
    (h : vectorComparison host batch parser op leftExpr rightExpr = .ok (some mask)) :
    generalComparison host batch parser op leftExpr rightExpr = .ok mask := by
  obtain ⟨left,hleft,h⟩ := bind_eq_ok_iff.mp h
  obtain ⟨right,hright,h⟩ := bind_eq_ok_iff.mp h
  have halike := halike left right hleft hright
  have hexpressions : compareExpressions host batch op left right = .ok mask := by
    rcases orElseMask_eq_some h with h | h
    · exact (compareExpressions_listLength h).1
    rcases orElseMask_eq_some h with h | h
    · exact reverseBinaryOperator_reverse op ▸ (compareExpressions_listLength h).2
    rcases orElseMask_eq_some h with h | h
    · exact (compareExpressions_column hswap halike h).1
    · exact reverseBinaryOperator_reverse op ▸ (compareExpressions_column hswap (comparesAlike_comm.mp halike) h).2
  rw [generalComparison,hleft,hright]
  exact hexpressions

end Comparison

section InList
variable {host : ScalarHost} {batch : NamedBatch} {negated : Bool} {mask : Mask}

/-- The value of every row is read as the integer of a list, or is NULL. -/
structure ReadsIntegers (value : EvaluatedScalar) (probe : List (Option ℤ)) : Prop where
  kind_eq : value.kind = .int64
  length_eq : value.length = probe.length
  valueAt_eq : ∀ row < probe.length, value.valueAt row = .ok ((probe[row]?.join).map .int64)

theorem valueAt_array {array : ArrayRef} {values : List (Option ℤ)}
    (hread : evaluatedArray array = .ok (.int64 values))
    (hnull : ∀ row < values.length, array.isNull row = true → values[row]?.join = none) {row : ℕ}
    (hrow : row < values.length) :
    (EvaluatedScalar.array array).valueAt row = .ok ((values[row]?.join).map .int64) := by
  rw [EvaluatedScalar.valueAt]
  split
  next hisNull => rw [hnull row hrow hisNull]; rfl
  next => rw [hread]; rfl

theorem isNull_join {α : Type} [DecidableEq α] {f : α → ℤ} {values : List (Option α)} {row : ℕ}
    (h : decide (values[row]? = some none) = true) : (values.map (Option.map f))[row]?.join = none := by
  rw [List.getElem?_map,of_decide_eq_true h]
  rfl

variable {probe : List (Option ℤ)}

theorem readsIntegers_array {array : ArrayRef} (h : vectorI64Array array = some probe) :
    ReadsIntegers (.array array) probe ∧ ReadsIntegers (.values (.int64 probe)) probe ∧
      evaluatedArray array = .ok (.int64 probe) := by
  have hvalues : ReadsIntegers (.values (.int64 probe)) probe := ⟨rfl,rfl,fun _ _ => rfl⟩
  cases array with
  | int32 values =>
    cases h
    have hnull : ∀ row < (values.map (Option.map Int32.toInt)).length, (ArrayRef.int32 values).isNull row = true →
        (values.map (Option.map Int32.toInt))[row]?.join = none := fun _ _ => isNull_join
    exact ⟨⟨rfl,(List.length_map _).symm,fun row hrow => valueAt_array rfl hnull hrow⟩,hvalues,rfl⟩
  | int64 values =>
    cases h
    have hnull : ∀ row < (values.map (Option.map Int64.toInt)).length, (ArrayRef.int64 values).isNull row = true →
        (values.map (Option.map Int64.toInt))[row]?.join = none := fun _ _ => isNull_join
    exact ⟨⟨rfl,(List.length_map _).symm,fun row hrow => valueAt_array rfl hnull hrow⟩,hvalues,rfl⟩
  | _ => cases h

theorem i64ListLiterals_eq_some {values : List ScalarSqlExpression} {literals : List ℤ}
    (h : i64ListLiterals values = some (literals,false)) :
    ∃ members : List Int64, values = members.map (fun n => .literal (.int64 n)) ∧
      literals = members.map Int64.toInt := by
  induction values generalizing literals with
  | nil => cases h; exact ⟨[],rfl,rfl⟩
  | cons value values ih =>
    unfold i64ListLiterals at h
    split at h
    next n rest hasNull hrest =>
      cases h
      obtain ⟨members,hvalues,hliterals⟩ := ih hrest
      exact ⟨n :: members,by rw [hvalues]; rfl,by rw [hliterals]; rfl⟩
    next => cases h
    next => cases h

def integerRows (rows : ℕ) (n : Int64) : EvaluatedScalar := .values (evaluatedLiteral rows (.int64 n))

theorem inListRow_integers {rows row : ℕ} (hrow : row < rows) (value : ℤ) (members : List Int64) :
    inListRow host .int64 row negated (.int64 value) false (members.map (integerRows rows)) =
      .ok (inListResult negated (value ∈ members.map Int64.toInt) false) := by
  induction members with
  | nil => rfl
  | cons n members ih =>
    have hat : scalarValueAt (.int64 (List.replicate rows (some n.toInt))) row = some (.int64 n.toInt) := by
      rw [scalarValueAt,List.getElem?_replicate_of_lt hrow]
      rfl
    have hcast : castScalarForKind host .int64 (integerRows rows n) =
        .ok (.int64 (List.replicate rows (some n.toInt))) := rfl
    rw [List.map_cons,inListRow,hcast]
    simp only [except_bind_ok,hat]
    by_cases hn : n.toInt = value
    · have hequals : ScalarValue.equals host.floats (.int64 n.toInt) (.int64 value) = true :=
        decide_eq_true (congrArg ScalarValue.int64 hn)
      have hmem : value ∈ (n :: members).map Int64.toInt := List.mem_map.mpr ⟨n,List.mem_cons_self,hn⟩
      rw [if_pos hequals,decide_eq_true hmem]
      rfl
    · have hequals : ¬ ScalarValue.equals host.floats (.int64 n.toInt) (.int64 value) = true :=
        fun h => hn (ScalarValue.int64.inj (of_decide_eq_true h))
      have hmem : (value ∈ (n :: members).map Int64.toInt) ↔ value ∈ members.map Int64.toInt := by
        rw [List.map_cons,List.mem_cons]
        exact or_iff_right fun h => hn h.symm
      rw [if_neg hequals,ih]
      exact congrArg (fun matched => Except.ok (inListResult negated matched false)) (decide_eq_decide.mpr hmem.symm)

theorem evaluateScalarInList_integers {value : EvaluatedScalar}
    (hvalue : ReadsIntegers value probe) (hrows : probe.length = batch.numRows) (members : List Int64) :
    evaluateScalarInList host value (members.map (integerRows batch.numRows)) negated =
      .ok (probe.map fun value => value.bind fun value =>
        inListResult negated (value ∈ members.map Int64.toInt) false) := by
  rw [evaluateScalarInList,hvalue.length_eq,hvalue.kind_eq,
    mapM_eq_map (g := fun row => (probe[row]?.join).bind fun value =>
      inListResult negated (value ∈ members.map Int64.toInt) false)]
  · exact congrArg Except.ok (map_range_getElem? probe fun value => value.bind fun value =>
      inListResult negated (value ∈ members.map Int64.toInt) false)
  · intro row hrow
    have hrow := List.mem_range.mp hrow
    rw [hvalue.valueAt_eq row hrow]
    cases probe[row]?.join with
    | none => rfl
    | some value => exact inListRow_integers (hrows ▸ hrow) value members

/-- The tested reference is the same column in any case, and the list has no NULL. -/
def ListsAlike (batch : NamedBatch) (expr : ScalarSqlExpression) (values : List ScalarSqlExpression) : Prop :=
  (∀ name, expr = .column name → batch.columnIgnoringCase name = batch.outputColumn name) ∧
    ∀ literals hasNull, i64ListLiterals values = some (literals,hasNull) → hasNull = false

theorem generalInList_of_vector {parser : PredicateParser} {expr : SqlExpr} {list : List SqlExpr}
    {parsed : ScalarSqlExpression} {values : List ScalarSqlExpression} (hexpr : parser.parse expr = .ok parsed)
    (hlist : list.mapM parser.parse = .ok values) (halike : ListsAlike batch parsed values)
    (h : vectorI64ExpressionInList batch parsed values negated = .ok (some mask)) :
    generalInList host batch parser expr list negated = .ok mask := by
  obtain ⟨found,hprobe,h⟩ := bind_eq_ok_iff.mp h
  cases found with
  | none => cases h
  | some probe =>
    cases hliterals : i64ListLiterals values with
    | none => simp only [hliterals] at h; cases h
    | some pair =>
      obtain ⟨literals,hasNull⟩ := pair
      have hnull : hasNull = false := halike.2 literals hasNull hliterals
      simp only [hliterals,hnull] at h
      have hmask := Option.some.inj (Except.ok.inj h)
      rw [hnull] at hliterals
      obtain ⟨members,hvalues,hmembers⟩ := i64ListLiterals_eq_some hliterals
      obtain ⟨value,hevaluate,hreads,hrows⟩ : ∃ value, evaluateScalarExpression host batch parsed = .ok value ∧
          ReadsIntegers value probe ∧ probe.length = batch.numRows := by
        unfold vectorI64Expression at hprobe
        split at hprobe
        next name =>
          obtain ⟨array,harray,hintegers⟩ := map_eq_ok_iff.mp hprobe
          rw [halike.1 name rfl] at harray
          obtain ⟨hreads,-,hread⟩ := readsIntegers_array hintegers
          have hlength : probe.length = array.length := length_evaluatedArray hread
          exact ⟨.array array,map_eq_ok_iff.mpr ⟨array,harray,rfl⟩,hreads,hlength.trans (length_outputColumn harray)⟩
        next column field =>
          obtain ⟨array,harray,hintegers⟩ := map_eq_ok_iff.mp hprobe
          obtain ⟨-,hreads,hread⟩ := readsIntegers_array hintegers
          have hlength : probe.length = array.length := length_evaluatedArray hread
          have hevaluate : evaluateScalarExpression host batch (.structField column field) =
              .ok (.values (.int64 probe)) := by
            rw [evaluateScalarExpression,harray,except_bind_ok,hread]
            rfl
          exact ⟨_,hevaluate,hreads,hlength.trans (batch.structField_length _ _ _ harray)⟩
        next => cases hprobe
      have hmapped : list.mapM (fun expr => do
          let expr ← parser.parse expr
          evaluateScalarExpression host batch expr) = .ok (members.map (integerRows batch.numRows)) := by
        rw [hvalues] at hlist
        have hall := mapM_ok_iff.mp hlist
        rw [List.forall₂_map_right_iff] at hall
        refine mapM_ok_iff.mpr (List.forall₂_map_right_iff.mpr (hall.imp fun expr n hparse => ?_))
        rw [hparse]
        rfl
      rw [generalInList,hexpr]
      simp only [except_bind_ok,hevaluate,hmapped]
      rw [evaluateScalarInList_integers hreads hrows,← hmask,hmembers]

end InList

section Like
variable {host : ScalarHost} {batch : NamedBatch} {negated caseInsensitive : Bool} {mask : Mask}

theorem generalLike_of_vector {parser : PredicateParser} {expr pattern : SqlExpr} {escapeChar : Option Value}
    {parsed : ScalarSqlExpression} {escape : Option Char} (htables : PercentIsNoLetter host.tables)
    (hexpr : parser.parse expr = .ok parsed) (hescape : sqlLikeEscape escapeChar = .ok escape)
    (halike : ∀ name, parsed = .column name → batch.columnIgnoringCase name = batch.outputColumn name)
    (h : vectorStringLikeLiteral host batch parsed pattern escape negated caseInsensitive = .ok (some mask)) :
    generalLike host batch parser expr pattern negated escapeChar caseInsensitive = .ok mask := by
  unfold vectorStringLikeLiteral at h
  split at h
  next name =>
    obtain ⟨text,htext,h⟩ := bind_eq_ok_iff.mp h
    cases hsimple : simpleLikeLiteral text.toList escape with
    | none => simp only [hsimple] at h; cases h
    | some simple =>
      simp only [hsimple] at h
      obtain ⟨array,harray,h⟩ := bind_eq_ok_iff.mp h
      rw [halike name rfl] at harray
      obtain ⟨hnone,htoList,hmany,hone⟩ := simpleLikeLiteral_eq_some hsimple
      cases array with
      | utf8 values =>
        have hmask := Option.some.inj (Except.ok.inj h)
        have hvalue : materialized (evaluateScalarExpression host batch (.column name)) = .ok (.utf8 values) := by
          rw [evaluateScalarExpression,harray]
          rfl
        have htokens := scalarLikePatternTokens_none (foldCase host caseInsensitive text.toList)
        rw [generalLike,hexpr]
        simp only [except_bind_ok,hvalue,htext,hescape,hnone,htokens]
        rw [← hmask]
        refine congrArg Except.ok (List.map_congr_left fun value _ => congrArg (fun f => Option.map f value) ?_)
        funext value
        rw [simpleLikeMatches_eq htables hmany hone,← htoList]
      | _ => cases h
  next => cases h

end Like

section Predicate
variable {host : ScalarHost} {batch : NamedBatch} {parser : PredicateParser}

/-- Every comparison, list and pattern of the predicate is one that the two paths read alike. -/
def VectorisesAlike (host : ScalarHost) (batch : NamedBatch) (parser : PredicateParser) : SqlExpr → Prop
  | .binaryOp left op right =>
    match op with
    | .and | .or => VectorisesAlike host batch parser left ∧ VectorisesAlike host batch parser right
    | _ => ComparesExpressionsAlike left right
  | .unaryOp _ expr | .nested expr => VectorisesAlike host batch parser expr
  | .between expr _ low high => ComparesExpressionsAlike expr low ∧ ComparesExpressionsAlike expr high
  | .inList expr list _ => ∀ parsed values, parser.parse expr = .ok parsed → list.mapM parser.parse = .ok values →
    ListsAlike batch parsed values
  | .like expr _ _ _ _ _ => ∀ name, parser.parse expr = .ok (.column name) →
    batch.columnIgnoringCase name = batch.outputColumn name
  | _ => True
where
  ComparesExpressionsAlike (leftExpr rightExpr : SqlExpr) : Prop := ∀ left right,
    parser.parse leftExpr = .ok left → parser.parse rightExpr = .ok right → ComparesAlike host batch left right

theorem orGeneral_of_vector {tryVector : SqlExpr → Result (Option Mask)} {predicate : SqlExpr} {general : Result Mask}
    {mask : Mask} (h : orGeneral tryVector predicate general = .ok mask)
    (hvector : tryVector predicate = .ok (some mask) → general = .ok mask) : general = .ok mask := by
  obtain ⟨found,htry,h⟩ := bind_eq_ok_iff.mp h
  cases found with
  | none => exact h
  | some found => exact hvector (htry.trans (congrArg (fun mask => Except.ok (some mask)) (Except.ok.inj h)))

theorem comparisonPredicate_of_vector (hswap : SwapsOperands host.floats) {left right : SqlExpr}
    {op : BinaryOperator} {mask : Mask}
    (halike : VectorisesAlike.ComparesExpressionsAlike host batch parser left right)
    (h : comparisonPredicate host batch parser (tryEvaluateVectorScalarPredicate host batch parser) left op right =
      .ok mask) : comparisonPredicate host batch parser (fun _ => .ok none) left op right = .ok mask := by
  refine orGeneral_of_vector h fun hvector => ?_
  rw [tryEvaluateVectorScalarPredicate] at hvector
  cases hop : op.comparison with
  | none => rw [hop] at hvector; cases hvector
  | some comparison =>
    rw [hop] at hvector
    rw [comparisonPredicate,hop]
    exact generalComparison_of_vector hswap halike hvector

end Predicate

section Examples

theorem asciiHost_percent : PercentIsNoLetter asciiHost.tables := ⟨by decide,by decide⟩

theorem asciiHost_swaps : SwapsOperands asciiHost.floats := fun _ _ => rfl

/-- `a < 10 AND NOT a IN (8)` -/
def integerPredicate : SqlExpr :=
  .binaryOp (.binaryOp (.identifier "a") .lt (.value (.number "10" false))) .and
    (.unaryOp .not (.inList (.identifier "a") [.value (.number "8" false)] false))

/-- `a < '10'`, by number on the vector path and by text without it -/
def textPredicate : SqlExpr := .binaryOp (.identifier "a") .lt (.value (.singleQuotedString "10"))

end Examples
end Dodam.Sql

import SubstModel.Primitive.Apply
import SubstModel.Proofs.Number

/-!
# Equality — what the two comparisons of values have in common

Values have equal contents when their contents are the same, once references are left out and the two zeros are taken as
one.  Beyond this there is only the undefined number, which differs from itself: where one occurs, at whatever depth,
the comparison fails.  All laws of the comparison follow.

* `Number.beq_iff` — numbers are equal when neither is undefined and they are the same but for the sign of a zero;
* `Expr.NoUndefined`, `Value.NoUndefined` — no undefined number occurs, at any depth;
* `Expr.contents`, `Value.contents` — what is compared;
* `Expr.same_iff`, `Value.same_iff` — **equal contents are the same contents, with no undefined number in them**;
* `Primitive.Relates` — a comparison of two values succeeds;
* `comparisons_sound` — **both comparisons are symmetric and transitive, a value with no undefined number equals itself,
  and there identity refines equality**.
-/

namespace SubstModel

/-! ### Numbers -/

namespace Number

open Float.Model Float.Model.UnpackedFloat

/-- Two numbers are equal when neither is undefined and they are the same or both zero. -/
theorem unpacked_beq_iff (u w : UnpackedFloat) :
    u.beq w = true ↔ u ≠ .notANumber ∧ (u = w ∨ ∃ s t, u = .zero s ∧ w = .zero t) := by
  rw [UnpackedFloat.beq]
  cases u with
  | notANumber => cases w <;> simp [UnpackedFloat.compare]
  | infinity s =>
    cases w with
    | infinity t => cases s <;> cases t <;> simp [UnpackedFloat.compare] <;> decide
    | _ => cases s <;> simp [UnpackedFloat.compare]
  | zero s =>
    cases w with
    | infinity t | finite t => cases t <;> simp [UnpackedFloat.compare]
    | _ => simp [UnpackedFloat.compare]
  | finite s =>
    cases w with
    | finite t => cases s <;> cases t <;> simp [UnpackedFloat.compare, Ordering.then_eq_eq, and_comm]
    | infinity t => cases t <;> simp [UnpackedFloat.compare]
    | _ => cases s <;> simp [UnpackedFloat.compare]

/-- There is one number to each unpacked number: only one undefined number can be made. -/
theorem unpack_injective {x y : Float} (h : x.toModel.unpack = y.toModel.unpack) : x = y := by
  have hx := pack_unpack_of_valid x.toModel.valid (by decide)
  have hy := pack_unpack_of_valid y.toModel.valid (by decide)
  have hbits : x.toModel.toBits.toBitVec = y.toModel.toBits.toBitVec :=
    hx.symm.trans ((congrArg (UnpackedFloat.pack Format.binary64) h).trans hy)
  obtain ⟨⟨⟨b⟩, hb⟩⟩ := x
  obtain ⟨⟨⟨b'⟩, hb'⟩⟩ := y
  cases hbits
  rfl

/-- The number is a zero of either sign. -/
def IsZero (x : Float) : Prop :=
  ∃ s, x.toModel.unpack = .zero s

theorem IsZero.isNumber {x : Float} : IsZero x → IsNumber x := by
  rintro ⟨s, hs⟩
  rw [IsNumber, hs]
  exact nofun

theorem isZero_zero : IsZero 0.0 :=
  ⟨.positive, rfl⟩

theorem beq_iff_same_or_zero {x y : Float} : (x == y) = true ↔ IsNumber x ∧ (x = y ∨ IsZero x ∧ IsZero y) := by
  refine (unpacked_beq_iff x.toModel.unpack y.toModel.unpack).trans (and_congr_right fun _ => or_congr ?_ ?_)
  · exact ⟨unpack_injective, fun h => h ▸ rfl⟩
  · exact ⟨fun ⟨s, t, hs, ht⟩ => ⟨⟨s, hs⟩, t, ht⟩, fun ⟨⟨s, hs⟩, t, ht⟩ => ⟨s, t, hs, ht⟩⟩

/-- The number, with one of the two zeros in place of either. -/
def unsignedZero (x : Float) : Float :=
  if x == 0.0 then 0.0 else x

theorem unsignedZero_of_isZero {x : Float} (h : IsZero x) : unsignedZero x = 0.0 :=
  if_pos (beq_iff_same_or_zero.2 ⟨h.isNumber, .inr ⟨h, isZero_zero⟩⟩)

theorem unsignedZero_of_not_isZero {x : Float} (h : ¬ IsZero x) : unsignedZero x = x := by
  refine if_neg fun hbeq => h ?_
  obtain ⟨-, rfl | hzero⟩ := beq_iff_same_or_zero.1 hbeq
  · exact isZero_zero
  · exact hzero.1

theorem isNumber_unsignedZero {x : Float} : IsNumber (unsignedZero x) ↔ IsNumber x := by
  by_cases h : IsZero x
  · rw [unsignedZero_of_isZero h]
    exact iff_of_true isZero_zero.isNumber h.isNumber
  · rw [unsignedZero_of_not_isZero h]

/-- **Numbers are equal when neither is undefined and they are the same but for the sign of a zero.** -/
theorem beq_iff {x y : Float} : (x == y) = true ↔ IsNumber x ∧ unsignedZero x = unsignedZero y := by
  rw [beq_iff_same_or_zero]
  refine and_congr_right fun _ => ?_
  by_cases hx : IsZero x <;> by_cases hy : IsZero y
  · rw [unsignedZero_of_isZero hx, unsignedZero_of_isZero hy]
    exact iff_of_true (.inr ⟨hx, hy⟩) rfl
  · rw [unsignedZero_of_isZero hx, unsignedZero_of_not_isZero hy]
    exact iff_of_false (fun h => hy (h.elim (· ▸ hx) And.right)) fun h => hy (h ▸ isZero_zero)
  · rw [unsignedZero_of_not_isZero hx, unsignedZero_of_isZero hy]
    exact iff_of_false (fun h => hx (h.elim (·.symm ▸ hy) And.left)) fun h => hx (h.symm ▸ isZero_zero)
  · rw [unsignedZero_of_not_isZero hx, unsignedZero_of_not_isZero hy]
    exact ⟨fun h => h.resolve_right fun hzero => hx hzero.1, .inl⟩

end Number

/-! ### Undefined numbers -/

mutual

/-- No undefined number occurs in the expression, in what is quoted neither. -/
def Expr.NoUndefined : Expr → Prop
  | .number x => Number.IsNumber x
  | .boolean _ | .string _ | .primitive _ | .var _ => True
  | .cond test onTrue onFalse => test.NoUndefined ∧ onTrue.NoUndefined ∧ onFalse.NoUndefined
  | .lambda _ body => Expr.NoUndefinedAll body
  | .app operator operands => operator.NoUndefined ∧ Expr.NoUndefinedAll operands
  | .letIn bindings body => Expr.NoUndefinedPairs bindings ∧ Expr.NoUndefinedAll body
  | .quoted v => v.NoUndefined
  | .define _ value => value.NoUndefined
  | .classDef _ methods => Expr.NoUndefinedPairs methods
termination_by structural e => e

/-- No undefined number occurs in any of the expressions. -/
def Expr.NoUndefinedAll : List Expr → Prop
  | [] => True
  | e :: es => e.NoUndefined ∧ Expr.NoUndefinedAll es
termination_by structural es => es

/-- No undefined number occurs in the value of any of the bindings. -/
def Expr.NoUndefinedPairs : List (String × Expr) → Prop
  | [] => True
  | (_, e) :: bs => e.NoUndefined ∧ Expr.NoUndefinedPairs bs
termination_by structural bs => bs

/-- No undefined number occurs in the value, at any depth of lists, bodies and methods. -/
def Value.NoUndefined : Value → Prop
  | .number x => Number.IsNumber x
  | .boolean _ | .string _ | .symbol _ | .primitive _ => True
  | .list items => Value.NoUndefinedAll items
  | .closure _ _ body => Expr.NoUndefinedAll body
  | .classDef _ _ methods | .object _ _ methods => Expr.NoUndefinedPairs methods
termination_by structural v => v

/-- No undefined number occurs in any of the values. -/
def Value.NoUndefinedAll : List Value → Prop
  | [] => True
  | v :: vs => v.NoUndefined ∧ Value.NoUndefinedAll vs
termination_by structural vs => vs

end

/-! ### Contents -/

mutual

/-- The expression without what the comparison of contents does not see: references in it, and the signs of zeros. -/
def Expr.contents : Expr → Expr
  | .number x => .number (Number.unsignedZero x)
  | .boolean b => .boolean b
  | .string s => .string s
  | .primitive p => .primitive p
  | .var x => .var x
  | .cond test onTrue onFalse => .cond test.contents onTrue.contents onFalse.contents
  | .lambda params body => .lambda params (Expr.contentsAll body)
  | .app operator operands => .app operator.contents (Expr.contentsAll operands)
  | .letIn bindings body => .letIn (Expr.contentsPairs bindings) (Expr.contentsAll body)
  | .quoted v => .quoted v.contents
  | .define x value => .define x value.contents
  | .classDef fields methods => .classDef fields (Expr.contentsPairs methods)
termination_by structural e => e

/-- The contents of several expressions. -/
def Expr.contentsAll : List Expr → List Expr
  | [] => []
  | e :: es => e.contents :: Expr.contentsAll es
termination_by structural es => es

/-- The names of bindings with the contents of their values. -/
def Expr.contentsPairs : List (String × Expr) → List (String × Expr)
  | [] => []
  | (x, e) :: bs => (x, e.contents) :: Expr.contentsPairs bs
termination_by structural bs => bs

/-- The value without what the comparison of contents does not see. -/
def Value.contents : Value → Value
  | .number x => .number (Number.unsignedZero x)
  | .boolean b => .boolean b
  | .string s => .string s
  | .symbol s => .symbol s
  | .primitive p => .primitive p
  | .list items => .list (Value.contentsAll items)
  | .closure _ params body => .closure 0 params (Expr.contentsAll body)
  | .classDef _ fields methods => .classDef 0 fields (Expr.contentsPairs methods)
  | .object _ fields methods => .object 0 fields (Expr.contentsPairs methods)
termination_by structural v => v

/-- The contents of several values. -/
def Value.contentsAll : List Value → List Value
  | [] => []
  | v :: vs => v.contents :: Value.contentsAll vs
termination_by structural vs => vs

end

theorem Expr.map_fst_contentsPairs (bs : List (String × Expr)) :
    (Expr.contentsPairs bs).map Prod.fst = bs.map Prod.fst := by
  induction bs with
  | nil => rfl
  | cons b bs ih => rw [Expr.contentsPairs, List.map_cons, ih, List.map_cons]

mutual

theorem Expr.noUndefined_contents : ∀ e : Expr, e.contents.NoUndefined ↔ e.NoUndefined
  | .number _ => Number.isNumber_unsignedZero
  | .boolean _ | .string _ | .primitive _ | .var _ => Iff.rfl
  | .cond a b c =>
    and_congr (Expr.noUndefined_contents a) (and_congr (Expr.noUndefined_contents b) (Expr.noUndefined_contents c))
  | .lambda _ body => Expr.noUndefinedAll_contents body
  | .app f es => and_congr (Expr.noUndefined_contents f) (Expr.noUndefinedAll_contents es)
  | .letIn bs body => and_congr (Expr.noUndefinedPairs_contents bs) (Expr.noUndefinedAll_contents body)
  | .quoted v => Value.noUndefined_contents v
  | .define _ e => Expr.noUndefined_contents e
  | .classDef _ methods => Expr.noUndefinedPairs_contents methods
termination_by structural e => e

theorem Expr.noUndefinedAll_contents : ∀ es : List Expr,
    Expr.NoUndefinedAll (Expr.contentsAll es) ↔ Expr.NoUndefinedAll es
  | [] => Iff.rfl
  | e :: es => and_congr (Expr.noUndefined_contents e) (Expr.noUndefinedAll_contents es)
termination_by structural es => es

theorem Expr.noUndefinedPairs_contents : ∀ bs : List (String × Expr),
    Expr.NoUndefinedPairs (Expr.contentsPairs bs) ↔ Expr.NoUndefinedPairs bs
  | [] => Iff.rfl
  | (_, e) :: bs => and_congr (Expr.noUndefined_contents e) (Expr.noUndefinedPairs_contents bs)
termination_by structural bs => bs

theorem Value.noUndefined_contents : ∀ v : Value, v.contents.NoUndefined ↔ v.NoUndefined
  | .number _ => Number.isNumber_unsignedZero
  | .boolean _ | .string _ | .symbol _ | .primitive _ => Iff.rfl
  | .list vs => Value.noUndefinedAll_contents vs
  | .closure _ _ body => Expr.noUndefinedAll_contents body
  | .classDef _ _ methods | .object _ _ methods => Expr.noUndefinedPairs_contents methods
termination_by structural v => v

theorem Value.noUndefinedAll_contents : ∀ vs : List Value,
    Value.NoUndefinedAll (Value.contentsAll vs) ↔ Value.NoUndefinedAll vs
  | [] => Iff.rfl
  | v :: vs => and_congr (Value.noUndefined_contents v) (Value.noUndefinedAll_contents vs)
termination_by structural vs => vs

end

/-! ### Equal contents -/

mutual

/-- **Expressions have equal contents when their contents are the same and no undefined number occurs in them.** -/
theorem Expr.same_iff : ∀ e e' : Expr, e.same e' = true ↔ e.NoUndefined ∧ e.contents = e'.contents
  | .number x, e' => by
    cases e' with
    | number y => rw [Expr.same, Number.beq_iff, Expr.NoUndefined, Expr.contents, Expr.contents, Expr.number.injEq]
    | _ => simp [Expr.same, Expr.contents]
  | .boolean _, e' | .string _, e' | .primitive _, e' | .var _, e' => by
    cases e' <;> simp [Expr.same, Expr.contents, Expr.NoUndefined]
  | .cond a b c, e' => by
    cases e' with
    | cond a' b' c' =>
      simp only [Expr.same, Bool.and_eq_true, Expr.same_iff a, Expr.same_iff b, Expr.same_iff c, Expr.NoUndefined,
        Expr.contents, Expr.cond.injEq]
      tauto
    | _ => simp [Expr.same, Expr.contents]
  | .lambda params body, e' => by
    cases e' with
    | lambda params' body' =>
      simp only [Expr.same, Bool.and_eq_true, beq_iff_eq, Expr.sameAll_iff body, Expr.NoUndefined, Expr.contents,
        Expr.lambda.injEq]
      tauto
    | _ => simp [Expr.same, Expr.contents]
  | .app f es, e' => by
    cases e' with
    | app f' es' =>
      simp only [Expr.same, Bool.and_eq_true, Expr.same_iff f, Expr.sameAll_iff es, Expr.NoUndefined, Expr.contents,
        Expr.app.injEq]
      tauto
    | _ => simp [Expr.same, Expr.contents]
  | .letIn bs body, e' => by
    cases e' with
    | letIn bs' body' =>
      simp only [Expr.same, Bool.and_eq_true, Expr.samePairs_iff bs, Expr.sameAll_iff body, Expr.NoUndefined,
        Expr.contents, Expr.letIn.injEq]
      tauto
    | _ => simp [Expr.same, Expr.contents]
  | .quoted v, e' => by
    cases e' with
    | quoted w => rw [Expr.same, Value.same_iff v, Expr.NoUndefined, Expr.contents, Expr.contents, Expr.quoted.injEq]
    | _ => simp [Expr.same, Expr.contents]
  | .define x e, e' => by
    cases e' with
    | define y e' =>
      simp only [Expr.same, Bool.and_eq_true, beq_iff_eq, Expr.same_iff e, Expr.NoUndefined, Expr.contents,
        Expr.define.injEq]
      tauto
    | _ => simp [Expr.same, Expr.contents]
  | .classDef fields methods, e' => by
    cases e' with
    | classDef fields' methods' =>
      simp only [Expr.same, Bool.and_eq_true, beq_iff_eq, Expr.samePairs_iff methods, Expr.NoUndefined, Expr.contents,
        Expr.classDef.injEq]
      tauto
    | _ => simp [Expr.same, Expr.contents]
termination_by structural e => e

theorem Expr.sameAll_iff : ∀ es es' : List Expr,
    Expr.sameAll es es' = true ↔ Expr.NoUndefinedAll es ∧ Expr.contentsAll es = Expr.contentsAll es'
  | [], es' => by cases es' <;> simp [Expr.sameAll, Expr.contentsAll, Expr.NoUndefinedAll]
  | e :: es, es' => by
    cases es' with
    | nil => simp [Expr.sameAll, Expr.contentsAll]
    | cons e' es' =>
      simp only [Expr.sameAll, Bool.and_eq_true, Expr.same_iff e, Expr.sameAll_iff es, Expr.NoUndefinedAll,
        Expr.contentsAll, List.cons.injEq]
      tauto
termination_by structural es => es

theorem Expr.samePairs_iff : ∀ bs bs' : List (String × Expr),
    Expr.samePairs bs bs' = true ↔ Expr.NoUndefinedPairs bs ∧ Expr.contentsPairs bs = Expr.contentsPairs bs'
  | [], bs' => by cases bs' <;> simp [Expr.samePairs, Expr.contentsPairs, Expr.NoUndefinedPairs]
  | (x, e) :: bs, bs' => by
    cases bs' with
    | nil => simp [Expr.samePairs, Expr.contentsPairs]
    | cons b' bs' =>
      simp only [Expr.samePairs, Bool.and_eq_true, beq_iff_eq, Expr.same_iff e, Expr.samePairs_iff bs,
        Expr.NoUndefinedPairs, Expr.contentsPairs, List.cons.injEq, Prod.mk.injEq]
      tauto
termination_by structural bs => bs

/-- **Values have equal contents when their contents are the same and no undefined number occurs in them.** -/
theorem Value.same_iff : ∀ v w : Value, v.same w = true ↔ v.NoUndefined ∧ v.contents = w.contents
  | .number x, w => by
    cases w with
    | number y =>
      rw [Value.same, Number.beq_iff, Value.NoUndefined, Value.contents, Value.contents, Value.number.injEq]
    | _ => simp [Value.same, Value.contents]
  | .boolean _, w | .string _, w | .symbol _, w | .primitive _, w => by
    cases w <;> simp [Value.same, Value.contents, Value.NoUndefined]
  | .list vs, w => by
    cases w with
    | list ws =>
      rw [Value.same, Value.sameAll_iff vs, Value.NoUndefined, Value.contents, Value.contents, Value.list.injEq]
    | _ => simp [Value.same, Value.contents]
  | .closure _ params body, w => by
    cases w with
    | closure _ params' body' =>
      simp only [Value.same, Bool.and_eq_true, beq_iff_eq, Expr.sameAll_iff body, Value.NoUndefined, Value.contents,
        Value.closure.injEq]
      tauto
    | _ => simp [Value.same, Value.contents]
  | .classDef _ fields methods, w => by
    cases w with
    | classDef _ fields' methods' =>
      simp only [Value.same, Bool.and_eq_true, beq_iff_eq, Expr.samePairs_iff methods, Value.NoUndefined,
        Value.contents, Value.classDef.injEq]
      tauto
    | _ => simp [Value.same, Value.contents]
  | .object _ fields methods, w => by
    cases w with
    | object _ fields' methods' =>
      simp only [Value.same, Bool.and_eq_true, beq_iff_eq, Expr.samePairs_iff methods, Value.NoUndefined,
        Value.contents, Value.object.injEq]
      tauto
    | _ => simp [Value.same, Value.contents]
termination_by structural v => v

theorem Value.sameAll_iff : ∀ vs ws : List Value,
    Value.sameAll vs ws = true ↔ Value.NoUndefinedAll vs ∧ Value.contentsAll vs = Value.contentsAll ws
  | [], ws => by cases ws <;> simp [Value.sameAll, Value.contentsAll, Value.NoUndefinedAll]
  | v :: vs, ws => by
    cases ws with
    | nil => simp [Value.sameAll, Value.contentsAll]
    | cons w ws =>
      simp only [Value.sameAll, Bool.and_eq_true, Value.same_iff v, Value.sameAll_iff vs, Value.NoUndefinedAll,
        Value.contentsAll, List.cons.injEq]
      tauto
termination_by structural vs => vs

end

/-- What no undefined number occurs in has equal contents with itself, and nothing else has. -/
theorem Value.same_self_iff {v : Value} : v.same v = true ↔ v.NoUndefined := by
  rw [Value.same_iff, and_iff_left rfl]

theorem Value.same_symm {v w : Value} (h : v.same w = true) : w.same v = true := by
  obtain ⟨hv, heq⟩ := (Value.same_iff v w).1 h
  have hw : w.NoUndefined := by
    rw [← Value.noUndefined_contents, ← heq, Value.noUndefined_contents]
    exact hv
  exact (Value.same_iff w v).2 ⟨hw, heq.symm⟩

theorem Value.same_trans {u v w : Value} (huv : u.same v = true) (hvw : v.same w = true) : u.same w = true := by
  obtain ⟨hu, hcontents⟩ := (Value.same_iff u v).1 huv
  exact (Value.same_iff u w).2 ⟨hu, hcontents.trans ((Value.same_iff v w).1 hvw).2⟩

/-! ### Identity -/

/-- The values are closures, classes or objects with one reference. -/
def Value.OneReference : Value → Value → Prop
  | .closure r _ _, .closure r' _ _ | .classDef r _ _, .classDef r' _ _ | .object r _ _, .object r' _ _ => r = r'
  | _, _ => False

/-- The value is a constant, a symbol, a primitive or the empty list. -/
def Value.IsAtom : Value → Prop
  | .number _ | .boolean _ | .string _ | .symbol _ | .primitive _ | .list [] => True
  | _ => False

/-- **Identical values have one reference, or they are atoms with equal contents.** -/
theorem Value.identical_iff (v w : Value) :
    v.identical w = true ↔ v.OneReference w ∨ v.IsAtom ∧ v.same w = true := by
  cases v with
  | list vs =>
    cases w with
    | list ws =>
      cases vs <;> cases ws <;>
        simp [Value.identical, Value.OneReference, Value.IsAtom, Value.same, Value.sameAll]
    | _ => simp [Value.identical, Value.OneReference, Value.same]
  | _ => cases w <;> simp [Value.identical, Value.OneReference, Value.IsAtom, Value.same]

theorem Value.OneReference.symm {v w : Value} (h : v.OneReference w) : w.OneReference v := by
  cases v <;> cases w <;> first | exact h.elim | exact Eq.symm h

theorem Value.OneReference.trans {u v w : Value} (huv : u.OneReference v) (hvw : v.OneReference w) :
    u.OneReference w := by
  cases u <;> cases v <;> first | exact huv.elim | (cases w <;> first | exact hvw.elim | exact Eq.trans huv hvw)

theorem Value.OneReference.not_isAtom {v w : Value} (h : v.OneReference w) : ¬ v.IsAtom := by
  cases v <;> cases w <;> first | exact h.elim | exact id

/-- What an atom has equal contents with is an atom. -/
theorem Value.IsAtom.of_same {v w : Value} (hv : v.IsAtom) (h : v.same w = true) : w.IsAtom := by
  cases v with
  | list vs =>
    cases vs with
    | nil =>
      cases w with
      | list ws => cases ws <;> trivial
      | _ => cases h
    | cons => exact hv.elim
  | closure | classDef | object => exact hv.elim
  | _ => cases w <;> trivial

theorem Value.identical_symm {v w : Value} (h : v.identical w = true) : w.identical v = true := by
  rw [Value.identical_iff] at h ⊢
  rcases h with href | ⟨hatom, hsame⟩
  · exact .inl href.symm
  · exact .inr ⟨hatom.of_same hsame, Value.same_symm hsame⟩

theorem Value.identical_trans {u v w : Value} (huv : u.identical v = true) (hvw : v.identical w = true) :
    u.identical w = true := by
  rw [Value.identical_iff] at huv hvw ⊢
  rcases huv with href | ⟨hatom, hsame⟩
  · -- A procedure is no atom, so the second identity is one of references too.
    exact .inl (href.trans (hvw.resolve_right fun h => href.symm.not_isAtom h.1))
  · rcases hvw with href | ⟨-, hsame'⟩
    · exact absurd (hatom.of_same hsame) href.not_isAtom
    · exact .inr ⟨hatom, Value.same_trans hsame hsame'⟩

/-- Where one reference means one value, identity refines equality, undefined numbers apart. -/
theorem Value.same_of_identical {v w : Value} (href : v.OneReference w → v = w) (hv : v.NoUndefined)
    (h : v.identical w = true) : v.same w = true := by
  rcases (Value.identical_iff v w).1 h with hone | ⟨-, hsame⟩
  · rw [← href hone]
    exact Value.same_self_iff.2 hv
  · exact hsame

/-! ### Comparisons -/

/-- The comparison of the two values succeeds. -/
def Primitive.Relates (p : Primitive) (v w : Value) : Prop :=
  p.apply [v, w] = .ok (.boolean true)

theorem Primitive.relates_equal_iff {v w : Value} : Primitive.equal.Relates v w ↔ v.same w = true := by
  show Except.ok (Value.boolean (v.same w)) = Except.ok (Value.boolean true) ↔ _
  rw [Except.ok.injEq, Value.boolean.injEq]

theorem Primitive.relates_identical_iff {v w : Value} : Primitive.identical.Relates v w ↔ v.identical w = true := by
  show Except.ok (Value.boolean (v.identical w)) = Except.ok (Value.boolean true) ↔ _
  rw [Except.ok.injEq, Value.boolean.injEq]

/-- **Both comparisons are sound.**  Each is symmetric and transitive.  A value equals itself exactly when no undefined
number occurs in it.  And identical values are equal, unless an undefined number occurs in them, as long as closures,
classes and objects with one reference are the same. -/
theorem comparisons_sound :
    (∀ p ∈ [Primitive.equal, .identical],
      (∀ a b, p.Relates a b → p.Relates b a) ∧ ∀ a b c, p.Relates a b → p.Relates b c → p.Relates a c) ∧
      (∀ a, Primitive.equal.Relates a a ↔ a.NoUndefined) ∧
      ∀ a b : Value, (a.OneReference b → a = b) → a.NoUndefined → Primitive.identical.Relates a b →
        Primitive.equal.Relates a b := by
  simp only [List.forall_mem_cons, List.not_mem_nil, false_implies, implies_true, and_true,
    Primitive.relates_equal_iff, Primitive.relates_identical_iff]
  exact ⟨⟨⟨fun _ _ => Value.same_symm, fun _ _ _ => Value.same_trans⟩, fun _ _ => Value.identical_symm,
    fun _ _ _ => Value.identical_trans⟩, fun _ => Value.same_self_iff, fun _ _ => Value.same_of_identical⟩

/-- A closure in which a number stands, compared with itself. -/
theorem comparisons_sound_closure :
    let v := Value.closure 7 ["x"] [.app (.var "x") [.number 1.5]]
    (v.OneReference v → v = v) ∧ v.NoUndefined ∧ Primitive.identical.Relates v v ∧ Primitive.equal.Relates v v := by
  intro v
  have hv : v.NoUndefined := ⟨⟨trivial, Number.isNumber_ofScientific 15 true 1, trivial⟩, trivial⟩
  have hidentical : Primitive.identical.Relates v v := rfl
  exact ⟨fun _ => rfl, hv, hidentical, comparisons_sound.2.2 v v (fun _ => rfl) hv hidentical⟩

/-- A closure in which the undefined number stands is identical with itself, but not equal to itself. -/
example :
    let v := Value.closure 7 ["x"] [.number (0.0 / 0.0)]
    v.identical v = true ∧ v.same v = false := by
  exact ⟨rfl, rfl⟩

end SubstModel

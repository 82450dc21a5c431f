import SubstModel.Primitive.Apply
import Mathlib.Data.List.Forall2

/-!
# What primitives see of values

The primitives other than the two equalities look at no more of a value than which kind of atom or list it is, and
they build nothing but numbers, truth values and lists of what they were given.  So they can be stated for every type
of values of which that much is known, and they take related arguments to related results.

* `View`, `Viewed` — what is seen of a value, and the types whose values are seen so;
* `Primitive.applyOn` — the primitives on such a type, with the kinds of their failures;
* `Respects` — the relations that a view cannot tell apart, among them those of `respects_map`;
* `Primitive.apply_related` — **primitives take related arguments to related results, or fail alike**;
* `Primitive.apply_keeps`, `Primitive.apply_failure` — what they give back, and how they fail.
-/

namespace SubstModel

/-! ### Views -/

/-- What a primitive sees of a value of the type `V`. -/
inductive View (V : Type) where
  | number (x : Float)
  | boolean (b : Bool)
  | string (s : String)
  | symbol (s : String)
  | list (items : List V)
  | procedure

/-- Types whose values can be seen, with the values that primitives build. -/
class Viewed (V : Type) where
  view : V → View V
  ofNumber : Float → V
  ofBoolean : Bool → V
  ofList : List V → V

open Viewed

/-- What is seen of a value. -/
def Value.view : Value → View Value
  | .number x => .number x
  | .boolean b => .boolean b
  | .string s => .string s
  | .symbol s => .symbol s
  | .list vs => .list vs
  | .primitive _ | .closure .. | .classDef .. | .object .. => .procedure

instance : Viewed Value := ⟨Value.view, .number, .boolean, .list⟩

/-! ### Primitives on a viewed type -/

section ViewedPrimitives

variable {V : Type} [Viewed V]

/-- The value counts as true. -/
def View.isTrue : View V → Bool
  | .boolean false => false
  | _ => true

/-- A list with items. -/
def View.isPair : View V → Bool
  | .list (_ :: _) => true
  | _ => false

/-- The empty list. -/
def View.isNil : View V → Bool
  | .list [] => true
  | _ => false

/-- The number that is seen. -/
def View.asNumber : View V → Except Failure.Kind Float
  | .number x => .ok x
  | _ => .error .type

/-- The string that is seen. -/
def View.asString : View V → Except Failure.Kind String
  | .string s => .ok s
  | _ => .error .type

/-- The items of the list that is seen. -/
def View.asList : View V → Except Failure.Kind (List V)
  | .list vs => .ok vs
  | _ => .error .type

namespace Primitive

/-- The numbers that are seen. -/
def numbersOn : List V → Except Failure.Kind (List Float)
  | [] => .ok []
  | v :: vs => do
    let x ← (view v).asNumber
    let xs ← numbersOn vs
    return x :: xs

/-- A comparison of every number with the next. -/
def compareOn (r : Float → Float → Bool) (args : List V) : Except Failure.Kind V := do
  let xs ← numbersOn args
  return ofBoolean (chain r xs)

/-- A number divided by the others in turn. -/
def quotientOn (x : Float) : List V → Except Failure.Kind Float
  | [] => .ok x
  | v :: vs => do
    let y ← (view v).asNumber
    if y == 0.0 then .error .eval else quotientOn (x / y) vs

/-- All the strings equal the first, up to the first that differs. -/
def sameStringsOn (s : String) : List V → Except Failure.Kind Bool
  | [] => .ok true
  | v :: vs => do
    let t ← (view v).asString
    if t == s then sameStringsOn s vs else return false

/-- The first of the arguments that counts as false, or else the last. -/
def conjunctionOn : List V → V
  | [] => ofBoolean true
  | [v] => v
  | v :: vs => if (view v).isTrue then conjunctionOn vs else v

/-- The first of the arguments that counts as true. -/
def disjunctionOn : List V → V
  | [] => ofBoolean false
  | v :: vs => if (view v).isTrue then v else disjunctionOn vs

/-- A test of what is seen. -/
def testOn (test : View V → Bool) (v : V) : Except Failure.Kind V :=
  .ok (ofBoolean (test (view v)))

/-- An operation on arguments of a right number.  The two equalities see more than a view and are left out. -/
def runOn : Primitive → List V → Except Failure.Kind V
  | .add, args => do return ofNumber ((← numbersOn args).foldl (· + ·) 0.0)
  | .multiply, args => do return ofNumber ((← numbersOn args).foldl (· * ·) 1.0)
  | .subtract, [v] => do return ofNumber (-(← (view v).asNumber))
  | .subtract, v :: vs => do
    let x ← (view v).asNumber
    return ofNumber ((← numbersOn vs).foldl (· - ·) x)
  | .divide, [v] => do return ofNumber (← quotientOn 1.0 [v])
  | .divide, v :: vs => do
    let x ← (view v).asNumber
    return ofNumber (← quotientOn x vs)
  | .numEqual, args => compareOn (fun x y => x == y) args
  | .less, args => compareOn (fun x y => decide (x < y)) args
  | .greater, args => compareOn (fun x y => decide (y < x)) args
  | .lessEqual, args => compareOn (fun x y => decide (x ≤ y)) args
  | .greaterEqual, args => compareOn (fun x y => decide (y ≤ x)) args
  | .not, [v] => testOn (fun o => !o.isTrue) v
  | .and, args => .ok (conjunctionOn args)
  | .or, args => .ok (disjunctionOn args)
  | .stringEqual, v :: vs => do
    let s ← (view v).asString
    return ofBoolean (← sameStringsOn s vs)
  | .cons, [v, w] => do return ofList (v :: (← (view w).asList))
  | .car, [v] => do
    match ← (view v).asList with
    | w :: _ => return w
    | [] => throw .eval
  | .cdr, [v] => do
    match ← (view v).asList with
    | _ :: ws => return ofList ws
    | [] => throw .eval
  | .list, args => .ok (ofList args)
  | .isPair, [v] => testOn View.isPair v
  | .isNull, [v] => testOn View.isNil v
  | .isList, [v] => testOn (fun o => match o with | .list _ => true | _ => false) v
  | .isNumber, [v] => testOn (fun o => match o with | .number _ => true | _ => false) v
  | .isBoolean, [v] => testOn (fun o => match o with | .boolean _ => true | _ => false) v
  | .isSymbol, [v] => testOn (fun o => match o with | .symbol _ => true | _ => false) v
  | .isString, [v] => testOn (fun o => match o with | .string _ => true | _ => false) v
  | .isProcedure, [v] => testOn (fun o => match o with | .procedure => true | _ => false) v
  | _, _ => .error .arity

/-- An operation on any arguments. -/
def applyOn (p : Primitive) (args : List V) : Except Failure.Kind V :=
  match p.arity.missed? args.length with
  | some _ => .error .arity
  | none => runOn p args

end Primitive

end ViewedPrimitives

/-! ### Relations that views respect -/

/-- What is seen of two values is the same, up to the relation between items of lists. -/
inductive View.Related {V W : Type} (R : V → W → Prop) : View V → View W → Prop
  | number (x : Float) : View.Related R (.number x) (.number x)
  | boolean (b : Bool) : View.Related R (.boolean b) (.boolean b)
  | string (s : String) : View.Related R (.string s) (.string s)
  | symbol (s : String) : View.Related R (.symbol s) (.symbol s)
  | list {vs : List V} {ws : List W} (h : List.Forall₂ R vs ws) : View.Related R (.list vs) (.list ws)
  | procedure : View.Related R .procedure .procedure

/-- Related values look alike, and values that are built alike are related. -/
structure Respects {V W : Type} [Viewed V] [Viewed W] (R : V → W → Prop) : Prop where
  view : ∀ {v w}, R v w → View.Related R (view v) (view w)
  number : ∀ x, R (ofNumber x) (ofNumber x)
  boolean : ∀ b, R (ofBoolean b) (ofBoolean b)
  list : ∀ {vs ws}, List.Forall₂ R vs ws → R (ofList vs) (ofList ws)

/-- What is seen of a value, with the items of a list changed. -/
def View.map {V W : Type} (f : V → W) : View V → View W
  | .number x => .number x
  | .boolean b => .boolean b
  | .string s => .string s
  | .symbol s => .symbol s
  | .list vs => .list (vs.map f)
  | .procedure => .procedure

/-- Values and what a function makes of them, if it changes nothing that is seen but the items of lists. -/
theorem respects_map {V W : Type} [Viewed V] [Viewed W] {f : V → W} (hview : ∀ v, view (f v) = (view v).map f)
    (hnumber : ∀ x, f (ofNumber x) = ofNumber x) (hboolean : ∀ b, f (ofBoolean b) = ofBoolean b)
    (hlist : ∀ vs, f (ofList vs) = ofList (vs.map f)) : Respects fun v w => f v = w where
  view {v w} h := by
    subst h
    rw [hview]
    cases view v with
    | list vs => exact .list (List.forall₂_map_right_iff.2 (List.forall₂_same.2 fun _ _ => rfl))
    | number x => exact .number x
    | boolean b => exact .boolean b
    | string s => exact .string s
    | symbol s => exact .symbol s
    | procedure => exact .procedure
  number := hnumber
  boolean := hboolean
  list {vs ws} h := by
    have hmap : vs.map f = ws := by rwa [← List.forall₂_eq_eq_eq, List.forall₂_map_left_iff]
    rw [hlist, hmap]

/-- The failures that primitives can end in. -/
def Failure.IsOfPrimitive : Failure → Prop
  | .type _ | .arity .. => True
  | .eval .divisionByZero | .eval .carOfEmpty | .eval .cdrOfEmpty => True
  | _ => False

/-- Two results are related, or a failure of a primitive is of the kind that the other side fails with. -/
inductive Outcome.Related {α β : Type} (R : α → β → Prop) : Outcome α → Except Failure.Kind β → Prop
  | ok {a : α} {b : β} (h : R a b) : Outcome.Related R (.ok a) (.ok b)
  | error {f : Failure} (h : f.IsOfPrimitive) : Outcome.Related R (.error f) (.error f.kind)

theorem Outcome.Related.bind {α β γ δ : Type} {R : α → β → Prop} {S : γ → δ → Prop} {x : Outcome α}
    {y : Except Failure.Kind β} {f : α → Outcome γ} {g : β → Except Failure.Kind δ}
    (hxy : Outcome.Related R x y) (hfg : ∀ a b, R a b → Outcome.Related S (f a) (g b)) :
    Outcome.Related S (x >>= f) (y >>= g) := by
  cases hxy with
  | ok h => exact hfg _ _ h
  | error h => exact .error h

/-- Behind steps with the same result. -/
theorem Outcome.Related.bind_eq {α γ δ : Type} {S : γ → δ → Prop} {x : Outcome α} {y : Except Failure.Kind α}
    {f : α → Outcome γ} {g : α → Except Failure.Kind δ} (hxy : Outcome.Related Eq x y)
    (hfg : ∀ a, Outcome.Related S (f a) (g a)) : Outcome.Related S (x >>= f) (y >>= g) := by
  refine hxy.bind fun a b hab => ?_
  rw [hab]
  exact hfg b

theorem Outcome.Related.arity {α β : Type} {R : α → β → Prop} (p : Primitive) (n m : Nat) :
    Outcome.Related R (.error (p.arityFailure n m)) (.error .arity) :=
  .error (f := .arity _ _ _) trivial

/-! ### The primitives respect what views respect -/

section Parts

variable {V : Type} {R : Value → V → Prop}

theorem View.Related.isTrue {v : Value} {o : View V} (h : View.Related R v.view o) :
    v.isTrue = o.isTrue := by
  cases v with
  | boolean b => cases h; cases b <;> rfl
  | number | string | symbol | list | primitive | closure | classDef | object => cases h; rfl

theorem View.Related.asNumber {v : Value} {o : View V} (h : View.Related R v.view o) :
    Outcome.Related Eq v.asNumber o.asNumber := by
  cases v with
  | number x => cases h; exact .ok rfl
  | boolean | string | symbol | list | primitive | closure | classDef | object =>
    cases h; exact .error trivial

theorem View.Related.asString {v : Value} {o : View V} (h : View.Related R v.view o) :
    Outcome.Related Eq v.asString o.asString := by
  cases v with
  | string s => cases h; exact .ok rfl
  | boolean | number | symbol | list | primitive | closure | classDef | object =>
    cases h; exact .error trivial

theorem View.Related.asList {v : Value} {o : View V} (h : View.Related R v.view o) :
    Outcome.Related (List.Forall₂ R) v.asList o.asList := by
  cases v with
  | list vs => cases h with | list h => exact .ok h
  | boolean | number | symbol | string | primitive | closure | classDef | object =>
    cases h; exact .error trivial

theorem View.Related.isPair : ∀ {v : Value} {o : View V}, View.Related R v.view o →
    (match v with | .list (_ :: _) => true | _ => false) = o.isPair := by
  intro v o h
  cases v with
  | list vs => cases h with | list h => cases h <;> rfl
  | boolean | number | symbol | string | primitive | closure | classDef | object => cases h; rfl

theorem View.Related.isNil {v : Value} {o : View V} (h : View.Related R v.view o) :
    v.isNil = o.isNil := by
  cases v with
  | list vs => cases h with | list h => cases h <;> rfl
  | boolean | number | symbol | string | primitive | closure | classDef | object => cases h; rfl

variable [Viewed V] (hR : Respects R)

include hR

namespace Primitive

theorem numbers_related {args : List Value} {args' : List V} (h : List.Forall₂ R args args') :
    Outcome.Related Eq (numbers args) (numbersOn args') := by
  induction h with
  | nil => exact .ok rfl
  | cons hv _ ih =>
    refine (hR.view hv).asNumber.bind_eq fun x => ?_
    refine ih.bind_eq fun xs => ?_
    exact .ok rfl

theorem compare_related (r : Float → Float → Bool) {args : List Value} {args' : List V}
    (h : List.Forall₂ R args args') : Outcome.Related R (compare r args) (compareOn r args') := by
  refine (numbers_related hR h).bind_eq fun xs => ?_
  exact .ok (hR.boolean _)

theorem quotient_related {args : List Value} {args' : List V} (h : List.Forall₂ R args args') :
    ∀ x, Outcome.Related Eq (quotient x args) (quotientOn x args') := by
  induction h with
  | nil => exact fun x => .ok rfl
  | cons hv _ ih =>
    intro x
    refine (hR.view hv).asNumber.bind_eq fun y => ?_
    by_cases hy : (y == 0.0) = true
    · rw [if_pos hy, if_pos hy]
      exact .error (f := .eval .divisionByZero) trivial
    · rw [if_neg hy, if_neg hy]
      exact ih (x / y)

theorem sameStrings_related (s : String) {args : List Value} {args' : List V}
    (h : List.Forall₂ R args args') :
    Outcome.Related Eq (sameStrings s args) (sameStringsOn s args') := by
  induction h with
  | nil => exact .ok rfl
  | cons hv _ ih =>
    refine (hR.view hv).asString.bind_eq fun t => ?_
    by_cases ht : (t == s) = true
    · rw [if_pos ht, if_pos ht]
      exact ih
    · rw [if_neg ht, if_neg ht]
      exact .ok rfl

theorem conjunction_related {args : List Value} {args' : List V} (h : List.Forall₂ R args args') :
    R (conjunction args) (conjunctionOn args') := by
  induction h with
  | nil => exact hR.boolean true
  | @cons v w vs ws hv hvs ih =>
    cases hvs with
    | nil => exact hv
    | cons hu hus =>
      rw [conjunction, conjunctionOn, (hR.view hv).isTrue]
      · split
        · exact ih
        · exact hv
      · simp
      · simp

theorem disjunction_related {args : List Value} {args' : List V} (h : List.Forall₂ R args args') :
    R (disjunction args) (disjunctionOn args') := by
  induction h with
  | nil => exact hR.boolean false
  | cons hv _ ih =>
    rw [disjunction, disjunctionOn, (hR.view hv).isTrue]
    split
    · exact hv
    · exact ih

/-- A test of a value and the same test of what is seen of it. -/
theorem test_related (test : View V → Bool) {w : V} {b : Bool}
    (h : b = test (view w)) : Outcome.Related R (.ok (.boolean b)) (testOn test w) := by
  rw [testOn, h]
  exact .ok (hR.boolean _)

theorem subtract_related {args : List Value} {args' : List V} (h : List.Forall₂ R args args') :
    Outcome.Related R (run .subtract args) (runOn .subtract args') := by
  rcases h with _ | ⟨hv, _ | ⟨hw, hvs⟩⟩
  · exact .arity _ _ _
  · refine (hR.view hv).asNumber.bind_eq fun x => ?_
    exact .ok (hR.number _)
  · refine (hR.view hv).asNumber.bind_eq fun x => ?_
    refine (numbers_related hR (.cons hw hvs)).bind_eq fun xs => ?_
    exact .ok (hR.number _)

theorem divide_related {args : List Value} {args' : List V} (h : List.Forall₂ R args args') :
    Outcome.Related R (run .divide args) (runOn .divide args') := by
  rcases h with _ | ⟨hv, _ | ⟨hw, hvs⟩⟩
  · exact .arity _ _ _
  · refine (quotient_related hR (.cons hv .nil) _).bind_eq fun x => ?_
    exact .ok (hR.number _)
  · refine (hR.view hv).asNumber.bind_eq fun x => ?_
    refine (quotient_related hR (.cons hw hvs) x).bind_eq fun y => ?_
    exact .ok (hR.number _)

theorem cons_related {args : List Value} {args' : List V} (h : List.Forall₂ R args args') :
    Outcome.Related R (run .cons args) (runOn .cons args') := by
  rcases h with _ | ⟨hv, _ | ⟨hw, _ | ⟨hu, hvs⟩⟩⟩
  · exact .arity _ _ _
  · exact .arity _ _ _
  · rename_i v v' w w'
    have hview := hR.view hw
    show Outcome.Related R _ (do return ofList (v' :: (← (view w').asList)))
    cases w with
    | list ws =>
      generalize view w' = o at hview
      cases hview with
      | list hws => exact .ok (hR.list (.cons hv hws))
    | boolean | number | symbol | string | primitive | closure | classDef | object =>
      generalize view w' = o at hview
      cases hview
      exact .error (f := .type (.consOnto _)) trivial
  · rename_i w _ _ _ _ _
    cases w <;> exact .arity _ _ _

theorem run_related {p : Primitive} (hp : p ≠ .identical) (hq : p ≠ .equal) {args : List Value}
    {args' : List V} (h : List.Forall₂ R args args') :
    Outcome.Related R (run p args) (runOn p args') := by
  cases p with
  | identical => exact absurd rfl hp
  | equal => exact absurd rfl hq
  | add | multiply =>
    refine (numbers_related hR h).bind_eq fun xs => ?_
    exact .ok (hR.number _)
  | subtract => exact subtract_related hR h
  | divide => exact divide_related hR h
  | numEqual | less | greater | lessEqual | greaterEqual => exact compare_related hR _ h
  | and => exact .ok (conjunction_related hR h)
  | or => exact .ok (disjunction_related hR h)
  | list => exact .ok (hR.list h)
  | stringEqual =>
    cases h with
    | nil => exact .arity _ _ _
    | cons hv hvs =>
      refine (hR.view hv).asString.bind_eq fun t => ?_
      refine (sameStrings_related hR t hvs).bind_eq fun b => ?_
      exact .ok (hR.boolean _)
  | cons => exact cons_related hR h
  | car =>
    rcases h with _ | ⟨hv, _ | ⟨hw, hvs⟩⟩
    · exact .arity _ _ _
    · refine (hR.view hv).asList.bind ?_
      intro vs vs' hvs
      cases hvs with
      | nil => exact .error (f := .eval .carOfEmpty) trivial
      | cons hu _ => exact .ok hu
    · exact .arity _ _ _
  | cdr =>
    rcases h with _ | ⟨hv, _ | ⟨hw, hvs⟩⟩
    · exact .arity _ _ _
    · refine (hR.view hv).asList.bind ?_
      intro vs vs' hvs
      cases hvs with
      | nil => exact .error (f := .eval .cdrOfEmpty) trivial
      | cons _ hus => exact .ok (hR.list hus)
    · exact .arity _ _ _
  | not =>
    rcases h with _ | ⟨hv, _ | ⟨hw, hvs⟩⟩
    · exact .arity _ _ _
    · exact test_related hR (fun o => !o.isTrue) (congrArg Bool.not (hR.view hv).isTrue)
    · exact .arity _ _ _
  | isPair =>
    rcases h with _ | ⟨hv, _ | ⟨hw, hvs⟩⟩
    · exact .arity _ _ _
    · exact test_related hR View.isPair (hR.view hv).isPair
    · exact .arity _ _ _
  | isNull =>
    rcases h with _ | ⟨hv, _ | ⟨hw, hvs⟩⟩
    · exact .arity _ _ _
    · exact test_related hR View.isNil (hR.view hv).isNil
    · exact .arity _ _ _
  | isList | isNumber | isBoolean | isSymbol | isString | isProcedure =>
    rcases h with _ | ⟨hv, _ | ⟨hw, hvs⟩⟩
    · exact .arity _ _ _
    · rename_i v w
      have hview := hR.view hv
      simp only [run, runOn]
      refine test_related hR _ ?_
      cases v <;> (generalize view w = o at hview; cases hview; rfl)
    · exact .arity _ _ _

/-- **Related arguments have related results, or the failures are of one kind.** -/
theorem apply_related {p : Primitive} (hp : p ≠ .identical) (hq : p ≠ .equal) {args : List Value}
    {args' : List V} (h : List.Forall₂ R args args') :
    Outcome.Related R (p.apply args) (p.applyOn args') := by
  rw [apply, applyOn, h.length_eq]
  cases p.arity.missed? args'.length with
  | some n => exact .error (f := .arity _ _ _) trivial
  | none => exact run_related hR hp hq h

end Primitive

end Parts

/-! ### What primitives give back -/

/-- A property that a list has when its items have it, and that numbers and truth values have. -/
structure Listwise (P : Value → Prop) : Prop where
  number : ∀ x, P (.number x)
  boolean : ∀ b, P (.boolean b)
  list : ∀ {vs}, P (.list vs) ↔ ∀ v ∈ vs, P v

theorem Listwise.all : Listwise fun _ => True :=
  ⟨fun _ => trivial, fun _ => trivial, by simp⟩

theorem Listwise.respects {P : Value → Prop} (hP : Listwise P) :
    Respects fun v w : Value => v = w ∧ P v := by
  constructor
  · rintro v _ ⟨rfl, hv⟩
    cases v with
    | list vs => exact .list (List.forall₂_same.2 fun v hv' => ⟨rfl, hP.list.1 hv v hv'⟩)
    | number x => exact .number x
    | boolean b => exact .boolean b
    | string s => exact .string s
    | symbol s => exact .symbol s
    | primitive | closure | classDef | object => exact .procedure
  · exact fun x => ⟨rfl, hP.number x⟩
  · exact fun b => ⟨rfl, hP.boolean b⟩
  · intro vs ws h
    have heq : vs = ws := List.forall₂_eq_eq_eq ▸ h.imp fun _ _ h => h.1
    subst heq
    exact ⟨rfl, hP.list.2 fun v hv => (List.forall₂_same.1 h v hv).2⟩

namespace Primitive

/-- An equality of two values is a truth value, and it is applied to two values only. -/
theorem apply_equality {p : Primitive} (hp : p = .identical ∨ p = .equal) (args : List Value) :
    (∃ b, p.apply args = .ok (.boolean b)) ∨ ∃ n, p.apply args = .error (arityFailure p 2 n) := by
  match args with
  | [v, w] => exact .inl (by rcases hp with rfl | rfl <;> exact ⟨_, rfl⟩)
  | [] | [_] => exact .inr (by rcases hp with rfl | rfl <;> exact ⟨_, rfl⟩)
  | u :: v :: w :: rest =>
    refine .inr ⟨(u :: v :: w :: rest).length, ?_⟩
    rcases hp with rfl | rfl <;> rfl

/-- **A primitive gives back nothing but numbers, truth values, arguments, items of arguments and lists of these.** -/
theorem apply_keeps {P : Value → Prop} (hP : Listwise P) {p : Primitive} {args : List Value} {v : Value}
    (h : p.apply args = .ok v) (hargs : ∀ a ∈ args, P a) : P v := by
  by_cases hp : p = .identical ∨ p = .equal
  · rcases apply_equality hp args with ⟨b, hb⟩ | ⟨n, hn⟩
    · rw [hb] at h
      cases h
      exact hP.boolean b
    · rw [hn] at h
      cases h
  · rw [not_or] at hp
    have hrel := apply_related hP.respects hp.1 hp.2
      (List.forall₂_same.2 fun a ha => ⟨rfl, hargs a ha⟩)
    rw [h] at hrel
    generalize p.applyOn args = r at hrel
    cases hrel with
    | ok hv => exact hv.2

/-- **A primitive fails with a failure of primitives.** -/
theorem apply_failure {p : Primitive} {args : List Value} {f : Failure} (h : p.apply args = .error f) :
    f.IsOfPrimitive := by
  by_cases hp : p = .identical ∨ p = .equal
  · rcases apply_equality hp args with ⟨b, hb⟩ | ⟨n, hn⟩
    · rw [hb] at h
      cases h
    · rw [hn] at h
      cases h
      trivial
  · rw [not_or] at hp
    have hrel := apply_related Listwise.all.respects hp.1 hp.2
      (List.forall₂_same.2 fun a (_ : a ∈ args) => ⟨rfl, trivial⟩)
    rw [h] at hrel
    generalize p.applyOn args = r at hrel
    cases hrel with
    | error hf => exact hf

end Primitive

end SubstModel

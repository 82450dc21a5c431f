import SubstModel.Outcome
import SubstModel.Primitive.Apply
import Mathlib.Data.List.Perm.Basic

/-!
# The arguments that primitives check

Arithmetic, the comparisons of numbers and the comparison of strings ask for arguments of one kind, and for any number
of them.  An operation on numbers looks at all of its arguments before it gives a result.  The comparison of strings
stops at the first string that differs, and what stands behind it is not looked at.

* `Value.kind?`, `Primitive.argumentKind?` — the kinds that values are of and that operations ask for;
* `Checks` — an outcome that looks at all arguments, in their order (`Checks.bind`);
* `Primitive.apply_checks` — **an operation on numbers checks all of its arguments**;
* `Primitive.sameStrings_eq` — the first argument that is not the string decides;
* `arguments_checked` — **what is checked, and which calls a reordering can turn into one that succeeds**.
-/

namespace SubstModel

/-! ### Kinds -/

/-- The kind of the value, if primitives ask for it. -/
def Value.kind? : Value → Option ValueKind
  | .number _ => some .number
  | .string _ => some .string
  | .list _ => some .list
  | .boolean _ | .symbol _ | .primitive _ | .closure .. | .classDef .. | .object .. => none

/-- The kind that an operation asks for in all of its arguments, however many there are. -/
def Primitive.argumentKind? : Primitive → Option ValueKind
  | .add | .subtract | .multiply | .divide => some .number
  | .numEqual | .less | .greater | .lessEqual | .greaterEqual => some .number
  | .stringEqual => some .string
  | _ => none

/-- The operations that ask for numbers, and the one that asks for strings. -/
theorem Primitive.argumentKind?_cases {p : Primitive} {kind : ValueKind} (h : p.argumentKind? = some kind) :
    (kind = .number ∧ p.argumentKind? = some .number) ∨ (kind = .string ∧ p = .stringEqual) := by
  cases p <;> cases h <;> simp [argumentKind?]

/-- The first of the arguments that is not of the kind. -/
def firstOther? (kind : ValueKind) (args : List Value) : Option Value :=
  args.find? fun v => v.kind? != some kind

theorem firstOther?_eq_none {kind : ValueKind} {args : List Value} :
    firstOther? kind args = none ↔ ∀ v ∈ args, v.kind? = some kind := by
  simp [firstOther?]

theorem firstOther?_append (kind : ValueKind) (args others : List Value) :
    firstOther? kind (args ++ others) = (firstOther? kind args).or (firstOther? kind others) :=
  List.find?_append

theorem firstOther?_singleton {kind : ValueKind} {v : Value} (h : v.kind? ≠ some kind) :
    firstOther? kind [v] = some v := by
  simp [firstOther?, h]

/-- Two of the arguments are different strings. -/
def DifferentStrings (args : List Value) : Prop :=
  ∃ s t, s ≠ t ∧ Value.string s ∈ args ∧ Value.string t ∈ args

theorem DifferentStrings.perm {args others : List Value} (h : DifferentStrings args) (hperm : args.Perm others) :
    DifferentStrings others := by
  obtain ⟨s, t, hne, hs, ht⟩ := h
  exact ⟨s, t, hne, hperm.mem_iff.1 hs, hperm.mem_iff.1 ht⟩

/-- Two different strings can be brought to the front. -/
theorem DifferentStrings.exists_perm {args : List Value} (h : DifferentStrings args) :
    ∃ s t others, s ≠ t ∧ args.Perm (.string s :: .string t :: others) := by
  obtain ⟨s, t, hne, hs, ht⟩ := h
  obtain ⟨front, behind, rfl⟩ := List.append_of_mem hs
  have hrest : .string t ∈ front ++ behind := by
    rcases List.mem_cons.1 (List.perm_middle.mem_iff.1 ht) with heq | hrest
    · cases heq
      exact absurd rfl hne
    · exact hrest
  obtain ⟨before, after, hsplit⟩ := List.append_of_mem hrest
  refine ⟨s, t, before ++ after, hne, List.perm_middle.trans (.cons _ ?_)⟩
  rw [hsplit]
  exact List.perm_middle

theorem Value.exists_string_of_kind? {v : Value} (h : v.kind? = some .string) : ∃ s, v = .string s := by
  cases v with
  | string s => exact ⟨s, rfl⟩
  | _ => cases h

/-! ### Outcomes that look at all arguments -/

theorem Outcome.isResult_iff {α : Type} {r : Outcome α} : r.isResult = true ↔ ∃ a, r = .ok a := by
  cases r <;> simp [isResult]

theorem Outcome.isResult_map {α β : Type} (r : Outcome α) (change : α → β) :
    Outcome.isResult (do return change (← r)) = r.isResult := by
  cases r <;> rfl

/-- There is a result only if all arguments are of the kind, and a failure for a type names the first that is not. -/
structure Checks {α : Type} (kind : ValueKind) (args : List Value) (r : Outcome α) : Prop where
  result : ∀ {a}, r = .ok a → ∀ v ∈ args, v.kind? = some kind
  failure : ∀ {f}, r = .error (.type f) → ∃ v, firstOther? kind args = some v ∧ f = .expected kind v

namespace Checks

variable {α β : Type} {kind : ValueKind} {args others : List Value}

/-- A failure for another reason claims nothing about the arguments. -/
theorem error {e : Failure} (h : ∀ f, e ≠ .type f) : Checks kind args (.error e : Outcome α) where
  result heq := by cases heq
  failure heq := absurd (Except.error.inj heq) (h _)

theorem pure (a : α) : Checks kind [] (.ok a : Outcome α) where
  result _ := List.forall_mem_nil _
  failure heq := by cases heq

/-- One argument that is looked at. -/
theorem asNumber (v : Value) : Checks .number [v] v.asNumber := by
  cases v with
  | number x => exact ⟨fun _ => List.forall_mem_singleton.2 rfl, nofun⟩
  | _ => exact ⟨nofun, fun heq => ⟨_, firstOther?_singleton nofun, by cases heq; rfl⟩⟩

/-- What goes on from a result looks at the arguments that follow. -/
theorem bind {r : Outcome α} {next : α → Outcome β} (h : Checks kind args r)
    (hnext : ∀ a, Checks kind others (next a)) : Checks kind (args ++ others) (r >>= next) := by
  cases r with
  | error e =>
    constructor
    · intro b heq
      cases heq
    · intro f heq
      obtain ⟨v, hfirst, hf⟩ := h.failure (f := f) (congrArg Except.error (Except.error.inj heq))
      exact ⟨v, by rw [firstOther?_append, hfirst, Option.some_or], hf⟩
  | ok a =>
    have hargs := h.result rfl
    constructor
    · intro b heq
      exact List.forall_mem_append.2 ⟨hargs, (hnext a).result heq⟩
    · intro f heq
      obtain ⟨v, hfirst, hf⟩ := (hnext a).failure heq
      exact ⟨v, by rw [firstOther?_append, firstOther?_eq_none.2 hargs, Option.none_or, hfirst], hf⟩

/-- A result that is changed at the end. -/
theorem map {r : Outcome α} (h : Checks kind args r) (change : α → β) :
    Checks kind args (do return change (← r)) := by
  have hmap := h.bind fun a => Checks.pure (change a)
  rwa [List.append_nil] at hmap

end Checks

namespace Primitive

/-! ### Operations on numbers -/

theorem numbers_checks (args : List Value) : Checks .number args (numbers args) := by
  induction args with
  | nil => exact .pure []
  | cons v args ih => exact (Checks.asNumber v).bind fun x => ih.map fun xs => x :: xs

theorem compare_checks (r : Float → Float → Bool) (args : List Value) : Checks .number args (compare r args) :=
  (numbers_checks args).map fun xs => Value.boolean (chain r xs)

theorem quotient_checks (args : List Value) (x : Float) : Checks .number args (quotient x args) := by
  induction args generalizing x with
  | nil => exact .pure x
  | cons v args ih =>
    refine (Checks.asNumber v).bind fun y => ?_
    -- Division by zero leaves the rest of the divisors unseen, but it is a failure and not for a type.
    split
    · exact .error nofun
    · exact ih (x / y)

theorem subtract_checks (args : List Value) : Checks .number args (run .subtract args) := by
  match args with
  | [] => exact .error nofun
  | [v] => exact (Checks.asNumber v).map fun x => Value.number (-x)
  | v :: w :: args =>
    exact (Checks.asNumber v).bind fun x => (numbers_checks (w :: args)).map fun xs => Value.number (xs.foldl (· - ·) x)

theorem divide_checks (args : List Value) : Checks .number args (run .divide args) := by
  match args with
  | [] => exact .error nofun
  | [v] => exact (quotient_checks [v] 1.0).map Value.number
  | v :: w :: args => exact (Checks.asNumber v).bind fun x => (quotient_checks (w :: args) x).map Value.number

/-- **An operation on numbers checks all of its arguments.** -/
theorem apply_checks {p : Primitive} (hp : p.argumentKind? = some .number) (args : List Value) :
    Checks .number args (p.apply args) := by
  rw [apply]
  split
  · exact .error nofun
  · cases p with
    | add => exact (numbers_checks args).map fun xs => Value.number (xs.foldl (· + ·) 0.0)
    | multiply => exact (numbers_checks args).map fun xs => Value.number (xs.foldl (· * ·) 1.0)
    | subtract => exact subtract_checks args
    | divide => exact divide_checks args
    | numEqual | less | greater | lessEqual | greaterEqual => exact compare_checks _ args
    | _ => cases hp

/-! ### The comparison of strings -/

/-- The value is this string. -/
def isText (s : String) : Value → Bool
  | .string t => t == s
  | _ => false

theorem isText_iff {s : String} {v : Value} : isText s v = true ↔ v = .string s := by
  cases v with
  | string t => simp [isText]
  | _ => simp [isText]

/-- The first of the arguments that is not this string. -/
def firstUnlike? (s : String) (args : List Value) : Option Value :=
  args.find? fun v => !isText s v

theorem firstUnlike?_eq_none {s : String} {args : List Value} :
    firstUnlike? s args = none ↔ ∀ v ∈ args, v = .string s := by
  simp [firstUnlike?, isText_iff]

theorem firstUnlike?_eq_some {s : String} {args : List Value} {v : Value} :
    firstUnlike? s args = some v ↔
      v ≠ .string s ∧ ∃ front behind, args = front ++ v :: behind ∧ ∀ w ∈ front, w = .string s := by
  simp [firstUnlike?, List.find?_eq_some_iff_append, ← isText_iff]

/-- The first argument that is not the string decides: if it is a string, there is a result, and nothing behind it
counts. -/
theorem sameStrings_eq (s : String) (args : List Value) :
    sameStrings s args = match firstUnlike? s args with
      | none => .ok true
      | some v => v.asString.map fun _ => false := by
  induction args with
  | nil => rfl
  | cons v args ih =>
    cases v with
    | string t =>
      have hstep : sameStrings s (.string t :: args) = if t == s then sameStrings s args else .ok false := rfl
      rw [hstep, ih]
      by_cases h : t = s
      · simp [firstUnlike?, isText, h]
      · simp [firstUnlike?, isText, Value.asString, Except.map, h]
    | _ => rfl

/-- There is a result if all the arguments are the string, or the first that is not is another string. -/
theorem sameStrings_isResult {s : String} {args : List Value} :
    (sameStrings s args).isResult = true ↔ ∀ v, firstUnlike? s args = some v → v.kind? = some .string := by
  rw [sameStrings_eq]
  cases firstUnlike? s args with
  | none => simp [Outcome.isResult]
  | some v => cases v <;> simp [Outcome.isResult, Value.asString, Value.kind?, Except.map]

/-- The argument at which the comparison fails is the first that is no string. -/
theorem sameStrings_failure {s : String} {args : List Value} {f : Failure} (h : sameStrings s args = .error f) :
    ∃ v, firstOther? .string args = some v ∧ f = .type (.expected .string v) := by
  rw [sameStrings_eq] at h
  cases hunlike : firstUnlike? s args with
  | none => simp [hunlike] at h
  | some v =>
    rw [hunlike] at h
    obtain ⟨-, front, behind, rfl, hfront⟩ := firstUnlike?_eq_some.1 hunlike
    have hstrings : ∀ w ∈ front, w.kind? = some .string := by
      intro w hw
      rw [hfront w hw, Value.kind?]
    have hskip : firstOther? .string (front ++ v :: behind) = firstOther? .string (v :: behind) := by
      rw [firstOther?_append, firstOther?_eq_none.2 hstrings, Option.none_or]
    refine ⟨v, ?_, ?_⟩
    · rw [hskip]
      cases v with
      | string t => cases h
      | _ => rfl
    · cases v with
      | string t => cases h
      | _ => cases h; rfl

/-- Two or more strings are compared, up to the first that differs. -/
theorem stringEqual_apply (s : String) (v : Value) (args : List Value) :
    stringEqual.apply (.string s :: v :: args) = do return .boolean (← sameStrings s (v :: args)) := rfl

/-- **The comparison of strings has a result** when the first that differs from the first argument is a string.  What
stands behind it does not count. -/
theorem stringEqual_isResult {args : List Value} :
    (stringEqual.apply args).isResult = true ↔ 2 ≤ args.length ∧
      ∃ s others, args = .string s :: others ∧ ∀ v, firstUnlike? s others = some v → v.kind? = some .string := by
  match args with
  | [] | [_] => simp [apply, arity, Arity.missed?, Outcome.isResult]
  | first :: v :: args =>
    cases first with
    | string s =>
      rw [stringEqual_apply, Outcome.isResult_map, sameStrings_isResult]
      simp
    | _ => exact ⟨nofun, fun ⟨_, s, others, heq, _⟩ => by cases heq⟩

/-- The argument at which a comparison of strings fails is the first that is none. -/
theorem stringEqual_failure {args : List Value} {f : TypeFault} (h : stringEqual.apply args = .error (.type f)) :
    ∃ v, firstOther? .string args = some v ∧ f = .expected .string v := by
  match args with
  | [] | [_] => cases h
  | first :: v :: args =>
    cases first with
    | string s =>
      rw [stringEqual_apply] at h
      cases hsame : sameStrings s (v :: args) with
      | ok b =>
        rw [hsame] at h
        cases h
      | error e =>
        rw [hsame] at h
        obtain ⟨w, hw, rfl⟩ := sameStrings_failure hsame
        cases h
        have hskip : firstOther? .string (.string s :: v :: args) = firstOther? .string (v :: args) := rfl
        exact ⟨w, hskip.trans hw, rfl⟩
    | _ => exact ⟨_, rfl, by cases h; rfl⟩

/-- **A failure for a type names the first argument of a wrong kind.** -/
theorem apply_failure_type {p : Primitive} {kind : ValueKind} (hp : p.argumentKind? = some kind) {args : List Value}
    {f : TypeFault} (h : p.apply args = .error (.type f)) :
    ∃ v, firstOther? kind args = some v ∧ f = .expected kind v := by
  rcases argumentKind?_cases hp with ⟨rfl, hnumber⟩ | ⟨rfl, rfl⟩
  · exact (apply_checks hnumber args).failure h
  · exact stringEqual_failure h

/-- Two different strings in front settle the comparison, and nothing else is looked at. -/
theorem stringEqual_different {s t : String} (hne : s ≠ t) (args : List Value) :
    stringEqual.apply (.string s :: .string t :: args) = .ok (.boolean false) := by
  have hfirst : firstUnlike? s (.string t :: args) = some (.string t) := by
    simp [firstUnlike?, isText, Ne.symm hne]
  rw [stringEqual_apply, sameStrings_eq, hfirst]
  rfl

/-- A comparison of strings that has a result is one of strings only, or two of them are different. -/
theorem stringEqual_result {args : List Value} (h : (stringEqual.apply args).isResult = true) :
    (∀ v ∈ args, v.kind? = some .string) ∨ DifferentStrings args := by
  obtain ⟨-, s, others, rfl, hunlike⟩ := stringEqual_isResult.1 h
  cases hfirst : firstUnlike? s others with
  | none =>
    have hothers : ∀ v ∈ others, v.kind? = some .string := by
      intro v hv
      rw [firstUnlike?_eq_none.1 hfirst v hv, Value.kind?]
    exact .inl (List.forall_mem_cons.2 ⟨rfl, hothers⟩)
  | some v =>
    obtain ⟨t, rfl⟩ := Value.exists_string_of_kind? (hunlike v hfirst)
    obtain ⟨hne, front, behind, rfl, -⟩ := firstUnlike?_eq_some.1 hfirst
    exact .inr ⟨s, t, fun heq => hne (by rw [heq]), List.mem_cons_self, by simp⟩

/-- Strings only are compared. -/
theorem stringEqual_of_strings {args : List Value} (hlen : 2 ≤ args.length)
    (h : ∀ v ∈ args, v.kind? = some .string) : (stringEqual.apply args).isResult = true := by
  match args with
  | v :: others =>
    obtain ⟨s, rfl⟩ := Value.exists_string_of_kind? (h v List.mem_cons_self)
    refine stringEqual_isResult.2 ⟨hlen, s, others, rfl, fun w hw => ?_⟩
    exact h w (List.mem_cons_of_mem _ (List.mem_of_find?_eq_some hw))

/-- A call on strings can be made to succeed by a reordering exactly when all arguments are strings, or two of them are
different strings: then these come first. -/
theorem exists_perm_stringEqual {args : List Value} :
    (∃ others, args.Perm others ∧ (stringEqual.apply others).isResult = true) ↔ 2 ≤ args.length ∧
      ((∀ v ∈ args, v.kind? = some .string) ∨ DifferentStrings args) := by
  constructor
  · rintro ⟨others, hperm, hresult⟩
    refine ⟨by rw [hperm.length_eq]; exact (stringEqual_isResult.1 hresult).1, ?_⟩
    rcases stringEqual_result hresult with hstrings | hdifferent
    · exact .inl fun v hv => hstrings v (hperm.mem_iff.1 hv)
    · exact .inr (hdifferent.perm hperm.symm)
  · rintro ⟨hlen, hstrings | hdifferent⟩
    · exact ⟨args, .refl _, stringEqual_of_strings hlen hstrings⟩
    · obtain ⟨s, t, others, hne, hperm⟩ := hdifferent.exists_perm
      exact ⟨_, hperm, by rw [stringEqual_different hne]; rfl⟩

/-- Where no two different strings are compared, there is a result only if all arguments are of the kind. -/
theorem kind_of_isResult {p : Primitive} {kind : ValueKind} (hp : p.argumentKind? = some kind) {args : List Value}
    (hsame : p ≠ .stringEqual ∨ ¬DifferentStrings args) (h : (p.apply args).isResult = true) :
    ∀ v ∈ args, v.kind? = some kind := by
  rcases argumentKind?_cases hp with ⟨rfl, hnumber⟩ | ⟨rfl, rfl⟩
  · obtain ⟨v, heq⟩ := Outcome.isResult_iff.1 h
    exact (apply_checks hnumber args).result heq
  · exact (stringEqual_result h).resolve_right (hsame.resolve_left (not_not.2 rfl))

end Primitive

/-- **Which arguments are checked.**  A failure for a type names the first argument of a wrong kind.  There is a result
only if all arguments are of the kind, and no reordering of a call that fails for a type has one: this holds for every
operation but the comparison of strings, and for that as long as no two of the arguments are different strings.  The
comparison of strings checks the first argument and those behind it up to the first string that differs.  So a call of
it can succeed in some order exactly when all arguments are strings, or two of them are different strings, whatever the
others are. -/
theorem arguments_checked {p : Primitive} {kind : ValueKind} (hp : p.argumentKind? = some kind) (args : List Value) :
    (∀ f, p.apply args = .error (.type f) → ∃ v, firstOther? kind args = some v ∧ f = .expected kind v) ∧
      (p ≠ .stringEqual ∨ ¬DifferentStrings args → ∀ others, args.Perm others →
        ((p.apply others).isResult = true → ∀ v ∈ others, v.kind? = some kind) ∧
          ∀ f, p.apply args = .error (.type f) → (p.apply others).isFailure = true) ∧
      (p = .stringEqual →
        ((p.apply args).isResult = true ↔ 2 ≤ args.length ∧
          ∃ s others, args = .string s :: others ∧
            ∀ v, Primitive.firstUnlike? s others = some v → v.kind? = some .string) ∧
        ((∃ others, args.Perm others ∧ (p.apply others).isResult = true) ↔ 2 ≤ args.length ∧
          ((∀ v ∈ args, v.kind? = some .string) ∨ DifferentStrings args))) := by
  refine ⟨fun f => Primitive.apply_failure_type hp, fun hsame others hperm => ?_, ?_⟩
  · have hothers : p ≠ .stringEqual ∨ ¬DifferentStrings others :=
      hsame.imp_right fun hargs hdifferent => hargs (hdifferent.perm hperm.symm)
    refine ⟨Primitive.kind_of_isResult hp hothers, fun f heq => ?_⟩
    rw [Outcome.isFailure, Bool.not_eq_true', Bool.eq_false_iff]
    intro hresult
    obtain ⟨v, hfirst, -⟩ := Primitive.apply_failure_type hp heq
    have hargs : ∀ w ∈ args, w.kind? = some kind :=
      fun w hw => Primitive.kind_of_isResult hp hothers hresult w (hperm.mem_iff.1 hw)
    rw [firstOther?_eq_none.2 hargs] at hfirst
    cases hfirst
  · rintro rfl
    exact ⟨Primitive.stringEqual_isResult, Primitive.exists_perm_stringEqual⟩

/-- A sum of a number and a string is refused in both orders, and two different strings are compared. -/
theorem arguments_checked_sum :
    let args : List Value := [.number 1.0, .string "a"]
    let f : TypeFault := .expected .number (.string "a")
    Primitive.add.argumentKind? = some .number ∧ Primitive.add.apply args = .error (.type f) ∧
      (∃ v, firstOther? .number args = some v ∧ f = .expected .number v) ∧
      args.Perm args.reverse ∧ (Primitive.add.apply args.reverse).isFailure = true ∧
      Primitive.stringEqual.argumentKind? = some .string ∧
      (Primitive.stringEqual.apply [.string "a", .string "b"]).isResult = true ∧
      ∃ s others, [Value.string "a", .string "b"] = .string s :: others ∧
        ∀ v, Primitive.firstUnlike? s others = some v → v.kind? = some .string := by
  intro args f
  have hperm : args.Perm args.reverse := (List.reverse_perm args).symm
  obtain ⟨hfailure, hchecked, -⟩ := arguments_checked (p := .add) rfl args
  obtain ⟨-, -, hstrings⟩ := arguments_checked (p := .stringEqual) rfl [.string "a", .string "b"]
  have hresult : (Primitive.stringEqual.apply [.string "a", .string "b"]).isResult = true := rfl
  exact ⟨rfl, rfl, hfailure f rfl, hperm, (hchecked (.inl nofun) _ hperm).2 f rfl, rfl, hresult,
    ((hstrings rfl).1.1 hresult).2⟩

/-- Behind two different strings a number is not looked at.  In front of the second it is refused. -/
theorem arguments_unchecked_behind_difference :
    (∃ v, Primitive.stringEqual.apply [.string "a", .string "b", .number 3.0] = .ok v) ∧
      Primitive.stringEqual.apply [.string "a", .number 3.0, .string "b"]
        = .error (.type (.expected .string (.number 3.0))) ∧
      [Value.string "a", .number 3.0, .string "b"].Perm [.string "a", .string "b", .number 3.0] ∧
      ¬ ∀ args v, Primitive.stringEqual.apply args = .ok v → ∀ a ∈ args, a.kind? = some .string := by
  have hresult : Primitive.stringEqual.apply [.string "a", .string "b", .number 3.0] = .ok (.boolean false) :=
    Primitive.stringEqual_different (by decide) _
  refine ⟨⟨_, hresult⟩, rfl, .cons _ (.swap ..), fun hall => ?_⟩
  have hkind : (Value.number 3.0).kind? = some .string := hall _ _ hresult _ (by simp)
  cases hkind

end SubstModel

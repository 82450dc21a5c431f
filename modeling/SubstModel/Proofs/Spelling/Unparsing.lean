import SubstModel.Proofs.Spelling.Expressions
import SubstModel.Proofs.Spelling.Reader
import SubstModel.Proofs.Spelling.Written

/-!
# Unparsing — programs are read back from their texts

The text of a program is a datum of the grammar, one level deeper than the forms that the program was read from.  It is
read back as a program with the same text.  That is the same program, except that a quote mark in front of a constant is
not written, and that a number which is not finite is written as a symbol.

* `Expr.numbers`, `Expr.QuotesNoConstant` — what decides whether a program is read back as it was;
* `Expr.respelled` — the expression that the written form of an expression denotes;
* `Denotes.readsBack` — that written form spells a datum, no deeper than the one that was read;
* `Program.reads_back` — **the text of a program is read back, or is too deep**.
-/

namespace SubstModel

/-! ### Numbers and constants -/

mutual

/-- The numbers of a value that a datum stands for, in their order. -/
def Value.numbers : Value → List Float
  | .number x => [x]
  | .boolean _ | .string _ | .symbol _ => []
  | .list vs => Value.numbersAll vs
  | .primitive _ | .closure .. | .classDef .. | .object .. => []
termination_by structural v => v

/-- The numbers of several values. -/
def Value.numbersAll : List Value → List Float
  | [] => []
  | v :: vs => Value.numbers v ++ Value.numbersAll vs
termination_by structural vs => vs

end

mutual

/-- The numbers of an expression, in their order, quoted ones among them. -/
def Expr.numbers : Expr → List Float
  | .number x => [x]
  | .boolean _ | .string _ | .primitive _ | .var _ => []
  | .cond test onTrue onFalse => test.numbers ++ (onTrue.numbers ++ onFalse.numbers)
  | .lambda _ body => Expr.numbersAll body
  | .app operator operands => operator.numbers ++ Expr.numbersAll operands
  | .letIn bindings body => Expr.numbersPairs bindings ++ Expr.numbersAll body
  | .quoted v => v.numbers
  | .define _ value => value.numbers
  | .classDef _ methods => Expr.numbersPairs methods
termination_by structural e => e

/-- The numbers of several expressions. -/
def Expr.numbersAll : List Expr → List Float
  | [] => []
  | e :: es => e.numbers ++ Expr.numbersAll es
termination_by structural es => es

/-- The numbers in the values of bindings. -/
def Expr.numbersPairs : List (String × Expr) → List Float
  | [] => []
  | (_, e) :: bs => e.numbers ++ Expr.numbersPairs bs
termination_by structural bs => bs

end

/-- The numbers of a program. -/
def Program.numbers (p : Program) : List Float :=
  Expr.numbersAll p.forms

/-- The value is a number, a truth value or a string. -/
def Value.isConstant : Value → Bool
  | .number _ | .boolean _ | .string _ => true
  | _ => false

mutual

/-- No quote stands directly around a number, a truth value or a string. -/
def Expr.QuotesNoConstant : Expr → Prop
  | .number _ | .boolean _ | .string _ | .primitive _ | .var _ => True
  | .cond test onTrue onFalse => test.QuotesNoConstant ∧ onTrue.QuotesNoConstant ∧ onFalse.QuotesNoConstant
  | .lambda _ body => Expr.QuotesNoConstantAll body
  | .app operator operands => operator.QuotesNoConstant ∧ Expr.QuotesNoConstantAll operands
  | .letIn bindings body => Expr.QuotesNoConstantPairs bindings ∧ Expr.QuotesNoConstantAll body
  | .quoted v => v.isConstant = false
  | .define _ value => value.QuotesNoConstant
  | .classDef _ methods => Expr.QuotesNoConstantPairs methods
termination_by structural e => e

/-- The same for several expressions. -/
def Expr.QuotesNoConstantAll : List Expr → Prop
  | [] => True
  | e :: es => e.QuotesNoConstant ∧ Expr.QuotesNoConstantAll es
termination_by structural es => es

/-- The same for the values of bindings. -/
def Expr.QuotesNoConstantPairs : List (String × Expr) → Prop
  | [] => True
  | (_, e) :: bs => e.QuotesNoConstant ∧ Expr.QuotesNoConstantPairs bs
termination_by structural bs => bs

end

/-- No form of the program has a quote directly around a number, a truth value or a string. -/
def Program.QuotesNoConstant (p : Program) : Prop :=
  Expr.QuotesNoConstantAll p.forms

/-! ### Respelling -/

mutual

/-- What the written form of a quoted value stands for: what is no finite number becomes a symbol. -/
def Value.respelled : Value → Value
  | .number x => if Number.isFinite x then .number x else .symbol (Number.text x)
  | .list vs => .list (Value.respelledAll vs)
  | v => v
termination_by structural v => v

/-- The same for several values. -/
def Value.respelledAll : List Value → List Value
  | [] => []
  | v :: vs => v.respelled :: Value.respelledAll vs
termination_by structural vs => vs

end

/-- What the written form of a number denotes. -/
def Expr.ofNumber (x : Float) : Expr :=
  if Number.isFinite x then .number x else .var (Number.text x)

mutual

/-- The expression that the written form of an expression denotes. -/
def Expr.respelled : Expr → Expr
  | .number x => Expr.ofNumber x
  | .boolean b => .boolean b
  | .string s => .string s
  | .primitive p => .primitive p
  | .var x => .var x
  | .cond test onTrue onFalse => .cond test.respelled onTrue.respelled onFalse.respelled
  | .lambda params body => .lambda params (Expr.respelledAll body)
  | .app operator operands => .app operator.respelled (Expr.respelledAll operands)
  | .letIn bindings body => .letIn (Expr.respelledPairs bindings) (Expr.respelledAll body)
  | .quoted v =>
    match v with
    | .number x => Expr.ofNumber x
    | .boolean b => .boolean b
    | .string s => .string s
    | v => .quoted v.respelled
  | .define x value => .define x value.respelled
  | .classDef fields methods => .classDef fields (Expr.respelledPairs methods)
termination_by structural e => e

/-- Several expressions, respelled. -/
def Expr.respelledAll : List Expr → List Expr
  | [] => []
  | e :: es => e.respelled :: Expr.respelledAll es
termination_by structural es => es

/-- Bindings with their values respelled. -/
def Expr.respelledPairs : List (String × Expr) → List (String × Expr)
  | [] => []
  | (x, e) :: bs => (x, e.respelled) :: Expr.respelledPairs bs
termination_by structural bs => bs

end

theorem Expr.map_fst_respelledPairs (bs : List (String × Expr)) :
    (Expr.respelledPairs bs).map Prod.fst = bs.map Prod.fst := by
  induction bs with
  | nil => rfl
  | cons b bs ih => rw [Expr.respelledPairs, List.map_cons, List.map_cons, ih]

/-! ### The respelling is written alike -/

theorem Expr.written_ofNumber (x : Float) : (Expr.ofNumber x).written = Number.written x := by
  rw [Expr.ofNumber]
  split
  · rfl
  · exact String.toList_ofList

mutual

theorem Value.written_respelled : ∀ v : Value, v.respelled.written = v.written
  | .number x => by
    rw [Value.respelled]
    split
    · rfl
    · exact String.toList_ofList
  | .list vs => congrArg form (Value.writtenAll_respelled vs)
  | .boolean _ | .string _ | .symbol _ | .primitive _ | .closure .. | .classDef .. | .object .. => rfl
termination_by structural v => v

theorem Value.writtenAll_respelled : ∀ vs, Value.writtenAll (Value.respelledAll vs) = Value.writtenAll vs
  | [] => rfl
  | v :: vs => congrArg₂ List.cons (Value.written_respelled v) (Value.writtenAll_respelled vs)
termination_by structural vs => vs

end

mutual

/-- **The respelling of an expression is written alike.** -/
theorem Expr.written_respelled : ∀ e : Expr, e.respelled.written = e.written
  | .number x => Expr.written_ofNumber x
  | .boolean _ | .string _ | .primitive _ | .var _ => rfl
  | .cond a b c => by
    simp only [Expr.respelled, Expr.written, Expr.written_respelled a, Expr.written_respelled b,
      Expr.written_respelled c]
  | .lambda params body => by simp only [Expr.respelled, Expr.written, Expr.writtenAll_respelled body]
  | .app f args => by
    simp only [Expr.respelled, Expr.written, Expr.written_respelled f, Expr.writtenAll_respelled args]
  | .letIn bs body => by
    simp only [Expr.respelled, Expr.written, Expr.writtenPairs_respelled bs, Expr.writtenAll_respelled body]
  | .quoted (.number x) => Expr.written_ofNumber x
  | .quoted (.list vs) => congrArg (Text.quoteMark :: ·) (Value.written_respelled (.list vs))
  | .quoted (.boolean _) | .quoted (.string _) | .quoted (.symbol _) | .quoted (.primitive _)
  | .quoted (.closure ..) | .quoted (.classDef ..) | .quoted (.object ..) => rfl
  | .define x e => by simp only [Expr.respelled, Expr.written, Expr.written_respelled e]
  | .classDef fields methods => by simp only [Expr.respelled, Expr.written, Expr.writtenPairs_respelled methods]
termination_by structural e => e

theorem Expr.writtenAll_respelled : ∀ es, Expr.writtenAll (Expr.respelledAll es) = Expr.writtenAll es
  | [] => rfl
  | e :: es => congrArg₂ List.cons (Expr.written_respelled e) (Expr.writtenAll_respelled es)
termination_by structural es => es

theorem Expr.writtenPairs_respelled : ∀ bs, Expr.writtenPairs (Expr.respelledPairs bs) = Expr.writtenPairs bs
  | [] => rfl
  | (x, e) :: bs => by
    simp only [Expr.respelledPairs, Expr.writtenPairs, Expr.written_respelled e, Expr.writtenPairs_respelled bs]
termination_by structural bs => bs

end

/-! ### What is respelled as itself -/

mutual

theorem Value.respelled_eq : ∀ v : Value, (∀ x ∈ v.numbers, Number.isFinite x = true) → v.respelled = v
  | .number x, h => by rw [Value.respelled, if_pos (h x (List.mem_singleton_self x))]
  | .list vs, h => congrArg Value.list (Value.respelledAll_eq vs h)
  | .boolean _, _ | .string _, _ | .symbol _, _ | .primitive _, _ | .closure .., _ | .classDef .., _
  | .object .., _ => rfl
termination_by structural v => v

theorem Value.respelledAll_eq : ∀ vs, (∀ x ∈ Value.numbersAll vs, Number.isFinite x = true) →
    Value.respelledAll vs = vs
  | [], _ => rfl
  | v :: vs, h => congrArg₂ List.cons (Value.respelled_eq v fun x hx => h x (List.mem_append_left _ hx))
      (Value.respelledAll_eq vs fun x hx => h x (List.mem_append_right _ hx))
termination_by structural vs => vs

end

mutual

/-- **An expression that quotes no constant, with finite numbers only, is respelled as itself.** -/
theorem Expr.respelled_eq : ∀ e : Expr, e.QuotesNoConstant → (∀ x ∈ e.numbers, Number.isFinite x = true) →
    e.respelled = e
  | .number x, _, h => by rw [Expr.respelled, Expr.ofNumber, if_pos (h x (List.mem_singleton_self x))]
  | .boolean _, _, _ | .string _, _, _ | .primitive _, _, _ | .var _, _, _ => rfl
  | .cond a b c, ⟨ha, hb, hc⟩, h => by
    rw [Expr.numbers, List.forall_mem_append, List.forall_mem_append] at h
    rw [Expr.respelled, Expr.respelled_eq a ha h.1, Expr.respelled_eq b hb h.2.1, Expr.respelled_eq c hc h.2.2]
  | .lambda params body, hbody, h => by rw [Expr.respelled, Expr.respelledAll_eq body hbody h]
  | .app f args, ⟨hf, hargs⟩, h => by
    rw [Expr.numbers, List.forall_mem_append] at h
    rw [Expr.respelled, Expr.respelled_eq f hf h.1, Expr.respelledAll_eq args hargs h.2]
  | .letIn bs body, ⟨hbs, hbody⟩, h => by
    rw [Expr.numbers, List.forall_mem_append] at h
    rw [Expr.respelled, Expr.respelledPairs_eq bs hbs h.1, Expr.respelledAll_eq body hbody h.2]
  | .quoted (.list vs), _, h => congrArg Expr.quoted (Value.respelled_eq (.list vs) h)
  | .quoted (.symbol _), _, _ | .quoted (.primitive _), _, _ | .quoted (.closure ..), _, _
  | .quoted (.classDef ..), _, _ | .quoted (.object ..), _, _ => rfl
  | .quoted (.number _), hquote, _ | .quoted (.boolean _), hquote, _ | .quoted (.string _), hquote, _ => by
    cases hquote
  | .define x e, he, h => by rw [Expr.respelled, Expr.respelled_eq e he h]
  | .classDef fields methods, hmethods, h => by rw [Expr.respelled, Expr.respelledPairs_eq methods hmethods h]
termination_by structural e => e

theorem Expr.respelledAll_eq : ∀ es, Expr.QuotesNoConstantAll es →
    (∀ x ∈ Expr.numbersAll es, Number.isFinite x = true) → Expr.respelledAll es = es
  | [], _, _ => rfl
  | e :: es, ⟨he, hes⟩, h => by
    rw [Expr.numbersAll, List.forall_mem_append] at h
    rw [Expr.respelledAll, Expr.respelled_eq e he h.1, Expr.respelledAll_eq es hes h.2]
termination_by structural es => es

theorem Expr.respelledPairs_eq : ∀ bs, Expr.QuotesNoConstantPairs bs →
    (∀ x ∈ Expr.numbersPairs bs, Number.isFinite x = true) → Expr.respelledPairs bs = bs
  | [], _, _ => rfl
  | (x, e) :: bs, ⟨he, hbs⟩, h => by
    rw [Expr.numbersPairs, List.forall_mem_append] at h
    rw [Expr.respelledPairs, Expr.respelled_eq e he h.1, Expr.respelledPairs_eq bs hbs h.2]
termination_by structural bs => bs

end

/-! ### Numbers of data -/

mutual

theorem Value.numbers_ofDatum : ∀ d : Datum, (Value.ofDatum d).numbers = d.numbers
  | .number _ | .boolean _ | .string _ | .symbol _ => rfl
  | .list ds => Value.numbersAll_ofData ds
termination_by structural d => d

theorem Value.numbersAll_ofData : ∀ ds, Value.numbersAll (Value.ofData ds) = Datum.numbersAll ds
  | [] => rfl
  | d :: ds => congrArg₂ List.append (Value.numbers_ofDatum d) (Value.numbersAll_ofData ds)
termination_by structural ds => ds

end

@[simp]
theorem numbers_nameList (xs : List String) : (nameList xs).numbers = [] := by
  rw [nameList, Datum.numbers]
  induction xs with
  | nil => rfl
  | cons x xs ih => rw [List.map_cons, Datum.numbersAll, ih, Datum.numbers, List.nil_append]

mutual

/-- An expression has the numbers of the datum that denotes it. -/
theorem Denotes.numbers_eq {d : Datum} {e : Expr} : Denotes d e → d.numbers = e.numbers
  | .number _ | .boolean _ | .string _ | .primitive _ | .var _ => rfl
  | .cond test onTrue onFalse => by
    simp [Datum.numbers, Datum.numbersAll, Expr.numbers, test.numbers_eq, onTrue.numbers_eq, onFalse.numbers_eq]
  | .lambda _ _ body => by simp [Datum.numbers, Datum.numbersAll, Expr.numbers, body.numbers_eq]
  | .app _ operator operands => by
    simp [Datum.numbers, Datum.numbersAll, Expr.numbers, operator.numbers_eq, operands.numbers_eq]
  | .letIn _ _ bindings body => by
    simp [Datum.numbers, Datum.numbersAll, Expr.numbers, bindings.numbers_eq, body.numbers_eq]
  | .quoted d => by rw [Datum.numbers_quote, Expr.numbers, Value.numbers_ofDatum]
  | .classDef _ _ methods => by simp [Datum.numbers, Datum.numbersAll, Expr.numbers, methods.numbers_eq]

theorem DenotesAll.numbers_eq {ds : List Datum} {es : List Expr} :
    DenotesAll ds es → Datum.numbersAll ds = Expr.numbersAll es
  | .nil => rfl
  | .cons head tail => congrArg₂ List.append head.numbers_eq tail.numbers_eq

theorem DenotesPairs.numbers_eq {ds : List Datum} {bs : List (String × Expr)} :
    DenotesPairs ds bs → Datum.numbersAll ds = Expr.numbersPairs bs
  | .nil => rfl
  | .cons _ value tail => by
    simp [Datum.numbers, Datum.numbersAll, Expr.numbersPairs, value.numbers_eq, tail.numbers_eq]

end

theorem DenotesForm.numbers_eq {d : Datum} {e : Expr} (h : DenotesForm d e) : d.numbers = e.numbers := by
  cases h with
  | expr expr => exact expr.numbers_eq
  | define _ value => simp [Datum.numbers, Datum.numbersAll, Expr.numbers, value.numbers_eq]

/-! ### Written forms denote the respelling -/

mutual

/-- A quoted value is written as the datum that it stands for. -/
theorem Value.written_ofDatum : ∀ d : Datum, (Value.ofDatum d).written = d.written
  | .number _ | .boolean _ | .string _ | .symbol _ => rfl
  | .list ds => congrArg form (Value.writtenAll_ofData ds)
termination_by structural d => d

theorem Value.writtenAll_ofData : ∀ ds, Value.writtenAll (Value.ofData ds) = Datum.writtenAll ds
  | [] => rfl
  | d :: ds => congrArg₂ List.cons (Value.written_ofDatum d) (Value.writtenAll_ofData ds)
termination_by structural ds => ds

end

mutual

theorem Value.respelled_ofDatum : ∀ d : Datum, (Value.ofDatum d).respelled = Value.ofDatum d.respelled
  | .number x => by
    rw [Value.ofDatum, Value.respelled, Datum.respelled]
    split <;> rfl
  | .boolean _ | .string _ | .symbol _ => rfl
  | .list ds => congrArg Value.list (Value.respelledAll_ofData ds)
termination_by structural d => d

theorem Value.respelledAll_ofData : ∀ ds, Value.respelledAll (Value.ofData ds) = Value.ofData (Datum.respelledAll ds)
  | [] => rfl
  | d :: ds => congrArg₂ List.cons (Value.respelled_ofDatum d) (Value.respelledAll_ofData ds)
termination_by structural ds => ds

end

theorem spelledAs_keyword (k : Keyword) : SpelledAs k.name.toList (.symbol k.name) := by
  refine spelledAs_symbol ?_
  cases k <;> decide

theorem spelledAs_primitive (p : Primitive) : SpelledAs p.name.toList (.symbol p.name) := by
  refine spelledAs_symbol ?_
  cases p <;> decide

theorem spelledAs_nameForm {xs : List String} (h : AreBinders xs) : SpelledAs (nameForm xs) (nameList xs) := by
  refine spelledAs_form ?_
  have hids := h.identifiers
  clear h
  induction xs with
  | nil => exact .nil
  | cons x xs ih =>
    rw [List.forall_mem_cons] at hids
    exact .cons (spelledAs_symbol hids.1.symbol) (ih hids.2)

theorem Expr.writtenAll_ne_nil {es : List Expr} (h : es ≠ []) : Expr.writtenAll es ≠ [] := by
  cases es with
  | nil => exact absurd rfl h
  | cons e es => exact List.cons_ne_nil _ _

theorem Expr.respelledAll_ne_nil {es : List Expr} (h : es ≠ []) : Expr.respelledAll es ≠ [] := by
  cases es with
  | nil => exact absurd rfl h
  | cons e es => exact List.cons_ne_nil _ _

/-- A keyword, a list and a body are written as a list: the body goes on behind the other two. -/
theorem spelledAs_bodyForm (k : Keyword) {w : List Char} {d : Datum} {ws : List (List Char)} {ds : List Datum}
    (hw : SpelledAs w d) (hws : List.Forall₂ SpelledAs ws ds) (hne : ws ≠ []) :
    SpelledAs (form [k.name.toList, w, spaced ws]) (.list (.symbol k.name :: d :: ds)) := by
  have hrow : form [k.name.toList, w, spaced ws] = form (k.name.toList :: w :: ws) := by
    rw [form, form]
    exact congrArg (fun row => '(' :: row ++ [')']) (spaced_append [k.name.toList, w] hne)
  rw [hrow]
  exact spelledAs_form (.cons (spelledAs_keyword k) (.cons hw hws))

/-- What denotes an expression is no keyword. -/
theorem Denotes.noKeyword {d : Datum} {e : Expr} (h : Denotes d e) : keywordOf? d = none := by
  cases h with
  | primitive p => cases p <;> rfl
  | var name => exact name.noKeyword
  | _ => rfl

/-- What is no finite number is written as a name. -/
theorem isIdentifier_text {x : Float} (h : Number.isFinite x = false) : IsIdentifier (Number.text x) := by
  have hwords : ∀ s ∈ ["inf", "-inf", "NaN"], Keyword.ofName? s = none ∧ Primitive.ofName? s = none := by decide
  obtain ⟨hkeyword, hprimitive⟩ := hwords _ (Number.text_of_not_finite h)
  exact ⟨Number.isSymbol_text h, hkeyword, hprimitive⟩

theorem denotes_ofNumber (x : Float) : Denotes (Datum.number x).respelled (Expr.ofNumber x) := by
  rw [Datum.respelled, Expr.ofNumber]
  split
  · exact .number x
  · next h => exact .var (isIdentifier_text (Bool.eq_false_iff.2 h))

/-- The written form `w` of what a datum of some depth denoted spells a datum that denotes the expression and is no
deeper. -/
def ReadsBack (w : List Char) (e : Expr) (depth : Nat) : Prop :=
  ∃ d, Denotes d e ∧ SpelledAs w d ∧ d.depth ≤ depth

theorem readsBack_quoted (d : Datum) (h : d.Readable) :
    ReadsBack (Expr.quoted (Value.ofDatum d)).written (Expr.quoted (Value.ofDatum d)).respelled (d.depth + 1) := by
  cases d with
  | number x =>
    refine ⟨_, denotes_ofNumber x, Datum.spelledAs_number h, ?_⟩
    rw [Datum.depth_respelled]
    exact Nat.zero_le _
  | boolean b => exact ⟨_, .boolean b, spelledAs_boolWord b, Nat.zero_le _⟩
  | string s => exact ⟨_, .string s, spelledAs_quoted s, Nat.zero_le _⟩
  | symbol s => exact ⟨_, .quoted (.symbol s), spelledAs_quote (spelledAs_symbol h), Nat.le_refl _⟩
  | list ds =>
    have hwritten := spelledAs_quote (Datum.spelledAs_written (.list ds) h)
    rw [← Value.written_ofDatum] at hwritten
    have hdenotes := Denotes.quoted (Datum.list ds).respelled
    rw [← Value.respelled_ofDatum] at hdenotes
    exact ⟨_, hdenotes, hwritten, by rw [Datum.depth_quote, Datum.depth_respelled]⟩

mutual

/-- **The written form of an expression spells a datum that denotes its respelling, no deeper than the datum that was
read.** -/
theorem Denotes.readsBack {d : Datum} {e : Expr} : Denotes d e → d.Readable → ReadsBack e.written e.respelled d.depth
  | .number x, h => ⟨_, denotes_ofNumber x, Datum.spelledAs_number h, by rw [Datum.depth_respelled]⟩
  | .boolean b, _ => ⟨_, .boolean b, spelledAs_boolWord b, Nat.le_refl _⟩
  | .string s, _ => ⟨_, .string s, spelledAs_quoted s, Nat.le_refl _⟩
  | .primitive p, _ => ⟨_, .primitive p, spelledAs_primitive p, Nat.le_refl _⟩
  | .var name, _ => ⟨_, .var name, spelledAs_symbol name.symbol, Nat.le_refl _⟩
  | .quoted d, ⟨_, hd, _⟩ => by
    rw [Datum.depth_quote]
    exact readsBack_quoted d hd
  | .cond test onTrue onFalse, ⟨_, ha, hb, hc, _⟩ => by
    obtain ⟨a', htest, hwa, hda⟩ := test.readsBack ha
    obtain ⟨b', hTrue, hwb, hdb⟩ := onTrue.readsBack hb
    obtain ⟨c', hFalse, hwc, hdc⟩ := onFalse.readsBack hc
    refine ⟨_, .cond htest hTrue hFalse,
      spelledAs_form (.cons (spelledAs_keyword .cond) (.cons hwa (.cons hwb (.cons hwc .nil)))), ?_⟩
    simp only [Datum.depth, Datum.depthAll]
    omega
  | .lambda binders nonempty body, ⟨_, _, hbody⟩ => by
    obtain ⟨ds', hbody', hws, hdepth⟩ := body.readsBack hbody
    refine ⟨_, .lambda binders (Expr.respelledAll_ne_nil nonempty) hbody',
      spelledAs_bodyForm .lambda (spelledAs_nameForm binders) hws (Expr.writtenAll_ne_nil nonempty), ?_⟩
    simp only [Datum.depth, Datum.depthAll]
    omega
  | .app noKeyword operator operands, ⟨hd, hds⟩ => by
    obtain ⟨d', hoperator, hw, hdepth⟩ := operator.readsBack hd
    obtain ⟨ds', hoperands, hws, hdepths⟩ := operands.readsBack hds
    refine ⟨_, .app hoperator.noKeyword hoperator hoperands, spelledAs_form (.cons hw hws), ?_⟩
    simp only [Datum.depth, Datum.depthAll]
    omega
  | .letIn binders nonempty bindings body, ⟨_, hpairs, hbody⟩ => by
    obtain ⟨pairs', hbindings, hwpairs, hdpairs⟩ := bindings.readsBack hpairs
    obtain ⟨ds', hbody', hws, hdepth⟩ := body.readsBack hbody
    rw [← Expr.map_fst_respelledPairs] at binders
    refine ⟨_, .letIn binders (Expr.respelledAll_ne_nil nonempty) hbindings hbody',
      spelledAs_bodyForm .letIn (spelledAs_form hwpairs) hws (Expr.writtenAll_ne_nil nonempty), ?_⟩
    simp only [Datum.depth, Datum.depthAll]
    omega
  | .classDef binders names methods, ⟨_, _, hpairs, _⟩ => by
    obtain ⟨pairs', hmethods, hwpairs, hdpairs⟩ := methods.readsBack hpairs
    rw [← Expr.map_fst_respelledPairs] at names
    refine ⟨_, .classDef binders names hmethods,
      spelledAs_form (.cons (spelledAs_keyword .classDef)
        (.cons (spelledAs_nameForm binders) (.cons (spelledAs_form hwpairs) .nil))), ?_⟩
    simp only [Datum.depth, Datum.depthAll]
    omega

theorem DenotesAll.readsBack {ds : List Datum} {es : List Expr} : DenotesAll ds es → Datum.ReadableAll ds →
    ∃ ds', DenotesAll ds' (Expr.respelledAll es) ∧ List.Forall₂ SpelledAs (Expr.writtenAll es) ds' ∧
      Datum.depthAll ds' ≤ Datum.depthAll ds
  | .nil, _ => ⟨[], .nil, .nil, Nat.le_refl _⟩
  | .cons head tail, ⟨hd, hds⟩ => by
    obtain ⟨d', hhead, hw, hdepth⟩ := head.readsBack hd
    obtain ⟨ds', htail, hws, hdepths⟩ := tail.readsBack hds
    refine ⟨d' :: ds', .cons hhead htail, .cons hw hws, ?_⟩
    simp only [Datum.depthAll]
    omega

theorem DenotesPairs.readsBack {ds : List Datum} {bs : List (String × Expr)} : DenotesPairs ds bs →
    Datum.ReadableAll ds → ∃ ds', DenotesPairs ds' (Expr.respelledPairs bs) ∧
      List.Forall₂ SpelledAs (Expr.writtenPairs bs) ds' ∧ Datum.depthAll ds' ≤ Datum.depthAll ds
  | .nil, _ => ⟨[], .nil, .nil, Nat.le_refl _⟩
  | .cons name value tail, ⟨⟨_, hd, _⟩, hds⟩ => by
    obtain ⟨d', hvalue, hw, hdepth⟩ := value.readsBack hd
    obtain ⟨ds', htail, hws, hdepths⟩ := tail.readsBack hds
    refine ⟨_, .cons name hvalue htail,
      .cons (spelledAs_form (.cons (spelledAs_symbol name.symbol) (.cons hw .nil))) hws, ?_⟩
    simp only [Datum.depthAll, Datum.depth]
    omega

end

theorem DenotesForm.readsBack {d : Datum} {e : Expr} (h : DenotesForm d e) (hd : d.Readable) :
    ∃ d', DenotesForm d' e.respelled ∧ SpelledAs e.written d' ∧ d'.depth ≤ d.depth := by
  cases h with
  | expr expr =>
    obtain ⟨d', hdenotes, hw, hdepth⟩ := expr.readsBack hd
    exact ⟨d', .expr hdenotes, hw, hdepth⟩
  | define name value =>
    obtain ⟨d', hvalue, hw, hdepth⟩ := value.readsBack hd.2.2.1
    refine ⟨_, .define name hvalue,
      spelledAs_form (.cons (spelledAs_keyword .define) (.cons (spelledAs_symbol name.symbol) (.cons hw .nil))), ?_⟩
    simp only [Datum.depth, Datum.depthAll]
    omega

/-! ### Programs -/

theorem forms_numbers_eq {ds : List Datum} {es : List Expr} (h : List.Forall₂ DenotesForm ds es) :
    Datum.numbersAll ds = Expr.numbersAll es := by
  induction h with
  | nil => rfl
  | cons head _ ih => exact congrArg₂ List.append head.numbers_eq ih

theorem forms_readsBack {ds : List Datum} {es : List Expr} (h : List.Forall₂ DenotesForm ds es)
    (hds : Datum.ReadableAll ds) : ∃ ds', List.Forall₂ DenotesForm ds' (Expr.respelledAll es) ∧
      List.Forall₂ SpelledAs (Expr.writtenAll es) ds' ∧ Datum.depthAll ds' ≤ Datum.depthAll ds := by
  induction h with
  | nil => exact ⟨[], .nil, .nil, Nat.le_refl _⟩
  | cons head _ ih =>
    obtain ⟨d', hhead, hw, hdepth⟩ := head.readsBack hds.1
    obtain ⟨ds', htail, hws, hdepths⟩ := ih hds.2
    refine ⟨d' :: ds', .cons hhead htail, .cons hw hws, ?_⟩
    simp only [Datum.depthAll]
    omega

/-- The data that are unwrapped have the numbers of the text. -/
theorem numbersAll_unwrapped (ds : List Datum) : Datum.numbersAll (Program.unwrapped ds) = Datum.numbersAll ds := by
  rcases Program.unwrapped_cases ds with ⟨forms, rfl⟩ | hsame
  · rw [Program.unwrapped_program]
    simp [Datum.numbersAll, Datum.numbers]
  · rw [hsame]

theorem readableAll_unwrapped {ds : List Datum} (h : Datum.ReadableAll ds) :
    Datum.ReadableAll (Program.unwrapped ds) := by
  rcases Program.unwrapped_cases ds with ⟨forms, rfl⟩ | hsame
  · rw [Program.unwrapped_program]
    exact h.1.2
  · rwa [hsame]

theorem Program.ofText_of_spells {text : String} {ds : List Datum} {forms : List Expr}
    (h : Datum.allOfText text = .ok [.list (.symbol Keyword.program.name :: ds)])
    (hforms : List.Forall₂ DenotesForm ds forms) : Program.ofText text = .ok ⟨forms⟩ := by
  have hmap := mapM_eq_ok_iff.2 (hforms.imp fun d e h => Program.formOfDatum_eq_ok_iff.2 h)
  refine bind_eq_ok.2 ⟨_, h, ?_⟩
  rw [Program.ofData, Program.unwrapped_program, hmap]
  rfl

theorem Number.isFinite_of_ne {x : Float} (h : IsNumber x) (hne : magnitude x ≠ .infinite) : isFinite x = true := by
  have hundefined := h.magnitude_ne
  rw [isFinite]
  split <;> simp_all

theorem Program.text_respelled (p : Program) : Program.text ⟨Expr.respelledAll p.forms⟩ = p.text := by
  rw [Program.text, Program.written, Expr.writtenAll_respelled]
  rfl

/-- A program without quoted constants that was read with finite numbers is respelled as itself. -/
theorem Program.respelled_eq {text : String} {p : Program} (hp : Program.ofText text = .ok p)
    (hquotes : p.QuotesNoConstant) (hfinite : ∀ x ∈ p.numbers, Number.magnitude x ≠ .infinite) :
    Expr.respelledAll p.forms = p.forms := by
  obtain ⟨ds, hds, hforms⟩ := Program.forms_of_ofText hp
  obtain ⟨rest, hspells, -⟩ := Datum.spells_allOfText hds
  have hnumbers : Datum.numbersAll ds = p.numbers := by
    rw [← numbersAll_unwrapped]
    exact forms_numbers_eq hforms
  refine Expr.respelledAll_eq p.forms hquotes fun x hx => Number.isFinite_of_ne ?_ (hfinite x hx)
  exact hspells.isNumber (by rw [hnumbers]; exact hx)

/-- The text of a program spells one datum: a list headed by the keyword of programs, whose further members denote the
respelled forms and are no deeper than the data that were read. -/
theorem Program.text_spells {text : String} {p : Program} {ds : List Datum} (hds : Datum.allOfText text = .ok ds)
    (hforms : List.Forall₂ DenotesForm (Program.unwrapped ds) p.forms)
    (hnumbers : ∀ x ∈ p.numbers, Number.isFinite x = true → Number.ofWord? (Number.written x) = some x) :
    ∃ ds', SpellsText p.text.toList [.list (.symbol Keyword.program.name :: ds')] ∧
      List.Forall₂ DenotesForm ds' (Expr.respelledAll p.forms) ∧
      Datum.depthAll ds' ≤ Datum.depthAll (Program.unwrapped ds) := by
  obtain ⟨rest, hspells, -⟩ := Datum.spells_allOfText hds
  have hread : Datum.ReadableAll ds := by
    refine hspells.readable ?_
    rw [← numbersAll_unwrapped, forms_numbers_eq hforms]
    exact hnumbers
  obtain ⟨ds', hdenotes, hws, hdepth⟩ := forms_readsBack hforms (readableAll_unwrapped hread)
  have hwritten := spelledAs_form (.cons (spelledAs_keyword .program) hws) [] nofun
  rw [List.append_nil] at hwritten
  refine ⟨ds', ⟨[], .cons .nothing ?_ .nil, .nothing⟩, hdenotes, hdepth⟩
  rwa [Program.text, String.toList_ofList]

theorem Program.depthAll_unwrapped (ds : List Datum) :
    Datum.depthAll (Program.unwrapped ds) ≤ Datum.depthAll ds := by
  rcases Program.unwrapped_cases ds with ⟨forms, rfl⟩ | hsame
  · rw [Program.unwrapped_program]
    simp only [Datum.depthAll, Datum.depth]
    omega
  · rw [hsame]

/-- Where a text has the keyword of programs itself, or leaves a level of nesting unused, its forms leave room for the
keyword. -/
theorem Program.depthAll_unwrapped_lt {text : String} {ds : List Datum} (hds : Datum.allOfText text = .ok ds)
    (h : (∃ forms, ds = [.list (.symbol Keyword.program.name :: forms)]) ∨ ∀ d ∈ ds, d.depth < 63) :
    Datum.depthAll (Program.unwrapped ds) < 64 := by
  rcases h with ⟨forms, rfl⟩ | hdepth
  · rw [Program.unwrapped_program]
    have hlist := Datum.depth_lt_of_allOfText hds _ (List.mem_singleton_self _)
    simp only [Datum.maxNesting, Datum.depth, Datum.depthAll] at hlist
    omega
  · exact Nat.lt_of_le_of_lt (Program.depthAll_unwrapped ds) (Datum.depth_list_lt_iff.2 hdepth)

/-- **The text of a program is read back.**  It spells one datum.  If that stands in fewer than 64 lists and quotes, the
text is read as a program with the same text, which is the same program unless a quote stands around a constant or a
number is infinite; otherwise the text is refused because it is nested too deeply.  There is always room if the text
that was read had the keyword of programs itself, or left a level of nesting unused.  Finite numbers are taken to be
written so that they are read back. -/
theorem Program.reads_back {text : String} {p : Program} (hp : Program.ofText text = .ok p)
    (hnumbers : ∀ x ∈ p.numbers, Number.isFinite x = true → Number.ofWord? (Number.written x) = some x) :
    ∃ d, (∀ ds, SpellsText p.text.toList ds ↔ ds = [d]) ∧
      (d.depth < 64 → ∃ q, Program.ofText p.text = .ok q ∧ q.text = p.text ∧
        (p.QuotesNoConstant → (∀ x ∈ p.numbers, Number.magnitude x ≠ .infinite) → q = p)) ∧
      (64 ≤ d.depth → Program.ofText p.text = .error (.ofReading (.tooDeep 64))) ∧
      (∀ ds, Datum.allOfText text = .ok ds →
        (∃ forms, ds = [.list (.symbol Keyword.program.name :: forms)]) ∨ (∀ d ∈ ds, d.depth < 63) →
        d.depth < 64) := by
  obtain ⟨ds, hds, hforms⟩ := Program.forms_of_ofText hp
  obtain ⟨ds', hspells, hdenotes, hdepth⟩ := Program.text_spells hds hforms hnumbers
  refine ⟨_, fun ds'' => ⟨fun h => h.unique hspells, fun h => h ▸ hspells⟩, fun hroom => ?_, fun hdeep => ?_, ?_⟩
  · have hread := Datum.allOfText_of_spells_one hspells
    rw [if_pos hroom] at hread
    refine ⟨_, Program.ofText_of_spells hread hdenotes, p.text_respelled, fun hquotes hfinite => ?_⟩
    rw [Program.respelled_eq hp hquotes hfinite]
  · have hread := Datum.allOfText_of_spells_one hspells
    rw [if_neg (Nat.not_lt.2 hdeep)] at hread
    rw [Program.ofText, hread]
    rfl
  · intro ds'' hds'' hroom
    rw [hds''] at hds
    cases hds
    have hforms := Program.depthAll_unwrapped_lt hds'' hroom
    simp only [Datum.depth, Datum.depthAll]
    omega

theorem Program.reads_back_quoted :
    let p : Program := ⟨[.app (.lambda ["x"] [.var "x", .number (Number.ofDigits ['0'] ['1'])])
      [.quoted (.list [.symbol "a", .number (-Number.ofDigits ['0'] [])])]]⟩
    Program.ofText "((lambda (x) x 0.1) '(a -0))" = .ok p ∧
      (∀ x ∈ p.numbers, Number.isFinite x = true → Number.ofWord? (Number.written x) = some x) ∧
      Program.ofText p.text = .ok p := by
  intro p
  have hds : Datum.allOfText "((lambda (x) x 0.1) '(a -0))" = .ok [.list [
      .list [.symbol "lambda", .list [.symbol "x"], .symbol "x", .number (Number.ofDigits ['0'] ['1'])],
      .list [.symbol "quote", .list [.symbol "a", .number (-Number.ofDigits ['0'] [])]]]] := by rfl
  have hp : Program.ofText "((lambda (x) x 0.1) '(a -0))" = .ok p := by
    rw [Program.ofText, hds]
    rfl
  have hnumbers : ∀ x ∈ p.numbers, Number.isFinite x = true → Number.ofWord? (Number.written x) = some x := by
    decide +kernel
  have hfinite : ∀ x ∈ p.numbers, Number.magnitude x ≠ .infinite := by
    decide +kernel
  have hquotes : p.QuotesNoConstant := by
    simp [p, Program.QuotesNoConstant, Expr.QuotesNoConstantAll, Expr.QuotesNoConstant, Value.isConstant]
  obtain ⟨d, -, hread, -, hroom⟩ := Program.reads_back hp hnumbers
  have hdepth : d.depth < 64 := hroom _ hds (.inr (by simp [Datum.depth, Datum.depthAll]))
  obtain ⟨q, hq, -, heq⟩ := hread hdepth
  rw [heq hquotes hfinite] at hq
  exact ⟨hp, hnumbers, hq⟩

end SubstModel

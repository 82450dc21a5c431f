import SubstModel.Proofs.Freshness
import SubstModel.Proofs.MessageName
import Mathlib.Data.List.Perm.Basic

/-!
# Expanding local bindings — every `let` as an application

A `let` is evaluated as the application of a procedure.  Here it is replaced by that application beforehand, at every
depth, and in the procedures that are quoted as well.  What a `let` and its application bind and mention is the same,
in another order.

* `Expr.withoutLets`, `Value.withoutLets`, `Program.withoutLets` — all local bindings replaced;
* `Value.withoutLets_of_no_ref` — a value without procedures has none;
* `Expr.names_withoutLets`, `Expr.boundNames_withoutLets` — **the same names stand in it, and the same are bound**;
* `Expr.withoutLets_withoutClasses` — replacing classes and replacing local bindings can be exchanged;
* `Expr.Within.withoutLets` — what is within a language stays so, and has no local bindings any more;
* `Expr.withoutLets_substitute` — **what is put in is put into what is left**.
-/

namespace SubstModel

/-! ### Replacing local bindings -/

mutual

/-- The expression with every `let` replaced by an application. -/
def Expr.withoutLets : Expr → Expr
  | .number x => .number x
  | .boolean b => .boolean b
  | .string s => .string s
  | .primitive p => .primitive p
  | .var x => .var x
  | .cond test onTrue onFalse =>
    .cond (Expr.withoutLets test) (Expr.withoutLets onTrue) (Expr.withoutLets onFalse)
  | .lambda params body => .lambda params (Expr.withoutLetsAll body)
  | .app operator operands => .app (Expr.withoutLets operator) (Expr.withoutLetsAll operands)
  | .letIn bindings body => letApplication (Expr.withoutLetsPairs bindings) (Expr.withoutLetsAll body)
  | .quoted v => .quoted (Value.withoutLets v)
  | .define x value => .define x (Expr.withoutLets value)
  | .classDef fields methods => .classDef fields (Expr.withoutLetsPairs methods)
termination_by structural e => e

/-- Several expressions with their local bindings replaced. -/
def Expr.withoutLetsAll : List Expr → List Expr
  | [] => []
  | e :: es => Expr.withoutLets e :: Expr.withoutLetsAll es
termination_by structural es => es

/-- Bindings with the local bindings in their values replaced. -/
def Expr.withoutLetsPairs : List (String × Expr) → List (String × Expr)
  | [] => []
  | (x, e) :: bs => (x, Expr.withoutLets e) :: Expr.withoutLetsPairs bs
termination_by structural bs => bs

/-- The value with the local bindings in its procedures replaced. -/
def Value.withoutLets : Value → Value
  | .number x => .number x
  | .boolean b => .boolean b
  | .string s => .string s
  | .symbol s => .symbol s
  | .list items => .list (Value.withoutLetsAll items)
  | .primitive p => .primitive p
  | .closure r params body => .closure r params (Expr.withoutLetsAll body)
  | .classDef r fields methods => .classDef r fields (Expr.withoutLetsPairs methods)
  | .object r fields methods => .object r fields (Expr.withoutLetsPairs methods)
termination_by structural v => v

/-- Several values with the local bindings in their procedures replaced. -/
def Value.withoutLetsAll : List Value → List Value
  | [] => []
  | v :: vs => Value.withoutLets v :: Value.withoutLetsAll vs
termination_by structural vs => vs

end

/-- The program with every `let`, at every depth, replaced by an application. -/
def Program.withoutLets (p : Program) : Program :=
  ⟨Expr.withoutLetsAll p.forms⟩

theorem Expr.withoutLetsAll_eq_map (es : List Expr) : Expr.withoutLetsAll es = es.map Expr.withoutLets := by
  induction es with
  | nil => rfl
  | cons e es ih => rw [Expr.withoutLetsAll, ih, List.map_cons]

theorem Expr.withoutLetsPairs_eq_map (bs : List (String × Expr)) :
    Expr.withoutLetsPairs bs = bs.map fun b => (b.1, b.2.withoutLets) := by
  induction bs with
  | nil => rfl
  | cons b bs ih => rw [Expr.withoutLetsPairs, ih, List.map_cons]

theorem Value.withoutLetsAll_eq_map (vs : List Value) : Value.withoutLetsAll vs = vs.map Value.withoutLets := by
  induction vs with
  | nil => rfl
  | cons v vs ih => rw [Value.withoutLetsAll, ih, List.map_cons]

theorem Expr.map_fst_withoutLetsPairs (bs : List (String × Expr)) :
    (Expr.withoutLetsPairs bs).map Prod.fst = bs.map Prod.fst := by
  rw [Expr.withoutLetsPairs_eq_map, List.map_map]
  rfl

theorem Expr.map_snd_withoutLetsPairs (bs : List (String × Expr)) :
    (Expr.withoutLetsPairs bs).map Prod.snd = Expr.withoutLetsAll (bs.map Prod.snd) := by
  rw [Expr.withoutLetsPairs_eq_map, Expr.withoutLetsAll_eq_map, List.map_map, List.map_map]
  rfl

theorem Expr.withoutLetsPairs_zip (xs : List String) (es : List Expr) :
    Expr.withoutLetsPairs (xs.zip es) = xs.zip (Expr.withoutLetsAll es) := by
  rw [Expr.withoutLetsPairs_eq_map, Expr.withoutLetsAll_eq_map]
  conv_rhs => rw [← List.map_id xs]
  rw [List.zip_map]
  rfl

/-- An expression that evaluates to a value loses the local bindings that the value loses. -/
theorem Value.withoutLets_toExpr (v : Value) : v.toExpr.withoutLets = v.withoutLets.toExpr := by
  cases v <;> rfl

mutual

/-- A value without procedures has no local bindings. -/
theorem Value.withoutLets_of_no_ref {L : Language} (hL : ∀ r, ¬ L.ref r) : ∀ v : Value, v.Within L → v.withoutLets = v
  | .number _, _ | .boolean _, _ | .string _, _ | .symbol _, _ | .primitive _, _ => rfl
  | .list vs, hvs => congrArg Value.list (Value.withoutLetsAll_of_no_ref hL vs hvs)
  | .closure r _ _, ⟨hr, _⟩ => absurd hr (hL r)
  | .classDef r _ _, ⟨_, hr, _⟩ | .object r _ _, ⟨_, hr, _⟩ => absurd hr (hL r)
termination_by structural v => v

theorem Value.withoutLetsAll_of_no_ref {L : Language} (hL : ∀ r, ¬ L.ref r) :
    ∀ vs, Value.WithinAll L vs → Value.withoutLetsAll vs = vs
  | [], _ => rfl
  | v :: vs, ⟨hv, hvs⟩ => by
    rw [Value.withoutLetsAll, Value.withoutLets_of_no_ref hL v hv, Value.withoutLetsAll_of_no_ref hL vs hvs]
termination_by structural vs => vs

end

/-! ### Names -/

mutual

/-- **The same names stand in an expression without local bindings**, in another order. -/
theorem Expr.names_withoutLets : ∀ e : Expr, e.withoutLets.names.Perm e.names
  | .number _ | .boolean _ | .string _ | .primitive _ | .var _ | .quoted _ => .refl _
  | .cond a b c => ((Expr.names_withoutLets a).append (Expr.names_withoutLets b)).append (Expr.names_withoutLets c)
  | .lambda params body => (Expr.namesAll_withoutLets body).append_left params
  | .app f es => (Expr.names_withoutLets f).append (Expr.namesAll_withoutLets es)
  | .letIn bs body => by
    -- In the application the names of the values come behind those of the body.
    have hparts := (Expr.namesAll_withoutLets body).append (Expr.namesPairs_withoutLets bs)
    rw [Expr.withoutLets, letApplication, Expr.names, Expr.names, Expr.namesAll_map_snd,
      Expr.map_fst_withoutLetsPairs, Expr.names, List.append_assoc, List.append_assoc]
    exact (hparts.trans List.perm_append_comm).append_left _
  | .define x e => (Expr.names_withoutLets e).cons x
  | .classDef fields methods => (Expr.namesPairs_withoutLets methods).append_left fields
termination_by structural e => e

theorem Expr.namesAll_withoutLets : ∀ es : List Expr, (Expr.namesAll (Expr.withoutLetsAll es)).Perm (Expr.namesAll es)
  | [] => .refl _
  | e :: es => (Expr.names_withoutLets e).append (Expr.namesAll_withoutLets es)
termination_by structural es => es

theorem Expr.namesPairs_withoutLets :
    ∀ bs : List (String × Expr), (Expr.namesPairs (Expr.withoutLetsPairs bs)).Perm (Expr.namesPairs bs)
  | [] => .refl _
  | (_, e) :: bs => (Expr.names_withoutLets e).append (Expr.namesPairs_withoutLets bs)
termination_by structural bs => bs

end

mutual

/-- **The same names are bound in an expression without local bindings**, in another order. -/
theorem Expr.boundNames_withoutLets : ∀ e : Expr, e.withoutLets.boundNames.Perm e.boundNames
  | .number _ | .boolean _ | .string _ | .primitive _ | .var _ | .quoted _ => .refl _
  | .cond a b c =>
    ((Expr.boundNames_withoutLets a).append (Expr.boundNames_withoutLets b)).append (Expr.boundNames_withoutLets c)
  | .lambda params body => (Expr.boundNamesAll_withoutLets body).append_left params
  | .app f es => (Expr.boundNames_withoutLets f).append (Expr.boundNamesAll_withoutLets es)
  | .letIn bs body => by
    -- What the values bind comes first in the `let`, and last in the application.
    have hparts := ((Expr.boundNamesAll_withoutLets body).append_left (bs.map Prod.fst)).append
      (Expr.boundNamesPairs_withoutLets bs)
    rw [Expr.withoutLets, letApplication, Expr.boundNames, Expr.boundNames, Expr.boundNamesAll_map_snd,
      Expr.map_fst_withoutLetsPairs, Expr.boundNames, List.append_assoc (Expr.boundNamesPairs bs)]
    exact hparts.trans List.perm_append_comm
  | .define _ e => Expr.boundNames_withoutLets e
  | .classDef fields methods => (Expr.boundNamesPairs_withoutLets methods).append_left fields
termination_by structural e => e

theorem Expr.boundNamesAll_withoutLets :
    ∀ es : List Expr, (Expr.boundNamesAll (Expr.withoutLetsAll es)).Perm (Expr.boundNamesAll es)
  | [] => .refl _
  | e :: es => (Expr.boundNames_withoutLets e).append (Expr.boundNamesAll_withoutLets es)
termination_by structural es => es

theorem Expr.boundNamesPairs_withoutLets :
    ∀ bs : List (String × Expr), (Expr.boundNamesPairs (Expr.withoutLetsPairs bs)).Perm (Expr.boundNamesPairs bs)
  | [] => .refl _
  | (_, e) :: bs => (Expr.boundNames_withoutLets e).append (Expr.boundNamesPairs_withoutLets bs)
termination_by structural bs => bs

end

theorem Expr.binderCount_withoutLets (e : Expr) : e.withoutLets.binderCount = e.binderCount := by
  rw [← Expr.length_boundNames, ← Expr.length_boundNames, (Expr.boundNames_withoutLets e).length_eq]

theorem Expr.binderCountAll_withoutLets (es : List Expr) :
    Expr.binderCountAll (Expr.withoutLetsAll es) = Expr.binderCountAll es := by
  rw [← Expr.length_boundNamesAll, ← Expr.length_boundNamesAll, (Expr.boundNamesAll_withoutLets es).length_eq]

/-! ### Classes -/

/-- A message has the same name whether local bindings are replaced or not. -/
theorem messageName_withoutLets (fields : List String) (methods : List (String × Expr)) :
    messageName fields (Expr.withoutLetsPairs methods) = messageName fields methods := by
  have hnames := Expr.namesPairs_withoutLets methods
  have hcount : Expr.nameCountPairs (Expr.withoutLetsPairs methods) = Expr.nameCountPairs methods := by
    rw [← Expr.length_namesPairs, ← Expr.length_namesPairs, hnames.length_eq]
  have hunused : ∀ x, isUnused fields (Expr.withoutLetsPairs methods) x = isUnused fields methods x := by
    intro x
    rw [Bool.eq_iff_iff, isUnused_iff, isUnused_iff, hnames.mem_iff]
  rw [messageName, messageName, messageName?, messageName?, candidateCount, candidateCount, hcount]
  simp only [hunused]

theorem withoutLets_dispatchChain (comparison : Primitive) (message : String) (methods : List (String × Expr)) :
    (dispatchChain comparison message methods).withoutLets
      = dispatchChain comparison message (Expr.withoutLetsPairs methods) := by
  induction methods with
  | nil => rfl
  | cons b methods ih =>
    rw [dispatchChain, Expr.withoutLets, ih]
    rfl

theorem withoutLets_dispatcher (fields : List String) (methods : List (String × Expr)) :
    (dispatcher fields methods).withoutLets = dispatcher fields (Expr.withoutLetsPairs methods) := by
  show Expr.lambda fields [.lambda [messageName fields methods] [(dispatchChain _ _ methods).withoutLets]] = _
  rw [withoutLets_dispatchChain, dispatcher, messageName_withoutLets]

theorem Expr.withoutClasses_letApplication (bs : List (String × Expr)) (body : List Expr) :
    (letApplication bs body).withoutClasses
      = letApplication (Expr.withoutClassesPairs bs) (Expr.withoutClassesAll body) := by
  have hvalues : Expr.withoutClassesAll (bs.map Prod.snd) = (Expr.withoutClassesPairs bs).map Prod.snd := by
    induction bs with
    | nil => rfl
    | cons b bs ih => rw [List.map_cons, Expr.withoutClassesAll, ih, Expr.withoutClassesPairs, List.map_cons]
  rw [letApplication, Expr.withoutClasses, Expr.withoutClasses, hvalues, letApplication,
    Expr.map_fst_withoutClassesPairs]

mutual

/-- **Replacing classes and replacing local bindings can be exchanged.** -/
theorem Expr.withoutLets_withoutClasses : ∀ e : Expr, e.withoutLets.withoutClasses = e.withoutClasses.withoutLets
  | .number _ | .boolean _ | .string _ | .primitive _ | .var _ | .quoted _ => rfl
  | .cond a b c => by
    rw [Expr.withoutLets, Expr.withoutClasses, Expr.withoutLets_withoutClasses a, Expr.withoutLets_withoutClasses b,
      Expr.withoutLets_withoutClasses c, Expr.withoutClasses, Expr.withoutLets]
  | .lambda params body => by
    rw [Expr.withoutLets, Expr.withoutClasses, Expr.withoutLetsAll_withoutClasses body, Expr.withoutClasses,
      Expr.withoutLets]
  | .app f es => by
    rw [Expr.withoutLets, Expr.withoutClasses, Expr.withoutLets_withoutClasses f,
      Expr.withoutLetsAll_withoutClasses es, Expr.withoutClasses, Expr.withoutLets]
  | .letIn bs body => by
    rw [Expr.withoutLets, Expr.withoutClasses_letApplication, Expr.withoutLetsPairs_withoutClasses bs,
      Expr.withoutLetsAll_withoutClasses body, Expr.withoutClasses, Expr.withoutLets]
  | .define x e => by
    rw [Expr.withoutLets, Expr.withoutClasses, Expr.withoutLets_withoutClasses e, Expr.withoutClasses,
      Expr.withoutLets]
  | .classDef fields methods => by
    rw [Expr.withoutLets, Expr.withoutClasses, Expr.withoutLetsPairs_withoutClasses methods, Expr.withoutClasses,
      withoutLets_dispatcher]
termination_by structural e => e

theorem Expr.withoutLetsAll_withoutClasses : ∀ es : List Expr,
    Expr.withoutClassesAll (Expr.withoutLetsAll es) = Expr.withoutLetsAll (Expr.withoutClassesAll es)
  | [] => rfl
  | e :: es => by
    rw [Expr.withoutLetsAll, Expr.withoutClassesAll, Expr.withoutLets_withoutClasses e,
      Expr.withoutLetsAll_withoutClasses es, Expr.withoutClassesAll, Expr.withoutLetsAll]
termination_by structural es => es

theorem Expr.withoutLetsPairs_withoutClasses : ∀ bs : List (String × Expr),
    Expr.withoutClassesPairs (Expr.withoutLetsPairs bs) = Expr.withoutLetsPairs (Expr.withoutClassesPairs bs)
  | [] => rfl
  | (x, e) :: bs => by
    rw [Expr.withoutLetsPairs, Expr.withoutClassesPairs, Expr.withoutLets_withoutClasses e,
      Expr.withoutLetsPairs_withoutClasses bs, Expr.withoutClassesPairs, Expr.withoutLetsPairs]
termination_by structural bs => bs

end

/-- A program is prepared as it is, and its local bindings can be replaced before or after. -/
theorem Program.withoutLets_prepared (config : Config) (p : Program) :
    p.withoutLets.prepared config = (p.prepared config).withoutLets := by
  rw [Program.prepared, Program.prepared]
  cases config.classes with
  | objects => rfl
  | dispatchers => exact congrArg Program.mk (Expr.withoutLetsAll_withoutClasses p.forms)

/-! ### Languages -/

/-- The language without local bindings. -/
def Language.letless (L : Language) : Language :=
  { L with lets := False }

theorem Expr.withoutLetsAll_eq_nil {es : List Expr} (h : Expr.withoutLetsAll es = []) : es = [] := by
  cases es with
  | nil => rfl
  | cons e es => cases h

theorem Expr.labels_withoutLets {L : Language} {methods : List (String × Expr)} (h : ∀ m ∈ methods, L.label m.1) :
    ∀ m ∈ Expr.withoutLetsPairs methods, L.label m.1 := by
  rw [Expr.withoutLetsPairs_eq_map, List.forall_mem_map]
  exact h

mutual

/-- **What is within a language stays so without its local bindings.** -/
theorem Expr.Within.withoutLets {L : Language} :
    ∀ (e : Expr) {scope : List String}, e.Within L scope → e.withoutLets.Within L.letless scope
  | .number _, _, _ | .boolean _, _, _ | .string _, _, _ => trivial
  | .primitive _, _, h | .var _, _, h => h
  | .cond a b c, _, ⟨ha, hb, hc⟩ =>
    ⟨Expr.Within.withoutLets a ha, Expr.Within.withoutLets b hb, Expr.Within.withoutLets c hc⟩
  | .lambda _ body, _, ⟨hp, hn, hb⟩ =>
    ⟨hp, fun hnil => hn (Expr.withoutLetsAll_eq_nil hnil), Expr.Within.withoutLetsAll body hb⟩
  | .app f es, _, ⟨hf, hes⟩ => ⟨Expr.Within.withoutLets f hf, Expr.Within.withoutLetsAll es hes⟩
  | .letIn bs body, _, ⟨_, hp, hn, hbs, hb⟩ => by
    refine ⟨?_, Expr.withinAll_map_snd.2 (Expr.Within.withoutLetsPairs bs hbs)⟩
    rw [Expr.map_fst_withoutLetsPairs]
    exact ⟨hp, fun hnil => hn (Expr.withoutLetsAll_eq_nil hnil), Expr.Within.withoutLetsAll body hb⟩
  | .quoted v, _, hv => Value.Within.withoutLets v hv
  | .define _ e, _, ⟨hd, hx, he⟩ => ⟨hd, hx, Expr.Within.withoutLets e he⟩
  | .classDef _ methods, _, ⟨hc, hf, hl, hm⟩ =>
    ⟨hc, hf, Expr.labels_withoutLets hl, Expr.Within.withoutLetsPairs methods hm⟩
termination_by structural e => e

theorem Expr.Within.withoutLetsAll {L : Language} : ∀ (es : List Expr) {scope : List String},
    Expr.WithinAll L scope es → Expr.WithinAll L.letless scope (Expr.withoutLetsAll es)
  | [], _, _ => trivial
  | e :: es, _, ⟨he, hes⟩ => ⟨Expr.Within.withoutLets e he, Expr.Within.withoutLetsAll es hes⟩
termination_by structural es => es

theorem Expr.Within.withoutLetsPairs {L : Language} : ∀ (bs : List (String × Expr)) {scope : List String},
    Expr.WithinPairs L scope bs → Expr.WithinPairs L.letless scope (Expr.withoutLetsPairs bs)
  | [], _, _ => trivial
  | (_, e) :: bs, _, ⟨he, hbs⟩ => ⟨Expr.Within.withoutLets e he, Expr.Within.withoutLetsPairs bs hbs⟩
termination_by structural bs => bs

theorem Value.Within.withoutLets {L : Language} : ∀ v : Value, v.Within L → v.withoutLets.Within L.letless
  | .number _, _ | .boolean _, _ | .string _, _ => trivial
  | .symbol _, h | .primitive _, h => h
  | .list vs, hvs => Value.Within.withoutLetsAll vs hvs
  | .closure _ _ body, ⟨hr, hp, hn, hb⟩ =>
    ⟨hr, hp, fun hnil => hn (Expr.withoutLetsAll_eq_nil hnil), Expr.Within.withoutLetsAll body hb⟩
  | .classDef _ _ methods, ⟨hc, hr, hf, hl, hm⟩ | .object _ _ methods, ⟨hc, hr, hf, hl, hm⟩ =>
    ⟨hc, hr, hf, Expr.labels_withoutLets hl, Expr.Within.withoutLetsPairs methods hm⟩
termination_by structural v => v

theorem Value.Within.withoutLetsAll {L : Language} :
    ∀ vs, Value.WithinAll L vs → Value.WithinAll L.letless (Value.withoutLetsAll vs)
  | [], _ => trivial
  | v :: vs, ⟨hv, hvs⟩ => ⟨Value.Within.withoutLets v hv, Value.Within.withoutLetsAll vs hvs⟩
termination_by structural vs => vs

end

theorem Expr.WithinForm.withoutLets {L : Language} {e : Expr} (h : e.WithinForm L) :
    e.withoutLets.WithinForm L.letless := by
  cases e with
  | define x value => exact ⟨h.1, Expr.Within.withoutLets value h.2⟩
  | _ =>
    have hexpr : Expr.Within L [] _ := h
    exact Expr.Within.withoutLets _ hexpr

/-! ### Substitution -/

/-- The replacements without their local bindings. -/
def Substitution.withoutLets (σ : Substitution) : Substitution :=
  σ.map fun b => (b.1, b.2.withoutLets)

namespace Substitution

theorem withoutLets_apply (σ : Substitution) (x : String) :
    σ.withoutLets.apply x = (σ.apply x).withoutLets := by
  have hlookup : σ.withoutLets.lookup x = (σ.lookup x).map Expr.withoutLets :=
    lookup_map_of_injective Function.injective_id Expr.withoutLets σ x
  rw [apply, hlookup, apply]
  cases σ.lookup x <;> rfl

theorem withoutLets_without (σ : Substitution) (binders : List String) :
    (σ.without binders).withoutLets = σ.withoutLets.without binders := by
  rw [without, withoutLets, withoutLets, without, List.filter_map]
  rfl

theorem withoutLets_zip (names : List String) (es : List Expr) :
    Substitution.withoutLets (names.zip es) = names.zip (Expr.withoutLetsAll es) := by
  rw [← Expr.withoutLetsPairs_zip, Expr.withoutLetsPairs_eq_map]
  rfl

end Substitution

mutual

/-- **What is put into an expression without local bindings are the replacements without theirs.** -/
theorem Expr.withoutLets_substitute : ∀ (e : Expr) (σ : Substitution),
    (e.substitute σ).withoutLets = e.withoutLets.substitute σ.withoutLets
  | .number _, _ | .boolean _, _ | .string _, _ | .primitive _, _ | .quoted _, _ => rfl
  | .var x, σ => (Substitution.withoutLets_apply σ x).symm
  | .cond a b c, σ => by
    rw [Expr.substitute, Expr.withoutLets, Expr.withoutLets_substitute a, Expr.withoutLets_substitute b,
      Expr.withoutLets_substitute c, Expr.withoutLets, Expr.substitute]
  | .lambda params body, σ => by
    rw [Expr.substitute, Expr.withoutLets, Expr.withoutLetsAll_substitute body, Substitution.withoutLets_without,
      Expr.withoutLets, Expr.substitute]
  | .app f es, σ => by
    rw [Expr.substitute, Expr.withoutLets, Expr.withoutLets_substitute f, Expr.withoutLetsAll_substitute es,
      Expr.withoutLets, Expr.substitute]
  | .letIn bs body, σ => by
    rw [Expr.substitute, Expr.withoutLets, Expr.withoutLetsPairs_substitute bs, Expr.withoutLetsAll_substitute body,
      Substitution.withoutLets_without, Expr.withoutLets, letApplication, letApplication, Expr.substitute,
      Expr.substitute, Expr.map_snd_substitutePairs, Expr.map_fst_substitutePairs, Expr.map_fst_withoutLetsPairs]
  | .define x e, σ => by
    rw [Expr.substitute, Expr.withoutLets, Expr.withoutLets_substitute e, Expr.withoutLets, Expr.substitute]
  | .classDef fields methods, σ => by
    rw [Expr.substitute, Expr.withoutLets, Expr.withoutLetsPairs_substitute methods,
      Substitution.withoutLets_without, Expr.withoutLets, Expr.substitute]
termination_by structural e => e

theorem Expr.withoutLetsAll_substitute : ∀ (es : List Expr) (σ : Substitution),
    Expr.withoutLetsAll (Expr.substituteAll σ es) = Expr.substituteAll σ.withoutLets (Expr.withoutLetsAll es)
  | [], _ => rfl
  | e :: es, σ => by
    rw [Expr.substituteAll, Expr.withoutLetsAll, Expr.withoutLets_substitute e, Expr.withoutLetsAll_substitute es,
      Expr.withoutLetsAll, Expr.substituteAll]
termination_by structural es => es

theorem Expr.withoutLetsPairs_substitute : ∀ (bs : List (String × Expr)) (σ : Substitution),
    Expr.withoutLetsPairs (Expr.substitutePairs σ bs) = Expr.substitutePairs σ.withoutLets (Expr.withoutLetsPairs bs)
  | [], _ => rfl
  | (x, e) :: bs, σ => by
    rw [Expr.substitutePairs, Expr.withoutLetsPairs, Expr.withoutLets_substitute e,
      Expr.withoutLetsPairs_substitute bs, Expr.withoutLetsPairs, Expr.substitutePairs]
termination_by structural bs => bs

end

/-- **Arguments that are put in for parameters lose their local bindings with what they are put into.** -/
theorem withoutLets_substitute (names : List String) (args : List Value) (es : List Expr) :
    Expr.withoutLetsAll (substitute names (args.map Value.toExpr) es)
      = substitute names ((args.map Value.withoutLets).map Value.toExpr) (Expr.withoutLetsAll es) := by
  have hargs : Expr.withoutLetsAll (args.map Value.toExpr) = (args.map Value.withoutLets).map Value.toExpr := by
    rw [Expr.withoutLetsAll_eq_map, List.map_map, List.map_map]
    exact List.map_congr_left fun v _ => v.withoutLets_toExpr
  rw [substitute, substitute, Expr.withoutLetsAll_substitute, Substitution.withoutLets_zip, hargs]

end SubstModel

import SubstModel.Expr.Substitute
import Mathlib.Data.List.Basic

/-!
# Languages — what expressions are made of

Many invariants of evaluation say of every part of an expression, down to the bodies of the procedures that it quotes,
that it is of some kind: that its names have low numbers, that its free variables are among given ones, that it has
no class.  A `Language` collects such conditions, and `Within` is the one traversal that imposes them.

* `Language` — the conditions, all of them void unless they are given; `L ≤ M` when `M` asks for no more;
* `Expr.Within`, `Value.Within` — every part is of the language; the free variables of an expression may also be
  those of a scope, while a value stands under no scope;
* `Expr.Within.mono`, `Value.Within.mono` — larger languages and larger scopes;
* `Value.Within.of_no_ref` — languages with the same symbols and primitives, for values without procedures;
* `Language.and`, `Expr.Within.and` — what is of two languages at once;
* `Value.Within.toExpr` — an expression that evaluates to a value has no parts but those of the value.
-/

namespace SubstModel

/-- Conditions on the parts of expressions and values. -/
structure Language where
  /-- Variables, bound names and defined names. -/
  name : String → Prop := fun _ => True
  /-- Variables that nothing binds. -/
  free : String → Prop := fun _ => True
  /-- The names that one list binds. -/
  binders : List String → Prop := fun _ => True
  /-- Names of methods. -/
  label : String → Prop := fun _ => True
  symbol : String → Prop := fun _ => True
  primitive : Primitive → Prop := fun _ => True
  ref : Ref → Prop := fun _ => True
  /-- There may be classes and objects. -/
  classes : Prop := True
  lets : Prop := True
  /-- Definitions may stand inside of expressions. -/
  definitions : Prop := True
  /-- Procedures and local bindings may have no body. -/
  emptyBodies : Prop := True

namespace Language

/-- The names may be bound together. -/
def Binds (L : Language) (xs : List String) : Prop :=
  L.binders xs ∧ ∀ x ∈ xs, L.name x

/-- The expressions may be a body, as far as their number is concerned. -/
def HasBody (L : Language) (body : List Expr) : Prop :=
  body = [] → L.emptyBodies

/-- Every condition of the first language implies that of the second. -/
structure Sub (L M : Language) : Prop where
  name : ∀ {x}, L.name x → M.name x
  free : ∀ {x}, L.free x → M.free x
  binders : ∀ {xs}, L.binders xs → M.binders xs
  label : ∀ {x}, L.label x → M.label x
  symbol : ∀ {x}, L.symbol x → M.symbol x
  primitive : ∀ {p}, L.primitive p → M.primitive p
  ref : ∀ {r}, L.ref r → M.ref r
  classes : L.classes → M.classes
  lets : L.lets → M.lets
  definitions : L.definitions → M.definitions
  emptyBodies : L.emptyBodies → M.emptyBodies

instance : LE Language := ⟨Sub⟩

theorem le_refl (L : Language) : L ≤ L :=
  ⟨id, id, id, id, id, id, id, id, id, id, id⟩

theorem Binds.mono {L M : Language} (h : L ≤ M) {xs : List String} (hxs : L.Binds xs) : M.Binds xs :=
  ⟨h.binders hxs.1, fun x hx => h.name (hxs.2 x hx)⟩

theorem HasBody.mono {L M : Language} (h : L ≤ M) {body : List Expr} (hb : L.HasBody body) :
    M.HasBody body :=
  fun hnil => h.emptyBodies (hb hnil)

end Language

/-! ### Being within a language -/

mutual

/-- Every part of the expression is of the language, when the names of the scope may be free. -/
def Expr.Within (L : Language) (scope : List String) : Expr → Prop
  | .number _ | .boolean _ | .string _ => True
  | .primitive p => L.primitive p
  | .var x => L.name x ∧ (x ∈ scope ∨ L.free x)
  | .cond test onTrue onFalse =>
    Expr.Within L scope test ∧ Expr.Within L scope onTrue ∧ Expr.Within L scope onFalse
  | .lambda params body =>
    L.Binds params ∧ L.HasBody body ∧ Expr.WithinAll L (params.reverse ++ scope) body
  | .app operator operands => Expr.Within L scope operator ∧ Expr.WithinAll L scope operands
  | .letIn bindings body =>
    L.lets ∧ L.Binds (bindings.map Prod.fst) ∧ L.HasBody body ∧
      Expr.WithinPairs L scope bindings ∧
      Expr.WithinAll L ((bindings.map Prod.fst).reverse ++ scope) body
  | .quoted v => Value.Within L v
  | .define x value => L.definitions ∧ L.name x ∧ Expr.Within L scope value
  | .classDef fields methods =>
    L.classes ∧ L.Binds fields ∧ (∀ m ∈ methods, L.label m.1) ∧
      Expr.WithinPairs L (fields.reverse ++ scope) methods
termination_by structural e => e

/-- Every one of the expressions is within the language. -/
def Expr.WithinAll (L : Language) (scope : List String) : List Expr → Prop
  | [] => True
  | e :: es => Expr.Within L scope e ∧ Expr.WithinAll L scope es
termination_by structural es => es

/-- The value of every one of the bindings is within the language. -/
def Expr.WithinPairs (L : Language) (scope : List String) : List (String × Expr) → Prop
  | [] => True
  | (_, e) :: bs => Expr.Within L scope e ∧ Expr.WithinPairs L scope bs
termination_by structural bs => bs

/-- Every part of the value is of the language. -/
def Value.Within (L : Language) : Value → Prop
  | .number _ | .boolean _ | .string _ => True
  | .symbol s => L.symbol s
  | .list items => Value.WithinAll L items
  | .primitive p => L.primitive p
  | .closure ref params body =>
    L.ref ref ∧ L.Binds params ∧ L.HasBody body ∧ Expr.WithinAll L params.reverse body
  | .classDef ref fields methods =>
    L.classes ∧ L.ref ref ∧ L.Binds fields ∧ (∀ m ∈ methods, L.label m.1) ∧
      Expr.WithinPairs L fields.reverse methods
  | .object ref fields methods =>
    L.classes ∧ L.ref ref ∧ L.Binds fields ∧ (∀ m ∈ methods, L.label m.1) ∧
      Expr.WithinPairs L [] methods
termination_by structural v => v

/-- Every one of the values is within the language. -/
def Value.WithinAll (L : Language) : List Value → Prop
  | [] => True
  | v :: vs => Value.Within L v ∧ Value.WithinAll L vs
termination_by structural vs => vs

end

theorem Expr.withinAll_iff {L : Language} {scope : List String} {es : List Expr} :
    Expr.WithinAll L scope es ↔ ∀ e ∈ es, e.Within L scope := by
  induction es with
  | nil => simp [Expr.WithinAll]
  | cons e es ih => rw [Expr.WithinAll, ih, List.forall_mem_cons]

theorem Expr.withinPairs_iff {L : Language} {scope : List String} {bs : List (String × Expr)} :
    Expr.WithinPairs L scope bs ↔ ∀ b ∈ bs, b.2.Within L scope := by
  induction bs with
  | nil => simp [Expr.WithinPairs]
  | cons b bs ih => rw [Expr.WithinPairs, ih, List.forall_mem_cons]

theorem Expr.withinAll_map_snd {L : Language} {scope : List String} {bs : List (String × Expr)} :
    Expr.WithinAll L scope (bs.map Prod.snd) ↔ Expr.WithinPairs L scope bs := by
  rw [Expr.withinAll_iff, List.forall_mem_map, Expr.withinPairs_iff]

theorem Value.withinAll_iff {L : Language} {vs : List Value} :
    Value.WithinAll L vs ↔ ∀ v ∈ vs, v.Within L := by
  induction vs with
  | nil => simp [Value.WithinAll]
  | cons v vs ih => rw [Value.WithinAll, ih, List.forall_mem_cons]

/-! ### Larger languages and scopes -/

theorem scope_subset {scope scope' : List String} (xs : List String) (hs : scope ⊆ scope') :
    xs ++ scope ⊆ xs ++ scope' :=
  List.append_subset.2
    ⟨List.subset_append_left xs scope', fun _ hx => List.mem_append_right xs (hs hx)⟩

mutual

theorem Expr.Within.mono {L M : Language} (h : L ≤ M) {scope scope' : List String}
    (hs : scope ⊆ scope') : ∀ e : Expr, e.Within L scope → e.Within M scope'
  | .number _, _ | .boolean _, _ | .string _, _ => trivial
  | .primitive _, hp => h.primitive hp
  | .var _, ⟨hx, hf⟩ => ⟨h.name hx, hf.imp (@hs _) h.free⟩
  | .cond a b c, ⟨ha, hb, hc⟩ =>
    ⟨Expr.Within.mono h hs a ha, Expr.Within.mono h hs b hb, Expr.Within.mono h hs c hc⟩
  | .lambda params body, ⟨hp, hn, hb⟩ =>
    ⟨hp.mono h, hn.mono h, Expr.Within.monoAll h (scope_subset params.reverse hs) body hb⟩
  | .app f es, ⟨hf, hes⟩ => ⟨Expr.Within.mono h hs f hf, Expr.Within.monoAll h hs es hes⟩
  | .letIn bs body, ⟨hl, hp, hn, hbs, hb⟩ =>
    ⟨h.lets hl, hp.mono h, hn.mono h, Expr.Within.monoPairs h hs bs hbs,
      Expr.Within.monoAll h (scope_subset (bs.map Prod.fst).reverse hs) body hb⟩
  | .quoted v, hv => Value.Within.mono h v hv
  | .define _ e, ⟨hd, hx, he⟩ => ⟨h.definitions hd, h.name hx, Expr.Within.mono h hs e he⟩
  | .classDef fields methods, ⟨hc, hf, hl, hm⟩ =>
    ⟨h.classes hc, hf.mono h, fun m hm => h.label (hl m hm),
      Expr.Within.monoPairs h (scope_subset fields.reverse hs) methods hm⟩
termination_by structural e => e

theorem Expr.Within.monoAll {L M : Language} (h : L ≤ M) {scope scope' : List String}
    (hs : scope ⊆ scope') : ∀ es, Expr.WithinAll L scope es → Expr.WithinAll M scope' es
  | [], _ => trivial
  | e :: es, ⟨he, hes⟩ => ⟨Expr.Within.mono h hs e he, Expr.Within.monoAll h hs es hes⟩
termination_by structural es => es

theorem Expr.Within.monoPairs {L M : Language} (h : L ≤ M) {scope scope' : List String}
    (hs : scope ⊆ scope') : ∀ bs, Expr.WithinPairs L scope bs → Expr.WithinPairs M scope' bs
  | [], _ => trivial
  | (_, e) :: bs, ⟨he, hbs⟩ => ⟨Expr.Within.mono h hs e he, Expr.Within.monoPairs h hs bs hbs⟩
termination_by structural bs => bs

theorem Value.Within.mono {L M : Language} (h : L ≤ M) : ∀ v : Value, v.Within L → v.Within M
  | .number _, _ | .boolean _, _ | .string _, _ => trivial
  | .symbol _, hs => h.symbol hs
  | .list vs, hvs => Value.Within.monoAll h vs hvs
  | .primitive _, hp => h.primitive hp
  | .closure _ _ body, ⟨hr, hp, hn, hb⟩ =>
    ⟨h.ref hr, hp.mono h, hn.mono h, Expr.Within.monoAll h (List.Subset.refl _) body hb⟩
  | .classDef _ _ methods, ⟨hc, hr, hf, hl, hm⟩ =>
    ⟨h.classes hc, h.ref hr, hf.mono h, fun m hm => h.label (hl m hm),
      Expr.Within.monoPairs h (List.Subset.refl _) methods hm⟩
  | .object _ _ methods, ⟨hc, hr, hf, hl, hm⟩ =>
    ⟨h.classes hc, h.ref hr, hf.mono h, fun m hm => h.label (hl m hm),
      Expr.Within.monoPairs h (List.Subset.refl _) methods hm⟩
termination_by structural v => v

theorem Value.Within.monoAll {L M : Language} (h : L ≤ M) :
    ∀ vs, Value.WithinAll L vs → Value.WithinAll M vs
  | [], _ => trivial
  | v :: vs, ⟨hv, hvs⟩ => ⟨Value.Within.mono h v hv, Value.Within.monoAll h vs hvs⟩
termination_by structural vs => vs

end

mutual

/-- A value without procedures is made of symbols and primitives alone. -/
theorem Value.Within.of_no_ref {L M : Language} (hL : ∀ r, ¬ L.ref r) (hs : ∀ {x}, L.symbol x → M.symbol x)
    (hp : ∀ {p}, L.primitive p → M.primitive p) : ∀ v : Value, v.Within L → v.Within M
  | .number _, _ | .boolean _, _ | .string _, _ => trivial
  | .symbol _, h => hs h
  | .primitive _, h => hp h
  | .list vs, hvs => Value.Within.of_no_refAll hL hs hp vs hvs
  | .closure r _ _, ⟨hr, _⟩ => absurd hr (hL r)
  | .classDef r _ _, ⟨_, hr, _⟩ => absurd hr (hL r)
  | .object r _ _, ⟨_, hr, _⟩ => absurd hr (hL r)
termination_by structural v => v

theorem Value.Within.of_no_refAll {L M : Language} (hL : ∀ r, ¬ L.ref r) (hs : ∀ {x}, L.symbol x → M.symbol x)
    (hp : ∀ {p}, L.primitive p → M.primitive p) : ∀ vs, Value.WithinAll L vs → Value.WithinAll M vs
  | [], _ => trivial
  | v :: vs, ⟨hv, hvs⟩ => ⟨Value.Within.of_no_ref hL hs hp v hv, Value.Within.of_no_refAll hL hs hp vs hvs⟩
termination_by structural vs => vs

end

/-! ### Two languages -/

/-- What is of both languages. -/
def Language.and (L M : Language) : Language where
  name x := L.name x ∧ M.name x
  free x := L.free x ∧ M.free x
  binders xs := L.binders xs ∧ M.binders xs
  label x := L.label x ∧ M.label x
  symbol x := L.symbol x ∧ M.symbol x
  primitive p := L.primitive p ∧ M.primitive p
  ref r := L.ref r ∧ M.ref r
  classes := L.classes ∧ M.classes
  lets := L.lets ∧ M.lets
  definitions := L.definitions ∧ M.definitions
  emptyBodies := L.emptyBodies ∧ M.emptyBodies

theorem Language.Binds.and {L M : Language} {xs : List String} (h : L.Binds xs) (h' : M.Binds xs) :
    (L.and M).Binds xs :=
  ⟨⟨h.1, h'.1⟩, fun x hx => ⟨h.2 x hx, h'.2 x hx⟩⟩

theorem Language.HasBody.and {L M : Language} {body : List Expr} (h : L.HasBody body)
    (h' : M.HasBody body) : (L.and M).HasBody body :=
  fun hnil => ⟨h hnil, h' hnil⟩

mutual

theorem Expr.Within.and {L M : Language} : ∀ (e : Expr) {scope : List String}, e.Within L scope →
    e.Within M scope → e.Within (L.and M) scope
  | .number _, _, _, _ | .boolean _, _, _, _ | .string _, _, _, _ => trivial
  | .primitive _, _, h, h' => ⟨h, h'⟩
  | .var _, _, ⟨hx, hf⟩, ⟨hx', hf'⟩ =>
    ⟨⟨hx, hx'⟩, hf.elim .inl fun hf => hf'.elim .inl fun hf' => .inr ⟨hf, hf'⟩⟩
  | .cond a b c, _, ⟨ha, hb, hc⟩, ⟨ha', hb', hc'⟩ =>
    ⟨Expr.Within.and a ha ha', Expr.Within.and b hb hb', Expr.Within.and c hc hc'⟩
  | .lambda _ body, _, ⟨hp, hn, hb⟩, ⟨hp', hn', hb'⟩ =>
    ⟨hp.and hp', hn.and hn', Expr.Within.andAll body hb hb'⟩
  | .app f es, _, ⟨hf, hes⟩, ⟨hf', hes'⟩ => ⟨Expr.Within.and f hf hf', Expr.Within.andAll es hes hes'⟩
  | .letIn bs body, _, ⟨hl, hp, hn, hbs, hb⟩, ⟨hl', hp', hn', hbs', hb'⟩ =>
    ⟨⟨hl, hl'⟩, hp.and hp', hn.and hn', Expr.Within.andPairs bs hbs hbs', Expr.Within.andAll body hb hb'⟩
  | .quoted v, _, h, h' => Value.Within.and v h h'
  | .define _ e, _, ⟨hd, hx, he⟩, ⟨hd', hx', he'⟩ =>
    ⟨⟨hd, hd'⟩, ⟨hx, hx'⟩, Expr.Within.and e he he'⟩
  | .classDef _ methods, _, ⟨hc, hf, hl, hm⟩, ⟨hc', hf', hl', hm'⟩ =>
    ⟨⟨hc, hc'⟩, hf.and hf', fun m hmem => ⟨hl m hmem, hl' m hmem⟩, Expr.Within.andPairs methods hm hm'⟩
termination_by structural e => e

theorem Expr.Within.andAll {L M : Language} : ∀ (es : List Expr) {scope : List String},
    Expr.WithinAll L scope es → Expr.WithinAll M scope es → Expr.WithinAll (L.and M) scope es
  | [], _, _, _ => trivial
  | e :: es, _, ⟨he, hes⟩, ⟨he', hes'⟩ => ⟨Expr.Within.and e he he', Expr.Within.andAll es hes hes'⟩
termination_by structural es => es

theorem Expr.Within.andPairs {L M : Language} : ∀ (bs : List (String × Expr)) {scope : List String},
    Expr.WithinPairs L scope bs → Expr.WithinPairs M scope bs → Expr.WithinPairs (L.and M) scope bs
  | [], _, _, _ => trivial
  | (_, e) :: bs, _, ⟨he, hbs⟩, ⟨he', hbs'⟩ => ⟨Expr.Within.and e he he', Expr.Within.andPairs bs hbs hbs'⟩
termination_by structural bs => bs

theorem Value.Within.and {L M : Language} : ∀ v : Value, v.Within L → v.Within M → v.Within (L.and M)
  | .number _, _, _ | .boolean _, _, _ | .string _, _, _ => trivial
  | .symbol _, h, h' => ⟨h, h'⟩
  | .list vs, h, h' => Value.Within.andAll vs h h'
  | .primitive _, h, h' => ⟨h, h'⟩
  | .closure _ _ body, ⟨hr, hp, hn, hb⟩, ⟨hr', hp', hn', hb'⟩ =>
    ⟨⟨hr, hr'⟩, hp.and hp', hn.and hn', Expr.Within.andAll body hb hb'⟩
  | .classDef _ _ methods, ⟨hc, hr, hf, hl, hm⟩, ⟨hc', hr', hf', hl', hm'⟩
  | .object _ _ methods, ⟨hc, hr, hf, hl, hm⟩, ⟨hc', hr', hf', hl', hm'⟩ =>
    ⟨⟨hc, hc'⟩, ⟨hr, hr'⟩, hf.and hf', fun m hmem => ⟨hl m hmem, hl' m hmem⟩,
      Expr.Within.andPairs methods hm hm'⟩
termination_by structural v => v

theorem Value.Within.andAll {L M : Language} :
    ∀ vs, Value.WithinAll L vs → Value.WithinAll M vs → Value.WithinAll (L.and M) vs
  | [], _, _ => trivial
  | v :: vs, ⟨hv, hvs⟩, ⟨hv', hvs'⟩ => ⟨Value.Within.and v hv hv', Value.Within.andAll vs hvs hvs'⟩
termination_by structural vs => vs

end

/-! ### Arguments -/

/-- An expression that evaluates to a value is made of the parts of the value, and nothing binds around it. -/
theorem Value.Within.toExpr {L : Language} {v : Value} (h : v.Within L) : v.toExpr.Within L [] := by
  cases v with
  | closure ref params body =>
    obtain ⟨-, hp, hn, hb⟩ := h
    refine ⟨hp, hn, ?_⟩
    rw [List.append_nil]
    exact hb
  | number | boolean | string | symbol | list | primitive | classDef | object => exact h

end SubstModel

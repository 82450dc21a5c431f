import SubstModel.Proofs.Spelling.Unparsing

/-!
# What is accepted — the grammar as a set of data, and the expressions that it gives

Which data are expressions can be said without saying of which expressions they are the data.  And which expressions
come of data can be said without the data: evaluation, renaming and the replacement of classes rely on what is said
there.

* `Datum.IsExpression` — the data that the grammar accepts;
* `Expr.WellFormed` — bodies have forms, binders are distinct names that can be read, nothing is defined inside of an
  expression, and what is quoted is a datum;
* `exists_denotes_iff` — a datum denotes an expression exactly when the grammar accepts it;
* `Expr.exists_denotes_iff` — an expression is denoted by a datum exactly when it is well-formed;
* `grammar_exact` — **reading accepts these data and gives these expressions, no more and no fewer of either**.
-/

namespace SubstModel

/-! ### Data that are accepted -/

/-- The datum of a list of names with data. -/
def pairList (bs : List (String × Datum)) : Datum :=
  .list (bs.map fun b => .list [.symbol b.1, b.2])

/-- The datum is an expression of the source language. -/
inductive Datum.IsExpression : Datum → Prop
  | number (x : Float) : (Datum.number x).IsExpression
  | boolean (b : Bool) : (Datum.boolean b).IsExpression
  | string (s : String) : (Datum.string s).IsExpression
  | primitive (p : Primitive) : (Datum.symbol p.name).IsExpression
  | var {x : String} (symbol : isSymbol x = true) (noKeyword : ∀ k : Keyword, x ≠ k.name) :
    (Datum.symbol x).IsExpression
  | quoted (d : Datum) : (Datum.list [.symbol "quote", d]).IsExpression
  | cond {test onTrue onFalse : Datum} (test_ok : test.IsExpression) (onTrue_ok : onTrue.IsExpression)
    (onFalse_ok : onFalse.IsExpression) : (Datum.list [.symbol "if", test, onTrue, onFalse]).IsExpression
  | lambda {params : List String} {body : List Datum} (binders : AreBinders params) (nonempty : body ≠ [])
    (forms : ∀ d ∈ body, d.IsExpression) : (Datum.list (.symbol "lambda" :: nameList params :: body)).IsExpression
  | letIn {bindings : List (String × Datum)} {body : List Datum} (binders : AreBinders (bindings.map Prod.fst))
    (values : ∀ b ∈ bindings, b.2.IsExpression) (nonempty : body ≠ []) (forms : ∀ d ∈ body, d.IsExpression) :
    (Datum.list (.symbol "let" :: pairList bindings :: body)).IsExpression
  | classDef {fields : List String} {methods : List (String × Datum)} (binders : AreBinders fields)
    (names : AreBinders (methods.map Prod.fst)) (values : ∀ m ∈ methods, m.2.IsExpression) :
    (Datum.list [.symbol "class", nameList fields, pairList methods]).IsExpression
  | app {operator : Datum} {operands : List Datum} (noKeyword : ∀ k : Keyword, operator ≠ .symbol k.name)
    (operator_ok : operator.IsExpression) (operands_ok : ∀ d ∈ operands, d.IsExpression) :
    (Datum.list (operator :: operands)).IsExpression

mutual

/-- A datum that denotes an expression is accepted. -/
theorem Denotes.isExpression {d : Datum} {e : Expr} : Denotes d e → d.IsExpression
  | .number x => .number x
  | .boolean b => .boolean b
  | .string s => .string s
  | .primitive p => .primitive p
  | .var name => .var name.symbol fun k hk => by
    rw [hk] at name
    exact absurd (name.noKeyword.symm.trans (Keyword.ofName?_eq_some_iff.2 rfl)) nofun
  | .quoted d => .quoted d
  | .cond test onTrue onFalse => .cond test.isExpression onTrue.isExpression onFalse.isExpression
  | .lambda binders nonempty body => .lambda binders (body.ne_nil.1 nonempty) body.isExpression
  | .letIn binders nonempty bindings body => by
    obtain ⟨pairs, rfl, hnames, hvalues⟩ := bindings.exists_pairs
    exact .letIn (hnames ▸ binders) hvalues (body.ne_nil.1 nonempty) body.isExpression
  | .classDef binders names methods => by
    obtain ⟨pairs, rfl, hnames, hvalues⟩ := methods.exists_pairs
    exact .classDef binders (hnames ▸ names) hvalues
  | .app noKeyword operator operands => by
    refine .app ?_ operator.isExpression operands.isExpression
    rintro k rfl
    rw [keywordOf?_name] at noKeyword
    cases noKeyword

theorem DenotesAll.isExpression {ds : List Datum} {es : List Expr} : DenotesAll ds es → ∀ d ∈ ds, d.IsExpression
  | .nil => fun _ hd => absurd hd List.not_mem_nil
  | .cons head tail => List.forall_mem_cons.2 ⟨head.isExpression, tail.isExpression⟩

/-- Data that denote bindings are lists of a name and of a datum that is accepted. -/
theorem DenotesPairs.exists_pairs {ds : List Datum} {bs : List (String × Expr)} : DenotesPairs ds bs →
    ∃ pairs : List (String × Datum), ds = pairs.map (fun b => .list [.symbol b.1, b.2]) ∧
      bs.map Prod.fst = pairs.map Prod.fst ∧ ∀ b ∈ pairs, b.2.IsExpression
  | .nil => ⟨[], rfl, rfl, fun _ hb => absurd hb List.not_mem_nil⟩
  | .cons (x := x) _ value tail => by
    obtain ⟨pairs, rfl, hnames, hvalues⟩ := tail.exists_pairs
    refine ⟨(x, _) :: pairs, rfl, ?_, List.forall_mem_cons.2 ⟨value.isExpression, hvalues⟩⟩
    rw [List.map_cons, List.map_cons, hnames]

end

theorem exists_denotesAll {ds : List Datum} (h : ∀ d ∈ ds, ∃ e, Denotes d e) : ∃ es, DenotesAll ds es := by
  induction ds with
  | nil => exact ⟨[], .nil⟩
  | cons d ds ih =>
    rw [List.forall_mem_cons] at h
    obtain ⟨⟨e, he⟩, hrest⟩ := h
    obtain ⟨es, hes⟩ := ih hrest
    exact ⟨e :: es, .cons he hes⟩

theorem exists_denotesPairs {bs : List (String × Datum)} (hnames : ∀ x ∈ bs.map Prod.fst, IsIdentifier x)
    (h : ∀ b ∈ bs, ∃ e, Denotes b.2 e) :
    ∃ es : List (String × Expr), DenotesPairs (bs.map fun b => .list [.symbol b.1, b.2]) es ∧
      es.map Prod.fst = bs.map Prod.fst := by
  induction bs with
  | nil => exact ⟨[], .nil, rfl⟩
  | cons b bs ih =>
    rw [List.map_cons, List.forall_mem_cons] at hnames
    rw [List.forall_mem_cons] at h
    obtain ⟨⟨e, he⟩, hrest⟩ := h
    obtain ⟨es, hes, hfst⟩ := ih hnames.2 hrest
    refine ⟨(b.1, e) :: es, .cons hnames.1 he hes, ?_⟩
    rw [List.map_cons, List.map_cons, hfst]

/-- **A datum denotes an expression exactly when the grammar accepts it.** -/
theorem exists_denotes_iff {d : Datum} : (∃ e, Denotes d e) ↔ d.IsExpression := by
  refine ⟨fun ⟨e, h⟩ => h.isExpression, fun h => ?_⟩
  induction h with
  | number x => exact ⟨_, .number x⟩
  | boolean b => exact ⟨_, .boolean b⟩
  | string s => exact ⟨_, .string s⟩
  | primitive p => exact ⟨_, .primitive p⟩
  | @var x symbol noKeyword =>
    -- A symbol of the language may also be the name of a primitive.
    cases hp : Primitive.ofName? x with
    | some p =>
      rw [← Primitive.ofName?_eq_some_iff.1 hp]
      exact ⟨_, .primitive p⟩
    | none =>
      have hkeyword : Keyword.ofName? x = none :=
        Option.eq_none_iff_forall_ne_some.2 fun k hk => noKeyword k (Keyword.ofName?_eq_some_iff.1 hk).symm
      exact ⟨_, .var ⟨symbol, hkeyword, hp⟩⟩
  | quoted d => exact ⟨_, .quoted d⟩
  | cond _ _ _ test onTrue onFalse =>
    obtain ⟨⟨a, ha⟩, ⟨b, hb⟩, ⟨c, hc⟩⟩ := And.intro test (And.intro onTrue onFalse)
    exact ⟨_, .cond ha hb hc⟩
  | lambda binders nonempty _ forms =>
    obtain ⟨es, hes⟩ := exists_denotesAll forms
    exact ⟨_, .lambda binders (hes.ne_nil.2 nonempty) hes⟩
  | letIn binders _ nonempty _ values forms =>
    obtain ⟨bs, hbs, hfst⟩ := exists_denotesPairs binders.identifiers values
    obtain ⟨es, hes⟩ := exists_denotesAll forms
    exact ⟨_, .letIn (hfst ▸ binders) (hes.ne_nil.2 nonempty) hbs hes⟩
  | classDef binders names _ values =>
    obtain ⟨bs, hbs, hfst⟩ := exists_denotesPairs names.identifiers values
    exact ⟨_, .classDef binders (hfst ▸ names) hbs⟩
  | app _ _ _ operator operands =>
    obtain ⟨f, hf⟩ := operator
    obtain ⟨es, hes⟩ := exists_denotesAll operands
    exact ⟨_, .app hf.noKeyword hf hes⟩

/-! ### Expressions that are read -/

mutual

/-- The expression is like those that are read: each list of binders and of methods has distinct names that can be read,
are no keywords and name no primitives, the bodies of procedures and of local bindings have forms, there are no
definitions, and only data are quoted. -/
def Expr.WellFormed : Expr → Prop
  | .number _ | .boolean _ | .string _ | .primitive _ => True
  | .var x => IsIdentifier x
  | .cond test onTrue onFalse => test.WellFormed ∧ onTrue.WellFormed ∧ onFalse.WellFormed
  | .lambda params body => AreBinders params ∧ body ≠ [] ∧ Expr.WellFormedAll body
  | .app operator operands => operator.WellFormed ∧ Expr.WellFormedAll operands
  | .letIn bindings body =>
    AreBinders (bindings.map Prod.fst) ∧ Expr.WellFormedPairs bindings ∧ body ≠ [] ∧ Expr.WellFormedAll body
  | .quoted v => ∃ d, v = Value.ofDatum d
  | .define _ _ => False
  | .classDef fields methods =>
    AreBinders fields ∧ AreBinders (methods.map Prod.fst) ∧ Expr.WellFormedPairs methods
termination_by structural e => e

/-- Every one of the expressions is well-formed. -/
def Expr.WellFormedAll : List Expr → Prop
  | [] => True
  | e :: es => e.WellFormed ∧ Expr.WellFormedAll es
termination_by structural es => es

/-- The value of every one of the bindings is well-formed. -/
def Expr.WellFormedPairs : List (String × Expr) → Prop
  | [] => True
  | (_, e) :: bs => e.WellFormed ∧ Expr.WellFormedPairs bs
termination_by structural bs => bs

end

mutual

/-- **What a datum denotes is well-formed.** -/
theorem Denotes.wellFormed {d : Datum} {e : Expr} : Denotes d e → e.WellFormed
  | .number _ | .boolean _ | .string _ | .primitive _ => trivial
  | .var name => name
  | .cond test onTrue onFalse => ⟨test.wellFormed, onTrue.wellFormed, onFalse.wellFormed⟩
  | .lambda binders nonempty body => ⟨binders, nonempty, body.wellFormed⟩
  | .app _ operator operands => ⟨operator.wellFormed, operands.wellFormed⟩
  | .letIn binders nonempty bindings body => ⟨binders, bindings.wellFormed, nonempty, body.wellFormed⟩
  | .quoted d => ⟨d, rfl⟩
  | .classDef binders names methods => ⟨binders, names, methods.wellFormed⟩

theorem DenotesAll.wellFormed {ds : List Datum} {es : List Expr} : DenotesAll ds es → Expr.WellFormedAll es
  | .nil => trivial
  | .cons head tail => ⟨head.wellFormed, tail.wellFormed⟩

theorem DenotesPairs.wellFormed {ds : List Datum} {bs : List (String × Expr)} :
    DenotesPairs ds bs → Expr.WellFormedPairs bs
  | .nil => trivial
  | .cons _ value tail => ⟨value.wellFormed, tail.wellFormed⟩

end

mutual

/-- **A well-formed expression is denoted by a datum.** -/
theorem Expr.WellFormed.exists_denotes : ∀ e : Expr, e.WellFormed → ∃ d, Denotes d e
  | .number x, _ => ⟨_, .number x⟩
  | .boolean b, _ => ⟨_, .boolean b⟩
  | .string s, _ => ⟨_, .string s⟩
  | .primitive p, _ => ⟨_, .primitive p⟩
  | .var _, name => ⟨_, .var name⟩
  | .cond a b c, ⟨ha, hb, hc⟩ => by
    obtain ⟨_, test⟩ := Expr.WellFormed.exists_denotes a ha
    obtain ⟨_, onTrue⟩ := Expr.WellFormed.exists_denotes b hb
    obtain ⟨_, onFalse⟩ := Expr.WellFormed.exists_denotes c hc
    exact ⟨_, .cond test onTrue onFalse⟩
  | .lambda _ body, ⟨binders, nonempty, hbody⟩ => by
    obtain ⟨_, forms⟩ := Expr.WellFormedAll.exists_denotes body hbody
    exact ⟨_, .lambda binders nonempty forms⟩
  | .app f es, ⟨hf, hes⟩ => by
    obtain ⟨_, operator⟩ := Expr.WellFormed.exists_denotes f hf
    obtain ⟨_, operands⟩ := Expr.WellFormedAll.exists_denotes es hes
    exact ⟨_, .app operator.noKeyword operator operands⟩
  | .letIn bs body, ⟨binders, hbs, nonempty, hbody⟩ => by
    obtain ⟨_, bindings⟩ := Expr.WellFormedPairs.exists_denotes bs binders.identifiers hbs
    obtain ⟨_, forms⟩ := Expr.WellFormedAll.exists_denotes body hbody
    exact ⟨_, .letIn binders nonempty bindings forms⟩
  | .quoted _, h => by
    obtain ⟨d, rfl⟩ := h
    exact ⟨_, .quoted d⟩
  | .classDef _ ms, ⟨binders, names, hms⟩ => by
    obtain ⟨_, methods⟩ := Expr.WellFormedPairs.exists_denotes ms names.identifiers hms
    exact ⟨_, .classDef binders names methods⟩
termination_by structural e => e

theorem Expr.WellFormedAll.exists_denotes : ∀ es : List Expr, Expr.WellFormedAll es → ∃ ds, DenotesAll ds es
  | [], _ => ⟨_, .nil⟩
  | e :: es, ⟨he, hes⟩ => by
    obtain ⟨_, head⟩ := Expr.WellFormed.exists_denotes e he
    obtain ⟨_, tail⟩ := Expr.WellFormedAll.exists_denotes es hes
    exact ⟨_, .cons head tail⟩
termination_by structural es => es

theorem Expr.WellFormedPairs.exists_denotes : ∀ bs : List (String × Expr),
    (∀ x ∈ bs.map Prod.fst, IsIdentifier x) → Expr.WellFormedPairs bs → ∃ ds, DenotesPairs ds bs
  | [], _, _ => ⟨_, .nil⟩
  | (x, e) :: bs, hnames, ⟨he, hbs⟩ => by
    rw [List.map_cons, List.forall_mem_cons] at hnames
    obtain ⟨_, value⟩ := Expr.WellFormed.exists_denotes e he
    obtain ⟨_, tail⟩ := Expr.WellFormedPairs.exists_denotes bs hnames.2 hbs
    exact ⟨_, .cons hnames.1 value tail⟩
termination_by structural bs => bs

end

/-- **An expression is denoted by a datum exactly when it is well-formed.** -/
theorem Expr.exists_denotes_iff {e : Expr} : (∃ d, Denotes d e) ↔ e.WellFormed :=
  ⟨fun ⟨_, h⟩ => h.wellFormed, Expr.WellFormed.exists_denotes e⟩

/-- **Reading accepts exactly the grammar.**  A datum is read exactly when the grammar accepts it, and what data are
read as are exactly the well-formed expressions. -/
theorem grammar_exact :
    (∀ d : Datum, (∃ e, Expr.ofDatum d = .ok e) ↔ d.IsExpression) ∧
      ∀ e : Expr, (∃ d, Expr.ofDatum d = .ok e) ↔ e.WellFormed := by
  refine ⟨fun d => ?_, fun e => ?_⟩
  · rw [← exists_denotes_iff]
    exact exists_congr fun e => Expr.ofDatum_eq_ok_iff
  · rw [← Expr.exists_denotes_iff]
    exact exists_congr fun d => Expr.ofDatum_eq_ok_iff

end SubstModel

import SubstModel.Expr.OfDatum
import SubstModel.Proofs.Steps

/-!
# The grammar of programs

Which data are expressions, and of which expressions they are the data, said by relations on trees.

* `IsIdentifier`, `AreBinders` — the names that can be bound, and the lists of them;
* `Denotes`, `DenotesAll`, `DenotesPairs` — the expressions that data denote;
* `DenotesForm` — the forms of the top level;
* `Expr.ofDatum_eq_ok_iff` — **a datum is read as exactly the expression that it denotes**;
* `Program.formOfDatum_eq_ok_iff` — the same for forms;
* `Program.forms_of_ofText` — the forms of a program that is read.
-/

namespace SubstModel

/-! ### Names -/

/-- The name can be bound. -/
structure IsIdentifier (x : String) : Prop where
  symbol : isSymbol x = true
  noKeyword : Keyword.ofName? x = none
  noPrimitive : Primitive.ofName? x = none

/-- The names can be bound together. -/
structure AreBinders (xs : List String) : Prop where
  distinct : xs.Nodup
  identifiers : ∀ x ∈ xs, IsIdentifier x

/-- The datum of a list of names. -/
def nameList (xs : List String) : Datum :=
  .list (xs.map .symbol)

theorem identifier_eq_ok_iff {d : Datum} {x : String} : identifier d = .ok x ↔ d = .symbol x ∧ IsIdentifier x := by
  constructor
  · intro h
    cases d with
    | symbol s =>
      rw [identifier] at h
      cases hk : Keyword.ofName? s with
      | some k => simp only [hk] at h; cases h
      | none =>
        cases hp : Primitive.ofName? s with
        | some p => simp only [hk, hp] at h; cases h
        | none =>
          by_cases hs : isSymbol s = true
          · simp only [hk, hp, if_pos hs] at h
            cases h
            exact ⟨rfl, hs, hk, hp⟩
          · simp only [hk, hp, if_neg hs] at h
            cases h
    | number | boolean | string | list => cases h
  · rintro ⟨rfl, hsymbol, hkeyword, hprimitive⟩
    simp only [identifier, hkeyword, hprimitive, hsymbol, if_true]

theorem mapM_identifier_eq_ok_iff {ds : List Datum} {xs : List String} :
    ds.mapM identifier = .ok xs ↔ ds = xs.map .symbol ∧ ∀ x ∈ xs, IsIdentifier x := by
  simp only [mapM_eq_ok_iff, identifier_eq_ok_iff]
  induction xs generalizing ds with
  | nil => simp
  | cons x xs ih =>
    rw [List.forall₂_cons_right_iff, List.map_cons, List.forall_mem_cons]
    constructor
    · rintro ⟨d, ds, ⟨rfl, hx⟩, hxs, rfl⟩
      obtain ⟨rfl, hids⟩ := ih.1 hxs
      exact ⟨rfl, hx, hids⟩
    · rintro ⟨rfl, hx, hids⟩
      exact ⟨_, _, ⟨rfl, hx⟩, ih.2 ⟨rfl, hids⟩, rfl⟩

theorem firstRepeat?_eq_none_iff {seen xs : List String} :
    firstRepeat? seen xs = none ↔ xs.Nodup ∧ ∀ x ∈ xs, x ∉ seen := by
  fun_induction firstRepeat? seen xs with
  | case1 seen => simp
  | case2 seen x xs hmem =>
    rw [List.contains_iff_mem] at hmem
    exact ⟨nofun, fun h => absurd hmem (h.2 x List.mem_cons_self)⟩
  | case3 seen x xs hmem ih =>
    rw [List.contains_iff_mem] at hmem
    rw [ih, List.nodup_cons, List.forall_mem_cons]
    constructor
    · rintro ⟨hnodup, hseen⟩
      exact ⟨⟨fun hx => hseen x hx List.mem_cons_self, hnodup⟩, hmem,
        fun y hy hs => hseen y hy (List.mem_cons_of_mem x hs)⟩
    · rintro ⟨⟨hx, hnodup⟩, -, hseen⟩
      refine ⟨hnodup, fun y hy hs => ?_⟩
      rcases List.mem_cons.1 hs with rfl | hs
      · exact hx hy
      · exact hseen y hy hs

theorem requireDistinct_eq_ok_iff {role : ListRole} {xs : List String} {u : Unit} :
    requireDistinct role xs = .ok u ↔ xs.Nodup := by
  have hrepeat : firstRepeat? [] xs = none ↔ xs.Nodup := by
    rw [firstRepeat?_eq_none_iff, and_iff_left fun x _ => List.not_mem_nil]
  rw [requireDistinct, ← hrepeat]
  cases firstRepeat? [] xs with
  | none => exact ⟨fun _ => rfl, fun _ => rfl⟩
  | some x => exact ⟨nofun, nofun⟩

theorem identifiers_eq_ok_iff {role : ListRole} {d : Datum} {xs : List String} :
    identifiers role d = .ok xs ↔ d = nameList xs ∧ AreBinders xs := by
  constructor
  · intro h
    cases d with
    | list ds =>
      obtain ⟨names, hnames, h⟩ := bind_eq_ok.1 h
      obtain ⟨u, hdistinct, h⟩ := bind_eq_ok.1 h
      cases h
      obtain ⟨rfl, hids⟩ := mapM_identifier_eq_ok_iff.1 hnames
      exact ⟨rfl, requireDistinct_eq_ok_iff.1 hdistinct, hids⟩
    | number | boolean | string | symbol => cases h
  · rintro ⟨rfl, hdistinct, hids⟩
    exact bind_eq_ok.2 ⟨xs, mapM_identifier_eq_ok_iff.2 ⟨rfl, hids⟩,
      bind_eq_ok.2 ⟨(), requireDistinct_eq_ok_iff.2 hdistinct, rfl⟩⟩

/-! ### Expressions -/

mutual

/-- The datum denotes the expression. -/
inductive Denotes : Datum → Expr → Prop
  | number (x : Float) : Denotes (.number x) (.number x)
  | boolean (b : Bool) : Denotes (.boolean b) (.boolean b)
  | string (s : String) : Denotes (.string s) (.string s)
  | primitive (p : Primitive) : Denotes (.symbol p.name) (.primitive p)
  | var {x : String} (name : IsIdentifier x) : Denotes (.symbol x) (.var x)
  | cond {a b c : Datum} {e₁ e₂ e₃ : Expr} (test : Denotes a e₁) (onTrue : Denotes b e₂) (onFalse : Denotes c e₃) :
    Denotes (.list [.symbol Keyword.cond.name, a, b, c]) (.cond e₁ e₂ e₃)
  | lambda {xs : List String} {ds : List Datum} {es : List Expr} (binders : AreBinders xs) (nonempty : es ≠ [])
    (body : DenotesAll ds es) : Denotes (.list (.symbol Keyword.lambda.name :: nameList xs :: ds)) (.lambda xs es)
  | app {d : Datum} {ds : List Datum} {e : Expr} {es : List Expr} (noKeyword : keywordOf? d = none)
    (operator : Denotes d e) (operands : DenotesAll ds es) : Denotes (.list (d :: ds)) (.app e es)
  | letIn {pairs ds : List Datum} {bs : List (String × Expr)} {es : List Expr}
    (binders : AreBinders (bs.map Prod.fst)) (nonempty : es ≠ []) (bindings : DenotesPairs pairs bs)
    (body : DenotesAll ds es) : Denotes (.list (.symbol Keyword.letIn.name :: .list pairs :: ds)) (.letIn bs es)
  | quoted (d : Datum) : Denotes (.list [.symbol Keyword.quote.name, d]) (.quoted (Value.ofDatum d))
  | classDef {xs : List String} {pairs : List Datum} {bs : List (String × Expr)} (binders : AreBinders xs)
    (names : AreBinders (bs.map Prod.fst)) (methods : DenotesPairs pairs bs) :
    Denotes (.list [.symbol Keyword.classDef.name, nameList xs, .list pairs]) (.classDef xs bs)

/-- The data denote the expressions, one for one. -/
inductive DenotesAll : List Datum → List Expr → Prop
  | nil : DenotesAll [] []
  | cons {d : Datum} {ds : List Datum} {e : Expr} {es : List Expr} (head : Denotes d e) (tail : DenotesAll ds es) :
    DenotesAll (d :: ds) (e :: es)

/-- The data denote the bindings, one for one: each is a list of a name and a datum. -/
inductive DenotesPairs : List Datum → List (String × Expr) → Prop
  | nil : DenotesPairs [] []
  | cons {x : String} {d : Datum} {ds : List Datum} {e : Expr} {bs : List (String × Expr)} (name : IsIdentifier x)
    (value : Denotes d e) (tail : DenotesPairs ds bs) :
    DenotesPairs (.list [.symbol x, d] :: ds) ((x, e) :: bs)

end

/-- The datum denotes the form of the top level: an expression, or a definition. -/
inductive DenotesForm : Datum → Expr → Prop
  | expr {d : Datum} {e : Expr} (expr : Denotes d e) : DenotesForm d e
  | define {x : String} {d : Datum} {e : Expr} (name : IsIdentifier x) (value : Denotes d e) :
    DenotesForm (.list [.symbol Keyword.define.name, .symbol x, d]) (.define x e)

/-! ### What is read is denoted -/

theorem keywordOf?_eq_some {d : Datum} {k : Keyword} (h : keywordOf? d = some k) : d = .symbol k.name := by
  cases d with
  | symbol s => rw [← Keyword.ofName?_eq_some_iff.1 h]
  | number | boolean | string | list => cases h

theorem keywordOf?_name (k : Keyword) : keywordOf? (.symbol k.name) = some k :=
  Keyword.ofName?_eq_some_iff.2 rfl

theorem Expr.denotes_ofSymbol {s : String} {e : Expr} (h : Expr.ofSymbol s = .ok e) : Denotes (.symbol s) e := by
  rw [Expr.ofSymbol] at h
  cases hp : Primitive.ofName? s with
  | some p =>
    simp only [hp] at h
    cases h
    rw [← Primitive.ofName?_eq_some_iff.1 hp]
    exact .primitive p
  | none =>
    cases hk : Keyword.ofName? s with
    | some k => simp only [hp, hk] at h; cases h
    | none =>
      simp only [hp, hk] at h
      obtain ⟨x, hx, rfl⟩ := map_eq_ok.1 h
      obtain ⟨hs, hid⟩ := identifier_eq_ok_iff.1 hx
      cases hs
      exact .var hid

theorem DenotesAll.ne_nil {ds : List Datum} {es : List Expr} (h : DenotesAll ds es) : es ≠ [] ↔ ds ≠ [] := by
  cases h <;> simp

theorem requireBody_eq_ok_iff {k : Keyword} {body : List Datum} {u : Unit} :
    requireBody k body = .ok u ↔ body ≠ [] := by
  cases body with
  | nil => exact ⟨nofun, fun h => absurd rfl h⟩
  | cons d ds => exact ⟨fun _ => List.cons_ne_nil d ds, fun _ => rfl⟩

theorem DenotesPairs.identifiers {ds : List Datum} {bs : List (String × Expr)} (h : DenotesPairs ds bs) :
    ∀ x ∈ bs.map Prod.fst, IsIdentifier x := by
  induction bs generalizing ds with
  | nil => exact fun x hx => absurd hx List.not_mem_nil
  | cons b bs ih =>
    cases h with
    | cons name value tail => exact List.forall_mem_cons.2 ⟨name, ih tail⟩

mutual

/-- **What is read is denoted**, by the recursion of the datum. -/
theorem Expr.denotes_ofDatum : ∀ (d : Datum) {e : Expr}, Expr.ofDatum d = .ok e → Denotes d e
  | .number x, _, h => by cases h; exact .number x
  | .boolean b, _, h => by cases h; exact .boolean b
  | .string s, _, h => by cases h; exact .string s
  | .symbol _, _, h => Expr.denotes_ofSymbol h
  | .list [], _, h => by cases h
  | .list (head :: rest), e, h => by
    rw [Expr.ofDatum.eq_def] at h
    cases hk : keywordOf? head with
    | none =>
      simp only [hk] at h
      obtain ⟨operator, hoperator, h⟩ := bind_eq_ok.1 h
      obtain ⟨operands, hoperands, h⟩ := bind_eq_ok.1 h
      cases h
      exact .app hk (Expr.denotes_ofDatum head hoperator) (Expr.denotesAll_ofData rest hoperands)
    | some k =>
      simp only [hk] at h
      rw [keywordOf?_eq_some hk]
      cases k with
      | quote =>
        match rest, h with
        | [d], h => cases h; exact .quoted d
        | [], h => cases h
        | _ :: _ :: _, h => cases h
      | cond =>
        match rest, h with
        | [a, b, c], h =>
          obtain ⟨test, htest, h⟩ := bind_eq_ok.1 h
          obtain ⟨onTrue, hTrue, h⟩ := bind_eq_ok.1 h
          obtain ⟨onFalse, hFalse, h⟩ := bind_eq_ok.1 h
          cases h
          exact .cond (Expr.denotes_ofDatum a htest) (Expr.denotes_ofDatum b hTrue) (Expr.denotes_ofDatum c hFalse)
        | [], h => cases h
        | [_], h => cases h
        | [_, _], h => cases h
        | _ :: _ :: _ :: _ :: _, h => cases h
      | lambda =>
        match rest, h with
        | [], h => cases h
        | params :: body, h =>
          obtain ⟨xs, hparams, h⟩ := bind_eq_ok.1 h
          obtain ⟨u, hne, h⟩ := bind_eq_ok.1 h
          obtain ⟨es, hbody, h⟩ := bind_eq_ok.1 h
          cases h
          obtain ⟨rfl, hbinders⟩ := identifiers_eq_ok_iff.1 hparams
          have hall := Expr.denotesAll_ofData body hbody
          exact .lambda hbinders (hall.ne_nil.2 (requireBody_eq_ok_iff.1 hne)) hall
      | letIn =>
        match rest, h with
        | [], h => cases h
        | .list pairs :: body, h =>
          obtain ⟨bindings, hbindings, h⟩ := bind_eq_ok.1 h
          obtain ⟨u, hdistinct, h⟩ := bind_eq_ok.1 h
          obtain ⟨u', hne, h⟩ := bind_eq_ok.1 h
          obtain ⟨es, hbody, h⟩ := bind_eq_ok.1 h
          cases h
          have hpairs := Expr.denotesPairs_ofPairs pairs hbindings
          have hall := Expr.denotesAll_ofData body hbody
          exact .letIn ⟨requireDistinct_eq_ok_iff.1 hdistinct, hpairs.identifiers⟩
            (hall.ne_nil.2 (requireBody_eq_ok_iff.1 hne)) hpairs hall
        | .number _ :: _, h | .boolean _ :: _, h | .string _ :: _, h | .symbol _ :: _, h => cases h
      | classDef =>
        match rest, h with
        | [fields, .list pairs], h =>
          obtain ⟨xs, hfields, h⟩ := bind_eq_ok.1 h
          obtain ⟨methods, hmethods, h⟩ := bind_eq_ok.1 h
          obtain ⟨u, hdistinct, h⟩ := bind_eq_ok.1 h
          cases h
          obtain ⟨rfl, hbinders⟩ := identifiers_eq_ok_iff.1 hfields
          have hpairs := Expr.denotesPairs_ofPairs pairs hmethods
          exact .classDef hbinders ⟨requireDistinct_eq_ok_iff.1 hdistinct, hpairs.identifiers⟩ hpairs
        | [fields, .number _], h | [fields, .boolean _], h | [fields, .string _], h | [fields, .symbol _], h =>
          obtain ⟨xs, hfields, h⟩ := bind_eq_ok.1 h
          cases h
        | [], h => cases h
        | [_], h => cases h
        | _ :: d :: _ :: _, h => cases d <;> cases h
      | define | program => cases h
termination_by structural d => d

theorem Expr.denotesAll_ofData : ∀ (ds : List Datum) {es : List Expr}, Expr.ofData ds = .ok es → DenotesAll ds es
  | [], _, h => by cases h; exact .nil
  | d :: ds, _, h => by
    obtain ⟨e, he, h⟩ := bind_eq_ok.1 h
    obtain ⟨es, hes, h⟩ := bind_eq_ok.1 h
    cases h
    exact .cons (Expr.denotes_ofDatum d he) (Expr.denotesAll_ofData ds hes)
termination_by structural ds => ds

theorem Expr.denotesPairs_ofPairs {role : ListRole} : ∀ (ds : List Datum) {bs : List (String × Expr)},
    Expr.ofPairs role ds = .ok bs → DenotesPairs ds bs
  | [], _, h => by cases h; exact .nil
  | .list [name, value] :: ds, _, h => by
    obtain ⟨x, hx, h⟩ := bind_eq_ok.1 h
    obtain ⟨e, he, h⟩ := bind_eq_ok.1 h
    obtain ⟨bs, hbs, h⟩ := bind_eq_ok.1 h
    cases h
    obtain ⟨rfl, hid⟩ := identifier_eq_ok_iff.1 hx
    exact .cons hid (Expr.denotes_ofDatum value he) (Expr.denotesPairs_ofPairs ds hbs)
  | .number _ :: _, _, h | .boolean _ :: _, _, h | .string _ :: _, _, h | .symbol _ :: _, _, h
  | .list [] :: _, _, h | .list [_] :: _, _, h | .list (_ :: _ :: _ :: _) :: _, _, h => by cases h
termination_by structural ds => ds

end

/-! ### What is denoted is read -/

theorem Expr.ofSymbol_identifier {x : String} (h : IsIdentifier x) : Expr.ofSymbol x = .ok (.var x) := by
  simp only [Expr.ofSymbol, h.noPrimitive, h.noKeyword, identifier_eq_ok_iff.2 ⟨rfl, h⟩]
  rfl

theorem Expr.ofSymbol_primitive (p : Primitive) : Expr.ofSymbol p.name = .ok (.primitive p) := by
  simp only [Expr.ofSymbol, Primitive.ofName?_eq_some_iff.2 rfl]

mutual

/-- **What is denoted is read.** -/
theorem Denotes.ofDatum_eq {d : Datum} {e : Expr} : Denotes d e → Expr.ofDatum d = .ok e
  | .number _ | .boolean _ | .string _ | .quoted _ => rfl
  | .primitive p => Expr.ofSymbol_primitive p
  | .var name => Expr.ofSymbol_identifier name
  | .cond test onTrue onFalse =>
    bind_eq_ok.2 ⟨_, test.ofDatum_eq, bind_eq_ok.2 ⟨_, onTrue.ofDatum_eq, bind_eq_ok.2 ⟨_, onFalse.ofDatum_eq, rfl⟩⟩⟩
  | .lambda binders nonempty body =>
    bind_eq_ok.2 ⟨_, identifiers_eq_ok_iff.2 ⟨rfl, binders⟩,
      bind_eq_ok.2 ⟨(), requireBody_eq_ok_iff.2 (body.ne_nil.1 nonempty),
        bind_eq_ok.2 ⟨_, body.ofData_eq, rfl⟩⟩⟩
  | .app noKeyword operator operands => by
    rw [Expr.ofDatum.eq_def]
    simp only [noKeyword]
    exact bind_eq_ok.2 ⟨_, operator.ofDatum_eq, bind_eq_ok.2 ⟨_, operands.ofData_eq, rfl⟩⟩
  | .letIn binders nonempty bindings body =>
    bind_eq_ok.2 ⟨_, bindings.ofPairs_eq .binding, bind_eq_ok.2 ⟨(), requireDistinct_eq_ok_iff.2 binders.distinct,
      bind_eq_ok.2 ⟨(), requireBody_eq_ok_iff.2 (body.ne_nil.1 nonempty), bind_eq_ok.2 ⟨_, body.ofData_eq, rfl⟩⟩⟩⟩
  | .classDef binders names methods =>
    bind_eq_ok.2 ⟨_, identifiers_eq_ok_iff.2 ⟨rfl, binders⟩, bind_eq_ok.2 ⟨_, methods.ofPairs_eq .method,
      bind_eq_ok.2 ⟨(), requireDistinct_eq_ok_iff.2 names.distinct, rfl⟩⟩⟩

theorem DenotesAll.ofData_eq {ds : List Datum} {es : List Expr} : DenotesAll ds es → Expr.ofData ds = .ok es
  | .nil => rfl
  | .cons head tail => bind_eq_ok.2 ⟨_, head.ofDatum_eq, bind_eq_ok.2 ⟨_, tail.ofData_eq, rfl⟩⟩

theorem DenotesPairs.ofPairs_eq {ds : List Datum} {bs : List (String × Expr)} (role : ListRole) :
    DenotesPairs ds bs → Expr.ofPairs role ds = .ok bs
  | .nil => rfl
  | .cons name value tail =>
    bind_eq_ok.2 ⟨_, identifier_eq_ok_iff.2 ⟨rfl, name⟩,
      bind_eq_ok.2 ⟨_, value.ofDatum_eq, bind_eq_ok.2 ⟨_, tail.ofPairs_eq role, rfl⟩⟩⟩

end

/-- **A datum is read as exactly the expression that it denotes.** -/
theorem Expr.ofDatum_eq_ok_iff {d : Datum} {e : Expr} : Expr.ofDatum d = .ok e ↔ Denotes d e :=
  ⟨Expr.denotes_ofDatum d, Denotes.ofDatum_eq⟩

/-! ### Forms -/

/-- Where a datum denotes an expression, no keyword heads it that belongs to the top level. -/
theorem Denotes.formOfDatum_eq {d : Datum} {e : Expr} (h : Denotes d e) : Program.formOfDatum d = .ok e := by
  have hread := h.ofDatum_eq
  cases h with
  | app noKeyword => simpa only [Program.formOfDatum, noKeyword] using hread
  | _ => exact hread

/-- **A datum is read as exactly the form that it denotes.** -/
theorem Program.formOfDatum_eq_ok_iff {d : Datum} {e : Expr} : Program.formOfDatum d = .ok e ↔ DenotesForm d e := by
  constructor
  · intro h
    fun_cases Program.formOfDatum d with
    | case1 head hk name value =>
      rw [Program.formOfDatum, hk] at h
      obtain ⟨x, hx, h⟩ := bind_eq_ok.1 h
      obtain ⟨e, he, h⟩ := bind_eq_ok.1 h
      cases h
      obtain ⟨rfl, hid⟩ := identifier_eq_ok_iff.1 hx
      rw [keywordOf?_eq_some hk]
      exact .define hid (Expr.denotes_ofDatum value he)
    | case2 head rest hk hshape =>
      simp only [Program.formOfDatum, hk] at h
      cases h
    | case3 head rest hk =>
      simp only [Program.formOfDatum] at h
      exact .expr (Expr.denotes_ofDatum _ h)
    | case4 d hd =>
      rw [Program.formOfDatum] at h
      · exact .expr (Expr.denotes_ofDatum _ h)
      · exact hd
  · intro h
    cases h with
    | expr expr => exact expr.formOfDatum_eq
    | define name value =>
      exact bind_eq_ok.2 ⟨_, identifier_eq_ok_iff.2 ⟨rfl, name⟩, bind_eq_ok.2 ⟨_, value.ofDatum_eq, rfl⟩⟩

/-! ### Programs -/

theorem Program.unwrapped_program (ds : List Datum) :
    Program.unwrapped [.list (.symbol Keyword.program.name :: ds)] = ds := by
  simp only [Program.unwrapped, keywordOf?_name]

/-- The keyword of programs stands around the forms, or they are the data themselves. -/
theorem Program.unwrapped_cases (ds : List Datum) :
    (∃ forms, ds = [.list (.symbol Keyword.program.name :: forms)]) ∨ Program.unwrapped ds = ds := by
  fun_cases Program.unwrapped ds with
  | case1 head forms hk => exact .inl ⟨forms, by rw [keywordOf?_eq_some hk]⟩
  | case2 | case3 => exact .inr rfl

/-- The forms of a text, with the keyword of programs around them or without. -/
theorem Program.forms_of_ofText {text : String} {p : Program} (h : Program.ofText text = .ok p) :
    ∃ ds, Datum.allOfText text = .ok ds ∧ List.Forall₂ DenotesForm (Program.unwrapped ds) p.forms := by
  obtain ⟨ds, hds, h⟩ := bind_eq_ok.1 h
  obtain ⟨forms, hforms, h⟩ := bind_eq_ok.1 (mapError_eq_ok h)
  cases h
  refine ⟨ds, hds, (mapM_eq_ok_iff.1 hforms).imp fun d e h => Program.formOfDatum_eq_ok_iff.1 h⟩

end SubstModel

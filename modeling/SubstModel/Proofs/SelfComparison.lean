import SubstModel.Proofs.Address
import SubstModel.Proofs.Equality
import SubstModel.Proofs.UniqueNames

/-!
# Comparing a variable with itself

An argument is put in for its parameter at every place, and a closure is put in as a procedure.  So where a parameter is
compared with itself, two copies of one procedure are compared.  They are equal as long as no names are made fresh in
them.  But an application further inside makes all names fresh that its body binds, those of the copies among them, and
of two copies each gets names of its own.  Contents are compared with the names in them, and then the copies differ.

* `Stands` — the places that the comparison of a parameter with itself gets to, with the number of bodies entered since;
* `CopyOf`, `Twins` — what is known of one copy, and of the two;
* `Stands.comparesAt` — **at such a place two copies are compared, and names bound on the way do not touch them**;
* `self_comparison` — **a parameter equals itself where no further body has been entered or its value binds no name, and
  nowhere else**;
* `self_comparison_not_always_true` — a program in which one does not.
-/

namespace SubstModel

/-! ### Places -/

/-- The comparison of the contents of two expressions. -/
def Expr.comparison (a b : Expr) : Expr :=
  .app (.primitive .equal) [a, b]

/-- At the address of the expression stands what has become of the comparison of a parameter with itself, after the
value was bound to the parameter.  Since then `k` bodies around the place have been entered: each time its procedure was
applied, its local names were bound, its class was made an object or its method was called. -/
inductive Stands (v : Value) : Nat → Expr → Address → Prop
  /-- A call binds the value to a parameter `g`.  In what it evaluates, `g` is compared with itself, and no binder on
  the way there rebinds it. -/
  | bound {c : Call} {g : String} {i : Nat} {e e' : Expr} {p : Address} (older : c.Older)
    (binds : (c.binders.zip c.args).lookup g = some v) (form : c.exprs[i]? = some e)
    (compares : e.at? p = some (.comparison (.var g) (.var g))) (free : g ∉ e.boundOn p)
    (result : c.instantiated[i]? = some e') : Stands v 0 e' p
  /-- A part is evaluated. -/
  | part {k i : Nat} {e e' : Expr} {p : Address} (whole : Stands v k e (.outer i :: p))
    (piece : e.outer[i]? = some e') : Stands v k e' p
  /-- A body is entered. -/
  | entered {c : Call} {k i : Nat} {e e' : Expr} {p : Address} (older : c.Older)
    (whole : Stands v k e (.inner i :: p)) (binders : c.binders = e.binders) (exprs : c.exprs = e.inner)
    (result : c.instantiated[i]? = some e') : Stands v (k + 1) e' p
  /-- The procedure in whose body the place is becomes an argument, and stands where its parameter stood. -/
  | passed {c : Call} {k i : Nat} {r : Ref} {params : List String} {body : List Expr} {x : String} {e e' : Expr}
    {p q : Address} (older : c.Older) (whole : Stands v k (.lambda params body) p)
    (binds : (c.binders.zip c.args).lookup x = some (.closure r params body)) (form : c.exprs[i]? = some e)
    (place : e.at? q = some (.var x)) (free : x ∉ e.boundOn q) (result : c.instantiated[i]? = some e') :
    Stands v k e' (q ++ p)

/-- The procedure that gives back its argument, to show such a place. -/
def identityProcedure : Value :=
  .closure 0 ["y"] [.var "y"]

/-- The application `((lambda (x) (equal? g g)) 1)`, with the identity for `g`. -/
def outerCall : Call :=
  ⟨{}, ["g"], [.app (.lambda ["x"] [.comparison (.var "g") (.var "g")]) [.number 1]], [identityProcedure], .empty⟩

/-- The body of that application. -/
def innerCall : Call :=
  ⟨⟨1, 1⟩, ["x#1"], [.comparison identityProcedure.toExpr identityProcedure.toExpr], [.number 1], .empty⟩

theorem older_outerCall : outerCall.Older where
  binders x hx := by
    cases List.mem_singleton.1 hx
    exact numberedUpTo_of_no_hash (by decide) 0
  exprs x hx := by
    simp only [outerCall, Expr.comparison, Expr.OccursFreeAny, Expr.OccursFree, or_false, false_or, or_self] at hx
    rw [hx.2]
    exact numberedUpTo_of_no_hash (by decide) 0
  args v hv x hx := by
    cases List.mem_singleton.1 hv
    exact absurd (List.mem_singleton.2 (hx.2.resolve_right id)) hx.1

theorem older_innerCall : innerCall.Older where
  binders x hx := by
    cases List.mem_singleton.1 hx
    exact numberedUpTo_freshName (x := "x").2 (Nat.le_refl 1)
  exprs x hx := by
    simp [innerCall, identityProcedure, Value.toExpr, Expr.comparison, Expr.OccursFreeAny, Expr.OccursFree] at hx
  args v hv x hx := by
    cases List.mem_singleton.1 hv
    exact hx.elim

theorem stands_innerCall : Stands identityProcedure 1
    (.comparison (.lambda ["y#2"] [.var "y#2"]) (.lambda ["y#3"] [.var "y#3"])) [] := by
  have hbound : Stands identityProcedure 0
      (.app (.lambda ["x#1"] [.comparison identityProcedure.toExpr identityProcedure.toExpr]) [.number 1])
      [.outer 0, .inner 0] :=
    .bound older_outerCall (g := "g") (i := 0) rfl rfl rfl (by decide) rfl
  exact .entered older_innerCall (i := 0) (.part hbound rfl) rfl rfl rfl

/-! ### Copies -/

/-- A procedure, but for the names that it binds. -/
structure CopyOf (original e : Expr) : Prop where
  lambda : ∃ params body, e = .lambda params body
  count : e.binderCount = original.binderCount
  free : ∀ x, e.OccursFree x ↔ original.OccursFree x
  binderless : original.binderCount = 0 → e = original

section Copies

variable {original a b : Expr} {m n : Nat} {Γ : Scope} {σ : Substitution}

theorem CopyOf.rename (h : CopyOf original a) (hΓ : ∀ x, original.OccursFree x → Γ.resolve x = x)
    (hold : ∀ x, original.OccursFree x → NumberedUpTo m x) (hm : m ≤ n) : CopyOf original (a.rename n Γ) where
  lambda := by
    obtain ⟨params, body, rfl⟩ := h.lambda
    exact ⟨_, _, rfl⟩
  count := (Expr.binderCount_rename a n Γ).trans h.count
  free x := by
    rw [Expr.rename_eq_rename_nil fun y hy => hΓ y ((h.free y).1 hy)]
    exact ((Expr.sameUpToBinders_rename hm fun y hy => hold y ((h.free y).1 hy)).free x).trans (h.free x)
  binderless hcount :=
    (Expr.rename_of_binderCount (fun y hy => hΓ y ((h.free y).1 hy)) (h.count.trans hcount)).trans
      (h.binderless hcount)

theorem CopyOf.substitute_eq (h : CopyOf original a) (hσ : ∀ x, original.OccursFree x → σ.lookup x = none) :
    a.substitute σ = a :=
  Expr.substitute_of_occursFree a fun x hx => hσ x ((h.free x).1 hx)

/-- Two copies of a procedure, after `k` bodies have been entered. -/
structure Twins (original : Expr) (k : Nat) (a b : Expr) : Prop where
  left : CopyOf original a
  right : CopyOf original b
  untouched : k = 0 → a = original ∧ b = original
  apart : 0 < k → 0 < original.binderCount → a.boundNames ≠ b.boundNames

theorem freshNames_ne {xs ys : List String} (hmn : m < n) (hxs : xs ≠ []) : freshNames m xs ≠ freshNames n ys := by
  cases xs with
  | nil => exact absurd rfl hxs
  | cons x xs =>
    cases ys with
    | nil => exact nofun
    | cons y ys =>
      intro h
      have hnumber := (freshName_eq_iff.1 (List.cons.inj h).1).1
      omega

/-- **Where a body is entered, the copies get names of their own.** -/
theorem Twins.entered {k : Nat} (h : Twins original k a b) (hΓ : ∀ x, original.OccursFree x → Γ.resolve x = x)
    (hold : ∀ x, original.OccursFree x → NumberedUpTo m x) (hm : m ≤ n)
    (hσ : ∀ x, original.OccursFree x → σ.lookup x = none) :
    Twins original (k + 1) ((a.rename n Γ).substitute σ) ((b.rename (n + a.binderCount) Γ).substitute σ) := by
  have ha := h.left.rename hΓ hold hm
  have hb := h.right.rename hΓ hold (Nat.le_trans hm (Nat.le_add_right n a.binderCount))
  rw [ha.substitute_eq hσ, hb.substitute_eq hσ]
  refine ⟨ha, hb, fun hk => absurd hk k.succ_ne_zero, fun _ hcount => ?_⟩
  rw [Expr.boundNames_rename, Expr.boundNames_rename]
  rw [← h.left.count] at hcount
  refine freshNames_ne (Nat.lt_add_of_pos_right hcount) fun hnil => ?_
  rw [← Expr.length_boundNames, hnil] at hcount
  exact Nat.lt_irrefl 0 hcount

end Copies

/-! ### Two copies at each place -/

/-- At the address two copies of the procedure are compared, and its free variables are not bound on the way there. -/
structure ComparesAt (original : Expr) (k : Nat) (e : Expr) (p : Address) : Prop where
  twins : ∃ a b, e.at? p = some (.comparison a b) ∧ Twins original k a b
  unbound : ∀ x, original.OccursFree x → x ∉ e.boundOn p

section Places

variable {original : Expr} {k i : Nat} {e e' : Expr} {p q : Address} {c : Call}

/-- What is free in the procedure is free in what holds the copies. -/
theorem ComparesAt.occursFree (h : ComparesAt original k e p) {x : String} (hx : original.OccursFree x) :
    e.OccursFree x := by
  obtain ⟨⟨a, b, hat, htwins⟩, hunbound⟩ := h
  exact Expr.occursFree_of_at? hat (.inr (.inl ((htwins.left.free x).2 hx))) (hunbound x hx)

theorem ComparesAt.outer (h : ComparesAt original k e (.outer i :: p)) (piece : e.outer[i]? = some e') :
    ComparesAt original k e' p := by
  obtain ⟨⟨a, b, hat, htwins⟩, hunbound⟩ := h
  obtain ⟨part, hpart, hat⟩ := Expr.at?_outer_iff.1 hat
  cases hpart.symm.trans piece
  rw [Expr.boundOn_outer piece] at hunbound
  exact ⟨⟨a, b, hat, htwins⟩, hunbound⟩

theorem ComparesAt.inner (h : ComparesAt original k e (.inner i :: p)) :
    ∃ part, e.inner[i]? = some part ∧ ComparesAt original k part p ∧ ∀ x, original.OccursFree x → x ∉ e.binders := by
  obtain ⟨⟨a, b, hat, htwins⟩, hunbound⟩ := h
  obtain ⟨part, hpart, hat⟩ := Expr.at?_inner_iff.1 hat
  simp only [Expr.boundOn_inner hpart, List.mem_append, not_or] at hunbound
  exact ⟨part, hpart, ⟨⟨a, b, hat, htwins⟩, fun x hx => (hunbound x hx).2⟩, fun x hx => (hunbound x hx).1⟩

theorem Call.mem_of_binds {x : String} {v : Value} (binds : (c.binders.zip c.args).lookup x = some v) :
    x ∈ c.binders ∧ v ∈ c.args :=
  List.of_mem_zip (mem_of_lookup_eq_some binds)

/-- A variable that nothing binds on the way to it is replaced by the argument for it. -/
theorem Call.Older.substitute_var (older : c.Older) {x : String} {v : Value}
    (binds : (c.binders.zip c.args).lookup x = some v) {m : Nat} {Δ : Scope} (hΔ : Δ.resolve x = x) {ys : List String}
    (hys : ∀ y ∈ ys, ¬ NumberedUpTo c.supply.issued y) :
    ((Expr.var x).rename m Δ).substitute (c.substitution.without ys) = v.toExpr := by
  have hx : x ∉ ys := fun hmem => hys x hmem (older.binders x (mem_of_binds binds).1)
  rw [Expr.rename, hΔ, Expr.substitute, Substitution.apply, Substitution.lookup_without, if_neg hx,
    c.lookup_substitution, binds]
  rfl

variable {r : Ref} {params : List String} {body : List Expr} {x : String} (older : c.Older)
  (result : c.instantiated[i]? = some e')

include older result

/-- Where the parameter was, there are now two copies of the procedure. -/
theorem comparesAt_bound (binds : (c.binders.zip c.args).lookup x = some (.closure r params body))
    (form : c.exprs[i]? = some e) (compares : e.at? p = some (.comparison (.var x) (.var x)))
    (free : x ∉ e.boundOn p) : ComparesAt (.lambda params body) 0 e' p := by
  obtain ⟨m, Δ, hat, -, hΔ, hnew⟩ := Call.at?_instantiated form result compares
  have hcopy : CopyOf (.lambda params body) (.lambda params body) :=
    ⟨⟨_, _, rfl⟩, rfl, fun _ => Iff.rfl, fun _ => rfl⟩
  have hcopies := congrArg₂ Expr.comparison (older.substitute_var binds (m := m) (hΔ x free) hnew)
    (older.substitute_var binds (m := m) (hΔ x free) hnew)
  refine ⟨⟨_, _, hat.trans (congrArg some hcopies), hcopy, hcopy, fun _ => ⟨rfl, rfl⟩, fun hk => ?_⟩,
    fun y hy hmem => ?_⟩
  · exact absurd hk (Nat.lt_irrefl 0)
  · exact hnew y hmem (older.args _ (Call.mem_of_binds binds).2 y hy)

/-- Where a body is entered, both copies are renamed.  Nothing else happens to them: the names that are replaced were
bound around them, so they are not free in the copies. -/
theorem ComparesAt.entered (h : ComparesAt original k e p) (hbinders : ∀ x, original.OccursFree x → x ∉ c.binders)
    (form : c.exprs[i]? = some e) : ComparesAt original (k + 1) e' p := by
  have hold : ∀ x, original.OccursFree x → NumberedUpTo c.supply.issued x := fun x hx =>
    older.exprs x (Expr.occursFreeAny_iff.2 ⟨e, List.mem_of_getElem? form, h.occursFree hx⟩)
  obtain ⟨⟨a, b, hat, htwins⟩, hunbound⟩ := h
  obtain ⟨m, Δ, hat', hm, hΔ, hnew⟩ := Call.at?_instantiated form result hat
  refine ⟨⟨_, _, hat', htwins.entered (fun x hx => hΔ x (hunbound x hx)) hold hm fun x hx => ?_⟩,
    fun x hx hmem => hnew x hmem (hold x hx)⟩
  exact Substitution.lookup_without_eq_none (Call.lookup_substitution_eq_none (hbinders x hx)) _

/-- Where the procedure that holds the copies is put in, they are found as they were. -/
theorem ComparesAt.passed (h : ComparesAt original k (.lambda params body) p)
    (binds : (c.binders.zip c.args).lookup x = some (.closure r params body)) (form : c.exprs[i]? = some e)
    (place : e.at? q = some (.var x)) (free : x ∉ e.boundOn q) : ComparesAt original k e' (q ++ p) := by
  obtain ⟨m, Δ, hat', -, hΔ, hnew⟩ := Call.at?_instantiated form result place
  rw [older.substitute_var binds (hΔ x free) hnew, Value.toExpr] at hat'
  obtain ⟨happend, hbound⟩ := Expr.at?_append hat' p
  have hold : ∀ y, original.OccursFree y → y ∉ e'.boundOn q := fun y hy hmem =>
    hnew y hmem (older.args _ (Call.mem_of_binds binds).2 y (h.occursFree hy))
  obtain ⟨⟨a, b, hat, htwins⟩, hunbound⟩ := h
  refine ⟨⟨a, b, happend.trans hat, htwins⟩, fun y hy => ?_⟩
  rw [hbound, List.mem_append, not_or]
  exact ⟨hold y hy, hunbound y hy⟩

end Places

/-- **At such a place two copies of the procedure are compared.**  The names that are bound on the way are generated
after the procedure was put in, so none of them is free in it. -/
theorem Stands.comparesAt {r : Ref} {params : List String} {body : List Expr} {k : Nat} {e : Expr} {p : Address}
    (h : Stands (.closure r params body) k e p) : ComparesAt (.lambda params body) k e p := by
  induction h with
  | bound older binds form compares free result => exact comparesAt_bound older result binds form compares free
  | part whole piece ih => exact ih.outer piece
  | entered older whole binders exprs result ih =>
    obtain ⟨part, hpart, hcompares, hbinders⟩ := ih.inner
    exact hcompares.entered older result (fun x hx => binders ▸ hbinders x hx) (exprs ▸ hpart)
  | passed older whole binds form place free result ih => exact ih.passed older result binds form place free

/-! ### The outcome -/

mutual

theorem Expr.boundNames_contents : ∀ e : Expr, e.contents.boundNames = e.boundNames
  | .number _ | .boolean _ | .string _ | .primitive _ | .var _ | .quoted _ => rfl
  | .cond a b c => by
    rw [Expr.contents, Expr.boundNames, Expr.boundNames_contents a, Expr.boundNames_contents b,
      Expr.boundNames_contents c, Expr.boundNames]
  | .lambda params body => by rw [Expr.contents, Expr.boundNames, Expr.boundNamesAll_contents body, Expr.boundNames]
  | .app f es => by
    rw [Expr.contents, Expr.boundNames, Expr.boundNames_contents f, Expr.boundNamesAll_contents es, Expr.boundNames]
  | .letIn bs body => by
    rw [Expr.contents, Expr.boundNames, Expr.boundNamesPairs_contents bs, Expr.map_fst_contentsPairs,
      Expr.boundNamesAll_contents body, Expr.boundNames]
  | .define _ e => Expr.boundNames_contents e
  | .classDef fields methods => by
    rw [Expr.contents, Expr.boundNames, Expr.boundNamesPairs_contents methods, Expr.boundNames]
termination_by structural e => e

theorem Expr.boundNamesAll_contents : ∀ es : List Expr,
    Expr.boundNamesAll (Expr.contentsAll es) = Expr.boundNamesAll es
  | [] => rfl
  | e :: es => by
    rw [Expr.contentsAll, Expr.boundNamesAll, Expr.boundNames_contents e, Expr.boundNamesAll_contents es,
      Expr.boundNamesAll]
termination_by structural es => es

theorem Expr.boundNamesPairs_contents : ∀ bs : List (String × Expr),
    Expr.boundNamesPairs (Expr.contentsPairs bs) = Expr.boundNamesPairs bs
  | [] => rfl
  | (_, e) :: bs => by
    rw [Expr.contentsPairs, Expr.boundNamesPairs, Expr.boundNames_contents e, Expr.boundNamesPairs_contents bs,
      Expr.boundNamesPairs]
termination_by structural bs => bs

end

/-- Expressions with equal contents bind the same names. -/
theorem Expr.boundNames_of_same {e e' : Expr} (h : e.same e' = true) : e.boundNames = e'.boundNames := by
  rw [← Expr.boundNames_contents e, ((Expr.same_iff e e').1 h).2, Expr.boundNames_contents]

/-- Evaluation makes closures of two procedures, and compares these. -/
theorem eval_comparison_of_lambdas (config : Config) (n : Nat) (env : Environment) (params params' : List String)
    (body body' : List Expr) (s : Supply) :
    eval config n env (.comparison (.lambda params body) (.lambda params' body')) s =
      if n < 2 then .error (depthFailure config) s
      else .ok (.boolean ((Expr.lambda params body).same (.lambda params' body'))) ⟨s.issued, s.allocated + 2⟩ := by
  match n with
  | 0 | 1 | _ + 2 => rfl

/-- Two copies of a procedure without undefined numbers have equal contents where no body has been entered or the
procedure binds no name. -/
theorem Twins.same_eq {original a b : Expr} {k : Nat} (h : Twins original k a b) (hdefined : original.NoUndefined) :
    a.same b = decide (k = 0 ∨ original.binderCount = 0) := by
  by_cases hequal : k = 0 ∨ original.binderCount = 0
  · have hab : a = original ∧ b = original :=
      hequal.elim h.untouched fun hcount => ⟨h.left.binderless hcount, h.right.binderless hcount⟩
    rw [hab.1, hab.2, (Expr.same_iff original original).2 ⟨hdefined, rfl⟩, decide_eq_true hequal]
  · rw [decide_eq_false hequal, Bool.eq_false_iff]
    rw [not_or] at hequal
    exact fun hsame => h.apart (Nat.pos_of_ne_zero hequal.1) (Nat.pos_of_ne_zero hequal.2)
      (Expr.boundNames_of_same hsame)

/-- **A parameter compared with itself.**  At every place that the comparison gets to, and unless the limit on nested
steps is met, the closure that the parameter was bound to equals itself exactly where no further body has been entered
or the closure binds no name. -/
theorem self_comparison {r : Ref} {params : List String} {body : List Expr} {k : Nat} {e : Expr}
    (defined : (Value.closure r params body).NoUndefined) (place : Stands (.closure r params body) k e [])
    (config : Config) (n : Nat) (env : Environment) (s : Supply) :
    eval config n env e s =
      if n < 2 then .error (depthFailure config) s
      else .ok (.boolean (k = 0 ∨ (Expr.lambda params body).binderCount = 0)) ⟨s.issued, s.allocated + 2⟩ := by
  obtain ⟨⟨a, b, hat, htwins⟩, -⟩ := place.comparesAt
  cases hat
  obtain ⟨params₁, body₁, rfl⟩ := htwins.left.lambda
  obtain ⟨params₂, body₂, rfl⟩ := htwins.right.lambda
  rw [eval_comparison_of_lambdas, htwins.same_eq defined]

/-- In the inner body the identity differs from itself. -/
theorem self_comparison_identity :
    identityProcedure.NoUndefined ∧
      Stands identityProcedure 1 (.comparison (.lambda ["y#2"] [.var "y#2"]) (.lambda ["y#3"] [.var "y#3"])) [] ∧
      eval {} 2 .empty (.comparison (.lambda ["y#2"] [.var "y#2"]) (.lambda ["y#3"] [.var "y#3"])) ⟨3, 3⟩
        = .ok (.boolean false) ⟨3, 5⟩ := by
  have hdefined : identityProcedure.NoUndefined := ⟨trivial, trivial⟩
  exact ⟨hdefined, stands_innerCall, self_comparison hdefined stands_innerCall {} 2 .empty ⟨3, 3⟩⟩

/-- **A parameter does not equal itself everywhere.**  The value of `((lambda (g) ((lambda (x) (equal? g g)) 1)) (lambda
(y) y))` is `#f`. -/
theorem self_comparison_not_always_true :
    evaluate {} .empty
        (.app (.lambda ["g"] [.app (.lambda ["x"] [.comparison (.var "g") (.var "g")]) [.number 1]])
          [.lambda ["y"] [.var "y"]]) {} = .ok (.boolean false) ⟨3, 5⟩ ∧
      ¬ ∀ (r : Ref) (params : List String) (body : List Expr) (k : Nat) (e : Expr),
        (Value.closure r params body).NoUndefined → Stands (.closure r params body) k e [] →
          ∀ config n env s v t, eval config n env e s = .ok v t → v = .boolean true := by
  refine ⟨rfl, fun h => ?_⟩
  have htrue : Value.boolean false = .boolean true :=
    h 0 ["y"] [.var "y"] 1 _ ⟨trivial, trivial⟩ stands_innerCall {} 2 .empty ⟨3, 3⟩ _ ⟨3, 5⟩ rfl
  cases htrue

end SubstModel

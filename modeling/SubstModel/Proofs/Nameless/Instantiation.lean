import SubstModel.Proofs.Nameless.Substitution

/-!
# Instantiation — values in the place of bound variables

A parameter may be bound, or it may stand for a value.  Instantiating the variables that a procedure binds takes the
terms of the one kind to those of the other, so the term of a procedure determines the term of its body for all
arguments.

* `Term.instantiate` — a term with values in the place of the outermost of its bound variables;
* `TermValue.Closed` — nothing in the value can be instantiated;
* `Expr.nameless_instantiate` — **a bound parameter that is instantiated, and one that stands for the value, leave the
  same term**;
* `nameless_application` — **the body of a procedure, ready to be evaluated, leaves the term of the body instantiated**.
-/

namespace SubstModel

variable {ι : Type}

mutual

/-- The term with the values in the place of the variables that are bound outside of it and of `k` binders around it. -/
def Term.instantiate (k : Nat) (vs : List (TermValue ι)) : Term ι → Term ι
  | .number x => .number x
  | .boolean b => .boolean b
  | .string s => .string s
  | .primitive p => .primitive p
  | .free x => .free x
  | .bound i =>
    if i < k then .bound i
    else
      match vs[i - k]? with
      | some v => v.toTerm
      | none => .bound i
  | .cond test onTrue onFalse =>
    .cond (Term.instantiate k vs test) (Term.instantiate k vs onTrue) (Term.instantiate k vs onFalse)
  | .lambda n body => .lambda n (Term.instantiateAll (n + k) vs body)
  | .app operator operands => .app (Term.instantiate k vs operator) (Term.instantiateAll k vs operands)
  | .letIn values body =>
    .letIn (Term.instantiateAll k vs values) (Term.instantiateAll (values.length + k) vs body)
  | .quoted v => .quoted v
  | .define x value => .define x (Term.instantiate k vs value)
  | .classDef n labels methods => .classDef n labels (Term.instantiateAll (n + k) vs methods)
termination_by structural t => t

/-- The terms with the values put in. -/
def Term.instantiateAll (k : Nat) (vs : List (TermValue ι)) : List (Term ι) → List (Term ι)
  | [] => []
  | t :: ts => Term.instantiate k vs t :: Term.instantiateAll k vs ts
termination_by structural ts => ts

end

/-- Nothing in the value can be instantiated. -/
def TermValue.Closed (v : TermValue ι) : Prop :=
  ∀ k vs, v.toTerm.instantiate k vs = v.toTerm

/-- All that names stand for is closed. -/
def Standins.Closed (σ : Standins ι) : Prop :=
  ∀ x v, σ.lookup x = some v → v.Closed

theorem Standins.closed_nil : Standins.Closed ([] : Standins ι) :=
  fun _ _ h => nomatch h

/-! ### Terms that are left as they are -/

theorem Expr.length_namelessPairs (g : Ref → ι) (σ : Standins ι) (scope : List String)
    (bs : List (String × Expr)) : (Expr.namelessPairs g σ scope bs).length = bs.length := by
  rw [Expr.namelessPairs_eq_map, List.length_map]

theorem Standins.Closed.instantiate_ofVar {σ : Standins ι} (hσ : σ.Closed) {scope : List String} {k : Nat}
    (hk : scope.length ≤ k) (vs : List (TermValue ι)) (x : String) :
    (Term.ofVar σ scope x).instantiate k vs = Term.ofVar σ scope x := by
  by_cases hx : x ∈ scope
  · have hlt : scope.idxOf x < k := Nat.lt_of_lt_of_le (List.idxOf_lt_length_of_mem hx) hk
    rw [Term.ofVar_of_mem σ hx, Term.instantiate, if_pos hlt]
  · cases hv : σ.lookup x with
    | some v =>
      rw [Term.ofVar_of_lookup hx hv]
      exact hσ x v hv k vs
    | none =>
      rw [Term.ofVar_of_free hx hv, Term.instantiate]

mutual

/-- Nothing is instantiated that is bound in the scope. -/
theorem Expr.instantiate_nameless (g : Ref → ι) {σ : Standins ι} (hσ : σ.Closed) (vs : List (TermValue ι)) :
    ∀ (e : Expr) {scope : List String} {k : Nat}, scope.length ≤ k →
      (e.nameless g σ scope).instantiate k vs = e.nameless g σ scope
  | .number _, _, _, _ | .boolean _, _, _, _ | .string _, _, _, _ | .primitive _, _, _, _
  | .quoted _, _, _, _ => rfl
  | .var x, _, _, hk => hσ.instantiate_ofVar hk vs x
  | .cond a b c, _, _, hk => by
    rw [Expr.nameless, Term.instantiate, Expr.instantiate_nameless g hσ vs a hk,
      Expr.instantiate_nameless g hσ vs b hk, Expr.instantiate_nameless g hσ vs c hk]
  | .lambda params body, scope, k, hk => by
    have hlen : (params.reverse ++ scope).length ≤ params.length + k := by
      rw [List.length_append, List.length_reverse]
      omega
    rw [Expr.nameless, Term.instantiate, Expr.instantiateAll_nameless g hσ vs body hlen]
  | .app f es, _, _, hk => by
    rw [Expr.nameless, Term.instantiate, Expr.instantiate_nameless g hσ vs f hk,
      Expr.instantiateAll_nameless g hσ vs es hk]
  | .letIn bs body, scope, k, hk => by
    have hlen : ((bs.map Prod.fst).reverse ++ scope).length ≤ bs.length + k := by
      rw [List.length_append, List.length_reverse, List.length_map]
      omega
    rw [Expr.nameless, Term.instantiate, Expr.instantiatePairs_nameless g hσ vs bs hk,
      Expr.length_namelessPairs, Expr.instantiateAll_nameless g hσ vs body hlen]
  | .define _ e, _, _, hk => by
    rw [Expr.nameless, Term.instantiate, Expr.instantiate_nameless g hσ vs e hk]
  | .classDef fields methods, scope, k, hk => by
    have hlen : (fields.reverse ++ scope).length ≤ fields.length + k := by
      rw [List.length_append, List.length_reverse]
      omega
    rw [Expr.nameless, Term.instantiate, Expr.instantiatePairs_nameless g hσ vs methods hlen]
termination_by structural e => e

theorem Expr.instantiateAll_nameless (g : Ref → ι) {σ : Standins ι} (hσ : σ.Closed)
    (vs : List (TermValue ι)) : ∀ (es : List Expr) {scope : List String} {k : Nat}, scope.length ≤ k →
      Term.instantiateAll k vs (Expr.namelessAll g σ scope es) = Expr.namelessAll g σ scope es
  | [], _, _, _ => rfl
  | e :: es, _, _, hk => by
    rw [Expr.namelessAll, Term.instantiateAll, Expr.instantiate_nameless g hσ vs e hk,
      Expr.instantiateAll_nameless g hσ vs es hk]
termination_by structural es => es

theorem Expr.instantiatePairs_nameless (g : Ref → ι) {σ : Standins ι} (hσ : σ.Closed)
    (vs : List (TermValue ι)) : ∀ (bs : List (String × Expr)) {scope : List String} {k : Nat},
      scope.length ≤ k →
      Term.instantiateAll k vs (Expr.namelessPairs g σ scope bs) = Expr.namelessPairs g σ scope bs
  | [], _, _, _ => rfl
  | (_, e) :: bs, _, _, hk => by
    rw [Expr.namelessPairs, Term.instantiateAll, Expr.instantiate_nameless g hσ vs e hk,
      Expr.instantiatePairs_nameless g hσ vs bs hk]
termination_by structural bs => bs

end

/-- The nameless form of a procedure, whatever names stand for, is closed. -/
theorem TermValue.closed_closure (g : Ref → ι) {σ : Standins ι} (hσ : σ.Closed) (mark : ι)
    (params : List String) (body : List Expr) :
    (TermValue.closure mark params.length (Expr.namelessAll g σ params.reverse body)).Closed := by
  intro k vs
  have hlen : params.reverse.length ≤ params.length + k := by
    rw [List.length_reverse]
    omega
  show Term.lambda params.length (Term.instantiateAll (params.length + k) vs _) = _
  rw [Expr.instantiateAll_nameless g hσ vs body hlen]
  rfl

/-! ### Parameters -/

theorem instantiate_ofVar (σ : Standins ι) (hσ : σ.Closed) {params : List String} {args : List (TermValue ι)}
    (hlen : params.length = args.length) (scope : List String) (x : String) :
    (Term.ofVar σ (scope ++ params.reverse) x).instantiate scope.length args.reverse
      = Term.ofVar (argumentPairs params args ++ σ) scope x := by
  have hlookup := lookup_argumentPairs hlen x
  by_cases hs : x ∈ scope
  · have hlt := List.idxOf_lt_length_of_mem hs
    rw [Term.ofVar_of_mem σ (List.mem_append_left _ hs), Term.ofVar_of_mem _ hs, List.idxOf_append_of_mem hs,
      Term.instantiate, if_pos hlt]
  · by_cases hp : x ∈ params.reverse
    · have hlt : params.reverse.idxOf x < args.reverse.length := by
        rw [List.length_reverse, ← hlen, ← List.length_reverse]
        exact List.idxOf_lt_length_of_mem hp
      rw [List.getElem?_eq_getElem hlt] at hlookup
      have hstand : (argumentPairs params args ++ σ).lookup x = some args.reverse[params.reverse.idxOf x] := by
        rw [List.lookup_append, hlookup, Option.some_or]
      rw [Term.ofVar_of_mem σ (List.mem_append_right _ hp), Term.ofVar_of_lookup hs hstand,
        List.idxOf_append_of_notMem hs, Term.instantiate, if_neg (by omega), Nat.add_sub_cancel_left,
        List.getElem?_eq_getElem hlt]
    · have hnone : (argumentPairs params args).lookup x = none := by
        rw [hlookup, List.idxOf_eq_length hp]
        exact List.getElem?_eq_none (Nat.le_of_eq (by rw [List.length_reverse, List.length_reverse, hlen]))
      have happend : (argumentPairs params args ++ σ).lookup x = σ.lookup x := by
        rw [List.lookup_append, hnone, Option.none_or]
      have hsp : x ∉ scope ++ params.reverse := List.not_mem_append hs hp
      cases hv : σ.lookup x with
      | some v =>
        rw [Term.ofVar_of_lookup hsp hv, Term.ofVar_of_lookup hs (happend.trans hv)]
        exact hσ x v hv _ _
      | none =>
        rw [Term.ofVar_of_free hsp hv, Term.ofVar_of_free hs (happend.trans hv), Term.instantiate]

mutual

/-- **A bound parameter that is instantiated, and one that stands for the value, leave the same term.** -/
theorem Expr.nameless_instantiate (g : Ref → ι) {σ : Standins ι} (hσ : σ.Closed) {params : List String}
    {args : List (TermValue ι)} (hlen : params.length = args.length) :
    ∀ (e : Expr) (scope : List String),
      (e.nameless g σ (scope ++ params.reverse)).instantiate scope.length args.reverse
        = e.nameless g (argumentPairs params args ++ σ) scope
  | .number _, _ | .boolean _, _ | .string _, _ | .primitive _, _ | .quoted _, _ => rfl
  | .var x, scope => instantiate_ofVar σ hσ hlen scope x
  | .cond a b c, scope => by
    rw [Expr.nameless, Term.instantiate, Expr.nameless_instantiate g hσ hlen a,
      Expr.nameless_instantiate g hσ hlen b, Expr.nameless_instantiate g hσ hlen c, Expr.nameless]
  | .lambda ps body, scope => by
    have hb := Expr.namelessAll_instantiate g hσ hlen body (ps.reverse ++ scope)
    rw [List.length_append, List.length_reverse, List.append_assoc] at hb
    rw [Expr.nameless, Term.instantiate, hb, Expr.nameless]
  | .app f es, scope => by
    rw [Expr.nameless, Term.instantiate, Expr.nameless_instantiate g hσ hlen f,
      Expr.namelessAll_instantiate g hσ hlen es, Expr.nameless]
  | .letIn bs body, scope => by
    have hb := Expr.namelessAll_instantiate g hσ hlen body ((bs.map Prod.fst).reverse ++ scope)
    rw [List.length_append, List.length_reverse, List.length_map, List.append_assoc] at hb
    rw [Expr.nameless, Term.instantiate, Expr.length_namelessPairs,
      Expr.namelessPairs_instantiate g hσ hlen bs, hb, Expr.nameless]
  | .define _ e, scope => by
    rw [Expr.nameless, Term.instantiate, Expr.nameless_instantiate g hσ hlen e, Expr.nameless]
  | .classDef fields methods, scope => by
    have hm := Expr.namelessPairs_instantiate g hσ hlen methods (fields.reverse ++ scope)
    rw [List.length_append, List.length_reverse, List.append_assoc] at hm
    rw [Expr.nameless, Term.instantiate, hm, Expr.nameless]
termination_by structural e => e

theorem Expr.namelessAll_instantiate (g : Ref → ι) {σ : Standins ι} (hσ : σ.Closed) {params : List String}
    {args : List (TermValue ι)} (hlen : params.length = args.length) :
    ∀ (es : List Expr) (scope : List String),
      Term.instantiateAll scope.length args.reverse (Expr.namelessAll g σ (scope ++ params.reverse) es)
        = Expr.namelessAll g (argumentPairs params args ++ σ) scope es
  | [], _ => rfl
  | e :: es, scope => by
    rw [Expr.namelessAll, Term.instantiateAll, Expr.nameless_instantiate g hσ hlen e,
      Expr.namelessAll_instantiate g hσ hlen es, Expr.namelessAll]
termination_by structural es => es

theorem Expr.namelessPairs_instantiate (g : Ref → ι) {σ : Standins ι} (hσ : σ.Closed)
    {params : List String} {args : List (TermValue ι)} (hlen : params.length = args.length) :
    ∀ (bs : List (String × Expr)) (scope : List String),
      Term.instantiateAll scope.length args.reverse (Expr.namelessPairs g σ (scope ++ params.reverse) bs)
        = Expr.namelessPairs g (argumentPairs params args ++ σ) scope bs
  | [], _ => rfl
  | (_, e) :: bs, scope => by
    rw [Expr.namelessPairs, Term.instantiateAll, Expr.nameless_instantiate g hσ hlen e,
      Expr.namelessPairs_instantiate g hσ hlen bs, Expr.namelessPairs]
termination_by structural bs => bs

end

/-! ### Bodies of procedures -/

/-- **The body of a procedure, made fresh and with the arguments put in, leaves the term of the body, instantiated.** -/
theorem nameless_application (g : Ref → ι) {issued : Nat} {params : List String} {body : List Expr}
    {args : List Value} (hparams : params.Nodup) (hlen : params.length = args.length)
    (hbody : ∀ x, Expr.FreeInAny x body → NumberedUpTo issued x)
    (hargs : ∀ v ∈ args, ∀ x, v.toExpr.FreeIn x → NumberedUpTo issued x) :
    Expr.namelessAll g [] [] (substitute params (args.map Value.toExpr) (rename issued body))
      = Term.instantiateAll 0 (Value.namelessAll g args).reverse (Expr.namelessAll g [] params.reverse body) := by
  have hlen' : params.length = (args.map (Value.nameless g)).length := by
    rw [List.length_map, hlen]
  have hputs := (Substitution.Puts.zip g params args).of_lookup_eq fun x =>
    lookup_argumentPairs_of_nodup hparams hlen' x
  have hbound := Expr.namelessAll_instantiate g Standins.closed_nil hlen' body []
  rw [List.nil_append, List.append_nil, List.length_nil] at hbound
  rw [nameless_applied hputs hbody hargs, ← hbound, Value.namelessAll_eq_map]

end SubstModel

import SubstModel.Proofs.Language.Substitution
import SubstModel.Proofs.MessageName
import SubstModel.Proofs.Nameless

/-!
# Dispatchers of nameless terms

The name of the message is chosen by what a class mentions, so classes that differ in bound names may get dispatchers
that differ in that name.  Since the name captures nothing, it does not show in the term of the dispatcher: that is
determined by the term of the class.

* `Term.lift` — a term under one more binder that binds nothing of it;
* `Expr.nameless_lift` — **a binder of a name that an expression does not mention lifts its term**;
* `Term.withoutClasses` — a term with dispatchers in the place of classes;
* `Expr.nameless_withoutClasses` — **replacing classes and forgetting names can be exchanged**.
-/

namespace SubstModel

variable {ι : Type}

/-! ### One more binder -/

mutual

/-- The term under one more binder, with `k` binders of the term's own scope inside of it. -/
def Term.lift (k : Nat) : Term ι → Term ι
  | .number x => .number x
  | .boolean b => .boolean b
  | .string s => .string s
  | .primitive p => .primitive p
  | .free x => .free x
  | .bound i => if i < k then .bound i else .bound (i + 1)
  | .cond test onTrue onFalse => .cond (Term.lift k test) (Term.lift k onTrue) (Term.lift k onFalse)
  | .lambda n body => .lambda n (Term.liftAll (n + k) body)
  | .app operator operands => .app (Term.lift k operator) (Term.liftAll k operands)
  | .letIn values body => .letIn (Term.liftAll k values) (Term.liftAll (values.length + k) body)
  | .quoted v => .quoted v
  | .define x value => .define x (Term.lift k value)
  | .classDef n labels methods => .classDef n labels (Term.liftAll (n + k) methods)
termination_by structural t => t

/-- The terms under one more binder. -/
def Term.liftAll (k : Nat) : List (Term ι) → List (Term ι)
  | [] => []
  | t :: ts => Term.lift k t :: Term.liftAll k ts
termination_by structural ts => ts

end

theorem Term.lift_ofVar {x y : String} (hxy : y ≠ x) (inner scope : List String) :
    (Term.ofVar [] (inner ++ x :: scope) y : Term ι) = (Term.ofVar [] (inner ++ scope) y).lift inner.length := by
  by_cases hi : y ∈ inner
  · have hlt := List.idxOf_lt_length_of_mem hi
    rw [Term.ofVar_of_mem [] (List.mem_append_left _ hi), Term.ofVar_of_mem [] (List.mem_append_left _ hi),
      List.idxOf_append_of_mem hi, List.idxOf_append_of_mem hi, Term.lift, if_pos hlt]
  · by_cases hs : y ∈ scope
    · have hx : y ∈ x :: scope := List.mem_cons_of_mem x hs
      rw [Term.ofVar_of_mem [] (List.mem_append_right _ hx), Term.ofVar_of_mem [] (List.mem_append_right _ hs),
        List.idxOf_append_of_notMem hi, List.idxOf_append_of_notMem hi, List.idxOf_cons_ne _ (Ne.symm hxy),
        Term.lift, if_neg (Nat.not_lt.2 (Nat.le_add_right _ _))]
      rfl
    · have hx : y ∉ x :: scope := List.not_mem_cons_of_ne_of_not_mem hxy hs
      rw [Term.ofVar_of_free (List.not_mem_append hi hx) rfl, Term.ofVar_of_free (List.not_mem_append hi hs) rfl,
        Term.lift]

mutual

/-- **A binder of a name that the expression does not mention lifts its term.** -/
theorem Expr.nameless_lift (g : Ref → ι) {x : String} (scope : List String) :
    ∀ (e : Expr) (inner : List String), x ∉ e.names →
      e.nameless g [] (inner ++ x :: scope) = (e.nameless g [] (inner ++ scope)).lift inner.length
  | .number _, _, _ | .boolean _, _, _ | .string _, _, _ | .primitive _, _, _ | .quoted _, _, _ => rfl
  | .var y, inner, h => Term.lift_ofVar (fun hyx => h (List.mem_singleton.2 hyx.symm)) inner scope
  | .cond a b c, inner, h => by
    rw [Expr.names, List.mem_append, List.mem_append, not_or, not_or] at h
    rw [Expr.nameless, Expr.nameless_lift g scope a inner h.1.1, Expr.nameless_lift g scope b inner h.1.2,
      Expr.nameless_lift g scope c inner h.2, Expr.nameless, Term.lift]
  | .lambda params body, inner, h => by
    rw [Expr.names, List.mem_append, not_or] at h
    have hb := Expr.namelessAll_lift g scope body (params.reverse ++ inner) h.2
    rw [List.append_assoc, List.append_assoc, List.length_append, List.length_reverse] at hb
    rw [Expr.nameless, hb, Expr.nameless, Term.lift]
  | .app f es, inner, h => by
    rw [Expr.names, List.mem_append, not_or] at h
    rw [Expr.nameless, Expr.nameless_lift g scope f inner h.1, Expr.namelessAll_lift g scope es inner h.2,
      Expr.nameless, Term.lift]
  | .letIn bs body, inner, h => by
    rw [Expr.names, List.mem_append, List.mem_append, not_or, not_or] at h
    have hb := Expr.namelessAll_lift g scope body ((bs.map Prod.fst).reverse ++ inner) h.2
    rw [List.append_assoc, List.append_assoc, List.length_append, List.length_reverse, List.length_map] at hb
    have hlen : (Expr.namelessPairs g [] (inner ++ scope) bs).length = bs.length := by
      rw [Expr.namelessPairs_eq_map, List.length_map]
    rw [Expr.nameless, Expr.namelessPairs_lift g scope bs inner h.1.2, hb, Expr.nameless, Term.lift, hlen]
  | .define y e, inner, h => by
    rw [Expr.names, List.mem_cons, not_or] at h
    rw [Expr.nameless, Expr.nameless_lift g scope e inner h.2, Expr.nameless, Term.lift]
  | .classDef fields methods, inner, h => by
    rw [Expr.names, List.mem_append, not_or] at h
    have hm := Expr.namelessPairs_lift g scope methods (fields.reverse ++ inner) h.2
    rw [List.append_assoc, List.append_assoc, List.length_append, List.length_reverse] at hm
    rw [Expr.nameless, hm, Expr.nameless, Term.lift]
termination_by structural e => e

theorem Expr.namelessAll_lift (g : Ref → ι) {x : String} (scope : List String) :
    ∀ (es : List Expr) (inner : List String), x ∉ Expr.namesAll es →
      Expr.namelessAll g [] (inner ++ x :: scope) es
        = Term.liftAll inner.length (Expr.namelessAll g [] (inner ++ scope) es)
  | [], _, _ => rfl
  | e :: es, inner, h => by
    rw [Expr.namesAll, List.mem_append, not_or] at h
    rw [Expr.namelessAll, Expr.nameless_lift g scope e inner h.1, Expr.namelessAll_lift g scope es inner h.2,
      Expr.namelessAll, Term.liftAll]
termination_by structural es => es

theorem Expr.namelessPairs_lift (g : Ref → ι) {x : String} (scope : List String) :
    ∀ (bs : List (String × Expr)) (inner : List String), x ∉ Expr.namesPairs bs →
      Expr.namelessPairs g [] (inner ++ x :: scope) bs
        = Term.liftAll inner.length (Expr.namelessPairs g [] (inner ++ scope) bs)
  | [], _, _ => rfl
  | (_, e) :: bs, inner, h => by
    rw [Expr.namesPairs, List.mem_append, not_or] at h
    rw [Expr.namelessPairs, Expr.nameless_lift g scope e inner h.1, Expr.namelessPairs_lift g scope bs inner h.2,
      Expr.namelessPairs, Term.liftAll]
termination_by structural bs => bs

end

/-! ### Dispatchers -/

/-- The comparisons of the innermost variable with the names of the methods. -/
def Term.dispatchChain : List String → List (Term ι) → Term ι
  | label :: labels, method :: methods =>
    .cond (.app (.primitive .identical) [.bound 0, .quoted (.symbol label)]) (.app method [])
      (Term.dispatchChain labels methods)
  | _, _ => .boolean false

/-- The term of the dispatcher of a class. -/
def Term.dispatcher (fields : Nat) (labels : List String) (methods : List (Term ι)) : Term ι :=
  .lambda fields [.lambda 1 [Term.dispatchChain labels (Term.liftAll 0 methods)]]

mutual

/-- The term with every class replaced by its dispatcher. -/
def Term.withoutClasses : Term ι → Term ι
  | .number x => .number x
  | .boolean b => .boolean b
  | .string s => .string s
  | .primitive p => .primitive p
  | .free x => .free x
  | .bound i => .bound i
  | .cond test onTrue onFalse =>
    .cond (Term.withoutClasses test) (Term.withoutClasses onTrue) (Term.withoutClasses onFalse)
  | .lambda n body => .lambda n (Term.withoutClassesAll body)
  | .app operator operands => .app (Term.withoutClasses operator) (Term.withoutClassesAll operands)
  | .letIn values body => .letIn (Term.withoutClassesAll values) (Term.withoutClassesAll body)
  | .quoted v => .quoted v
  | .define x value => .define x (Term.withoutClasses value)
  | .classDef n labels methods => Term.dispatcher n labels (Term.withoutClassesAll methods)
termination_by structural t => t

/-- The terms with their classes replaced. -/
def Term.withoutClassesAll : List (Term ι) → List (Term ι)
  | [] => []
  | t :: ts => Term.withoutClasses t :: Term.withoutClassesAll ts
termination_by structural ts => ts

end

theorem Term.withoutClasses_ofVar (scope : List String) (x : String) :
    (Term.ofVar [] scope x : Term ι).withoutClasses = Term.ofVar [] scope x := by
  by_cases hx : x ∈ scope
  · rw [Term.ofVar_of_mem [] hx, Term.withoutClasses]
  · rw [Term.ofVar_of_free hx rfl, Term.withoutClasses]

theorem nameless_dispatchChain (g : Ref → ι) (message : String) (scope : List String)
    (methods : List (String × Expr)) :
    (dispatchChain .identical message methods).nameless g [] (message :: scope)
      = Term.dispatchChain (methods.map Prod.fst) (Expr.namelessPairs g [] (message :: scope) methods) := by
  induction methods with
  | nil => rfl
  | cons m methods ih =>
    have hmessage : Term.ofVar [] (message :: scope) message = (.bound 0 : Term ι) := by
      rw [Term.ofVar_of_mem [] List.mem_cons_self, List.idxOf_cons_self]
    show Term.cond (.app (.primitive .identical) [Term.ofVar [] (message :: scope) message, _]) _
      ((dispatchChain .identical message methods).nameless g [] (message :: scope)) = _
    rw [hmessage, ih]
    rfl

theorem nameless_dispatcher (g : Ref → ι) (scope fields : List String) (methods : List (String × Expr)) :
    (dispatcher fields methods).nameless g [] scope
      = Term.dispatcher fields.length (methods.map Prod.fst)
        (Expr.namelessPairs g [] (fields.reverse ++ scope) methods) := by
  have hunused := (isUnused_iff.1 (isUnused_messageName fields methods)).2
  have hmethods := Expr.namelessPairs_lift g (fields.reverse ++ scope) methods [] hunused
  have hchain := nameless_dispatchChain g (messageName fields methods) (fields.reverse ++ scope) methods
  rw [List.nil_append, List.nil_append, List.length_nil] at hmethods
  rw [hmethods] at hchain
  show Term.lambda fields.length [.lambda 1 [_]] = _
  rw [Term.dispatcher, ← hchain]
  rfl

mutual

/-- **Replacing the classes of an expression and forgetting its names can be exchanged.** -/
theorem Expr.nameless_withoutClasses (g : Ref → ι) : ∀ (e : Expr) (scope : List String),
    e.withoutClasses.nameless g [] scope = (e.nameless g [] scope).withoutClasses
  | .number _, _ | .boolean _, _ | .string _, _ | .primitive _, _ | .quoted _, _ => rfl
  | .var x, scope => (Term.withoutClasses_ofVar scope x).symm
  | .cond a b c, scope => by
    rw [Expr.withoutClasses, Expr.nameless, Expr.nameless_withoutClasses g a, Expr.nameless_withoutClasses g b,
      Expr.nameless_withoutClasses g c, Expr.nameless, Term.withoutClasses]
  | .lambda params body, scope => by
    rw [Expr.withoutClasses, Expr.nameless, Expr.namelessAll_withoutClasses g body, Expr.nameless,
      Term.withoutClasses]
  | .app f es, scope => by
    rw [Expr.withoutClasses, Expr.nameless, Expr.nameless_withoutClasses g f,
      Expr.namelessAll_withoutClasses g es, Expr.nameless, Term.withoutClasses]
  | .letIn bs body, scope => by
    rw [Expr.withoutClasses, Expr.nameless, Expr.map_fst_withoutClassesPairs,
      Expr.namelessPairs_withoutClasses g bs, Expr.namelessAll_withoutClasses g body, Expr.nameless,
      Term.withoutClasses]
  | .define _ e, scope => by
    rw [Expr.withoutClasses, Expr.nameless, Expr.nameless_withoutClasses g e, Expr.nameless,
      Term.withoutClasses]
  | .classDef fields methods, scope => by
    rw [Expr.withoutClasses, nameless_dispatcher, Expr.map_fst_withoutClassesPairs,
      Expr.namelessPairs_withoutClasses g methods, Expr.nameless, Term.withoutClasses]
termination_by structural e => e

theorem Expr.namelessAll_withoutClasses (g : Ref → ι) : ∀ (es : List Expr) (scope : List String),
    Expr.namelessAll g [] scope (Expr.withoutClassesAll es)
      = Term.withoutClassesAll (Expr.namelessAll g [] scope es)
  | [], _ => rfl
  | e :: es, scope => by
    rw [Expr.withoutClassesAll, Expr.namelessAll, Expr.nameless_withoutClasses g e,
      Expr.namelessAll_withoutClasses g es, Expr.namelessAll, Term.withoutClassesAll]
termination_by structural es => es

theorem Expr.namelessPairs_withoutClasses (g : Ref → ι) :
    ∀ (bs : List (String × Expr)) (scope : List String),
      Expr.namelessPairs g [] scope (Expr.withoutClassesPairs bs)
        = Term.withoutClassesAll (Expr.namelessPairs g [] scope bs)
  | [], _ => rfl
  | (_, e) :: bs, scope => by
    rw [Expr.withoutClassesPairs, Expr.namelessPairs, Expr.nameless_withoutClasses g e,
      Expr.namelessPairs_withoutClasses g bs, Expr.namelessPairs, Term.withoutClassesAll]
termination_by structural bs => bs

end

end SubstModel

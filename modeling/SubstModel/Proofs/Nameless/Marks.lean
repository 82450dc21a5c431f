import SubstModel.Proofs.Language
import SubstModel.Proofs.Nameless

/-!
# Marks — other marks in the place of references

What is left of an expression has marks in the place of references.  Other marks leave the same term, up to the marks;
and where there is no reference, it does not matter how references are marked.

* `Term.mapMark`, `TermValue.mapMark` — other marks in a term and in a value;
* `Expr.nameless_mapMark`, `Value.nameless_mapMark` — **what other marks leave is what the first ones leave, with the
  marks changed**.
-/

namespace SubstModel

variable {ι κ : Type}

mutual

/-- The term with the mark `f i` in the place of the mark `i`. -/
def Term.mapMark (f : ι → κ) : Term ι → Term κ
  | .number x => .number x
  | .boolean b => .boolean b
  | .string s => .string s
  | .primitive p => .primitive p
  | .free x => .free x
  | .bound i => .bound i
  | .cond test onTrue onFalse => .cond (Term.mapMark f test) (Term.mapMark f onTrue) (Term.mapMark f onFalse)
  | .lambda n body => .lambda n (Term.mapMarkAll f body)
  | .app operator operands => .app (Term.mapMark f operator) (Term.mapMarkAll f operands)
  | .letIn values body => .letIn (Term.mapMarkAll f values) (Term.mapMarkAll f body)
  | .quoted v => .quoted (TermValue.mapMark f v)
  | .define x value => .define x (Term.mapMark f value)
  | .classDef n labels methods => .classDef n labels (Term.mapMarkAll f methods)
termination_by structural t => t

/-- The terms with other marks. -/
def Term.mapMarkAll (f : ι → κ) : List (Term ι) → List (Term κ)
  | [] => []
  | t :: ts => Term.mapMark f t :: Term.mapMarkAll f ts
termination_by structural ts => ts

/-- The value with the mark `f i` in the place of the mark `i`. -/
def TermValue.mapMark (f : ι → κ) : TermValue ι → TermValue κ
  | .number x => .number x
  | .boolean b => .boolean b
  | .string s => .string s
  | .symbol s => .symbol s
  | .list items => .list (TermValue.mapMarkAll f items)
  | .primitive p => .primitive p
  | .closure i n body => .closure (f i) n (Term.mapMarkAll f body)
  | .classDef i n labels methods => .classDef (f i) n labels (Term.mapMarkAll f methods)
  | .object i n labels methods => .object (f i) n labels (Term.mapMarkAll f methods)
termination_by structural v => v

/-- The values with other marks. -/
def TermValue.mapMarkAll (f : ι → κ) : List (TermValue ι) → List (TermValue κ)
  | [] => []
  | v :: vs => TermValue.mapMark f v :: TermValue.mapMarkAll f vs
termination_by structural vs => vs

end

theorem Term.mapMark_ofVar (f : ι → κ) (scope : List String) (x : String) :
    (Term.ofVar [] scope x).mapMark f = Term.ofVar [] scope x := by
  by_cases hx : x ∈ scope
  · rw [Term.ofVar_of_mem [] hx, Term.ofVar_of_mem [] hx, Term.mapMark]
  · rw [Term.ofVar_of_free hx rfl, Term.ofVar_of_free hx rfl, Term.mapMark]

mutual

/-- **Of an expression within the language, other marks leave the same term with the marks changed.** -/
theorem Expr.nameless_mapMark {L : Language} {f : ι → κ} {g : Ref → ι} {g' : Ref → κ}
    (hL : ∀ r, L.ref r → g' r = f (g r)) : ∀ (e : Expr) {bound : List String} (scope : List String),
      e.Within L bound → e.nameless g' [] scope = (e.nameless g [] scope).mapMark f
  | .number _, _, _, _ | .boolean _, _, _, _ | .string _, _, _, _ | .primitive _, _, _, _ => rfl
  | .var x, _, scope, _ => (Term.mapMark_ofVar f scope x).symm
  | .cond a b c, _, scope, ⟨ha, hb, hc⟩ => by
    rw [Expr.nameless, Expr.nameless_mapMark hL a scope ha, Expr.nameless_mapMark hL b scope hb,
      Expr.nameless_mapMark hL c scope hc, Expr.nameless, Term.mapMark]
  | .lambda params body, _, scope, ⟨_, _, hb⟩ => by
    rw [Expr.nameless, Expr.namelessAll_mapMark hL body _ hb, Expr.nameless, Term.mapMark]
  | .app h es, _, scope, ⟨hh, hes⟩ => by
    rw [Expr.nameless, Expr.nameless_mapMark hL h scope hh, Expr.namelessAll_mapMark hL es scope hes,
      Expr.nameless, Term.mapMark]
  | .letIn bs body, _, scope, ⟨_, _, _, hbs, hb⟩ => by
    rw [Expr.nameless, Expr.namelessPairs_mapMark hL bs scope hbs, Expr.namelessAll_mapMark hL body _ hb,
      Expr.nameless, Term.mapMark]
  | .quoted v, _, _, hv => congrArg Term.quoted (Value.nameless_mapMark hL v hv)
  | .define _ e, _, scope, ⟨_, _, he⟩ => by
    rw [Expr.nameless, Expr.nameless_mapMark hL e scope he, Expr.nameless, Term.mapMark]
  | .classDef fields methods, _, scope, ⟨_, _, _, hm⟩ => by
    rw [Expr.nameless, Expr.namelessPairs_mapMark hL methods _ hm, Expr.nameless, Term.mapMark]
termination_by structural e => e

theorem Expr.namelessAll_mapMark {L : Language} {f : ι → κ} {g : Ref → ι} {g' : Ref → κ}
    (hL : ∀ r, L.ref r → g' r = f (g r)) : ∀ (es : List Expr) {bound : List String} (scope : List String),
      Expr.WithinAll L bound es →
      Expr.namelessAll g' [] scope es = Term.mapMarkAll f (Expr.namelessAll g [] scope es)
  | [], _, _, _ => rfl
  | e :: es, _, scope, ⟨he, hes⟩ => by
    rw [Expr.namelessAll, Expr.nameless_mapMark hL e scope he, Expr.namelessAll_mapMark hL es scope hes,
      Expr.namelessAll, Term.mapMarkAll]
termination_by structural es => es

theorem Expr.namelessPairs_mapMark {L : Language} {f : ι → κ} {g : Ref → ι} {g' : Ref → κ}
    (hL : ∀ r, L.ref r → g' r = f (g r)) :
    ∀ (bs : List (String × Expr)) {bound : List String} (scope : List String), Expr.WithinPairs L bound bs →
      Expr.namelessPairs g' [] scope bs = Term.mapMarkAll f (Expr.namelessPairs g [] scope bs)
  | [], _, _, _ => rfl
  | (_, e) :: bs, _, scope, ⟨he, hbs⟩ => by
    rw [Expr.namelessPairs, Expr.nameless_mapMark hL e scope he, Expr.namelessPairs_mapMark hL bs scope hbs,
      Expr.namelessPairs, Term.mapMarkAll]
termination_by structural bs => bs

/-- **Of a value within the language, other marks leave the same value with the marks changed.** -/
theorem Value.nameless_mapMark {L : Language} {f : ι → κ} {g : Ref → ι} {g' : Ref → κ}
    (hL : ∀ r, L.ref r → g' r = f (g r)) :
    ∀ v : Value, v.Within L → v.nameless g' = (v.nameless g).mapMark f
  | .number _, _ | .boolean _, _ | .string _, _ | .symbol _, _ | .primitive _, _ => rfl
  | .list vs, h => congrArg TermValue.list (Value.namelessAll_mapMark hL vs h)
  | .closure r params body, ⟨hr, _, _, hb⟩ => by
    rw [Value.nameless, hL r hr, Expr.namelessAll_mapMark hL body _ hb, Value.nameless, TermValue.mapMark]
  | .classDef r fields methods, ⟨_, hr, _, _, hm⟩ => by
    rw [Value.nameless, hL r hr, Expr.namelessPairs_mapMark hL methods _ hm, Value.nameless, TermValue.mapMark]
  | .object r fields methods, ⟨_, hr, _, _, hm⟩ => by
    rw [Value.nameless, hL r hr, Expr.namelessPairs_mapMark hL methods _ hm, Value.nameless, TermValue.mapMark]
termination_by structural v => v

theorem Value.namelessAll_mapMark {L : Language} {f : ι → κ} {g : Ref → ι} {g' : Ref → κ}
    (hL : ∀ r, L.ref r → g' r = f (g r)) :
    ∀ vs, Value.WithinAll L vs → Value.namelessAll g' vs = TermValue.mapMarkAll f (Value.namelessAll g vs)
  | [], _ => rfl
  | v :: vs, ⟨hv, hvs⟩ => by
    rw [Value.namelessAll, Value.nameless_mapMark hL v hv, Value.namelessAll_mapMark hL vs hvs,
      Value.namelessAll, TermValue.mapMarkAll]
termination_by structural vs => vs

end

/-- Without marks, the same is left of a value however it was marked. -/
theorem Value.nameless_unmarked {L : Language} {v : Value} (hv : v.Within L) (g : Ref → ι) :
    v.nameless unmarked = (v.nameless g).mapMark fun _ => () := by
  have hmarks : ∀ r, L.ref r → unmarked r = (fun _ : ι => ()) (g r) := fun _ _ => rfl
  exact Value.nameless_mapMark hmarks v hv

end SubstModel

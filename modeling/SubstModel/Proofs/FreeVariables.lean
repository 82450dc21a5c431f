import SubstModel.Proofs.Binding
import SubstModel.Proofs.Language

/-!
# Free variables

A variable is free where no parameter, local name or field of its name stands around it.  The variables of a procedure
that is quoted count: it is a procedure wherever the quotation is evaluated.

* `Expr.FreeIn`, `Value.FreeIn` — the variable occurs free;
* `Expr.OccursFree` — the variable occurs free outside of all quotations, as renaming and substitution see it;
* `Expr.Within.of_free` — a free variable of an expression within a language is a name that may be free there;
* `Language.reading` — all in which only given variables are free;
* `Expr.Within.of_freeIn` — **an expression that quotes no procedure is within the language in which nothing is free but
  its own free variables**.
-/

namespace SubstModel

/-! ### Occurring free -/

mutual

/-- The variable occurs free in the expression. -/
def Expr.FreeIn (x : String) : Expr → Prop
  | .number _ | .boolean _ | .string _ | .primitive _ => False
  | .var y => x = y
  | .cond test onTrue onFalse => Expr.FreeIn x test ∨ Expr.FreeIn x onTrue ∨ Expr.FreeIn x onFalse
  | .lambda params body => x ∉ params ∧ Expr.FreeInAny x body
  | .app operator operands => Expr.FreeIn x operator ∨ Expr.FreeInAny x operands
  | .letIn bindings body =>
    Expr.FreeInPairs x bindings ∨ x ∉ bindings.map Prod.fst ∧ Expr.FreeInAny x body
  | .quoted v => Value.FreeIn x v
  | .define _ value => Expr.FreeIn x value
  | .classDef fields methods => x ∉ fields ∧ Expr.FreeInPairs x methods
termination_by structural e => e

/-- The variable occurs free in one of the expressions. -/
def Expr.FreeInAny (x : String) : List Expr → Prop
  | [] => False
  | e :: es => Expr.FreeIn x e ∨ Expr.FreeInAny x es
termination_by structural es => es

/-- The variable occurs free in the value of one of the bindings. -/
def Expr.FreeInPairs (x : String) : List (String × Expr) → Prop
  | [] => False
  | (_, e) :: bs => Expr.FreeIn x e ∨ Expr.FreeInPairs x bs
termination_by structural bs => bs

/-- The variable occurs free in a procedure of the value. -/
def Value.FreeIn (x : String) : Value → Prop
  | .number _ | .boolean _ | .string _ | .symbol _ | .primitive _ => False
  | .list items => Value.FreeInAny x items
  | .closure _ params body => x ∉ params ∧ Expr.FreeInAny x body
  | .classDef _ fields methods => x ∉ fields ∧ Expr.FreeInPairs x methods
  | .object _ _ methods => Expr.FreeInPairs x methods
termination_by structural v => v

/-- The variable occurs free in a procedure of one of the values. -/
def Value.FreeInAny (x : String) : List Value → Prop
  | [] => False
  | v :: vs => Value.FreeIn x v ∨ Value.FreeInAny x vs
termination_by structural vs => vs

end

/-! ### Occurring free outside of quotations -/

mutual

/-- The variable occurs free in the expression, quotations apart. -/
def Expr.OccursFree (x : String) : Expr → Prop
  | .number _ | .boolean _ | .string _ | .primitive _ | .quoted _ => False
  | .var y => x = y
  | .cond test onTrue onFalse => Expr.OccursFree x test ∨ Expr.OccursFree x onTrue ∨ Expr.OccursFree x onFalse
  | .lambda params body => x ∉ params ∧ Expr.OccursFreeAny x body
  | .app operator operands => Expr.OccursFree x operator ∨ Expr.OccursFreeAny x operands
  | .letIn bindings body =>
    Expr.OccursFreePairs x bindings ∨ x ∉ bindings.map Prod.fst ∧ Expr.OccursFreeAny x body
  | .define _ value => Expr.OccursFree x value
  | .classDef fields methods => x ∉ fields ∧ Expr.OccursFreePairs x methods
termination_by structural e => e

/-- The variable occurs free in one of the expressions, quotations apart. -/
def Expr.OccursFreeAny (x : String) : List Expr → Prop
  | [] => False
  | e :: es => Expr.OccursFree x e ∨ Expr.OccursFreeAny x es
termination_by structural es => es

/-- The variable occurs free in the value of one of the bindings, quotations apart. -/
def Expr.OccursFreePairs (x : String) : List (String × Expr) → Prop
  | [] => False
  | (_, e) :: bs => Expr.OccursFree x e ∨ Expr.OccursFreePairs x bs
termination_by structural bs => bs

end

mutual

theorem Expr.OccursFree.freeIn {x : String} : ∀ e : Expr, e.OccursFree x → e.FreeIn x
  | .var _, h => h
  | .cond a b c, h =>
    h.imp (Expr.OccursFree.freeIn a) fun h => h.imp (Expr.OccursFree.freeIn b) (Expr.OccursFree.freeIn c)
  | .lambda _ body, h => h.imp_right (Expr.OccursFree.freeInAny body)
  | .app f es, h => h.imp (Expr.OccursFree.freeIn f) (Expr.OccursFree.freeInAny es)
  | .letIn bs body, h =>
    h.imp (Expr.OccursFree.freeInPairs bs) fun h => h.imp_right (Expr.OccursFree.freeInAny body)
  | .define _ e, h => Expr.OccursFree.freeIn e h
  | .classDef _ methods, h => h.imp_right (Expr.OccursFree.freeInPairs methods)
termination_by structural e => e

theorem Expr.OccursFree.freeInAny {x : String} : ∀ es : List Expr, Expr.OccursFreeAny x es → Expr.FreeInAny x es
  | e :: es, h => h.imp (Expr.OccursFree.freeIn e) (Expr.OccursFree.freeInAny es)
termination_by structural es => es

theorem Expr.OccursFree.freeInPairs {x : String} :
    ∀ bs : List (String × Expr), Expr.OccursFreePairs x bs → Expr.FreeInPairs x bs
  | (_, e) :: bs, h => h.imp (Expr.OccursFree.freeIn e) (Expr.OccursFree.freeInPairs bs)
termination_by structural bs => bs

end

/-! ### Free variables and languages -/

/-- What is free in the scope that binders make is free around them, unless it is one of them. -/
theorem free_around {binders scope : List String} {x : String} {P Q : Prop} (hx : x ∉ binders)
    (h : P ∧ (x ∈ binders.reverse ++ scope ∨ Q)) : P ∧ (x ∈ scope ∨ Q) := by
  refine h.imp_right fun h => h.imp_left fun hmem => (List.mem_append.1 hmem).resolve_left ?_
  rwa [List.mem_reverse]

mutual

/-- A free variable of an expression within a language is a name of the language, and the scope or the language leaves
it free. -/
theorem Expr.Within.of_free {L : Language} {x : String} :
    ∀ (e : Expr) {scope : List String}, e.Within L scope → e.FreeIn x → L.name x ∧ (x ∈ scope ∨ L.free x)
  | .var _, _, hy, rfl => hy
  | .cond a b c, _, ⟨ha, hb, hc⟩, h =>
    h.elim (Expr.Within.of_free a ha) fun h => h.elim (Expr.Within.of_free b hb) (Expr.Within.of_free c hc)
  | .lambda _ body, _, ⟨_, _, hb⟩, h => free_around h.1 (Expr.Within.of_freeAny body hb h.2)
  | .app f es, _, ⟨hf, hes⟩, h => h.elim (Expr.Within.of_free f hf) (Expr.Within.of_freeAny es hes)
  | .letIn bs body, _, ⟨_, _, _, hbs, hb⟩, h =>
    h.elim (Expr.Within.of_freePairs bs hbs) fun h => free_around h.1 (Expr.Within.of_freeAny body hb h.2)
  | .quoted v, _, hv, h => (Value.Within.of_free v hv h).imp_right .inr
  | .define _ e, _, ⟨_, _, he⟩, h => Expr.Within.of_free e he h
  | .classDef _ methods, _, ⟨_, _, _, hm⟩, h => free_around h.1 (Expr.Within.of_freePairs methods hm h.2)
termination_by structural e => e

theorem Expr.Within.of_freeAny {L : Language} {x : String} :
    ∀ (es : List Expr) {scope : List String}, Expr.WithinAll L scope es → Expr.FreeInAny x es →
      L.name x ∧ (x ∈ scope ∨ L.free x)
  | e :: es, _, ⟨he, hes⟩, h => h.elim (Expr.Within.of_free e he) (Expr.Within.of_freeAny es hes)
termination_by structural es => es

theorem Expr.Within.of_freePairs {L : Language} {x : String} :
    ∀ (bs : List (String × Expr)) {scope : List String}, Expr.WithinPairs L scope bs →
      Expr.FreeInPairs x bs → L.name x ∧ (x ∈ scope ∨ L.free x)
  | (_, e) :: bs, _, ⟨he, hbs⟩, h => h.elim (Expr.Within.of_free e he) (Expr.Within.of_freePairs bs hbs)
termination_by structural bs => bs

theorem Value.Within.of_free {L : Language} {x : String} :
    ∀ v : Value, v.Within L → v.FreeIn x → L.name x ∧ L.free x
  | .list vs, hvs, h => Value.Within.of_freeAny vs hvs h
  | .closure _ params body, ⟨_, _, _, hb⟩, h => by
    rw [← List.append_nil params.reverse] at hb
    exact (free_around h.1 (Expr.Within.of_freeAny body hb h.2)).imp_right fun h => h.resolve_left List.not_mem_nil
  | .classDef _ fields methods, ⟨_, _, _, _, hm⟩, h => by
    rw [← List.append_nil fields.reverse] at hm
    exact (free_around h.1 (Expr.Within.of_freePairs methods hm h.2)).imp_right
      fun h => h.resolve_left List.not_mem_nil
  | .object _ _ methods, ⟨_, _, _, _, hm⟩, h =>
    (Expr.Within.of_freePairs methods hm h).imp_right fun h => h.resolve_left List.not_mem_nil
termination_by structural v => v

theorem Value.Within.of_freeAny {L : Language} {x : String} :
    ∀ vs, Value.WithinAll L vs → Value.FreeInAny x vs → L.name x ∧ L.free x
  | v :: vs, ⟨hv, hvs⟩, h => h.elim (Value.Within.of_free v hv) (Value.Within.of_freeAny vs hvs)
termination_by structural vs => vs

end

theorem Expr.Within.name_of_freeIn {L : Language} {x : String} (e : Expr) {scope : List String}
    (he : e.Within L scope) (hx : e.FreeIn x) : L.name x :=
  (Expr.Within.of_free e he hx).1

theorem Expr.Within.name_of_freeInAny {L : Language} {x : String} (es : List Expr) {scope : List String}
    (hes : Expr.WithinAll L scope es) (hx : Expr.FreeInAny x es) : L.name x :=
  (Expr.Within.of_freeAny es hes hx).1

/-- The language with other conditions on the variables that nothing binds. -/
def Language.withFree (L : Language) (free : String → Prop) : Language :=
  { L with free := free }

/-- The language in which only variables with the property are free.  Nothing binds in what is quoted: the free
variables of a quoted procedure count, whatever is bound around the quotation. -/
def Language.reading (S : String → Prop) : Language :=
  { free := S }

theorem Language.withFree_le_reading (L : Language) (S : String → Prop) : L.withFree S ≤ .reading S where
  name _ := trivial
  free := id
  binders _ := trivial
  label _ := trivial
  symbol _ := trivial
  primitive _ := trivial
  ref _ := trivial
  classes _ := trivial
  lets _ := trivial
  definitions _ := trivial
  emptyBodies _ := trivial

/-- What occurs free behind binders is free, or it is one of the binders. -/
theorem free_behind {binders scope : List String} {x : String} {P Q : Prop}
    (h : x ∉ binders ∧ P → x ∈ scope ∨ Q) (hp : P) : x ∈ binders.reverse ++ scope ∨ Q := by
  by_cases hx : x ∈ binders
  · exact .inl (List.mem_append_left _ (List.mem_reverse.2 hx))
  · exact (h ⟨hx, hp⟩).imp_left (List.mem_append_right _)

mutual

/-- **An expression that quotes no procedure is within the language in which nothing is free but its own free
variables.** -/
theorem Expr.Within.of_freeIn {L : Language} (hL : ∀ r, ¬ L.ref r) {S : String → Prop} :
    ∀ (e : Expr) {scope scope' : List String}, e.Within L scope →
      (∀ x, e.FreeIn x → x ∈ scope' ∨ S x) → e.Within (L.withFree S) scope'
  | .number _, _, _, _, _ | .boolean _, _, _, _, _ | .string _, _, _, _, _ => trivial
  | .primitive _, _, _, hp, _ => hp
  | .var x, _, _, ⟨hx, _⟩, hS => ⟨hx, hS x rfl⟩
  | .cond a b c, _, _, ⟨ha, hb, hc⟩, hS =>
    ⟨Expr.Within.of_freeIn hL a ha fun x hx => hS x (.inl hx),
      Expr.Within.of_freeIn hL b hb fun x hx => hS x (.inr (.inl hx)),
      Expr.Within.of_freeIn hL c hc fun x hx => hS x (.inr (.inr hx))⟩
  | .lambda _ body, _, _, ⟨hp, hn, hb⟩, hS =>
    ⟨hp, hn, Expr.Within.of_freeInAny hL body hb fun x hx => free_behind (hS x) hx⟩
  | .app f es, _, _, ⟨hf, hes⟩, hS =>
    ⟨Expr.Within.of_freeIn hL f hf fun x hx => hS x (.inl hx),
      Expr.Within.of_freeInAny hL es hes fun x hx => hS x (.inr hx)⟩
  | .letIn bs body, _, _, ⟨hl, hp, hn, hbs, hb⟩, hS =>
    ⟨hl, hp, hn, Expr.Within.of_freeInPairs hL bs hbs fun x hx => hS x (.inl hx),
      Expr.Within.of_freeInAny hL body hb fun x hx => free_behind (fun h => hS x (.inr h)) hx⟩
  | .quoted v, _, _, hv, _ => Value.Within.of_no_ref (M := L.withFree S) hL id id v hv
  | .define _ e, _, _, ⟨hd, hx, he⟩, hS => ⟨hd, hx, Expr.Within.of_freeIn hL e he hS⟩
  | .classDef _ methods, _, _, ⟨hc, hf, hl, hm⟩, hS =>
    ⟨hc, hf, hl, Expr.Within.of_freeInPairs hL methods hm fun x hx => free_behind (hS x) hx⟩
termination_by structural e => e

theorem Expr.Within.of_freeInAny {L : Language} (hL : ∀ r, ¬ L.ref r) {S : String → Prop} :
    ∀ (es : List Expr) {scope scope' : List String}, Expr.WithinAll L scope es →
      (∀ x, Expr.FreeInAny x es → x ∈ scope' ∨ S x) → Expr.WithinAll (L.withFree S) scope' es
  | [], _, _, _, _ => trivial
  | e :: es, _, _, ⟨he, hes⟩, hS =>
    ⟨Expr.Within.of_freeIn hL e he fun x hx => hS x (.inl hx),
      Expr.Within.of_freeInAny hL es hes fun x hx => hS x (.inr hx)⟩
termination_by structural es => es

theorem Expr.Within.of_freeInPairs {L : Language} (hL : ∀ r, ¬ L.ref r) {S : String → Prop} :
    ∀ (bs : List (String × Expr)) {scope scope' : List String}, Expr.WithinPairs L scope bs →
      (∀ x, Expr.FreeInPairs x bs → x ∈ scope' ∨ S x) → Expr.WithinPairs (L.withFree S) scope' bs
  | [], _, _, _, _ => trivial
  | (_, e) :: bs, _, _, ⟨he, hbs⟩, hS =>
    ⟨Expr.Within.of_freeIn hL e he fun x hx => hS x (.inl hx),
      Expr.Within.of_freeInPairs hL bs hbs fun x hx => hS x (.inr hx)⟩
termination_by structural bs => bs

end

end SubstModel

import SubstModel.Proofs.Freshness
import SubstModel.Proofs.Renaming

/-!
# Addresses — the places in an expression, and what renaming and substitution do there

An expression has parts that stand around its binders and parts that stand behind them.  An address says for every step
down which part is meant.  Renaming and substitution change neither the parts nor their order, so what stands at an
address before stands there afterwards, renamed and substituted.

* `Expr.outer`, `Expr.binders`, `Expr.inner` — one step down, the same for all kinds of expressions;
* `Address`, `Expr.at?` — the expression at an address;
* `Expr.boundOn` — the names that are bound on the way there;
* `Expr.occursFree_of_at?` — what is free at an address and not bound on the way is free in the whole;
* `Expr.at?_rename`, `Expr.at?_substitute` — **renaming and substitution act at every address**;
* `Call.at?_instantiated` — the same for what a call is given to evaluate.
-/

namespace SubstModel

namespace Expr

/-! ### One step down -/

/-- The parts of the expression that stand around its binders. -/
def outer : Expr → List Expr
  | .cond test onTrue onFalse => [test, onTrue, onFalse]
  | .app operator operands => operator :: operands
  | .letIn bindings _ => bindings.map Prod.snd
  | .define _ value => [value]
  | _ => []

/-- The names that the expression binds in its inner parts. -/
def binders : Expr → List String
  | .lambda params _ => params
  | .letIn bindings _ => bindings.map Prod.fst
  | .classDef fields _ => fields
  | _ => []

/-- The parts of the expression that stand behind its binders. -/
def inner : Expr → List Expr
  | .lambda _ body | .letIn _ body => body
  | .classDef _ methods => methods.map Prod.snd
  | _ => []

theorem getElem?_renameAll (n : Nat) (Γ : Scope) (es : List Expr) (i : Nat) :
    (renameAll n Γ es)[i]? = es[i]?.map (rename (n + binderCountAll (es.take i)) Γ) := by
  induction es generalizing n i with
  | nil => rfl
  | cons e es ih =>
    cases i with
    | zero => rfl
    | succ i =>
      rw [renameAll, List.getElem?_cons_succ, ih, List.getElem?_cons_succ, List.take_succ_cons, binderCountAll,
        Nat.add_assoc]

theorem getElem?_substituteAll (σ : Substitution) (es : List Expr) (i : Nat) :
    (substituteAll σ es)[i]? = es[i]?.map (substitute σ) := by
  induction es generalizing i with
  | nil => rfl
  | cons e es ih =>
    cases i with
    | zero => rfl
    | succ i => rw [substituteAll, List.getElem?_cons_succ, ih, List.getElem?_cons_succ]

theorem outer_rename (e : Expr) (n : Nat) (Γ : Scope) : (e.rename n Γ).outer = renameAll n Γ e.outer := by
  cases e with
  | letIn bs body => exact (map_zip_renamePairs (n + binderCountPairs bs) n Γ bs).2
  | _ => rfl

/-- The inner parts are renamed under the binders, and these are numbered first. -/
theorem exists_inner_rename (e : Expr) (n : Nat) (Γ : Scope) :
    ∃ m, n ≤ m ∧ (e.rename n Γ).binders = freshNames m e.binders ∧
      (e.rename n Γ).inner
        = renameAll (m + e.binders.length) (Γ.enter e.binders (freshNames m e.binders)) e.inner := by
  cases e with
  | letIn bs body =>
    exact ⟨n + binderCountPairs bs, Nat.le_add_right _ _,
      (map_zip_renamePairs (n + binderCountPairs bs) n Γ bs).1, rfl⟩
  | classDef fields methods => exact ⟨n, Nat.le_refl n, rfl, map_snd_renamePairs _ _ methods⟩
  | _ => exact ⟨n, Nat.le_refl n, rfl, rfl⟩

/-- A variable is replaced as a whole.  Of all else the parts are substituted. -/
theorem parts_substitute {e : Expr} (he : ∀ x, e ≠ .var x) (σ : Substitution) :
    (e.substitute σ).outer = substituteAll σ e.outer ∧ (e.substitute σ).binders = e.binders ∧
      (e.substitute σ).inner = substituteAll (σ.without e.binders) e.inner := by
  cases e with
  | var x => exact absurd rfl (he x)
  | letIn bs body => exact ⟨map_snd_substitutePairs σ bs, map_fst_substitutePairs σ bs, rfl⟩
  | classDef fields methods => exact ⟨rfl, rfl, map_snd_substitutePairs _ methods⟩
  | _ => exact ⟨rfl, rfl, rfl⟩

theorem outer_substitute {e d : Expr} {i : Nat} (h : e.outer[i]? = some d) (σ : Substitution) :
    (e.substitute σ).outer[i]? = some (d.substitute σ) := by
  have he : ∀ x, e ≠ .var x := by
    rintro x rfl
    cases h
  rw [(parts_substitute he σ).1, getElem?_substituteAll, h, Option.map_some]

theorem inner_substitute {e d : Expr} {i : Nat} (h : e.inner[i]? = some d) (σ : Substitution) :
    (e.substitute σ).binders = e.binders ∧
      (e.substitute σ).inner[i]? = some (d.substitute (σ.without e.binders)) := by
  have he : ∀ x, e ≠ .var x := by
    rintro x rfl
    cases h
  obtain ⟨-, hbinders, hinner⟩ := parts_substitute he σ
  exact ⟨hbinders, by rw [hinner, getElem?_substituteAll, h, Option.map_some]⟩

theorem occursFreeAny_iff {x : String} {es : List Expr} : OccursFreeAny x es ↔ ∃ e ∈ es, e.OccursFree x := by
  induction es with
  | nil => simp [OccursFreeAny]
  | cons e es ih => simp [OccursFreeAny, ih]

theorem occursFreeAny_map_snd {x : String} {bs : List (String × Expr)} :
    OccursFreeAny x (bs.map Prod.snd) ↔ OccursFreePairs x bs := by
  induction bs with
  | nil => exact Iff.rfl
  | cons b bs ih => exact or_congr_right ih

/-- What is free in an outer part is free in the whole. -/
theorem occursFree_of_outer {e d : Expr} {i : Nat} {x : String} (h : e.outer[i]? = some d) (hx : d.OccursFree x) :
    e.OccursFree x := by
  have hany : OccursFreeAny x e.outer := occursFreeAny_iff.2 ⟨d, List.mem_of_getElem? h, hx⟩
  cases e with
  | cond | app => simpa [OccursFree, outer, OccursFreeAny] using hany
  | letIn bs body => exact .inl (occursFreeAny_map_snd.1 hany)
  | define y e => exact hany.resolve_right id
  | _ => cases h

/-- What is free in an inner part, and is no binder, is free in the whole. -/
theorem occursFree_of_inner {e d : Expr} {i : Nat} {x : String} (h : e.inner[i]? = some d) (hx : d.OccursFree x)
    (hbinders : x ∉ e.binders) : e.OccursFree x := by
  have hany : OccursFreeAny x e.inner := occursFreeAny_iff.2 ⟨d, List.mem_of_getElem? h, hx⟩
  cases e with
  | lambda params body => exact ⟨hbinders, hany⟩
  | letIn bs body => exact .inr ⟨hbinders, hany⟩
  | classDef fields methods => exact ⟨hbinders, occursFreeAny_map_snd.1 hany⟩
  | _ => cases h

end Expr

/-! ### Addresses -/

/-- One step from an expression to a part of it. -/
inductive Step where
  | outer (index : Nat)
  | inner (index : Nat)
  deriving DecidableEq, Repr

/-- The way from an expression to a place in it. -/
abbrev Address := List Step

namespace Expr

/-- What stands at the address, if the expression has such a place. -/
def at? : Expr → Address → Option Expr
  | e, [] => some e
  | e, .outer i :: p => e.outer[i]?.bind fun d => d.at? p
  | e, .inner i :: p => e.inner[i]?.bind fun d => d.at? p

/-- The names that the expression binds on the way to the address. -/
def boundOn : Expr → Address → List String
  | _, [] => []
  | e, .outer i :: p => (e.outer[i]?).elim [] fun d => d.boundOn p
  | e, .inner i :: p => e.binders ++ (e.inner[i]?).elim [] fun d => d.boundOn p

theorem at?_outer_iff {e d : Expr} {i : Nat} {p : Address} :
    e.at? (.outer i :: p) = some d ↔ ∃ part, e.outer[i]? = some part ∧ part.at? p = some d :=
  Option.bind_eq_some_iff

theorem at?_inner_iff {e d : Expr} {i : Nat} {p : Address} :
    e.at? (.inner i :: p) = some d ↔ ∃ part, e.inner[i]? = some part ∧ part.at? p = some d :=
  Option.bind_eq_some_iff

theorem boundOn_outer {e part : Expr} {i : Nat} (h : e.outer[i]? = some part) (p : Address) :
    e.boundOn (.outer i :: p) = part.boundOn p := by
  rw [boundOn, h, Option.elim_some]

theorem boundOn_inner {e part : Expr} {i : Nat} (h : e.inner[i]? = some part) (p : Address) :
    e.boundOn (.inner i :: p) = e.binders ++ part.boundOn p := by
  rw [boundOn, h, Option.elim_some]

/-- Two ways, one behind the other. -/
theorem at?_append {e d : Expr} {p : Address} (h : e.at? p = some d) (q : Address) :
    e.at? (p ++ q) = d.at? q ∧ e.boundOn (p ++ q) = e.boundOn p ++ d.boundOn q := by
  induction p generalizing e with
  | nil =>
    cases h
    exact ⟨rfl, rfl⟩
  | cons step p ih =>
    cases step with
    | outer i =>
      obtain ⟨part, hpart, hd⟩ := at?_outer_iff.1 h
      obtain ⟨hat, hbound⟩ := ih hd
      rw [List.cons_append, boundOn_outer hpart, boundOn_outer hpart, at?, hpart]
      exact ⟨hat, hbound⟩
    | inner i =>
      obtain ⟨part, hpart, hd⟩ := at?_inner_iff.1 h
      obtain ⟨hat, hbound⟩ := ih hd
      rw [List.cons_append, boundOn_inner hpart, boundOn_inner hpart, at?, hpart, List.append_assoc, hbound]
      exact ⟨hat, rfl⟩

/-- **What is free at an address, and not bound on the way there, is free in the whole.** -/
theorem occursFree_of_at? {e d : Expr} {p : Address} {x : String} (h : e.at? p = some d) (hx : d.OccursFree x)
    (hbound : x ∉ e.boundOn p) : e.OccursFree x := by
  induction p generalizing e with
  | nil =>
    cases h
    exact hx
  | cons step p ih =>
    cases step with
    | outer i =>
      obtain ⟨part, hpart, hd⟩ := at?_outer_iff.1 h
      rw [boundOn_outer hpart] at hbound
      exact occursFree_of_outer hpart (ih hd hbound)
    | inner i =>
      obtain ⟨part, hpart, hd⟩ := at?_inner_iff.1 h
      rw [boundOn_inner hpart, List.mem_append, not_or] at hbound
      exact occursFree_of_inner hpart (ih hd hbound.2) hbound.1

/-! ### Renaming and substitution at an address -/

/-- **Renaming acts at every address**, under a scope that treats the names as before which are not bound on the way.
The names that are bound on the way are new. -/
theorem at?_rename {e d : Expr} {p : Address} (h : e.at? p = some d) (n : Nat) (Γ : Scope) :
    ∃ m Δ, n ≤ m ∧ (e.rename n Γ).at? p = some (d.rename m Δ) ∧
      (∀ x, x ∉ e.boundOn p → Δ.resolve x = Γ.resolve x) ∧
      ∀ x ∈ (e.rename n Γ).boundOn p, ¬ NumberedUpTo n x := by
  induction p generalizing e n Γ with
  | nil =>
    cases h
    exact ⟨n, Γ, Nat.le_refl n, rfl, fun _ _ => rfl, fun x hx => absurd hx List.not_mem_nil⟩
  | cons step p ih =>
    cases step with
    | outer i =>
      obtain ⟨part, hpart, hd⟩ := at?_outer_iff.1 h
      have hren : (e.rename n Γ).outer[i]? = some (part.rename (n + binderCountAll (e.outer.take i)) Γ) := by
        rw [outer_rename, getElem?_renameAll, hpart, Option.map_some]
      obtain ⟨m, Δ, hm, hat, hΔ, hnew⟩ := ih hd (n + binderCountAll (e.outer.take i)) Γ
      rw [boundOn_outer hpart, boundOn_outer hren]
      exact ⟨m, Δ, by omega, at?_outer_iff.2 ⟨_, hren, hat⟩, hΔ,
        fun x hx hold => hnew x hx (hold.mono (Nat.le_add_right _ _))⟩
    | inner i =>
      obtain ⟨part, hpart, hd⟩ := at?_inner_iff.1 h
      obtain ⟨k, hk, hbinders, hinner⟩ := exists_inner_rename e n Γ
      have hren : (e.rename n Γ).inner[i]? = some (part.rename
          (k + e.binders.length + binderCountAll (e.inner.take i)) (Γ.enter e.binders (freshNames k e.binders))) := by
        rw [hinner, getElem?_renameAll, hpart, Option.map_some]
      obtain ⟨m, Δ, hm, hat, hΔ, hnew⟩ := ih hd (k + e.binders.length + binderCountAll (e.inner.take i))
        (Γ.enter e.binders (freshNames k e.binders))
      rw [boundOn_inner hpart, boundOn_inner hren, hbinders]
      refine ⟨m, Δ, by omega, at?_inner_iff.2 ⟨_, hren, hat⟩, fun x hx => ?_, fun x hx hold => ?_⟩
      · rw [List.mem_append, not_or] at hx
        rw [hΔ x hx.2, Scope.resolve_enter_of_not_mem hx.1]
      · rcases List.mem_append.1 hx with hbinder | hbehind
        · exact not_numberedUpTo_of_handedOut (handedOut_freshNames hbinder) (hold.mono hk)
        · exact hnew x hbehind (hold.mono (by omega))

/-- **Substitution acts at every address**, with the replacements that the names bound on the way leave in force. -/
theorem at?_substitute {e d : Expr} {p : Address} (h : e.at? p = some d) (σ : Substitution) :
    (e.substitute σ).at? p = some (d.substitute (σ.without (e.boundOn p))) ∧
      (e.substitute σ).boundOn p = e.boundOn p := by
  induction p generalizing e σ with
  | nil =>
    cases h
    rw [boundOn, Substitution.without_nil]
    exact ⟨rfl, rfl⟩
  | cons step p ih =>
    cases step with
    | outer i =>
      obtain ⟨part, hpart, hd⟩ := at?_outer_iff.1 h
      have hsubst := outer_substitute hpart σ
      obtain ⟨hat, hbound⟩ := ih hd σ
      rw [boundOn_outer hpart, boundOn_outer hsubst, at?_outer_iff]
      exact ⟨⟨_, hsubst, hat⟩, hbound⟩
    | inner i =>
      obtain ⟨part, hpart, hd⟩ := at?_inner_iff.1 h
      obtain ⟨hbinders, hsubst⟩ := inner_substitute hpart σ
      obtain ⟨hat, hbound⟩ := ih hd (σ.without e.binders)
      rw [boundOn_inner hpart, boundOn_inner hsubst, hbinders, at?_inner_iff, ← Substitution.without_without]
      exact ⟨⟨_, hsubst, hat⟩, by rw [hbound]⟩

end Expr

/-! ### What a call is given to evaluate -/

namespace Call

/-- The expressions that a call is given to evaluate: renamed, with the arguments put in. -/
def instantiated (c : Call) : List Expr :=
  Expr.substituteAll c.substitution c.renamed

/-- A procedure is applied by evaluating what its call is given. -/
theorem applyBody_eq_instantiated (run : List Expr → Run Value) (params : List String) (body : List Expr)
    (args : List Value) (env : Environment) (s : Supply) :
    applyBody run params body args s
      = run (instantiated ⟨s, params, body, args, env⟩) { s with issued := issuedAfter s.issued body } :=
  rfl

/-- The methods of a new object are what the call of its class is given. -/
theorem instantiate_eq_instantiated {fields : List String} {args : List Value} (hlen : fields.length = args.length)
    (methods : List (String × Expr)) (env : Environment) (s : Supply) :
    instantiate fields methods args s =
      (do
        let methods' := (methods.map Prod.fst).zip (instantiated ⟨s, fields, methods.map Prod.snd, args, env⟩)
        Run.ofOutcome (requireLambdas methods')
        let ref ← Run.newRef
        return .object ref fields methods' : Run Value)
        { s with issued := issuedAfter s.issued (methods.map Prod.snd) } := by
  rw [instantiate, if_pos hlen]
  rfl

/-- The names that are free in what is renamed or in what is put in, and the names that are replaced, are old. -/
structure Older (c : Call) : Prop where
  binders : ∀ x ∈ c.binders, NumberedUpTo c.supply.issued x
  exprs : ∀ x, Expr.OccursFreeAny x c.exprs → NumberedUpTo c.supply.issued x
  args : ∀ v ∈ c.args, ∀ x, v.toExpr.OccursFree x → NumberedUpTo c.supply.issued x

/-- Low numbers are all that it takes. -/
theorem Within.older {c : Call} (h : c.Within (.numbered c.supply.issued)) : c.Older where
  binders := h.binders.2
  exprs _ hx := Expr.Within.name_of_freeInAny c.exprs h.exprs (Expr.OccursFree.freeInAny _ hx)
  args v hv _ hx := Expr.Within.name_of_freeIn v.toExpr (h.args v hv).toExpr (Expr.OccursFree.freeIn _ hx)

/-- In every session all calls are of this kind. -/
theorem older_of_mem_session (config : Config) (texts : List String) (s : Supply) :
    ∀ c ∈ (Traced.evaluateTexts config texts (.blank s)).2.calls, c.Older := by
  obtain ⟨new, hcalls, hwithin, -⟩ := (session_extends config texts (.blank s)).calls
  intro c hc
  rw [hcalls, Ledger.blank, List.append_nil] at hc
  exact (hwithin c hc).older

theorem lookup_substitution (c : Call) (x : String) :
    c.substitution.lookup x = ((c.binders.zip c.args).lookup x).map Value.toExpr := by
  rw [substitution, List.zip_map_right]
  exact lookup_map_of_injective Function.injective_id Value.toExpr _ x

theorem lookup_substitution_eq_none {c : Call} {x : String} (hx : x ∉ c.binders) : c.substitution.lookup x = none := by
  rw [lookup_substitution, lookup_eq_none_of_not_mem (not_mem_map_fst_zip hx c.args), Option.map_none]

/-- **What stands at an address of an expression stands there when a call evaluates it**, renamed and substituted. -/
theorem at?_instantiated {c : Call} {i : Nat} {e e' d : Expr} {p : Address} (form : c.exprs[i]? = some e)
    (result : c.instantiated[i]? = some e') (place : e.at? p = some d) :
    ∃ m Δ, e'.at? p = some ((d.rename m Δ).substitute (c.substitution.without (e'.boundOn p))) ∧
      c.supply.issued ≤ m ∧ (∀ x, x ∉ e.boundOn p → Δ.resolve x = x) ∧
      ∀ x ∈ e'.boundOn p, ¬ NumberedUpTo c.supply.issued x := by
  have hren : c.renamed[i]? = some (e.rename (c.supply.issued + Expr.binderCountAll (c.exprs.take i)) []) := by
    rw [renamed, rename, Expr.getElem?_renameAll, form, Option.map_some]
  rw [instantiated, Expr.getElem?_substituteAll, hren, Option.map_some, Option.some.injEq] at result
  obtain ⟨m, Δ, hm, hat, hΔ, hnew⟩ := Expr.at?_rename place (c.supply.issued + Expr.binderCountAll (c.exprs.take i)) []
  obtain ⟨hsubst, hbound⟩ := Expr.at?_substitute hat c.substitution
  subst result
  rw [hbound]
  exact ⟨m, Δ, hsubst, by omega, hΔ, fun x hx hold => hnew x hx (hold.mono (Nat.le_add_right _ _))⟩

end Call

end SubstModel

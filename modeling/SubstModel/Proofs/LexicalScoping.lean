import SubstModel.Proofs.Language.Grammar
import SubstModel.Proofs.Lexical
import SubstModel.Proofs.Nameless.Instantiation
import SubstModel.Proofs.Nameless.Substitution
import SubstModel.Proofs.Run

/-!
# Lexical scoping — substitution does what local environments do

Evaluation by substitution and the textbook evaluator go through a program in step.  Where the one has a procedure with
arguments put in, the other has a closure with a local environment; the two are the same when names are forgotten and
the local names stand for their values.

* `LexValue.read` — the nameless form of a closure, its local names standing for their values;
* `Simulates` — the two evaluators end alike;
* `simulates_apply` — a value applied to values, where `nameless_applied` and `Expr.nameless_instantiate` meet;
* `simulates_step`, `simulates_eval` — one step, and evaluation;
* `lexical_scoping` — **both evaluators come to matching values, or to failures of one kind**.
-/

namespace SubstModel

/-! ### Reading closures back -/

mutual

/-- The nameless form of a value, with local names standing for their values. -/
def LexValue.read : LexValue → TermValue Unit
  | .number x => .number x
  | .boolean b => .boolean b
  | .string s => .string s
  | .symbol s => .symbol s
  | .list items => .list (LexValue.readAll items)
  | .primitive p => .primitive p
  | .closure params body locals =>
    .closure () params.length (Expr.namelessAll unmarked (LexValue.readLocals locals) params.reverse body)

/-- The nameless forms of several values. -/
def LexValue.readAll : List LexValue → List (TermValue Unit)
  | [] => []
  | w :: ws => LexValue.read w :: LexValue.readAll ws

/-- Names with the nameless forms of their values. -/
def LexValue.readLocals : List (String × LexValue) → Standins Unit
  | [] => []
  | (x, w) :: locals => (x, LexValue.read w) :: LexValue.readLocals locals

end

theorem LexValue.readAll_eq_map (ws : List LexValue) : LexValue.readAll ws = ws.map LexValue.read := by
  induction ws with
  | nil => rfl
  | cons w ws ih => rw [LexValue.readAll, ih, List.map_cons]

theorem LexValue.readLocals_append (ρ ρ' : LexBindings) :
    LexValue.readLocals (ρ ++ ρ') = LexValue.readLocals ρ ++ LexValue.readLocals ρ' := by
  induction ρ with
  | nil => rfl
  | cons b ρ ih => rw [List.cons_append, LexValue.readLocals, ih, LexValue.readLocals, List.cons_append]

theorem LexValue.readLocals_eq_map (ρ : LexBindings) :
    LexValue.readLocals ρ = ρ.map fun b => (b.1, b.2.read) := by
  induction ρ with
  | nil => rfl
  | cons b ρ ih => rw [LexValue.readLocals, ih, List.map_cons]

theorem LexValue.readLocals_argumentPairs (params : List String) (ws : List LexValue) :
    LexValue.readLocals (argumentPairs params ws) = argumentPairs params (ws.map LexValue.read) := by
  rw [LexValue.readLocals_eq_map, argumentPairs, argumentPairs, List.map_reverse, List.zip_map_right]
  rfl

theorem LexValue.lookup_readLocals (ρ : LexBindings) (x : String) :
    (LexValue.readLocals ρ).lookup x = (ρ.lookup x).map LexValue.read := by
  rw [LexValue.readLocals_eq_map]
  exact lookup_map_of_injective Function.injective_id LexValue.read ρ x

mutual

theorem LexValue.closed_read : ∀ w : LexValue, w.read.Closed
  | .number _ | .boolean _ | .string _ | .symbol _ | .list _ | .primitive _ => fun _ _ => rfl
  | .closure params body locals =>
    TermValue.closed_closure unmarked (LexValue.closed_readLocals locals) () params body

theorem LexValue.closed_readLocals : ∀ ρ : List (String × LexValue), (LexValue.readLocals ρ).Closed
  | [] => Standins.closed_nil
  | (y, w) :: ρ => by
    intro x v hv
    rw [LexValue.readLocals, List.lookup_cons] at hv
    cases hxy : x == y with
    | true =>
      rw [hxy] at hv
      cases hv
      exact LexValue.closed_read w
    | false =>
      rw [hxy] at hv
      exact LexValue.closed_readLocals ρ x v hv

end

/-! ### Values -/

/-- The value is that of the textbook evaluator when names are forgotten. -/
def Value.Reads (v : Value) (w : LexValue) : Prop :=
  v.nameless unmarked = w.read

theorem Value.forall₂_reads {vs : List Value} {ws : List LexValue} :
    List.Forall₂ Value.Reads vs ws ↔ vs.map (Value.nameless unmarked) = ws.map LexValue.read := by
  rw [← List.forall₂_eq_eq_eq, List.forall₂_map_left_iff, List.forall₂_map_right_iff]
  rfl

/-- Values that read alike look alike. -/
theorem Value.Reads.view {v : Value} {w : LexValue} (h : v.Reads w) :
    View.Related Value.Reads v.view w.view := by
  cases v with
  | list vs =>
    cases w with
    | list ws =>
      have hlists : TermValue.list (Value.namelessAll unmarked vs) = .list (LexValue.readAll ws) := h
      rw [TermValue.list.injEq, Value.namelessAll_eq_map, LexValue.readAll_eq_map] at hlists
      exact .list (Value.forall₂_reads.2 hlists)
    | _ => cases h
  | number x => cases w with
    | number y => cases h; exact .number x
    | _ => cases h
  | boolean b => cases w with
    | boolean c => cases h; exact .boolean b
    | _ => cases h
  | string s => cases w with
    | string t => cases h; exact .string s
    | _ => cases h
  | symbol s => cases w with
    | symbol t => cases h; exact .symbol s
    | _ => cases h
  | primitive p => cases w with
    | primitive q => exact .procedure
    | _ => cases h
  | closure r params body => cases w with
    | closure params' body' ρ => exact .procedure
    | _ => cases h
  | classDef | object => cases w <;> cases h

theorem Value.reads_respects : Respects Value.Reads where
  view := Value.Reads.view
  number _ := rfl
  boolean _ := rfl
  list h := by
    have hlists := Value.forall₂_reads.1 h
    rw [← Value.namelessAll_eq_map, ← LexValue.readAll_eq_map] at hlists
    exact congrArg TermValue.list hlists

theorem Value.Reads.isTrue {v : Value} {w : LexValue} (h : v.Reads w) : v.isTrue = w.isTrue := by
  have hview := h.view.isTrue
  rw [hview]
  cases w with
  | boolean b => cases b <;> rfl
  | _ => rfl

mutual

/-- There is no class and no object among the items of the value. -/
def TermValue.Plain {ι : Type} : TermValue ι → Prop
  | .classDef .. | .object .. => False
  | .list items => TermValue.PlainAll items
  | _ => True

/-- There is no class and no object in any of the values. -/
def TermValue.PlainAll {ι : Type} : List (TermValue ι) → Prop
  | [] => True
  | v :: vs => TermValue.Plain v ∧ TermValue.PlainAll vs

end

mutual

theorem Value.Within.plain {L : Language} (hL : ¬ L.classes) (g : Ref → Unit) :
    ∀ v : Value, v.Within L → (v.nameless g).Plain
  | .number _, _ | .boolean _, _ | .string _, _ | .symbol _, _ | .primitive _, _ | .closure .., _ => trivial
  | .list vs, h => Value.Within.plainAll hL g vs h
  | .classDef .., h | .object .., h => absurd h.1 hL

theorem Value.Within.plainAll {L : Language} (hL : ¬ L.classes) (g : Ref → Unit) :
    ∀ vs, Value.WithinAll L vs → TermValue.PlainAll (Value.namelessAll g vs)
  | [], _ => trivial
  | v :: vs, ⟨hv, hvs⟩ => ⟨Value.Within.plain hL g v hv, Value.Within.plainAll hL g vs hvs⟩

end

mutual

/-- A quotation without classes has a value, which reads as what is quoted. -/
theorem LexValue.ofValue?_reads : ∀ v : Value, (v.nameless unmarked).Plain →
    ∃ w, LexValue.ofValue? v = some w ∧ v.Reads w
  | .number _, _ | .boolean _, _ | .string _, _ | .symbol _, _ | .primitive _, _ | .closure .., _ =>
    ⟨_, rfl, rfl⟩
  | .list vs, h => by
    obtain ⟨ws, hws, hread⟩ := LexValue.ofValues?_reads vs h
    refine ⟨.list ws, ?_, congrArg TermValue.list hread⟩
    rw [LexValue.ofValue?, hws, Option.map_some]
  | .classDef .., h | .object .., h => h.elim

theorem LexValue.ofValues?_reads : ∀ vs, TermValue.PlainAll (Value.namelessAll unmarked vs) →
    ∃ ws, LexValue.ofValues? vs = some ws ∧ Value.namelessAll unmarked vs = LexValue.readAll ws
  | [], _ => ⟨[], rfl, rfl⟩
  | v :: vs, ⟨hv, hvs⟩ => by
    obtain ⟨w, hw, hread⟩ := LexValue.ofValue?_reads v hv
    obtain ⟨ws, hws, hreads⟩ := LexValue.ofValues?_reads vs hvs
    refine ⟨w :: ws, ?_, ?_⟩
    · rw [LexValue.ofValues?, hw, hws]
    · rw [Value.namelessAll, LexValue.readAll, hreads]
      exact congrArg (· :: LexValue.readAll ws) hread

end

/-! ### Environments -/

/-- The definitions are those of the textbook evaluator. -/
def Environment.Reads (env : Environment) (globals : LexBindings) : Prop :=
  env.bindings.map (fun b => (b.1, b.2.nameless unmarked)) = globals.map fun b => (b.1, b.2.read)

theorem Environment.Reads.extend {env : Environment} {globals : LexBindings} (h : env.Reads globals)
    (x : String) {v : Value} {w : LexValue} (hvw : v.Reads w) :
    (env.extend x v).Reads ((x, w) :: globals) := by
  show (x, v.nameless unmarked) :: _ = (x, w.read) :: _
  rw [show v.nameless unmarked = w.read from hvw]
  exact congrArg _ h

theorem Environment.Reads.get? {env : Environment} {globals : LexBindings} (h : env.Reads globals)
    (x : String) : (env.get? x).map (Value.nameless unmarked) = (globals.lookup x).map LexValue.read := by
  have hglobals : (globals.map fun b => (b.1, b.2.read)).lookup x = (globals.lookup x).map LexValue.read :=
    lookup_map_of_injective Function.injective_id LexValue.read globals x
  rw [← hglobals, ← h]
  exact (lookup_map_of_injective Function.injective_id (Value.nameless unmarked) env.bindings x).symm

/-! ### Outcomes -/

/-- A failure as far as the textbook evaluator tells failures apart. -/
def Failure.lexical : Failure → LexFailure
  | .unboundVariable x => .unbound x
  | .eval (.depthLimit _) => .depth
  | f => .other f.kind

theorem Failure.IsOfPrimitive.lexical {f : Failure} (h : f.IsOfPrimitive) : f.lexical = .other f.kind := by
  cases f with
  | unboundVariable x => exact absurd h id
  | eval fault => cases fault <;> first | rfl | exact absurd h id
  | _ => rfl

/-- A step ends as the textbook evaluator does: with results that are related, or with failures of one kind. -/
def Simulates {α β : Type} (R : α → β → Prop) :
    EStateM.Result Failure Supply α → Except LexFailure β → Prop
  | .ok a _, .ok b => R a b
  | .error f _, .error f' => f.lexical = f'
  | _, _ => False

theorem Simulates.imp {α β : Type} {R R' : α → β → Prop} {r : EStateM.Result Failure Supply α}
    {r' : Except LexFailure β} (h : Simulates R r r') (hR : ∀ a b, R a b → R' a b) : Simulates R' r r' := by
  cases r with
  | ok a s => cases r' with
    | ok b => exact hR a b h
    | error f => exact h
  | error f s => cases r' with
    | ok b => exact h
    | error f' => exact h

theorem Simulates.bind {α β γ δ : Type} {R : α → β → Prop} {R' : γ → δ → Prop} {m : Run α}
    {next : α → Run γ} {r : Except LexFailure β} {next' : β → Except LexFailure δ} {s : Supply}
    (h : Simulates R (m s) r)
    (hnext : ∀ a s' b, m s = .ok a s' → R a b → Simulates R' (next a s') (next' b)) :
    Simulates R' ((m >>= next) s) (r >>= next') := by
  cases hm : m s with
  | ok a s' =>
    rw [hm] at h
    rw [Run.bind_of_ok hm]
    cases r with
    | ok b => exact hnext a s' b hm h
    | error f => exact absurd h id
  | error f s' =>
    rw [hm] at h
    rw [Run.bind_of_error hm]
    cases r with
    | ok b => exact absurd h id
    | error f' => exact h

/-! ### The language of the comparison -/

/-- What class-free programs without equalities are made of, with names up to the count of the supply. -/
def Language.plain (s : Supply) : Language where
  name := NumberedUpTo s.issued
  binders := List.Nodup
  primitive p := p ≠ .identical ∧ p ≠ .equal
  classes := False
  definitions := False

theorem Language.plain_grows : Language.Grows Language.plain where
  mono h := ⟨fun hx => hx.mono h.1, id, id, id, id, id, id, id, id, id, id⟩
  name h := numberedUpTo_freshName.2 h
  binders := nodup_freshNames _ _
  ref _ := trivial

/-- Evaluation of expressions does what the textbook evaluator does, with so many steps left. -/
def SimulatesExprs (config : Config) (n : Nat) : Prop :=
  ∀ {s : Supply} {env : Environment} {e e' : Expr} {globals locals : LexBindings},
    env.Within (.plain s) → e.Within (.plain s) [] → env.Reads globals →
    e.nameless unmarked [] [] = e'.nameless unmarked (LexValue.readLocals locals) [] →
    Simulates Value.Reads (eval config n env e s) (Lexical.eval n globals locals e')

/-- Evaluation of sequences does what the textbook evaluator does, with so many steps left. -/
def SimulatesForms (config : Config) (n : Nat) : Prop :=
  ∀ {s : Supply} {env : Environment} {es es' : List Expr} {globals locals : LexBindings},
    env.Within (.plain s) → (∀ e ∈ es, e.WithinForm (.plain s)) → env.Reads globals →
    Expr.namelessAll unmarked [] [] es = Expr.namelessAll unmarked (LexValue.readLocals locals) [] es' →
    Simulates Value.Reads (evalSequence config n env es s) (Lexical.sequence n globals locals es')

/-- Behind the evaluation of an expression everything is within the language, at the supply of that time. -/
theorem SimulatesExprs.bind {config : Config} {n : Nat} (heval : SimulatesExprs config n) {β γ : Type}
    {R : β → γ → Prop} {s : Supply} {env : Environment} {e e' : Expr} {globals locals : LexBindings}
    {next : Value → Run β} {next' : LexValue → Except LexFailure γ} (henv : env.Within (.plain s))
    (he : e.Within (.plain s) []) (hglobals : env.Reads globals)
    (h : e.nameless unmarked [] [] = e'.nameless unmarked (LexValue.readLocals locals) [])
    (hnext : ∀ v s' w, Language.plain s ≤ Language.plain s' → v.Within (.plain s') → v.Reads w →
      Simulates R (next v s') (next' w)) :
    Simulates R ((eval config n env e >>= next) s) (Lexical.eval n globals locals e' >>= next') := by
  refine (heval henv he hglobals h).bind fun v s' w hv hvw => ?_
  have hends := eval_ends Language.plain_grows config n henv he
  rw [hv] at hends
  exact hnext v s' w (Language.plain_grows.mono hends.1) hends.2 hvw

/-! ### Application -/

/-- **Where procedures read alike, so do their bodies, applied to arguments that read alike.** -/
theorem nameless_body {issued : Nat} {params params' : List String} {body body' : List Expr}
    {locals : LexBindings} {args : List Value} {ws : List LexValue}
    (hparams : params.Nodup) (hbody : ∀ x, Expr.FreeInAny x body → NumberedUpTo issued x)
    (hargs : ∀ v ∈ args, ∀ x, v.toExpr.FreeIn x → NumberedUpTo issued x)
    (hlen : params.length = args.length) (hlen' : params.length = params'.length)
    (hreads : List.Forall₂ Value.Reads args ws)
    (h : Expr.namelessAll unmarked [] params.reverse body
      = Expr.namelessAll unmarked (LexValue.readLocals locals) params'.reverse body') :
    Expr.namelessAll unmarked [] [] (substitute params (args.map Value.toExpr) (rename issued body))
      = Expr.namelessAll unmarked (LexValue.readLocals (argumentPairs params' ws ++ locals)) [] body' := by
  have hvalues := Value.forall₂_reads.1 hreads
  have hlenw : params'.length = (ws.map LexValue.read).length := by
    rw [← hvalues, List.length_map, ← hlen', hlen]
  have hbound := Expr.namelessAll_instantiate unmarked (LexValue.closed_readLocals locals) hlenw body' []
  rw [List.nil_append, List.length_nil] at hbound
  rw [nameless_application unmarked hparams hlen hbody hargs, Value.namelessAll_eq_map, h, hvalues, hbound,
    LexValue.readLocals_append, LexValue.readLocals_argumentPairs]

theorem simulates_apply {config : Config} {n : Nat} (hrun : SimulatesForms config n) {s : Supply}
    {env : Environment} {v : Value} {args : List Value} {globals : LexBindings} {w : LexValue}
    {ws : List LexValue} (henv : env.Within (.plain s)) (hv : v.Within (.plain s))
    (hargs : ∀ v ∈ args, v.Within (.plain s)) (hglobals : env.Reads globals) (hvw : v.Reads w)
    (hreads : List.Forall₂ Value.Reads args ws) :
    Simulates Value.Reads (applyProcedure (evalSequence config n env) v args s)
      (Lexical.apply (Lexical.sequence n globals) w ws) := by
  cases v with
  | primitive p => cases w with
    | primitive q =>
      cases hvw
      have hrelated := Primitive.apply_related Value.reads_respects hv.1 hv.2 hreads
      show Simulates Value.Reads (Run.ofOutcome (p.apply args) s) ((p.applyOn ws).mapError .other)
      generalize p.apply args = r, p.applyOn ws = r' at hrelated
      cases hrelated with
      | ok h => exact h
      | error h => exact h.lexical
    | _ => cases hvw
  | closure r params body => cases w with
    | closure params' body' locals =>
      obtain ⟨-, hparams, -, hbody⟩ := hv
      have hclosures : TermValue.closure () params.length (Expr.namelessAll unmarked [] params.reverse body)
        = .closure () params'.length
          (Expr.namelessAll unmarked (LexValue.readLocals locals) params'.reverse body') := hvw
      rw [TermValue.closure.injEq] at hclosures
      obtain ⟨-, hlen', hbodies⟩ := hclosures
      rw [applyProcedure, Lexical.apply, ← hlen', ← hreads.length_eq]
      by_cases hlen : params.length = args.length
      · rw [if_pos hlen, if_pos hlen]
        have hle : s ≤ { s with issued := issuedAfter s.issued body } :=
          ⟨Nat.le_add_right _ _, Nat.le_refl _⟩
        have hwithin := applied_within Language.plain_grows hle rfl hlen hargs hbody
        refine hrun (henv.mono (Language.plain_grows.mono hle)) (fun e he => ?_) hglobals ?_
        · exact (Expr.withinAll_iff.1 hwithin e he).form
        · exact nameless_body hparams.1 (fun x hx => Expr.Within.name_of_freeInAny body hbody hx)
            (fun v hv x hx => Expr.Within.name_of_freeIn _ (hargs v hv).toExpr hx) hlen hlen' hreads hbodies
      · rw [if_neg hlen, if_neg hlen]
        rfl
    | _ => cases hvw
  | classDef | object => exact absurd hv.1 id
  | number x => cases w with
    | number y => rfl
    | _ => cases hvw
  | boolean x => cases w with
    | boolean y => rfl
    | _ => cases hvw
  | string x => cases w with
    | string y => rfl
    | _ => cases hvw
  | symbol x => cases w with
    | symbol y => rfl
    | _ => cases hvw
  | list x => cases w with
    | list y => rfl
    | _ => cases hvw

/-! ### Evaluation -/

/-- Where a name stands for a value, the expression in its place has that value. -/
theorem eval_standin (config : Config) (n : Nat) (s : Supply) (env : Environment) {e : Expr} {w : LexValue}
    (h : e.nameless unmarked [] [] = w.read.toTerm) :
    ∃ v s', eval config (n + 1) env e s = .ok v s' ∧ v.Reads w := by
  rw [eval_succ]
  cases w with
  | number x => cases e with
    | number y => cases h; exact ⟨_, _, rfl, rfl⟩
    | _ => cases h
  | boolean b => cases e with
    | boolean c => cases h; exact ⟨_, _, rfl, rfl⟩
    | _ => cases h
  | string x => cases e with
    | string y => cases h; exact ⟨_, _, rfl, rfl⟩
    | _ => cases h
  | primitive p => cases e with
    | primitive q => cases h; exact ⟨_, _, rfl, rfl⟩
    | _ => cases h
  | symbol x => cases e with
    | quoted v =>
      have hv : Term.quoted (v.nameless unmarked) = .quoted (LexValue.symbol x).read := h
      exact ⟨v, s, rfl, Term.quoted.inj hv⟩
    | _ => cases h
  | list ws => cases e with
    | quoted v =>
      have hv : Term.quoted (v.nameless unmarked) = .quoted (LexValue.list ws).read := h
      exact ⟨v, s, rfl, Term.quoted.inj hv⟩
    | _ => cases h
  | closure params' body' locals => cases e with
    | lambda params body =>
      have hlambdas : Term.lambda params.length (Expr.namelessAll unmarked [] (params.reverse ++ []) body)
        = .lambda params'.length _ := h
      rw [Term.lambda.injEq, List.append_nil] at hlambdas
      refine ⟨_, _, rfl, ?_⟩
      show TermValue.closure () params.length _ = TermValue.closure () params'.length _
      rw [hlambdas.1, hlambdas.2]
    | _ => cases h

/-- A variable that no local name hides has the value that the top level gives it. -/
theorem simulates_lookup {env : Environment} {globals : LexBindings} (h : env.Reads globals) (x : String)
    (s : Supply) {locals : LexBindings} (hx : locals.lookup x = none) :
    Simulates Value.Reads (Run.ofOutcome (env.lookup x) s) (Lexical.lookup globals locals x) := by
  have hget := h.get? x
  rw [Lexical.lookup, hx, Option.none_or, Environment.lookup]
  cases hv : env.get? x with
  | none =>
    rw [hv, Option.map_none] at hget
    cases hw : globals.lookup x with
    | none => rfl
    | some w => rw [hw] at hget; cases hget
  | some v =>
    rw [hv, Option.map_some] at hget
    cases hw : globals.lookup x with
    | none => rw [hw] at hget; cases hget
    | some w =>
      rw [hw, Option.map_some] at hget
      exact Option.some.inj hget

theorem simulates_operands {config : Config} {n : Nat} (heval : SimulatesExprs config n)
    {env : Environment} {globals locals : LexBindings} (hglobals : env.Reads globals) (es es' : List Expr)
    {s : Supply} (henv : env.Within (.plain s)) (hes : ∀ e ∈ es, e.Within (.plain s) [])
    (h : Expr.namelessAll unmarked [] [] es
      = Expr.namelessAll unmarked (LexValue.readLocals locals) [] es') :
    Simulates (List.Forall₂ Value.Reads) (es.mapM (eval config n env) s)
      (es'.mapM (Lexical.eval n globals locals)) := by
  induction es generalizing es' s with
  | nil => cases es' with
    | nil => exact .nil
    | cons e' es' => cases h
  | cons e es ih => cases es' with
    | nil => cases h
    | cons e' es' =>
      rw [Expr.namelessAll, Expr.namelessAll, List.cons.injEq] at h
      have he := hes e List.mem_cons_self
      rw [List.mapM_cons, List.mapM_cons]
      refine heval.bind henv he hglobals h.1 fun v s' w hle _ hvw => ?_
      refine (ih es' (henv.mono hle) (fun e he => ?_) h.2).bind fun vs s'' ws _ hvws => ?_
      · exact Expr.Within.mono hle (List.Subset.refl _) e (hes e (List.mem_cons_of_mem _ he))
      · exact List.Forall₂.cons hvw hvws

theorem simulates_var {config : Config} {n : Nat} {s : Supply} {env : Environment} {e : Expr} {x : String}
    {globals locals : LexBindings} (hglobals : env.Reads globals)
    (h : e.nameless unmarked [] [] = (Expr.var x).nameless unmarked (LexValue.readLocals locals) []) :
    Simulates Value.Reads (eval config (n + 1) env e s) (Lexical.lookup globals locals x) := by
  have hlookup := LexValue.lookup_readLocals locals x
  rw [Expr.nameless] at h
  cases hx : locals.lookup x with
  | some w =>
    rw [hx, Option.map_some] at hlookup
    rw [Term.ofVar_of_lookup List.not_mem_nil hlookup] at h
    obtain ⟨v, s', hv, hvw⟩ := eval_standin config n s env h
    rw [hv, Lexical.lookup, hx, Option.some_or]
    exact hvw
  | none =>
    rw [hx, Option.map_none] at hlookup
    rw [Term.ofVar_of_free List.not_mem_nil hlookup] at h
    cases e with
    | var y =>
      have hxy : (Term.free y : Term Unit) = .free x := h
      cases hxy
      exact simulates_lookup hglobals x s hx
    | _ => cases h

section Step

variable {config : Config} {n : Nat} (heval : SimulatesExprs config n) {s : Supply} {env : Environment}
  {globals locals : LexBindings} (henv : env.Within (.plain s)) (hglobals : env.Reads globals)

include heval henv hglobals

theorem simulates_cond {test onTrue onFalse test' onTrue' onFalse' : Expr}
    (he : (Expr.cond test onTrue onFalse).Within (.plain s) [])
    (h : (Expr.cond test onTrue onFalse).nameless unmarked [] []
      = (Expr.cond test' onTrue' onFalse').nameless unmarked (LexValue.readLocals locals) []) :
    Simulates Value.Reads (eval config (n + 1) env (.cond test onTrue onFalse) s)
      (Lexical.eval (n + 1) globals locals (.cond test' onTrue' onFalse')) := by
  rw [Expr.nameless, Expr.nameless, Term.cond.injEq] at h
  obtain ⟨htest, hTrue, hFalse⟩ := he
  rw [eval_succ, Lexical.eval_succ]
  refine heval.bind henv htest hglobals h.1 fun v s' w hle _ hvw => ?_
  rw [hvw.isTrue]
  by_cases hw : w.isTrue = true
  · rw [if_pos hw, if_pos hw]
    exact heval (henv.mono hle) (Expr.Within.mono hle (List.Subset.refl _) _ hTrue) hglobals h.2.1
  · rw [if_neg hw, if_neg hw]
    exact heval (henv.mono hle) (Expr.Within.mono hle (List.Subset.refl _) _ hFalse) hglobals h.2.2

theorem simulates_app (hrun : SimulatesForms config (n - 1)) {operator operator' : Expr}
    {operands operands' : List Expr} (he : (Expr.app operator operands).Within (.plain s) [])
    (h : (Expr.app operator operands).nameless unmarked [] []
      = (Expr.app operator' operands').nameless unmarked (LexValue.readLocals locals) []) :
    Simulates Value.Reads (eval config (n + 1) env (.app operator operands) s)
      (Lexical.eval (n + 1) globals locals (.app operator' operands')) := by
  rw [Expr.nameless, Expr.nameless, Term.app.injEq] at h
  obtain ⟨hoperator, hoperands⟩ := he
  rw [eval_succ, Lexical.eval_succ]
  refine heval.bind henv hoperator hglobals h.1 fun v s₁ w hle₁ hv hvw => ?_
  have henv₁ := henv.mono hle₁
  have hoperands₁ := Expr.withinAll_iff.1 (Expr.Within.monoAll hle₁ (List.Subset.refl _) operands hoperands)
  refine (simulates_operands heval hglobals operands operands' henv₁ hoperands₁ h.2).bind
    fun vs s₂ ws hvs hvws => ?_
  have hends := operands_end Language.plain_grows config n henv₁ hoperands₁
  rw [hvs] at hends
  have hle₂ := Language.plain_grows.mono hends.1
  exact simulates_apply hrun (henv₁.mono hle₂) (Value.Within.mono hle₂ _ hv) hends.2 hglobals hvw hvws

end Step

/-- The application that the textbook evaluator makes of a `let` is the one that evaluation by substitution makes. -/
theorem Lexical.step_letIn (eval : LexBindings → LexBindings → Expr → Except LexFailure LexValue)
    (run : LexBindings → LexBindings → List Expr → Except LexFailure LexValue) (globals locals : LexBindings)
    (bindings : List (String × Expr)) (body : List Expr) :
    Lexical.step eval run globals locals (.letIn bindings body)
      = eval globals locals (letApplication bindings body) := by
  rw [Lexical.step, letApplication]

theorem simulates_step {config : Config} (hlets : config.lets = .expand) {n : Nat}
    (heval : SimulatesExprs config n) (hrun : SimulatesForms config (n - 1)) :
    SimulatesExprs config (n + 1) := by
  intro s env e e' globals locals henv he hglobals h
  -- The form of the textbook side comes first: where it is a variable, the other side is whatever was put in for it.
  cases e' with
  | var x => exact simulates_var hglobals h
  | number x => cases e with
    | number y => cases h; exact rfl
    | _ => cases h
  | boolean b => cases e with
    | boolean c => cases h; exact rfl
    | _ => cases h
  | string x => cases e with
    | string y => cases h; exact rfl
    | _ => cases h
  | primitive p => cases e with
    | primitive q => cases h; exact rfl
    | _ => cases h
  | quoted v' => cases e with
    | quoted v =>
      have hquoted : Term.quoted (v.nameless unmarked) = .quoted (v'.nameless unmarked) := h
      have hread := Term.quoted.inj hquoted
      have hplain := Value.Within.plain (fun hc => hc) unmarked v he
      rw [hread] at hplain
      obtain ⟨w, hw, hvw⟩ := LexValue.ofValue?_reads v' hplain
      rw [Lexical.eval_succ, Lexical.step, hw]
      exact hread.trans hvw
    | _ => cases h
  | cond test' onTrue' onFalse' => cases e with
    | cond test onTrue onFalse => exact simulates_cond heval henv hglobals he h
    | _ => cases h
  | lambda params' body' => cases e with
    | lambda params body =>
      have hlambdas : Term.lambda params.length (Expr.namelessAll unmarked [] (params.reverse ++ []) body)
        = .lambda params'.length
          (Expr.namelessAll unmarked (LexValue.readLocals locals) (params'.reverse ++ []) body') := h
      rw [Term.lambda.injEq, List.append_nil, List.append_nil] at hlambdas
      show TermValue.closure () params.length _ = TermValue.closure () params'.length _
      rw [hlambdas.1, hlambdas.2]
    | _ => cases h
  | app operator' operands' => cases e with
    | app operator operands => exact simulates_app heval henv hglobals hrun he h
    | _ => cases h
  | letIn bindings' body' => cases e with
    | letIn bindings body =>
      rw [Expr.nameless, Expr.nameless, Term.letIn.injEq] at h
      rw [eval_succ, evalStep, hlets, Lexical.eval_succ, Lexical.step_letIn]
      refine heval henv he.letApplication hglobals ?_
      rw [nameless_letApplication, nameless_letApplication, h.1, h.2]
    | _ => cases h
  | define x value => cases e with
    | define y value' => exact absurd he.1 id
    | _ => cases h
  | classDef fields methods => cases e with
    | classDef fields' methods' => exact absurd he.1 id
    | _ => cases h

theorem ne_define_of_nameless {e e' : Expr} {σ σ' : Standins Unit}
    (h : e.nameless unmarked σ [] = e'.nameless unmarked σ' []) (hdef : ∀ x value, e ≠ .define x value) :
    ∀ x value, e' ≠ .define x value := by
  intro x value he'
  rw [he', Expr.nameless] at h
  exact nameless_ne_define hdef x _ h

theorem simulates_forms {config : Config} {n : Nat} (heval : SimulatesExprs config n) :
    SimulatesForms config (n + 1) := by
  intro s env es es' globals locals henv hes hglobals h
  show Simulates Value.Reads (evalForms (eval config n) env es s)
    (Lexical.forms (fun globals e => Lexical.eval n globals locals e) globals es')
  fun_induction evalForms (eval config n) env es generalizing s es' globals with
  | case1 env => cases es' with
    | nil => exact rfl
    | cons e' es' => cases h
  | case2 env x e rest ih => cases es' with
    | nil => cases h
    | cons e' rest' =>
      rw [Expr.namelessAll, Expr.namelessAll, List.cons.injEq] at h
      obtain ⟨value', rfl, hvalue⟩ := eq_define_of_nameless h.1.symm
      obtain ⟨hx, he⟩ := hes _ List.mem_cons_self
      refine heval.bind henv he hglobals hvalue.symm fun v s' w hle hv hvw => ?_
      exact ih v ((henv.mono hle).extend (hle.name hx) hv)
        (fun e' he' => (hes e' (List.mem_cons_of_mem _ he')).mono hle) (hglobals.extend x hvw) h.2
  | case3 env e hdef => cases es' with
    | nil => cases h
    | cons e' rest' =>
      rw [Expr.namelessAll, Expr.namelessAll, Expr.namelessAll, List.cons.injEq] at h
      have he := (hes e (List.mem_singleton_self e)).expr hdef
      have hdef' := ne_define_of_nameless h.1 hdef
      cases rest' with
      | nil =>
        rw [Lexical.forms]
        · exact heval henv he hglobals h.1
        · exact hdef'
      | cons => cases h.2
  | case4 env e rest hdef hne ih => cases es' with
    | nil => cases h
    | cons e' rest' =>
      rw [Expr.namelessAll, Expr.namelessAll, List.cons.injEq] at h
      have he := (hes e List.mem_cons_self).expr hdef
      have hdef' := ne_define_of_nameless h.1 hdef
      have hne' : rest' = [] → False := by
        intro hnil
        subst hnil
        cases rest with
        | nil => exact hne rfl
        | cons => cases h.2
      rw [Lexical.forms]
      · refine heval.bind henv he hglobals h.1 fun v s' w hle _ _ => ?_
        exact ih (henv.mono hle) (fun e' he' => (hes e' (List.mem_cons_of_mem _ he')).mono hle) hglobals h.2
      · exact hdef'
      · exact hne'

/-- **Evaluation by substitution does what the textbook evaluator does, whatever number of steps is left.** -/
theorem simulates_eval {config : Config} (hlets : config.lets = .expand) :
    ∀ n, SimulatesExprs config n ∧ SimulatesForms config n := by
  intro n
  induction n using Nat.strongRecOn with
  | ind n ih =>
    cases n with
    | zero => exact ⟨fun _ _ _ _ => rfl, fun _ _ _ _ => rfl⟩
    | succ n =>
      have hparts : SimulatesExprs config n := (ih n (by omega)).1
      have hbodies : SimulatesForms config (n - 1) := (ih (n - 1) (by omega)).2
      exact ⟨simulates_step hlets hparts hbodies, simulates_forms hparts⟩

/-! ### Programs -/

mutual

/-- The value is that of the textbook evaluator: the same atom, a list of such items, or a closure as well. -/
def Value.Matches : Value → LexValue → Prop
  | .number x, .number y => x = y
  | .boolean b, .boolean c => b = c
  | .string s, .string t => s = t
  | .symbol s, .symbol t => s = t
  | .primitive p, .primitive q => p = q
  | .list vs, .list ws => Value.MatchesAll vs ws
  | .closure .., .closure .. => True
  | _, _ => False

/-- The values are those of the textbook evaluator. -/
def Value.MatchesAll : List Value → List LexValue → Prop
  | [], [] => True
  | v :: vs, w :: ws => Value.Matches v w ∧ Value.MatchesAll vs ws
  | _, _ => False

end

mutual

theorem Value.Reads.matches : ∀ {v : Value} {w : LexValue}, v.Reads w → v.Matches w
  | .number _, .number _, h | .boolean _, .boolean _, h | .string _, .string _, h
  | .symbol _, .symbol _, h | .primitive _, .primitive _, h => by cases h; exact rfl
  | .list _, .list _, h => Value.matchesAll_of_reads (TermValue.list.inj h)
  | .closure .., .closure .., _ => trivial
  | .classDef .., w, h | .object .., w, h => by cases w <;> cases h

theorem Value.matchesAll_of_reads : ∀ {vs : List Value} {ws : List LexValue},
    Value.namelessAll unmarked vs = LexValue.readAll ws → Value.MatchesAll vs ws
  | [], [], _ => trivial
  | _ :: _, _ :: _, h => ⟨Value.Reads.matches (List.cons.inj h).1, Value.matchesAll_of_reads (List.cons.inj h).2⟩

end

/-- What has no class and neither of the equalities. -/
def Language.comparable : Language where
  primitive p := p ≠ .identical ∧ p ≠ .equal
  classes := False

theorem Language.spelled_and_comparable_le_plain (s : Supply) :
    Language.spelled.and Language.comparable ≤ Language.plain s where
  name h := numberedUpTo_of_no_hash h.1 s.issued
  free _ := trivial
  binders h := h.1
  label _ := trivial
  symbol _ := trivial
  primitive h := h.2
  ref _ := trivial
  classes h := h.2
  lets _ := trivial
  definitions h := h.1
  emptyBodies _ := trivial

/-- **Lexical scoping.**  A program that is read from text and has neither a class nor one of the two equalities comes
to the same under substitution as under the textbook evaluator, whatever has been handed out before and whatever the
limit on nested steps: to matching values, or to failures of one kind. -/
theorem lexical_scoping (config : Config) (hlets : config.lets = .expand) {text : String} {p : Program}
    (hp : Program.ofText text = .ok p) (hforms : ∀ e ∈ p.forms, e.WithinForm .comparable) (s : Supply) :
    Simulates Value.Matches (evaluateProgram config p s) (Lexical.program config.maxDepth p) := by
  have hprepared : p.prepared config = p := Program.prepared_of_within (fun hc => hc) config hforms
  have hplain : ∀ e ∈ p.forms, e.WithinForm (.plain s) := fun e he =>
    ((Program.within_ofText hp e he).and (hforms e he)).mono (Language.spelled_and_comparable_le_plain s)
  have hempty : Environment.empty.Within (.plain s) := fun b hb => absurd hb List.not_mem_nil
  have hglobals : Environment.empty.Reads [] := rfl
  have hsimulates := (simulates_eval hlets config.maxDepth).2 hempty hplain hglobals
    (show _ = Expr.namelessAll unmarked (LexValue.readLocals []) [] p.forms from rfl)
  rw [evaluateProgram_eq, evaluateSequence, hprepared, Lexical.program]
  exact hsimulates.imp fun _ _ h => h.matches

/-- A procedure that is applied in two steps, of which the first leaves a variable to the second. -/
theorem lexical_scoping_curried :
    let text := "(((lambda (x) (lambda (y) x)) #t) #f)"
    let p : Program := ⟨[.app (.app (.lambda ["x"] [.lambda ["y"] [.var "x"]]) [.boolean true]) [.boolean false]]⟩
    Program.ofText text = .ok p ∧ (∀ e ∈ p.forms, e.WithinForm .comparable) ∧
      Simulates Value.Matches (evaluateProgram { } p { }) (Lexical.program 256 p) := by
  intro text p
  have hp : Program.ofText text = .ok p := by
    subst text p
    rfl
  have hforms : ∀ e ∈ p.forms, e.WithinForm .comparable := by
    simp [p, Expr.WithinForm, Expr.Within, Expr.WithinAll, Language.Binds, Language.HasBody, Language.comparable]
  exact ⟨hp, hforms, lexical_scoping { } rfl hp hforms { }⟩

end SubstModel

import SubstModel.Proofs.Renaming
import SubstModel.Proofs.Run

/-!
# Chains of comparisons — the first method of a name is applied

The body of a dispatcher compares the message with the names of the methods in turn.  It is renamed and the message is
put in like any other body; what comes of it is the chain of the methods renamed, for the message that was put in.

* `chainOf` — the chain for a message that an expression gives;
* `rename_chainOf`, `substitute_chainOf` — renaming and substitution are those of the methods;
* `ComesTo` — a result is that of certain forms, or the limit on nested steps is exceeded;
* `eval_chainOf` — **the chain for a name comes to the body of the first method of that name**.
-/

namespace SubstModel

/-! ### Chains -/

/-- The value of the first method whose name is what the expression gives, and `#f` if there is none. -/
def chainOf (message : Expr) : List (String × Expr) → Expr
  | [] => .boolean false
  | (name, method) :: methods =>
    .cond (.app (.primitive .identical) [message, .quoted (.symbol name)]) (.app method [])
      (chainOf message methods)

theorem dispatchChain_eq (message : String) (methods : List (String × Expr)) :
    dispatchChain .identical message methods = chainOf (.var message) methods := by
  induction methods with
  | nil => rfl
  | cons b methods ih => rw [dispatchChain, ih, chainOf]

theorem binderCount_chainOf {message : Expr} (h : message.binderCount = 0) (methods : List (String × Expr)) :
    (chainOf message methods).binderCount = Expr.binderCountPairs methods := by
  induction methods with
  | nil => rfl
  | cons b methods ih =>
    simp only [chainOf, Expr.binderCount, Expr.binderCountAll, h, ih, Expr.binderCountPairs]
    omega

/-- A chain is renamed by renaming the methods. -/
theorem rename_chainOf {message message' : Expr} {Γ : Scope} (h : message.binderCount = 0)
    (hmessage : ∀ n, message.rename n Γ = message') (methods : List (String × Expr)) (n : Nat) :
    (chainOf message methods).rename n Γ = chainOf message' (Expr.renamePairs n Γ methods) := by
  induction methods generalizing n with
  | nil => rfl
  | cons b methods ih =>
    simp only [chainOf, Expr.rename, Expr.renameAll, Expr.binderCount, Expr.binderCountAll, h, hmessage, ih,
      Expr.renamePairs, Nat.add_zero]

/-- What is put into a chain is put into the message and into the methods. -/
theorem substitute_chainOf (σ : Substitution) (message : Expr) (methods : List (String × Expr)) :
    (chainOf message methods).substitute σ
      = chainOf (message.substitute σ) (Expr.substitutePairs σ methods) := by
  induction methods with
  | nil => rfl
  | cons b methods ih =>
    rw [chainOf, Expr.substitute, ih, Expr.substitutePairs, chainOf]
    rfl

/-! ### Evaluation -/

section Evaluation

variable (config : Config) (env : Environment)

/-- The result is that of the forms, with no more than `n` nested steps for them, or it is the failure at the limit on
nested steps. -/
def ComesTo (n : Nat) (r : EStateM.Result Failure Supply Value) (es : List Expr) (t : Supply) : Prop :=
  (∃ u, r = .error (depthFailure config) u) ∨ ∃ k ≤ n, r = evalSequence config k env es t

variable {config env} in
theorem ComesTo.mono {m n : Nat} (hmn : m ≤ n) {r : EStateM.Result Failure Supply Value} {es : List Expr}
    {t : Supply} (h : ComesTo config env m r es t) : ComesTo config env n r es t := by
  rcases h with hlimit | hforms
  · exact .inl hlimit
  · obtain ⟨k, hk, heq⟩ := hforms
    exact .inr ⟨k, Nat.le_trans hk hmn, heq⟩

/-- A name is compared with another one. -/
theorem eval_comparison (name name' : String) (n : Nat) (s : Supply) :
    let comparison := .app (.primitive .identical) [.quoted (.symbol name), .quoted (.symbol name')]
    eval config n env comparison s = .error (depthFailure config) s ∨
      eval config n env comparison s = .ok (.boolean (name == name')) s := by
  intro comparison
  cases n with
  | zero => exact .inl rfl
  | succ n =>
    cases n with
    | zero => exact .inl rfl
    | succ n => exact .inr rfl

/-- A procedure without parameters is applied where it stands. -/
theorem eval_thunk (body : List Expr) (n : Nat) (s : Supply) :
    ComesTo config env n (eval config n env (.app (.lambda [] body) []) s) (rename s.issued body)
      ⟨issuedAfter s.issued body, s.allocated + 1⟩ := by
  cases n with
  | zero => exact .inl ⟨s, rfl⟩
  | succ n =>
    cases n with
    | zero => exact .inl ⟨s, rfl⟩
    | succ n =>
      refine .inr ⟨n, by omega, ?_⟩
      show evalSequence config n env (substitute [] [] (rename s.issued body)) _ = _
      rw [substitute_nil]

/-- **The chain for a name evaluates the body of the first method of that name**, unless it comes to the limit on nested
steps. -/
theorem eval_chainOf {methods : List (String × Expr)} {name : String} {body : List Expr}
    (h : findMethod? methods name = some (.lambda [] body)) (n : Nat) (s : Supply) :
    ComesTo config env n (eval config n env (chainOf (.quoted (.symbol name)) methods) s) (rename s.issued body)
      ⟨issuedAfter s.issued body, s.allocated + 1⟩ := by
  induction methods generalizing n with
  | nil => cases h
  | cons b methods ih =>
    cases n with
    | zero => exact .inl ⟨s, rfl⟩
    | succ n =>
      rw [chainOf, eval_succ]
      rcases eval_comparison config env name b.1 n s with hlimit | htest
      · exact .inl ⟨s, Run.bind_of_error hlimit⟩
      · rw [evalStep, Run.bind_of_ok htest]
        rw [findMethod?, List.lookup_cons] at h
        cases hname : name == b.1 with
        | true =>
          rw [hname, Option.some.injEq] at h
          rw [h]
          exact (eval_thunk config env body n s).mono (Nat.le_succ n)
        | false =>
          rw [hname] at h
          exact (ih h n).mono (Nat.le_succ n)

end Evaluation

end SubstModel

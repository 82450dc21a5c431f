import SubstModel.Proofs.Dispatcher.Object

/-!
# Method calls — a method is a procedure of the fields that returns a procedure

An object of a class that receives a message does what the method would do as a curried procedure: applied to the values
of the fields, and then to the rest of the message.  A class makes all of its methods fresh at once, and the curried
procedure just the one, so the names that are handed out have other numbers; nothing else differs.

* `callNumber` — the number that a name of the curried call has on the side of the object;
* `method_agrees` — **the method of the object is the procedure that the curried one returns**, up to a relabelling;
* `Made`, `made_agree` — what the two make of the operands;
* `follows_message` — from there on the two calls go in step;
* `method_call_agrees` — **a method call on an object does what the curried call does**.
-/

namespace SubstModel

/-! ### The method and the procedure -/

/-- The number that a name of the curried call has on the side of the object.  Up to `k` numbers are those of the
operands.  The names of the method come behind those of `offset` binders in front of it, and when the one call has
handed out `c` names, the other one has handed out `d` more. -/
def callNumber (k c offset d j : Nat) : Nat :=
  if j ≤ k then j else if j ≤ k + c then j + offset else j + d

theorem callNumber_injective {k c offset d : Nat} (h : offset ≤ d) :
    Function.Injective (callNumber k c offset d) := by
  intro i j heq
  simp only [callNumber] at heq
  split_ifs at heq <;> omega

/-- **The method of the object is the procedure that the curried one returns**, up to a relabelling that keeps what was
there before. -/
theorem method_agrees {s : Supply} {fields : List String} {args : List Value} {methods : List (String × Expr)}
    {name : String} {method : Expr} (hfind : findMethod? methods name = some method)
    (hfields : (Language.handedOut s).Binds fields) (hargs : ∀ v ∈ args, v.Within (.handedOut s))
    (hmethods : Expr.WithinPairs (.handedOut s) fields.reverse methods) :
    ∃ ρ : Relabelling, ρ.Fixes (.handedOut s) ∧
      findMethod? (specialised s.issued fields args methods) name
        = some (((method.rename s.issued []).substitute (fields.zip (args.map Value.toExpr))).relabel ρ) ∧
      ∀ a, ρ.Carries ⟨s.issued + method.binderCount, a⟩ ⟨s.issued + Expr.binderCountPairs methods, a⟩ := by
  obtain ⟨offset, hcount, hoffset⟩ := findMethod?_rename hfind
  let c := method.binderCount
  let d := Expr.binderCountPairs methods - c
  have hle : offset ≤ d := Nat.le_sub_of_add_le hcount
  let ρ := Relabelling.ofNumbers (callNumber_injective (k := s.issued) (c := c) hle) Function.injective_id
  have hfixes : ρ.Fixes (.handedOut s) :=
    Relabelling.fixes_handedOut _ _ (fun n hn => if_pos hn) fun _ _ => rfl
  have hmethod : ρ.Shifts s.issued (s.issued + offset) c := by
    refine Relabelling.shifts_ofNumbers _ _ fun i hi => ?_
    rw [callNumber, if_neg (by omega), if_pos (by omega)]
    omega
  have hlater : ∀ count, ρ.Shifts (s.issued + c) (s.issued + Expr.binderCountPairs methods) count := by
    intro count
    refine Relabelling.shifts_ofNumbers _ _ fun i _ => ?_
    rw [callNumber, if_neg (by omega), if_neg (by omega)]
    omega
  have hvalues : args.map (Value.relabel ρ) = args := by
    rw [← Value.relabelAll_eq_map]
    exact Value.relabelAll_of_within hfixes args (Value.withinAll_iff.2 hargs)
  have hwithin := Expr.withinPairs_iff.1 hmethods _ (mem_of_lookup_eq_some hfind)
  refine ⟨ρ, hfixes, ?_, fun a => ⟨hlater, fun _ => rfl⟩⟩
  rw [specialised, findMethod?_substitutePairs, hoffset, Expr.relabel_substitute, Substitution.relabel_zip,
    Value.map_relabel_toExpr, Value.relabelAll_eq_map, hvalues, hfixes.binds hfields,
    Expr.relabel_rename method hmethod, Expr.relabel_of_within hfixes method hwithin]
  rfl

/-! ### Making the object and the procedure -/

section Calls

variable (config : Config) (env : Environment)

/-- What becomes of the operands: a procedure on the one side and on the other an object with a method that is the same
procedure up to a relabelling, or failures of one kind; or the procedure is not made for want of nested steps. -/
inductive Made (s : Supply) (name : String) :
    EStateM.Result Failure Supply Value → EStateM.Result Failure Supply Value → Prop
  | ok {t t' : Supply} {r r' : Ref} {params fields : List String} {body : List Expr}
      {methods : List (String × Expr)} (ρ : Relabelling) (fixes : ρ.Fixes (.handedOut s)) (carries : ρ.Carries t t')
      (find : findMethod? methods name = some (.lambda (params.map ρ.name) (Expr.relabelAll ρ body))) :
    Made s name (.ok (.closure r params body) t) (.ok (.object r' fields methods) t')
  | error {f f' : Failure} {t t' : Supply} (kind : f.kind = f'.kind) : Made s name (.error f t) (.error f' t')
  | limit {t : Supply} {r : EStateM.Result Failure Supply Value} :
    Made s name (.error (depthFailure config) t) r

variable {config env} in
theorem Made.mono {s t : Supply} (hst : s ≤ t) {name : String} {r r' : EStateM.Result Failure Supply Value}
    (h : Made config t name r r') : Made config s name r r' := by
  cases h with
  | ok ρ hρ hcarries hfind => exact .ok ρ (hρ.mono (Language.handedOut_grows.mono hst)) hcarries hfind
  | error hkind => exact .error hkind
  | limit => exact .limit

/-- The class and the curried procedure, applied to the same arguments. -/
theorem made_of_applied {fields params : List String} {methods : List (String × Expr)} {name : String}
    {body : List Expr} {args : List Value} {s : Supply} (hlambdas : ∀ m ∈ methods, m.2.isLambda = true)
    (hfind : findMethod? methods name = some (.lambda params body)) (hfields : (Language.handedOut s).Binds fields)
    (hargs : ∀ v ∈ args, v.Within (.handedOut s))
    (hmethods : Expr.WithinPairs (.handedOut s) fields.reverse methods) (k : Nat) (r r' : Ref) :
    Made config s name
      (applyProcedure (evalSequence config k env) (.closure r fields [.lambda params body]) args s)
      (applyProcedure (evalSequence config k env) (.classDef r' fields methods) args s) := by
  by_cases hlen : fields.length = args.length
  · obtain ⟨ρ, hfixes, hmethod, hcarries⟩ := method_agrees hfind hfields hargs hmethods
    rw [apply_class hlambdas hlen, applyProcedure, if_pos hlen]
    show Made config s name (evalSequence config k env (substitute fields (args.map Value.toExpr)
      (rename s.issued [.lambda params body])) ⟨issuedAfter s.issued [.lambda params body], s.allocated⟩) _
    -- To make the procedure takes one step for the body of the curried one, and one for what is in it.
    obtain _ | _ | k := k
    · exact .limit
    · exact .limit
    · exact .ok ρ hfixes (hcarries (s.allocated + 1)) hmethod
  · rw [applyProcedure, if_neg hlen, applyProcedure, instantiate, if_neg hlen]
    exact .error rfl

/-- The class and the curried procedure, applied to the same operands. -/
theorem made_agree {n : Nat} {s : Supply} {fields params : List String} {methods : List (String × Expr)}
    {operands : List Expr} {name : String} {body : List Expr} (hlambdas : ∀ m ∈ methods, m.2.isLambda = true)
    (hfind : findMethod? methods name = some (.lambda params body)) (henv : env.Within (.handedOut s))
    (hclass : (Expr.classDef fields methods).Within (.handedOut s) [])
    (hoperands : ∀ e ∈ operands, e.Within (.handedOut s) []) :
    Made config s name (eval config n env (.app (.lambda fields [.lambda params body]) operands) s)
      (eval config n env (.app (.classDef fields methods) operands) s) := by
  obtain _ | _ | k := n
  · exact .limit
  · exact .limit
  · let s₀ : Supply := ⟨s.issued, s.allocated + 1⟩
    have hs₀ : s ≤ s₀ := ⟨Nat.le_refl _, Nat.le_succ _⟩
    have hle := Language.handedOut_grows.mono hs₀
    have hends := operands_end Language.handedOut_grows config (k + 1) (henv.mono hle) fun e he =>
      Expr.Within.mono hle (List.Subset.refl _) e (hoperands e he)
    rw [eval_app_of_ok config env (show eval config (k + 1) env (.lambda fields [.lambda params body]) s
        = .ok (.closure s.allocated fields [.lambda params body]) s₀ from rfl),
      eval_app_of_ok config env (show eval config (k + 1) env (.classDef fields methods) s
        = .ok (.classDef s.allocated fields methods) s₀ from rfl)]
    cases hargs : operands.mapM (eval config (k + 1) env) s₀ with
    | error f t =>
      rw [Run.bind_of_error hargs, Run.bind_of_error hargs]
      exact .error rfl
    | ok args t =>
      rw [hargs] at hends
      rw [Run.bind_of_ok hargs, Run.bind_of_ok hargs]
      have hst : s ≤ t := Supply.le_trans hs₀ hends.1
      have hmono := Language.handedOut_grows.mono hst
      obtain ⟨-, hfields, -, hmethods⟩ := hclass
      rw [List.append_nil] at hmethods
      have hmade := made_of_applied config env hlambdas hfind (hfields.mono hmono) hends.2
        (Expr.Within.monoPairs hmono (List.Subset.refl _) methods hmethods) k s.allocated s.allocated
      exact hmade.mono hst

/-! ### The call -/

/-- A message to the object and the application of the procedure go in step. -/
theorem follows_message {ρ : Relabelling} {L : Language} (hρ : ρ.Fixes L) (henv : env.Within L) {args : List Expr}
    (hargs : ∀ e ∈ args, e.Within L []) {params fields : List String} {body : List Expr}
    {methods : List (String × Expr)} {name : String}
    (hfind : findMethod? methods name = some (.lambda (params.map ρ.name) (Expr.relabelAll ρ body)))
    (n : Nat) (r r' : Ref) :
    Follows config False ρ (Value.relabel ρ)
      (args.mapM (eval config (n + 1) env)
        >>= applyProcedure (evalSequence config n env) (.closure r params body))
      ((.quoted (.symbol name) :: args).mapM (eval config (n + 1) env)
        >>= applyProcedure (evalSequence config n env) (.object r' fields methods)) := by
  have hstep := (follows_eval_same config ρ (n + 1)).1 env
  have hbody := (follows_eval_same config ρ n).2 env
  have hsame : args.map (Expr.relabel ρ) = args := by
    rw [← Expr.relabelAll_eq_map]
    exact Expr.relabelAll_of_within hρ args (Expr.withinAll_iff.2 hargs)
  have hparts := Follows.mapM hstep args
  rw [hsame, Environment.relabel_of_within hρ henv] at hparts
  have hmessage : (.quoted (.symbol name) :: args).mapM (eval config (n + 1) env)
      = args.mapM (eval config (n + 1) env) >>= fun vs => pure (.symbol name :: vs) := by
    rw [List.mapM_cons]
    rfl
  rw [hmessage, bind_assoc]
  refine hparts.bind fun vs => ?_
  rw [pure_bind, applyProcedure, applyProcedure, send, hfind]
  show Follows _ _ _ _ _ (if (params.map ρ.name).length = (vs.map (Value.relabel ρ)).length then _ else _)
  rw [List.length_map, List.length_map]
  by_cases hlen : params.length = vs.length
  · rw [if_pos hlen, if_pos hlen]
    refine follows_applyBody (fun es => ?_) params body vs
    have hrun := hbody es
    rwa [Environment.relabel_of_within hρ henv] at hrun
  · rw [if_neg hlen, if_neg hlen]
    exact Follows.throw rfl

end Calls

/-- The call of a method as that of a curried procedure. -/
def curriedCall (fields params : List String) (body operands args : List Expr) : Expr :=
  .app (.app (.lambda fields [.lambda params body]) operands) args

/-- The call of a method on an object that is made for it. -/
def methodCall (fields : List String) (methods : List (String × Expr)) (operands : List Expr) (name : String)
    (args : List Expr) : Expr :=
  .app (.app (.classDef fields methods) operands) (.quoted (.symbol name) :: args)

/-- **A method call on an object is the curried procedure call.**  Where all methods are procedures, the message names
one of them, and no name and no reference stands around that was not handed out, the call comes to the same as the
application of the curried procedure, unless that one fails at the limit on nested steps.  The fields may have names of
parameters, and the numbers of operands and arguments may be wrong. -/
theorem method_call_agrees (config : Config) {n : Nat} {s : Supply} {env : Environment} {fields : List String}
    {methods : List (String × Expr)} {operands args : List Expr} {name : String} {params : List String}
    {body : List Expr} (hlambdas : ∀ m ∈ methods, m.2.isLambda = true)
    (hfind : findMethod? methods name = some (.lambda params body)) (henv : env.Within (.handedOut s))
    (hclass : (Expr.classDef fields methods).Within (.handedOut s) [])
    (hoperands : ∀ e ∈ operands, e.Within (.handedOut s) []) (hargs : ∀ e ∈ args, e.Within (.handedOut s) [])
    (hdepth : ∀ t, eval config n env (curriedCall fields params body operands args) s
      ≠ .error (depthFailure config) t) :
    SameOutcome s (eval config n env (curriedCall fields params body operands args) s)
      (eval config n env (methodCall fields methods operands name args) s) := by
  match n with
  | 0 | 1 => exact absurd rfl (hdepth s)
  | k + 2 =>
    have hmade := made_agree config env (n := k + 1) hlambdas hfind henv hclass hoperands
    rw [curriedCall] at hdepth ⊢
    rw [methodCall]
    generalize hcurried : eval config (k + 1) env (.app (.lambda fields [.lambda params body]) operands) s = r at hmade
    generalize hobject : eval config (k + 1) env (.app (.classDef fields methods) operands) s = r' at hmade
    cases hmade with
    | limit => exact absurd (eval_app_of_error config env hcurried) (hdepth _)
    | error hkind =>
      rw [eval_app_of_error config env hcurried, eval_app_of_error config env hobject]
      exact .error hkind
    | ok ρ hρ hcarries hmethod =>
      rw [eval_app_of_ok config env hcurried, eval_app_of_ok config env hobject]
      rcases follows_message config env hρ henv hargs hmethod k _ _ _ _ hcarries with hcut | halike
      · exact absurd hcut.1 id
      · exact halike.sameOutcome hρ

/-- A method whose parameter has the name of the field, behind another method: what is returned holds the argument. -/
theorem method_call_agrees_shadowed :
    let body : List Expr := [.lambda ["y"] [.var "x"]]
    let methods : List (String × Expr) := [("id", .lambda ["z"] [.var "z"]), ("const", .lambda ["x"] body)]
    (∀ m ∈ methods, m.2.isLambda = true) ∧ findMethod? methods "const" = some (.lambda ["x"] body) ∧
      Environment.empty.Within (.handedOut { }) ∧ (Expr.classDef ["x"] methods).Within (.handedOut { }) [] ∧
      (∀ e ∈ [Expr.boolean true], e.Within (.handedOut { }) []) ∧
      (∀ e ∈ [Expr.string "a"], e.Within (.handedOut { }) []) ∧
      eval { } 16 .empty (curriedCall ["x"] ["x"] body [.boolean true] [.string "a"]) { }
        = .ok (.closure 2 ["y#3"] [.string "a"]) ⟨3, 3⟩ ∧
      SameOutcome { } (eval { } 16 .empty (curriedCall ["x"] ["x"] body [.boolean true] [.string "a"]) { })
        (eval { } 16 .empty (methodCall ["x"] methods [.boolean true] "const" [.string "a"]) { }) := by
  intro body methods
  have hlambdas : ∀ m ∈ methods, m.2.isLambda = true := by decide
  have hfind : findMethod? methods "const" = some (.lambda ["x"] body) := by rfl
  have henv : Environment.empty.Within (.handedOut { }) := Environment.within_empty _
  have hnames : ∀ x ∈ ["x", "y", "z"], NumberedUpTo 0 x := fun x hx =>
    numberedUpTo_of_no_hash ((by decide : ∀ x ∈ ["x", "y", "z"], '#' ∉ x.toList) x hx) 0
  have hclass : (Expr.classDef ["x"] methods).Within (.handedOut { }) [] := by
    simp [methods, body, Expr.Within, Expr.WithinAll, Expr.WithinPairs, Language.Binds, Language.HasBody,
      Language.handedOut, hnames]
  have hoperands : ∀ e ∈ [Expr.boolean true], e.Within (.handedOut { }) [] := by simp [Expr.Within]
  have hargs : ∀ e ∈ [Expr.string "a"], e.Within (.handedOut { }) [] := by simp [Expr.Within]
  have hvalue : eval { } 16 .empty (curriedCall ["x"] ["x"] body [.boolean true] [.string "a"]) { }
      = .ok (.closure 2 ["y#3"] [.string "a"]) ⟨3, 3⟩ := by
    subst body
    rfl
  have hdepth : ∀ t, eval { } 16 .empty (curriedCall ["x"] ["x"] body [.boolean true] [.string "a"]) { }
      ≠ .error (depthFailure { }) t := by
    intro t hlimit
    rw [hvalue] at hlimit
    cases hlimit
  exact ⟨hlambdas, hfind, henv, hclass, hoperands, hargs, hvalue,
    method_call_agrees { } hlambdas hfind henv hclass hoperands hargs hdepth⟩

end SubstModel

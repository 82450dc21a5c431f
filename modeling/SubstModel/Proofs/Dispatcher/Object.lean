import SubstModel.Proofs.Dispatcher.Specialised

/-!
# Objects and dispatchers agree

A class can be evaluated as such, or as the dispatcher that stands for it.  The two sides make the methods fresh a
different number of times, hand out different names on the way, and find the method by different means; yet what they
evaluate in the end is one body, up to the numbers of generated names.

* `bodies_agree` — the body of the object is that of the dispatcher, up to a relabelling;
* `apply_class`, `apply_object`, `apply_dispatcher`, `apply_message` — the two applications on either side;
* `SameOutcome` — the same value up to a relabelling, or failures of one kind;
* `object_agrees` — **an object does what the dispatcher of its class does**.
-/

namespace SubstModel

/-! ### The two sides of a message -/

/-- The number that a name of the object has on the side of the dispatcher: the names of the first renaming come one
later, since the message has a name, and those of later renamings by another `d`. -/
def dispatcherNumber (k c d j : Nat) : Nat :=
  if j ≤ k then j else if j ≤ k + c then j + 1 else j + 1 + d

/-- The reference that a procedure has on the side of the dispatcher, where one more is made. -/
def dispatcherRef (a r : Nat) : Nat :=
  if r ≤ a then r else r + 1

theorem dispatcherNumber_injective (k c d : Nat) : Function.Injective (dispatcherNumber k c d) := by
  intro i j h
  simp only [dispatcherNumber] at h
  split_ifs at h <;> omega

theorem dispatcherRef_injective (a : Nat) : Function.Injective (dispatcherRef a) := by
  intro i j h
  simp only [dispatcherRef] at h
  split_ifs at h <;> omega

/-- **The bodies that the two sides evaluate are one body, up to a relabelling that keeps what was there before.** -/
theorem bodies_agree {s : Supply} {fields : List String} {args : List Value} {methods : List (String × Expr)}
    {name : String} {body : List Expr} (hfind : findMethod? methods name = some (.lambda [] body))
    (hlen : fields.length = args.length) (hfields : (Language.handedOut s).Binds fields)
    (hargs : ∀ v ∈ args, v.Within (.handedOut s))
    (hmethods : Expr.WithinPairs (.handedOut s) fields.reverse methods) :
    let c := Expr.binderCountPairs methods
    let chain := specialised (s.issued + 1) fields args methods
    let d := Expr.binderCountPairs chain
    ∃ (ρ : Relabelling) (inner outer : List Expr), ρ.Fixes (.handedOut s) ∧
      findMethod? (specialised s.issued fields args methods) name = some (.lambda [] inner) ∧
      findMethod? (Expr.renamePairs (s.issued + 1 + c) [] chain) name = some (.lambda [] outer) ∧
      rename (s.issued + 1 + c + d) outer = Expr.relabelAll ρ (rename (s.issued + c) inner) ∧
      ρ.Carries ⟨issuedAfter (s.issued + c) inner, s.allocated + 1⟩
        ⟨issuedAfter (s.issued + 1 + c + d) outer, s.allocated + 2⟩ := by
  intro c chain d
  let ρ := Relabelling.ofNumbers (dispatcherNumber_injective s.issued c d) (dispatcherRef_injective s.allocated)
  have hfixes : ρ.Fixes (.handedOut s) :=
    Relabelling.fixes_handedOut _ _ (fun n hn => if_pos hn) fun r hr => if_pos (Nat.le_of_lt hr)
  have hfirst : ρ.Shifts s.issued (s.issued + 1) c := by
    refine Relabelling.shifts_ofNumbers _ _ fun i hi => ?_
    rw [dispatcherNumber, if_neg (by omega), if_pos (by omega)]
    omega
  -- The chain is renamed once more than the methods of the object, which takes another `d` names.
  have hlater : ∀ offset count, ρ.Shifts (s.issued + c + offset) (s.issued + 1 + c + d + offset) count := by
    intro offset count
    refine Relabelling.shifts_ofNumbers _ _ fun i hi => ?_
    rw [dispatcherNumber, if_neg (by omega), if_neg (by omega)]
    omega
  obtain ⟨inner, hinner⟩ := findMethod?_specialised hfind s.issued fields args
  have hchain : chain = Expr.relabelPairs ρ id (specialised s.issued fields args methods) :=
    (relabel_specialised hfixes hfirst hfields hargs hmethods).symm
  have hmiddle : findMethod? chain name = some (.lambda [] (Expr.relabelAll ρ inner)) := by
    rw [hchain, findMethod?_relabel, hinner]
    rfl
  obtain ⟨offset, houter⟩ := findMethod?_renamePairs hmiddle
  have hnames : ∀ x ∈ Expr.namesAll (Expr.relabelAll ρ inner), NumberedUpTo (s.issued + 1 + c + offset) x := by
    intro x hx
    have hlambda := Expr.withinPairs_iff.1 (within_chain hlen hargs hmethods) _ (mem_of_lookup_eq_some hmiddle)
    have hname := Expr.Within.name_of_mem _ hlambda (List.mem_append_right _ hx)
    exact NumberedUpTo.mono hname (Nat.le_add_right _ _)
  refine ⟨ρ, inner, _, hfixes, hinner, houter (s.issued + 1 + c), ?_, ?_⟩
  -- The renaming of the chain is lost in the one that its body goes through when it is applied.
  · have htwice : Expr.renameAll (s.issued + 1 + c + d) []
        (Expr.renameAll (s.issued + 1 + c + offset) [] (Expr.relabelAll ρ inner))
        = Expr.renameAll (s.issued + 1 + c + d) [] (Expr.relabelAll ρ inner) :=
      Expr.renameAll_renameAll _ fun x hx => ⟨hnames x hx, rfl⟩
    rw [rename, htwice, rename]
    exact (Expr.relabelAll_rename inner (Γ := []) (hlater 0 _)).symm
  · rw [issuedAfter, issuedAfter, Expr.binderCountAll_rename, Expr.binderCountAll_relabel]
    refine ⟨hlater _, fun i => ?_⟩
    show dispatcherRef s.allocated (s.allocated + 1 + i) = s.allocated + 2 + i
    rw [dispatcherRef, if_neg (by omega)]
    omega

/-! ### Evaluation of the two sides -/

section Sides

variable (config : Config) (env : Environment)

theorem eval_app_of_error {n : Nat} {operator : Expr} {operands : List Expr} {s t : Supply} {f : Failure}
    (h : eval config n env operator s = .error f t) :
    eval config (n + 1) env (.app operator operands) s = .error f t := by
  rw [eval_succ, evalStep, Run.bind_of_error h]

theorem eval_app_of_ok {n : Nat} {operator : Expr} {s t : Supply} {v : Value}
    (h : eval config n env operator s = .ok v t) (operands : List Expr) :
    eval config (n + 1) env (.app operator operands) s
      = (operands.mapM (eval config n env) >>= applyProcedure (evalSequence config (n - 1) env) v) t := by
  rw [eval_succ, evalStep, Run.bind_of_ok h]

/-- A dispatcher applied to as many arguments as there are fields gives the procedure of one message. -/
theorem apply_dispatcher {fields : List String} {args : List Value} {methods : List (String × Expr)}
    {s : Supply} (hlen : fields.length = args.length) (hfields : (Language.handedOut s).Binds fields) (k : Nat)
    (r : Ref) :
    let message := messageName fields methods
    let fresh := freshName (s.issued + 1) message
    let body := [.lambda [message] [dispatchChain .identical message methods]]
    (∃ t, applyProcedure (evalSequence config k env) (.closure r fields body) args s
        = .error (depthFailure config) t) ∨
      applyProcedure (evalSequence config k env) (.closure r fields body) args s
        = .ok (.closure s.allocated [fresh] [chainOf (.var fresh) (specialised (s.issued + 1) fields args methods)])
          ⟨s.issued + 1 + Expr.binderCountPairs methods, s.allocated + 1⟩ := by
  intro message fresh body
  have happlied := applied_dispatcher args methods (fun _ hx => hx) hfields
  have hissued : issuedAfter s.issued body = s.issued + 1 + Expr.binderCountPairs methods := by
    have hchain := binderCount_chainOf (show (Expr.var message).binderCount = 0 from rfl) methods
    simp only [issuedAfter, body, Expr.binderCountAll, Expr.binderCount, dispatchChain_eq, hchain,
      List.length_singleton]
    omega
  rw [applyProcedure, if_pos hlen]
  show (∃ t, evalSequence config k env (substitute fields (args.map Value.toExpr) (rename s.issued body))
      ⟨issuedAfter s.issued body, s.allocated⟩ = _) ∨
    evalSequence config k env (substitute fields (args.map Value.toExpr) (rename s.issued body))
      ⟨issuedAfter s.issued body, s.allocated⟩ = _
  rw [happlied, hissued]
  cases k with
  | zero => exact .inl ⟨_, rfl⟩
  | succ k =>
    cases k with
    | zero => exact .inl ⟨_, rfl⟩
    | succ k => exact .inr rfl

/-- A message to the procedure of one message evaluates the method of that name. -/
theorem apply_message (s : Supply) {x name : String} {methods : List (String × Expr)} {body : List Expr}
    (hfind : findMethod? (Expr.renamePairs s.issued [] methods) name = some (.lambda [] body))
    (hx : ∀ y ∈ Expr.namesPairs (Expr.renamePairs s.issued [] methods), y ≠ x) (k : Nat) (r : Ref) :
    let procedure := .closure r [x] [chainOf (.var x) methods]
    let issued := s.issued + Expr.binderCountPairs methods
    ComesTo config env k (applyProcedure (evalSequence config k env) procedure [.symbol name] s)
      (rename issued body) ⟨issuedAfter issued body, s.allocated + 1⟩ := by
  intro procedure issued
  have hissued : issuedAfter s.issued [chainOf (.var x) methods] = issued := by
    rw [issuedAfter, Expr.binderCountAll, binderCount_chainOf rfl, Expr.binderCountAll, Nat.add_zero]
  show ComesTo config env k (evalSequence config k env (substitute [x] [.quoted (.symbol name)]
      (rename s.issued [chainOf (.var x) methods]))
      ⟨issuedAfter s.issued [chainOf (.var x) methods], s.allocated⟩) _ _
  rw [applied_chain hx, hissued]
  cases k with
  | zero => exact .inl ⟨_, rfl⟩
  | succ k =>
    have hone : evalForms (eval config k) env [chainOf (.quoted (.symbol name))
        (Expr.renamePairs s.issued [] methods)] = eval config k env (chainOf (.quoted (.symbol name))
        (Expr.renamePairs s.issued [] methods)) := by
      cases Expr.renamePairs s.issued [] methods <;> rfl
    rw [evalSequence_succ, hone]
    exact (eval_chainOf config env hfind k ⟨issued, s.allocated⟩).mono (Nat.le_succ k)

/-- A class applied to as many arguments as there are fields gives an object. -/
theorem apply_class {fields : List String} {args : List Value} {methods : List (String × Expr)}
    (hlambdas : ∀ m ∈ methods, m.2.isLambda = true) (hlen : fields.length = args.length) (s : Supply)
    (run : List Expr → Run Value) (r : Ref) :
    applyProcedure run (.classDef r fields methods) args s
      = .ok (.object s.allocated fields (specialised s.issued fields args methods))
        ⟨s.issued + Expr.binderCountPairs methods, s.allocated + 1⟩ := by
  have hrequire := requireLambdas_specialised hlambdas s.issued fields args
  rw [applyProcedure, instantiate_of_length hlen, hrequire, Expr.binderCountPairs_eq]
  rfl

/-- A message to an object evaluates the method of that name. -/
theorem apply_object {fields : List String} {methods : List (String × Expr)} {name : String}
    {body : List Expr} (hfind : findMethod? methods name = some (.lambda [] body)) (s : Supply)
    (run : List Expr → Run Value) (r : Ref) :
    applyProcedure run (.object r fields methods) [.symbol name] s
      = run (rename s.issued body) ⟨issuedAfter s.issued body, s.allocated⟩ := by
  rw [applyProcedure, send, hfind]
  show run (substitute [] [] (rename s.issued body)) _ = _
  rw [substitute_nil]

end Sides

/-! ### Agreement -/

/-- The language of values that contain no closure, no class and no object. -/
def Language.inert : Language where
  name _ := False
  ref _ := False

/-- Two evaluations behind `s` come to the same: to one value, up to other names and references for those that were not
handed out before, and to the very same value if it contains no closure, class or object; or to failures of one kind. -/
inductive SameOutcome (s : Supply) :
    EStateM.Result Failure Supply Value → EStateM.Result Failure Supply Value → Prop
  | ok {v w : Value} {t t' : Supply} (ρ : Relabelling) (old : ρ.Fixes (.handedOut s)) (value : w = v.relabel ρ)
    (inert : v.Within .inert → w = v) : SameOutcome s (.ok v t) (.ok w t')
  | error {f f' : Failure} {t t' : Supply} (kind : f.kind = f'.kind) :
    SameOutcome s (.error f t) (.error f' t')

theorem Alike.sameOutcome {ρ : Relabelling} {s : Supply} {r r' : EStateM.Result Failure Supply Value}
    (h : Alike ρ (Value.relabel ρ) r r') (hρ : ρ.Fixes (.handedOut s)) : SameOutcome s r r' := by
  cases r with
  | ok v t => cases r' with
    | ok w t' =>
      have hinert : ρ.Fixes .inert := ⟨False.elim, False.elim⟩
      exact .ok ρ hρ h.1 fun hv => h.1.trans (Value.relabel_of_within hinert v hv)
    | error f t' => exact absurd h id
  | error f t => cases r' with
    | ok w t' => exact absurd h id
    | error f' t' => exact .error h.1

theorem Relabelling.Fixes.mono {ρ : Relabelling} {L M : Language} (h : L ≤ M) (hρ : ρ.Fixes M) : ρ.Fixes L :=
  ⟨fun hx => hρ.name (h.name hx), fun hr => hρ.ref (h.ref hr)⟩

theorem SameOutcome.mono {s t : Supply} (hst : s ≤ t) {r r' : EStateM.Result Failure Supply Value}
    (h : SameOutcome t r r') : SameOutcome s r r' := by
  cases h with
  | ok ρ hρ hw hinert => exact .ok ρ (hρ.mono (Language.handedOut_grows.mono hst)) hw hinert
  | error hkind => exact .error hkind

/-- A message to what a class, or what stands for it, makes of operands. -/
def messageTo (constructor : Expr) (operands : List Expr) (name : String) : Expr :=
  .app (.app constructor operands) [.quoted (.symbol name)]

/-- The two applications of which a message consists, behind the evaluation of the operands. -/
def applyTwice (config : Config) (env : Environment) (k : Nat) (constructor : Value) (name : String)
    (args : List Value) : Run Value := do
  let made ← applyProcedure (evalSequence config k env) constructor args
  applyProcedure (evalSequence config (k + 1) env) made [.symbol name]

theorem eval_messageTo (config : Config) (env : Environment) {k : Nat} {constructor : Expr} {s t : Supply}
    {v : Value} (h : eval config (k + 1) env constructor s = .ok v t) (operands : List Expr) (name : String) :
    eval config (k + 3) env (messageTo constructor operands name) s
      = (operands.mapM (eval config (k + 1) env) >>= applyTwice config env k v name) t := by
  have hinner := eval_app_of_ok config env h operands
  cases hargs : operands.mapM (eval config (k + 1) env) t with
  | error f u =>
    rw [Run.bind_of_error hargs] at hinner ⊢
    exact eval_app_of_error config env hinner
  | ok args u =>
    rw [Run.bind_of_ok hargs] at hinner ⊢
    cases hmade : applyProcedure (evalSequence config k env) v args u with
    | error f w =>
      rw [applyTwice, Run.bind_of_error hmade]
      exact eval_app_of_error config env (hinner.trans hmade)
    | ok made w =>
      rw [applyTwice, Run.bind_of_ok hmade]
      exact eval_app_of_ok config env (hinner.trans hmade) _

theorem Environment.relabel_of_within {ρ : Relabelling} {L : Language} (h : ρ.Fixes L) {env : Environment}
    (henv : env.Within L) : env.relabel ρ = env := by
  have hbindings : env.bindings.map (fun b => (ρ.name b.1, b.2.relabel ρ)) = env.bindings := by
    conv_rhs => rw [← List.map_id env.bindings]
    refine List.map_congr_left fun b hb => ?_
    rw [h.name (henv b hb).1, Value.relabel_of_within h b.2 (henv b hb).2]
    rfl
  rw [relabel, hbindings]

/-- **The class and its dispatcher, applied to the same arguments and then to the same message.** -/
theorem applyTwice_agrees (config : Config) {env : Environment} {fields : List String}
    {methods : List (String × Expr)} {name : String} {body : List Expr} {args : List Value} {s : Supply}
    (hmethods : Parameterless methods) (hfind : findMethod? methods name = some (.lambda [] body))
    (henv : env.Within (.handedOut s)) (hfields : (Language.handedOut s).Binds fields)
    (hbodies : Expr.WithinPairs (.handedOut s) fields.reverse methods)
    (hargs : ∀ v ∈ args, v.Within (.handedOut s)) (k : Nat) (r r' : Ref) :
    let message := messageName fields methods
    let constructor := .closure r' fields [.lambda [message] [dispatchChain .identical message methods]]
    (∃ t, applyTwice config env k constructor name args s = .error (depthFailure config) t) ∨
      SameOutcome s (applyTwice config env k (.classDef r fields methods) name args s)
        (applyTwice config env k constructor name args s) := by
  intro message constructor
  by_cases hlen : fields.length = args.length
  · obtain ⟨ρ, inner, outer, hfixes, hinner, houter, hsame, hcarries⟩ :=
      bodies_agree hfind hlen hfields hargs hbodies
    have hobject : applyTwice config env k (.classDef r fields methods) name args s
        = evalSequence config (k + 1) env (rename (s.issued + Expr.binderCountPairs methods) inner)
          ⟨issuedAfter (s.issued + Expr.binderCountPairs methods) inner, s.allocated + 1⟩ := by
      rw [applyTwice, Run.bind_of_ok (apply_class hmethods.isLambda hlen s _ r), apply_object hinner]
    rcases apply_dispatcher config env hlen hfields k r' with ⟨t, ht⟩ | hprocedure
    · exact .inl ⟨t, Run.bind_of_error ht⟩
    · have hne := ne_message_of_mem_chain hlen hargs hbodies message
      let t₁ : Supply := ⟨s.issued + 1 + Expr.binderCountPairs methods, s.allocated + 1⟩
      let d := Expr.binderCountPairs (specialised (s.issued + 1) fields args methods)
      rcases apply_message config env t₁ houter hne (k + 1) s.allocated with ⟨t, ht⟩ | ⟨j, hj, hmethod⟩
      · exact .inl ⟨t, (Run.bind_of_ok hprocedure).trans ht⟩
      · have hfollows := (follows_eval config ρ hj fun _ => trivial).2 env
          (rename (s.issued + Expr.binderCountPairs methods) inner) _ _ hcarries
        rw [Environment.relabel_of_within hfixes henv, ← hsame] at hfollows
        have hdispatcher : applyTwice config env k constructor name args s
            = evalSequence config j env (rename (t₁.issued + d) outer)
              ⟨issuedAfter (t₁.issued + d) outer, s.allocated + 2⟩ := by
          rw [applyTwice, Run.bind_of_ok hprocedure]
          exact hmethod
        rw [hobject, hdispatcher]
        exact hfollows.imp And.right fun halike => halike.sameOutcome hfixes
  · have hclosure : applyProcedure (evalSequence config k env) constructor args s
        = .error (.arity fields.length args.length (some .procedure)) s := by
      rw [applyProcedure, if_neg hlen]
      rfl
    have hclass : applyProcedure (evalSequence config k env) (.classDef r fields methods) args s
        = .error (.arity fields.length args.length (some .classConstructor)) s := by
      rw [applyProcedure, instantiate, if_neg hlen]
      rfl
    rw [applyTwice, applyTwice, Run.bind_of_error hclosure, Run.bind_of_error hclass]
    exact .inr (.error rfl)

/-- **An object does what the dispatcher of its class does.**  Where all methods are procedures without parameters, one
of them is named by the message, and no name and no reference stands around that was not handed out, the class has a
procedure that stands for it, and a message to the object comes to the same as the message to the dispatcher, unless
that one fails at the limit on nested steps. -/
theorem object_agrees (config : Config) {n : Nat} {s : Supply} {env : Environment} {fields : List String}
    {methods : List (String × Expr)} {operands : List Expr} {name : String} (hmethods : Parameterless methods)
    (hname : name ∈ methods.map Prod.fst) (henv : env.Within (.handedOut s))
    (hclass : (Expr.classDef fields methods).Within (.handedOut s) [])
    (hoperands : ∀ e ∈ operands, e.Within (.handedOut s) [])
    (hdepth : ∀ t, eval config n env (messageTo (dispatcher fields methods) operands name) s
      ≠ .error (depthFailure config) t) :
    classProcedure fields methods = .ok (dispatcher fields methods) ∧
      SameOutcome s (eval config n env (messageTo (.classDef fields methods) operands name) s)
        (eval config n env (messageTo (dispatcher fields methods) operands name) s) := by
  refine ⟨classProcedure_eq fields methods, ?_⟩
  obtain ⟨body, hfind⟩ : ∃ body, findMethod? methods name = some (.lambda [] body) := by
    obtain ⟨method, hmethod⟩ := Option.isSome_iff_exists.1 (lookup_isSome_iff_mem.2 hname)
    obtain ⟨body, hbody⟩ := hmethods _ (mem_of_lookup_eq_some hmethod)
    exact ⟨body, hbody ▸ hmethod⟩
  -- Three steps are what it takes to come to the dispatcher itself; with fewer it fails at the limit.
  match n with
  | 0 | 1 | 2 => exact absurd rfl (hdepth s)
  | k + 3 =>
    let s₀ : Supply := ⟨s.issued, s.allocated + 1⟩
    have hs₀ : s ≤ s₀ := ⟨Nat.le_refl _, Nat.le_succ _⟩
    have hle := Language.handedOut_grows.mono hs₀
    have hends := operands_end Language.handedOut_grows config (k + 1) (henv.mono hle) fun e he =>
      Expr.Within.mono hle (List.Subset.refl _) e (hoperands e he)
    have hobject := eval_messageTo config env (show eval config (k + 1) env (.classDef fields methods) s
      = .ok (.classDef s.allocated fields methods) s₀ from rfl) operands name
    have hdispatcher := eval_messageTo config env (show eval config (k + 1) env (dispatcher fields methods) s
      = .ok (.closure s.allocated fields _) s₀ from rfl) operands name
    rw [hdispatcher] at hdepth ⊢
    rw [hobject]
    cases hargs : operands.mapM (eval config (k + 1) env) s₀ with
    | error f t =>
      rw [Run.bind_of_error hargs, Run.bind_of_error hargs]
      exact .error rfl
    | ok args t =>
      rw [hargs] at hends
      rw [Run.bind_of_ok hargs] at hdepth ⊢
      rw [Run.bind_of_ok hargs]
      have hst : s ≤ t := Supply.le_trans hs₀ hends.1
      have hmono := Language.handedOut_grows.mono hst
      obtain ⟨-, hfields, -, hbodies⟩ := hclass
      rw [List.append_nil] at hbodies
      have hagrees := applyTwice_agrees config hmethods hfind (henv.mono hmono) (hfields.mono hmono)
        (Expr.Within.monoPairs hmono (List.Subset.refl _) methods hbodies) hends.2 k s.allocated s.allocated
      rcases hagrees with ⟨u, hlimit⟩ | hsame
      · exact absurd hlimit (hdepth u)
      · exact hsame.mono hst

/-- A getter that returns a procedure: it holds the field, and its parameter has another number on either side. -/
theorem object_agrees_getter :
    let methods : List (String × Expr) := [("get", .lambda [] [.lambda ["y"] [.var "x"]])]
    Parameterless methods ∧ "get" ∈ methods.map Prod.fst ∧ Environment.empty.Within (.handedOut { }) ∧
      (Expr.classDef ["x"] methods).Within (.handedOut { }) [] ∧
      (∀ e ∈ [Expr.boolean true], e.Within (.handedOut { }) []) ∧
      (∀ t, eval { } 16 .empty (messageTo (dispatcher ["x"] methods) [.boolean true] "get") { }
        ≠ .error (depthFailure { }) t) ∧
      classProcedure ["x"] methods = .ok (dispatcher ["x"] methods) ∧
      SameOutcome { } (eval { } 16 .empty (messageTo (.classDef ["x"] methods) [.boolean true] "get") { })
        (eval { } 16 .empty (messageTo (dispatcher ["x"] methods) [.boolean true] "get") { }) := by
  intro methods
  have hmethods : Parameterless methods := by
    intro m hm
    rw [List.mem_singleton.1 hm]
    exact ⟨_, rfl⟩
  have hname : "get" ∈ methods.map Prod.fst := List.mem_singleton_self _
  have henv : Environment.empty.Within (.handedOut { }) := fun b hb => absurd hb List.not_mem_nil
  have hx : NumberedUpTo 0 "x" := numberedUpTo_of_no_hash (by decide) 0
  have hy : NumberedUpTo 0 "y" := numberedUpTo_of_no_hash (by decide) 0
  have hclass : (Expr.classDef ["x"] methods).Within (.handedOut { }) [] := by
    simp [methods, Expr.Within, Expr.WithinAll, Expr.WithinPairs, Language.Binds, Language.HasBody,
      Language.handedOut, hx, hy]
  have hoperands : ∀ e ∈ [Expr.boolean true], e.Within (.handedOut { }) [] := by
    intro e he
    rw [List.mem_singleton.1 he]
    trivial
  have hvalue : eval { } 16 .empty (messageTo (dispatcher ["x"] methods) [.boolean true] "get") { }
      = .ok (.closure 3 ["y#4"] [.boolean true]) ⟨4, 4⟩ := by
    subst methods
    rfl
  have hdepth : ∀ t, eval { } 16 .empty (messageTo (dispatcher ["x"] methods) [.boolean true] "get") { }
      ≠ .error (depthFailure { }) t := by
    intro t hlimit
    rw [hvalue] at hlimit
    cases hlimit
  have hagrees := object_agrees { } hmethods hname henv hclass hoperands hdepth
  exact ⟨hmethods, hname, henv, hclass, hoperands, hdepth, hagrees⟩

end SubstModel

import SubstModel.Proofs.Dispatcher.Chain
import SubstModel.Proofs.Dispatcher.Scoping
import SubstModel.Proofs.Language.Evaluation
import SubstModel.Proofs.MessageName
import SubstModel.Proofs.Relabelling.Numbers
import SubstModel.Proofs.Run

/-!
# Specialised methods — what a class and its dispatcher make of the methods

Both make the methods fresh and put the arguments in for the fields.  The name of the message gets in the way of
neither: no method mentions it before it is made fresh, and none has its new name afterwards.

* `specialised` — the methods of a class made fresh, with the arguments put in for the fields;
* `instantiate_of_length` — what a class comes to when it is applied;
* `findMethod?_rename`, `findMethod?_specialised`, `requireLambdas_specialised` — methods stay where they are, and what
  they are;
* `within_specialised`, `relabel_specialised` — their names, and what becomes of them at another count;
* `applied_dispatcher`, `applied_chain` — **what the dispatcher and its inner procedure come to when they are applied**.
-/

namespace SubstModel

/-! ### Specialised methods -/

/-- The methods made fresh, with the arguments put in for the fields. -/
def specialised (n : Nat) (fields : List String) (args : List Value) (methods : List (String × Expr)) :
    List (String × Expr) :=
  Expr.substitutePairs (fields.zip (args.map Value.toExpr)) (Expr.renamePairs n [] methods)

/-- All methods are procedures without parameters. -/
def Parameterless (methods : List (String × Expr)) : Prop :=
  ∀ m ∈ methods, ∃ body, m.2 = .lambda [] body

theorem Parameterless.isLambda {methods : List (String × Expr)} (h : Parameterless methods) :
    ∀ m ∈ methods, m.2.isLambda = true := by
  intro m hm
  obtain ⟨body, hbody⟩ := h m hm
  rw [hbody]
  rfl

section Specialised

variable (n : Nat) (fields : List String) (args : List Value) (methods : List (String × Expr))

theorem map_snd_specialised : (specialised n fields args methods).map Prod.snd
    = substitute fields (args.map Value.toExpr) (rename n (methods.map Prod.snd)) := by
  rw [specialised, Expr.map_snd_substitutePairs, Expr.map_snd_renamePairs, substitute, rename]

theorem map_fst_specialised : (specialised n fields args methods).map Prod.fst = methods.map Prod.fst := by
  rw [specialised, Expr.map_fst_substitutePairs, Expr.map_fst_renamePairs]

/-- The methods of an object are those of its class, specialised. -/
theorem zip_specialised : (methods.map Prod.fst).zip
    (substitute fields (args.map Value.toExpr) (rename n (methods.map Prod.snd)))
    = specialised n fields args methods := by
  rw [← map_snd_specialised, ← map_fst_specialised n fields args methods, ← List.unzip_fst, ← List.unzip_snd]
  exact List.zip_unzip _

end Specialised

/-- Applied to as many arguments as there are fields, a class makes its methods fresh and puts the arguments in, and
then refuses methods of which one is no procedure. -/
theorem instantiate_of_length {fields : List String} {args : List Value} (hlen : fields.length = args.length)
    (methods : List (String × Expr)) (s : Supply) :
    instantiate fields methods args s = (do
      Run.ofOutcome (requireLambdas (specialised s.issued fields args methods))
      let ref ← Run.newRef
      return .object ref fields (specialised s.issued fields args methods) : Run Value)
        ⟨issuedAfter s.issued (methods.map Prod.snd), s.allocated⟩ := by
  have hrenamed : Run.renamed (methods.map Prod.snd) s = .ok (rename s.issued (methods.map Prod.snd))
      ⟨issuedAfter s.issued (methods.map Prod.snd), s.allocated⟩ := rfl
  rw [instantiate, if_pos hlen, Run.bind_of_ok hrenamed, zip_specialised]

/-- A method is found where it was, made fresh, with numbers that are those of the methods. -/
theorem findMethod?_rename {methods : List (String × Expr)} {name : String} {method : Expr}
    (h : findMethod? methods name = some method) :
    ∃ offset, offset + method.binderCount ≤ Expr.binderCountPairs methods ∧
      ∀ n, findMethod? (Expr.renamePairs n [] methods) name = some (method.rename (n + offset) []) := by
  induction methods with
  | nil => cases h
  | cons b methods ih =>
    rw [findMethod?, List.lookup_cons] at h
    cases hname : name == b.1 with
    | true =>
      rw [hname, Option.some.injEq] at h
      refine ⟨0, by rw [Expr.binderCountPairs, h]; omega, fun n => ?_⟩
      rw [findMethod?, Expr.renamePairs, List.lookup_cons, hname, h]
      rfl
    | false =>
      rw [hname] at h
      obtain ⟨offset, hcount, hoffset⟩ := ih h
      refine ⟨b.2.binderCount + offset, by rw [Expr.binderCountPairs]; omega, fun n => ?_⟩
      rw [findMethod?, Expr.renamePairs, List.lookup_cons, hname, ← Nat.add_assoc]
      exact hoffset (n + b.2.binderCount)

theorem findMethod?_renamePairs {methods : List (String × Expr)} {name : String} {body : List Expr}
    (h : findMethod? methods name = some (.lambda [] body)) :
    ∃ offset, ∀ n, findMethod? (Expr.renamePairs n [] methods) name
      = some (.lambda [] (Expr.renameAll (n + offset) [] body)) := by
  obtain ⟨offset, -, hoffset⟩ := findMethod?_rename h
  exact ⟨offset, hoffset⟩

theorem findMethod?_substitutePairs (σ : Substitution) (methods : List (String × Expr)) (name : String) :
    findMethod? (Expr.substitutePairs σ methods) name = (findMethod? methods name).map (Expr.substitute σ) := by
  induction methods with
  | nil => rfl
  | cons b methods ih =>
    rw [findMethod?, findMethod?, Expr.substitutePairs, List.lookup_cons, List.lookup_cons]
    cases name == b.1 with
    | true => rfl
    | false => exact ih

theorem findMethod?_specialised {methods : List (String × Expr)} {name : String} {body : List Expr}
    (h : findMethod? methods name = some (.lambda [] body)) (n : Nat) (fields : List String)
    (args : List Value) :
    ∃ body', findMethod? (specialised n fields args methods) name = some (.lambda [] body') := by
  obtain ⟨offset, hoffset⟩ := findMethod?_renamePairs h
  rw [specialised, findMethod?_substitutePairs, hoffset n]
  exact ⟨_, rfl⟩

/-- Methods that are procedures are still procedures when they are specialised. -/
theorem requireLambdas_specialised {methods : List (String × Expr)} (h : ∀ m ∈ methods, m.2.isLambda = true)
    (n : Nat) (fields : List String) (args : List Value) :
    requireLambdas (specialised n fields args methods) = .ok () := by
  induction methods generalizing n with
  | nil => rfl
  | cons b methods ih =>
    have hrest := ih (fun m hm => h m (List.mem_cons_of_mem b hm)) (n + b.2.binderCount)
    have hlambda : ((b.2.rename n []).substitute (fields.zip (args.map Value.toExpr))).isLambda = true := by
      cases hb : b.2 with
      | lambda => rfl
      | _ =>
        have hlambda := h b List.mem_cons_self
        rw [hb] at hlambda
        cases hlambda
    rw [specialised] at hrest
    rw [specialised, Expr.renamePairs, Expr.substitutePairs, requireLambdas, if_pos hlambda]
    exact hrest

theorem within_specialised {L M : Language} (hLM : L ≤ M) {n : Nat} {fields : List String}
    {args : List Value} {methods : List (String × Expr)} (hM : M.HasFresh n (Expr.binderCountPairs methods))
    (hlen : fields.length = args.length) (hargs : ∀ v ∈ args, v.Within L)
    (hmethods : Expr.WithinPairs L fields.reverse methods) :
    Expr.WithinPairs M [] (specialised n fields args methods) := by
  rw [Expr.binderCountPairs_eq] at hM
  have hall := within_substitute_rename hLM hM hlen hargs (Expr.withinAll_map_snd.2 hmethods)
  rw [← map_snd_specialised] at hall
  exact Expr.withinAll_map_snd.1 hall

/-- Methods that are specialised at another count are the relabelled ones. -/
theorem relabel_specialised {ρ : Relabelling} {L : Language} (hρ : ρ.Fixes L) {n n' : Nat}
    {fields : List String} {args : List Value} {methods : List (String × Expr)}
    (hshift : ρ.Shifts n n' (Expr.binderCountPairs methods)) (hfields : L.Binds fields)
    (hargs : ∀ v ∈ args, v.Within L) (hmethods : Expr.WithinPairs L fields.reverse methods) :
    Expr.relabelPairs ρ id (specialised n fields args methods) = specialised n' fields args methods := by
  have hvalues : args.map (Value.relabel ρ) = args := by
    rw [← Value.relabelAll_eq_map]
    exact Value.relabelAll_of_within hρ args (Value.withinAll_iff.2 hargs)
  rw [specialised, Expr.relabelPairs_substitute, Substitution.relabel_zip, Value.map_relabel_toExpr,
    Value.relabelAll_eq_map, hvalues, hρ.binds hfields, Expr.relabelPairs_rename id methods hshift,
    Expr.relabelPairs_of_within hρ id methods (fun _ _ => rfl) hmethods]
  rfl

/-! ### Applying a dispatcher -/

/-- The fields hide no replacement but their own. -/
theorem Substitution.without_of_not_mem {σ : Substitution} {x : String} (h : x ∉ σ.map Prod.fst) :
    σ.without [x] = σ := by
  refine List.filter_eq_self.2 fun b hb => ?_
  have hne : b.1 ≠ x := by
    rintro rfl
    exact h (List.mem_map_of_mem hb)
  simpa using hne

/-- **A dispatcher that is applied leaves the procedure of one message, with the chain of the specialised methods.** -/
theorem applied_dispatcher {n : Nat} {fields : List String} (args : List Value) (methods : List (String × Expr))
    {L : Language} (hL : ∀ x, L.name x → NumberedUpTo n x) (hfields : L.Binds fields) :
    let message := messageName fields methods
    let fresh := freshName (n + 1) message
    substitute fields (args.map Value.toExpr) (rename n [.lambda [message] [dispatchChain .identical message methods]])
      = [.lambda [fresh] [chainOf (.var fresh) (specialised (n + 1) fields args methods)]] := by
  intro message fresh
  have hunused := (isUnused_iff.1 (isUnused_messageName fields methods)).2
  have hrename : Expr.renamePairs (n + 1) [(message, fresh)] methods = Expr.renamePairs (n + 1) [] methods := by
    refine Expr.renamePairs_congr methods fun x hx => ?_
    refine Scope.resolve_of_not_mem fun hmem => hunused ?_
    have heq : x = messageName fields methods := List.mem_singleton.1 hmem
    rw [← heq]
    exact Expr.OccursFree.mem_namesPairs methods hx
  have hchain : (dispatchChain .identical message methods).rename (n + 1) [(message, fresh)]
      = chainOf (.var fresh) (Expr.renamePairs (n + 1) [] methods) := by
    rw [dispatchChain_eq, ← hrename]
    refine rename_chainOf rfl (fun k => ?_) methods (n + 1)
    rw [Expr.rename, Scope.resolve, List.lookup_cons, beq_self_eq_true]
    rfl
  have hnew : fresh ∉ (fields.zip (args.map Value.toExpr)).map Prod.fst := by
    intro hmem
    obtain ⟨b, hb, heq⟩ := List.mem_map.1 hmem
    have hold := hL b.1 (hfields.2 b.1 (List.of_mem_zip hb).1)
    exact hold.ne_freshName (Nat.lt_succ_self n) heq
  have hwithout := Substitution.without_of_not_mem hnew
  show [Expr.lambda [fresh] [((dispatchChain .identical message methods).rename (n + 1) [(message, fresh)]).substitute
    (Substitution.without (fields.zip (args.map Value.toExpr)) [fresh])]] = _
  rw [hchain, hwithout, substitute_chainOf, Expr.substitute, Substitution.apply,
    lookup_eq_none_of_not_mem hnew]
  rfl

/-- **The procedure of one message that is applied leaves the chain for the message.** -/
theorem applied_chain {n : Nat} {x name : String} {methods : List (String × Expr)}
    (h : ∀ y ∈ Expr.namesPairs (Expr.renamePairs n [] methods), y ≠ x) :
    substitute [x] [.quoted (.symbol name)] (rename n [chainOf (.var x) methods])
      = [chainOf (.quoted (.symbol name)) (Expr.renamePairs n [] methods)] := by
  have hchain : (chainOf (.var x) methods).rename n [] = chainOf (.var x) (Expr.renamePairs n [] methods) :=
    rename_chainOf rfl (fun _ => rfl) methods n
  show [((chainOf (.var x) methods).rename n []).substitute [(x, .quoted (.symbol name))]] = _
  rw [hchain, substitute_chainOf, Expr.substitutePairs_of_occursFree]
  · rw [Expr.substitute, Substitution.apply, List.lookup_cons, beq_self_eq_true]
    rfl
  · intro y hy
    have hne : (y == x) = false := by simpa using h y (Expr.OccursFree.mem_namesPairs _ hy)
    rw [List.lookup_cons, hne]
    rfl

/-! ### The names of the chain -/

section Chain

variable {s : Supply} {fields : List String} {args : List Value} {methods : List (String × Expr)}

/-- The chain of a dispatcher has no names but those that were handed out. -/
theorem within_chain (hlen : fields.length = args.length) (hargs : ∀ v ∈ args, v.Within (.handedOut s))
    (hmethods : Expr.WithinPairs (.handedOut s) fields.reverse methods) :
    Expr.WithinPairs (.handedOut ⟨s.issued + 1 + Expr.binderCountPairs methods, s.allocated⟩) []
      (specialised (s.issued + 1) fields args methods) := by
  have hle : s ≤ ⟨s.issued + 1 + Expr.binderCountPairs methods, s.allocated⟩ :=
    ⟨Nat.le_add_right_of_le (Nat.le_add_right _ _), Nat.le_refl _⟩
  exact within_specialised (Language.handedOut_grows.mono hle)
    (Language.handedOut_grows.hasFresh (Nat.le_refl _)) hlen hargs hmethods

/-- The name of the message is no name of the methods, when they are made fresh twice. -/
theorem ne_message_of_mem_chain (hlen : fields.length = args.length)
    (hargs : ∀ v ∈ args, v.Within (.handedOut s))
    (hmethods : Expr.WithinPairs (.handedOut s) fields.reverse methods) (base : String) :
    ∀ x ∈ Expr.namesPairs (Expr.renamePairs (s.issued + 1 + Expr.binderCountPairs methods) []
      (specialised (s.issued + 1) fields args methods)), x ≠ freshName (s.issued + 1) base := by
  let others : Language := { name := fun x => x ≠ freshName (s.issued + 1) base }
  have hle : Language.handedOut s ≤ others :=
    ⟨fun hx => NumberedUpTo.ne_freshName hx (Nat.lt_succ_self _), id, id, id, id, id, fun _ => trivial,
      id, id, id, id⟩
  have hfresh : ∀ n count, s.issued + 1 ≤ n → others.HasFresh n count := by
    intro n count hn
    refine ⟨fun {m x} hm _ heq => ?_, trivial⟩
    have := (freshName_eq_iff.1 heq).1
    omega
  have hchain := within_specialised hle (hfresh _ _ (Nat.le_refl _)) hlen hargs hmethods
  have hagain : Expr.WithinPairs others [] (Expr.renamePairs
      (s.issued + 1 + Expr.binderCountPairs methods) [] (specialised (s.issued + 1) fields args methods)) :=
    Expr.Within.renamePairs others.le_refl _ (Γ := []) (hfresh _ _ (Nat.le_add_right _ _))
      (fun y hy => absurd hy List.not_mem_nil) hchain
  exact fun x hx => Expr.Within.name_of_mem_pairs _ hagain hx

end Chain

end SubstModel

import SubstModel.Proofs.FreeVariables
import SubstModel.Proofs.MessageName
import SubstModel.Proofs.Language.Substitution

/-!
# Dispatchers and scoping — replacing classes binds no variable that was free

A dispatcher binds one name more than the class it stands for: the name of the message.  That name is chosen when the
classes inside of the methods have been replaced, so it is none of their messages either, and no variable of a method
comes under it.

* `Expr.hasClass` — there is a class outside of the quotations;
* `Expr.hasClass_withoutClasses`, `Expr.withoutClasses_of_hasClass` — what replacing leaves, and what it leaves alone;
* `Expr.mem_names_withoutClasses` — every name is still there;
* `Expr.occursFree_withoutClasses` — **replacing classes keeps the free variables**;
* `withoutClasses_scoping` — **all of it for expressions and programs, with what the message captures: nothing**.
-/

namespace SubstModel

/-! ### Classes -/

namespace Expr

mutual

/-- There is a class in the expression, quotations apart. -/
def hasClass : Expr → Bool
  | .number _ | .boolean _ | .string _ | .primitive _ | .var _ | .quoted _ => false
  | .cond test onTrue onFalse => hasClass test || hasClass onTrue || hasClass onFalse
  | .lambda _ body => hasClassAny body
  | .app operator operands => hasClass operator || hasClassAny operands
  | .letIn bindings body => hasClassPairs bindings || hasClassAny body
  | .define _ value => hasClass value
  | .classDef _ _ => true
termination_by structural e => e

/-- There is a class in one of the expressions. -/
def hasClassAny : List Expr → Bool
  | [] => false
  | e :: es => hasClass e || hasClassAny es
termination_by structural es => es

/-- There is a class in the value of one of the bindings. -/
def hasClassPairs : List (String × Expr) → Bool
  | [] => false
  | (_, e) :: bs => hasClass e || hasClassPairs bs
termination_by structural bs => bs

end

/-- A chain has the classes of its methods. -/
theorem hasClass_dispatchChain (comparison : Primitive) (message : String) (methods : List (String × Expr)) :
    (dispatchChain comparison message methods).hasClass = hasClassPairs methods := by
  induction methods with
  | nil => rfl
  | cons b methods ih =>
    show (false || (b.2.hasClass || false) || (dispatchChain comparison message methods).hasClass) = _
    rw [ih, Bool.false_or, Bool.or_false, hasClassPairs]

theorem hasClass_dispatcher (fields : List String) (methods : List (String × Expr)) :
    (dispatcher fields methods).hasClass = hasClassPairs methods := by
  show (((dispatchChain .identical (messageName fields methods) methods).hasClass || false) || false) = _
  rw [hasClass_dispatchChain, Bool.or_false, Bool.or_false]

mutual

/-- **No class is left.** -/
theorem hasClass_withoutClasses : ∀ e : Expr, e.withoutClasses.hasClass = false
  | .number _ | .boolean _ | .string _ | .primitive _ | .var _ | .quoted _ => rfl
  | .cond a b c => by
    rw [withoutClasses, hasClass, hasClass_withoutClasses a, hasClass_withoutClasses b, hasClass_withoutClasses c]
    rfl
  | .lambda _ body => hasClass_withoutClassesAll body
  | .app f es => by
    rw [withoutClasses, hasClass, hasClass_withoutClasses f, hasClass_withoutClassesAll es]
    rfl
  | .letIn bs body => by
    rw [withoutClasses, hasClass, hasClass_withoutClassesPairs bs, hasClass_withoutClassesAll body]
    rfl
  | .define _ e => hasClass_withoutClasses e
  | .classDef _ methods => by
    rw [withoutClasses, hasClass_dispatcher, hasClass_withoutClassesPairs methods]
termination_by structural e => e

theorem hasClass_withoutClassesAll : ∀ es : List Expr, hasClassAny (withoutClassesAll es) = false
  | [] => rfl
  | e :: es => by
    rw [withoutClassesAll, hasClassAny, hasClass_withoutClasses e, hasClass_withoutClassesAll es]
    rfl
termination_by structural es => es

theorem hasClass_withoutClassesPairs :
    ∀ bs : List (String × Expr), hasClassPairs (withoutClassesPairs bs) = false
  | [] => rfl
  | (_, e) :: bs => by
    rw [withoutClassesPairs, hasClassPairs, hasClass_withoutClasses e, hasClass_withoutClassesPairs bs]
    rfl
termination_by structural bs => bs

end

mutual

/-- Where there is no class, nothing is replaced. -/
theorem withoutClasses_of_hasClass : ∀ e : Expr, e.hasClass = false → e.withoutClasses = e
  | .number _, _ | .boolean _, _ | .string _, _ | .primitive _, _ | .var _, _ | .quoted _, _ => rfl
  | .cond a b c, h => by
    obtain ⟨hab, hc⟩ := Bool.or_eq_false_iff.1 h
    obtain ⟨ha, hb⟩ := Bool.or_eq_false_iff.1 hab
    rw [withoutClasses, withoutClasses_of_hasClass a ha, withoutClasses_of_hasClass b hb,
      withoutClasses_of_hasClass c hc]
  | .lambda _ body, h => by
    rw [withoutClasses, withoutClassesAll_of_hasClass body h]
  | .app f es, h => by
    obtain ⟨hf, hes⟩ := Bool.or_eq_false_iff.1 h
    rw [withoutClasses, withoutClasses_of_hasClass f hf, withoutClassesAll_of_hasClass es hes]
  | .letIn bs body, h => by
    obtain ⟨hbs, hb⟩ := Bool.or_eq_false_iff.1 h
    rw [withoutClasses, withoutClassesPairs_of_hasClass bs hbs, withoutClassesAll_of_hasClass body hb]
  | .define _ e, h => by
    rw [withoutClasses, withoutClasses_of_hasClass e h]
  | .classDef _ _, h => Bool.noConfusion h
termination_by structural e => e

theorem withoutClassesAll_of_hasClass : ∀ es : List Expr, hasClassAny es = false → withoutClassesAll es = es
  | [], _ => rfl
  | e :: es, h => by
    obtain ⟨he, hes⟩ := Bool.or_eq_false_iff.1 h
    rw [withoutClassesAll, withoutClasses_of_hasClass e he, withoutClassesAll_of_hasClass es hes]
termination_by structural es => es

theorem withoutClassesPairs_of_hasClass :
    ∀ bs : List (String × Expr), hasClassPairs bs = false → withoutClassesPairs bs = bs
  | [], _ => rfl
  | (_, e) :: bs, h => by
    obtain ⟨he, hbs⟩ := Bool.or_eq_false_iff.1 h
    rw [withoutClassesPairs, withoutClasses_of_hasClass e he, withoutClassesPairs_of_hasClass bs hbs]
termination_by structural bs => bs

end

/-- Replacing changes nothing just where there is no class. -/
theorem withoutClasses_eq_self_iff {e : Expr} : e.withoutClasses = e ↔ e.hasClass = false := by
  constructor
  · intro h
    rw [← h]
    exact hasClass_withoutClasses e
  · exact withoutClasses_of_hasClass e

theorem withoutClassesAll_eq_self_iff {es : List Expr} : withoutClassesAll es = es ↔ hasClassAny es = false := by
  constructor
  · intro h
    rw [← h]
    exact hasClass_withoutClassesAll es
  · exact withoutClassesAll_of_hasClass es

/-! ### Names -/

/-- The names of the methods stand in their chain. -/
theorem mem_names_dispatchChain {x : String} (comparison : Primitive) (message : String)
    {methods : List (String × Expr)} (h : x ∈ namesPairs methods) :
    x ∈ (dispatchChain comparison message methods).names := by
  induction methods with
  | nil => exact absurd h List.not_mem_nil
  | cons b methods ih =>
    rw [dispatchChain, names, List.mem_append, List.mem_append]
    rcases List.mem_append.1 h with h | h
    · exact .inl (.inr (List.mem_append_left _ h))
    · exact .inr (ih h)

theorem mem_names_dispatcher {x : String} {fields : List String} {methods : List (String × Expr)}
    (h : x ∈ fields ∨ x ∈ namesPairs methods) : x ∈ (dispatcher fields methods).names := by
  refine List.mem_append.2 (h.imp_right fun h => ?_)
  exact List.mem_append_left _ (List.mem_append_right _ (List.mem_append_left _ (mem_names_dispatchChain _ _ h)))

mutual

/-- **Every name is still there when the classes are replaced.** -/
theorem mem_names_withoutClasses {x : String} : ∀ e : Expr, x ∈ e.names → x ∈ e.withoutClasses.names
  | .number _, h | .boolean _, h | .string _, h | .primitive _, h | .quoted _, h => h
  | .var _, h => h
  | .cond a b c, h => by
    rw [withoutClasses, names, List.mem_append, List.mem_append]
    refine (List.mem_append.1 h).imp (fun h => ?_) (mem_names_withoutClasses c)
    exact (List.mem_append.1 h).imp (mem_names_withoutClasses a) (mem_names_withoutClasses b)
  | .lambda _ body, h => by
    rw [withoutClasses, names, List.mem_append]
    exact (List.mem_append.1 h).imp_right (mem_names_withoutClassesAll body)
  | .app f es, h => by
    rw [withoutClasses, names, List.mem_append]
    exact (List.mem_append.1 h).imp (mem_names_withoutClasses f) (mem_names_withoutClassesAll es)
  | .letIn bs body, h => by
    rw [withoutClasses, names, map_fst_withoutClassesPairs, List.mem_append, List.mem_append]
    refine (List.mem_append.1 h).imp (fun h => ?_) (mem_names_withoutClassesAll body)
    exact (List.mem_append.1 h).imp_right (mem_names_withoutClassesPairs bs)
  | .define _ e, h => by
    rw [withoutClasses, names, List.mem_cons]
    exact (List.mem_cons.1 h).imp_right (mem_names_withoutClasses e)
  | .classDef _ methods, h =>
    mem_names_dispatcher ((List.mem_append.1 h).imp_right (mem_names_withoutClassesPairs methods))
termination_by structural e => e

theorem mem_names_withoutClassesAll {x : String} :
    ∀ es : List Expr, x ∈ namesAll es → x ∈ namesAll (withoutClassesAll es)
  | [], h => h
  | e :: es, h => by
    rw [withoutClassesAll, namesAll, List.mem_append]
    exact (List.mem_append.1 h).imp (mem_names_withoutClasses e) (mem_names_withoutClassesAll es)
termination_by structural es => es

theorem mem_names_withoutClassesPairs {x : String} :
    ∀ bs : List (String × Expr), x ∈ namesPairs bs → x ∈ namesPairs (withoutClassesPairs bs)
  | [], h => h
  | (_, e) :: bs, h => by
    rw [withoutClassesPairs, namesPairs, List.mem_append]
    exact (List.mem_append.1 h).imp (mem_names_withoutClasses e) (mem_names_withoutClassesPairs bs)
termination_by structural bs => bs

end

/-! ### Free variables -/

mutual

/-- A variable that occurs free is one of the names. -/
theorem OccursFree.mem_names {x : String} : ∀ e : Expr, e.OccursFree x → x ∈ e.names
  | .var _, h => List.mem_singleton.2 h
  | .cond a b c, h => by
    rw [names, List.mem_append, List.mem_append, or_assoc]
    exact h.imp (OccursFree.mem_names a) fun h => h.imp (OccursFree.mem_names b) (OccursFree.mem_names c)
  | .lambda _ body, h => List.mem_append_right _ (OccursFree.mem_namesAll body h.2)
  | .app f es, h => List.mem_append.2 (h.imp (OccursFree.mem_names f) (OccursFree.mem_namesAll es))
  | .letIn bs body, h => List.mem_append.2 (h.imp (fun h => List.mem_append_right _ (OccursFree.mem_namesPairs bs h))
      fun h => OccursFree.mem_namesAll body h.2)
  | .define _ e, h => List.mem_cons_of_mem _ (OccursFree.mem_names e h)
  | .classDef _ methods, h => List.mem_append_right _ (OccursFree.mem_namesPairs methods h.2)
termination_by structural e => e

theorem OccursFree.mem_namesAll {x : String} : ∀ es : List Expr, OccursFreeAny x es → x ∈ namesAll es
  | e :: es, h => List.mem_append.2 (h.imp (OccursFree.mem_names e) (OccursFree.mem_namesAll es))
termination_by structural es => es

theorem OccursFree.mem_namesPairs {x : String} :
    ∀ bs : List (String × Expr), OccursFreePairs x bs → x ∈ namesPairs bs
  | (_, e) :: bs, h => List.mem_append.2 (h.imp (OccursFree.mem_names e) (OccursFree.mem_namesPairs bs))
termination_by structural bs => bs

end

/-- Of the variables of a chain all but the message are variables of the methods. -/
theorem occursFree_dispatchChain {x message : String} (hx : x ≠ message) (comparison : Primitive)
    (methods : List (String × Expr)) :
    (dispatchChain comparison message methods).OccursFree x ↔ OccursFreePairs x methods := by
  induction methods with
  | nil => rfl
  | cons b methods ih =>
    show (False ∨ x = message ∨ False ∨ False) ∨ (b.2.OccursFree x ∨ False) ∨
      (dispatchChain comparison message methods).OccursFree x ↔ b.2.OccursFree x ∨ OccursFreePairs x methods
    rw [ih]
    simp only [hx, false_or, or_false]

/-- **A dispatcher has the free variables of the class**: those of the methods but the fields. -/
theorem occursFree_dispatcher {x : String} {fields : List String} {methods : List (String × Expr)} :
    (dispatcher fields methods).OccursFree x ↔ x ∉ fields ∧ OccursFreePairs x methods := by
  let message := messageName fields methods
  have hunused : message ∉ namesPairs methods := (isUnused_iff.1 (isUnused_messageName fields methods)).2
  show x ∉ fields ∧ (x ∉ [message] ∧ ((dispatchChain .identical message methods).OccursFree x ∨ False) ∨ False) ↔ _
  rw [or_false, or_false, List.mem_singleton]
  refine and_congr_right fun _ => ?_
  constructor
  · rintro ⟨hx, h⟩
    exact (occursFree_dispatchChain hx _ methods).1 h
  · intro h
    have hx : x ≠ message := fun heq => hunused (heq ▸ OccursFree.mem_namesPairs methods h)
    exact ⟨hx, (occursFree_dispatchChain hx _ methods).2 h⟩

mutual

/-- **Replacing classes keeps the free variables.** -/
theorem occursFree_withoutClasses {x : String} : ∀ e : Expr, e.withoutClasses.OccursFree x ↔ e.OccursFree x
  | .number _ | .boolean _ | .string _ | .primitive _ | .var _ | .quoted _ => Iff.rfl
  | .cond a b c => or_congr (occursFree_withoutClasses a)
      (or_congr (occursFree_withoutClasses b) (occursFree_withoutClasses c))
  | .lambda _ body => and_congr_right fun _ => occursFree_withoutClassesAll body
  | .app f es => or_congr (occursFree_withoutClasses f) (occursFree_withoutClassesAll es)
  | .letIn bs body => by
    rw [withoutClasses, OccursFree, map_fst_withoutClassesPairs]
    exact or_congr (occursFree_withoutClassesPairs bs) (and_congr_right fun _ => occursFree_withoutClassesAll body)
  | .define _ e => occursFree_withoutClasses e
  | .classDef _ methods => by
    rw [withoutClasses, occursFree_dispatcher]
    exact and_congr_right fun _ => occursFree_withoutClassesPairs methods
termination_by structural e => e

theorem occursFree_withoutClassesAll {x : String} :
    ∀ es : List Expr, OccursFreeAny x (withoutClassesAll es) ↔ OccursFreeAny x es
  | [] => Iff.rfl
  | e :: es => or_congr (occursFree_withoutClasses e) (occursFree_withoutClassesAll es)
termination_by structural es => es

theorem occursFree_withoutClassesPairs {x : String} :
    ∀ bs : List (String × Expr), OccursFreePairs x (withoutClassesPairs bs) ↔ OccursFreePairs x bs
  | [] => Iff.rfl
  | (_, e) :: bs => or_congr (occursFree_withoutClasses e) (occursFree_withoutClassesPairs bs)
termination_by structural bs => bs

end

end Expr

/-! ### Scoping -/

/-- The name of the message is no field, and it stands neither in the methods nor in what has become of them. -/
theorem messageName_withoutClasses (fields : List String) (methods : List (String × Expr)) :
    let message := messageName fields (Expr.withoutClassesPairs methods)
    message ∉ fields ∧ message ∉ Expr.namesPairs (Expr.withoutClassesPairs methods) ∧
      message ∉ Expr.namesPairs methods := by
  intro message
  obtain ⟨hfields, hmethods⟩ := isUnused_iff.1 (isUnused_messageName fields (Expr.withoutClassesPairs methods))
  exact ⟨hfields, hmethods, fun h => hmethods (Expr.mem_names_withoutClassesPairs methods h)⟩

/-- **Replacing classes removes them without changing scoping.**  Rewriting the classes of an expression and of a
program succeeds.  No class is left, nothing changes just where there was none, replacing again changes nothing, and the
free variables are the same.  Each class becomes the procedure of its fields that returns the procedure of one message,
and the name of the message is neither a field nor a name in the methods, be it before or after the classes inside of
them are replaced. -/
theorem withoutClasses_scoping :
    (∀ e : Expr, e.rewriteClasses = .ok e.withoutClasses ∧ e.withoutClasses.hasClass = false ∧
      (e.withoutClasses = e ↔ e.hasClass = false) ∧
      e.withoutClasses.withoutClasses = e.withoutClasses ∧ ∀ x, e.withoutClasses.OccursFree x ↔ e.OccursFree x) ∧
    (∀ p : Program, p.rewriteClasses = .ok p.withoutClasses ∧ Expr.hasClassAny p.withoutClasses.forms = false ∧
      (p.withoutClasses = p ↔ Expr.hasClassAny p.forms = false) ∧
      p.withoutClasses.withoutClasses = p.withoutClasses ∧
      ∀ x, Expr.OccursFreeAny x p.withoutClasses.forms ↔ Expr.OccursFreeAny x p.forms) ∧
    ∀ (fields : List String) (methods : List (String × Expr)),
      let methods' := Expr.withoutClassesPairs methods
      let message := messageName fields methods'
      (Expr.classDef fields methods).withoutClasses
          = .lambda fields [.lambda [message] [dispatchChain .identical message methods']] ∧
        message ∉ fields ∧ message ∉ Expr.namesPairs methods' ∧ message ∉ Expr.namesPairs methods := by
  refine ⟨fun e => ?_, fun p => ?_, fun fields methods => ⟨rfl, messageName_withoutClasses fields methods⟩⟩
  · have hnone := Expr.hasClass_withoutClasses e
    exact ⟨e.rewriteClasses_eq, hnone, Expr.withoutClasses_eq_self_iff, Expr.withoutClasses_of_hasClass _ hnone,
      fun x => Expr.occursFree_withoutClasses e⟩
  · have hnone := Expr.hasClass_withoutClassesAll p.forms
    refine ⟨p.rewriteClasses_eq, hnone, ?_, ?_, fun x => Expr.occursFree_withoutClassesAll p.forms⟩
    · rw [← Expr.withoutClassesAll_eq_self_iff]
      exact ⟨congrArg Program.forms, congrArg Program.mk⟩
    · exact congrArg Program.mk (Expr.withoutClassesAll_of_hasClass _ hnone)

/-- The dispatcher of the inner class takes `msg`, and a method reads `msg1`. -/
example : messageName [] (Expr.withoutClassesPairs [("inner", .classDef [] []), ("m", .var "msg1")]) = "msg2" := by
  cbv

end SubstModel

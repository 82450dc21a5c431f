import SubstModel.Proofs.Address
import SubstModel.Proofs.Dispatcher.Scoping
import SubstModel.Proofs.Nameless.Dispatcher
import SubstModel.Proofs.SubstitutionInTurn

/-!
# The search for the name of a message

A dispatcher needs a name that stands nowhere in its class.  Whether a name is mentioned is told by a recursion over all
forms of expressions, and here by the places of an expression: a name is mentioned when it is a variable at some
address, or bound by what stands there.  A name that is not mentioned can be bound around an expression, and nothing is
captured.

* `Expr.HasName` — the five ways in which a name can stand at one place;
* `Expr.part_induction` — induction from the parts of an expression to the whole;
* `Expr.mem_names_iff_at?` — **the names of an expression are those that stand at its addresses**;
* `message_search` — **the search ends with the first candidate that is not mentioned, and such a name is harmless**.
-/

namespace SubstModel

namespace Expr

/-! ### Names at addresses -/

/-- The name stands at the very top of the expression: as a variable, or where the expression binds it. -/
@[mk_iff]
inductive HasName (x : String) : Expr → Prop
  | variable : HasName x (.var x)
  | parameter {params : List String} {body : List Expr} (bound : x ∈ params) : HasName x (.lambda params body)
  | localName {bindings : List (String × Expr)} {body : List Expr} (bound : x ∈ bindings.map Prod.fst) :
    HasName x (.letIn bindings body)
  | field {fields : List String} {methods : List (String × Expr)} (bound : x ∈ fields) :
    HasName x (.classDef fields methods)
  | definition {value : Expr} : HasName x (.define x value)

theorem mem_namesAll {x : String} {es : List Expr} : x ∈ namesAll es ↔ ∃ e ∈ es, x ∈ e.names := by
  induction es with
  | nil => simp [namesAll]
  | cons e es ih => simp [namesAll, ih]

/-- The names of an expression are the one at its top and those of its parts. -/
theorem mem_names_iff {x : String} (e : Expr) :
    x ∈ e.names ↔ e.HasName x ∨ x ∈ namesAll e.outer ∨ x ∈ namesAll e.inner := by
  cases e with
  | number | boolean | string | primitive | quoted => simp [hasName_iff, names, outer, inner, namesAll]
  | var y => simp [hasName_iff, names, outer, inner, namesAll, eq_comm]
  | cond a b c => simp [hasName_iff, names, outer, inner, namesAll]
  | lambda params body => simp [hasName_iff, names, outer, inner, namesAll]
  | app f es => simp [hasName_iff, names, outer, inner, namesAll]
  | letIn bs body => simp [hasName_iff, names, outer, inner, namesAll_map_snd]
  | define y e => simp [hasName_iff, names, outer, inner, namesAll, eq_comm]
  | classDef fields methods => simp [hasName_iff, names, outer, inner, namesAll, namesAll_map_snd]

theorem sizeOf_lt_of_mem_pairs {d : Expr} {bs : List (String × Expr)} (h : d ∈ bs.map Prod.snd) :
    sizeOf d < sizeOf bs := by
  obtain ⟨b, hb, rfl⟩ := List.mem_map.1 h
  have hlt := List.sizeOf_lt_of_mem hb
  have hpair : sizeOf b = 1 + sizeOf b.1 + sizeOf b.2 := rfl
  omega

theorem sizeOf_lt_of_mem_outer {e d : Expr} (h : d ∈ e.outer) : sizeOf d < sizeOf e := by
  cases e with
  | cond a b c =>
    have hd : d = a ∨ d = b ∨ d = c := by simpa [outer] using h
    rcases hd with rfl | rfl | rfl <;> simp only [cond.sizeOf_spec] <;> omega
  | app f es =>
    rcases List.mem_cons.1 h with rfl | hes
    · simp only [app.sizeOf_spec]
      omega
    · have hlt := List.sizeOf_lt_of_mem hes
      simp only [app.sizeOf_spec]
      omega
  | letIn bs body =>
    have hlt := sizeOf_lt_of_mem_pairs h
    simp only [letIn.sizeOf_spec]
    omega
  | define y e =>
    have hd : d = e := List.mem_singleton.1 h
    rw [hd, define.sizeOf_spec]
    omega
  | _ => cases h

theorem sizeOf_lt_of_mem_inner {e d : Expr} (h : d ∈ e.inner) : sizeOf d < sizeOf e := by
  cases e with
  | lambda params body =>
    have hlt := List.sizeOf_lt_of_mem (show d ∈ body from h)
    simp only [lambda.sizeOf_spec]
    omega
  | letIn bs body =>
    have hlt := List.sizeOf_lt_of_mem (show d ∈ body from h)
    simp only [letIn.sizeOf_spec]
    omega
  | classDef fields methods =>
    have hlt := sizeOf_lt_of_mem_pairs h
    simp only [classDef.sizeOf_spec]
    omega
  | _ => cases h

/-- What an expression has when its parts have it, every expression has. -/
theorem part_induction {P : Expr → Prop}
    (step : ∀ e : Expr, (∀ d ∈ e.outer, P d) → (∀ d ∈ e.inner, P d) → P e) (e : Expr) : P e :=
  step e (fun d _ => part_induction step d) fun d _ => part_induction step d
termination_by sizeOf e
decreasing_by
  · exact sizeOf_lt_of_mem_outer ‹_›
  · exact sizeOf_lt_of_mem_inner ‹_›

/-- A name of an expression stands at one of its addresses. -/
theorem exists_at?_of_mem_names {x : String} (e : Expr) (h : x ∈ e.names) :
    ∃ p d, e.at? p = some d ∧ d.HasName x := by
  induction e using part_induction with
  | step e ihOuter ihInner =>
    rcases (mem_names_iff e).1 h with htop | houter | hinner
    · exact ⟨[], e, rfl, htop⟩
    · obtain ⟨part, hpart, hx⟩ := mem_namesAll.1 houter
      obtain ⟨p, d, hat, hd⟩ := ihOuter part hpart hx
      obtain ⟨i, hi⟩ := List.mem_iff_getElem?.1 hpart
      exact ⟨.outer i :: p, d, at?_outer_iff.2 ⟨part, hi, hat⟩, hd⟩
    · obtain ⟨part, hpart, hx⟩ := mem_namesAll.1 hinner
      obtain ⟨p, d, hat, hd⟩ := ihInner part hpart hx
      obtain ⟨i, hi⟩ := List.mem_iff_getElem?.1 hpart
      exact ⟨.inner i :: p, d, at?_inner_iff.2 ⟨part, hi, hat⟩, hd⟩

/-- What stands at an address of an expression is a name of it. -/
theorem mem_names_of_at? {x : String} {e d : Expr} {p : Address} (h : e.at? p = some d) (hd : d.HasName x) :
    x ∈ e.names := by
  rw [mem_names_iff]
  induction p generalizing e with
  | nil =>
    cases h
    exact .inl hd
  | cons step p ih =>
    cases step with
    | outer i =>
      obtain ⟨part, hpart, hat⟩ := at?_outer_iff.1 h
      have hx : x ∈ part.names := (mem_names_iff part).2 (ih hat)
      exact .inr (.inl (mem_namesAll.2 ⟨part, List.mem_of_getElem? hpart, hx⟩))
    | inner i =>
      obtain ⟨part, hpart, hat⟩ := at?_inner_iff.1 h
      have hx : x ∈ part.names := (mem_names_iff part).2 (ih hat)
      exact .inr (.inr (mem_namesAll.2 ⟨part, List.mem_of_getElem? hpart, hx⟩))

/-- **The names of an expression are those that stand at its addresses.** -/
theorem mem_names_iff_at? {x : String} (e : Expr) : x ∈ e.names ↔ ∃ p d, e.at? p = some d ∧ d.HasName x :=
  ⟨exists_at?_of_mem_names e, fun ⟨_, _, hat, hd⟩ => mem_names_of_at? hat hd⟩

/-- A name is not mentioned exactly when it stands at no address. -/
theorem mentionsAny_eq_false_iff {x : String} {es : List Expr} :
    mentionsAny x es = false ↔ ∀ e ∈ es, ∀ p d, e.at? p = some d → ¬ d.HasName x := by
  rw [Bool.eq_false_iff, Ne, mentionsAny_iff, mem_namesAll]
  simp only [mem_names_iff_at?, not_exists, not_and]

/-! ### Names that are not mentioned -/

theorem mentionsAny_map_snd (x : String) (bs : List (String × Expr)) :
    mentionsAny x (bs.map Prod.snd) = mentionsPairs x bs := by
  induction bs with
  | nil => rfl
  | cons b bs ih => rw [List.map_cons, mentionsAny, ih, mentionsPairs]

/-- A name that is not mentioned is not free. -/
theorem not_occursFreeAny_of_mentionsAny {x : String} {es : List Expr} (h : mentionsAny x es = false) :
    ¬ OccursFreeAny x es := by
  intro hfree
  rw [(mentionsAny_iff es).2 (OccursFree.mem_namesAll es hfree)] at h
  cases h

/-- A binder of a name that is not mentioned takes no free variable away. -/
theorem occursFree_lambda_of_mentionsAny {x : String} {es : List Expr} (h : mentionsAny x es = false) (y : String) :
    (Expr.lambda [x] es).OccursFree y ↔ OccursFreeAny y es := by
  constructor
  · intro hy
    exact hy.2
  · intro hy
    refine ⟨?_, hy⟩
    rw [List.mem_singleton]
    rintro rfl
    exact not_occursFreeAny_of_mentionsAny h hy

end Expr

/-! ### The search -/

/-- The fields of a class, and the names that its methods mention. -/
theorem mem_classNames {fields : List String} {methods : List (String × Expr)} {x : String} :
    x ∈ (fields ++ Expr.namesPairs methods).toFinset
      ↔ x ∈ fields ∨ Expr.mentionsAny x (methods.map Prod.snd) = true := by
  rw [List.mem_toFinset, List.mem_append, Expr.mentionsAny_map_snd, Expr.mentionsPairs_iff]

theorem isUnused_eq_false_iff {fields : List String} {methods : List (String × Expr)} {x : String} :
    isUnused fields methods x = false ↔ x ∈ fields ∨ Expr.mentionsAny x (methods.map Prod.snd) = true := by
  rw [Bool.eq_false_iff, Ne, isUnused_iff, ← not_or, not_not, Expr.mentionsAny_map_snd, Expr.mentionsPairs_iff]

/-- **The search for the name of a message ends, and with a name that is harmless.**  It finds the first of `msg`,
`msg1`, `msg2`, and so on, that is no field and that no method mentions, after trying at most one candidate more than there
are different such names.  A name is not mentioned exactly when it is neither a variable nor bound at any address of the
expressions.  Then to substitute for it changes nothing, and a binder of it captures nothing: no variable becomes bound,
and behind the binder every variable means what it meant in front of it. -/
theorem message_search {ι : Type} :
    (∀ n, messageCandidate n = if n = 0 then "msg" else "msg" ++ toString n) ∧
    (∀ (fields : List String) (methods : List (String × Expr)), ∃ (n : Nat) (used : Finset String),
      (∀ x, x ∈ used ↔ x ∈ fields ∨ Expr.mentionsAny x (methods.map Prod.snd) = true) ∧ n ≤ used.card ∧
        messageName? fields methods = some (messageCandidate n) ∧
        messageName fields methods = messageCandidate n ∧
        messageCandidate n ∉ used ∧ ∀ m < n, messageCandidate m ∈ used) ∧
      ∀ (es : List Expr) (x : String),
        (Expr.mentionsAny x es = false ↔ ∀ e ∈ es, ∀ p d, e.at? p = some d → ¬ d.HasName x) ∧
        (Expr.mentionsAny x es = false →
          (∀ r, substitute [x] [r] es = es) ∧
          (∀ y, (Expr.lambda [x] es).OccursFree y ↔ Expr.OccursFreeAny y es) ∧
          ∀ (g : Ref → ι) (scope : List String),
            Expr.namelessAll g [] (x :: scope) es = Term.liftAll 0 (Expr.namelessAll g [] scope es)) := by
  refine ⟨messageCandidate_eq, ?_, ?_⟩
  · intro fields methods
    obtain ⟨n, hle, hname, hunused, hused⟩ := exists_messageName? fields methods
    refine ⟨n, _, fun _ => mem_classNames, hle, hname, ?_, ?_, fun m hm => ?_⟩
    · rw [messageName, hname, Option.getD_some]
    · intro hmem
      rw [isUnused_eq_false_iff.2 (mem_classNames.1 hmem)] at hunused
      cases hunused
    · exact mem_classNames.2 (isUnused_eq_false_iff.1 (hused m hm))
  · intro es x
    refine ⟨Expr.mentionsAny_eq_false_iff, fun h => ⟨fun r => ?_, Expr.occursFree_lambda_of_mentionsAny h, ?_⟩⟩
    · have hfree : ∀ y ∈ [x], ¬ Expr.OccursFreeAny y es :=
        List.forall_mem_singleton.2 (Expr.not_occursFreeAny_of_mentionsAny h)
      exact substitute_of_occursFreeAny hfree [r]
    · intro g scope
      have hnames : x ∉ Expr.namesAll es := by
        rw [← Expr.mentionsAny_iff, h]
        exact Bool.false_ne_true
      exact Expr.namelessAll_lift g scope es [] hnames

/-- The field is the first candidate and the method binds the second.  The third stands in a literal only, where it is
no name, and is the parameter. -/
theorem message_search_literal :
    let methods : List (String × Expr) := [("get", .lambda ["msg1"] [.app (.var "msg") [.quoted (.symbol "msg2")]])]
    let es := methods.map Prod.snd
    Expr.mentionsAny "msg2" es = false ∧ messageName ["msg"] methods = "msg2" ∧
      (∀ r, substitute ["msg2"] [r] es = es) ∧
      (∀ y, (Expr.lambda ["msg2"] es).OccursFree y ↔ Expr.OccursFreeAny y es) ∧
      Expr.namelessAll id [] ["msg2", "msg"] es = Term.liftAll 0 (Expr.namelessAll id [] ["msg"] es) := by
  intro methods es
  have hunused : Expr.mentionsAny "msg2" es = false := by decide
  have hname : messageName ["msg"] methods = "msg2" := by decide +kernel
  obtain ⟨hsubst, hfree, hlift⟩ := (message_search.2.2 es "msg2").2 hunused
  exact ⟨hunused, hname, hsubst, hfree, hlift id ["msg"]⟩

end SubstModel

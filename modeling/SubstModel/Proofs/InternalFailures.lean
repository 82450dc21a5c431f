import SubstModel.Proofs.Objects
import SubstModel.Proofs.ScopeSafety

/-!
# Internal failures — checks that no text can fail

Some of the evaluator's checks guard against expressions that no text spells: definitions inside of expressions, objects
whose methods are no procedures, dispatchers without the comparison that they make.  A text never fails for these, and
for a few other reasons it fails only if it asks for them.

* `EvalFault.Internal`, `EvalFault.External` — the faults that no text leads to, and those that a text may lead to;
* `Failure.eval_of_message`, `EvalFault.message_ne_internal` — the wording tells them apart;
* `Language.classFree`, `Language.letFree` — all without classes and objects, and all without `let`;
* `Program.language` — what a program as it is evaluated is made of, and `Program.within_language`;
* `Program.foreseen_failure` — how the evaluation of a program may fail;
* `Failure.OfText` — the same with the text in view;
* `text_failures` — **no text fails for an internal reason, and where classes are replaced none is ever met**.
-/

namespace SubstModel

/-! ### Faults and their wording -/

/-- The faults of checks that every text passes, also when a remark has the wording of one. -/
def EvalFault.Internal : EvalFault → Prop
  | .misplacedDefine _ | .methodNotProcedure _ | .noComparison => True
  | .remark text => text = "eq? primitive is not registered"
  | _ => False

/-- The faults of evaluation that a text may lead to. -/
def EvalFault.External : EvalFault → Prop
  | .misplacedDefine _ | .methodNotProcedure _ | .noComparison | .remark _ => False
  | _ => True

theorem opening_append {s t : String} {c d : Char} (h : s.toList.take 2 = [c, d]) :
    (s ++ t).toList.take 2 = [c, d] := by
  have hs := (List.take_append_drop 2 s.toList).symm
  rw [h] at hs
  rw [String.toList_append, hs]
  rfl

/-- How the text of a fault begins. -/
def EvalFault.opening : EvalFault → List Char
  | depthLimit _ => ['E', 'v']
  | misplacedDefine _ => ['d', 'e']
  | emptySequence => ['E', 'm']
  | divisionByZero => ['D', 'i']
  | carOfEmpty => ['c', 'a']
  | cdrOfEmpty => ['c', 'd']
  | methodNotProcedure _ => ['m', 'e']
  | noComparison => ['e', 'q']
  | remark text => text.toList.take 2

theorem EvalFault.opening_message (fault : EvalFault) : fault.message.toList.take 2 = fault.opening := by
  cases fault with
  | depthLimit | misplacedDefine | methodNotProcedure => exact opening_append (opening_append (by decide))
  | emptySequence | divisionByZero | carOfEmpty | cdrOfEmpty | noComparison => decide
  | remark => rfl

/-- How the text of a failure of each kind begins. -/
def Failure.Kind.opening : Failure.Kind → List Char
  | parse => ['P', 'a']
  | eval => ['E', 'v']
  | type => ['T', 'y']
  | unboundVariable => ['U', 'n']
  | notAProcedure => ['n', 'o']
  | arity => ['A', 'r']
  | unrecognizedMethod => ['O', 'b']
  | unsupported => ['U', 'n']
  | malformedInstance => ['B', 'a']

theorem Failure.opening_message (f : Failure) : f.message.toList.take 2 = f.kind.opening := by
  cases f with
  | parse | eval | type | unboundVariable | notAProcedure | unrecognizedMethod | malformedInstance =>
    exact opening_append (by decide)
  | unsupported => exact opening_append (opening_append (by decide))
  | arity => exact opening_append (opening_append (opening_append (opening_append (opening_append (by decide)))))

/-- The text of a failure of evaluation tells that it is one. -/
theorem Failure.eval_of_message {f : Failure} {fault : EvalFault} (h : f.message = (Failure.eval fault).message) :
    ∃ fault', f = .eval fault' ∧ fault'.message = fault.message := by
  have hopening : f.kind.opening = Failure.Kind.opening .eval := by
    rw [← f.opening_message, h]
    exact (Failure.eval fault).opening_message
  cases f with
  | eval fault' => exact ⟨fault', rfl, (String.append_right_inj _).1 h⟩
  | _ => cases hopening

theorem EvalFault.Internal.opening {fault : EvalFault} (h : fault.Internal) :
    fault.opening ∈ [['d', 'e'], ['m', 'e'], ['e', 'q']] := by
  cases fault with
  | misplacedDefine => exact List.mem_cons_self
  | methodNotProcedure => exact List.mem_cons_of_mem _ List.mem_cons_self
  | noComparison => exact List.mem_cons_of_mem _ (List.mem_cons_of_mem _ List.mem_cons_self)
  | remark text =>
    obtain rfl := h
    decide
  | _ => exact absurd h id

theorem EvalFault.External.opening_notMem {fault : EvalFault} (h : fault.External) :
    fault.opening ∉ [['d', 'e'], ['m', 'e'], ['e', 'q']] := by
  cases fault with
  | depthLimit =>
    show ['E', 'v'] ∉ _
    decide
  | emptySequence | divisionByZero | carOfEmpty | cdrOfEmpty => decide
  | _ => exact absurd h id

theorem EvalFault.message_ne_internal {fault fault' : EvalFault} (h : fault.External) (h' : fault'.Internal) :
    fault.message ≠ fault'.message := by
  intro heq
  have hopening : fault.opening = fault'.opening := by
    rw [← fault.opening_message, heq, fault'.opening_message]
  exact h.opening_notMem (hopening ▸ h'.opening)

theorem EvalFault.eq_emptySequence {fault : EvalFault} (h : fault.External)
    (heq : fault.message = EvalFault.emptySequence.message) : fault = .emptySequence := by
  have hopening : fault.opening = EvalFault.emptySequence.opening := by
    rw [← fault.opening_message, heq, EvalFault.opening_message]
  cases fault with
  | emptySequence => rfl
  | remark => exact absurd h id
  | _ => cases hopening

/-! ### What a program is made of -/

/-- All without classes and objects. -/
def Language.classFree : Language :=
  { classes := False }

/-- All without `let`. -/
def Language.letFree : Language :=
  { lets := False }

/-- There is a `let` in one of the forms. -/
def Program.HasLet (p : Program) : Prop :=
  ∃ e ∈ p.forms, ¬ e.WithinForm .letFree

/-- What there is in the program as it is evaluated. -/
def Program.language (config : Config) (p : Program) : Language where
  classes := config.classes = .objects
  lets := p.HasLet
  definitions := False
  emptyBodies := NoValue p.forms

namespace Program

variable {config : Config} {p : Program}

theorem language_grows : Language.Grows fun _ => p.language config where
  mono _ := Language.le_refl _
  name _ := trivial
  binders := trivial
  ref _ := trivial

theorem not_classes_language (hc : config.classes = .dispatchers) : ¬ (p.language config).classes := by
  show ¬ config.classes = .objects
  rw [hc]
  exact nofun

theorem language_le_classFree (hc : config.classes = .dispatchers) : p.language config ≤ .classFree where
  name _ := trivial
  free _ := trivial
  binders _ := trivial
  label _ := trivial
  symbol _ := trivial
  primitive _ := trivial
  ref _ := trivial
  classes := not_classes_language hc
  lets _ := trivial
  definitions _ := trivial
  emptyBodies _ := trivial

/-- What can be spelled, with the `let`s that there are. -/
theorem withinForm_lets {text : String} (hp : ofText text = .ok p) {e : Expr} (he : e ∈ p.forms) :
    e.WithinForm (Language.spelled.and { lets := p.HasLet }) := by
  have hspelled := within_ofText hp e he
  refine hspelled.and ?_
  by_cases hlet : p.HasLet
  · refine hspelled.mono ⟨fun _ => trivial, fun _ => trivial, fun _ => trivial, fun _ => trivial, fun _ => trivial,
      fun _ => trivial, fun _ => trivial, fun _ => trivial, fun _ => hlet, fun _ => trivial, fun _ => trivial⟩
  · have hfree : e.WithinForm .letFree := by
      by_contra hno
      exact hlet ⟨e, he, hno⟩
    have hle : Language.letFree ≤ { lets := p.HasLet } := ⟨id, id, id, id, id, id, id, id, False.elim, id, id⟩
    exact hfree.mono hle

theorem lets_le_language : Language.spelled.and { lets := p.HasLet } ≤ { p.language config with classes := True } where
  name _ := trivial
  free _ := trivial
  binders _ := trivial
  label _ := trivial
  symbol _ := trivial
  primitive _ := trivial
  ref _ := trivial
  classes _ := trivial
  lets h := h.2
  definitions h := h.1
  emptyBodies h := h.1.elim

theorem dispatches_language :
    (Language.spelled.and { lets := p.HasLet }).Dispatches (p.language config) where
  dispatchers := ⟨trivial, fun _ => trivial, fun _ _ => ⟨trivial, fun _ _ => trivial⟩⟩
  sub := lets_le_language
  quoted := Value.Within.of_no_ref (fun _ h => h.1) (fun _ => trivial) fun _ => trivial

/-- **The program as it is evaluated is within its language**: if classes are replaced, it has none. -/
theorem within_language {text : String} (hp : ofText text = .ok p) :
    ∀ e ∈ (p.prepared config).forms, e.WithinForm (p.language config) := by
  rw [forms_prepared, List.forall_mem_map]
  intro e he
  have hlets := withinForm_lets hp he
  rw [Expr.prepared]
  cases hc : config.classes with
  | objects =>
    have hle : { p.language config with classes := True } ≤ p.language config :=
      ⟨id, id, id, id, id, id, id, fun _ => hc, id, id, id⟩
    exact (hlets.mono lets_le_language).mono hle
  | dispatchers => exact hlets.replaceClasses dispatches_language

end Program

/-! ### Programs that end without a value -/

theorem noValue_iff {es : List Expr} :
    NoValue es ↔ es = [] ∨ ∃ x value, es.getLast? = some (.define x value) := by
  fun_induction NoValue es with
  | case1 => simp
  | case2 x e rest ih =>
    rw [ih]
    cases rest with
    | nil => simp
    | cons e' rest => simp
  | case3 e hdef => simpa using hdef
  | case4 e rest hdef hne ih =>
    rw [ih]
    cases rest with
    | nil => exact absurd rfl hne
    | cons e' rest => simp

theorem Expr.eq_define_of_prepared {config : Config} {e : Expr} {x : String} {value : Expr}
    (h : e.prepared config = .define x value) : ∃ value', e = .define x value' := by
  rw [Expr.prepared] at h
  cases hc : config.classes with
  | objects =>
    rw [hc] at h
    exact ⟨value, h⟩
  | dispatchers =>
    rw [hc] at h
    cases e with
    | define y value' =>
      cases h
      exact ⟨value', rfl⟩
    | _ => cases h

/-- A program as it is evaluated ends without a value only if the program does. -/
theorem Program.noValue_of_prepared {config : Config} {p : Program} (h : NoValue (p.prepared config).forms) :
    NoValue p.forms := by
  rw [Program.forms_prepared] at h
  rcases noValue_iff.1 h with hnil | ⟨x, value, hlast⟩
  · exact noValue_iff.2 (.inl (List.map_eq_nil_iff.1 hnil))
  · rw [List.getLast?_map, Option.map_eq_some_iff] at hlast
    obtain ⟨e, he, hdefine⟩ := hlast
    obtain ⟨value', rfl⟩ := Expr.eq_define_of_prepared hdefine
    exact noValue_iff.2 (.inr ⟨x, value', he⟩)

/-! ### The evaluation of texts -/

/-- How the evaluation of a program that is read may end. -/
theorem Program.ends (config : Config) {text : String} {p : Program} (hp : Program.ofText text = .ok p) (s : Supply) :
    Ends (fun _ => p.language config) config .empty s (evaluateProgram config p s) := by
  rw [evaluateProgram_eq]
  exact evalSequence_ends Program.language_grows config config.maxDepth (Environment.within_empty _)
    (Program.within_language hp) fun hno => .inl (Program.noValue_of_prepared hno)

theorem Program.foreseen_failure {config : Config} {text : String} {p : Program} (hp : Program.ofText text = .ok p)
    {s s' : Supply} {f : Failure} (h : evaluateProgram config p s = .error f s') : f.Foreseen := by
  rw [evaluateProgram_eq] at h
  exact evaluateSequence_foreseen (fun _ hr => hr) config
    (Program.within_prepared Language.spelled_hasDispatchers config (Program.within_ofText hp)) h

/-- The fault of a program that is read is none that the evaluator's own checks report. -/
theorem Program.external_fault {config : Config} {text : String} {p : Program} (hp : Program.ofText text = .ok p)
    {s s' : Supply} {fault : EvalFault} (h : evaluateProgram config p s = .error (.eval fault) s') :
    fault.External := by
  have hends := Program.ends config hp s
  rw [h] at hends
  have hforeseen := Program.foreseen_failure hp h
  cases fault with
  | misplacedDefine => exact hends.2
  | methodNotProcedure | noComparison | remark => exact hforeseen
  | _ => trivial

/-- How the evaluation of a text may fail. -/
structure Failure.OfText (config : Config) (text : String) (f : Failure) : Prop where
  /-- It does not fail for an internal reason. -/
  external : ∀ fault : EvalFault, fault.Internal → f.message ≠ (Failure.eval fault).message
  /-- It lacks a value only if there are no forms or the last one is a definition. -/
  valueless : f.message = (Failure.eval .emptySequence).message →
    ∃ p, Program.ofText text = .ok p ∧ (p.forms = [] ∨ ∃ x value, p.forms.getLast? = some (.define x value))
  /-- Only a `let` is ever unsupported, and only where `let` is refused. -/
  unsupported : f.kind = .unsupported → config.lets = .reject ∧ ∃ p, Program.ofText text = .ok p ∧ p.HasLet
  /-- Where classes are replaced, there is neither an object to send a message to nor a class to instantiate. -/
  classes : config.classes = .dispatchers → f.kind ≠ .unrecognizedMethod ∧ f.kind ≠ .malformedInstance

theorem Failure.ofText_of_parse (config : Config) (text : String) (fault : ParseFault) :
    (Failure.parse fault).OfText config text where
  external fault' _ heq := by
    obtain ⟨_, h, -⟩ := Failure.eval_of_message heq
    cases h
  valueless heq := by
    obtain ⟨_, h, -⟩ := Failure.eval_of_message heq
    cases h
  unsupported := nofun
  classes _ := ⟨nofun, nofun⟩

theorem Program.failure_ofText {config : Config} {text : String} {p : Program} (hp : Program.ofText text = .ok p)
    {s s' : Supply} {f : Failure} (h : evaluateProgram config p s = .error f s') : f.OfText config text := by
  have hends := Program.ends config hp s
  rw [h] at hends
  obtain ⟨-, hpermits⟩ := hends
  constructor
  · intro fault hinternal heq
    obtain ⟨fault', rfl, hmessage⟩ := Failure.eval_of_message heq
    exact EvalFault.message_ne_internal (Program.external_fault hp h) hinternal hmessage
  · intro heq
    obtain ⟨fault', rfl, hmessage⟩ := Failure.eval_of_message heq
    obtain rfl := EvalFault.eq_emptySequence (Program.external_fault hp h) hmessage
    exact ⟨p, hp, noValue_iff.1 (hpermits.resolve_right id)⟩
  · intro hkind
    cases f with
    | unsupported feature => exact ⟨hpermits.2, p, hp, hpermits.1⟩
    | _ => cases hkind
  · intro hc
    cases f with
    | unrecognizedMethod | malformedInstance => exact absurd hpermits (Program.not_classes_language hc)
    | _ => exact ⟨nofun, nofun⟩

/-- **Internal checks never fail for a text**, and the comparison that dispatchers make is registered under its name.
Where classes are replaced, the values of texts have no class and no object in them, at any depth. -/
theorem text_failures (config : Config) (text : String) (s : Supply) :
    (∀ f s', evaluateText config text s = .error f s' → f.OfText config text) ∧
      (config.classes = .dispatchers →
        ∀ v s', evaluateText config text s = .ok v s' → v.Within .classFree) ∧
      Primitive.ofName? "eq?" = some .identical := by
  cases hp : Program.ofText text with
  | error f =>
    obtain ⟨fault, rfl⟩ := Program.ofText_failure hp
    rw [Program.evaluateText_of_error hp]
    refine ⟨fun f s' h => ?_, fun _ => nofun, by decide⟩
    cases h
    exact Failure.ofText_of_parse config text fault
  | ok p =>
    rw [Program.evaluateText_of_ok hp]
    refine ⟨fun f s' h => Program.failure_ofText hp h, fun hc v s' h => ?_, by decide⟩
    have hends := Program.ends config hp s
    rw [h] at hends
    exact Value.Within.mono (Program.language_le_classFree hc) v hends.2

end SubstModel

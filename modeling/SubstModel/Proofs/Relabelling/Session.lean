import SubstModel.Proofs.Language.Grammar
import SubstModel.Proofs.Relabelling.Numbers

/-!
# Sessions — what was evaluated before shows in the numbers of names only

An interpreter that lives on hands out names behind those of the texts before.  A new one evaluates the same text in
step with it: no name in the text is generated, so all generated names that it meets are its own, and they differ by the
count of names that the session had handed out.

* `outcome`, `supplyAfter` — a step without its supply, and the supply behind it, whether it fails or not;
* `Relabelling.behind` — names and references as they are handed out behind a supply;
* `Renumbered` — one outcome behind a supply and behind none, with as many names handed out;
* `follows_evaluateText` — a text is evaluated alike by interpreters that have handed out different names;
* `session_independent` — **every text of a session comes to what a new interpreter makes of it, up to the numbers**.
-/

namespace SubstModel

/-! ### Sessions text by text -/

/-- What a step comes to. -/
def outcome {α : Type} : EStateM.Result Failure Supply α → Outcome α
  | .ok a _ => .ok a
  | .error f _ => .error f

/-- The supply behind a step, whether it fails or not. -/
def supplyAfter {α : Type} : EStateM.Result Failure Supply α → Supply
  | .ok _ s => s
  | .error _ s => s

theorem evaluateTexts_cons (config : Config) (text : String) (texts : List String) (s : Supply) :
    evaluateTexts config (text :: texts) s =
      (outcome (evaluateText config text s) ::
          (evaluateTexts config texts (supplyAfter (evaluateText config text s))).1,
        (evaluateTexts config texts (supplyAfter (evaluateText config text s))).2) := by
  rw [evaluateTexts]
  cases evaluateText config text s <;> rfl

/-- The outcome of a text in a session depends on the texts before it through the supply that they leave. -/
theorem outcome_in_session (config : Config) (earlier later : List String) (text : String) (s : Supply) :
    (evaluateTexts config (earlier ++ text :: later) s).1[earlier.length]?
      = some (outcome (evaluateText config text (evaluateTexts config earlier s).2)) := by
  induction earlier generalizing s with
  | nil =>
    rw [List.nil_append, evaluateTexts_cons]
    rfl
  | cons first earlier ih =>
    rw [List.cons_append, evaluateTexts_cons, evaluateTexts_cons, List.length_cons, List.getElem?_cons_succ]
    exact ih _

/-! ### Names behind a supply -/

namespace Relabelling

/-- The names and references of an interpreter that had handed out nothing, as they are behind the supply: the generated
name with the number `j` becomes the one with the number `j + s.issued`. -/
def behind (s : Supply) : Relabelling :=
  ofNumbers (add_left_injective s.issued) (add_left_injective s.allocated)

theorem name_behind (s : Supply) (n : Nat) (x : String) :
    (behind s).name (freshName n x) = freshName (n + s.issued) x := by
  rw [behind, name_ofNumbers, renumber_freshName]

/-- What can be spelled has no generated name and no reference. -/
theorem fixes_spelled (s : Supply) : (behind s).Fixes .spelled where
  name {x} hx := by
    refine (behind s).name_written x fun n hn => ?_
    obtain ⟨base, rfl⟩ := hn
    exact hx (hash_mem_freshName n base)
  ref h := h.elim

theorem carries_behind (s : Supply) : (behind s).Carries { } s where
  names count := by
    refine shifts_ofNumbers _ _ fun i _ => ?_
    show 0 + i + 1 + s.issued = s.issued + i + 1
    omega
  refs i := by
    show 0 + i + s.allocated = s.allocated + i
    rw [Nat.zero_add, Nat.add_comm]

/-- Supplies that correspond are as far apart as at the start. -/
theorem Carries.issued {s t t' : Supply} (h : (behind s).Carries t t') : t'.issued = s.issued + t.issued := by
  have hnext := h.names 1 0 "" (Nat.succ_pos 0)
  rw [name_behind, freshName_eq_iff] at hnext
  omega

end Relabelling

/-! ### One text -/

theorem Expr.WithinForm.relabel {ρ : Relabelling} {L : Language} (hρ : ρ.Fixes L) {e : Expr}
    (h : e.WithinForm L) : e.relabel ρ = e := by
  cases e with
  | define x value => rw [Expr.relabel, hρ.name h.1, Expr.relabel_of_within hρ value h.2]
  | _ =>
    have hexpr : Expr.Within L [] _ := h
    exact Expr.relabel_of_within hρ _ hexpr

/-- The forms of a text, as they are evaluated, have no name and no reference that could change. -/
theorem Program.relabel_prepared {ρ : Relabelling} (hρ : ρ.Fixes .spelled) (config : Config) {text : String}
    {p : Program} (hp : Program.ofText text = .ok p) :
    Expr.relabelAll ρ (p.prepared config).forms = (p.prepared config).forms := by
  have hforms := Program.within_prepared Language.spelled_hasDispatchers config (Program.within_ofText hp)
  have hmap : (p.prepared config).forms.map (Expr.relabel ρ) = (p.prepared config).forms.map id :=
    List.map_congr_left fun e he => (hforms e he).relabel hρ
  rw [Expr.relabelAll_eq_map, hmap, List.map_id]

/-- **A text is evaluated alike by interpreters that have handed out different names and references.** -/
theorem follows_evaluateText (config : Config) {ρ : Relabelling} (hρ : ρ.Fixes .spelled) (text : String) :
    Follows config False ρ (Value.relabel ρ) (evaluateText config text) (evaluateText config text) := by
  rw [evaluateText]
  cases hp : Program.ofText text with
  | error f => exact Follows.throw rfl
  | ok p =>
    have hcut : config.maxDepth < config.maxDepth → False := Nat.lt_irrefl _
    have hforms := (follows_eval config ρ (Nat.le_refl config.maxDepth) hcut).2 .empty (p.prepared config).forms
    rw [Program.relabel_prepared hρ config hp] at hforms
    show Follows config False ρ (Value.relabel ρ) (evaluateProgram config p) (evaluateProgram config p)
    rw [evaluateProgram_eq]
    exact hforms

/-! ### Sessions -/

/-- One outcome behind no supply and behind `s`: values that differ in numbers and references, or failures of one kind,
with as many names handed out on the way. -/
inductive Renumbered (s : Supply) :
    EStateM.Result Failure Supply Value → EStateM.Result Failure Supply Value → Prop
  | ok {v : Value} {t t' : Supply} (issued : t'.issued = s.issued + t.issued) :
    Renumbered s (.ok v t) (.ok (v.relabel (.behind s)) t')
  | error {f f' : Failure} {t t' : Supply} (kind : f.kind = f'.kind) (issued : t'.issued = s.issued + t.issued) :
    Renumbered s (.error f t) (.error f' t')

theorem Alike.renumbered {s : Supply} {r r' : EStateM.Result Failure Supply Value}
    (h : Alike (.behind s) (Value.relabel (.behind s)) r r') : Renumbered s r r' := by
  cases r with
  | ok v t => cases r' with
    | ok w t' =>
      obtain ⟨rfl, hcarries⟩ := h
      exact .ok hcarries.issued
    | error f t' => exact absurd h id
  | error f t => cases r' with
    | ok w t' => exact absurd h id
    | error f' t' => exact .error h.1 h.2.issued

/-- **Sessions do not show.**  A text of a session, whatever was evaluated before it and whether that failed, comes to
what a new interpreter makes of it: to the same value with the number of every generated name raised by the count of the
names handed out before, or to a failure of one kind; and it hands out as many names. -/
theorem session_independent (config : Config) (earlier later : List String) (text : String) (s : Supply) :
    let before := (evaluateTexts config earlier s).2
    (evaluateTexts config (earlier ++ text :: later) s).1[earlier.length]?
        = some (outcome (evaluateText config text before)) ∧
      Renumbered before (evaluateText config text { }) (evaluateText config text before) := by
  intro before
  refine ⟨outcome_in_session config earlier later text s, ?_⟩
  have hfollows := follows_evaluateText config (Relabelling.fixes_spelled before) text
  rcases hfollows { } before (Relabelling.carries_behind before) with ⟨hcut, -⟩ | halike
  · exact hcut.elim
  · exact halike.renumbered

example : (evaluateTexts { } ["((lambda (x) (lambda (y) x)) #t)", "((lambda (x) (lambda (y) x)) #t)"] { }).1
    = [.ok (.closure 1 ["y#1"] [.boolean true]), .ok (.closure 3 ["y#2"] [.boolean true])] := by
  cbv

end SubstModel

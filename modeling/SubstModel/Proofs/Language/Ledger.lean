import Mathlib.Algebra.Ring.Nat
import SubstModel.Proofs.Binding
import SubstModel.Proofs.Language
import SubstModel.Proofs.Primitive.View
import SubstModel.Proofs.Trace

/-!
# Ledgers within a growing language — what a traced step may do

The language that an evaluation is within may depend on the supply: what has just been handed out belongs to it from
then on.  A step that keeps to such a language hands out names by renamings only, each of parts that are within the
language of its time, and when it fails, then for a reason that the language admits.

* `Language.Grows` — a language for every supply, which has all that was handed out;
* `Language.Permits` — the failures that an evaluation within a language can end in;
* `Call.Within` — a renaming of parts that are within a language;
* `Ledger.Extends` — what a step may do to a ledger;
* `Keeps` — a traced step that extends its ledger so and ends well, with a lemma for each way to combine steps.
-/

namespace SubstModel

/-! ### Supplies and languages -/

instance : LE Supply := ⟨fun s t => s.issued ≤ t.issued ∧ s.allocated ≤ t.allocated⟩

namespace Supply

theorem le_refl (s : Supply) : s ≤ s :=
  ⟨Nat.le_refl _, Nat.le_refl _⟩

theorem le_trans {s t u : Supply} (hst : s ≤ t) (htu : t ≤ u) : s ≤ u :=
  ⟨Nat.le_trans hst.1 htu.1, Nat.le_trans hst.2 htu.2⟩

end Supply

namespace Language

/-- A language for every supply, to which all that is handed out belongs. -/
structure Grows (L : Supply → Language) : Prop where
  mono : ∀ {s t}, s ≤ t → L s ≤ L t
  name : ∀ {s n x}, n ≤ s.issued → (L s).name (freshName n x)
  binders : ∀ {s n xs}, (L s).binders (freshNames n xs)
  ref : ∀ {s r}, r < s.allocated → (L s).ref r

/-- The failures that may end an evaluation within the language.  Those that have nothing to do with what the language
leaves out always may. -/
def Permits (L : Language) (config : Config) (env : Environment) : Failure → Prop
  | .unboundVariable x => L.free x ∧ env.get? x = none
  | .eval (.misplacedDefine _) => L.definitions
  | .eval .emptySequence => L.emptyBodies ∨ L.definitions
  | .unsupported _ => L.lets ∧ config.lets = .reject
  | .unrecognizedMethod _ => L.classes
  | .malformedInstance _ => L.classes
  | _ => True

theorem Permits.ofPrimitive {L : Language} {config : Config} {env : Environment} {f : Failure}
    (h : f.IsOfPrimitive) : L.Permits config env f := by
  cases f with
  | type | arity => trivial
  | eval fault =>
    cases fault with
    | divisionByZero | carOfEmpty | cdrOfEmpty => trivial
    | _ => exact absurd h id
  | _ => exact absurd h id

/-- A failure in an environment with one more definition is one without it. -/
theorem Permits.of_extend {L : Language} {config : Config} {env : Environment} {f : Failure}
    {x : String} {v : Value} (h : L.Permits config (env.extend x v) f) : L.Permits config env f := by
  cases f with
  | unboundVariable y =>
    obtain ⟨hfree, hnone⟩ := h
    refine ⟨hfree, ?_⟩
    by_cases hxy : y = x
    · subst hxy
      rw [Environment.get?_extend_self] at hnone
      cases hnone
    · rwa [Environment.get?_extend_of_ne env v hxy] at hnone
  | eval fault => cases fault <;> exact h
  | _ => exact h

end Language

/-- The names that are defined and their values are within the language. -/
def Environment.Within (L : Language) (env : Environment) : Prop :=
  ∀ b ∈ env.bindings, L.name b.1 ∧ b.2.Within L

theorem Environment.within_empty (L : Language) : Environment.empty.Within L :=
  fun _ hb => absurd hb List.not_mem_nil

theorem Environment.Within.mono {L M : Language} (h : L ≤ M) {env : Environment}
    (henv : env.Within L) : env.Within M :=
  fun b hb => ⟨h.name (henv b hb).1, Value.Within.mono h _ (henv b hb).2⟩

theorem Environment.Within.extend {L : Language} {env : Environment} (h : env.Within L) {x : String}
    {v : Value} (hx : L.name x) (hv : v.Within L) : (env.extend x v).Within L :=
  List.forall_mem_cons.2 ⟨⟨hx, hv⟩, h⟩

theorem Environment.Within.get? {L : Language} {env : Environment} (h : env.Within L) {x : String}
    {v : Value} (hv : env.get? x = some v) : v.Within L :=
  (h _ (mem_of_lookup_eq_some hv)).2

/-! ### Ledgers -/

/-- What is renamed, and for which names and arguments and in which environment, is within the language. -/
structure Call.Within (L : Language) (c : Call) : Prop where
  arity : c.binders.length = c.args.length
  binders : L.Binds c.binders
  exprs : Expr.WithinAll L c.binders.reverse c.exprs
  args : ∀ v ∈ c.args, v.Within L
  env : c.env.Within L

/-- The second ledger comes after the first.  It has more notes, each of a renaming or a lookup within the language of
its time, and the renamings account for all names that were handed out in between. -/
structure Ledger.Extends (L : Supply → Language) (l l' : Ledger) : Prop where
  supply : l.supply ≤ l'.supply
  reads : ∃ new, l'.reads = new ++ l.reads ∧ ∀ r ∈ new, (L r.1).free r.2
  calls : ∃ new, l'.calls = new ++ l.calls ∧ (∀ c ∈ new, c.Within (L c.supply)) ∧
    l'.supply.issued = l.supply.issued + (new.map Call.count).sum

namespace Ledger.Extends

variable {L : Supply → Language} {l l' l'' : Ledger}

theorem refl (l : Ledger) : l.Extends L l :=
  ⟨l.supply.le_refl, ⟨[], rfl, by simp⟩, [], rfl, by simp, by simp⟩

theorem trans (h : l.Extends L l') (h' : l'.Extends L l'') : l.Extends L l'' := by
  obtain ⟨new, hcalls, hnew, hissued⟩ := h.calls
  obtain ⟨new', hcalls', hnew', hissued'⟩ := h'.calls
  obtain ⟨reads, hreads, hfree⟩ := h.reads
  obtain ⟨reads', hreads', hfree'⟩ := h'.reads
  refine ⟨Supply.le_trans h.supply h'.supply, ⟨reads' ++ reads, ?_, ?_⟩, new' ++ new, ?_, ?_, ?_⟩
  · rw [hreads', hreads, List.append_assoc]
  · exact List.forall_mem_append.2 ⟨hfree', hfree⟩
  · rw [hcalls', hcalls, List.append_assoc]
  · intro c hc
    exact (List.mem_append.1 hc).elim (hnew' c) (hnew c)
  · rw [hissued', hissued, List.map_append, List.sum_append]
    omega

end Ledger.Extends

/-! ### Steps -/

/-- From the ledger `l`, the step extends the ledger and ends with a value that satisfies `Q`, or with a failure that
satisfies `E`. -/
def Keeps {α : Type} (L : Supply → Language) (E : Supply → Failure → Prop) (l : Ledger)
    (t : Traced α) (Q : Supply → α → Prop) : Prop :=
  match t l with
  | .ok a l' => l.Extends L l' ∧ Q l'.supply a
  | .error f l' => l.Extends L l' ∧ E l'.supply f

namespace Keeps

variable {α β : Type} {L : Supply → Language} {E : Supply → Failure → Prop} {l : Ledger}

theorem pure {Q : Supply → α → Prop} {a : α} (h : Q l.supply a) :
    Keeps L E l (Pure.pure a : Traced α) Q :=
  ⟨.refl l, h⟩

theorem throw {Q : Supply → α → Prop} {f : Failure} (h : E l.supply f) :
    Keeps L E l (throwThe Failure f : Traced α) Q :=
  ⟨.refl l, h⟩

theorem bind {t : Traced α} {next : α → Traced β} {Q : Supply → α → Prop} {Q' : Supply → β → Prop}
    (ht : Keeps L E l t Q)
    (hnext : ∀ a l', l.Extends L l' → Q l'.supply a → Keeps L E l' (next a) Q') :
    Keeps L E l (t >>= next) Q' := by
  show match EStateM.bind t next l with
    | .ok a l' => l.Extends L l' ∧ Q' l'.supply a
    | .error f l' => l.Extends L l' ∧ E l'.supply f
  rw [Keeps] at ht
  rw [EStateM.bind]
  cases htl : t l with
  | error f l' =>
    rw [htl] at ht
    exact ht
  | ok a l' =>
    rw [htl] at ht
    have hn := hnext a l' ht.1 ht.2
    rw [Keeps] at hn
    show match next a l' with
      | .ok a l' => l.Extends L l' ∧ Q' l'.supply a
      | .error f l' => l.Extends L l' ∧ E l'.supply f
    cases hnl : next a l' with
    | ok b l'' =>
      rw [hnl] at hn
      exact ⟨ht.1.trans hn.1, hn.2⟩
    | error f l'' =>
      rw [hnl] at hn
      exact ⟨ht.1.trans hn.1, hn.2⟩

theorem extends_ledgerAfter {t : Traced α} {Q : Supply → α → Prop} (h : Keeps L E l t Q) :
    l.Extends L (ledgerAfter (t l)) := by
  rw [Keeps] at h
  cases htl : t l with
  | ok a l' => rw [htl] at h; exact h.1
  | error f l' => rw [htl] at h; exact h.1

theorem imp {E' : Supply → Failure → Prop} {t : Traced α} {Q Q' : Supply → α → Prop}
    (h : Keeps L E l t Q) (hQ : ∀ s a, Q s a → Q' s a) (hE : ∀ s f, E s f → E' s f) :
    Keeps L E' l t Q' := by
  rw [Keeps] at h ⊢
  cases htl : t l with
  | ok a l' => rw [htl] at h; exact ⟨h.1, hQ _ _ h.2⟩
  | error f l' => rw [htl] at h; exact ⟨h.1, hE _ _ h.2⟩

theorem ofOutcome {Q : Supply → α → Prop} {r : Outcome α} (hok : ∀ a, r = .ok a → Q l.supply a)
    (herror : ∀ f, r = .error f → E l.supply f) :
    Keeps L E l (Traced.ofRun (Run.ofOutcome r)) Q := by
  cases r with
  | ok a => exact ⟨.refl l, hok a rfl⟩
  | error f => exact ⟨.refl l, herror f rfl⟩

theorem newRef : Keeps L E l (Traced.ofRun Run.newRef) fun s r => r < s.allocated :=
  ⟨⟨⟨Nat.le_refl _, Nat.le_succ _⟩, ⟨[], rfl, by simp⟩, [], rfl, by simp, by rfl⟩, Nat.lt_succ_self _⟩

theorem renamed {env : Environment} {binders : List String} {args : List Value} {es : List Expr}
    (h : Call.Within (L l.supply) ⟨l.supply, binders, es, args, env⟩) :
    Keeps L E l (Traced.renamed env binders args es) fun s es' =>
      es' = rename l.supply.issued es ∧ s.issued = issuedAfter l.supply.issued es ∧
        l.supply ≤ s := by
  have hle : l.supply ≤ { l.supply with issued := issuedAfter l.supply.issued es } :=
    ⟨Nat.le_add_right _ _, Nat.le_refl _⟩
  refine ⟨⟨hle, ⟨[], rfl, by simp⟩, [⟨l.supply, binders, es, args, env⟩], rfl, ?_, ?_⟩, rfl, rfl, hle⟩
  · intro c hc
    rw [List.mem_singleton.1 hc]
    exact h
  · show issuedAfter l.supply.issued es = _
    simp [issuedAfter, Call.count]

theorem lookup {env : Environment} (henv : env.Within (L l.supply)) {x : String}
    (hx : (L l.supply).free x) {config : Config} :
    Keeps L (fun s f => (L s).Permits config env f) l (Traced.lookup env x) fun s v => v.Within (L s) := by
  have hextends : l.Extends L { l with reads := (l.supply, x) :: l.reads } :=
    ⟨l.supply.le_refl, ⟨[(l.supply, x)], rfl, by simpa using hx⟩, [], rfl, by simp, by simp⟩
  cases hv : env.get? x with
  | some v =>
    have hlookup : env.lookup x = .ok v := by rw [Environment.lookup, hv]
    rw [Traced.lookup, hlookup]
    exact ⟨hextends, henv.get? hv⟩
  | none =>
    have hlookup : env.lookup x = .error (.unboundVariable x) := by rw [Environment.lookup, hv]
    rw [Traced.lookup, hlookup]
    exact ⟨hextends, hx, hv⟩

theorem mapM {P : Supply → α → Prop} {Q : Supply → β → Prop} {f : α → Traced β}
    (hP : ∀ {s t a}, s ≤ t → P s a → P t a) (hQ : ∀ {s t b}, s ≤ t → Q s b → Q t b)
    (hf : ∀ a l, P l.supply a → Keeps L E l (f a) Q) (as : List α) (l : Ledger)
    (has : ∀ a ∈ as, P l.supply a) : Keeps L E l (as.mapM f) fun s bs => ∀ b ∈ bs, Q s b := by
  induction as generalizing l with
  | nil =>
    rw [List.mapM_nil]
    exact pure (fun b hb => absurd hb List.not_mem_nil)
  | cons a as ih =>
    rw [List.mapM_cons]
    refine (hf a l (has a List.mem_cons_self)).bind fun b l' hl hb => ?_
    have has' : ∀ a' ∈ as, P l'.supply a' := fun a' ha' =>
      hP hl.supply (has a' (List.mem_cons_of_mem a ha'))
    refine (ih l' has').bind fun bs l'' hl' hbs => pure ?_
    exact List.forall_mem_cons.2 ⟨hQ hl'.supply hb, hbs⟩

end Keeps

end SubstModel

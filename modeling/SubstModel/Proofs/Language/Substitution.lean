import SubstModel.Dispatcher
import SubstModel.Proofs.Binding
import SubstModel.Proofs.GeneratedName
import SubstModel.Proofs.Language

/-!
# Renaming, substitution and dispatchers within a language

What the evaluator does to expressions before it evaluates them brings in no parts but generated names, the arguments,
and the comparisons of dispatchers.

* `Expr.Within.rename` — renaming, into a language that has the generated names;
* `Expr.Within.substitute` — substitution of expressions that stand under no binder;
* `within_substitute_rename` — **the two together: the body of a procedure, ready to be evaluated**;
* `Expr.Within.letApplication` — a `let` as an application;
* `Expr.Within.replaceClasses` — dispatchers in place of classes, and `Expr.withoutClasses_of_within`, where there are
  none.
-/

namespace SubstModel

/-! ### Names of methods -/

/-- What renaming, substitution and the replacement of classes do to methods leaves their names alone. -/
theorem forall_fst_of_map_eq {P : String → Prop} {bs bs' : List (String × Expr)}
    (hnames : bs'.map Prod.fst = bs.map Prod.fst) (h : ∀ b ∈ bs, P b.1) : ∀ b ∈ bs', P b.1 := by
  have hall : ∀ x ∈ bs'.map Prod.fst, P x := by
    rw [hnames]
    exact List.forall_mem_map.2 h
  exact List.forall_mem_map.1 hall

/-! ### Renaming -/

/-- The language has the names that are handed out while `issued` grows by `count`. -/
structure Language.HasFresh (M : Language) (issued count : Nat) : Prop where
  name : ∀ {n x}, issued < n → n ≤ issued + count → M.name (freshName n x)
  binders : ∀ {n xs}, M.binders (freshNames n xs)

namespace Language.HasFresh

variable {M : Language} {issued count : Nat}

theorem part (h : M.HasFresh issued count) (offset : Nat) {count' : Nat} (hc : offset + count' ≤ count) :
    M.HasFresh (issued + offset) count' :=
  ⟨fun hlo hhi => h.name (by omega) (by omega), h.binders⟩

theorem binds (h : M.HasFresh issued count) (offset : Nat) (xs : List String)
    (hc : offset + xs.length ≤ count) : M.Binds (freshNames (issued + offset) xs) := by
  refine ⟨h.binders, fun y hy => ?_⟩
  obtain ⟨n, hlo, hhi, x, -, rfl⟩ := mem_freshNames hy
  exact h.name (by omega) (by omega)

end Language.HasFresh

/-- The names that stand for others are of the language. -/
def Scope.Renames (Γ : Scope) (M : Language) : Prop :=
  ∀ y ∈ Γ.map Prod.snd, M.name y

theorem Scope.Renames.enter {Γ : Scope} {M : Language} (hΓ : Γ.Renames M) {binders : List String}
    {issued : Nat} (h : M.Binds (freshNames issued binders)) :
    (Γ.enter binders (freshNames issued binders)).Renames M := by
  intro y hy
  rw [Scope.map_snd_enter _ (length_freshNames issued binders), List.mem_append,
    List.mem_reverse] at hy
  exact hy.elim (h.2 y) (hΓ y)

theorem Expr.renameAll_eq_nil {issued : Nat} {Γ : Scope} {es : List Expr}
    (h : Expr.renameAll issued Γ es = []) : es = [] := by
  cases es with
  | nil => rfl
  | cons e es => simp [Expr.renameAll] at h

theorem Expr.map_fst_renamePairs (issued : Nat) (Γ : Scope) (bs : List (String × Expr)) :
    (Expr.renamePairs issued Γ bs).map Prod.fst = bs.map Prod.fst := by
  induction bs generalizing issued with
  | nil => rfl
  | cons b bs ih => rw [Expr.renamePairs, List.map_cons, ih, List.map_cons]

theorem Expr.length_renamePairs (issued : Nat) (Γ : Scope) (bs : List (String × Expr)) :
    (Expr.renamePairs issued Γ bs).length = bs.length := by
  rw [← List.length_map Prod.fst, Expr.map_fst_renamePairs, List.length_map]

mutual

theorem Expr.Within.rename {L M : Language} (hLM : L ≤ M) {outer : List String} :
    ∀ (e : Expr) {issued : Nat} {Γ : Scope}, M.HasFresh issued e.binderCount → Γ.Renames M →
      e.Within L (Γ.map Prod.fst ++ outer) →
      (e.rename issued Γ).Within M (Γ.map Prod.snd ++ outer)
  | .number _, _, _, _, _, _ | .boolean _, _, _, _, _, _ | .string _, _, _, _, _, _ => trivial
  | .primitive _, _, _, _, _, hp => hLM.primitive hp
  | .var x, _, Γ, _, hΓ, ⟨hx, hf⟩ => by
    by_cases hb : x ∈ Γ.map Prod.fst
    · exact ⟨hΓ _ (Scope.resolve_mem hb), .inl (List.mem_append_left _ (Scope.resolve_mem hb))⟩
    · show M.name (Γ.resolve x) ∧ (Γ.resolve x ∈ Γ.map Prod.snd ++ outer ∨ M.free (Γ.resolve x))
      rw [Scope.resolve_of_not_mem hb]
      refine ⟨hLM.name hx, hf.imp (fun hm => ?_) hLM.free⟩
      exact List.mem_append_right _ ((List.mem_append.1 hm).resolve_left hb)
  | .cond a b c, issued, Γ, hM, hΓ, ⟨ha, hb, hc⟩ => by
    simp only [Expr.binderCount] at hM
    refine ⟨Expr.Within.rename hLM a (hM.part 0 (by omega)) hΓ ha,
      Expr.Within.rename hLM b (hM.part a.binderCount (by omega)) hΓ hb, ?_⟩
    rw [Nat.add_assoc]
    exact Expr.Within.rename hLM c (hM.part (a.binderCount + b.binderCount) (by omega)) hΓ hc
  | .lambda params body, issued, Γ, hM, hΓ, ⟨hp, hn, hb⟩ => by
    simp only [Expr.binderCount] at hM
    have hbinds := hM.binds 0 params (by omega)
    refine ⟨hbinds, fun hnil => hLM.emptyBodies (hn (Expr.renameAll_eq_nil hnil)), ?_⟩
    have hlen := length_freshNames issued params
    rw [← List.append_assoc, ← Scope.map_fst_enter Γ hlen] at hb
    rw [← List.append_assoc, ← Scope.map_snd_enter Γ hlen]
    exact Expr.Within.renameAll hLM body (hM.part params.length (by omega)) (hΓ.enter hbinds) hb
  | .app f es, issued, Γ, hM, hΓ, ⟨hf, hes⟩ => by
    simp only [Expr.binderCount] at hM
    exact ⟨Expr.Within.rename hLM f (hM.part 0 (by omega)) hΓ hf,
      Expr.Within.renameAll hLM es (hM.part f.binderCount (by omega)) hΓ hes⟩
  | .letIn bs body, issued, Γ, hM, hΓ, ⟨hl, hp, hn, hbs, hb⟩ => by
    simp only [Expr.binderCount] at hM
    have hbinds := hM.binds (Expr.binderCountPairs bs) (bs.map Prod.fst)
      (by rw [List.length_map]; omega)
    have hlen := length_freshNames (issued + Expr.binderCountPairs bs) (bs.map Prod.fst)
    have hfst : ((freshNames (issued + Expr.binderCountPairs bs) (bs.map Prod.fst)).zip
        ((Expr.renamePairs issued Γ bs).map Prod.snd)).map Prod.fst
        = freshNames (issued + Expr.binderCountPairs bs) (bs.map Prod.fst) := by
      refine List.map_fst_zip (Nat.le_of_eq ?_)
      rw [hlen, List.length_map, List.length_map, Expr.length_renamePairs]
    have hvalues := Expr.withinPairs_iff.1
      (Expr.Within.renamePairs hLM bs (hM.part 0 (by omega)) hΓ hbs)
    show M.lets ∧ M.Binds _ ∧ M.HasBody _ ∧ Expr.WithinPairs M _ _ ∧ Expr.WithinAll M _ _
    rw [hfst]
    refine ⟨hLM.lets hl, hbinds, fun hnil => hLM.emptyBodies (hn (Expr.renameAll_eq_nil hnil)),
      Expr.withinPairs_iff.2 fun b hmem => ?_, ?_⟩
    · obtain ⟨b', hb', heq⟩ := List.mem_map.1 (List.of_mem_zip hmem).2
      rw [← heq]
      exact hvalues b' hb'
    · rw [← List.append_assoc, ← Scope.map_fst_enter Γ hlen] at hb
      rw [← List.append_assoc, ← Scope.map_snd_enter Γ hlen, List.length_map, Nat.add_assoc]
      exact Expr.Within.renameAll hLM body
        (hM.part (Expr.binderCountPairs bs + bs.length) (by omega)) (hΓ.enter hbinds) hb
  | .quoted v, _, _, _, _, hv => Value.Within.mono hLM v hv
  | .define _ e, issued, Γ, hM, hΓ, ⟨hd, hx, he⟩ =>
    ⟨hLM.definitions hd, hLM.name hx, Expr.Within.rename hLM e hM hΓ he⟩
  | .classDef fields methods, issued, Γ, hM, hΓ, ⟨hc, hf, hl, hm⟩ => by
    simp only [Expr.binderCount] at hM
    have hbinds := hM.binds 0 fields (by omega)
    have hlen := length_freshNames issued fields
    have hlabels : ∀ m ∈ methods, M.label m.1 := fun m hmem => hLM.label (hl m hmem)
    refine ⟨hLM.classes hc, hbinds, forall_fst_of_map_eq (Expr.map_fst_renamePairs _ _ methods) hlabels, ?_⟩
    rw [← List.append_assoc, ← Scope.map_fst_enter Γ hlen] at hm
    rw [← List.append_assoc, ← Scope.map_snd_enter Γ hlen]
    exact Expr.Within.renamePairs hLM methods (hM.part fields.length (by omega)) (hΓ.enter hbinds) hm
termination_by structural e => e

theorem Expr.Within.renameAll {L M : Language} (hLM : L ≤ M) {outer : List String} :
    ∀ (es : List Expr) {issued : Nat} {Γ : Scope}, M.HasFresh issued (Expr.binderCountAll es) →
      Γ.Renames M → Expr.WithinAll L (Γ.map Prod.fst ++ outer) es →
      Expr.WithinAll M (Γ.map Prod.snd ++ outer) (Expr.renameAll issued Γ es)
  | [], _, _, _, _, _ => trivial
  | e :: es, issued, Γ, hM, hΓ, ⟨he, hes⟩ => by
    simp only [Expr.binderCountAll] at hM
    exact ⟨Expr.Within.rename hLM e (hM.part 0 (by omega)) hΓ he,
      Expr.Within.renameAll hLM es (hM.part e.binderCount (by omega)) hΓ hes⟩
termination_by structural es => es

theorem Expr.Within.renamePairs {L M : Language} (hLM : L ≤ M) {outer : List String} :
    ∀ (bs : List (String × Expr)) {issued : Nat} {Γ : Scope},
      M.HasFresh issued (Expr.binderCountPairs bs) → Γ.Renames M →
      Expr.WithinPairs L (Γ.map Prod.fst ++ outer) bs →
      Expr.WithinPairs M (Γ.map Prod.snd ++ outer) (Expr.renamePairs issued Γ bs)
  | [], _, _, _, _, _ => trivial
  | (_, e) :: bs, issued, Γ, hM, hΓ, ⟨he, hbs⟩ => by
    simp only [Expr.binderCountPairs] at hM
    exact ⟨Expr.Within.rename hLM e (hM.part 0 (by omega)) hΓ he,
      Expr.Within.renamePairs hLM bs (hM.part e.binderCount (by omega)) hΓ hbs⟩
termination_by structural bs => bs

end

/-! ### Substitution -/

/-- What is put in for variables is of the language, and nothing binds around it. -/
def Substitution.Within (σ : Substitution) (L : Language) : Prop :=
  ∀ {x r}, σ.lookup x = some r → r.Within L []

/-- The names of the first scope that are not of the second have replacements. -/
def Substitution.Covers (σ : Substitution) (scope scope' : List String) : Prop :=
  ∀ x ∈ scope, x ∈ scope' ∨ (σ.lookup x).isSome

theorem Substitution.Within.without {σ : Substitution} {L : Language} (h : σ.Within L)
    (binders : List String) : (σ.without binders).Within L := by
  intro x r hr
  rw [Substitution.lookup_without] at hr
  split at hr
  · cases hr
  · exact h hr

theorem Substitution.Covers.without {σ : Substitution} {scope scope' : List String}
    (h : σ.Covers scope scope') (binders : List String) :
    (σ.without binders).Covers (binders.reverse ++ scope) (binders.reverse ++ scope') := by
  intro x hx
  rw [Substitution.lookup_without]
  by_cases hb : x ∈ binders
  · exact .inl (List.mem_append_left _ (List.mem_reverse.2 hb))
  · rw [if_neg hb]
    have hs : x ∈ scope := (List.mem_append.1 hx).resolve_left (by rwa [List.mem_reverse])
    exact (h x hs).imp_left (List.mem_append_right _)

theorem Expr.map_fst_substitutePairs (σ : Substitution) (bs : List (String × Expr)) :
    (Expr.substitutePairs σ bs).map Prod.fst = bs.map Prod.fst := by
  induction bs with
  | nil => rfl
  | cons b bs ih => rw [Expr.substitutePairs, List.map_cons, ih, List.map_cons]

theorem Expr.map_snd_substitutePairs (σ : Substitution) (bs : List (String × Expr)) :
    (Expr.substitutePairs σ bs).map Prod.snd = Expr.substituteAll σ (bs.map Prod.snd) := by
  induction bs with
  | nil => rfl
  | cons b bs ih => rw [Expr.substitutePairs, List.map_cons, ih, List.map_cons, Expr.substituteAll]

theorem Expr.substituteAll_eq_nil {σ : Substitution} {es : List Expr}
    (h : Expr.substituteAll σ es = []) : es = [] := by
  cases es with
  | nil => rfl
  | cons e es => simp [Expr.substituteAll] at h

mutual

theorem Expr.Within.substitute {L : Language} :
    ∀ (e : Expr) {σ : Substitution} {scope scope' : List String}, σ.Within L →
      σ.Covers scope scope' → e.Within L scope → (e.substitute σ).Within L scope'
  | .number _, _, _, _, _, _, _ | .boolean _, _, _, _, _, _, _ | .string _, _, _, _, _, _, _ => trivial
  | .primitive _, _, _, _, _, _, hp => hp
  | .var x, σ, scope, scope', hσ, hc, ⟨hx, hf⟩ => by
    show ((σ.lookup x).getD (.var x)).Within L scope'
    cases hr : σ.lookup x with
    | some r => exact Expr.Within.mono L.le_refl (List.nil_subset _) r (hσ hr)
    | none =>
      refine ⟨hx, hf.imp_left fun hs => (hc x hs).resolve_right ?_⟩
      rw [hr]
      exact Bool.false_ne_true
  | .cond a b c, _, _, _, hσ, hc, ⟨ha, hb, hc'⟩ =>
    ⟨Expr.Within.substitute a hσ hc ha, Expr.Within.substitute b hσ hc hb,
      Expr.Within.substitute c hσ hc hc'⟩
  | .lambda params body, _, _, _, hσ, hc, ⟨hp, hn, hb⟩ =>
    ⟨hp, fun hnil => hn (Expr.substituteAll_eq_nil hnil),
      Expr.Within.substituteAll body (hσ.without params) (hc.without params) hb⟩
  | .app f es, _, _, _, hσ, hc, ⟨hf, hes⟩ =>
    ⟨Expr.Within.substitute f hσ hc hf, Expr.Within.substituteAll es hσ hc hes⟩
  | .letIn bs body, σ, scope, scope', hσ, hc, ⟨hl, hp, hn, hbs, hb⟩ => by
    show L.lets ∧ L.Binds ((Expr.substitutePairs σ bs).map Prod.fst) ∧ L.HasBody _ ∧ _ ∧
      Expr.WithinAll L (((Expr.substitutePairs σ bs).map Prod.fst).reverse ++ scope') _
    rw [Expr.map_fst_substitutePairs]
    exact ⟨hl, hp, fun hnil => hn (Expr.substituteAll_eq_nil hnil),
      Expr.Within.substitutePairs bs hσ hc hbs,
      Expr.Within.substituteAll body (hσ.without _) (hc.without _) hb⟩
  | .quoted _, _, _, _, _, _, hv => hv
  | .define _ e, _, _, _, hσ, hc, ⟨hd, hx, he⟩ => ⟨hd, hx, Expr.Within.substitute e hσ hc he⟩
  | .classDef fields methods, _, _, _, hσ, hc, ⟨hcl, hf, hl, hm⟩ =>
    ⟨hcl, hf, forall_fst_of_map_eq (Expr.map_fst_substitutePairs _ methods) hl,
      Expr.Within.substitutePairs methods (hσ.without fields) (hc.without fields) hm⟩
termination_by structural e => e

theorem Expr.Within.substituteAll {L : Language} :
    ∀ (es : List Expr) {σ : Substitution} {scope scope' : List String}, σ.Within L →
      σ.Covers scope scope' → Expr.WithinAll L scope es →
      Expr.WithinAll L scope' (Expr.substituteAll σ es)
  | [], _, _, _, _, _, _ => trivial
  | e :: es, _, _, _, hσ, hc, ⟨he, hes⟩ =>
    ⟨Expr.Within.substitute e hσ hc he, Expr.Within.substituteAll es hσ hc hes⟩
termination_by structural es => es

theorem Expr.Within.substitutePairs {L : Language} :
    ∀ (bs : List (String × Expr)) {σ : Substitution} {scope scope' : List String}, σ.Within L →
      σ.Covers scope scope' → Expr.WithinPairs L scope bs →
      Expr.WithinPairs L scope' (Expr.substitutePairs σ bs)
  | [], _, _, _, _, _, _ => trivial
  | (_, e) :: bs, _, _, _, hσ, hc, ⟨he, hbs⟩ =>
    ⟨Expr.Within.substitute e hσ hc he, Expr.Within.substitutePairs bs hσ hc hbs⟩
termination_by structural bs => bs

end

/-- **A body made fresh, with arguments put in for the names that bind around it, is of a language that has the fresh
names.** -/
theorem within_substitute_rename {L M : Language} (hLM : L ≤ M) {issued : Nat} {names : List String}
    {body : List Expr} {args : List Value} (hM : M.HasFresh issued (Expr.binderCountAll body))
    (hlen : names.length = args.length) (hargs : ∀ v ∈ args, v.Within L)
    (hbody : Expr.WithinAll L names.reverse body) :
    Expr.WithinAll M [] (substitute names (args.map Value.toExpr) (rename issued body)) := by
  have hfresh : Expr.WithinAll M names.reverse (rename issued body) :=
    Expr.Within.renameAll hLM body (Γ := []) hM (fun y hy => absurd hy List.not_mem_nil) hbody
  refine Expr.Within.substituteAll (rename issued body) ?_ ?_ hfresh
  · intro x r hr
    obtain ⟨v, hv, rfl⟩ := List.mem_map.1 (Substitution.mem_of_lookup_zip hr)
    exact Expr.Within.mono hLM (List.Subset.refl _) _ (hargs v hv).toExpr
  · intro x hx
    right
    rw [Substitution.lookup_zip_isSome (by rw [List.length_map, hlen])]
    exact List.mem_reverse.1 hx

/-! ### Derived forms -/

theorem Expr.Within.letApplication {L : Language} {scope : List String}
    {bindings : List (String × Expr)} {body : List Expr}
    (h : (Expr.letIn bindings body).Within L scope) :
    (letApplication bindings body).Within L scope := by
  obtain ⟨-, hp, hn, hbs, hb⟩ := h
  refine ⟨⟨hp, hn, hb⟩, Expr.withinAll_iff.2 fun e he => ?_⟩
  obtain ⟨b, hmem, rfl⟩ := List.mem_map.1 he
  exact Expr.withinPairs_iff.1 hbs b hmem

theorem Expr.withoutClassesAll_eq_nil {es : List Expr} (h : Expr.withoutClassesAll es = []) :
    es = [] := by
  cases es with
  | nil => rfl
  | cons e es => simp [Expr.withoutClassesAll] at h

theorem Expr.map_fst_withoutClassesPairs (bs : List (String × Expr)) :
    (Expr.withoutClassesPairs bs).map Prod.fst = bs.map Prod.fst := by
  induction bs with
  | nil => rfl
  | cons b bs ih => rw [Expr.withoutClassesPairs, List.map_cons, ih, List.map_cons]

/-- The language has what dispatchers are made of. -/
structure Language.HasDispatchers (L : Language) : Prop where
  identical : L.primitive .identical
  symbol : ∀ {x}, L.label x → L.symbol x
  message : ∀ fields methods, L.Binds [messageName fields methods]

theorem Expr.Within.dispatchChain {L : Language} (hL : L.HasDispatchers) {message : String}
    (hmsg : L.name message) {scope : List String} (hscope : message ∈ scope) :
    ∀ methods : List (String × Expr), (∀ m ∈ methods, L.label m.1) →
      Expr.WithinPairs L scope methods → (dispatchChain .identical message methods).Within L scope
  | [], _, _ => trivial
  | (_, _) :: methods, hl, ⟨hm, hms⟩ =>
    ⟨⟨hL.identical, ⟨hmsg, .inl hscope⟩, hL.symbol (hl _ List.mem_cons_self), trivial⟩, ⟨hm, trivial⟩,
      Expr.Within.dispatchChain hL hmsg hscope methods
        (fun m hm => hl m (List.mem_cons_of_mem _ hm)) hms⟩

theorem Expr.Within.dispatcher {L : Language} (hL : L.HasDispatchers) {scope fields : List String}
    {methods : List (String × Expr)} (hf : L.Binds fields) (hl : ∀ m ∈ methods, L.label m.1)
    (hm : Expr.WithinPairs L (fields.reverse ++ scope) methods) :
    (dispatcher fields methods).Within L scope := by
  have hmsg := hL.message fields methods
  refine ⟨hf, nofun, ⟨hmsg, nofun, ?_, trivial⟩, trivial⟩
  refine Expr.Within.dispatchChain hL (hmsg.2 _ (List.mem_singleton_self _)) (by simp) _ hl ?_
  exact Expr.Within.monoPairs L.le_refl (List.subset_append_right _ _) methods hm

/-- Replacing classes takes one language into another: the second one has dispatchers, it has all that the first one has
but the classes, and what is quoted in the first one is of the second. -/
structure Language.Dispatches (L M : Language) : Prop where
  dispatchers : M.HasDispatchers
  sub : L ≤ { M with classes := True }
  quoted : ∀ v : Value, v.Within L → v.Within M

theorem Language.HasDispatchers.dispatches {L : Language} (hL : L.HasDispatchers) : L.Dispatches L :=
  ⟨hL, ⟨id, id, id, id, id, id, id, fun _ => trivial, id, id, id⟩, fun _ hv => hv⟩

mutual

theorem Expr.Within.replaceClasses {L M : Language} (hLM : L.Dispatches M) :
    ∀ (e : Expr) {scope : List String}, e.Within L scope → e.withoutClasses.Within M scope
  | .number _, _, _ | .boolean _, _, _ | .string _, _, _ => trivial
  | .primitive _, _, hp => hLM.sub.primitive hp
  | .var _, _, ⟨hx, hf⟩ => ⟨hLM.sub.name hx, hf.imp_right hLM.sub.free⟩
  | .quoted v, _, hv => hLM.quoted v hv
  | .cond a b c, _, ⟨ha, hb, hc⟩ =>
    ⟨Expr.Within.replaceClasses hLM a ha, Expr.Within.replaceClasses hLM b hb,
      Expr.Within.replaceClasses hLM c hc⟩
  | .lambda _ body, _, ⟨hp, hn, hb⟩ =>
    ⟨hp.mono hLM.sub, fun hnil => hLM.sub.emptyBodies (hn (Expr.withoutClassesAll_eq_nil hnil)),
      Expr.Within.replaceClassesAll hLM body hb⟩
  | .app f es, _, ⟨hf, hes⟩ =>
    ⟨Expr.Within.replaceClasses hLM f hf, Expr.Within.replaceClassesAll hLM es hes⟩
  | .letIn bs body, scope, ⟨hl, hp, hn, hbs, hb⟩ => by
    show M.lets ∧ M.Binds ((Expr.withoutClassesPairs bs).map Prod.fst) ∧ M.HasBody _ ∧ _ ∧
      Expr.WithinAll M (((Expr.withoutClassesPairs bs).map Prod.fst).reverse ++ scope) _
    rw [Expr.map_fst_withoutClassesPairs]
    exact ⟨hLM.sub.lets hl, hp.mono hLM.sub,
      fun hnil => hLM.sub.emptyBodies (hn (Expr.withoutClassesAll_eq_nil hnil)),
      Expr.Within.replaceClassesPairs hLM bs hbs, Expr.Within.replaceClassesAll hLM body hb⟩
  | .define _ e, _, ⟨hd, hx, he⟩ =>
    ⟨hLM.sub.definitions hd, hLM.sub.name hx, Expr.Within.replaceClasses hLM e he⟩
  | .classDef _ methods, _, ⟨_, hf, hl, hm⟩ => by
    have hlabels : ∀ m ∈ methods, M.label m.1 := fun m hmem => hLM.sub.label (hl m hmem)
    exact Expr.Within.dispatcher hLM.dispatchers (hf.mono hLM.sub)
      (forall_fst_of_map_eq (Expr.map_fst_withoutClassesPairs methods) hlabels)
      (Expr.Within.replaceClassesPairs hLM methods hm)
termination_by structural e => e

theorem Expr.Within.replaceClassesAll {L M : Language} (hLM : L.Dispatches M) :
    ∀ (es : List Expr) {scope : List String}, Expr.WithinAll L scope es →
      Expr.WithinAll M scope (Expr.withoutClassesAll es)
  | [], _, _ => trivial
  | e :: es, _, ⟨he, hes⟩ =>
    ⟨Expr.Within.replaceClasses hLM e he, Expr.Within.replaceClassesAll hLM es hes⟩
termination_by structural es => es

theorem Expr.Within.replaceClassesPairs {L M : Language} (hLM : L.Dispatches M) :
    ∀ (bs : List (String × Expr)) {scope : List String}, Expr.WithinPairs L scope bs →
      Expr.WithinPairs M scope (Expr.withoutClassesPairs bs)
  | [], _, _ => trivial
  | (_, e) :: bs, _, ⟨he, hbs⟩ =>
    ⟨Expr.Within.replaceClasses hLM e he, Expr.Within.replaceClassesPairs hLM bs hbs⟩
termination_by structural bs => bs

end

mutual

/-- Where there is no class, there is nothing to replace. -/
theorem Expr.withoutClasses_of_within {L : Language} (hL : ¬ L.classes) :
    ∀ (e : Expr) {scope : List String}, e.Within L scope → e.withoutClasses = e
  | .number _, _, _ | .boolean _, _, _ | .string _, _, _ | .primitive _, _, _ | .var _, _, _
  | .quoted _, _, _ => rfl
  | .cond a b c, _, ⟨ha, hb, hc⟩ => by
    rw [Expr.withoutClasses, Expr.withoutClasses_of_within hL a ha, Expr.withoutClasses_of_within hL b hb,
      Expr.withoutClasses_of_within hL c hc]
  | .lambda _ body, _, ⟨_, _, hb⟩ => by
    rw [Expr.withoutClasses, Expr.withoutClassesAll_of_within hL body hb]
  | .app f es, _, ⟨hf, hes⟩ => by
    rw [Expr.withoutClasses, Expr.withoutClasses_of_within hL f hf, Expr.withoutClassesAll_of_within hL es hes]
  | .letIn bs body, _, ⟨_, _, _, hbs, hb⟩ => by
    rw [Expr.withoutClasses, Expr.withoutClassesPairs_of_within hL bs hbs,
      Expr.withoutClassesAll_of_within hL body hb]
  | .define _ e, _, ⟨_, _, he⟩ => by rw [Expr.withoutClasses, Expr.withoutClasses_of_within hL e he]
  | .classDef _ _, _, h => absurd h.1 hL
termination_by structural e => e

theorem Expr.withoutClassesAll_of_within {L : Language} (hL : ¬ L.classes) :
    ∀ (es : List Expr) {scope : List String}, Expr.WithinAll L scope es → Expr.withoutClassesAll es = es
  | [], _, _ => rfl
  | e :: es, _, ⟨he, hes⟩ => by
    rw [Expr.withoutClassesAll, Expr.withoutClasses_of_within hL e he, Expr.withoutClassesAll_of_within hL es hes]
termination_by structural es => es

theorem Expr.withoutClassesPairs_of_within {L : Language} (hL : ¬ L.classes) :
    ∀ (bs : List (String × Expr)) {scope : List String}, Expr.WithinPairs L scope bs →
      Expr.withoutClassesPairs bs = bs
  | [], _, _ => rfl
  | (x, e) :: bs, _, ⟨he, hbs⟩ => by
    rw [Expr.withoutClassesPairs, Expr.withoutClasses_of_within hL e he,
      Expr.withoutClassesPairs_of_within hL bs hbs]
termination_by structural bs => bs

end

end SubstModel

import SubstModel.Proofs.Freshness
import SubstModel.Proofs.Nameless

/-!
# Renaming and substitution leave the right terms

* `Expr.nameless_weaken` — binders that bind nothing of an expression do not matter;
* `Expr.nameless_rename` — **renaming changes no term**, if no free variable has the name of a new one;
* `Expr.nameless_substitute` — **where nothing is captured, substitution leaves the term in which the parameters stand
  for the arguments**;
* `nameless_applied` — **the two together: the body of a procedure, ready to be evaluated, leaves the term of the body
  in which the parameters stand for the arguments**.
-/

namespace SubstModel

variable {ι : Type}

/-! ### Binders that bind nothing -/

theorem Term.ofVar_weaken (σ : Standins ι) {inner scope : List String} {x : String}
    (hx : x ∈ inner ∨ x ∉ scope) : Term.ofVar σ (inner ++ scope) x = Term.ofVar σ inner x := by
  by_cases hi : x ∈ inner
  · rw [Term.ofVar_of_mem σ hi, Term.ofVar_of_mem σ (List.mem_append_left scope hi),
      List.idxOf_append_of_mem hi]
  · have hs : x ∉ inner ++ scope := List.not_mem_append hi (hx.resolve_left hi)
    rw [Term.ofVar_of_not_mem σ hi, Term.ofVar_of_not_mem σ hs]

mutual

/-- Binders that bind no free variable of an expression leave its term as it is. -/
theorem Expr.nameless_weaken (g : Ref → ι) (σ : Standins ι) (scope : List String) :
    ∀ (e : Expr) (inner : List String), (∀ x, e.FreeIn x → x ∈ inner ∨ x ∉ scope) →
      e.nameless g σ (inner ++ scope) = e.nameless g σ inner
  | .number _, _, _ | .boolean _, _, _ | .string _, _, _ | .primitive _, _, _ | .quoted _, _, _ => rfl
  | .var x, _, h => Term.ofVar_weaken σ (h x rfl)
  | .cond a b c, inner, h => by
    have ha := Expr.nameless_weaken g σ scope a inner fun x hx => h x (.inl hx)
    have hb := Expr.nameless_weaken g σ scope b inner fun x hx => h x (.inr (.inl hx))
    have hc := Expr.nameless_weaken g σ scope c inner fun x hx => h x (.inr (.inr hx))
    rw [Expr.nameless, ha, hb, hc, Expr.nameless]
  | .lambda params body, inner, h => by
    have hb := Expr.namelessAll_weaken g σ scope body (params.reverse ++ inner)
      fun x hx => free_behind (h x) hx
    rw [Expr.nameless, ← List.append_assoc, hb, Expr.nameless]
  | .app f es, inner, h => by
    have hf := Expr.nameless_weaken g σ scope f inner fun x hx => h x (.inl hx)
    have hes := Expr.namelessAll_weaken g σ scope es inner fun x hx => h x (.inr hx)
    rw [Expr.nameless, hf, hes, Expr.nameless]
  | .letIn bs body, inner, h => by
    have hbs := Expr.namelessPairs_weaken g σ scope bs inner fun x hx => h x (.inl hx)
    have hb := Expr.namelessAll_weaken g σ scope body ((bs.map Prod.fst).reverse ++ inner)
      fun x hx => free_behind (fun hx => h x (.inr hx)) hx
    rw [Expr.nameless, hbs, ← List.append_assoc, hb, Expr.nameless]
  | .define _ e, inner, h => by
    rw [Expr.nameless, Expr.nameless_weaken g σ scope e inner h, Expr.nameless]
  | .classDef fields methods, inner, h => by
    have hm := Expr.namelessPairs_weaken g σ scope methods (fields.reverse ++ inner)
      fun x hx => free_behind (h x) hx
    rw [Expr.nameless, ← List.append_assoc, hm, Expr.nameless]
termination_by structural e => e

theorem Expr.namelessAll_weaken (g : Ref → ι) (σ : Standins ι) (scope : List String) :
    ∀ (es : List Expr) (inner : List String), (∀ x, Expr.FreeInAny x es → x ∈ inner ∨ x ∉ scope) →
      Expr.namelessAll g σ (inner ++ scope) es = Expr.namelessAll g σ inner es
  | [], _, _ => rfl
  | e :: es, inner, h => by
    have he := Expr.nameless_weaken g σ scope e inner fun x hx => h x (.inl hx)
    have hes := Expr.namelessAll_weaken g σ scope es inner fun x hx => h x (.inr hx)
    rw [Expr.namelessAll, he, hes, Expr.namelessAll]
termination_by structural es => es

theorem Expr.namelessPairs_weaken (g : Ref → ι) (σ : Standins ι) (scope : List String) :
    ∀ (bs : List (String × Expr)) (inner : List String),
      (∀ x, Expr.FreeInPairs x bs → x ∈ inner ∨ x ∉ scope) →
      Expr.namelessPairs g σ (inner ++ scope) bs = Expr.namelessPairs g σ inner bs
  | [], _, _ => rfl
  | (_, e) :: bs, inner, h => by
    have he := Expr.nameless_weaken g σ scope e inner fun x hx => h x (.inl hx)
    have hbs := Expr.namelessPairs_weaken g σ scope bs inner fun x hx => h x (.inr hx)
    rw [Expr.namelessPairs, he, hbs, Expr.namelessPairs]
termination_by structural bs => bs

end

/-! ### Renaming -/

/-- The new names of a scope are distinct, generated, and apart from all names with numbers up to `k`. -/
structure Scope.Apart (Γ : Scope) (k issued : Nat) : Prop where
  nodup : (Γ.map Prod.snd).Nodup
  new : ∀ y ∈ Γ.map Prod.snd, ¬ NumberedUpTo k y
  old : ∀ y ∈ Γ.map Prod.snd, NumberedUpTo issued y

namespace Scope

theorem apart_nil (k issued : Nat) : Scope.Apart [] k issued :=
  ⟨List.nodup_nil, fun _ h => absurd h List.not_mem_nil, fun _ h => absurd h List.not_mem_nil⟩

theorem Apart.mono {Γ : Scope} {k issued issued' : Nat} (h : Γ.Apart k issued)
    (hle : issued ≤ issued') : Γ.Apart k issued' :=
  ⟨h.nodup, h.new, fun y hy => (h.old y hy).mono hle⟩

theorem Apart.enter {Γ : Scope} {k issued : Nat} (h : Γ.Apart k issued) (hk : k ≤ issued)
    (binders : List String) :
    (Γ.enter binders (freshNames issued binders)).Apart k (issued + binders.length) := by
  have hsnd := Scope.map_snd_enter Γ (length_freshNames issued binders)
  have hnew : ∀ y ∈ freshNames issued binders,
      ¬ NumberedUpTo issued y ∧ NumberedUpTo (issued + binders.length) y := by
    intro y hy
    obtain ⟨n, hlo, hhi, x, -, rfl⟩ := mem_freshNames hy
    rw [numberedUpTo_freshName, numberedUpTo_freshName]
    omega
  constructor
  · rw [hsnd]
    refine List.nodup_append.2 ⟨List.nodup_reverse.2 (nodup_freshNames issued binders), h.nodup, ?_⟩
    rintro y hy _ hz rfl
    exact (hnew y (List.mem_reverse.1 hy)).1 (h.old y hz)
  · rw [hsnd]
    refine List.forall_mem_append.2 ⟨fun y hy hno => ?_, h.new⟩
    exact (hnew y (List.mem_reverse.1 hy)).1 (hno.mono hk)
  · rw [hsnd]
    refine List.forall_mem_append.2 ⟨fun y hy => (hnew y (List.mem_reverse.1 hy)).2, fun y hy => ?_⟩
    exact (h.old y hy).mono (Nat.le_add_right _ _)

/-- A bound name and its new name stand at the same place. -/
theorem idxOf_resolve {Γ : Scope} (hnodup : (Γ.map Prod.snd).Nodup) {x : String}
    (hx : x ∈ Γ.map Prod.fst) : (Γ.map Prod.snd).idxOf (Γ.resolve x) = (Γ.map Prod.fst).idxOf x := by
  induction Γ with
  | nil => exact absurd hx List.not_mem_nil
  | cons b Γ ih =>
    rw [List.map_cons, List.nodup_cons] at hnodup
    rw [List.map_cons, List.map_cons]
    by_cases hb : x = b.1
    · subst hb
      have hres : Scope.resolve (b :: Γ) b.1 = b.2 := by
        rw [Scope.resolve, List.lookup_cons, beq_self_eq_true]
        rfl
      rw [hres, List.idxOf_cons_self, List.idxOf_cons_self]
    · have hne : (x == b.1) = false := by simpa using hb
      have hres : Scope.resolve (b :: Γ) x = Scope.resolve Γ x := by
        rw [Scope.resolve, List.lookup_cons, hne]
        rfl
      have hx' : x ∈ Γ.map Prod.fst := (List.mem_cons.1 hx).resolve_left hb
      have hne' : b.2 ≠ Scope.resolve Γ x := by
        intro heq
        exact hnodup.1 (heq ▸ Scope.resolve_mem hx')
      rw [hres, List.idxOf_cons_ne _ hne', List.idxOf_cons_ne _ (Ne.symm hb), ih hnodup.2 hx']

theorem Apart.ofVar_resolve {Γ : Scope} {k issued : Nat} (h : Γ.Apart k issued) (σ : Standins ι)
    (outer : List String) {x : String} (hx : x ∈ Γ.map Prod.fst ∨ NumberedUpTo k x) :
    Term.ofVar σ (Γ.map Prod.snd ++ outer) (Γ.resolve x) = Term.ofVar σ (Γ.map Prod.fst ++ outer) x := by
  -- A bound name keeps its place; a free one must not meet a new name, or it would be captured.
  by_cases hb : x ∈ Γ.map Prod.fst
  · have hr := Scope.resolve_mem hb
    rw [Term.ofVar_of_mem σ (List.mem_append_left outer hb),
      Term.ofVar_of_mem σ (List.mem_append_left outer hr), List.idxOf_append_of_mem hb,
      List.idxOf_append_of_mem hr, idxOf_resolve h.nodup hb]
  · have hn : x ∉ Γ.map Prod.snd := fun hmem => h.new x hmem (hx.resolve_left hb)
    rw [Scope.resolve_of_not_mem hb]
    by_cases ho : x ∈ outer
    · rw [Term.ofVar_of_mem σ (List.mem_append_right _ ho), Term.ofVar_of_mem σ (List.mem_append_right _ ho),
        List.idxOf_append_of_notMem hb, List.idxOf_append_of_notMem hn, List.length_map, List.length_map]
    · rw [Term.ofVar_of_not_mem σ (List.not_mem_append hb ho),
        Term.ofVar_of_not_mem σ (List.not_mem_append hn ho)]

end Scope

theorem Expr.namelessPairs_zip (g : Ref → ι) (σ : Standins ι) (scope : List String) {names : List String}
    {bs : List (String × Expr)} (hlen : names.length = bs.length) :
    Expr.namelessPairs g σ scope (names.zip (bs.map Prod.snd)) = Expr.namelessPairs g σ scope bs := by
  have hsnd : (names.zip (bs.map Prod.snd)).map Prod.snd = bs.map Prod.snd :=
    List.map_snd_zip (by rw [List.length_map]; exact Nat.le_of_eq hlen.symm)
  have hmap : ∀ l : List (String × Expr), l.map (fun b => b.2.nameless g σ scope)
      = (l.map Prod.snd).map (Expr.nameless g σ scope) := by
    intro l
    rw [List.map_map]
    rfl
  rw [Expr.namelessPairs_eq_map, Expr.namelessPairs_eq_map, hmap, hmap, hsnd]

mutual

/-- **Renaming changes no term**, if every free variable is renamed or has a low number. -/
theorem Expr.nameless_rename (g : Ref → ι) (σ : Standins ι) (outer : List String) {k : Nat} :
    ∀ (e : Expr) {issued : Nat} {Γ : Scope}, k ≤ issued → Γ.Apart k issued →
      (∀ x, e.OccursFree x → x ∈ Γ.map Prod.fst ∨ NumberedUpTo k x) →
      (e.rename issued Γ).nameless g σ (Γ.map Prod.snd ++ outer) = e.nameless g σ (Γ.map Prod.fst ++ outer)
  | .number _, _, _, _, _, _ | .boolean _, _, _, _, _, _ | .string _, _, _, _, _, _
  | .primitive _, _, _, _, _, _ | .quoted _, _, _, _, _, _ => rfl
  | .var x, _, _, _, hΓ, h => hΓ.ofVar_resolve σ outer (h x rfl)
  | .cond a b c, issued, Γ, hk, hΓ, h => by
    have ha := Expr.nameless_rename g σ outer a hk hΓ fun x hx => h x (.inl hx)
    have hb := Expr.nameless_rename g σ outer b
      (Nat.le_trans hk (Nat.le_add_right issued a.binderCount)) (hΓ.mono (Nat.le_add_right _ _))
      fun x hx => h x (.inr (.inl hx))
    have hc := Expr.nameless_rename g σ outer c (show k ≤ issued + a.binderCount + b.binderCount by omega)
      (hΓ.mono (by omega)) fun x hx => h x (.inr (.inr hx))
    rw [Expr.rename, Expr.nameless, ha, hb, hc, Expr.nameless]
  | .lambda params body, issued, Γ, hk, hΓ, h => by
    have hlen := length_freshNames issued params
    have hb := Expr.namelessAll_rename g σ outer body (show k ≤ issued + params.length by omega)
      (hΓ.enter hk params) (by
        rw [Scope.map_fst_enter Γ hlen]
        exact fun x hx => free_behind (h x) hx)
    rw [Scope.map_fst_enter Γ hlen, Scope.map_snd_enter Γ hlen, List.append_assoc, List.append_assoc] at hb
    show Term.lambda (freshNames issued params).length _ = Term.lambda params.length _
    rw [hlen, hb]
  | .app f es, issued, Γ, hk, hΓ, h => by
    have hf := Expr.nameless_rename g σ outer f hk hΓ fun x hx => h x (.inl hx)
    have hes := Expr.namelessAll_rename g σ outer es (show k ≤ issued + f.binderCount by omega)
      (hΓ.mono (by omega)) fun x hx => h x (.inr hx)
    rw [Expr.rename, Expr.nameless, hf, hes, Expr.nameless]
  | .letIn bs body, issued, Γ, hk, hΓ, h => by
    have hlen := length_freshNames (issued + Expr.binderCountPairs bs) (bs.map Prod.fst)
    have hlen' : (freshNames (issued + Expr.binderCountPairs bs) (bs.map Prod.fst)).length
        = (Expr.renamePairs issued Γ bs).length := by
      rw [hlen, List.length_map, Expr.length_renamePairs]
    have hfst : ((freshNames (issued + Expr.binderCountPairs bs) (bs.map Prod.fst)).zip
        ((Expr.renamePairs issued Γ bs).map Prod.snd)).map Prod.fst
        = freshNames (issued + Expr.binderCountPairs bs) (bs.map Prod.fst) :=
      List.map_fst_zip (by rw [List.length_map]; exact Nat.le_of_eq hlen')
    have hbs := Expr.namelessPairs_rename g σ outer bs hk hΓ fun x hx => h x (.inl hx)
    have hb := Expr.namelessAll_rename g σ outer body
      (show k ≤ issued + Expr.binderCountPairs bs + (bs.map Prod.fst).length by omega)
      ((hΓ.mono (Nat.le_add_right _ _)).enter (by omega) (bs.map Prod.fst)) (by
        rw [Scope.map_fst_enter Γ hlen]
        exact fun x hx => free_behind (fun hx => h x (.inr hx)) hx)
    rw [Scope.map_fst_enter Γ hlen, Scope.map_snd_enter Γ hlen, List.append_assoc, List.append_assoc] at hb
    show Term.letIn (Expr.namelessPairs g σ _ _) (Expr.namelessAll g σ ((List.map Prod.fst _).reverse ++ _) _) = _
    rw [Expr.namelessPairs_zip g σ _ hlen', hbs, hfst, hb, Expr.nameless]
  | .define _ e, _, _, hk, hΓ, h => by
    have he := Expr.nameless_rename g σ outer e hk hΓ h
    rw [Expr.rename, Expr.nameless, he, Expr.nameless]
  | .classDef fields methods, issued, Γ, hk, hΓ, h => by
    have hlen := length_freshNames issued fields
    have hm := Expr.namelessPairs_rename g σ outer methods (show k ≤ issued + fields.length by omega)
      (hΓ.enter hk fields) (by
        rw [Scope.map_fst_enter Γ hlen]
        exact fun x hx => free_behind (h x) hx)
    rw [Scope.map_fst_enter Γ hlen, Scope.map_snd_enter Γ hlen, List.append_assoc, List.append_assoc] at hm
    show Term.classDef (freshNames issued fields).length ((Expr.renamePairs _ _ methods).map Prod.fst) _
      = Term.classDef fields.length (methods.map Prod.fst) _
    rw [hlen, Expr.map_fst_renamePairs, hm]
termination_by structural e => e

theorem Expr.namelessAll_rename (g : Ref → ι) (σ : Standins ι) (outer : List String) {k : Nat} :
    ∀ (es : List Expr) {issued : Nat} {Γ : Scope}, k ≤ issued → Γ.Apart k issued →
      (∀ x, Expr.OccursFreeAny x es → x ∈ Γ.map Prod.fst ∨ NumberedUpTo k x) →
      Expr.namelessAll g σ (Γ.map Prod.snd ++ outer) (Expr.renameAll issued Γ es)
        = Expr.namelessAll g σ (Γ.map Prod.fst ++ outer) es
  | [], _, _, _, _, _ => rfl
  | e :: es, issued, Γ, hk, hΓ, h => by
    have he := Expr.nameless_rename g σ outer e hk hΓ fun x hx => h x (.inl hx)
    have hes := Expr.namelessAll_rename g σ outer es (show k ≤ issued + e.binderCount by omega)
      (hΓ.mono (by omega)) fun x hx => h x (.inr hx)
    rw [Expr.renameAll, Expr.namelessAll, he, hes, Expr.namelessAll]
termination_by structural es => es

theorem Expr.namelessPairs_rename (g : Ref → ι) (σ : Standins ι) (outer : List String) {k : Nat} :
    ∀ (bs : List (String × Expr)) {issued : Nat} {Γ : Scope}, k ≤ issued → Γ.Apart k issued →
      (∀ x, Expr.OccursFreePairs x bs → x ∈ Γ.map Prod.fst ∨ NumberedUpTo k x) →
      Expr.namelessPairs g σ (Γ.map Prod.snd ++ outer) (Expr.renamePairs issued Γ bs)
        = Expr.namelessPairs g σ (Γ.map Prod.fst ++ outer) bs
  | [], _, _, _, _, _ => rfl
  | (_, e) :: bs, issued, Γ, hk, hΓ, h => by
    have he := Expr.nameless_rename g σ outer e hk hΓ fun x hx => h x (.inl hx)
    have hbs := Expr.namelessPairs_rename g σ outer bs (show k ≤ issued + e.binderCount by omega)
      (hΓ.mono (by omega)) fun x hx => h x (.inr hx)
    rw [Expr.renamePairs, Expr.namelessPairs, he, hbs, Expr.namelessPairs]
termination_by structural bs => bs

end

/-! ### Substitution -/

/-- Outside of a scope the replacements are expressions that evaluate to what the names stand for, and inside of it
nothing is replaced. -/
structure Substitution.Puts (τ : Substitution) (g : Ref → ι) (σ : Standins ι) (scope : List String) :
    Prop where
  inside : ∀ x ∈ scope, τ.lookup x = none
  outside : ∀ x, x ∉ scope → τ.lookup x = none ∧ σ.lookup x = none ∨
    ∃ v : Value, τ.lookup x = some v.toExpr ∧ σ.lookup x = some (v.nameless g)

namespace Substitution.Puts

theorem without {τ : Substitution} {g : Ref → ι} {σ : Standins ι} {scope : List String}
    (h : τ.Puts g σ scope) (binders : List String) :
    (τ.without binders).Puts g σ (binders.reverse ++ scope) := by
  constructor
  · intro x hx
    rw [Substitution.lookup_without]
    by_cases hb : x ∈ binders
    · exact if_pos hb
    · rw [if_neg hb]
      exact h.inside x ((List.mem_append.1 hx).resolve_left (by rwa [List.mem_reverse]))
  · intro x hx
    rw [List.mem_append, not_or, List.mem_reverse] at hx
    obtain ⟨hb, hs⟩ := hx
    rw [Substitution.lookup_without, if_neg hb]
    exact h.outside x hs

theorem zip (g : Ref → ι) (names : List String) (args : List Value) :
    Substitution.Puts (names.zip (args.map Value.toExpr)) g (names.zip (args.map (Value.nameless g))) [] := by
  refine ⟨fun x hx => absurd hx List.not_mem_nil, fun x _ => ?_⟩
  induction names generalizing args with
  | nil => exact .inl ⟨rfl, rfl⟩
  | cons y names ih =>
    cases args with
    | nil => exact .inl ⟨rfl, rfl⟩
    | cons v args =>
      rw [List.map_cons, List.map_cons, List.zip_cons_cons, List.zip_cons_cons, List.lookup_cons,
        List.lookup_cons]
      cases hxy : x == y with
      | true => exact .inr ⟨v, rfl, rfl⟩
      | false => exact ih args

theorem of_lookup_eq {τ : Substitution} {g : Ref → ι} {σ σ' : Standins ι} {scope : List String}
    (h : τ.Puts g σ scope) (hσ : ∀ x, σ'.lookup x = σ.lookup x) : τ.Puts g σ' scope := by
  refine ⟨h.inside, fun x hx => ?_⟩
  rw [hσ]
  exact h.outside x hx

theorem ofVar {τ : Substitution} {g : Ref → ι} {σ : Standins ι} {scope bound : List String}
    (h : τ.Puts g σ scope) (hs : scope ⊆ bound) {x : String}
    (hfree : ∀ r, τ.lookup x = some r → ∀ y, r.FreeIn y → y ∉ bound) :
    (τ.apply x).nameless g [] scope = Term.ofVar σ scope x := by
  rw [Substitution.apply]
  by_cases hx : x ∈ scope
  · rw [h.inside x hx, Term.ofVar_of_mem σ hx]
    exact Term.ofVar_of_mem [] hx
  · rcases h.outside x hx with ⟨hτ, hσ⟩ | ⟨v, hτ, hσ⟩
    · rw [hτ, Term.ofVar_of_free hx hσ]
      exact Term.ofVar_of_free hx rfl
    · have hweaken := Expr.nameless_weaken g [] scope v.toExpr []
        fun y hy => .inr fun hmem => hfree _ hτ y hy (hs hmem)
      rw [hτ, Term.ofVar_of_lookup hx hσ, ← Value.nameless_toExpr g v]
      exact hweaken

end Substitution.Puts

mutual

/-- **Where nothing is captured, substitution leaves the term in which the names stand for values.** -/
theorem Expr.nameless_substitute (g : Ref → ι) {σ : Standins ι} :
    ∀ (e : Expr) {τ : Substitution} {scope bound : List String}, τ.Puts g σ scope → scope ⊆ bound →
      e.CaptureFree τ bound → (e.substitute τ).nameless g [] scope = e.nameless g σ scope
  | .number _, _, _, _, _, _, _ | .boolean _, _, _, _, _, _, _ | .string _, _, _, _, _, _, _
  | .primitive _, _, _, _, _, _, _ | .quoted _, _, _, _, _, _, _ => rfl
  | .var _, _, _, _, hτ, hs, h => hτ.ofVar hs h
  | .cond a b c, _, _, _, hτ, hs, ⟨ha, hb, hc⟩ => by
    rw [Expr.substitute, Expr.nameless, Expr.nameless_substitute g a hτ hs ha,
      Expr.nameless_substitute g b hτ hs hb, Expr.nameless_substitute g c hτ hs hc, Expr.nameless]
  | .lambda params body, τ, scope, bound, hτ, hs, h => by
    have hbound : params.reverse ++ scope ⊆ params ++ bound :=
      List.append_subset.2 ⟨fun x hx => List.mem_append_left _ (List.mem_reverse.1 hx),
        fun x hx => List.mem_append_right _ (hs hx)⟩
    have hb := Expr.namelessAll_substitute g body (hτ.without params) hbound h
    rw [Expr.substitute, Expr.nameless, hb, Expr.nameless]
  | .app f es, _, _, _, hτ, hs, ⟨hf, hes⟩ => by
    rw [Expr.substitute, Expr.nameless, Expr.nameless_substitute g f hτ hs hf,
      Expr.namelessAll_substitute g es hτ hs hes, Expr.nameless]
  | .letIn bs body, τ, scope, bound, hτ, hs, ⟨hbs, hb⟩ => by
    have hbound : (bs.map Prod.fst).reverse ++ scope ⊆ bs.map Prod.fst ++ bound :=
      List.append_subset.2 ⟨fun x hx => List.mem_append_left _ (List.mem_reverse.1 hx),
        fun x hx => List.mem_append_right _ (hs hx)⟩
    have hb := Expr.namelessAll_substitute g body (hτ.without (bs.map Prod.fst)) hbound hb
    rw [Expr.substitute, Expr.nameless, Expr.map_fst_substitutePairs,
      Expr.namelessPairs_substitute g bs hτ hs hbs, hb, Expr.nameless]
  | .define _ e, _, _, _, hτ, hs, h => by
    rw [Expr.substitute, Expr.nameless, Expr.nameless_substitute g e hτ hs h, Expr.nameless]
  | .classDef fields methods, τ, scope, bound, hτ, hs, h => by
    have hbound : fields.reverse ++ scope ⊆ fields ++ bound :=
      List.append_subset.2 ⟨fun x hx => List.mem_append_left _ (List.mem_reverse.1 hx),
        fun x hx => List.mem_append_right _ (hs hx)⟩
    have hm := Expr.namelessPairs_substitute g methods (hτ.without fields) hbound h
    rw [Expr.substitute, Expr.nameless, Expr.map_fst_substitutePairs, hm, Expr.nameless]
termination_by structural e => e

theorem Expr.namelessAll_substitute (g : Ref → ι) {σ : Standins ι} :
    ∀ (es : List Expr) {τ : Substitution} {scope bound : List String}, τ.Puts g σ scope → scope ⊆ bound →
      Expr.CaptureFreeAll τ bound es →
      Expr.namelessAll g [] scope (Expr.substituteAll τ es) = Expr.namelessAll g σ scope es
  | [], _, _, _, _, _, _ => rfl
  | e :: es, _, _, _, hτ, hs, ⟨he, hes⟩ => by
    rw [Expr.substituteAll, Expr.namelessAll, Expr.nameless_substitute g e hτ hs he,
      Expr.namelessAll_substitute g es hτ hs hes, Expr.namelessAll]
termination_by structural es => es

theorem Expr.namelessPairs_substitute (g : Ref → ι) {σ : Standins ι} :
    ∀ (bs : List (String × Expr)) {τ : Substitution} {scope bound : List String}, τ.Puts g σ scope →
      scope ⊆ bound → Expr.CaptureFreePairs τ bound bs →
      Expr.namelessPairs g [] scope (Expr.substitutePairs τ bs) = Expr.namelessPairs g σ scope bs
  | [], _, _, _, _, _, _ => rfl
  | (_, e) :: bs, _, _, _, hτ, hs, ⟨he, hbs⟩ => by
    rw [Expr.substitutePairs, Expr.namelessPairs, Expr.nameless_substitute g e hτ hs he,
      Expr.namelessPairs_substitute g bs hτ hs hbs, Expr.namelessPairs]
termination_by structural bs => bs

end

/-! ### Bodies of procedures -/

/-- **The body of a procedure, made fresh and with the arguments put in, leaves the term of the body in which the
parameters stand for the arguments.** -/
theorem nameless_applied {g : Ref → ι} {issued : Nat} {names : List String} {args : List Value}
    {body : List Expr} {σ : Standins ι} (hσ : Substitution.Puts (names.zip (args.map Value.toExpr)) g σ [])
    (hbody : ∀ x, Expr.FreeInAny x body → NumberedUpTo issued x)
    (hargs : ∀ v ∈ args, ∀ x, v.toExpr.FreeIn x → NumberedUpTo issued x) :
    Expr.namelessAll g [] [] (substitute names (args.map Value.toExpr) (rename issued body))
      = Expr.namelessAll g σ [] body := by
  have hsubst := Expr.namelessAll_substitute g _ hσ (List.Subset.refl []) (captureFree_rename hargs body)
  have hrename := Expr.namelessAll_rename g σ [] body (Nat.le_refl issued)
    (Scope.apart_nil issued issued) fun x hx => .inr (hbody x (Expr.OccursFree.freeInAny body hx))
  exact hsubst.trans hrename

end SubstModel

import SubstModel.Proofs.FreeVariables
import SubstModel.Proofs.Language.Grammar

/-!
# Freshness — generated names meet nothing that they could be mistaken for

Substitution does not avoid capture.  That it captures nothing rests on one invariant of all that is ever evaluated,
over whole sessions and across programs that fail: no name has a number above the count of the names handed out.

* `Language.numbered` — all names have low numbers;
* `Expr.boundNames` — the names that an expression binds;
* `Expr.boundNames_rename` — **a renamed expression binds the names that were handed out for it**;
* `Expr.CaptureFree` — no free variable of what is put in is bound around the place;
* `Call.Fresh` — what is wanted of a renaming, and `Call.Fresh.of_numbered` — that the invariant is all it takes;
* `session_extends` — the invariant over a session;
* `session_fresh` — **every renaming of a session hands out names that occur nowhere in what it is for, and the
  substitution behind it captures nothing**.
-/

namespace SubstModel

/-! ### The invariant -/

/-- No name has a number above `n`. -/
def Language.numbered (n : Nat) : Language where
  name := NumberedUpTo n
  label := NumberedUpTo n
  symbol := NumberedUpTo n

/-- None of the names occurs. -/
def Language.avoiding (xs : List String) : Language where
  name x := x ∉ xs
  label x := x ∉ xs
  symbol x := x ∉ xs

theorem Language.numbered_grows : Language.Grows fun s => Language.numbered s.issued where
  mono h := ⟨fun hx => hx.mono h.1, id, id, fun hx => hx.mono h.1, fun hx => hx.mono h.1, id, id, id, id, id, id⟩
  name h := numberedUpTo_freshName.2 h
  binders := trivial
  ref _ := trivial

theorem Language.spelled_le_numbered (n : Nat) : Language.spelled ≤ Language.numbered n where
  name h := numberedUpTo_of_no_hash h n
  free := id
  binders _ := trivial
  label h := numberedUpTo_of_no_hash h n
  symbol h := numberedUpTo_of_no_hash h n
  primitive := id
  ref _ := trivial
  classes := id
  lets := id
  definitions _ := trivial
  emptyBodies _ := trivial

theorem Language.numbered_hasDispatchers (n : Nat) : (Language.numbered n).HasDispatchers where
  identical := trivial
  symbol := id
  message := Language.binds_messageName (fun _ => trivial) fun hx => numberedUpTo_of_no_hash hx n

/-! ### The names that are handed out -/

mutual

/-- The names that the expression binds, quoted values apart. -/
def Expr.boundNames : Expr → List String
  | .number _ | .boolean _ | .string _ | .primitive _ | .var _ | .quoted _ => []
  | .cond test onTrue onFalse =>
    Expr.boundNames test ++ Expr.boundNames onTrue ++ Expr.boundNames onFalse
  | .lambda params body => params ++ Expr.boundNamesAll body
  | .app operator operands => Expr.boundNames operator ++ Expr.boundNamesAll operands
  | .letIn bindings body =>
    Expr.boundNamesPairs bindings ++ bindings.map Prod.fst ++ Expr.boundNamesAll body
  | .define _ value => Expr.boundNames value
  | .classDef fields methods => fields ++ Expr.boundNamesPairs methods
termination_by structural e => e

/-- The names that the expressions bind. -/
def Expr.boundNamesAll : List Expr → List String
  | [] => []
  | e :: es => Expr.boundNames e ++ Expr.boundNamesAll es
termination_by structural es => es

/-- The names that are bound in the values of the bindings. -/
def Expr.boundNamesPairs : List (String × Expr) → List String
  | [] => []
  | (_, e) :: bs => Expr.boundNames e ++ Expr.boundNamesPairs bs
termination_by structural bs => bs

end

/-- The name is generated, with a number that is handed out while `issued` grows by `count`. -/
def HandedOut (issued count : Nat) (y : String) : Prop :=
  ∃ n x, issued < n ∧ n ≤ issued + count ∧ y = freshName n x

theorem not_numberedUpTo_of_handedOut {issued count : Nat} {y : String} (h : HandedOut issued count y) :
    ¬ NumberedUpTo issued y := by
  obtain ⟨n, x, hlo, -, rfl⟩ := h
  rw [numberedUpTo_freshName]
  omega

theorem handedOut_freshNames {issued : Nat} {xs : List String} {y : String}
    (h : y ∈ freshNames issued xs) : HandedOut issued xs.length y := by
  obtain ⟨n, hlo, hhi, x, -, rfl⟩ := mem_freshNames h
  exact ⟨n, x, hlo, hhi, rfl⟩

/-- The names that a renamed `let` binds in its values, and the values themselves. -/
theorem Expr.boundNamesPairs_zip {names : List String} {bs : List (String × Expr)}
    (hlen : names.length = bs.length) :
    Expr.boundNamesPairs (names.zip (bs.map Prod.snd)) = Expr.boundNamesPairs bs := by
  induction bs generalizing names with
  | nil => rw [List.length_eq_zero_iff.1 hlen]; rfl
  | cons b bs ih =>
    cases names with
    | nil => cases hlen
    | cons x xs =>
      have htail : xs.length = bs.length := Nat.succ.inj hlen
      show Expr.boundNames b.2 ++ Expr.boundNamesPairs (xs.zip (bs.map Prod.snd)) = _
      rw [ih htail]
      rfl

mutual

/-- An expression binds as many names as it has binders. -/
theorem Expr.length_boundNames : ∀ e : Expr, e.boundNames.length = e.binderCount
  | .number _ | .boolean _ | .string _ | .primitive _ | .var _ | .quoted _ => rfl
  | .cond a b c => by
    rw [Expr.boundNames, List.length_append, List.length_append, Expr.length_boundNames a, Expr.length_boundNames b,
      Expr.length_boundNames c, Expr.binderCount]
  | .lambda params body => by
    rw [Expr.boundNames, List.length_append, Expr.length_boundNamesAll body, Expr.binderCount]
  | .app f es => by
    rw [Expr.boundNames, List.length_append, Expr.length_boundNames f, Expr.length_boundNamesAll es, Expr.binderCount]
  | .letIn bs body => by
    rw [Expr.boundNames, List.length_append, List.length_append, List.length_map, Expr.length_boundNamesPairs bs,
      Expr.length_boundNamesAll body, Expr.binderCount]
  | .define _ e => Expr.length_boundNames e
  | .classDef fields methods => by
    rw [Expr.boundNames, List.length_append, Expr.length_boundNamesPairs methods, Expr.binderCount]
termination_by structural e => e

theorem Expr.length_boundNamesAll : ∀ es : List Expr, (Expr.boundNamesAll es).length = Expr.binderCountAll es
  | [] => rfl
  | e :: es => by
    rw [Expr.boundNamesAll, List.length_append, Expr.length_boundNames e, Expr.length_boundNamesAll es,
      Expr.binderCountAll]
termination_by structural es => es

theorem Expr.length_boundNamesPairs :
    ∀ bs : List (String × Expr), (Expr.boundNamesPairs bs).length = Expr.binderCountPairs bs
  | [] => rfl
  | (_, e) :: bs => by
    rw [Expr.boundNamesPairs, List.length_append, Expr.length_boundNames e, Expr.length_boundNamesPairs bs,
      Expr.binderCountPairs]
termination_by structural bs => bs

end

theorem Expr.boundNamesAll_map_snd (bs : List (String × Expr)) :
    Expr.boundNamesAll (bs.map Prod.snd) = Expr.boundNamesPairs bs := by
  induction bs with
  | nil => rfl
  | cons b bs ih => rw [List.map_cons, Expr.boundNamesAll, ih, Expr.boundNamesPairs]

mutual

/-- **The names that a renamed expression binds are the names that were handed out for it**, in the same order. -/
theorem Expr.boundNames_rename : ∀ (e : Expr) (issued : Nat) (Γ : Scope),
    (e.rename issued Γ).boundNames = freshNames issued e.boundNames
  | .number _, _, _ | .boolean _, _, _ | .string _, _, _ | .primitive _, _, _ | .var _, _, _
  | .quoted _, _, _ => rfl
  | .cond a b c, issued, Γ => by
    rw [Expr.rename, Expr.boundNames, Expr.boundNames_rename a, Expr.boundNames_rename b, Expr.boundNames_rename c,
      Expr.boundNames, freshNames_append, freshNames_append, List.length_append, Expr.length_boundNames,
      Expr.length_boundNames, Nat.add_assoc]
  | .lambda params body, issued, Γ => by
    rw [Expr.rename, Expr.boundNames, Expr.boundNamesAll_rename body, Expr.boundNames, freshNames_append]
  | .app f es, issued, Γ => by
    rw [Expr.rename, Expr.boundNames, Expr.boundNames_rename f, Expr.boundNamesAll_rename es, Expr.boundNames,
      freshNames_append, Expr.length_boundNames]
  | .letIn bs body, issued, Γ => by
    have hlen : (freshNames (issued + Expr.binderCountPairs bs) (bs.map Prod.fst)).length
        = (Expr.renamePairs issued Γ bs).length := by
      rw [length_freshNames, List.length_map, Expr.length_renamePairs]
    have hfst : ((freshNames (issued + Expr.binderCountPairs bs) (bs.map Prod.fst)).zip
        ((Expr.renamePairs issued Γ bs).map Prod.snd)).map Prod.fst
        = freshNames (issued + Expr.binderCountPairs bs) (bs.map Prod.fst) :=
      List.map_fst_zip (by rw [List.length_map]; exact Nat.le_of_eq hlen)
    rw [Expr.rename, Expr.boundNames, Expr.boundNamesPairs_zip hlen, hfst, Expr.boundNamesPairs_rename bs,
      Expr.boundNamesAll_rename body, Expr.boundNames, freshNames_append, freshNames_append, List.length_append,
      Expr.length_boundNamesPairs, Nat.add_assoc]
  | .define _ e, issued, Γ => Expr.boundNames_rename e issued Γ
  | .classDef fields methods, issued, Γ => by
    rw [Expr.rename, Expr.boundNames, Expr.boundNamesPairs_rename methods, Expr.boundNames, freshNames_append]
termination_by structural e => e

theorem Expr.boundNamesAll_rename : ∀ (es : List Expr) (issued : Nat) (Γ : Scope),
    Expr.boundNamesAll (Expr.renameAll issued Γ es) = freshNames issued (Expr.boundNamesAll es)
  | [], _, _ => rfl
  | e :: es, issued, Γ => by
    rw [Expr.renameAll, Expr.boundNamesAll, Expr.boundNames_rename e, Expr.boundNamesAll_rename es,
      Expr.boundNamesAll, freshNames_append, Expr.length_boundNames]
termination_by structural es => es

theorem Expr.boundNamesPairs_rename : ∀ (bs : List (String × Expr)) (issued : Nat) (Γ : Scope),
    Expr.boundNamesPairs (Expr.renamePairs issued Γ bs) = freshNames issued (Expr.boundNamesPairs bs)
  | [], _, _ => rfl
  | (_, e) :: bs, issued, Γ => by
    rw [Expr.renamePairs, Expr.boundNamesPairs, Expr.boundNames_rename e, Expr.boundNamesPairs_rename bs,
      Expr.boundNamesPairs, freshNames_append, Expr.length_boundNames]
termination_by structural bs => bs

end

theorem Expr.handedOut_boundNamesAll (es : List Expr) {issued : Nat} {Γ : Scope} {y : String}
    (h : y ∈ Expr.boundNamesAll (Expr.renameAll issued Γ es)) : HandedOut issued (Expr.binderCountAll es) y := by
  rw [Expr.boundNamesAll_rename] at h
  rw [← Expr.length_boundNamesAll]
  exact handedOut_freshNames h

/-! ### Capture -/

mutual

/-- Wherever the substitution puts something in, none of its free variables is bound there, neither by a binder of the
expression around the place nor by one of the names `bound`. -/
def Expr.CaptureFree (σ : Substitution) (bound : List String) : Expr → Prop
  | .number _ | .boolean _ | .string _ | .primitive _ | .quoted _ => True
  | .var x => ∀ r, σ.lookup x = some r → ∀ y, r.FreeIn y → y ∉ bound
  | .cond test onTrue onFalse =>
    Expr.CaptureFree σ bound test ∧ Expr.CaptureFree σ bound onTrue ∧ Expr.CaptureFree σ bound onFalse
  | .lambda params body => Expr.CaptureFreeAll (σ.without params) (params ++ bound) body
  | .app operator operands => Expr.CaptureFree σ bound operator ∧ Expr.CaptureFreeAll σ bound operands
  | .letIn bindings body =>
    Expr.CaptureFreePairs σ bound bindings ∧
      Expr.CaptureFreeAll (σ.without (bindings.map Prod.fst)) (bindings.map Prod.fst ++ bound) body
  | .define _ value => Expr.CaptureFree σ bound value
  | .classDef fields methods => Expr.CaptureFreePairs (σ.without fields) (fields ++ bound) methods
termination_by structural e => e

/-- The substitution captures nothing in any of the expressions. -/
def Expr.CaptureFreeAll (σ : Substitution) (bound : List String) : List Expr → Prop
  | [] => True
  | e :: es => Expr.CaptureFree σ bound e ∧ Expr.CaptureFreeAll σ bound es
termination_by structural es => es

/-- The substitution captures nothing in the value of any of the bindings. -/
def Expr.CaptureFreePairs (σ : Substitution) (bound : List String) : List (String × Expr) → Prop
  | [] => True
  | (_, e) :: bs => Expr.CaptureFree σ bound e ∧ Expr.CaptureFreePairs σ bound bs
termination_by structural bs => bs

end

/-- The free variables of all that the substitution puts in have the property. -/
def Substitution.Brings (σ : Substitution) (P : String → Prop) : Prop :=
  ∀ x r, σ.lookup x = some r → ∀ y, r.FreeIn y → P y

theorem Substitution.Brings.without {σ : Substitution} {P : String → Prop} (h : σ.Brings P)
    (binders : List String) : (σ.without binders).Brings P := by
  intro x r hr
  rw [Substitution.lookup_without] at hr
  split at hr
  · cases hr
  · exact h x r hr

section Capture

variable {P : String → Prop}

mutual

/-- **A substitution captures nothing where no binder has the property that the free variables of all replacements
have.** -/
theorem Expr.captureFree_of_brings : ∀ (e : Expr) {σ : Substitution} {bound : List String}, σ.Brings P →
    (∀ y ∈ bound, ¬ P y) → (∀ y ∈ e.boundNames, ¬ P y) → e.CaptureFree σ bound
  | .number _, _, _, _, _, _ | .boolean _, _, _, _, _, _ | .string _, _, _, _, _, _
  | .primitive _, _, _, _, _, _ | .quoted _, _, _, _, _, _ => trivial
  | .var x, _, _, hσ, hbound, _ => fun r hr y hy hmem => hbound y hmem (hσ x r hr y hy)
  | .cond a b c, _, _, hσ, hbound, h => by
    have habc := List.forall_mem_append.1 h
    have hab := List.forall_mem_append.1 habc.1
    exact ⟨Expr.captureFree_of_brings a hσ hbound hab.1, Expr.captureFree_of_brings b hσ hbound hab.2,
      Expr.captureFree_of_brings c hσ hbound habc.2⟩
  | .lambda params body, _, _, hσ, hbound, h => by
    obtain ⟨hparams, hbody⟩ := List.forall_mem_append.1 h
    exact Expr.captureFreeAll_of_brings body (hσ.without params)
      (List.forall_mem_append.2 ⟨hparams, hbound⟩) hbody
  | .app f es, _, _, hσ, hbound, h => by
    obtain ⟨hf, hes⟩ := List.forall_mem_append.1 h
    exact ⟨Expr.captureFree_of_brings f hσ hbound hf, Expr.captureFreeAll_of_brings es hσ hbound hes⟩
  | .letIn bs body, _, _, hσ, hbound, h => by
    obtain ⟨hbinders, hbody⟩ := List.forall_mem_append.1 h
    obtain ⟨hbs, hnames⟩ := List.forall_mem_append.1 hbinders
    exact ⟨Expr.captureFreePairs_of_brings bs hσ hbound hbs,
      Expr.captureFreeAll_of_brings body (hσ.without _) (List.forall_mem_append.2 ⟨hnames, hbound⟩) hbody⟩
  | .define _ e, _, _, hσ, hbound, h => Expr.captureFree_of_brings e hσ hbound h
  | .classDef fields methods, _, _, hσ, hbound, h => by
    obtain ⟨hfields, hmethods⟩ := List.forall_mem_append.1 h
    exact Expr.captureFreePairs_of_brings methods (hσ.without fields)
      (List.forall_mem_append.2 ⟨hfields, hbound⟩) hmethods
termination_by structural e => e

theorem Expr.captureFreeAll_of_brings : ∀ (es : List Expr) {σ : Substitution} {bound : List String},
    σ.Brings P → (∀ y ∈ bound, ¬ P y) → (∀ y ∈ Expr.boundNamesAll es, ¬ P y) →
      Expr.CaptureFreeAll σ bound es
  | [], _, _, _, _, _ => trivial
  | e :: es, _, _, hσ, hbound, h => by
    obtain ⟨he, hes⟩ := List.forall_mem_append.1 h
    exact ⟨Expr.captureFree_of_brings e hσ hbound he, Expr.captureFreeAll_of_brings es hσ hbound hes⟩
termination_by structural es => es

theorem Expr.captureFreePairs_of_brings :
    ∀ (bs : List (String × Expr)) {σ : Substitution} {bound : List String}, σ.Brings P →
      (∀ y ∈ bound, ¬ P y) → (∀ y ∈ Expr.boundNamesPairs bs, ¬ P y) → Expr.CaptureFreePairs σ bound bs
  | [], _, _, _, _, _ => trivial
  | (_, e) :: bs, _, _, hσ, hbound, h => by
    obtain ⟨he, hbs⟩ := List.forall_mem_append.1 h
    exact ⟨Expr.captureFree_of_brings e hσ hbound he, Expr.captureFreePairs_of_brings bs hσ hbound hbs⟩
termination_by structural bs => bs

end

end Capture

/-- **The substitution behind a renaming captures nothing**, if what is put in has names with low numbers only. -/
theorem captureFree_rename {issued : Nat} {names : List String} {args : List Value}
    (hargs : ∀ v ∈ args, ∀ x, v.toExpr.FreeIn x → NumberedUpTo issued x) (body : List Expr) :
    Expr.CaptureFreeAll (names.zip (args.map Value.toExpr)) [] (rename issued body) := by
  have hbrings : Substitution.Brings (names.zip (args.map Value.toExpr)) (NumberedUpTo issued) := by
    intro x r hr y hy
    obtain ⟨v, hv, rfl⟩ := List.mem_map.1 (Substitution.mem_of_lookup_zip hr)
    exact hargs v hv y hy
  -- What binds in the renamed body was handed out just now.
  exact Expr.captureFreeAll_of_brings _ hbrings (fun y hy => absurd hy List.not_mem_nil) fun y hy =>
    not_numberedUpTo_of_handedOut (Expr.handedOut_boundNamesAll body hy)

/-! ### One renaming -/

namespace Call

/-- The expressions of a call with fresh names for what they bind. -/
def renamed (c : Call) : List Expr :=
  rename c.supply.issued c.exprs

/-- What is put into the renamed expressions. -/
def substitution (c : Call) : Substitution :=
  c.binders.zip (c.args.map Value.toExpr)

/-- What a renaming is for has only old names, so that the new ones occur in nothing of it and capture nothing. -/
structure Fresh (c : Call) : Prop where
  /-- No name in the expressions, the binders, the arguments or the environment has a number above the count. -/
  numbered : c.Within (.numbered c.supply.issued)
  handedOut : ∀ y ∈ Expr.boundNamesAll c.renamed, HandedOut c.supply.issued c.count y
  /-- The names that are handed out occur in none of these. -/
  avoided : c.Within (.avoiding (Expr.boundNamesAll c.renamed))
  captureFree : Expr.CaptureFreeAll c.substitution [] c.renamed

theorem Within.mono {L M : Language} (h : L ≤ M) {c : Call} (hc : c.Within L) : c.Within M where
  arity := hc.arity
  binders := hc.binders.mono h
  exprs := Expr.Within.monoAll h (List.Subset.refl _) c.exprs hc.exprs
  args v hv := Value.Within.mono h v (hc.args v hv)
  env := hc.env.mono h

theorem numbered_le_avoiding {issued count : Nat} {ys : List String}
    (h : ∀ y ∈ ys, HandedOut issued count y) : Language.numbered issued ≤ Language.avoiding ys := by
  have havoid : ∀ {x}, NumberedUpTo issued x → x ∉ ys := fun hx hmem =>
    not_numberedUpTo_of_handedOut (h _ hmem) hx
  exact ⟨havoid, id, id, havoid, havoid, id, id, id, id, id, id⟩

/-- **Low numbers are all that it takes.** -/
theorem Fresh.of_numbered {c : Call} (hc : c.Within (.numbered c.supply.issued)) : c.Fresh := by
  have hhanded : ∀ y ∈ Expr.boundNamesAll c.renamed, HandedOut c.supply.issued c.count y :=
    fun y hy => Expr.handedOut_boundNamesAll c.exprs hy
  refine ⟨hc, hhanded, hc.mono (numbered_le_avoiding hhanded), captureFree_rename (fun v hv y hy => ?_) c.exprs⟩
  exact Expr.Within.name_of_freeIn _ (hc.args v hv).toExpr hy

end Call

/-! ### Sessions -/

theorem keeps_evaluateText {L : Supply → Language} (hL : Language.Grows L) (config : Config) {l : Ledger}
    (hspelled : Language.spelled ≤ L l.supply) (hdispatchers : (L l.supply).HasDispatchers)
    (hempty : (L l.supply).emptyBodies) (text : String) :
    Keeps L (fun _ _ => True) l (Traced.evaluateText config text) fun s v => v.Within (L s) := by
  refine Keeps.bind (Q := fun s p => l.supply = s ∧ Program.ofText text = .ok p)
    (Keeps.ofOutcome (fun p hp => ⟨rfl, hp⟩) fun _ _ => trivial) fun p l' _ h => ?_
  obtain ⟨hs, hp⟩ := h
  rw [hs] at hspelled hdispatchers hempty
  have hforms := Program.within_prepared hdispatchers config fun e he =>
    (Program.within_ofText hp e he).mono hspelled
  rw [Traced.evaluateProgram_eq]
  have hkeeps := (keeps_eval hL config config.maxDepth).2 l' .empty _
    (Environment.within_empty _) hforms fun _ => .inl hempty
  exact hkeeps.imp (fun _ _ h => h) fun _ _ _ => trivial

/-- **A session extends its ledger by renamings of parts with low numbers only.** -/
theorem session_extends (config : Config) (texts : List String) (l : Ledger) :
    l.Extends (fun s => Language.numbered s.issued) (Traced.evaluateTexts config texts l).2 := by
  induction texts generalizing l with
  | nil => exact .refl l
  | cons text texts ih =>
    have htext := keeps_evaluateText Language.numbered_grows config
      (Language.spelled_le_numbered l.supply.issued) (Language.numbered_hasDispatchers _) trivial text
    have hextends := htext.extends_ledgerAfter
    rw [Traced.evaluateTexts]
    cases hr : Traced.evaluateText config text l with
    | ok v l' =>
      rw [hr] at hextends
      exact hextends.trans (ih l')
    | error f l' =>
      rw [hr] at hextends
      exact hextends.trans (ih l')

/-- **Freshness over whole sessions.**  The ledger of a session notes every renaming: it comes with the results and the
supply of the session, and the renamings account for all names that were handed out.  Each of them is fresh. -/
theorem session_fresh (config : Config) (texts : List String) (s : Supply) :
    let session := Traced.evaluateTexts config texts (.blank s)
    evaluateTexts config texts s = (session.1, session.2.supply) ∧
      session.2.supply.issued = s.issued + (session.2.calls.map Call.count).sum ∧
      ∀ c ∈ session.2.calls, c.Fresh := by
  intro session
  obtain ⟨new, hcalls, hwithin, hissued⟩ := (session_extends config texts (.blank s)).calls
  have hnew : session.2.calls = new := hcalls.trans (List.append_nil new)
  rw [hnew]
  exact ⟨erase_evaluateTexts config texts (.blank s), hissued, fun c hc => .of_numbered (hwithin c hc)⟩

end SubstModel

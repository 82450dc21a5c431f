import SubstModel.Proofs.Language.Substitution
import SubstModel.Proofs.Names
import SubstModel.Proofs.Unchanged

/-!
# Renaming twice — the first of two renamings leaves no trace

A body is made fresh again each time that it is evaluated.  What the binders were called in between does not matter, as
long as they were called otherwise than all variables.

* `Expr.binderCount_rename` — a renaming changes no number of binders;
* `Scope.Through` — a name goes through two scopes as through one;
* `Expr.rename_rename` — **an expression that is renamed twice is as if renamed once**.
-/

namespace SubstModel

/-! ### Pairs and their expressions -/

theorem Expr.binderCountPairs_eq (bs : List (String × Expr)) :
    Expr.binderCountPairs bs = Expr.binderCountAll (bs.map Prod.snd) := by
  induction bs with
  | nil => rfl
  | cons b bs ih => rw [Expr.binderCountPairs, ih, List.map_cons, Expr.binderCountAll]

theorem Expr.map_snd_renamePairs (n : Nat) (Γ : Scope) (bs : List (String × Expr)) :
    (Expr.renamePairs n Γ bs).map Prod.snd = Expr.renameAll n Γ (bs.map Prod.snd) := by
  induction bs generalizing n with
  | nil => rfl
  | cons b bs ih => rw [Expr.renamePairs, List.map_cons, ih, List.map_cons, Expr.renameAll]

theorem Expr.length_renameAll (n : Nat) (Γ : Scope) (es : List Expr) :
    (Expr.renameAll n Γ es).length = es.length := by
  induction es generalizing n with
  | nil => rfl
  | cons e es ih => rw [Expr.renameAll, List.length_cons, ih, List.length_cons]

/-- The names and the values of a `let` that is renamed. -/
theorem Expr.map_zip_renamePairs (n p : Nat) (Γ : Scope) (bs : List (String × Expr)) :
    ((freshNames n (bs.map Prod.fst)).zip ((Expr.renamePairs p Γ bs).map Prod.snd)).map Prod.fst
        = freshNames n (bs.map Prod.fst) ∧
      ((freshNames n (bs.map Prod.fst)).zip ((Expr.renamePairs p Γ bs).map Prod.snd)).map Prod.snd
        = Expr.renameAll p Γ (bs.map Prod.snd) := by
  have hlen : (freshNames n (bs.map Prod.fst)).length = (Expr.renameAll p Γ (bs.map Prod.snd)).length := by
    rw [length_freshNames, Expr.length_renameAll, List.length_map, List.length_map]
  rw [Expr.map_snd_renamePairs]
  exact ⟨List.map_fst_zip (Nat.le_of_eq hlen), List.map_snd_zip (Nat.le_of_eq hlen.symm)⟩

mutual

theorem Expr.binderCount_rename : ∀ (e : Expr) (n : Nat) (Γ : Scope),
    (e.rename n Γ).binderCount = e.binderCount
  | .number _, _, _ | .boolean _, _, _ | .string _, _, _ | .primitive _, _, _ | .var _, _, _
  | .quoted _, _, _ => rfl
  | .cond a b c, n, Γ => by
    rw [Expr.rename, Expr.binderCount, Expr.binderCount_rename a, Expr.binderCount_rename b,
      Expr.binderCount_rename c, Expr.binderCount]
  | .lambda params body, n, Γ => by
    show (freshNames n params).length + _ = _
    rw [length_freshNames, Expr.binderCountAll_rename body, Expr.binderCount]
  | .app f es, n, Γ => by
    rw [Expr.rename, Expr.binderCount, Expr.binderCount_rename f, Expr.binderCountAll_rename es,
      Expr.binderCount]
  | .letIn bs body, n, Γ => by
    have hsnd := (Expr.map_zip_renamePairs (n + Expr.binderCountPairs bs) n Γ bs).2
    have hfst := congrArg List.length
      (Expr.map_zip_renamePairs (n + Expr.binderCountPairs bs) n Γ bs).1
    have hbs : Expr.binderCountAll (Expr.renameAll n Γ (bs.map Prod.snd)) = Expr.binderCountPairs bs := by
      rw [← Expr.map_snd_renamePairs, ← Expr.binderCountPairs_eq]
      exact Expr.binderCountPairs_rename bs n Γ
    rw [List.length_map, length_freshNames, List.length_map] at hfst
    show Expr.binderCountPairs _ + List.length _ + Expr.binderCountAll _ = _
    rw [Expr.binderCountPairs_eq, hsnd, hbs, hfst, Expr.binderCountAll_rename body, Expr.binderCount]
  | .define x e, n, Γ => by
    rw [Expr.rename, Expr.binderCount, Expr.binderCount_rename e, Expr.binderCount]
  | .classDef fields methods, n, Γ => by
    show (freshNames n fields).length + _ = _
    rw [length_freshNames, Expr.binderCountPairs_rename methods, Expr.binderCount]
termination_by structural e => e

theorem Expr.binderCountAll_rename : ∀ (es : List Expr) (n : Nat) (Γ : Scope),
    Expr.binderCountAll (Expr.renameAll n Γ es) = Expr.binderCountAll es
  | [], _, _ => rfl
  | e :: es, n, Γ => by
    rw [Expr.renameAll, Expr.binderCountAll, Expr.binderCount_rename e, Expr.binderCountAll_rename es,
      Expr.binderCountAll]
termination_by structural es => es

theorem Expr.binderCountPairs_rename : ∀ (bs : List (String × Expr)) (n : Nat) (Γ : Scope),
    Expr.binderCountPairs (Expr.renamePairs n Γ bs) = Expr.binderCountPairs bs
  | [], _, _ => rfl
  | (x, e) :: bs, n, Γ => by
    rw [Expr.renamePairs, Expr.binderCountPairs, Expr.binderCount_rename e, Expr.binderCountPairs_rename bs,
      Expr.binderCountPairs]
termination_by structural bs => bs

end

/-! ### Two scopes -/

namespace Scope

/-- The name goes through the scopes `Δ` and `Γ` as it goes through `Θ`, and in between it has no number above `p`. -/
def Through (Γ : Scope) (p : Nat) (Δ Θ : Scope) (x : String) : Prop :=
  NumberedUpTo p (Δ.resolve x) ∧ Γ.resolve (Δ.resolve x) = Θ.resolve x

theorem Through.mono {Γ : Scope} {p p' : Nat} {Δ Θ : Scope} {x : String} (h : Γ.Through p Δ Θ x)
    (hle : p ≤ p') : Γ.Through p' Δ Θ x :=
  ⟨h.1.mono hle, h.2⟩

/-- What binders do to a name, when they are renamed once more. -/
theorem Through.enter {Γ Δ Θ : Scope} {p : Nat} {x : String} (h : Γ.Through p Δ Θ x) (n : Nat)
    (binders : List String) :
    (Γ.enter (freshNames p binders) (freshNames n binders)).Through (p + binders.length)
      (Δ.enter binders (freshNames p binders)) (Θ.enter binders (freshNames n binders)) x := by
  have hlen : ∀ k, binders.length = (freshNames k binders).length := fun k => (length_freshNames k binders).symm
  have hlens : (freshNames p binders).length = (freshNames n binders).length := by
    rw [length_freshNames, length_freshNames]
  rw [Through, resolve_enter, resolve_enter, resolve_enter, lookup_argumentPairs (hlen p),
    lookup_argumentPairs (hlen n), lookup_argumentPairs hlens]
  by_cases hx : x ∈ binders
  · have hlt : binders.reverse.idxOf x < (freshNames p binders).reverse.length := by
      rw [List.length_reverse, ← hlen, ← List.length_reverse]
      exact List.idxOf_lt_length_of_mem (List.mem_reverse.2 hx)
    have hlt' : binders.reverse.idxOf x < (freshNames n binders).reverse.length := by
      rwa [List.length_reverse, ← hlens, ← List.length_reverse]
    have hnodup : (freshNames p binders).reverse.Nodup := List.nodup_reverse.2 (nodup_freshNames p binders)
    rw [List.getElem?_eq_getElem hlt, Option.getD_some, hnodup.idxOf_getElem, List.getElem?_eq_getElem hlt']
    refine ⟨?_, rfl⟩
    obtain ⟨k, -, hk, y, -, heq⟩ := mem_freshNames (List.mem_reverse.1 (List.getElem_mem hlt))
    rw [heq, numberedUpTo_freshName]
    exact hk
  · obtain ⟨hold, hthrough⟩ := h
    have hout : ∀ k, (freshNames k binders).reverse[binders.reverse.idxOf x]? = none := by
      intro k
      rw [List.getElem?_eq_none_iff, List.length_reverse, ← hlen k, ← List.length_reverse]
      exact Nat.le_of_eq (List.idxOf_eq_length (by rwa [List.mem_reverse])).symm
    have hnew : Δ.resolve x ∉ freshNames p binders := by
      intro hmem
      obtain ⟨k, hk, -, y, -, heq⟩ := mem_freshNames hmem
      exact hold.ne_freshName hk heq
    have hout' : (freshNames n binders).reverse[(freshNames p binders).reverse.idxOf (Δ.resolve x)]? = none := by
      rw [List.getElem?_eq_none_iff, List.length_reverse, ← hlens, ← List.length_reverse]
      exact Nat.le_of_eq (List.idxOf_eq_length (by rwa [List.mem_reverse])).symm
    rw [hout p, hout n, Option.getD_none, Option.getD_none, hout', Option.getD_none]
    exact ⟨hold.mono (Nat.le_add_right _ _), hthrough⟩

end Scope

/-! ### Renaming twice -/

mutual

/-- **An expression that is renamed twice is as if renamed once**, when every name in it goes through both scopes as
through one. -/
theorem Expr.rename_rename : ∀ (e : Expr) {n p : Nat} {Γ Δ Θ : Scope},
    (∀ x ∈ e.names, Γ.Through p Δ Θ x) → (e.rename p Δ).rename n Γ = e.rename n Θ
  | .number _, _, _, _, _, _, _ | .boolean _, _, _, _, _, _, _ | .string _, _, _, _, _, _, _
  | .primitive _, _, _, _, _, _, _ | .quoted _, _, _, _, _, _, _ => rfl
  | .var x, _, _, _, _, _, h => congrArg Expr.var (h x (List.mem_singleton_self x)).2
  | .cond a b c, n, p, Γ, Δ, Θ, h => by
    rw [Expr.names, List.forall_mem_append, List.forall_mem_append] at h
    obtain ⟨⟨hna, hnb⟩, hnc⟩ := h
    have ha : (a.rename p Δ).rename n Γ = a.rename n Θ := Expr.rename_rename a hna
    have hb : (b.rename (p + a.binderCount) Δ).rename (n + a.binderCount) Γ = b.rename (n + a.binderCount) Θ :=
      Expr.rename_rename b fun x hx => (hnb x hx).mono (by omega)
    have hc : (c.rename (p + a.binderCount + b.binderCount) Δ).rename (n + a.binderCount + b.binderCount) Γ
        = c.rename (n + a.binderCount + b.binderCount) Θ :=
      Expr.rename_rename c fun x hx => (hnc x hx).mono (by omega)
    rw [Expr.rename, Expr.rename, Expr.binderCount_rename, Expr.binderCount_rename, ha, hb, hc, Expr.rename]
  | .lambda params body, n, p, Γ, Δ, Θ, h => by
    have hbody := Expr.renameAll_renameAll body (n := n + params.length) fun x hx =>
      (h x (List.mem_append_right _ hx)).enter n params
    simp only [Expr.rename, freshNames_freshNames, length_freshNames, hbody]
  | .app f es, n, p, Γ, Δ, Θ, h => by
    rw [Expr.names, List.forall_mem_append] at h
    have hf : (f.rename p Δ).rename n Γ = f.rename n Θ := Expr.rename_rename f h.1
    have hes := Expr.renameAll_renameAll es (n := n + f.binderCount) (p := p + f.binderCount) fun x hx =>
      (h.2 x hx).mono (by omega)
    rw [Expr.rename, Expr.rename, Expr.binderCount_rename, hf, hes, Expr.rename]
  | .letIn bs body, n, p, Γ, Δ, Θ, h => by
    rw [Expr.names, List.forall_mem_append, List.forall_mem_append] at h
    obtain ⟨⟨-, hnbs⟩, hnbody⟩ := h
    have hzip := Expr.map_zip_renamePairs (p + Expr.binderCountPairs bs) p Δ bs
    have hcount : Expr.binderCountAll (Expr.renameAll p Δ (bs.map Prod.snd)) = Expr.binderCountPairs bs := by
      rw [Expr.binderCountAll_rename, Expr.binderCountPairs_eq]
    have hlen : ((freshNames (p + Expr.binderCountPairs bs) (bs.map Prod.fst)).zip
        ((Expr.renamePairs p Δ bs).map Prod.snd)).length = (bs.map Prod.fst).length := by
      rw [← List.length_map Prod.fst, hzip.1, length_freshNames]
    have hvalues : Expr.renameAll n Γ (Expr.renameAll p Δ (bs.map Prod.snd))
        = Expr.renameAll n Θ (bs.map Prod.snd) := by
      have hbs := Expr.renamePairs_renamePairs bs (n := n) hnbs
      rw [← Expr.map_snd_renamePairs, ← Expr.map_snd_renamePairs, hbs, Expr.map_snd_renamePairs]
    have hbody := Expr.renameAll_renameAll body
      (n := n + Expr.binderCountPairs bs + (bs.map Prod.fst).length) fun x hx =>
        ((hnbody x hx).mono (Nat.le_add_right p (Expr.binderCountPairs bs))).enter
          (n + Expr.binderCountPairs bs) (bs.map Prod.fst)
    simp only [Expr.rename, Expr.map_snd_renamePairs, Expr.binderCountPairs_eq] at hzip hcount hvalues hbody ⊢
    simp only [hzip.1, hzip.2, hcount, freshNames_freshNames, length_freshNames, hvalues, hbody]
  | .define x e, n, p, Γ, Δ, Θ, h => by
    have he : (e.rename p Δ).rename n Γ = e.rename n Θ :=
      Expr.rename_rename e fun y hy => h y (List.mem_cons_of_mem x hy)
    rw [Expr.rename, Expr.rename, he, Expr.rename]
  | .classDef fields methods, n, p, Γ, Δ, Θ, h => by
    have hmethods := Expr.renamePairs_renamePairs methods (n := n + fields.length) fun x hx =>
      (h x (List.mem_append_right _ hx)).enter n fields
    simp only [Expr.rename, freshNames_freshNames, length_freshNames, hmethods]
termination_by structural e => e

theorem Expr.renameAll_renameAll : ∀ (es : List Expr) {n p : Nat} {Γ Δ Θ : Scope},
    (∀ x ∈ Expr.namesAll es, Γ.Through p Δ Θ x) →
    Expr.renameAll n Γ (Expr.renameAll p Δ es) = Expr.renameAll n Θ es
  | [], _, _, _, _, _, _ => rfl
  | e :: es, n, p, Γ, Δ, Θ, h => by
    rw [Expr.namesAll, List.forall_mem_append] at h
    have he : (e.rename p Δ).rename n Γ = e.rename n Θ := Expr.rename_rename e h.1
    have hes := Expr.renameAll_renameAll es (n := n + e.binderCount) (p := p + e.binderCount) fun x hx =>
      (h.2 x hx).mono (by omega)
    rw [Expr.renameAll, Expr.renameAll, Expr.binderCount_rename, he, hes, Expr.renameAll]
termination_by structural es => es

theorem Expr.renamePairs_renamePairs : ∀ (bs : List (String × Expr)) {n p : Nat} {Γ Δ Θ : Scope},
    (∀ x ∈ Expr.namesPairs bs, Γ.Through p Δ Θ x) →
    Expr.renamePairs n Γ (Expr.renamePairs p Δ bs) = Expr.renamePairs n Θ bs
  | [], _, _, _, _, _, _ => rfl
  | (x, e) :: bs, n, p, Γ, Δ, Θ, h => by
    rw [Expr.namesPairs, List.forall_mem_append] at h
    have he : (e.rename p Δ).rename n Γ = e.rename n Θ := Expr.rename_rename e h.1
    have hbs := Expr.renamePairs_renamePairs bs (n := n + e.binderCount) (p := p + e.binderCount) fun x hx =>
      (h.2 x hx).mono (by omega)
    rw [Expr.renamePairs, Expr.renamePairs, Expr.binderCount_rename, he, hbs, Expr.renamePairs]
termination_by structural bs => bs

end

end SubstModel

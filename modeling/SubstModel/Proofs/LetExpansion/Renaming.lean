import SubstModel.Proofs.LetExpansion
import SubstModel.Proofs.Relabelling.Numbers
import SubstModel.Proofs.Renaming

/-!
# Renaming local bindings — the same numbers in another order

The renaming of a `let` numbers the binders of its values first.  The renaming of the application in its place begins
with the names and with the body.  So both hand out the same numbers, to other binders, and what is renamed before its
local bindings are replaced differs from what is renamed afterwards in the numbers of its names alone.

* `Renumbering` — other numbers, one for one, for the names that have been handed out so far;
* `Renumbering.Extends`, `Renumbering.Extends.agrees` — what was handed out before keeps the number it was given;
* `Renumbering.arrange` — new numbers in any order;
* `Relabelling.Numbers` — the names become those that are handed out for them;
* `Expr.relabel_withoutLets_rename` — **an expression renamed and then expanded is the expression expanded and then
  renamed**, where its binders become those that are handed out;
* `Renumbering.exists_extends_rename` — numbers of that kind can always be given.
-/

namespace SubstModel

/-! ### Renumberings -/

/-- Other numbers for the names with the numbers up to `n`, one for one. -/
structure Renumbering (n : Nat) where
  number : Nat → Nat
  injective : Function.Injective number
  above : ∀ j, n < j → number j = j

namespace Renumbering

variable {n m k : Nat}

/-- All names keep their numbers. -/
def refl (n : Nat) : Renumbering n :=
  ⟨id, Function.injective_id, fun _ _ => rfl⟩

/-- The names with their other numbers.  References stay. -/
def relabelling (ρ : Renumbering n) : Relabelling :=
  .ofNumbers ρ.injective Function.injective_id

theorem relabelling_refl (n : Nat) : (refl n).relabelling = .refl := by
  have hname : renumber id = id := by
    funext x
    rcases generated_or_written x with ⟨j, base, rfl⟩ | hwritten
    · rw [renumber_freshName]
      rfl
    · exact renumber_of_not_hasNumber id hwritten
  simp only [relabelling, Relabelling.ofNumbers, Relabelling.refl, Relabelling.mk.injEq, and_true]
  exact hname

theorem name_freshName (ρ : Renumbering n) (j : Nat) (x : String) :
    ρ.relabelling.name (freshName j x) = freshName (ρ.number j) x := by
  rw [relabelling, Relabelling.name_ofNumbers, renumber_freshName]

/-- The second renumbering is for at least as many names, and does with those of the first what that one does. -/
structure Extends (ρ : Renumbering n) (ρ' : Renumbering m) : Prop where
  le : n ≤ m
  number : ∀ j ≤ n, ρ'.number j = ρ.number j

theorem Extends.rfl {ρ : Renumbering n} : ρ.Extends ρ :=
  ⟨Nat.le_refl n, fun _ _ => Eq.refl _⟩

theorem Extends.trans {ρ : Renumbering n} {ρ' : Renumbering m} {ρ'' : Renumbering k} (h : ρ.Extends ρ')
    (h' : ρ'.Extends ρ'') : ρ.Extends ρ'' :=
  ⟨Nat.le_trans h.le h'.le, fun j hj => (h'.number j (Nat.le_trans hj h.le)).trans (h.number j hj)⟩

/-- Names that were handed out before are relabelled as before. -/
theorem Extends.agrees {ρ : Renumbering n} {ρ' : Renumbering m} (h : ρ.Extends ρ') {L : Language}
    (hL : ∀ {x}, L.name x → NumberedUpTo n x) : ρ'.relabelling.Agrees ρ.relabelling L where
  name {x} hx := by
    rcases generated_or_written x with ⟨j, base, rfl⟩ | hwritten
    · rw [name_freshName, name_freshName, h.number j (numberedUpTo_freshName.1 (hL hx))]
    · rw [Relabelling.name_written _ x hwritten, Relabelling.name_written _ x hwritten]
  ref _ := Eq.refl _

/-! ### New numbers in any order -/

/-- The numbers of the list, in its order, become those behind `n`. -/
def inOrder (n : Nat) (xs : List Nat) (j : Nat) : Nat :=
  if j ∈ xs then n + 1 + xs.idxOf j else j

theorem inOrder_of_mem {xs : List Nat} {j : Nat} (hj : j ∈ xs) : inOrder n xs j = n + 1 + xs.idxOf j :=
  if_pos hj

theorem inOrder_of_not_mem {xs : List Nat} {j : Nat} (hj : j ∉ xs) : inOrder n xs j = j :=
  if_neg hj

section InOrder

variable {xs : List Nat} {count : Nat} (h : xs.Perm (List.range' (n + 1) count))

include h

theorem inOrder_injective : Function.Injective (inOrder n xs) := by
  have hmem : ∀ j, j ∈ xs ↔ n + 1 ≤ j ∧ j < n + 1 + count := fun j => h.mem_iff.trans List.mem_range'_1
  have hidx : ∀ {j}, j ∈ xs → xs.idxOf j < count := by
    intro j hj
    have hlt := List.idxOf_lt_length_of_mem hj
    rwa [h.length_eq, List.length_range'] at hlt
  -- The numbers of the list go to one stretch, and no other number is in it.
  intro i j heq
  by_cases hi : i ∈ xs <;> by_cases hj : j ∈ xs
  · rw [inOrder_of_mem hi, inOrder_of_mem hj] at heq
    exact (List.idxOf_inj hi).1 (Nat.add_left_cancel heq)
  · rw [inOrder_of_mem hi, inOrder_of_not_mem hj] at heq
    have hlt := hidx hi
    exact absurd ((hmem j).2 (by omega)) hj
  · rw [inOrder_of_not_mem hi, inOrder_of_mem hj] at heq
    have hlt := hidx hj
    exact absurd ((hmem i).2 (by omega)) hi
  · rwa [inOrder_of_not_mem hi, inOrder_of_not_mem hj] at heq

theorem inOrder_of_getElem? {i j : Nat} (hi : xs[i]? = some j) : inOrder n xs j = n + 1 + i := by
  have hnodup : xs.Nodup := h.nodup_iff.2 List.nodup_range'
  obtain ⟨hlt, rfl⟩ := List.getElem?_eq_some_iff.1 hi
  rw [inOrder_of_mem (List.getElem_mem hlt), hnodup.idxOf_getElem i hlt]

theorem inOrder_of_le {j : Nat} (hj : j ≤ n) : inOrder n xs j = j := by
  refine inOrder_of_not_mem fun hmem => ?_
  have := (List.mem_range'_1.1 (h.mem_iff.1 hmem)).1
  omega

theorem inOrder_of_gt {j : Nat} (hj : n + count < j) : inOrder n xs j = j := by
  refine inOrder_of_not_mem fun hmem => ?_
  have := (List.mem_range'_1.1 (h.mem_iff.1 hmem)).2
  omega

/-- The numbers that are handed out next become, in the order of the list, the numbers in their own order. -/
def arrange (ρ : Renumbering n) : Renumbering (n + count) where
  number j := ρ.number (inOrder n xs j)
  injective := ρ.injective.comp (inOrder_injective h)
  above j hj := by
    rw [inOrder_of_gt h hj]
    exact ρ.above j (by omega)

theorem extends_arrange (ρ : Renumbering n) : ρ.Extends (ρ.arrange h) where
  le := Nat.le_add_right n count
  number _ hj := congrArg ρ.number (inOrder_of_le h hj)

theorem number_arrange (ρ : Renumbering n) {i j : Nat} (hi : xs[i]? = some j) :
    (ρ.arrange h).number j = n + 1 + i := by
  show ρ.number (inOrder n xs j) = _
  rw [inOrder_of_getElem? h hi]
  exact ρ.above _ (by omega)

end InOrder

end Renumbering

/-- The names become those that are handed out for them behind `n`. -/
def Relabelling.Numbers (ρ : Relabelling) (n : Nat) (xs : List String) : Prop :=
  xs.map ρ.name = freshNames n xs

theorem Relabelling.Numbers.append {ρ : Relabelling} {n : Nat} {xs ys : List String} (h : ρ.Numbers n (xs ++ ys)) :
    ρ.Numbers n xs ∧ ρ.Numbers (n + xs.length) ys := by
  rw [Relabelling.Numbers, List.map_append, freshNames_append] at h
  exact List.append_inj h (by rw [List.length_map, length_freshNames])

/-- **Names that were handed out in one order can be given the numbers of another order.** -/
theorem Renumbering.exists_numbers {n : Nat} (ρ : Renumbering n) {xs ys : List String}
    (h : xs.Perm (freshNames n ys)) :
    ∃ ρ' : Renumbering (n + ys.length), ρ.Extends ρ' ∧ ρ'.relabelling.Numbers n xs := by
  have hnumbers : (xs.map numberPart).Perm (List.range' (n + 1) ys.length) := by
    rw [← map_numberPart_freshNames]
    exact h.map numberPart
  refine ⟨ρ.arrange hnumbers, extends_arrange hnumbers ρ, List.ext_getElem? fun i => ?_⟩
  rw [List.getElem?_map, getElem?_freshNames]
  cases hx : xs[i]? with
  | none => rfl
  | some x =>
    obtain ⟨j, -, -, y, -, rfl⟩ := mem_freshNames (h.mem_iff.1 (List.mem_of_getElem? hx))
    have hj : (xs.map numberPart)[i]? = some j := by
      rw [List.getElem?_map, hx, Option.map_some, numberPart_freshName]
    rw [Option.map_some, Option.map_some, name_freshName, number_arrange hnumbers ρ hj, freshName_freshName]

/-! ### Renaming and replacing local bindings -/

/-- A relabelled name keeps its stem, so the same name is handed out for it. -/
theorem Relabelling.freshNames_map_name (ρ : Relabelling) (n : Nat) (xs : List String) :
    freshNames n (xs.map ρ.name) = freshNames n xs := by
  induction xs generalizing n with
  | nil => rfl
  | cons x xs ih => rw [List.map_cons, freshNames, ih, freshNames, freshName_eq_iff.2 ⟨rfl, ρ.stem_name x⟩]

/-- The names that were handed out for binders become those that are handed out for the relabelled binders. -/
theorem Relabelling.Numbers.binders {ρ : Relabelling} {n n' : Nat} {xs : List String}
    (h : ρ.Numbers n' (freshNames n xs)) :
    (freshNames n xs).map ρ.name = freshNames n' (xs.map ρ.name) := by
  rw [h, freshNames_freshNames, ρ.freshNames_map_name]

/-- A `let` that is renamed and then replaced: the names are those that were handed out behind the values. -/
theorem Expr.withoutLets_rename_letIn (n : Nat) (Γ : Scope) (bs : List (String × Expr)) (body : List Expr) :
    let names := bs.map Prod.fst
    let renamed := freshNames (n + Expr.binderCountPairs bs) names
    ((Expr.letIn bs body).rename n Γ).withoutLets
      = .app (.lambda renamed (Expr.withoutLetsAll
          (Expr.renameAll (n + Expr.binderCountPairs bs + names.length) (Γ.enter names renamed) body)))
        ((Expr.withoutLetsPairs (Expr.renamePairs n Γ bs)).map Prod.snd) := by
  intro names renamed
  have hlen : renamed.length = (Expr.withoutLetsAll ((Expr.renamePairs n Γ bs).map Prod.snd)).length := by
    rw [Expr.withoutLetsAll_eq_map, List.length_map, List.length_map, Expr.length_renamePairs, length_freshNames,
      List.length_map]
  rw [Expr.rename, Expr.withoutLets, letApplication, Expr.withoutLetsPairs_zip, List.map_fst_zip (Nat.le_of_eq hlen),
    List.map_snd_zip (Nat.le_of_eq hlen.symm), Expr.map_snd_withoutLetsPairs]

section Renaming

variable {ρ : Relabelling}

mutual

/-- **An expression renamed and then expanded is the expression expanded and then renamed**, if its binders, in the
order of the expanded expression, become those that are handed out for them. -/
theorem Expr.relabel_withoutLets_rename : ∀ (e : Expr) {n n' : Nat} {Γ : Scope},
    ρ.Numbers n' (e.rename n Γ).withoutLets.boundNames →
      (e.rename n Γ).withoutLets.relabel ρ = (e.withoutLets.relabel ρ).rename n' (Γ.relabel ρ)
  | .number _, _, _, _, _ | .boolean _, _, _, _, _ | .string _, _, _, _, _ | .primitive _, _, _, _, _
  | .quoted _, _, _, _, _ => rfl
  | .var x, _, _, Γ, _ => congrArg Expr.var (Scope.relabel_resolve ρ Γ x).symm
  | .cond a b c, n, n', Γ, h => by
    obtain ⟨hab, hc⟩ := h.append
    obtain ⟨ha, hb⟩ := hab.append
    rw [Expr.rename, Expr.withoutLets, Expr.relabel, Expr.relabel_withoutLets_rename a ha,
      Expr.relabel_withoutLets_rename b hb, Expr.relabel_withoutLets_rename c hc, Expr.withoutLets, Expr.relabel,
      Expr.rename]
    simp only [List.length_append, Expr.length_boundNames, Expr.binderCount_withoutLets, Expr.binderCount_rename,
      Expr.binderCount_relabel, Nat.add_assoc]
  | .lambda params body, n, n', Γ, h => by
    obtain ⟨hparams, hbody⟩ := h.append
    rw [length_freshNames] at hbody
    rw [Expr.rename, Expr.withoutLets, Expr.relabel, Expr.relabelAll_withoutLets_rename body hbody,
      Scope.relabel_enter, hparams.binders, Expr.withoutLets, Expr.relabel, Expr.rename, List.length_map]
  | .app f es, n, n', Γ, h => by
    obtain ⟨hf, hes⟩ := h.append
    rw [Expr.rename, Expr.withoutLets, Expr.relabel, Expr.relabel_withoutLets_rename f hf,
      Expr.relabelAll_withoutLets_rename es hes, Expr.withoutLets, Expr.relabel, Expr.rename]
    simp only [Expr.length_boundNames, Expr.binderCount_withoutLets, Expr.binderCount_rename,
      Expr.binderCount_relabel]
  | .letIn bs body, n, n', Γ, h => by
    rw [Expr.withoutLets_rename_letIn] at h
    obtain ⟨hprocedure, hvalues⟩ := h.append
    obtain ⟨hnames, hbody⟩ := Relabelling.Numbers.append hprocedure
    rw [Expr.boundNamesAll_map_snd] at hvalues
    rw [length_freshNames] at hbody
    have hpairs := congrArg (List.map Prod.snd) (Expr.relabelPairs_withoutLets_rename ρ.name bs hvalues)
    rw [Expr.map_snd_relabelPairs] at hpairs
    rw [Expr.withoutLets_rename_letIn, Expr.relabel, Expr.relabel, Expr.relabelAll_withoutLets_rename body hbody,
      Scope.relabel_enter, hnames.binders, hpairs, Expr.withoutLets, relabel_letApplication, letApplication,
      Expr.rename, Expr.rename, Expr.map_fst_relabelPairs, Expr.map_fst_withoutLetsPairs, ← Expr.map_snd_renamePairs]
    simp only [Expr.boundNames, List.length_append, List.length_map, length_freshNames, Expr.length_boundNamesAll,
      Expr.binderCountAll_withoutLets, Expr.binderCountAll_rename, Expr.binderCount, Expr.binderCountAll_relabel]
  | .define x e, n, n', Γ, h => by
    rw [Expr.rename, Expr.withoutLets, Expr.relabel, Expr.relabel_withoutLets_rename e h, Expr.withoutLets,
      Expr.relabel, Expr.rename]
  | .classDef fields methods, n, n', Γ, h => by
    obtain ⟨hfields, hmethods⟩ := h.append
    rw [length_freshNames] at hmethods
    rw [Expr.rename, Expr.withoutLets, Expr.relabel, Expr.relabelPairs_withoutLets_rename id methods hmethods,
      Scope.relabel_enter, hfields.binders, Expr.withoutLets, Expr.relabel, Expr.rename, List.length_map]
termination_by structural e => e

theorem Expr.relabelAll_withoutLets_rename : ∀ (es : List Expr) {n n' : Nat} {Γ : Scope},
    ρ.Numbers n' (Expr.boundNamesAll (Expr.withoutLetsAll (Expr.renameAll n Γ es))) →
      Expr.relabelAll ρ (Expr.withoutLetsAll (Expr.renameAll n Γ es))
        = Expr.renameAll n' (Γ.relabel ρ) (Expr.relabelAll ρ (Expr.withoutLetsAll es))
  | [], _, _, _, _ => rfl
  | e :: es, n, n', Γ, h => by
    obtain ⟨he, hes⟩ := Relabelling.Numbers.append h
    rw [Expr.renameAll, Expr.withoutLetsAll, Expr.relabelAll, Expr.relabel_withoutLets_rename e he,
      Expr.relabelAll_withoutLets_rename es hes, Expr.withoutLetsAll, Expr.relabelAll, Expr.renameAll]
    simp only [Expr.length_boundNames, Expr.binderCount_withoutLets, Expr.binderCount_rename,
      Expr.binderCount_relabel]
termination_by structural es => es

theorem Expr.relabelPairs_withoutLets_rename (f : String → String) :
    ∀ (bs : List (String × Expr)) {n n' : Nat} {Γ : Scope},
      ρ.Numbers n' (Expr.boundNamesPairs (Expr.withoutLetsPairs (Expr.renamePairs n Γ bs))) →
        Expr.relabelPairs ρ f (Expr.withoutLetsPairs (Expr.renamePairs n Γ bs))
          = Expr.renamePairs n' (Γ.relabel ρ) (Expr.relabelPairs ρ f (Expr.withoutLetsPairs bs))
  | [], _, _, _, _ => rfl
  | (x, e) :: bs, n, n', Γ, h => by
    obtain ⟨he, hbs⟩ := Relabelling.Numbers.append h
    rw [Expr.renamePairs, Expr.withoutLetsPairs, Expr.relabelPairs, Expr.relabel_withoutLets_rename e he,
      Expr.relabelPairs_withoutLets_rename f bs hbs, Expr.withoutLetsPairs, Expr.relabelPairs, Expr.renamePairs]
    simp only [Expr.length_boundNames, Expr.binderCount_withoutLets, Expr.binderCount_rename,
      Expr.binderCount_relabel]
termination_by structural bs => bs

end

end Renaming

/-- **A body that is renamed and then expanded is the expanded body renamed**, with numbers that are given as the names
are handed out. -/
theorem Renumbering.exists_extends_rename {n : Nat} (ρ : Renumbering n) {L : Language}
    (hL : ∀ {x}, L.name x → NumberedUpTo n x) {es : List Expr} {scope : List String}
    (hes : Expr.WithinAll L scope es) :
    ∃ ρ' : Renumbering (issuedAfter n es), ρ.Extends ρ' ∧
      Expr.relabelAll ρ'.relabelling (Expr.withoutLetsAll (rename n es))
        = rename n (Expr.relabelAll ρ.relabelling (Expr.withoutLetsAll es)) := by
  have hbound : (Expr.boundNamesAll (Expr.withoutLetsAll (rename n es))).Perm
      (freshNames n (Expr.boundNamesAll es)) := by
    rw [← Expr.boundNamesAll_rename es n []]
    exact Expr.boundNamesAll_withoutLets _
  have hexists := ρ.exists_numbers hbound
  rw [Expr.length_boundNamesAll, ← issuedAfter] at hexists
  obtain ⟨ρ', hextends, hnumbers⟩ := hexists
  -- The names that occur already were numbered before.
  have hbefore : Expr.relabelAll ρ'.relabelling (Expr.withoutLetsAll es)
      = Expr.relabelAll ρ.relabelling (Expr.withoutLetsAll es) :=
    Expr.relabelAll_congr (hextends.agrees (L := L.letless) hL) _ (Expr.Within.withoutLetsAll es hes)
  refine ⟨ρ', hextends, ?_⟩
  rw [rename, Expr.relabelAll_withoutLets_rename es hnumbers, hbefore, rename]
  rfl

end SubstModel

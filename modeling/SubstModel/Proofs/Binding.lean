import SubstModel.Expr.Rename
import SubstModel.Expr.Substitute
import Mathlib.Data.List.Nodup

/-!
# Binding — what scopes of renamings and substitutions do to a name

The facts about looking up a name, on which everything about renaming and substitution rests.

* `argumentPairs` — arguments for parameters, and `lookup_argumentPairs`, where the argument for a name stands;
* `lookup_map_of_injective` — looking up a name in a list whose names are changed one for one;
* `Scope.map_fst_enter`, `Scope.map_snd_enter` — entering binders puts them, the last one first, in front of a scope;
* `Scope.resolve_mem`, `Scope.resolve_of_not_mem` — a bound name is resolved to a new one, a free name to itself;
* `Substitution.lookup_without` — binders hide the replacements of their names and of no others;
* `Substitution.lookup_zip_isSome` — as many replacements as names replace every one of the names.
-/

namespace SubstModel

/-! ### Looking up a name in a list of pairs -/

section Lookup

variable {β : Type}

theorem lookup_isSome_iff_mem {l : List (String × β)} {x : String} :
    (l.lookup x).isSome ↔ x ∈ l.map Prod.fst := by
  rw [List.lookup_isSome_iff, List.mem_map]
  constructor
  · rintro ⟨b, hb, hx⟩
    exact ⟨b, hb, (beq_iff_eq.1 hx).symm⟩
  · rintro ⟨b, hb, rfl⟩
    exact ⟨b, hb, beq_self_eq_true _⟩

theorem lookup_eq_none_of_not_mem {l : List (String × β)} {x : String} (hx : x ∉ l.map Prod.fst) :
    l.lookup x = none := by
  rwa [← lookup_isSome_iff_mem, Bool.not_eq_true, Option.isSome_eq_false_iff, Option.isNone_iff_eq_none] at hx

theorem mem_of_lookup_eq_some {l : List (String × β)} {x : String} {b : β}
    (h : l.lookup x = some b) : (x, b) ∈ l := by
  obtain ⟨l₁, l₂, rfl, -⟩ := List.lookup_eq_some_iff.1 h
  simp

/-- Looking up a name and changing names, one for one, and what they stand for can be exchanged. -/
theorem lookup_map_of_injective {γ : Type} {f : String → String} (hf : Function.Injective f) (g : β → γ)
    (l : List (String × β)) (x : String) :
    (l.map fun b => (f b.1, g b.2)).lookup (f x) = (l.lookup x).map g := by
  induction l with
  | nil => rfl
  | cons b l ih =>
    rw [List.map_cons, List.lookup_cons, List.lookup_cons]
    by_cases hx : x = b.1
    · subst hx
      rw [beq_self_eq_true, beq_self_eq_true]
      rfl
    · have hne : (x == b.1) = false := by simpa using hx
      have hne' : (f x == f b.1) = false := by simpa using fun heq => hx (hf heq)
      rw [hne, hne']
      exact ih

theorem lookup_zip {xs : List String} {ys : List β} (hlen : xs.length = ys.length) (x : String) :
    (xs.zip ys).lookup x = ys[xs.idxOf x]? := by
  induction xs generalizing ys with
  | nil =>
    rw [List.length_eq_zero_iff.1 hlen.symm]
    rfl
  | cons y xs ih =>
    cases ys with
    | nil => cases hlen
    | cons b ys =>
      have htail : xs.length = ys.length := Nat.succ.inj hlen
      rw [List.zip_cons_cons, List.lookup_cons]
      by_cases hxy : x = y
      · subst hxy
        rw [beq_self_eq_true, List.idxOf_cons_self]
        rfl
      · have hne : (x == y) = false := by simpa using hxy
        rw [hne, List.idxOf_cons_ne _ (Ne.symm hxy), List.getElem?_cons_succ]
        exact ih htail

theorem not_mem_map_fst_zip {xs : List String} {x : String} (hx : x ∉ xs) (ys : List β) :
    x ∉ (xs.zip ys).map Prod.fst := by
  intro hmem
  obtain ⟨b, hb, rfl⟩ := List.mem_map.1 hmem
  exact hx (List.of_mem_zip hb).1

/-- Arguments for parameters, of which the last counts where two have one name. -/
def argumentPairs (params : List String) (args : List β) : List (String × β) :=
  (params.zip args).reverse

theorem lookup_argumentPairs {params : List String} {args : List β}
    (hlen : params.length = args.length) (x : String) :
    (argumentPairs params args).lookup x = args.reverse[params.reverse.idxOf x]? := by
  rw [argumentPairs, List.zip, List.reverse_zipWith hlen]
  exact lookup_zip (by rw [List.length_reverse, List.length_reverse, hlen]) x

/-- Where no name repeats, the order does not matter. -/
theorem lookup_reverse_of_nodup {l : List (String × β)} (h : (l.map Prod.fst).Nodup) (x : String) :
    l.reverse.lookup x = l.lookup x := by
  induction l with
  | nil => rfl
  | cons b l ih =>
    rw [List.map_cons, List.nodup_cons] at h
    rw [List.reverse_cons, List.lookup_append, ih h.2]
    by_cases hx : x = b.1
    · subst hx
      rw [lookup_eq_none_of_not_mem h.1, Option.none_or, List.lookup_cons, List.lookup_cons, beq_self_eq_true]
    · have hne : (x == b.1) = false := by simpa using hx
      rw [List.lookup_cons, List.lookup_cons, hne, List.lookup_nil, Option.or_none]

theorem lookup_argumentPairs_of_nodup {params : List String} {args : List β} (h : params.Nodup)
    (hlen : params.length = args.length) (x : String) :
    (argumentPairs params args).lookup x = (params.zip args).lookup x := by
  refine lookup_reverse_of_nodup ?_ x
  rwa [List.map_fst_zip (Nat.le_of_eq hlen)]

end Lookup

/-! ### Scopes of renamings -/

namespace Scope

theorem map_fst_enter (Γ : Scope) {binders renamed : List String}
    (hlen : renamed.length = binders.length) :
    (Γ.enter binders renamed).map Prod.fst = binders.reverse ++ Γ.map Prod.fst := by
  rw [enter, List.map_append, List.map_reverse, List.map_fst_zip (Nat.le_of_eq hlen.symm)]

theorem map_snd_enter (Γ : Scope) {binders renamed : List String}
    (hlen : renamed.length = binders.length) :
    (Γ.enter binders renamed).map Prod.snd = renamed.reverse ++ Γ.map Prod.snd := by
  rw [enter, List.map_append, List.map_reverse, List.map_snd_zip (Nat.le_of_eq hlen)]

theorem resolve_mem {Γ : Scope} {x : String} (hx : x ∈ Γ.map Prod.fst) :
    Γ.resolve x ∈ Γ.map Prod.snd := by
  rw [← lookup_isSome_iff_mem] at hx
  obtain ⟨y, hy⟩ := Option.isSome_iff_exists.1 hx
  rw [resolve, hy]
  exact List.mem_map.2 ⟨(x, y), mem_of_lookup_eq_some hy, rfl⟩

theorem resolve_of_not_mem {Γ : Scope} {x : String} (hx : x ∉ Γ.map Prod.fst) : Γ.resolve x = x := by
  rw [resolve, lookup_eq_none_of_not_mem hx]
  rfl

end Scope

/-! ### Substitutions -/

namespace Substitution

theorem lookup_without (σ : Substitution) (binders : List String) (x : String) :
    (σ.without binders).lookup x = if x ∈ binders then none else σ.lookup x := by
  induction σ with
  | nil => simp [without]
  | cons b σ ih =>
    rw [without, List.filter_cons]
    by_cases hb : b.1 ∈ binders
    · have hb' : (!binders.contains b.1) = false := by simp [hb]
      rw [hb', if_neg Bool.false_ne_true, ← without, ih]
      by_cases hx : x ∈ binders
      · rw [if_pos hx, if_pos hx]
      · have hne : (x == b.1) = false := by
          simp only [beq_eq_false_iff_ne]
          rintro rfl
          exact hx hb
        rw [if_neg hx, if_neg hx, List.lookup_cons, hne]
    · have hb' : (!binders.contains b.1) = true := by simp [hb]
      rw [hb', if_pos rfl, List.lookup_cons, List.lookup_cons, ← without, ih]
      by_cases hx : x = b.1
      · subst hx
        simp [hb]
      · have hne : (x == b.1) = false := by simpa using hx
        rw [hne]

theorem without_nil (σ : Substitution) : σ.without [] = σ :=
  List.filter_eq_self.2 fun _ _ => rfl

theorem without_without (σ : Substitution) (xs ys : List String) :
    (σ.without xs).without ys = σ.without (xs ++ ys) := by
  rw [without, without, List.filter_filter, without]
  refine List.filter_congr fun b _ => ?_
  rw [List.contains_append, Bool.not_or, Bool.and_comm]

theorem lookup_zip_isSome {names : List String} {replacements : List Expr}
    (hlen : names.length = replacements.length) {x : String} :
    ((names.zip replacements).lookup x).isSome ↔ x ∈ names := by
  rw [lookup_isSome_iff_mem, List.map_fst_zip (Nat.le_of_eq hlen)]

theorem mem_of_lookup_zip {names : List String} {replacements : List Expr} {x : String} {r : Expr}
    (h : (names.zip replacements).lookup x = some r) : r ∈ replacements :=
  (List.of_mem_zip (mem_of_lookup_eq_some h)).2

end Substitution

end SubstModel

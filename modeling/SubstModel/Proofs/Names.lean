import SubstModel.Expr.Mentions
import SubstModel.Proofs.Language

/-!
# The names of an expression

All names that stand in an expression outside of its quotations, as variables or where they are bound.

* `Expr.names` — the list of them, with every place of a name;
* `Expr.mentions_iff` — the names that an expression mentions are its members;
* `Expr.length_names` — it is as long as there are places;
* `Expr.Within.name_of_mem` — the names of an expression within a language are names of the language.
-/

namespace SubstModel.Expr

mutual

/-- The names that stand in the expression, quotations apart. -/
def names : Expr → List String
  | .number _ | .boolean _ | .string _ | .primitive _ | .quoted _ => []
  | .var x => [x]
  | .cond test onTrue onFalse => names test ++ names onTrue ++ names onFalse
  | .lambda params body => params ++ namesAll body
  | .app operator operands => names operator ++ namesAll operands
  | .letIn bindings body => bindings.map Prod.fst ++ namesPairs bindings ++ namesAll body
  | .define x value => x :: names value
  | .classDef fields methods => fields ++ namesPairs methods
termination_by structural e => e

/-- The names that stand in the expressions. -/
def namesAll : List Expr → List String
  | [] => []
  | e :: es => names e ++ namesAll es
termination_by structural es => es

/-- The names that stand in the values of the bindings. -/
def namesPairs : List (String × Expr) → List String
  | [] => []
  | (_, e) :: bs => names e ++ namesPairs bs
termination_by structural bs => bs

end

mutual

theorem mentions_iff {x : String} : ∀ e : Expr, e.mentions x = true ↔ x ∈ e.names
  | .number _ | .boolean _ | .string _ | .primitive _ | .quoted _ => by simp [mentions, names]
  | .var y => by
    rw [mentions, names, beq_iff_eq, List.mem_singleton, eq_comm]
  | .cond a b c => by
    rw [mentions, names, Bool.or_eq_true, Bool.or_eq_true, mentions_iff a, mentions_iff b, mentions_iff c,
      List.mem_append, List.mem_append]
  | .lambda params body => by
    rw [mentions, names, Bool.or_eq_true, List.contains_iff_mem, mentionsAny_iff body, List.mem_append]
  | .app f es => by
    rw [mentions, names, Bool.or_eq_true, mentions_iff f, mentionsAny_iff es, List.mem_append]
  | .letIn bs body => by
    rw [mentions, names, Bool.or_eq_true, Bool.or_eq_true, List.contains_iff_mem, mentionsPairs_iff bs,
      mentionsAny_iff body, List.mem_append, List.mem_append]
  | .define y e => by
    rw [mentions, names, Bool.or_eq_true, beq_iff_eq, mentions_iff e, List.mem_cons, eq_comm]
  | .classDef fields methods => by
    rw [mentions, names, Bool.or_eq_true, List.contains_iff_mem, mentionsPairs_iff methods, List.mem_append]
termination_by structural e => e

theorem mentionsAny_iff {x : String} : ∀ es, mentionsAny x es = true ↔ x ∈ namesAll es
  | [] => by simp [mentionsAny, namesAll]
  | e :: es => by
    rw [mentionsAny, namesAll, Bool.or_eq_true, mentions_iff e, mentionsAny_iff es, List.mem_append]
termination_by structural es => es

theorem mentionsPairs_iff {x : String} : ∀ bs, mentionsPairs x bs = true ↔ x ∈ namesPairs bs
  | [] => by simp [mentionsPairs, namesPairs]
  | (_, e) :: bs => by
    rw [mentionsPairs, namesPairs, Bool.or_eq_true, mentions_iff e, mentionsPairs_iff bs, List.mem_append]
termination_by structural bs => bs

end

mutual

theorem length_names : ∀ e : Expr, e.names.length = e.nameCount
  | .number _ | .boolean _ | .string _ | .primitive _ | .quoted _ | .var _ => rfl
  | .cond a b c => by
    rw [names, List.length_append, List.length_append, length_names a, length_names b, length_names c, nameCount]
  | .lambda params body => by
    rw [names, List.length_append, length_namesAll body, nameCount]
  | .app f es => by
    rw [names, List.length_append, length_names f, length_namesAll es, nameCount]
  | .letIn bs body => by
    rw [names, List.length_append, List.length_append, List.length_map, length_namesPairs bs,
      length_namesAll body, nameCount]
  | .define x e => by
    rw [names, List.length_cons, length_names e, nameCount, Nat.add_comm]
  | .classDef fields methods => by
    rw [names, List.length_append, length_namesPairs methods, nameCount]
termination_by structural e => e

theorem length_namesAll : ∀ es, (namesAll es).length = nameCountAll es
  | [] => rfl
  | e :: es => by
    rw [namesAll, List.length_append, length_names e, length_namesAll es, nameCountAll]
termination_by structural es => es

theorem length_namesPairs : ∀ bs, (namesPairs bs).length = nameCountPairs bs
  | [] => rfl
  | (_, e) :: bs => by
    rw [namesPairs, List.length_append, length_names e, length_namesPairs bs, nameCountPairs]
termination_by structural bs => bs

end

theorem namesAll_map_snd (bs : List (String × Expr)) : namesAll (bs.map Prod.snd) = namesPairs bs := by
  induction bs with
  | nil => rfl
  | cons b bs ih => rw [List.map_cons, namesAll, ih, namesPairs]

mutual

theorem Within.name_of_mem {L : Language} {x : String} :
    ∀ (e : Expr) {scope : List String}, e.Within L scope → x ∈ e.names → L.name x
  | .number _, _, _, h | .boolean _, _, _, h | .string _, _, _, h | .primitive _, _, _, h
  | .quoted _, _, _, h => absurd h List.not_mem_nil
  | .var y, _, ⟨hy, _⟩, h => List.mem_singleton.1 h ▸ hy
  | .cond a b c, _, ⟨ha, hb, hc⟩, h => by
    rw [names, List.mem_append, List.mem_append] at h
    rcases h with (h | h) | h
    · exact Within.name_of_mem a ha h
    · exact Within.name_of_mem b hb h
    · exact Within.name_of_mem c hc h
  | .lambda params body, _, ⟨hp, _, hb⟩, h =>
    (List.mem_append.1 h).elim (hp.2 x) (Within.name_of_mem_all body hb)
  | .app f es, _, ⟨hf, hes⟩, h =>
    (List.mem_append.1 h).elim (Within.name_of_mem f hf) (Within.name_of_mem_all es hes)
  | .letIn bs body, _, ⟨_, hp, _, hbs, hb⟩, h => by
    rw [names, List.mem_append, List.mem_append] at h
    rcases h with (h | h) | h
    · exact hp.2 x h
    · exact Within.name_of_mem_pairs bs hbs h
    · exact Within.name_of_mem_all body hb h
  | .define y e, _, ⟨_, hy, he⟩, h => by
    rcases List.mem_cons.1 h with rfl | h
    · exact hy
    · exact Within.name_of_mem e he h
  | .classDef fields methods, _, ⟨_, hf, _, hm⟩, h =>
    (List.mem_append.1 h).elim (hf.2 x) (Within.name_of_mem_pairs methods hm)
termination_by structural e => e

theorem Within.name_of_mem_all {L : Language} {x : String} :
    ∀ (es : List Expr) {scope : List String}, WithinAll L scope es → x ∈ namesAll es → L.name x
  | [], _, _, h => absurd h List.not_mem_nil
  | e :: es, _, ⟨he, hes⟩, h =>
    (List.mem_append.1 h).elim (Within.name_of_mem e he) (Within.name_of_mem_all es hes)
termination_by structural es => es

theorem Within.name_of_mem_pairs {L : Language} {x : String} :
    ∀ (bs : List (String × Expr)) {scope : List String}, WithinPairs L scope bs →
      x ∈ namesPairs bs → L.name x
  | [], _, _, h => absurd h List.not_mem_nil
  | (_, e) :: bs, _, ⟨he, hbs⟩, h =>
    (List.mem_append.1 h).elim (Within.name_of_mem e he) (Within.name_of_mem_pairs bs hbs)
termination_by structural bs => bs

end

end SubstModel.Expr

import SubstModel.Interpreter
import SubstModel.Proofs.Language.Evaluation
import SubstModel.Proofs.Spelling.Expressions
import SubstModel.Proofs.Spelling.Reader

/-!
# The language of texts

What the grammar accepts, and so what an evaluation starts from: names are free of the mark `#`, the names of one list
are distinct, bodies have forms, definitions stand at the top level only, and no text spells a procedure value.
Generated names have the mark, and that keeps them apart from written ones.

* `Datum.Unmarked` — no symbol of the datum has the mark;
* `Datum.unmarked_allOfText` — **the data of a text have no symbol with the mark**;
* `IsIdentifier.no_hash` — the names that can be bound have no mark `#`;
* `Language.spelled` — the language of all that can be spelled;
* `Denotes.within`, `Program.within_ofText` — **what is read is within that language**;
* `messageName_no_hash` — neither has the name of a message the mark `#`;
* `Program.within_prepared` — replacing the classes of a program does not leave the language.
-/

namespace SubstModel

/-! ### Data without the mark -/

namespace Datum

mutual

/-- No symbol of the datum has the mark `#`. -/
def Unmarked : Datum → Prop
  | .number _ | .boolean _ | .string _ => True
  | .symbol s => '#' ∉ s.toList
  | .list ds => UnmarkedAll ds

/-- No symbol of any of the data has the mark `#`. -/
def UnmarkedAll : List Datum → Prop
  | [] => True
  | d :: ds => Unmarked d ∧ UnmarkedAll ds

end

end Datum

theorem Word.unmarked {w : List Char} {d : Datum} (h : Word w d) : d.Unmarked := by
  cases h with
  | decimal | hexadecimal | boolean => trivial
  | symbol word =>
    intro hmem
    have hsymbol : isSymbol _ = true := symbolWord_iff.1 word
    rw [not_isSymbol_of_hash hmem] at hsymbol
    cases hsymbol

mutual

/-- The symbols of a datum that is spelled are words, and the one that a quote mark stands for is made of letters. -/
theorem Spells.unmarked {cs : List Char} {d : Datum} {rest : List Char} : Spells cs d rest → d.Unmarked
  | .word word _ => word.unmarked
  | .string _ => trivial
  | .quote _ datum =>
    have hquote : '#' ∉ "quote".toList := by decide
    ⟨hquote, datum.unmarked, trivial⟩
  | .list members _ => members.unmarked

theorem SpellsAll.unmarked {cs : List Char} {ds : List Datum} {rest : List Char} :
    SpellsAll cs ds rest → Datum.UnmarkedAll ds
  | .nil => trivial
  | .cons _ datum more => ⟨datum.unmarked, more.unmarked⟩

end

/-- **The data of a text have no symbol with the mark `#`.** -/
theorem Datum.unmarked_allOfText {text : String} {ds : List Datum} (h : Datum.allOfText text = .ok ds) :
    Datum.UnmarkedAll ds := by
  obtain ⟨rest, hall, -⟩ := Datum.spells_allOfText h
  exact hall.unmarked

/-! ### Names -/

theorem IsIdentifier.no_hash {x : String} (h : IsIdentifier x) : '#' ∉ x.toList := by
  intro hmem
  have hsymbol := h.symbol
  rw [not_isSymbol_of_hash hmem] at hsymbol
  cases hsymbol

/-- What can be spelled, and what becomes of it when classes are replaced. -/
def Language.spelled : Language where
  name x := '#' ∉ x.toList
  binders := List.Nodup
  label x := '#' ∉ x.toList
  symbol x := '#' ∉ x.toList
  ref _ := False
  definitions := False
  emptyBodies := False

theorem AreBinders.binds_spelled {xs : List String} (h : AreBinders xs) : Language.spelled.Binds xs :=
  ⟨h.distinct, fun x hx => (h.identifiers x hx).no_hash⟩

/-! ### Expressions -/

mutual

theorem Value.within_ofDatum : ∀ d : Datum, d.Unmarked → (Value.ofDatum d).Within .spelled
  | .number _, _ | .boolean _, _ | .string _, _ => trivial
  | .symbol _, h => h
  | .list ds, h => Value.within_ofData ds h

theorem Value.within_ofData : ∀ ds, Datum.UnmarkedAll ds → Value.WithinAll .spelled (Value.ofData ds)
  | [], _ => trivial
  | d :: ds, ⟨hd, hds⟩ => ⟨Value.within_ofDatum d hd, Value.within_ofData ds hds⟩

end

mutual

/-- **Every expression that is denoted is within the language of what can be spelled**, by induction on the
derivation. -/
theorem Denotes.within {d : Datum} {e : Expr} {scope : List String} :
    Denotes d e → d.Unmarked → e.Within .spelled scope
  | .number _, _ | .boolean _, _ | .string _, _ | .primitive _, _ => trivial
  | .var name, _ => ⟨name.no_hash, .inr trivial⟩
  | .cond test onTrue onFalse, ⟨_, ha, hb, hc, _⟩ => ⟨test.within ha, onTrue.within hb, onFalse.within hc⟩
  | .lambda binders nonempty body, ⟨_, _, hbody⟩ =>
    ⟨binders.binds_spelled, fun hnil => nonempty hnil, body.within hbody⟩
  | .app _ operator operands, ⟨hoperator, hoperands⟩ => ⟨operator.within hoperator, operands.within hoperands⟩
  | .letIn binders nonempty bindings body, ⟨_, hpairs, hbody⟩ =>
    ⟨trivial, binders.binds_spelled, fun hnil => nonempty hnil, bindings.within hpairs, body.within hbody⟩
  | .quoted d, ⟨_, hd, _⟩ => Value.within_ofDatum d hd
  | .classDef binders names methods, ⟨_, _, hpairs, _⟩ =>
    ⟨trivial, binders.binds_spelled, List.forall_mem_map.1 fun x hx => (names.identifiers x hx).no_hash,
      methods.within hpairs⟩

theorem DenotesAll.within {ds : List Datum} {es : List Expr} {scope : List String} :
    DenotesAll ds es → Datum.UnmarkedAll ds → Expr.WithinAll .spelled scope es
  | .nil, _ => trivial
  | .cons head tail, ⟨hd, hds⟩ => ⟨head.within hd, tail.within hds⟩

theorem DenotesPairs.within {ds : List Datum} {bs : List (String × Expr)} {scope : List String} :
    DenotesPairs ds bs → Datum.UnmarkedAll ds → Expr.WithinPairs .spelled scope bs
  | .nil, _ => trivial
  | .cons _ value tail, ⟨⟨_, hd, _⟩, hds⟩ => ⟨value.within hd, tail.within hds⟩

end

/-! ### Programs -/

theorem DenotesForm.within {d : Datum} {e : Expr} (h : DenotesForm d e) (hd : d.Unmarked) :
    e.WithinForm .spelled := by
  cases h with
  | expr expr => exact (expr.within hd).form
  | define name value => exact ⟨name.no_hash, value.within hd.2.2.1⟩

theorem Datum.unmarkedAll_unwrapped {ds : List Datum} (h : Datum.UnmarkedAll ds) :
    Datum.UnmarkedAll (Program.unwrapped ds) := by
  rcases Program.unwrapped_cases ds with ⟨forms, rfl⟩ | hsame
  · rw [Program.unwrapped_program]
    exact h.1.2
  · rwa [hsame]

theorem forms_within {ds : List Datum} {es : List Expr} (h : List.Forall₂ DenotesForm ds es)
    (hds : Datum.UnmarkedAll ds) : ∀ e ∈ es, e.WithinForm .spelled := by
  induction h with
  | nil => exact fun e he => absurd he List.not_mem_nil
  | cons head _ ih => exact List.forall_mem_cons.2 ⟨head.within hds.1, ih hds.2⟩

/-- **Every form of a program that is read is within the language of what can be spelled.** -/
theorem Program.within_ofText {text : String} {p : Program} (h : Program.ofText text = .ok p) :
    ∀ e ∈ p.forms, e.WithinForm .spelled := by
  obtain ⟨ds, hds, hforms⟩ := Program.forms_of_ofText h
  exact forms_within hforms (Datum.unmarkedAll_unwrapped (Datum.unmarked_allOfText hds))

/-! ### Dispatchers -/

theorem messageCandidate_no_hash (n : Nat) : '#' ∉ (messageCandidate n).toList := by
  cases n with
  | zero => decide
  | succ n =>
    rw [messageCandidate, String.toList_ofList, List.mem_append, not_or]
    refine ⟨by decide, fun hmem => ?_⟩
    have hdigit := Nat.isDigit_of_mem_toDigits (by decide) (by decide) hmem
    revert hdigit
    decide

theorem messageName_no_hash (fields : List String) (methods : List (String × Expr)) :
    '#' ∉ (messageName fields methods).toList := by
  rw [messageName, messageName?]
  cases (List.range (candidateCount fields methods)).find? fun n =>
      isUnused fields methods (messageCandidate n) with
  | none => decide
  | some n => exact messageCandidate_no_hash n

/-- Where all that is written is a name, the name of a message can be bound. -/
theorem Language.binds_messageName {L : Language} (hbinders : ∀ x, L.binders [x])
    (hname : ∀ {x : String}, '#' ∉ x.toList → L.name x) (fields : List String) (methods : List (String × Expr)) :
    L.Binds [messageName fields methods] := by
  refine ⟨hbinders _, fun x hx => ?_⟩
  rw [List.mem_singleton.1 hx]
  exact hname (messageName_no_hash fields methods)

theorem Language.spelled_hasDispatchers : Language.spelled.HasDispatchers where
  identical := trivial
  symbol := id
  message := Language.binds_messageName List.nodup_singleton id

theorem Expr.WithinForm.replaceClasses {L M : Language} (hLM : L.Dispatches M) {e : Expr}
    (h : e.WithinForm L) : e.withoutClasses.WithinForm M := by
  cases e with
  | define x value => exact ⟨hLM.sub.name h.1, Expr.Within.replaceClasses hLM value h.2⟩
  | _ => exact (Expr.Within.replaceClasses hLM _ h).form

theorem Expr.withoutClassesAll_eq_map (es : List Expr) :
    Expr.withoutClassesAll es = es.map Expr.withoutClasses := by
  induction es with
  | nil => rfl
  | cons e es ih => rw [Expr.withoutClassesAll, ih, List.map_cons]

/-- **A program as it is evaluated is within the languages that the program is within.** -/
theorem Program.within_prepared {L : Language} (hL : L.HasDispatchers) (config : Config) {p : Program}
    (h : ∀ e ∈ p.forms, e.WithinForm L) : ∀ e ∈ (p.prepared config).forms, e.WithinForm L := by
  rw [Program.prepared]
  cases config.classes with
  | objects => exact h
  | dispatchers =>
    show ∀ e ∈ Expr.withoutClassesAll p.forms, e.WithinForm L
    rw [Expr.withoutClassesAll_eq_map, List.forall_mem_map]
    exact fun e he => (h e he).replaceClasses hL.dispatches

theorem Expr.WithinForm.withoutClasses_eq {L : Language} (hL : ¬ L.classes) {e : Expr}
    (h : e.WithinForm L) : e.withoutClasses = e := by
  cases e with
  | define x value => rw [Expr.withoutClasses, Expr.withoutClasses_of_within hL value h.2]
  | _ =>
    have hexpr : Expr.Within L [] _ := h
    exact Expr.withoutClasses_of_within hL _ hexpr

/-- A program without classes is evaluated as it is. -/
theorem Program.prepared_of_within {L : Language} (hL : ¬ L.classes) (config : Config) {p : Program}
    (h : ∀ e ∈ p.forms, e.WithinForm L) : p.prepared config = p := by
  rw [Program.prepared]
  cases config.classes with
  | objects => rfl
  | dispatchers =>
    have hforms : p.forms.map Expr.withoutClasses = p.forms.map id :=
      List.map_congr_left fun e he => (h e he).withoutClasses_eq hL
    show Program.mk (Expr.withoutClassesAll p.forms) = p
    rw [Expr.withoutClassesAll_eq_map, hforms, List.map_id]

end SubstModel

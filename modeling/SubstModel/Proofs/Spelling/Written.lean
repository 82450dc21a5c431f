import SubstModel.Proofs.Number
import SubstModel.Proofs.Spelling.Words

/-!
# Written forms — the writer keeps to the grammar

What is written can be read back, whatever it stands in front of, as long as a word may end there.  Numbers that are not
finite are written as words that spell symbols, so a datum is not always read back as it was.

* `SpelledAs` — a written form spells a datum in front of everything that ends a word;
* `spelledAs_quoted`, `spelledAs_quote`, `spelledAs_form` — string literals, quote marks and lists;
* `Datum.Readable` — the symbols of a datum can be read, and its numbers are read back;
* `Datum.respelled` — the datum that the written form of a datum spells;
* `Datum.spelledAs_written` — **the written form of a datum spells its respelling**;
* `Spells.readable`, `Spells.isNumber` — what is spelled is readable, with numbers that are not undefined.
-/

namespace SubstModel

/-- In front of everything that ends a word, the written form spells the datum. -/
def SpelledAs (w : List Char) (d : Datum) : Prop :=
  ∀ rest, WordEnds rest → Spells (w ++ rest) d rest

theorem Word.spelledAs {w : List Char} {d : Datum} (h : Word w d) : SpelledAs w d :=
  fun _ ends => .word h ends

/-! ### Strings and quotes -/

theorem literal_escaped (s rest : List Char) : Literal (Text.escaped s ++ '"' :: rest) s rest := by
  induction s with
  | nil => exact .close
  | cons c s ih =>
    rw [Text.escaped, List.flatMap_cons, ← Text.escaped]
    cases hc : Text.escape c with
    | some e => exact .escape (escape_iff.2 (Text.unescape_eq_some_iff.2 hc)) ih
    | none =>
      refine .plain ?_ ?_ ih
      · rintro rfl
        cases hc
      · rintro rfl
        cases hc

theorem spelledAs_quoted (s : String) : SpelledAs (Text.quoted s) (.string s) := by
  intro rest _
  have hliteral := Spells.string (literal_escaped s.toList rest)
  rw [String.ofList_toList] at hliteral
  simpa [Text.quoted] using hliteral

theorem spelledAs_boolWord (b : Bool) : SpelledAs (boolWord b) (.boolean b) := by
  cases b with
  | true => exact Word.spelledAs (.boolean .t)
  | false => exact Word.spelledAs (.boolean .f)

theorem spelledAs_symbol {s : String} (h : isSymbol s = true) : SpelledAs s.toList (.symbol s) :=
  Word.spelledAs (.symbol (symbolWord_iff.2 h))

/-- A quote mark stands directly in front of what it quotes. -/
theorem spelledAs_quote {w : List Char} {d : Datum} (h : SpelledAs w d) :
    SpelledAs (Text.quoteMark :: w) (.list [.symbol Keyword.quote.name, d]) :=
  fun rest ends => .quote .nothing (h rest ends)

/-! ### Lists -/

theorem wordEnds_cons {c : Char} (h : Text.isDelimiter c = true) (rest : List Char) : WordEnds (c :: rest) := by
  rintro _ ⟨⟩
  exact delimiter_iff.2 h

/-- A space in front of data is skipped. -/
theorem SpellsAll.space {cs rest : List Char} {d : Datum} {ds : List Datum} (h : SpellsAll cs (d :: ds) rest) :
    SpellsAll (' ' :: cs) (d :: ds) rest := by
  cases h with
  | cons separates datum more => exact .cons (.blank .space separates) datum more

theorem spellsAll_spaced {ws : List (List Char)} {ds : List Datum} (h : List.Forall₂ SpelledAs ws ds)
    (rest : List Char) : SpellsAll (spaced ws ++ ')' :: rest) ds (')' :: rest) := by
  induction h with
  | nil => exact .nil
  | @cons w d ws ds hw hws ih =>
    cases hws with
    | nil => exact .cons .nothing (hw _ (wordEnds_cons (by decide) rest)) .nil
    | @cons w' d' ws ds hw' hws =>
      rw [spaced, List.append_assoc, List.cons_append]
      · exact .cons .nothing (hw _ (wordEnds_cons (by decide) _)) ih.space
      · simp

/-- Written forms with spaces between them and parentheses around them spell a list. -/
theorem spelledAs_form {ws : List (List Char)} {ds : List Datum} (h : List.Forall₂ SpelledAs ws ds) :
    SpelledAs (form ws) (.list ds) := by
  intro rest _
  have hlist := Spells.list (spellsAll_spaced h rest) .nothing
  simpa [form] using hlist

/-- A row of words inside a row of words makes one row. -/
theorem spaced_append {ws : List (List Char)} (vs : List (List Char)) (h : ws ≠ []) :
    spaced (vs ++ [spaced ws]) = spaced (vs ++ ws) := by
  induction vs with
  | nil => rfl
  | cons v vs ih =>
    rw [List.cons_append, List.cons_append, spaced, spaced, ih]
    · simp [h]
    · simp

/-! ### Data -/

/-- The number is neither infinite nor undefined. -/
def Number.isFinite (x : Float) : Bool :=
  match magnitude x with
  | .zero | .finite _ => true
  | .infinite | .undefined => false

/-- What is no finite number is written as one of three words. -/
theorem Number.text_of_not_finite {x : Float} (h : isFinite x = false) : text x ∈ ["inf", "-inf", "NaN"] := by
  cases hx : magnitude x with
  | zero | finite => simp only [isFinite, hx, Bool.true_eq_false] at h
  | infinite =>
    simp only [text, written, hx]
    cases isNegative x <;> decide
  | undefined =>
    simp only [text, written, hx]
    decide

/-- Each of the three words is a symbol. -/
theorem Number.isSymbol_text {x : Float} (h : isFinite x = false) : isSymbol (text x) = true := by
  have hwords : ∀ s ∈ ["inf", "-inf", "NaN"], isSymbol s = true := by decide
  exact hwords _ (text_of_not_finite h)

namespace Datum

mutual

/-- The numbers of a datum, in their order. -/
def numbers : Datum → List Float
  | .number x => [x]
  | .boolean _ | .string _ | .symbol _ => []
  | .list ds => numbersAll ds

/-- The numbers of several data. -/
def numbersAll : List Datum → List Float
  | [] => []
  | d :: ds => numbers d ++ numbersAll ds

end

theorem numbers_quote (s : String) (d : Datum) : (Datum.list [.symbol s, d]).numbers = d.numbers := by
  simp [numbers, numbersAll]

mutual

/-- The symbols of the datum can be read, and its finite numbers are read back as they are. -/
def Readable : Datum → Prop
  | .number x => Number.isFinite x = true → Number.ofWord? (Number.written x) = some x
  | .boolean _ | .string _ => True
  | .symbol s => isSymbol s = true
  | .list ds => ReadableAll ds

/-- The same for several data. -/
def ReadableAll : List Datum → Prop
  | [] => True
  | d :: ds => Readable d ∧ ReadableAll ds

end

mutual

/-- The datum that the written form of a datum spells: what is no finite number becomes a symbol. -/
def respelled : Datum → Datum
  | .number x => if Number.isFinite x then .number x else .symbol (Number.text x)
  | .boolean b => .boolean b
  | .string s => .string s
  | .symbol s => .symbol s
  | .list ds => .list (respelledAll ds)

/-- The same for several data. -/
def respelledAll : List Datum → List Datum
  | [] => []
  | d :: ds => respelled d :: respelledAll ds

end

/-- A number is written as a word that spells its respelling. -/
theorem spelledAs_number {x : Float} (h : (Datum.number x).Readable) :
    SpelledAs (Number.written x) (Datum.number x).respelled := by
  rw [respelled]
  split
  · next hfinite => exact Word.spelledAs (ofWord?_eq_some_iff.1 (by simp only [ofWord?, h hfinite]))
  · next hfinite =>
    have hsymbol := spelledAs_symbol (Number.isSymbol_text (Bool.eq_false_iff.2 hfinite))
    rwa [Number.text, String.toList_ofList] at hsymbol

mutual

/-- **The written form of a datum spells its respelling.** -/
theorem spelledAs_written : ∀ d : Datum, d.Readable → SpelledAs d.written d.respelled
  | .number _, h => spelledAs_number h
  | .boolean b, _ => spelledAs_boolWord b
  | .string s, _ => spelledAs_quoted s
  | .symbol _, h => spelledAs_symbol h
  | .list ds, h => spelledAs_form (spelledAs_writtenAll ds h)

theorem spelledAs_writtenAll : ∀ ds, ReadableAll ds → List.Forall₂ SpelledAs (writtenAll ds) (respelledAll ds)
  | [], _ => .nil
  | d :: ds, ⟨hd, hds⟩ => .cons (spelledAs_written d hd) (spelledAs_writtenAll ds hds)

end

mutual

/-- The respelling is as deep. -/
theorem depth_respelled : ∀ d : Datum, d.respelled.depth = d.depth
  | .number x => by
    rw [respelled]
    split <;> rfl
  | .boolean _ | .string _ | .symbol _ => rfl
  | .list ds => depthAll_respelled ds

theorem depthAll_respelled : ∀ ds, depthAll (respelledAll ds) = depthAll ds
  | [] => rfl
  | d :: ds => congrArg₂ (fun m n => max (m + 1) n) (depth_respelled d) (depthAll_respelled ds)

end

end Datum

/-! ### What is read is readable -/

mutual

/-- What is spelled is readable, if its finite numbers are read back. -/
theorem Spells.readable {cs : List Char} {d : Datum} {rest : List Char} :
    Spells cs d rest → (∀ x ∈ d.numbers, (Datum.number x).Readable) → d.Readable
  | .word word _, hnumbers => by
    cases word with
    | decimal | hexadecimal => exact hnumbers _ (List.mem_singleton_self _)
    | boolean => exact trivial
    | symbol word => exact symbolWord_iff.1 word
  | .string _, _ => trivial
  | .quote _ datum, hnumbers => by
    have hquote : isSymbol "quote" = true := by decide
    rw [Datum.numbers_quote] at hnumbers
    exact ⟨hquote, datum.readable hnumbers, trivial⟩
  | .list members _, hnumbers => members.readable hnumbers

theorem SpellsAll.readable {cs : List Char} {ds : List Datum} {rest : List Char} :
    SpellsAll cs ds rest → (∀ x ∈ Datum.numbersAll ds, (Datum.number x).Readable) → Datum.ReadableAll ds
  | .nil, _ => trivial
  | .cons _ datum more, hnumbers =>
    ⟨datum.readable fun x hx => hnumbers x (List.mem_append_left _ hx),
      more.readable fun x hx => hnumbers x (List.mem_append_right _ hx)⟩

end

mutual

/-- A number that is spelled is not undefined. -/
theorem Spells.isNumber {cs : List Char} {d : Datum} {rest : List Char} {x : Float} :
    Spells cs d rest → x ∈ d.numbers → Number.IsNumber x
  | .word word _, hx => by
    cases word with
    | decimal word =>
      rw [List.mem_singleton.1 hx]
      exact Number.isNumber_ofWord? (Number.ofWord?_eq_some_iff.2 (.inl word))
    | hexadecimal word =>
      rw [List.mem_singleton.1 hx]
      exact Number.isNumber_ofWord? (Number.ofWord?_eq_some_iff.2 (.inr word))
    | boolean | symbol => cases hx
  | .string _, hx => by cases hx
  | .quote _ datum, hx => by
    rw [Datum.numbers_quote] at hx
    exact datum.isNumber hx
  | .list members _, hx => members.isNumber hx

theorem SpellsAll.isNumber {cs : List Char} {ds : List Datum} {rest : List Char} {x : Float} :
    SpellsAll cs ds rest → x ∈ Datum.numbersAll ds → Number.IsNumber x
  | .nil, hx => by cases hx
  | .cons _ datum more, hx => (List.mem_append.1 hx).elim datum.isNumber more.isNumber

end

end SubstModel

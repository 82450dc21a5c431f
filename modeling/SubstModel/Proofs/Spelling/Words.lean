import Mathlib.Data.List.TakeWhile
import SubstModel.Proofs.Spelling

/-!
# Words — what the reader makes of a word

The reader tries one kind of word after the other.  No word is of two kinds, so the order decides nothing: a word spells
a datum exactly when the reader finds that datum.

* `blank_iff`, `delimiter_iff`, `Number.hexDigit?_eq_some_iff`, `symbolWord_iff` — the reader's classes of characters,
  its digits and its symbols are those of the grammar;
* `takeWhile_before`, `dropWhile_before` — a run of characters up to the first one of another kind;
* `Number.ofDecimal?_eq_some_iff`, `Number.ofHexadecimal?_eq_some_iff` — numbers;
* `Word.not_isDelimiter`, `Word.word_eq` — a word ends where a delimiter stands;
* `Datum.ofWord?_eq_some_iff` — **the reader knows exactly the words of the grammar**;
* `escape_iff` — the five escapes;
* `Datum.separates_skip`, `Separates.skip_eq` — what it skips is the longest separator.
-/

namespace SubstModel

/-! ### Characters -/

theorem blank_iff {c : Char} : Blank c ↔ Text.isBlank c = true := by
  constructor
  · rintro (_ | _ | _ | _) <;> rfl
  · intro h
    simp only [Text.isBlank, Bool.or_eq_true, beq_iff_eq] at h
    rcases h with ((rfl | rfl) | rfl) | rfl
    exacts [.space, .tab, .carriageReturn, .lineFeed]

theorem Text.mem_of_inRanges {ranges : List (Nat × Nat)} {n : Nat} (h : inRanges ranges n = true) :
    n ∈ ranges.flatMap fun r => List.range' r.1 (r.2 + 1 - r.1) := by
  obtain ⟨⟨low, high⟩, hmem, hn⟩ := List.any_eq_true.1 h
  simp only [Bool.and_eq_true, decide_eq_true_eq] at hn
  refine List.mem_flatMap.2 ⟨_, hmem, List.mem_range'_1.2 ?_⟩
  show low ≤ n ∧ n < low + (high + 1 - low)
  omega

/-- The ranges of white space hold just the code points of white space. -/
theorem mem_whiteSpacePoints_iff {c : Char} : c.toNat ∈ whiteSpacePoints ↔ Text.isWhiteSpace c = true := by
  have hpoints : (Text.whiteSpaceRanges.flatMap fun r => List.range' r.1 (r.2 + 1 - r.1)) = whiteSpacePoints := by
    decide
  constructor
  · intro h
    have hall : ∀ n ∈ whiteSpacePoints, Text.inRanges Text.whiteSpaceRanges n = true := by decide
    exact hall _ h
  · intro h
    rw [← hpoints]
    exact Text.mem_of_inRanges h

theorem delimiter_iff {c : Char} : Delimiter c ↔ Text.isDelimiter c = true := by
  constructor
  · intro h
    cases h with
    | whiteSpace point => simp [Text.isDelimiter, mem_whiteSpacePoints_iff.1 point]
    | opening | closing | quote | comment | string => decide
  · intro h
    simp only [Text.isDelimiter, Bool.or_eq_true, beq_iff_eq] at h
    rcases h with ((((hspace | rfl) | rfl) | rfl) | rfl) | rfl
    exacts [.whiteSpace (mem_whiteSpacePoints_iff.2 hspace), .opening, .closing, .quote, .comment, .string]

/-- A digit of base 16 is a basic Latin character. -/
theorem Number.toNat_lt_of_hexDigit? {c : Char} {n : Nat} (h : hexDigit? c = some n) : c.toNat < 0x80 := by
  have hle : ∀ {low high : Char}, low ≤ c ∧ c ≤ high → c.toNat ≤ high.toNat := fun hc => hc.2
  rw [hexDigit?] at h
  split at h
  · next hdigit => exact Nat.lt_of_le_of_lt (hle hdigit) (by decide)
  split at h
  · next hsmall => exact Nat.lt_of_le_of_lt (hle hsmall) (by decide)
  split at h
  · next hcapital => exact Nat.lt_of_le_of_lt (hle hcapital) (by decide)
  · cases h

/-- **The reader knows exactly the digits of base 16, and makes of them what they are worth.** -/
theorem Number.hexDigit?_eq_some_iff {c : Char} {n : Nat} : hexDigit? c = some n ↔ HexDigit c n := by
  constructor
  · intro h
    -- Among the basic Latin characters the table says it all.
    have hlatin : ∀ k < 0x80, (hexDigit? (Char.ofNat k)).all fun n => (Char.ofNat k, n) ∈ hexDigitValues := by decide
    have hall := hlatin c.toNat (toNat_lt_of_hexDigit? h)
    rw [Char.ofNat_toNat, h] at hall
    simpa [HexDigit] using hall
  · intro h
    have hall : ∀ d ∈ hexDigitValues, hexDigit? d.1 = some d.2 := by decide
    exact hall _ h

theorem isSymbolChar_iff {c : Char} : isSymbolChar c = true ↔ Text.isAlphanumeric c = true ∨ c ∈ wordMarks := by
  rw [isSymbolChar, Bool.or_eq_true, List.contains_iff_mem]
  rfl

theorem startsNumber_eq_false_iff {cs : List Char} : startsNumber cs = false ↔
    (∀ c rest, cs = c :: rest → c.isDigit = false) ∧
      ∀ c d rest, cs = c :: d :: rest → c = '+' ∨ c = '-' → d.isDigit = false ∧ d ≠ '.' := by
  match cs with
  | [] | [c] => simp [startsNumber]
  | c :: d :: rest =>
    simp only [startsNumber, Bool.or_eq_false_iff, Bool.and_eq_false_imp, Bool.or_eq_true, beq_iff_eq]
    constructor
    · rintro ⟨hdigit, hsign⟩
      refine ⟨?_, ?_⟩
      · rintro c' rest' ⟨⟩
        exact hdigit
      · rintro c' d' rest' ⟨⟩ hc
        obtain ⟨hd, hpoint⟩ := hsign hc.symm
        exact ⟨hd, beq_eq_false_iff_ne.1 hpoint⟩
    · rintro ⟨hdigit, hsign⟩
      refine ⟨hdigit c _ rfl, fun hc => ?_⟩
      obtain ⟨hd, hpoint⟩ := hsign c d rest rfl hc.symm
      exact ⟨hd, beq_eq_false_iff_ne.2 hpoint⟩

/-- **The symbols of the reader are those of the grammar.** -/
theorem symbolWord_iff {cs : List Char} : SymbolWord cs ↔ isSymbolWord cs = true := by
  simp only [isSymbolWord, Bool.and_eq_true, Bool.not_eq_true', List.all_eq_true, isSymbolChar_iff,
    startsNumber_eq_false_iff, List.isEmpty_eq_false_iff]
  constructor
  · intro h
    exact ⟨⟨h.nonempty, h.noDigit, h.noSign⟩, h.characters⟩
  · rintro ⟨⟨hnonempty, hdigit, hsign⟩, hall⟩
    exact ⟨hnonempty, hall, hdigit, hsign⟩

/-! ### Runs of characters -/

section Runs

variable {α : Type} {p : α → Bool} {as bs : List α}

theorem takeWhile_before (has : ∀ a ∈ as, p a = true) (hbs : ∀ b ∈ bs.head?, p b = false) :
    (as ++ bs).takeWhile p = as := by
  rw [List.takeWhile_append_of_pos has]
  cases bs with
  | nil => rw [List.takeWhile_nil, List.append_nil]
  | cons b bs => rw [List.takeWhile_cons_of_neg (by simp [hbs b rfl]), List.append_nil]

theorem dropWhile_before (has : ∀ a ∈ as, p a = true) (hbs : ∀ b ∈ bs.head?, p b = false) :
    (as ++ bs).dropWhile p = bs := by
  rw [List.dropWhile_append_of_pos has]
  cases bs with
  | nil => rw [List.dropWhile_nil]
  | cons b bs => rw [List.dropWhile_cons_of_neg (by simp [hbs b rfl])]

end Runs

/-! ### Decimal words -/

theorem UnsignedWord.exists_digit {cs : List Char} {x : Float} (h : UnsignedWord cs x) :
    ∃ c rest, cs = c :: rest ∧ c.isDigit = true := by
  cases h with
  | whole nonempty digits =>
    obtain ⟨c, rest, rfl⟩ := List.exists_cons_of_ne_nil nonempty
    exact ⟨c, rest, rfl, digits c List.mem_cons_self⟩
  | fraction nonempty digits _ =>
    obtain ⟨c, rest, rfl⟩ := List.exists_cons_of_ne_nil nonempty
    exact ⟨c, _, rfl, digits c List.mem_cons_self⟩

namespace Number

theorem ofDigits_nil (ds : List Char) : ofDigits ds [] = Float.ofScientific (Nat.ofDigitChars 10 ds 0) true 0 := by
  rw [ofDigits, List.append_nil, List.length_nil]

theorem ofUnsigned?_eq_some_iff {cs : List Char} {x : Float} : ofUnsigned? cs = some x ↔ UnsignedWord cs x := by
  constructor
  · intro h
    have hdigits : ∀ c ∈ cs.takeWhile Char.isDigit, c.isDigit = true := fun c hc => List.mem_takeWhile_imp hc
    have hsplit := List.takeWhile_append_dropWhile (p := Char.isDigit) (l := cs)
    simp only [ofUnsigned?, List.isEmpty_iff] at h
    split at h
    · cases h
    · next hne =>
      split at h
      · next hrest =>
        rw [hrest, List.append_nil] at hsplit
        cases h
        rw [hsplit] at hne hdigits ⊢
        rw [ofDigits_nil]
        exact .whole hne hdigits
      · next fraction hrest =>
        rw [hrest] at hsplit
        split at h
        · next hplaces =>
          cases h
          conv => arg 1; rw [← hsplit]
          exact .fraction hne hdigits (List.all_eq_true.1 hplaces)
        · cases h
      · cases h
  · intro h
    cases h with
    | whole nonempty digits =>
      have htake : (cs ++ []).takeWhile Char.isDigit = cs := takeWhile_before digits nofun
      have hdrop : (cs ++ []).dropWhile Char.isDigit = [] := dropWhile_before digits nofun
      rw [List.append_nil] at htake hdrop
      simp only [ofUnsigned?, htake, hdrop, List.isEmpty_iff, if_neg nonempty, ofDigits_nil]
    | @fraction ds fs nonempty digits places =>
      have hpoint : ∀ c ∈ ('.' :: fs).head?, c.isDigit = false := by
        rintro c ⟨⟩
        rfl
      simp only [ofUnsigned?, takeWhile_before digits hpoint, dropWhile_before digits hpoint, List.isEmpty_iff,
        if_neg nonempty, List.all_eq_true.2 places, if_true, ofDigits]

theorem ofDecimal?_eq_some_iff {cs : List Char} {x : Float} : ofDecimal? cs = some x ↔ DecimalWord cs x := by
  constructor
  · intro h
    unfold ofDecimal? at h
    split at h
    · exact .plus (ofUnsigned?_eq_some_iff.1 h)
    · obtain ⟨y, hy, rfl⟩ := Option.map_eq_some_iff.1 h
      exact .minus (ofUnsigned?_eq_some_iff.1 hy)
    · exact .unsigned (ofUnsigned?_eq_some_iff.1 h)
  · intro h
    cases h with
    | unsigned magnitude =>
      obtain ⟨c, rest, rfl, hc⟩ := magnitude.exists_digit
      have hplus : c ≠ '+' := by rintro rfl; cases hc
      have hminus : c ≠ '-' := by rintro rfl; cases hc
      rw [← ofUnsigned?_eq_some_iff] at magnitude
      unfold ofDecimal?
      split
      · next heq => exact absurd (List.cons.inj heq).1 hplus
      · next heq => exact absurd (List.cons.inj heq).1 hminus
      · exact magnitude
    | plus magnitude => exact ofUnsigned?_eq_some_iff.2 magnitude
    | minus magnitude => exact Option.map_eq_some_iff.2 ⟨_, ofUnsigned?_eq_some_iff.2 magnitude, rfl⟩

/-! ### Hexadecimal words -/

theorem foldlM_hexDigits_eq_some_iff {cs : List Char} {k n : Nat} :
    cs.foldlM (fun n c => (hexDigit? c).map (16 * n + ·)) k = some n ↔
      ∃ values, List.Forall₂ (fun c v => hexDigit? c = some v) cs values ∧
        values.foldl (fun n v => 16 * n + v) k = n := by
  induction cs generalizing k with
  | nil => simp
  | cons c cs ih =>
    rw [List.foldlM_cons]
    cases hc : hexDigit? c with
    | none =>
      constructor
      · nofun
      · rintro ⟨_, h, -⟩
        cases h with
        | cons hv _ => rw [hc] at hv; cases hv
    | some v =>
      refine Iff.trans ih ⟨?_, ?_⟩
      · rintro ⟨values, hvalues, rfl⟩
        exact ⟨v :: values, .cons hc hvalues, rfl⟩
      · rintro ⟨_, h, rfl⟩
        cases h with
        | cons hv hvalues =>
          cases hc.symm.trans hv
          exact ⟨_, hvalues, rfl⟩

/-- Digits that are taken in from the left are the digits of a positional number. -/
theorem foldl_digits (values : List Nat) :
    values.foldl (fun n v => 16 * n + v) 0 = Nat.ofDigits 16 values.reverse := by
  rw [Nat.ofDigits_eq_foldr, List.foldr_reverse]
  congr 1
  funext n v
  exact Nat.add_comm _ _

theorem hexValue?_eq_some_iff {cs : List Char} {n : Nat} :
    hexValue? cs = some n ↔ ∃ values, List.Forall₂ HexDigit cs values ∧ Nat.ofDigits 16 values.reverse = n := by
  simp only [hexValue?, foldlM_hexDigits_eq_some_iff, foldl_digits, hexDigit?_eq_some_iff]

theorem ofHexadecimal?_eq_some_iff {cs : List Char} {x : Float} :
    ofHexadecimal? cs = some x ↔ HexadecimalWord cs x := by
  constructor
  · intro h
    unfold ofHexadecimal? at h
    split at h
    · next base c cs =>
      split at h
      · next hbase =>
        split at h
        · next n hn =>
          obtain ⟨values, hvalues, rfl⟩ := hexValue?_eq_some_iff.1 hn
          split at h
          · next hfits =>
            cases h
            exact .digits hbase (List.cons_ne_nil c cs) hvalues hfits
          · cases h
        · cases h
      · cases h
    · cases h
  · rintro ⟨hbase, hne, hvalues, hfits⟩
    obtain ⟨c, cs, rfl⟩ := List.exists_cons_of_ne_nil hne
    have hn := hexValue?_eq_some_iff.2 ⟨_, hvalues, rfl⟩
    simp only [ofHexadecimal?, hn, if_pos hbase]
    exact if_pos hfits

end Number

/-! ### One kind for each word -/

theorem HexadecimalWord.hash {cs : List Char} {x : Float} (h : HexadecimalWord cs x) : cs.head? = some '#' := by
  cases h
  rfl

theorem TruthWord.hash {cs : List Char} {b : Bool} (h : TruthWord cs b) : cs.head? = some '#' := by
  cases h <;> rfl

/-- A decimal word starts as no symbol does. -/
theorem DecimalWord.startsNumber {cs : List Char} {x : Float} (h : DecimalWord cs x) : startsNumber cs = true := by
  cases h with
  | unsigned magnitude =>
    obtain ⟨c, rest, rfl, hc⟩ := magnitude.exists_digit
    cases rest <;> simp [SubstModel.startsNumber, hc]
  | plus magnitude | minus magnitude =>
    obtain ⟨c, rest, rfl, hc⟩ := magnitude.exists_digit
    simp [SubstModel.startsNumber, hc]

theorem DecimalWord.no_hash {cs : List Char} {x : Float} (h : DecimalWord cs x) : cs.head? ≠ some '#' := by
  cases h with
  | unsigned magnitude =>
    obtain ⟨c, rest, rfl, hc⟩ := magnitude.exists_digit
    rintro ⟨⟩
    cases hc
  | plus | minus => simp

theorem isSymbolWord_no_hash {cs : List Char} (h : isSymbolWord cs = true) : cs.head? ≠ some '#' := by
  intro hhash
  have hall : cs.all isSymbolChar = true := by
    simp only [isSymbolWord, Bool.and_eq_true] at h
    exact h.2
  have hchar := List.all_eq_true.1 hall '#' (List.mem_of_head? hhash)
  rw [not_isSymbolChar_hash] at hchar
  cases hchar

theorem not_decimal_of_symbol {cs : List Char} (h : isSymbolWord cs = true) (x : Float) : ¬DecimalWord cs x := by
  intro hx
  simp [isSymbolWord, hx.startsNumber] at h

theorem TruthWord.not_hexadecimal {cs : List Char} {b : Bool} (h : TruthWord cs b) (x : Float) :
    ¬HexadecimalWord cs x := by
  intro hx
  cases h <;> cases hx <;> simp_all

namespace Number

theorem ofWord?_eq_some_iff {cs : List Char} {x : Float} :
    ofWord? cs = some x ↔ DecimalWord cs x ∨ HexadecimalWord cs x := by
  rw [ofWord?, ← ofDecimal?_eq_some_iff, ← ofHexadecimal?_eq_some_iff]
  cases hx : ofHexadecimal? cs with
  | none => simp
  | some y =>
    have hhash := (ofHexadecimal?_eq_some_iff.1 hx).hash
    have hdecimal : ofDecimal? cs ≠ some x := fun h => (ofDecimal?_eq_some_iff.1 h).no_hash hhash
    simp [hdecimal]

theorem ofWord?_eq_none_iff {cs : List Char} :
    ofWord? cs = none ↔ ∀ x, ¬DecimalWord cs x ∧ ¬HexadecimalWord cs x := by
  simp only [Option.eq_none_iff_forall_ne_some, ne_eq, ofWord?_eq_some_iff, not_or]

end Number

namespace Datum

theorem boolOfWord?_eq_some_iff {cs : List Char} {b : Bool} : boolOfWord? cs = some b ↔ TruthWord cs b := by
  constructor
  · intro h
    unfold boolOfWord? at h
    split at h
    · next ht =>
      cases h
      rcases ht with rfl | rfl
      exacts [.t, .true]
    · split at h
      · next hf =>
        cases h
        rcases hf with rfl | rfl
        exacts [.f, .false]
      · cases h
  · intro h
    cases h <;> rfl

theorem boolOfWord?_eq_none_iff {cs : List Char} : boolOfWord? cs = none ↔ ∀ b, ¬TruthWord cs b := by
  simp only [Option.eq_none_iff_forall_ne_some, ne_eq, boolOfWord?_eq_some_iff]

/-- **The reader knows exactly the words of the grammar, and makes of them what they spell.** -/
theorem ofWord?_eq_some_iff {cs : List Char} {d : Datum} : ofWord? cs = some d ↔ Word cs d := by
  constructor
  · intro h
    unfold ofWord? at h
    split at h
    · next x hx =>
      cases h
      rcases Number.ofWord?_eq_some_iff.1 hx with hword | hword
      exacts [.decimal hword, .hexadecimal hword]
    · split at h
      · next b hb =>
        cases h
        exact .boolean (boolOfWord?_eq_some_iff.1 hb)
      · split at h
        · next hsymbol =>
          cases h
          rw [← String.toList_ofList (l := cs)] at hsymbol
          have hword := Word.symbol (symbolWord_iff.2 hsymbol)
          rwa [String.toList_ofList] at hword
        · cases h
  · intro h
    cases h with
    | decimal word =>
      have hx := Number.ofWord?_eq_some_iff.2 (.inl word)
      simp only [ofWord?, hx]
    | hexadecimal word =>
      have hx := Number.ofWord?_eq_some_iff.2 (.inr word)
      simp only [ofWord?, hx]
    | boolean word =>
      have hx := Number.ofWord?_eq_none_iff.2 fun x =>
        ⟨fun hd => hd.no_hash word.hash, word.not_hexadecimal x⟩
      simp only [ofWord?, hx, boolOfWord?_eq_some_iff.2 word]
    | @symbol s word =>
      have hsymbol := symbolWord_iff.1 word
      have hhash := isSymbolWord_no_hash hsymbol
      have hx := Number.ofWord?_eq_none_iff.2 fun x =>
        ⟨not_decimal_of_symbol hsymbol x, fun hh => hhash hh.hash⟩
      have hb := boolOfWord?_eq_none_iff.2 fun b hb => hhash hb.hash
      simp only [ofWord?, hx, hb, hsymbol, if_true, String.ofList_toList]

end Datum

/-! ### Where a word ends -/

namespace Text

/-- No white space is alphanumeric or a mark: the two tables of characters have no code point in common. -/
theorem not_isSymbolChar_of_isWhiteSpace {c : Char} (h : isWhiteSpace c = true) : isSymbolChar c = false := by
  have hspaces : ∀ n ∈ whiteSpacePoints, isSymbolChar (Char.ofNat n) = false := by decide +kernel
  have hc := hspaces c.toNat (mem_whiteSpacePoints_iff.2 h)
  rwa [Char.ofNat_toNat] at hc

theorem not_isDelimiter_of_isSymbolChar {c : Char} (h : isSymbolChar c = true) : isDelimiter c = false := by
  rw [Bool.eq_false_iff]
  intro hdelimiter
  have hchar : isSymbolChar c = false := by
    simp only [isDelimiter, Bool.or_eq_true, beq_iff_eq] at hdelimiter
    rcases hdelimiter with ((((hspace | rfl) | rfl) | rfl) | rfl) | rfl
    · exact not_isSymbolChar_of_isWhiteSpace hspace
    all_goals decide
  rw [h] at hchar
  cases hchar

/-- The basic Latin digits and letters by their code points. -/
theorem isAlphanum_iff {c : Char} : c.isAlphanum = true ↔
    48 ≤ c.toNat ∧ c.toNat ≤ 57 ∨ 65 ≤ c.toNat ∧ c.toNat ≤ 90 ∨ 97 ≤ c.toNat ∧ c.toNat ≤ 122 := by
  show (decide (65 ≤ c.toNat ∧ c.toNat ≤ 90) || (decide (97 ≤ c.toNat) && decide (c.toNat ≤ 122))
    || (decide (48 ≤ c.toNat) && decide (c.toNat ≤ 57))) = true ↔ _
  simp only [Bool.or_eq_true, Bool.and_eq_true, decide_eq_true_eq]
  omega

theorem isSymbolChar_of_isAlphanum {c : Char} (h : c.isAlphanum = true) : isSymbolChar c = true := by
  have hascii : c.toNat < 0x80 := by
    have hranges := isAlphanum_iff.1 h
    omega
  rw [isSymbolChar, isAlphanumeric_of_ascii hascii, h, Bool.true_or]

theorem not_isDelimiter_of_isDigit {c : Char} (h : c.isDigit = true) : isDelimiter c = false :=
  not_isDelimiter_of_isSymbolChar (isSymbolChar_of_isAlphanum (by simp [Char.isAlphanum, h]))

end Text

theorem HexDigit.isAlphanum {c : Char} {n : Nat} (h : HexDigit c n) : c.isAlphanum = true := by
  have hall : ∀ d ∈ hexDigitValues, d.1.isAlphanum = true := by decide
  exact hall _ h

/-- No word of the grammar holds a delimiter. -/
theorem Word.not_isDelimiter {w : List Char} {d : Datum} (h : Word w d) : ∀ c ∈ w, Text.isDelimiter c = false := by
  have hunsigned : ∀ {w x}, UnsignedWord w x → ∀ c ∈ w, Text.isDelimiter c = false := by
    rintro w x (⟨-, digits⟩ | ⟨-, digits, places⟩) c hc
    · exact Text.not_isDelimiter_of_isDigit (digits c hc)
    · rcases List.mem_append.1 hc with hc | hc
      · exact Text.not_isDelimiter_of_isDigit (digits c hc)
      · rcases List.mem_cons.1 hc with rfl | hc
        · decide
        · exact Text.not_isDelimiter_of_isDigit (places c hc)
  cases h with
  | decimal word =>
    cases word with
    | unsigned magnitude => exact hunsigned magnitude
    | plus magnitude | minus magnitude => exact List.forall_mem_cons.2 ⟨by decide, hunsigned magnitude⟩
  | hexadecimal word =>
    obtain ⟨base, -, digits, -⟩ := word
    refine List.forall_mem_cons.2 ⟨by decide, List.forall_mem_cons.2 ⟨?_, fun c hc => ?_⟩⟩
    · rcases base with rfl | rfl <;> decide
    · have hboth := digits.imp fun c n (hn : HexDigit c n) => And.intro hn.isAlphanum hn
      have hchars := ((List.forall₂_and_left _ _).1 hboth).1
      exact Text.not_isDelimiter_of_isSymbolChar (Text.isSymbolChar_of_isAlphanum (hchars c hc))
  | boolean word =>
    have hall : w.all (fun c => !Text.isDelimiter c) = true := by cases word <;> rfl
    intro c hc
    simpa using List.all_eq_true.1 hall c hc
  | symbol word =>
    exact fun c hc => Text.not_isDelimiter_of_isSymbolChar (isSymbolChar_iff.2 (word.characters c hc))

theorem Word.nonempty {w : List Char} {d : Datum} (h : Word w d) : w ≠ [] := by
  rintro rfl
  have hnone := Datum.ofWord?_eq_some_iff.2 h
  cases hnone

/-- The longest word at the start of a text is the one in front of a delimiter. -/
theorem Word.word_eq {w rest : List Char} {d : Datum} (h : Word w d) (ends : WordEnds rest) :
    Datum.word (w ++ rest) = w := by
  refine takeWhile_before (fun c hc => ?_) fun c hc => ?_
  · rw [h.not_isDelimiter c hc, Bool.not_false]
  · rw [delimiter_iff.1 (ends c hc), Bool.not_true]

theorem Word.afterWord_eq {w rest : List Char} {d : Datum} (h : Word w d) (ends : WordEnds rest) :
    Datum.afterWord (w ++ rest) = rest := by
  refine dropWhile_before (fun c hc => ?_) fun c hc => ?_
  · rw [h.not_isDelimiter c hc, Bool.not_false]
  · rw [delimiter_iff.1 (ends c hc), Bool.not_true]

/-- Behind the longest word there is nothing, or a delimiter. -/
theorem wordEnds_afterWord (cs : List Char) : WordEnds (Datum.afterWord cs) := by
  intro c hc
  have hstop := List.head?_dropWhile_not (fun c => !Text.isDelimiter c) cs
  rw [Datum.afterWord] at hc
  rw [hc] at hstop
  exact delimiter_iff.2 (by simpa using hstop)

/-! ### Escapes -/

theorem escape_iff {e c : Char} : Escape e c ↔ Text.unescape e = some c := by
  constructor
  · intro h
    cases h <;> rfl
  · intro h
    unfold Text.unescape at h
    repeat' split at h
    all_goals
      cases h
      try subst e
    exacts [.quote, .backslash, .lineFeed, .tab, .carriageReturn]

/-! ### Blanks and comments -/

theorem skipFrom_comment {body cs : List Char} (oneLine : '\n' ∉ body) :
    Datum.skipFrom true (body ++ '\n' :: cs) = Datum.skipFrom false cs := by
  induction body with
  | nil => rfl
  | cons c body ih =>
    rw [List.mem_cons, not_or] at oneLine
    rw [List.cons_append, Datum.skipFrom, if_neg (Ne.symm oneLine.1), ih oneLine.2]

theorem skipFrom_lastComment {body : List Char} (oneLine : '\n' ∉ body) : Datum.skipFrom true body = [] := by
  induction body with
  | nil => rfl
  | cons c body ih =>
    rw [List.mem_cons, not_or] at oneLine
    rw [Datum.skipFrom, if_neg (Ne.symm oneLine.1), ih oneLine.2]

theorem Datum.skip_comment (cs : List Char) : Datum.skip (';' :: cs) = Datum.skipFrom true cs :=
  rfl

/-- **What is skipped is a separator.**  Inside a comment, whatever was read of its line belongs to the separator. -/
theorem Datum.separates_skipFrom (cs : List Char) : Separates cs (Datum.skipFrom false cs) ∧
    ∀ before, '\n' ∉ before → Separates (';' :: before ++ cs) (Datum.skipFrom true cs) := by
  induction cs with
  | nil =>
    refine ⟨.nothing, fun before hbefore => ?_⟩
    rw [List.append_nil]
    exact .lastComment hbefore
  | cons c cs ih =>
    refine ⟨?_, fun before hbefore => ?_⟩
    · rw [Datum.skipFrom]
      split
      · next hblank => exact .blank (blank_iff.2 hblank) ih.1
      · split
        · next hcomment =>
          subst hcomment
          exact ih.2 [] List.not_mem_nil
        · exact .nothing
    · rw [Datum.skipFrom]
      split
      · next hline =>
        subst hline
        exact .comment hbefore ih.1
      · next hline =>
        have hmore : '\n' ∉ before ++ [c] := by simp [hbefore, Ne.symm hline]
        have hseparates := ih.2 (before ++ [c]) hmore
        rwa [← List.cons_append, List.append_assoc, List.singleton_append] at hseparates

theorem Datum.separates_skip (cs : List Char) : Separates cs (Datum.skip cs) :=
  (Datum.separates_skipFrom cs).1

/-- A separator is skipped, and perhaps more. -/
theorem Separates.skip_eq {cs rest : List Char} (h : Separates cs rest) : Datum.skip cs = Datum.skip rest := by
  induction h with
  | nothing => rfl
  | blank isBlank _ ih =>
    rw [← ih, Datum.skip, Datum.skipFrom, if_pos (blank_iff.1 isBlank)]
    rfl
  | comment oneLine _ ih => rw [← ih, List.cons_append, Datum.skip_comment, skipFrom_comment oneLine, Datum.skip]
  | lastComment oneLine =>
    rw [Datum.skip_comment, skipFrom_lastComment oneLine]
    rfl

theorem Datum.skip_cons {c : Char} (hblank : Text.isBlank c = false) (hcomment : c ≠ ';') (cs : List Char) :
    Datum.skip (c :: cs) = c :: cs := by
  simp [Datum.skip, Datum.skipFrom, hblank, hcomment]

end SubstModel

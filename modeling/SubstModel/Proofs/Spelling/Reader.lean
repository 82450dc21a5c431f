import SubstModel.Proofs.Spelling.Words
import SubstModel.Proofs.Steps

/-!
# The reader and the grammar — the same data of the same texts

* `Datum.readString_eq_ok_iff` — string literals;
* `Datum.spells_read` — whatever is read is spelled;
* `Spells.read_eq` — whatever is spelled is read, or lies too deep for the room that is left;
* `Datum.read_eq_ok_iff` — one datum;
* `SpellsText.unique` — a text spells its data in one way only;
* `Datum.allOfText_eq_ok_iff` — **a text is read as the data that it spells, as long as none of them lies too deep**.
-/

namespace SubstModel

/-! ### Strings -/

namespace Datum

theorem literal_readString {cs s rest : List Char} (h : readString cs = .ok (s, rest)) : Literal cs s rest := by
  fun_induction readString cs generalizing s with
  | case1 | case3 | case4 => cases h
  | case2 cs =>
    cases h
    exact .close
  | case5 e cs c hc hquote ih =>
    obtain ⟨⟨s, rest⟩, hread, heq⟩ := map_eq_ok.1 h
    cases heq
    exact .escape (escape_iff.2 hc) (ih hread)
  | case6 c cs hquote hbackslash ih =>
    obtain ⟨⟨s, rest⟩, hread, heq⟩ := map_eq_ok.1 h
    cases heq
    exact .plain hquote hbackslash (ih hread)

theorem readString_literal {cs s rest : List Char} (h : Literal cs s rest) : readString cs = .ok (s, rest) := by
  induction h with
  | close =>
    rw [readString.eq_def]
    rfl
  | plain noQuote noBackslash _ ih =>
    rw [readString.eq_def]
    simp only [if_neg noQuote, if_neg noBackslash, ih]
    rfl
  | escape escape _ ih =>
    rw [readString.eq_def]
    simp only [escape_iff.1 escape, ih]
    rfl

theorem readString_eq_ok_iff {cs s rest : List Char} : readString cs = .ok (s, rest) ↔ Literal cs s rest :=
  ⟨literal_readString, readString_literal⟩

/-! ### What is read is spelled -/

/-- If one datum is spelled where it is read, the members of a list are. -/
theorem spells_readItems {readOne : List Char → Except Fault (Datum × List Char)}
    (hone : ∀ {cs d rest}, readOne cs = .ok (d, rest) → Spells cs d rest) {n : Nat} {cs : List Char} {ds : List Datum}
    {rest : List Char} (h : readItems readOne n cs = .ok (ds, rest)) :
    ∃ stop, SpellsAll cs ds stop ∧ Separates stop (')' :: rest) := by
  fun_induction readItems readOne n cs generalizing ds rest with
  | case1 | case2 => cases h
  | case3 n cs rest hstop =>
    cases h
    have hskip := separates_skip cs
    rw [hstop] at hskip
    exact ⟨cs, .nil, hskip⟩
  | case4 n cs _ _ ih =>
    obtain ⟨⟨d, rest₁⟩, hd, h⟩ := bind_eq_ok.1 h
    obtain ⟨⟨ds, rest₂⟩, hds, h⟩ := bind_eq_ok.1 h
    cases h
    obtain ⟨stop, hall, hstop⟩ := ih _ hds
    exact ⟨stop, .cons (separates_skip cs) (hone hd) hall, hstop⟩

/-- **What is read is spelled.** -/
theorem spells_read {room : Nat} {cs : List Char} {d : Datum} {rest : List Char}
    (h : read room cs = .ok (d, rest)) : Spells cs d rest := by
  induction room generalizing cs d rest with
  | zero => cases h
  | succ room ih =>
    cases cs with
    | nil => cases h
    | cons c cs =>
      rw [read] at h
      split at h
      · next hquote =>
        obtain ⟨⟨d, rest⟩, hd, h⟩ := bind_eq_ok.1 h
        cases h
        subst hquote
        exact .quote (separates_skip cs) (ih hd)
      · split at h
        · next hopen =>
          obtain ⟨⟨ds, rest⟩, hds, h⟩ := bind_eq_ok.1 h
          cases h
          subst hopen
          obtain ⟨stop, hall, hstop⟩ := spells_readItems ih hds
          exact .list hall hstop
        · split at h
          · next hstring =>
            obtain ⟨⟨s, rest⟩, hs, h⟩ := bind_eq_ok.1 h
            cases h
            subst hstring
            exact .string (literal_readString hs)
          · split at h
            · next w hw =>
              cases h
              have hword := Spells.word (ofWord?_eq_some_iff.1 hw) (wordEnds_afterWord (c :: cs))
              rwa [word, afterWord, List.takeWhile_append_dropWhile] at hword
            · cases h

/-- A text without data is a separator. -/
theorem separates_nil_iff {cs : List Char} : Separates cs [] ↔ skip cs = [] := by
  constructor
  · intro h
    rw [h.skip_eq]
    rfl
  · intro h
    have hskip := separates_skip cs
    rwa [h] at hskip

end Datum

/-! ### What is spelled is read -/

/-- A datum starts with a character that no separator starts with and that closes no list. -/
theorem Spells.exists_start {cs : List Char} {d : Datum} {rest : List Char} (h : Spells cs d rest) :
    ∃ c cs', cs = c :: cs' ∧ Text.isBlank c = false ∧ c ≠ ';' ∧ c ≠ ')' := by
  cases h with
  | @word w rest d word ends =>
    obtain ⟨c, w, rfl⟩ := List.exists_cons_of_ne_nil word.nonempty
    have hc := word.not_isDelimiter c List.mem_cons_self
    refine ⟨c, w ++ rest, rfl, ?_, ?_, ?_⟩
    · rw [Bool.eq_false_iff]
      intro hblank
      rw [Text.isDelimiter_of_isBlank hblank] at hc
      cases hc
    · rintro rfl
      cases hc
    · rintro rfl
      cases hc
  | string => exact ⟨_, _, rfl, by decide⟩
  | quote => exact ⟨_, _, rfl, by decide⟩
  | list => exact ⟨_, _, rfl, by decide⟩

theorem Spells.skip_eq {cs : List Char} {d : Datum} {rest : List Char} (h : Spells cs d rest) :
    Datum.skip cs = cs := by
  obtain ⟨c, cs, rfl, hblank, hcomment, -⟩ := h.exists_start
  exact Datum.skip_cons hblank hcomment cs

theorem Literal.length_lt {cs s rest : List Char} (h : Literal cs s rest) : rest.length < cs.length := by
  induction h with
  | close => exact Nat.lt_succ_self _
  | plain _ _ _ ih => exact Nat.lt_succ_of_lt ih
  | escape _ _ ih => exact Nat.lt_succ_of_lt (Nat.lt_succ_of_lt ih)

mutual

/-- A datum has a character of its own. -/
theorem Spells.length_lt {cs : List Char} {d : Datum} {rest : List Char} : Spells cs d rest → rest.length < cs.length
  | .word word _ => by
    have hw := List.length_pos_iff.2 word.nonempty
    rw [List.length_append]
    omega
  | .string literal => Nat.lt_succ_of_lt literal.length_lt
  | .quote separates datum => Nat.lt_succ_of_lt (Nat.lt_of_lt_of_le datum.length_lt separates.length_le)
  | .list members separates => by
    have hmembers := members.length_le
    have hstop := separates.length_le
    rw [List.length_cons] at hstop ⊢
    omega

/-- Data have a character each. -/
theorem SpellsAll.length_le {cs : List Char} {ds : List Datum} {rest : List Char} :
    SpellsAll cs ds rest → ds.length + rest.length ≤ cs.length
  | .nil => by simp
  | .cons separates datum more => by
    have hstart := separates.length_le
    have hdatum := datum.length_lt
    have hmore := more.length_le
    rw [List.length_cons]
    omega

end

namespace Datum

/-- A word is read as such: it starts with no mark that opens another kind of datum. -/
theorem read_word {w rest : List Char} {d : Datum} (hw : Word w d) (ends : WordEnds rest) (room : Nat) :
    read (room + 1) (w ++ rest) = .ok (d, rest) := by
  have hread := ofWord?_eq_some_iff.2 hw
  rw [← hw.word_eq ends] at hread
  have hafter := hw.afterWord_eq ends
  obtain ⟨c, w, rfl⟩ := List.exists_cons_of_ne_nil hw.nonempty
  have hc := hw.not_isDelimiter c List.mem_cons_self
  have hquote : c ≠ Text.quoteMark := by rintro rfl; cases hc
  have hopen : c ≠ '(' := by rintro rfl; cases hc
  have hstring : c ≠ '"' := by rintro rfl; cases hc
  rw [List.cons_append] at hread hafter ⊢
  simp only [read, if_neg hquote, if_neg hopen, if_neg hstring, hread, hafter]

/-- In front of a closing parenthesis no member is read. -/
theorem readItems_stop {readOne : List Char → Except Fault (Datum × List Char)} {stop rest : List Char} (n : Nat)
    (hstop : Separates stop (')' :: rest)) : readItems readOne (n + 1) stop = .ok ([], rest) := by
  have hskip : skip stop = ')' :: rest := by
    rw [hstop.skip_eq]
    exact skip_cons rfl (by decide) rest
  simp only [readItems, hskip]

/-- In front of a datum, that is read first. -/
theorem readItems_datum {readOne : List Char → Except Fault (Datum × List Char)} {cs start behind : List Char}
    {d : Datum} (n : Nat) (separates : Separates cs start) (datum : Spells start d behind) :
    readItems readOne (n + 1) cs = (do
      let (d, rest) ← readOne start
      let (ds, rest) ← readItems readOne n rest
      return (d :: ds, rest)) := by
  have hskip : skip cs = start := separates.skip_eq.trans datum.skip_eq
  obtain ⟨c, start, rfl, -, -, hclose⟩ := datum.exists_start
  rw [readItems, hskip]
  split
  · next heq => cases heq
  · next heq => exact absurd (List.cons.inj heq).1 hclose
  · rfl

end Datum

theorem Word.depth_eq {w : List Char} {d : Datum} (h : Word w d) : d.depth = 0 := by
  cases h <;> rfl

mutual

/-- **What is spelled is read, or lies too deep for the room that is left.** -/
theorem Spells.read_eq {cs : List Char} {d : Datum} {rest : List Char} (room : Nat) (h : Spells cs d rest) :
    Datum.read room cs = if d.depth < room then .ok (d, rest) else .error .tooDeep := by
  cases room with
  | zero => rfl
  | succ room =>
    match h with
    | .word word ends =>
      rw [if_pos (by rw [word.depth_eq]; exact Nat.succ_pos room)]
      exact Datum.read_word word ends room
    | .string literal =>
      have hread := Datum.readString_literal literal
      rw [if_pos (by rw [Datum.depth]; exact Nat.succ_pos room)]
      simp only [Datum.read, Text.quoteMark, Char.reduceEq, if_false, hread, if_true]
      rfl
    | .quote separates datum =>
      have hread := datum.read_eq room
      rw [← separates.skip_eq.trans datum.skip_eq] at hread
      simp only [Datum.read, Text.quoteMark, if_true, hread, Datum.depth_quote, Nat.add_lt_add_iff_right]
      split <;> rfl
    | .list members separates =>
      have hread := members.readItems_eq room separates (Nat.lt_succ_of_le (Nat.le_of_add_right_le members.length_le))
      simp only [Datum.read, Text.quoteMark, Char.reduceEq, if_false, if_true, hread, Datum.depth_list_lt_iff]
      split <;> rfl

/-- The members of a list are read up to its end, or one of them lies too deep. -/
theorem SpellsAll.readItems_eq {cs : List Char} {ds : List Datum} {stop rest : List Char} (room : Nat) {n : Nat}
    (hstop : Separates stop (')' :: rest)) (hn : ds.length < n) (h : SpellsAll cs ds stop) :
    Datum.readItems (Datum.read room) n cs
      = if ∀ d ∈ ds, d.depth < room then .ok (ds, rest) else .error .tooDeep := by
  obtain ⟨n, rfl⟩ := Nat.exists_eq_succ_of_ne_zero (Nat.ne_zero_of_lt hn)
  match h with
  | .nil =>
    rw [if_pos (fun d hd => absurd hd List.not_mem_nil)]
    exact Datum.readItems_stop n hstop
  | @SpellsAll.cons _ _ _ _ d ds separates datum more =>
    have hd := datum.read_eq room
    have hds := more.readItems_eq room hstop (Nat.lt_of_succ_lt_succ hn)
    rw [Datum.readItems_datum n separates datum, hd]
    simp only [List.forall_mem_cons]
    by_cases hdeep : d.depth < room
    · simp only [hdeep, if_true, true_and]
      show (Datum.readItems (Datum.read room) n _ >>= _) = _
      rw [hds]
      split <;> rfl
    · simp only [hdeep, if_false, false_and]
      rfl

end

namespace Datum

/-- **One datum is read exactly as it is spelled, if there is room for it.** -/
theorem read_eq_ok_iff {room : Nat} {cs : List Char} {d : Datum} {rest : List Char} :
    read room cs = .ok (d, rest) ↔ Spells cs d rest ∧ d.depth < room := by
  constructor
  · intro h
    have hspells := spells_read h
    refine ⟨hspells, ?_⟩
    by_contra hdeep
    rw [hspells.read_eq room, if_neg hdeep] at h
    cases h
  · rintro ⟨hspells, hdepth⟩
    rw [hspells.read_eq room, if_pos hdepth]

/-! ### Whole texts -/

/-- In front of a datum, that is read first, with all the room there is. -/
theorem readForms_datum {cs start behind : List Char} {d : Datum} (n : Nat) (separates : Separates cs start)
    (datum : Spells start d behind) :
    readForms (n + 1) cs =
      if d.depth < maxNesting then (readForms n behind).map (d :: ·) else .error (.tooDeep, start) := by
  have hskip : skip cs = start := separates.skip_eq.trans datum.skip_eq
  have hread := datum.read_eq maxNesting
  obtain ⟨c, start, rfl, -⟩ := datum.exists_start
  simp only [readForms, hskip, hread]
  split
  · show (readForms n behind >>= fun ds => pure (d :: ds)) = _
    cases readForms n behind <;> rfl
  · rfl

theorem readForms_nil {cs : List Char} (n : Nat) (h : Separates cs []) : readForms (n + 1) cs = .ok [] := by
  simp only [readForms, separates_nil_iff.1 h]

/-- What the loop over a text reads is spelled: every datum leaves less of the text. -/
theorem spells_readForms {n : Nat} {cs : List Char} {ds : List Datum} (hn : cs.length < n)
    (h : readForms n cs = .ok ds) : SpellsText cs ds := by
  induction n generalizing cs ds with
  | zero => exact absurd hn (Nat.not_lt_zero _)
  | succ n ih =>
    have hskip := separates_skip cs
    rw [readForms] at h
    split at h
    · next hend =>
      cases h
      rw [hend] at hskip
      exact ⟨cs, .nil, hskip⟩
    · obtain ⟨⟨d, rest⟩, hd, h⟩ := bind_eq_ok.1 h
      obtain ⟨ds, hds, h⟩ := bind_eq_ok.1 h
      cases h
      have hdatum := spells_read (mapError_eq_ok hd)
      have hstart := hskip.length_le
      have hrest := hdatum.length_lt
      obtain ⟨stop, hall, hstop⟩ := ih (by show rest.length < n; omega) hds
      exact ⟨stop, .cons hskip hdatum hall, hstop⟩

end Datum

/-- The loop over a text reads the data that are spelled, up to the first that lies too deep. -/
theorem SpellsAll.readForms_eq {cs : List Char} {ds : List Datum} {rest : List Char} {n : Nat}
    (hrest : Separates rest []) (hn : ds.length < n) (h : SpellsAll cs ds rest) :
    ∃ start, Datum.readForms n cs
      = if ∀ d ∈ ds, d.depth < Datum.maxNesting then .ok ds else .error (.tooDeep, start) := by
  induction ds generalizing cs n with
  | nil =>
    obtain ⟨n, rfl⟩ := Nat.exists_eq_succ_of_ne_zero (Nat.ne_zero_of_lt hn)
    cases h with
    | nil => exact ⟨[], by rw [if_pos (by simp), Datum.readForms_nil n hrest]⟩
  | cons d ds ih =>
    obtain ⟨n, rfl⟩ := Nat.exists_eq_succ_of_ne_zero (Nat.ne_zero_of_lt hn)
    cases h with
    | @cons _ start _ _ _ _ separates datum more =>
      obtain ⟨start', hmore⟩ := ih (Nat.lt_of_succ_lt_succ hn) more
      rw [Datum.readForms_datum n separates datum, hmore]
      simp only [List.forall_mem_cons]
      by_cases hdeep : d.depth < Datum.maxNesting
      · refine ⟨start', ?_⟩
        simp only [hdeep, if_true, true_and]
        split <;> rfl
      · refine ⟨start, ?_⟩
        simp only [hdeep, if_false, false_and]

/-! ### One reading -/

/-- The grammar leaves no choice: what a datum is, and where it ends, is fixed by the text. -/
theorem Spells.unique {cs : List Char} {d d' : Datum} {rest rest' : List Char} (h : Spells cs d rest)
    (h' : Spells cs d' rest') : d = d' ∧ rest = rest' := by
  have hread := h.read_eq (max d.depth d'.depth + 1)
  have hread' := h'.read_eq (max d.depth d'.depth + 1)
  rw [if_pos (by omega)] at hread hread'
  rw [hread] at hread'
  exact Prod.mk.inj (Except.ok.inj hread')

/-- A text in which a datum stands is no separator. -/
theorem Spells.not_separates_nil {cs start rest : List Char} {d : Datum} (h : Spells start d rest)
    (separates : Separates cs start) : ¬Separates cs [] := by
  intro hnil
  have hskip := separates.skip_eq.trans h.skip_eq
  obtain ⟨c, start, rfl, -⟩ := h.exists_start
  rw [Datum.separates_nil_iff.1 hnil] at hskip
  cases hskip

theorem SpellsAll.unique {cs : List Char} {ds ds' : List Datum} {rest rest' : List Char} (h : SpellsAll cs ds rest)
    (hrest : Separates rest []) (h' : SpellsAll cs ds' rest') (hrest' : Separates rest' []) : ds = ds' := by
  induction ds generalizing cs ds' with
  | nil =>
    cases h
    cases h' with
    | nil => rfl
    | cons separates datum _ => exact absurd hrest (datum.not_separates_nil separates)
  | cons d ds ih =>
    cases h with
    | cons separates datum more =>
      cases h' with
      | nil => exact absurd hrest' (datum.not_separates_nil separates)
      | cons separates' datum' more' =>
        have hstart := (separates.skip_eq.trans datum.skip_eq).symm.trans (separates'.skip_eq.trans datum'.skip_eq)
        subst hstart
        obtain ⟨rfl, rfl⟩ := datum.unique datum'
        rw [ih more more']

/-- **A text spells its data in one way only.** -/
theorem SpellsText.unique {cs : List Char} {ds ds' : List Datum} (h : SpellsText cs ds) (h' : SpellsText cs ds') :
    ds = ds' := by
  obtain ⟨rest, hall, hrest⟩ := h
  obtain ⟨rest', hall', hrest'⟩ := h'
  exact hall.unique hrest hall' hrest'

namespace Datum

/-- **What a text spells is read, or refused because a datum lies too deep.** -/
theorem allOfText_of_spells {text : String} {ds : List Datum} (h : SpellsText text.toList ds) :
    allOfText text = if ∀ d ∈ ds, d.depth < maxNesting then .ok ds else .error (.ofReading (.tooDeep maxNesting)) := by
  obtain ⟨rest, hall, hrest⟩ := h
  have hlength := hall.length_le
  obtain ⟨start, hforms⟩ := hall.readForms_eq hrest (n := text.toList.length + 1) (by omega)
  rw [allOfText, readAll, hforms]
  by_cases hdepth : ∀ d ∈ ds, d.depth < maxNesting
  · simp only [if_pos hdepth]
  · simp only [if_neg hdepth, fault]

theorem allOfText_of_spells_one {text : String} {d : Datum} (h : SpellsText text.toList [d]) :
    allOfText text = if d.depth < 64 then .ok [d] else .error (.ofReading (.tooDeep 64)) := by
  simp only [allOfText_of_spells h, List.forall_mem_singleton, maxNesting]

theorem spells_allOfText {text : String} {ds : List Datum} (h : allOfText text = .ok ds) :
    SpellsText text.toList ds := by
  rw [allOfText, readAll] at h
  cases hforms : readForms (text.toList.length + 1) text.toList with
  | error f =>
    rw [hforms] at h
    cases h
  | ok ds' =>
    rw [hforms] at h
    cases h
    exact spells_readForms (Nat.lt_succ_self _) hforms

/-- No datum of a text that is read lies too deep. -/
theorem depth_lt_of_allOfText {text : String} {ds : List Datum} (h : allOfText text = .ok ds) :
    ∀ d ∈ ds, d.depth < maxNesting := by
  by_contra hdeep
  rw [allOfText_of_spells (spells_allOfText h), if_neg hdeep] at h
  cases h

/-- **The reader accepts exactly the grammar of data, with exactly its meaning.**  A text is read as the data that it
spells, as long as each of them and of its parts stands inside fewer than 64 lists and quotes; every other text is
refused. -/
theorem allOfText_eq_ok_iff (text : String) (ds : List Datum) :
    allOfText text = .ok ds ↔ SpellsText text.toList ds ∧ ∀ d ∈ ds, d.depth < 64 := by
  constructor
  · intro h
    exact ⟨spells_allOfText h, depth_lt_of_allOfText h⟩
  · rintro ⟨hspells, hdepth⟩
    rw [allOfText_of_spells hspells]
    exact if_pos hdepth

end Datum

end SubstModel

import SubstModel.Proofs.Spelling.Reader

/-!
# Where the reader stops

A text that is not read stops at an outermost datum, and which one that is does not depend on the reader: up to there
data are spelled, and there none is.  The report of such a text shows an excerpt of it.  What it skips is counted in
bytes and skipped in characters, so the excerpt starts where the reader stopped if the text is ASCII up to there, and
further on if not.

* `StopsAt`, `StopsAt.unique` — where no more data are spelled;
* `Datum.stopsAt_readForms` — the reader fails at the start of an outermost datum;
* `StopsAt.isSuffix` — what is read is a part of the text from its start;
* `Datum.byteLength_eq_length_iff` — bytes are characters exactly in ASCII;
* `excerpt_starts` — **where an excerpt starts**.
-/

namespace SubstModel

/-! ### Where no more data are spelled -/

/-- Data are spelled from the start of the text up to the rest, where no datum is spelled and nothing can be skipped. -/
inductive StopsAt : List Char → List Char → Prop
  | here {cs start : List Char} (separates : Separates cs start) (nonempty : start ≠ [])
    (separated : ∀ rest, Separates start rest → rest = start) (unspelled : ∀ d rest, ¬Spells start d rest) :
    StopsAt cs start
  | behind {cs next rest start : List Char} {d : Datum} (separates : Separates cs next) (datum : Spells next d rest)
    (more : StopsAt rest start) : StopsAt cs start

namespace Datum

/-- Behind what is skipped stands neither a blank nor a comment. -/
theorem skipFrom_head {inComment : Bool} {cs rest : List Char} {c : Char} (h : skipFrom inComment cs = c :: rest) :
    Text.isBlank c = false ∧ c ≠ ';' := by
  fun_induction skipFrom inComment cs with
  | case1 => cases h
  | case2 cs ih | case3 d cs hline ih | case4 d cs hblank ih | case5 cs hblank ih => exact ih h
  | case6 d cs hblank hcomment =>
    cases h
    exact ⟨Bool.eq_false_iff.2 hblank, hcomment⟩

/-- Nothing more can be skipped. -/
theorem eq_of_separates_skip {cs rest : List Char} (h : Separates (skip cs) rest) : rest = skip cs := by
  cases hskip : skip cs with
  | nil =>
    rw [hskip] at h
    cases h
    rfl
  | cons c start =>
    obtain ⟨hblank, hcomment⟩ := skipFrom_head hskip
    rw [hskip] at h
    cases h with
    | nothing => rfl
    | blank isBlank =>
      rw [blank_iff, hblank] at isBlank
      cases isBlank
    | comment | lastComment => exact absurd rfl hcomment

/-- What is spelled is read or lies too deep, so nothing is spelled where the reader fails for another reason. -/
theorem not_spells_of_unreadable {room : Nat} {cs : List Char} (h : read room cs = .error .unreadable) (d : Datum)
    (rest : List Char) : ¬Spells cs d rest := by
  intro hspells
  rw [hspells.read_eq room] at h
  split at h <;> cases h

/-- The reader stops at the start of an outermost datum that is not spelled. -/
theorem stopsAt_readForms {n : Nat} {cs start : List Char} (h : readForms n cs = .error (.unreadable, start)) :
    StopsAt cs start := by
  induction n generalizing cs with
  | zero => cases h
  | succ n ih =>
    have hskip := separates_skip cs
    rw [readForms] at h
    split at h
    · cases h
    · next hnonempty =>
      rcases bind_eq_error.1 h with hd | ⟨⟨d, rest⟩, hd, hmore⟩
      · obtain ⟨f, hread, heq⟩ := mapError_eq_error hd
        cases heq
        exact .here hskip hnonempty (fun _ => eq_of_separates_skip) (not_spells_of_unreadable hread)
      · rcases bind_eq_error.1 hmore with hmore | ⟨ds, -, hpure⟩
        · exact .behind hskip (spells_read (mapError_eq_ok hd)) (ih hmore)
        · cases hpure

end Datum

/-! ### The place is unique -/

/-- What can be skipped up to a datum, or up to a place where nothing can be skipped, is skipped. -/
theorem Separates.skip_of_separated {cs start : List Char} (h : Separates cs start)
    (separated : ∀ rest, Separates start rest → rest = start) : Datum.skip cs = start :=
  h.skip_eq.trans (separated _ (Datum.separates_skip start))

/-- **The reader can stop at one place only.** -/
theorem StopsAt.unique {cs start start' : List Char} (h : StopsAt cs start) (h' : StopsAt cs start') :
    start = start' := by
  induction h with
  | here separates nonempty separated unspelled =>
    have hskip := separates.skip_of_separated separated
    cases h' with
    | here separates' nonempty' separated' unspelled' =>
      exact hskip.symm.trans (separates'.skip_of_separated separated')
    | behind separates' datum' more' =>
      have hnext := hskip.symm.trans (separates'.skip_eq.trans datum'.skip_eq)
      subst hnext
      exact absurd datum' (unspelled _ _)
  | behind separates datum more ih =>
    have hskip := separates.skip_eq.trans datum.skip_eq
    cases h' with
    | here separates' nonempty' separated' unspelled' =>
      have hnext := hskip.symm.trans (separates'.skip_of_separated separated')
      subst hnext
      exact absurd datum (unspelled' _ _)
    | behind separates' datum' more' =>
      have hnext := hskip.symm.trans (separates'.skip_eq.trans datum'.skip_eq)
      subst hnext
      obtain ⟨rfl, rfl⟩ := datum.unique datum'
      exact ih more'

/-! ### What is read is a part of the text from its start -/

theorem Literal.isSuffix {cs s rest : List Char} (h : Literal cs s rest) : rest <:+ cs := by
  induction h with
  | close => exact List.suffix_cons _ _
  | plain _ _ _ ih => exact ih.trans (List.suffix_cons _ _)
  | escape _ _ ih => exact (ih.trans (List.suffix_cons _ _)).trans (List.suffix_cons _ _)

mutual

theorem Spells.isSuffix {cs : List Char} {d : Datum} {rest : List Char} : Spells cs d rest → rest <:+ cs
  | .word _ _ => List.suffix_append _ _
  | .string literal => literal.isSuffix.trans (List.suffix_cons _ _)
  | .quote separates datum => (datum.isSuffix.trans separates.isSuffix).trans (List.suffix_cons _ _)
  | .list members separates =>
    have hclose := (List.suffix_cons _ _).trans separates.isSuffix
    (hclose.trans members.isSuffix).trans (List.suffix_cons _ _)

theorem SpellsAll.isSuffix {cs : List Char} {ds : List Datum} {rest : List Char} : SpellsAll cs ds rest → rest <:+ cs
  | .nil => List.suffix_rfl
  | .cons separates datum more => (more.isSuffix.trans datum.isSuffix).trans separates.isSuffix

end

theorem StopsAt.isSuffix {cs start : List Char} (h : StopsAt cs start) : start <:+ cs := by
  induction h with
  | here separates => exact separates.isSuffix
  | behind separates datum _ ih => exact (ih.trans datum.isSuffix).trans separates.isSuffix

theorem StopsAt.nonempty {cs start : List Char} (h : StopsAt cs start) : start ≠ [] := by
  induction h with
  | here _ nonempty => exact nonempty
  | behind _ _ _ ih => exact ih

/-! ### Lengths in bytes -/

namespace Datum

theorem byteLength_append (cs ds : List Char) : byteLength (cs ++ ds) = byteLength cs + byteLength ds := by
  induction cs with
  | nil => simp [byteLength]
  | cons c cs ih =>
    show c.utf8Size + byteLength (cs ++ ds) = c.utf8Size + byteLength cs + byteLength ds
    rw [ih, Nat.add_assoc]

/-- A character has a byte at least. -/
theorem length_le_byteLength (cs : List Char) : cs.length ≤ byteLength cs := by
  induction cs with
  | nil => exact Nat.le_refl 0
  | cons c cs ih =>
    have hsize := c.utf8Size_pos
    show cs.length + 1 ≤ c.utf8Size + byteLength cs
    omega

/-- **Bytes are characters exactly in ASCII.** -/
theorem byteLength_eq_length_iff {cs : List Char} : byteLength cs = cs.length ↔ ∀ c ∈ cs, c.val ≤ 127 := by
  induction cs with
  | nil => simp [byteLength]
  | cons c cs ih =>
    have hle := length_le_byteLength cs
    have hpos := c.utf8Size_pos
    rw [List.forall_mem_cons, ← ih, ← Char.utf8Size_eq_one_iff]
    show c.utf8Size + byteLength cs = cs.length + 1 ↔ _
    omega

/-- What an excerpt skips of the text where the reader stopped: the bytes by which the text in front is longer than its
characters. -/
theorem fault_unreadable (front start : List Char) :
    fault (front ++ start) start .unreadable
      = .invalidNear (String.ofList ((start.drop (byteLength front - front.length)).take excerptLength)) := by
  have hlength := length_le_byteLength front
  have hdrop : (front ++ start).drop (byteLength front) = start.drop (byteLength front - front.length) := by
    rw [List.drop_append, List.drop_eq_nil_of_le hlength, List.nil_append]
  rw [fault, byteLength_append, Nat.add_sub_cancel, hdrop]

end Datum

/-- A text with an unreadable place is reported with an excerpt from there. -/
theorem stopsAt_of_invalidNear {text excerpt : String}
    (h : Datum.allOfText text = .error (.ofReading (.invalidNear excerpt))) :
    ∃ start, StopsAt text.toList start ∧ Datum.fault text.toList start .unreadable = .invalidNear excerpt := by
  rw [Datum.allOfText] at h
  split at h
  · cases h
  · next f start hread =>
    have hfault : Datum.fault text.toList start f = .invalidNear excerpt :=
      ParseFault.read.inj (Failure.parse.inj (Except.error.inj h))
    cases f with
    | unreadable => exact ⟨start, Datum.stopsAt_readForms hread, hfault⟩
    | badString | unclosed | tooDeep => cases hfault

/-- **Where an excerpt starts.**  There is one place where the reader stops: data are spelled up to there, and none is
spelled there.  The excerpt shows at most ten characters of the text behind that place, from as many characters on as
the text in front of it has bytes more than characters.  If that text is ASCII, the excerpt is the start of what could
not be read, and there is something to show. -/
theorem excerpt_starts {text excerpt : String}
    (h : Datum.allOfText text = .error (.ofReading (.invalidNear excerpt))) :
    ∃ front start, text.toList = front ++ start ∧ StopsAt text.toList start ∧
      (∀ other, StopsAt text.toList other → other = start) ∧
      excerpt.toList = (start.drop (Datum.byteLength front - front.length)).take 10 ∧
      (Datum.byteLength front - front.length = 0 ↔ ∀ c ∈ front, c.val ≤ 127) ∧
      ((∀ c ∈ front, c.val ≤ 127) → excerpt ≠ "" ∧ excerpt.toList = start.take 10) := by
  obtain ⟨start, hstops, hfault⟩ := stopsAt_of_invalidNear h
  obtain ⟨front, hsplit⟩ := hstops.isSuffix
  rw [← hsplit, Datum.fault_unreadable front start] at hfault
  have hlist : excerpt.toList = (start.drop (Datum.byteLength front - front.length)).take 10 := by
    rw [← ReadFault.invalidNear.inj hfault, String.toList_ofList, Datum.excerptLength]
  have hascii : Datum.byteLength front - front.length = 0 ↔ ∀ c ∈ front, c.val ≤ 127 := by
    have hle := Datum.length_le_byteLength front
    rw [← Datum.byteLength_eq_length_iff]
    omega
  refine ⟨front, start, hsplit.symm, hstops, fun other hother => hother.unique hstops, hlist, hascii, fun hfront => ?_⟩
  rw [hascii.2 hfront, List.drop_zero] at hlist
  refine ⟨?_, hlist⟩
  rintro rfl
  have hnil : start.take 10 = [] := hlist.symm
  rcases List.take_eq_nil_iff.1 hnil with hten | hstart
  · cases hten
  · exact hstops.nonempty hstart

/-- In ASCII the excerpt starts where the reader stops. -/
theorem excerpt_starts_ascii :
    Datum.allOfText "\"e\" )a" = .error (.ofReading (.invalidNear ")a")) ∧
      ∃ front start, "\"e\" )a".toList = front ++ start ∧ StopsAt "\"e\" )a".toList start ∧
        (∀ other, StopsAt "\"e\" )a".toList other → other = start) ∧
        ")a".toList = (start.drop (Datum.byteLength front - front.length)).take 10 ∧
        (Datum.byteLength front - front.length = 0 ↔ ∀ c ∈ front, c.val ≤ 127) ∧
        ((∀ c ∈ front, c.val ≤ 127) → ")a" ≠ "" ∧ ")a".toList = start.take 10) := by
  have hchars : "\"e\" )a".toList = ['"', 'e', '"', ' ', ')', 'a'] := by rfl
  have h : Datum.allOfText "\"e\" )a" = .error (.ofReading (.invalidNear ")a")) := by
    rw [Datum.allOfText, hchars]
    rfl
  exact ⟨h, excerpt_starts h⟩

/-- Behind a string with a letter of two bytes the excerpt starts one character late, and nothing of a single character
is shown. -/
theorem excerpt_starts_late :
    Datum.allOfText "\"é\" )a" = .error (.ofReading (.invalidNear "a")) ∧ StopsAt "\"é\" )a".toList [')', 'a'] ∧
      Datum.allOfText "\"é\" )" = .error (.ofReading (.invalidNear "")) ∧
      ¬ ∀ text excerpt : String, Datum.allOfText text = .error (.ofReading (.invalidNear excerpt)) →
        excerpt ≠ "" ∧ ∃ start, StopsAt text.toList start ∧ excerpt.toList = start.take 10 := by
  have hchars : "\"é\" )a".toList = ['"', 'é', '"', ' ', ')', 'a'] := by rfl
  have hread : Datum.readAll "\"é\" )a".toList = .error (.unreadable, [')', 'a']) := by
    rw [hchars]
    rfl
  have hlate : Datum.allOfText "\"é\" )a" = .error (.ofReading (.invalidNear "a")) := by
    rw [Datum.allOfText, hchars]
    rfl
  have hempty : Datum.allOfText "\"é\" )" = .error (.ofReading (.invalidNear "")) := by rfl
  refine ⟨hlate, Datum.stopsAt_readForms hread, hempty, fun hall => ?_⟩
  exact (hall _ _ hempty).1 rfl

end SubstModel

import TimedText.Proofs.Json.Grammar
import TimedText.Proofs.Json.Names

/-!
# What is printed is read

The reader answers the value that was printed (`read_print`), if the value is one that it can
answer: `Fits` says so of a value, a room for lists and objects inside one another, and whether
words for doubles are allowed.

The front of a text is read whatever stands behind it, as long as the value ends there. The bound
of the reader is enough if it is the length of what is read.
-/

namespace TimedText

namespace Json

open Double (signText)

variable {words : Words} {bound room : Nat} {rest : List Char}

/-! ## Strings -/

theorem charOfCode_toNat (c : Char) : charOfCode c.toNat = c := by
  have hvalid : c.toNat.isValidChar := c.valid
  rw [charOfCode, dif_pos hvalid]
  rfl

/-- The code of a character is no half of a surrogate pair. -/
theorem not_surrogate (c : Char) : ¬ (0xd800 ≤ c.toNat ∧ c.toNat < 0xdc00) := by
  have hvalid : c.toNat < 0xd800 ∨ 0xdfff < c.toNat ∧ c.toNat < 0x110000 := c.valid
  omega

theorem textOfCodes_map (cs : List Char) : textOfCodes (cs.map Char.toNat) = cs := by
  induction cs with
  | nil => rfl
  | cons c cs ih =>
    cases cs with
    | nil => simp [textOfCodes, charOfCode_toNat]
    | cons d ds =>
      rw [List.map_cons, List.map_cons, textOfCodes,
        if_neg fun h => not_surrogate c ⟨h.1, h.2.1⟩, charOfCode_toNat]
      exact congrArg (c :: ·) ih

/-- A code in front of what is read. -/
def withCode (n : Nat) (r : Except ReadError (List Nat × List Char)) :
    Except ReadError (List Nat × List Char) :=
  r.map fun (codes, rest) => (n :: codes, rest)

theorem readCodes_plain {c : Char} (above : 0x20 ≤ c.toNat) (quote : c ≠ '"') (backslash : c ≠ '\\')
    (cs : List Char) : readCodes (c :: cs) = withCode c.toNat (readCodes cs) := by
  rw [readCodes, if_neg (not_or.mpr ⟨Nat.not_lt.mpr above, backslash⟩)]
  · rfl
  · exact quote
  · exact fun _ _ _ _ _ h => absurd h backslash
  · exact fun _ _ h => absurd h backslash

theorem readCodes_escape {letter c : Char} (stands : simpleEscape letter = some c)
    (other : letter ≠ 'u') (cs : List Char) :
    readCodes ('\\' :: letter :: cs) = withCode c.toNat (readCodes cs) := by
  rw [readCodes, stands]
  · rfl
  · exact fun _ _ _ _ _ h => absurd h other

theorem readCodes_code {x y z w : Char} {n : Nat} (hex : hexFour x y z w = some n)
    (cs : List Char) :
    readCodes ('\\' :: 'u' :: x :: y :: z :: w :: cs) = withCode n (readCodes cs) := by
  rw [readCodes, hex]
  rfl

theorem readCodes_escapeChar (c : Char) (cs : List Char) :
    readCodes (escapeChar c ++ cs) = withCode c.toNat (readCodes cs) := by
  have hwritten := written_escapeChar c
  generalize escapeChar c = written at hwritten ⊢
  cases hwritten with
  | plain above quote backslash => exact readCodes_plain above quote backslash cs
  | escape letter stands other => exact readCodes_escape stands other cs
  | code hex => exact readCodes_code hex cs

theorem readCodes_flatMap (cs rest : List Char) :
    readCodes (cs.flatMap escapeChar ++ '"' :: rest) = .ok (cs.map Char.toNat, rest) := by
  induction cs with
  | nil => rfl
  | cons c cs ih =>
    rw [List.flatMap_cons, List.append_assoc, readCodes_escapeChar, ih]
    rfl

theorem readString_chars (s : String) (rest : List Char) :
    readString (s.toList.flatMap escapeChar ++ '"' :: rest) = .ok (s, rest) := by
  rw [readString, readCodes_flatMap]
  simp only [bind, Except.bind, textOfCodes_map, String.ofList_toList]
  rfl

/-! ## Words and numbers -/

/-- A value ends in front of this text. -/
def EndsValue (cs : List Char) : Prop := ∀ c ∈ cs.head?, c = ',' ∨ c = ']' ∨ c = '\x7d'

theorem EndsValue.endsNumber {cs : List Char} (h : EndsValue cs) : EndsNumber cs := by
  intro c hc
  rcases h c hc with rfl | rfl | rfl <;> decide

theorem skipSpace_of_head {c : Char} (h : isSpace c = false) (cs : List Char) :
    skipSpace (c :: cs) = c :: cs := by
  rw [skipSpace, List.dropWhile_cons, h]
  rfl

/-- What begins with none of the signs that open a string, a list or an object is a word. -/
theorem readValue_word {c : Char} (plain : isSpace c = false ∧ c ≠ '"' ∧ c ≠ '[' ∧ c ≠ '\x7b')
    (cs : List Char) : readValue words (bound + 1) room (c :: cs) = readWord words (c :: cs) := by
  obtain ⟨hspace, hquote, hbracket, hbrace⟩ := plain
  rw [readValue, skipSpace_of_head hspace]
  split
  · next heq => exact absurd (List.cons.inj heq).1 hquote
  · next heq => exact absurd (List.cons.inj heq).1 hbracket
  · next heq => exact absurd (List.cons.inj heq).1 hbrace
  · rfl

theorem readWord_null (rest : List Char) :
    readWord words ("null".toList ++ rest) = .ok (.null, rest) := by
  cases words <;> rfl

theorem readWord_bool (b : Bool) (rest : List Char) :
    readWord words (chars (.bool b) ++ rest) = .ok (.bool b, rest) := by
  cases b <;> cases words <;> rfl

theorem readWord_notFinite {d : Double} (h : d.isFinite = false) (rest : List Char) :
    readWord .allowed (floatChars d ++ rest) = .ok (.float d, rest) := by
  cases d with
  | nan => rfl
  | infinite negative => cases negative <;> rfl
  | finite => cases h

/-- The words that stand for values. -/
def wordTable (words : Words) : List (String × Json) :=
  let known : List (String × Json) :=
    [("null", .null), ("true", .bool true), ("false", .bool false)]
  let extra : List (String × Json) :=
    [("NaN", .float .nan), ("Infinity", .float (.infinite false)),
      ("-Infinity", .float (.infinite true))]
  if words = .allowed then known ++ extra else known

theorem readWord_eq (cs : List Char) : readWord words cs =
    match (wordTable words).findSome? fun (w, j) => (afterWord? w.toList cs).map (j, ·) with
    | some r => .ok r
    | none =>
      match cs with
      | '-' :: rest => readNumber true rest
      | cs => readNumber false cs := rfl

/-- A word is letters, with a minus in front at most. -/
theorem wordTable_letter : ∀ p ∈ wordTable words, ∃ (negative : Bool) (c : Char) (cs : List Char),
    p.1.toList = signText negative ++ c :: cs ∧ c.isDigit = false ∧ c ≠ '-' := by
  have hknown : wordTable words ⊆ wordTable .allowed := by
    cases words with
    | allowed => exact List.Subset.refl _
    | refused => exact List.subset_append_left _ _
  have hletter : ∀ p ∈ wordTable .allowed, ∃ (negative : Bool) (c : Char) (cs : List Char),
      p.1.toList = signText negative ++ c :: cs ∧ c.isDigit = false ∧ c ≠ '-' := by
    simp only [wordTable, if_true, List.cons_append, List.nil_append, List.forall_mem_cons]
    exact ⟨⟨false, _, _, rfl, by decide⟩, ⟨false, _, _, rfl, by decide⟩,
      ⟨false, _, _, rfl, by decide⟩, ⟨false, _, _, rfl, by decide⟩,
      ⟨false, _, _, rfl, by decide⟩, ⟨true, _, _, rfl, by decide⟩, List.forall_mem_nil _⟩
  exact fun p hp => hletter p (hknown hp)

/-- No word begins like a number. -/
theorem afterWord?_number {p : String × Json} (hp : p ∈ wordTable words) (negative : Bool)
    {d : Char} (h : d.isDigit = true) (cs : List Char) :
    afterWord? p.1.toList (signText negative ++ d :: cs) = none := by
  obtain ⟨minus, c, ds, hword, hc, hsign⟩ := wordTable_letter p hp
  have hcd : (c == d) = false := beq_false_of_ne (Double.digit_ne h hc).symm
  have hminus : ('-' == d) = false := beq_false_of_ne (Double.digit_ne h (by decide)).symm
  have hcminus : (c == '-') = false := beq_false_of_ne hsign
  rw [hword]
  apply if_neg
  cases minus <;> cases negative <;> simp [signText, List.isPrefixOf, hcd, hminus, hcminus]

theorem readWord_number (negative : Bool) {d : Char} (h : d.isDigit = true) (cs : List Char) :
    readWord words (signText negative ++ d :: cs) = readNumber negative (d :: cs) := by
  have hnone : ((wordTable words).findSome? fun (w, j) =>
      (afterWord? w.toList (signText negative ++ d :: cs)).map (j, ·)) = none := by
    rw [List.findSome?_eq_none_iff]
    intro p hp
    dsimp only
    rw [afterWord?_number hp negative h cs]
    rfl
  rw [readWord_eq, hnone]
  cases negative with
  | true => rfl
  | false =>
    show (match d :: cs with
      | '-' :: rest => readNumber true rest
      | cs => readNumber false cs) = _
    split
    · next heq => exact absurd (List.cons.inj heq).1 (Double.digit_ne h (by decide))
    · rfl

/-! ## Values -/

/-- The reader answers this value where there is room for so many lists and objects inside one
another: its whole numbers are not too long, its doubles are finite unless words are allowed, and
no object has a name twice. -/
inductive Fits (words : Words) : Nat → Json → Prop
  | null {room : Nat} : Fits words room .null
  | bool {room : Nat} (b : Bool) : Fits words room (.bool b)
  | int {room : Nat} {i : Int} (short : (Decimal.digits i.natAbs).length ≤ maxDigits) :
      Fits words room (.int i)
  | float {room : Nat} {d : Double} (known : words = .allowed ∨ d.isFinite = true) :
      Fits words room (.float d)
  | str {room : Nat} (s : String) : Fits words room (.str s)
  | list {room : Nat} {items : List Json} (h : ∀ j ∈ items, Fits words room j) :
      Fits words (room + 1) (.list items)
  | dict {room : Nat} {members : List (String × Json)} (distinct : (members.map Prod.fst).Nodup)
      (h : ∀ m ∈ members, Fits words room m.2) : Fits words (room + 1) (.dict members)

/-- Where words are refused, what fits has none. -/
theorem Fits.allFinite {j : Json} (h : Fits .refused room j) : AllFinite j := by
  induction h with
  | null => exact .null
  | bool b => exact .bool b
  | @int room i short => exact .int i
  | float known => exact .float (known.resolve_left nofun)
  | str s => exact .str s
  | list h ih => exact .list ih
  | dict distinct h ih => exact .dict ih

/-- The reader answers this value whatever stands behind it, with a bound of its length. -/
def Reads (words : Words) (room : Nat) (j : Json) : Prop :=
  ∀ bound rest, (chars j).length ≤ bound → EndsValue rest →
    readValue words bound room (chars j ++ rest) = .ok (j, rest)

theorem exists_head_number (negative : Bool) (f : Figure) :
    ∃ c cs, signText negative ++ f.chars = c :: cs ∧ isSpace c = false ∧ c ≠ '"' ∧ c ≠ '[' ∧
      c ≠ ']' ∧ c ≠ '\x7b' := by
  obtain ⟨d, ds, hchars, hd⟩ := f.toPlain.exists_cons
  cases negative with
  | true => exact ⟨'-', f.chars, rfl, by decide⟩
  | false =>
    have hne {c : Char} (hc : c.isDigit = false) : d ≠ c := Double.digit_ne hd hc
    refine ⟨d, ds ++ f.powerChars, ?_, ?_, hne (by decide), hne (by decide), hne (by decide),
      hne (by decide)⟩
    · rw [Figure.chars, hchars]
      rfl
    · have hblank : d ≠ ' ' := hne (by decide)
      have htab : d ≠ '\t' := hne (by decide)
      have hline : d ≠ '\n' := hne (by decide)
      have hreturn : d ≠ '\r' := hne (by decide)
      simp [isSpace, hblank, htab, hline, hreturn]

theorem reads_number {j : Json} {negative : Bool} {f : Figure}
    (hchars : chars j = signText negative ++ f.chars) (hjson : f.json negative = j)
    (short : f.isWhole = true → f.whole.length ≤ maxDigits) : Reads words room j := by
  intro bound rest enough ends
  obtain ⟨c, cs, hcs, hspace, hquote, hbracket, -, hbrace⟩ := exists_head_number negative f
  obtain ⟨d, ds, hplain, hd⟩ := f.toPlain.exists_cons
  rw [hchars, hcs] at enough
  obtain ⟨bound, rfl⟩ := Nat.exists_eq_add_of_le' (Nat.le_trans (Nat.le_add_left 1 _) enough)
  calc readValue words (bound + 1) room (chars j ++ rest)
      = readWord words (signText negative ++ d :: (ds ++ (f.powerChars ++ rest))) := by
        rw [hchars, hcs, List.cons_append, readValue_word ⟨hspace, hquote, hbracket, hbrace⟩,
          ← List.cons_append, ← hcs, Figure.chars, hplain]
        simp
    _ = readNumber negative (f.chars ++ rest) := by
        rw [readWord_number negative hd, Figure.chars, hplain]
        simp
    _ = .ok (j, rest) := by rw [f.readNumber_figure negative short ends.endsNumber, hjson]

theorem readValue_blank (cs : List Char) :
    readValue words bound room (' ' :: cs) = readValue words bound room cs := by
  cases bound with
  | zero => rfl
  | succ bound =>
    rw [readValue, readValue]
    rfl

theorem readItems_blank (cs : List Char) :
    readItems words bound room (' ' :: cs) = readItems words bound room cs := by
  cases bound with
  | zero => rfl
  | succ bound => rw [readItems, readItems, readValue_blank]

theorem readMembers_blank (cs : List Char) :
    readMembers words bound room (' ' :: cs) = readMembers words bound room cs := by
  cases bound with
  | zero => rfl
  | succ bound =>
    rw [readMembers, readMembers]
    rfl

theorem readItems_chars {items : List Json} (h : ∀ j ∈ items, Reads words room j)
    (nonempty : items ≠ []) (enough : (itemChars items).length + 1 ≤ bound) :
    readItems words bound room (itemChars items ++ ']' :: rest) = .ok (items, rest) := by
  induction items generalizing bound with
  | nil => exact absurd rfl nonempty
  | cons j items ih =>
    obtain ⟨hj, hitems⟩ := List.forall_mem_cons.mp h
    obtain ⟨bound, rfl⟩ : ∃ n, bound = n + 1 := ⟨bound - 1, by omega⟩
    cases items with
    | nil =>
      have hvalue := hj bound (']' :: rest) (by simpa [itemChars] using enough)
        (by simp [EndsValue])
      simp only [itemChars, readItems, hvalue]
      rfl
    | cons j' items =>
      rw [itemChars_cons_cons] at enough ⊢
      simp only [List.length_append, List.length_cons] at enough
      have hvalue := hj bound (',' :: ' ' :: (itemChars (j' :: items) ++ ']' :: rest)) (by omega)
        (by simp [EndsValue])
      have hrest : readItems words bound room (itemChars (j' :: items) ++ ']' :: rest) =
          .ok (j' :: items, rest) := ih hitems (List.cons_ne_nil _ _) (by omega)
      rw [List.append_assoc, readItems]
      simp only [List.cons_append, hvalue, bind, Except.bind]
      rw [skipSpace_of_head (by decide)]
      simp only [readItems_blank, hrest]
      rfl

theorem oneMember_append (m : String × Json) (rest : List Char) :
    oneMember m ++ rest =
      '"' :: (m.1.toList.flatMap escapeChar ++ '"' :: ':' :: ' ' :: (chars m.2 ++ rest)) := by
  simp [oneMember, stringChars]

/-- The reader goes on behind a member as behind its value. -/
theorem readMembers_oneMember {m : String × Json} (h : Reads words room m.2)
    (enough : (oneMember m).length ≤ bound) (ends : EndsValue rest) :
    readMembers words (bound + 1) room (oneMember m ++ rest) =
      match skipSpace rest with
      | ',' :: rest => (readMembers words bound room rest).map fun (ms, rest) => (m :: ms, rest)
      | '\x7d' :: rest => .ok ([m], rest)
      | _ => .error .malformed := by
  have hvalue := h bound rest (by simp [oneMember] at enough; omega) ends
  rw [oneMember_append, readMembers, skipSpace_of_head (by decide)]
  simp only [readString_chars, bind, Except.bind]
  rw [skipSpace_of_head (by decide)]
  simp only [readValue_blank, hvalue]
  rfl

theorem readMembers_chars {members : List (String × Json)}
    (h : ∀ m ∈ members, Reads words room m.2) (nonempty : members ≠ [])
    (enough : (memberChars members).length + 1 ≤ bound) :
    readMembers words bound room (memberChars members ++ '\x7d' :: rest) =
      .ok (members, rest) := by
  induction members generalizing bound with
  | nil => exact absurd rfl nonempty
  | cons m members ih =>
    obtain ⟨hm, hmembers⟩ := List.forall_mem_cons.mp h
    obtain ⟨bound, rfl⟩ : ∃ n, bound = n + 1 := ⟨bound - 1, by omega⟩
    cases members with
    | nil =>
      show readMembers words (bound + 1) room (oneMember m ++ '\x7d' :: rest) = _
      rw [readMembers_oneMember hm (Nat.le_of_succ_le_succ enough) (by simp [EndsValue])]
      rfl
    | cons m' members =>
      rw [memberChars_cons_cons] at enough ⊢
      simp only [List.length_append, List.length_cons] at enough
      have hrest : readMembers words bound room (memberChars (m' :: members) ++ '\x7d' :: rest) =
          .ok (m' :: members, rest) := ih hmembers (List.cons_ne_nil _ _) (by omega)
      rw [List.append_assoc, readMembers_oneMember hm (by omega) (by simp [EndsValue]),
        List.cons_append, skipSpace_of_head (by decide)]
      simp only [List.cons_append, readMembers_blank, hrest]
      rfl

theorem exists_head_word {d : Double} (h : d.isFinite = false) :
    ∃ c cs, chars (.float d) = c :: cs ∧ isSpace c = false ∧ c ≠ '"' ∧ c ≠ '[' ∧ c ≠ ']' ∧
      c ≠ '\x7b' := by
  rw [chars]
  unfold floatChars
  cases d with
  | nan => exact ⟨_, _, rfl, by decide⟩
  | infinite negative => cases negative <;> exact ⟨_, _, rfl, by decide⟩
  | finite => cases h

/-- No value begins with space, nor with the end of a list. -/
theorem exists_head (j : Json) : ∃ c cs, chars j = c :: cs ∧ isSpace c = false ∧ c ≠ ']' := by
  cases j with
  | null => exact ⟨_, _, rfl, by decide⟩
  | bool b => cases b <;> exact ⟨_, _, rfl, by decide⟩
  | str s => exact ⟨_, _, rfl, by decide⟩
  | list items => exact ⟨_, _, rfl, by decide⟩
  | dict members => exact ⟨_, _, rfl, by decide⟩
  | int i =>
    obtain ⟨f, hf, -⟩ := exists_figure_int i
    obtain ⟨c, cs, hcs, hspace, -, -, hbracket, -⟩ := exists_head_number (decide (i < 0)) f
    exact ⟨c, cs, hf.trans hcs, hspace, hbracket⟩
  | float d =>
    cases hfinite : d.isFinite with
    | true =>
      obtain ⟨negative, f, hf, -⟩ := exists_figure_float hfinite
      obtain ⟨c, cs, hcs, hspace, -, -, hbracket, -⟩ := exists_head_number negative f
      exact ⟨c, cs, hf.trans hcs, hspace, hbracket⟩
    | false =>
      obtain ⟨c, cs, hcs, hspace, -, -, hbracket, -⟩ := exists_head_word hfinite
      exact ⟨c, cs, hcs, hspace, hbracket⟩

theorem exists_head_items (j : Json) (items : List Json) :
    ∃ c cs, itemChars (j :: items) = c :: cs ∧ isSpace c = false ∧ c ≠ ']' := by
  obtain ⟨c, cs, hcs, hhead⟩ := exists_head j
  cases items with
  | nil => exact ⟨c, cs, hcs, hhead⟩
  | cons j' items =>
    rw [itemChars_cons_cons, hcs]
    exact ⟨c, _, rfl, hhead⟩

theorem exists_tail_members (m : String × Json) (members : List (String × Json)) :
    ∃ cs, memberChars (m :: members) = '"' :: cs := by
  cases members with
  | nil => exact ⟨_, rfl⟩
  | cons m' members =>
    rw [memberChars_cons_cons]
    exact ⟨_, rfl⟩

theorem exists_bound {j : Json} (enough : (chars j).length ≤ bound) : ∃ n, bound = n + 1 := by
  obtain ⟨c, cs, hcs, -⟩ := exists_head j
  rw [hcs, List.length_cons] at enough
  exact ⟨bound - 1, by omega⟩

theorem reads_word {j : Json} (h : ∀ rest, readWord words (chars j ++ rest) = .ok (j, rest))
    (head : ∀ c ∈ (chars j).head?, c ≠ '"' ∧ c ≠ '[' ∧ c ≠ '\x7b') : Reads words room j := by
  intro bound rest enough _
  obtain ⟨c, cs, hcs, hspace, -⟩ := exists_head j
  obtain ⟨bound, rfl⟩ := exists_bound enough
  have hhead := head c (by rw [hcs]; rfl)
  have hword := h rest
  rw [hcs, List.cons_append] at hword ⊢
  rw [readValue_word ⟨hspace, hhead⟩, hword]

theorem reads_str (s : String) : Reads words room (.str s) := by
  intro bound rest enough _
  obtain ⟨bound, rfl⟩ := exists_bound enough
  have hshape : chars (.str s) ++ rest = '"' :: (s.toList.flatMap escapeChar ++ '"' :: rest) := by
    simp [chars, stringChars]
  rw [hshape, readValue, skipSpace_of_head (by decide)]
  simp only [readString_chars, bind, Except.bind]
  rfl

theorem reads_list {items : List Json} (h : ∀ j ∈ items, Reads words room j) :
    Reads words (room + 1) (.list items) := by
  intro bound rest enough _
  obtain ⟨bound, rfl⟩ := exists_bound enough
  have hshape : chars (.list items) ++ rest = '[' :: (itemChars items ++ ']' :: rest) := by
    simp [chars]
  simp only [chars, List.length_cons, List.length_append, List.length_nil] at enough
  rw [hshape, readValue, skipSpace_of_head (by decide)]
  cases items with
  | nil => rfl
  | cons j items =>
    have hitems : readItems words bound room (itemChars (j :: items) ++ ']' :: rest) =
        .ok (j :: items, rest) := readItems_chars h (List.cons_ne_nil _ _) (by omega)
    obtain ⟨c, cs, hcs, hspace, hbracket⟩ := exists_head_items j items
    rw [hcs, List.cons_append] at hitems ⊢
    simp only [Nat.add_one_ne_zero, if_false, skipSpace_of_head hspace, Nat.add_sub_cancel]
    split
    · next heq => exact absurd (List.cons.inj heq).1 hbracket
    · rw [hitems]
      rfl

theorem reads_dict {members : List (String × Json)} (distinct : (members.map Prod.fst).Nodup)
    (h : ∀ m ∈ members, Reads words room m.2) : Reads words (room + 1) (.dict members) := by
  intro bound rest enough _
  obtain ⟨bound, rfl⟩ := exists_bound enough
  have hshape : chars (.dict members) ++ rest =
      '\x7b' :: (memberChars members ++ '\x7d' :: rest) := by
    simp [chars]
  simp only [chars, List.length_cons, List.length_append, List.length_nil] at enough
  rw [hshape, readValue, skipSpace_of_head (by decide)]
  cases members with
  | nil => rfl
  | cons m members =>
    have hmembers : readMembers words bound room (memberChars (m :: members) ++ '\x7d' :: rest) =
        .ok (m :: members, rest) := readMembers_chars h (List.cons_ne_nil _ _) (by omega)
    obtain ⟨cs, hcs⟩ := exists_tail_members m members
    rw [hcs, List.cons_append] at hmembers ⊢
    have hspace : isSpace '"' = false := by decide
    simp only [Nat.add_one_ne_zero, if_false, skipSpace_of_head hspace, Nat.add_sub_cancel]
    split
    · next heq => exact absurd (List.cons.inj heq).1 (by decide)
    · rw [hmembers, ← ofMembers_of_distinct distinct]
      rfl

theorem Fits.reads {j : Json} (h : Fits words room j) : Reads words room j := by
  induction h with
  | null => exact reads_word readWord_null (by simp [chars])
  | bool b => exact reads_word (readWord_bool b) (by cases b <;> simp [chars])
  | int short =>
    obtain ⟨f, hf, -, hwhole, hjson⟩ := exists_figure_int _
    refine reads_number hf hjson fun _ => ?_
    rw [hwhole]
    exact short
  | @float room d known =>
    cases hfinite : d.isFinite with
    | true =>
      obtain ⟨negative, f, hf, hwhole, hjson⟩ := exists_figure_float hfinite
      exact reads_number hf hjson fun h => absurd (hwhole.symm.trans h) Bool.false_ne_true
    | false =>
      obtain rfl : words = .allowed := known.resolve_right (by simp [hfinite])
      refine reads_word (readWord_notFinite hfinite) ?_
      obtain ⟨c, cs, hcs, -, hquote, hbracket, -, hbrace⟩ := exists_head_word hfinite
      rw [hcs, List.head?_cons]
      rintro c' ⟨⟩
      exact ⟨hquote, hbracket, hbrace⟩
  | str s => exact reads_str s
  | list h ih => exact reads_list ih
  | dict distinct h ih => exact reads_dict distinct ih

/-- A value that fits is read from the text that is printed of it. -/
theorem read_print {j : Json} (h : Fits words maxNesting j) : read words (print j) = .ok j := by
  have hvalue := h.reads (2 * (chars j).length + 2) [] (by omega) nofun
  rw [List.append_nil] at hvalue
  rw [read, print, String.toList_ofList]
  simp only [hvalue, bind, Except.bind]
  rfl

end Json

end TimedText

import TimedText.Proofs.Filter.Seconds
import TimedText.Proofs.Filter.Token

/-!
# Reading a filter expression

With the font and the box known, an expression says everything about the cues that show something:
`readExpression` gives back their texts, their looks and their times as they were written. A clause
is read from its front and leaves what follows it untouched (`readClause_clause`), whatever the
text of the cue imitates; the clauses follow by induction on the list of cues
(`readClauses_join`). So two lists of cues with one expression show the same
(`compile_determines_captions`).
-/

namespace TimedText.Filter

/-- What a clause says about its cue. -/
structure Caption where
  text : String
  color : String
  fontSize : Nat
  position : Position
  start : String
  stop : String
  deriving DecidableEq, Repr

/-- What the clause of a cue says. -/
def Caption.ofCue (c : Cue) : Caption where
  text := c.text
  color := c.color
  fontSize := c.fontSize
  position := c.position
  start := seconds c.start
  stop := seconds c.stop

/-! ## One clause -/

/-- What stands in front of the text of a clause. -/
def clauseHead (font : String) : List Char :=
  "drawtext=fontfile=".toList ++ font.toList ++ ":text='".toList

/-- What stands behind the times of a clause. -/
def clauseTail (box : Box) : List Char :=
  "':box=1:boxcolor=".toList ++ box.color.toList ++ ":boxborderw=".toList
    ++ (toString box.border).toList

/-- What a clause in front of a list of characters says, and the characters behind it. -/
def readClause (font : String) (box : Box) (cs : List Char) : Option (Caption × List Char) := do
  let cs ← afterText (clauseHead font) cs
  let (text, cs) ← untilClose cs
  let cs ← afterText "fontcolor=".toList cs
  let (color, cs) ← untilChar ':' cs
  let cs ← afterText "fontsize=".toList cs
  let (fontSize, cs) ← untilChar ':' cs
  let cs ← afterText "x=(w-text_w)/2:y=".toList cs
  let (place, cs) ← untilChar ':' cs
  let position ← ofPositionY (String.ofList place)
  let cs ← afterText "enable='between(t,".toList cs
  let (start, cs) ← untilChar ',' cs
  let (stop, cs) ← untilChar ')' cs
  let cs ← afterText (clauseTail box) cs
  return (⟨String.ofList (unescapeChars text), String.ofList (ofColorChars color),
    Nat.ofDigitChars 10 fontSize 0, position, String.ofList start, String.ofList stop⟩, cs)

/-- The parts of a clause, each with the character that ends it. -/
theorem toList_clause (font : String) (box : Box) (c : Cue) (rest : List Char) :
    (clause font box c).toList ++ rest =
      clauseHead font ++ (escapeChars c.text.toList ++ '\'' :: ':' ::
        ("fontcolor=".toList ++ (colorChars c.color.toList ++ ':' ::
          ("fontsize=".toList ++ (Nat.toDigits 10 c.fontSize ++ ':' ::
            ("x=(w-text_w)/2:y=".toList ++ ((positionY c.position).toList ++ ':' ::
              ("enable='between(t,".toList ++ ((seconds c.start).toList ++ ',' ::
                ((seconds c.stop).toList ++ ')' :: (clauseTail box ++ rest))))))))))) := by
  unfold clause clauseHead clauseTail enableExpression escape colorToken
  simp only [String.toList_append, String.toList_ofList, List.append_assoc,
    Nat.toString_eq_repr, Nat.toList_repr]
  rfl

/-- A reader goes on with what it read. -/
theorem bind_of_some {α β : Type} {read : Option α} {a : α} {next : α → Option β}
    (h : read = some a) : (read >>= next) = next a := by
  rw [h]
  rfl

theorem ofPositionY_toList (p : Position) :
    ofPositionY (String.ofList (positionY p).toList) = some p := by
  rw [String.ofList_toList, ofPositionY_positionY]

theorem readClause_clause (font : String) (box : Box) (c : Cue) (rest : List Char) :
    readClause font box ((clause font box c).toList ++ rest) = some (.ofCue c, rest) := by
  have hsize : ':' ∉ Nat.toDigits 10 c.fontSize := fun h =>
    absurd (Nat.isDigit_of_mem_toDigits (by decide) (by decide) h) (by decide)
  have hcomma : ',' ∉ (seconds c.start).toList := not_mem_seconds (by decide) (by decide) _
  have hclose : ')' ∉ (seconds c.stop).toList := not_mem_seconds (by decide) (by decide) _
  unfold readClause
  rw [toList_clause]
  refine (bind_of_some (afterText_append _ _)).trans ?_
  refine (bind_of_some (untilClose_escapeChars _ _)).trans ?_
  refine (bind_of_some (afterText_append _ _)).trans ?_
  refine (bind_of_some (untilChar_append (colon_not_mem_colorChars c.color_valid) _)).trans ?_
  refine (bind_of_some (afterText_append _ _)).trans ?_
  refine (bind_of_some (untilChar_append hsize _)).trans ?_
  refine (bind_of_some (afterText_append _ _)).trans ?_
  refine (bind_of_some (untilChar_append (colon_not_mem_positionY c.position) _)).trans ?_
  refine (bind_of_some (ofPositionY_toList c.position)).trans ?_
  refine (bind_of_some (afterText_append _ _)).trans ?_
  refine (bind_of_some (untilChar_append hcomma _)).trans ?_
  refine (bind_of_some (untilChar_append hclose _)).trans ?_
  refine (bind_of_some (afterText_append _ _)).trans ?_
  rw [unescapeChars_escapeChars, ofColorChars_colorChars c.color_valid,
    Nat.ofDigitChars_ten_toDigits]
  simp only [String.ofList_toList]
  rfl

/-! ## All clauses -/

/-- The captions of clauses joined by commas; at most so many. -/
def readClauses (font : String) (box : Box) : Nat → List Char → Option (List Caption)
  | 0, _ => none
  | n + 1, cs => do
    let (caption, rest) ← readClause font box cs
    match rest with
    | [] => return [caption]
    | ',' :: rest => return caption :: (← readClauses font box n rest)
    | _ => none

/-- The captions of an expression. Each takes a character at least. -/
def readExpression (font : String) (box : Box) (s : String) : Option (List Caption) :=
  match s.toList with
  | [] => some []
  | cs => readClauses font box cs.length cs

theorem readClause_last (font : String) (box : Box) (c : Cue) :
    readClause font box (clause font box c).toList = some (.ofCue c, []) := by
  have h := readClause_clause font box c []
  rwa [List.append_nil] at h

theorem readClauses_join (font : String) (box : Box) (c : Cue) (cs : List Cue) {n : Nat}
    (hn : cs.length < n) :
    readClauses font box n
        ([','].intercalate ((c :: cs).map fun d => (clause font box d).toList)) =
      some ((c :: cs).map Caption.ofCue) := by
  induction cs generalizing c n with
  | nil =>
    obtain ⟨n, rfl⟩ := Nat.exists_eq_succ_of_ne_zero (Nat.ne_of_gt hn)
    rw [List.map_singleton, List.intercalate_singleton, readClauses, readClause_last]
    rfl
  | cons d cs ih =>
    obtain ⟨n, rfl⟩ := Nat.exists_eq_succ_of_ne_zero (Nat.ne_of_gt (Nat.zero_lt_of_lt hn))
    have hrest := ih d (Nat.lt_of_succ_lt_succ hn)
    rw [List.map_cons] at hrest
    rw [List.map_cons, List.map_cons, List.intercalate_cons_cons, List.append_assoc, readClauses,
      readClause_clause]
    simp only [Option.bind_eq_bind, Option.bind_some, List.singleton_append, hrest, Option.pure_def]
    rfl

theorem length_clause_pos (font : String) (box : Box) (c : Cue) :
    0 < (clause font box c).toList.length := by
  have hparts := congrArg List.length (toList_clause font box c [])
  simp only [List.length_append, List.length_cons, List.length_nil] at hparts
  omega

/-- Each clause takes a character at least. -/
theorem length_lt_intercalate (font : String) (box : Box) (c : Cue) (cs : List Cue) :
    cs.length <
      ([','].intercalate ((c :: cs).map fun d => (clause font box d).toList)).length := by
  induction cs generalizing c with
  | nil =>
    rw [List.map_singleton, List.intercalate_singleton]
    exact length_clause_pos font box c
  | cons d cs ih =>
    have hrest := ih d
    rw [List.map_cons] at hrest
    rw [List.map_cons, List.map_cons, List.intercalate_cons_cons, List.length_append,
      List.length_append, List.length_cons, List.length_singleton]
    omega

theorem readExpression_of_ne {font : String} {box : Box} {s : String} (h : s.toList ≠ []) :
    readExpression font box s = readClauses font box s.toList.length s.toList := by
  unfold readExpression
  split
  · contradiction
  · rfl

theorem toList_compile (font : String) (box : Box) (cues : List Cue) :
    (compile font box cues).expression.toList =
      [','].intercalate ((cues.filter fun c => !c.isBlank).map fun d =>
        (clause font box d).toList) := by
  rw [compile, String.toList_intercalate, clauses, List.map_map]
  rfl

theorem readExpression_compile (font : String) (box : Box) (cues : List Cue) :
    readExpression font box (compile font box cues).expression =
      some ((cues.filter fun c => !c.isBlank).map Caption.ofCue) := by
  have hchars := toList_compile font box cues
  generalize cues.filter (fun c => !c.isBlank) = shown at hchars ⊢
  cases shown with
  | nil =>
    unfold readExpression
    rw [hchars]
    rfl
  | cons c cs =>
    have hlength := length_lt_intercalate font box c cs
    rw [← hchars] at hlength
    have hne := List.ne_nil_of_length_pos (Nat.zero_lt_of_lt hlength)
    rw [readExpression_of_ne hne, hchars]
    rw [hchars] at hlength
    exact readClauses_join font box c cs hlength

/-- The expression tells what is burned: a reader of expressions gives back, in order, what the cues
that show something say, and two lists of cues are compiled to one expression only if they say the
same. -/
theorem compile_determines_captions (font : String) (box : Box) :
    (∀ cues, readExpression font box (compile font box cues).expression =
      some ((cues.filter fun c => !c.isBlank).map Caption.ofCue)) ∧
    ∀ cues₁ cues₂,
      (compile font box cues₁).expression = (compile font box cues₂).expression →
      (cues₁.filter fun c => !c.isBlank).map Caption.ofCue =
        (cues₂.filter fun c => !c.isBlank).map Caption.ofCue := by
  refine ⟨readExpression_compile font box, ?_⟩
  intro cues₁ cues₂ h
  have h₁ := readExpression_compile font box cues₁
  rw [h, readExpression_compile font box cues₂] at h₁
  exact (Option.some.inj h₁).symm

/-- A cue whose text imitates the end of its clause and the beginning of another one. -/
def imitation : Cue :=
  { Cue.blank with text := "a':fontcolor=0xFFFFFF:fontsize=24,drawtext=fontfile=a.ttf:text='b" }

/-- It is read as the one cue that it is, and a blank cue beside it leaves no trace. -/
theorem imitated_clause_is_text :
    (compile defaultFont {} [.blank, imitation]).expression =
        (compile defaultFont {} [imitation]).expression ∧
      readExpression defaultFont {} (compile defaultFont {} [imitation]).expression =
        some [.ofCue imitation] ∧
      ([.blank, imitation].filter fun c => !c.isBlank).map Caption.ofCue =
        ([imitation].filter fun c => !c.isBlank).map Caption.ofCue := by
  have hsame : (compile defaultFont {} [.blank, imitation]).expression =
      (compile defaultFont {} [imitation]).expression := by decide +kernel
  exact ⟨hsame, (compile_determines_captions defaultFont {}).1 [imitation],
    (compile_determines_captions defaultFont {}).2 _ _ hsame⟩

end TimedText.Filter

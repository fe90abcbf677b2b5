import Mathlib.Data.List.TakeDrop
import TimedText.Json.Printer
import TimedText.Json.Reader
import TimedText.Proofs.Double.Shortest

/-!
# Numbers in JSON texts

A number of RFC 8259 is a sign, a whole part without needless zeros, places behind a point, and a
power of ten: `Figure` is all of it but the sign. The reader takes a whole figure and answers the
number that it writes (`readNumber_figure`).

Whole numbers are printed as figures (`exists_figure_int`), and so are finite doubles, as figures
that read back as the double (`exists_figure_float`).
-/

namespace TimedText

namespace Json

open Double (Plain ofDecimalValue signText)

/-! ## Figures -/

/-- A power of ten as it is written. -/
structure Power where
  mark : Char
  sign : List Char
  digits : List Char
  mark_e : mark = 'e' ∨ mark = 'E'
  sign_one : sign = [] ∨ sign = ['+'] ∨ sign = ['-']
  digits_ne_nil : digits ≠ []
  digits_digit : ∀ c ∈ digits, c.isDigit = true

namespace Power

/-- The power as it is written. -/
def chars (p : Power) : List Char := p.mark :: (p.sign ++ p.digits)

/-- The exponent. -/
def value (p : Power) : Int :=
  let n : Int := Nat.ofDigitChars 10 p.digits 0
  if p.sign = ['-'] then -n else n

end Power

/-- An unsigned number: digits without a needless zero in front, places, and a power of ten. -/
structure Figure extends Plain where
  lead : whole.head? = some '0' → whole = ['0']
  power : Option Power

namespace Figure

/-- What stands behind the places. -/
def powerChars (f : Figure) : List Char :=
  match f.power with
  | none => []
  | some p => p.chars

/-- The number as it is written. -/
def chars (f : Figure) : List Char := f.toPlain.chars ++ f.powerChars

/-- The power of ten, zero if none is written. -/
def exponent (f : Figure) : Int := (f.power.map Power.value).getD 0

/-- The number that is written. -/
def decimal (f : Figure) : Decimal :=
  ⟨Nat.ofDigitChars 10 (f.whole ++ f.places) 0, f.exponent - f.places.length⟩

/-- Whether neither places nor a power are written. -/
def isWhole (f : Figure) : Bool := f.places.isEmpty && f.power.isNone

/-- The value that is written: a whole number, or else the nearest double. -/
def json (f : Figure) (negative : Bool) : Json :=
  if f.isWhole then
    let n : Int := Nat.ofDigitChars 10 f.whole 0
    .int (if negative then -n else n)
  else .float (ofDecimalValue negative f.decimal)

end Figure

/-! ## Reading figures -/

/-- A number ends in front of this text. -/
def EndsNumber (cs : List Char) : Prop :=
  ∀ c ∈ cs.head?, c.isDigit = false ∧ c ≠ '.' ∧ c ≠ 'e' ∧ c ≠ 'E'

/-- A run of digits ends in front of this text. -/
def EndsDigits (cs : List Char) : Prop := ∀ c ∈ cs.head?, c.isDigit = false

theorem EndsNumber.endsDigits {cs : List Char} (h : EndsNumber cs) : EndsDigits cs :=
  fun c hc => (h c hc).1

theorem takeDigits_append {ds rest : List Char} (hds : ∀ c ∈ ds, c.isDigit = true)
    (hrest : EndsDigits rest) : takeDigits (ds ++ rest) = (ds, rest) := by
  have hstop : rest.takeWhile Char.isDigit = [] ∧ rest.dropWhile Char.isDigit = rest := by
    cases rest with
    | nil => exact ⟨rfl, rfl⟩
    | cons c cs =>
      have hc : c.isDigit = false := hrest c rfl
      simp [hc]
  rw [takeDigits, List.span_eq_takeWhile_dropWhile, List.takeWhile_append_of_pos hds,
    List.dropWhile_append_of_pos hds, hstop.1, hstop.2, List.append_nil]

/-- The whole part in front of a text. -/
def readWhole : List Char → List Char × List Char
  | '0' :: rest => (['0'], rest)
  | cs => takeDigits cs

theorem natOfChars_eq (ds : List Char) : natOfChars ds = Nat.ofDigitChars 10 ds 0 :=
  Double.ofDigits_map ds

theorem readPlaces_places {places rest : List Char} (hplaces : places ≠ [])
    (hdigit : ∀ c ∈ places, c.isDigit = true) (hrest : EndsDigits rest) :
    readPlaces ('.' :: (places ++ rest)) = (some places, rest) := by
  obtain ⟨d, ds, rfl⟩ := List.exists_cons_of_ne_nil hplaces
  rw [readPlaces, takeDigits_append hdigit hrest]

theorem readPlaces_none {rest : List Char} (h : ∀ c ∈ rest.head?, c ≠ '.') :
    readPlaces rest = (none, rest) := by
  unfold readPlaces
  split
  · next cs => exact absurd rfl (h '.' rfl)
  · rfl

theorem readExponent_none {rest : List Char} (h : EndsNumber rest) :
    readExponent rest = (none, rest) := by
  cases rest with
  | nil => rfl
  | cons c cs =>
    obtain ⟨-, -, he, hE⟩ := h c rfl
    exact if_neg (not_or.mpr ⟨he, hE⟩)

namespace Power

theorem readSign_chars (p : Power) (rest : List Char) :
    Double.readSign (p.sign ++ (p.digits ++ rest)) =
      (decide (p.sign = ['-']), p.digits ++ rest) := by
  obtain ⟨mark, sign, digits, -, hsign, hne, hdigit⟩ := p
  rcases hsign with rfl | rfl | rfl
  · obtain ⟨d, ds, rfl⟩ := List.exists_cons_of_ne_nil hne
    have hd : d.isDigit = true := hdigit d List.mem_cons_self
    have hminus : d ≠ '-' := Double.digit_ne hd (by decide)
    have hplus : d ≠ '+' := Double.digit_ne hd (by decide)
    simp [Double.readSign, hminus, hplus]
  · rfl
  · rfl

theorem readExponent_chars (p : Power) {rest : List Char} (hrest : EndsDigits rest) :
    readExponent (p.chars ++ rest) = (some p.value, rest) := by
  obtain ⟨d, ds, hds⟩ := List.exists_cons_of_ne_nil p.digits_ne_nil
  have hsign := p.readSign_chars rest
  have htake := takeDigits_append p.digits_digit hrest
  rw [chars, List.cons_append, List.append_assoc, readExponent, if_pos p.mark_e, hsign]
  simp only [htake, natOfChars_eq, value]
  rw [hds]
  simp

theorem ends (p : Power) (rest : List Char) :
    ∀ c ∈ (p.chars ++ rest).head?, c.isDigit = false ∧ c ≠ '.' := by
  rintro c hc
  obtain rfl : p.mark = c := Option.some.inj hc
  rcases p.mark_e with h | h <;> rw [h] <;> decide

end Power

namespace Figure

variable {rest : List Char}

/-- What stands behind the digits of a figure does not begin with another, nor with a point. -/
theorem powerChars_ends (f : Figure) (hrest : EndsNumber rest) :
    ∀ c ∈ (f.powerChars ++ rest).head?, c.isDigit = false ∧ c ≠ '.' := by
  unfold powerChars
  cases f.power with
  | none => exact fun c hc => ⟨(hrest c hc).1, (hrest c hc).2.1⟩
  | some p => exact p.ends rest

theorem readExponent_powerChars (f : Figure) (hrest : EndsNumber rest) :
    readExponent (f.powerChars ++ rest) = (f.power.map Power.value, rest) := by
  unfold powerChars
  cases f.power with
  | none => exact readExponent_none hrest
  | some p => exact p.readExponent_chars hrest.endsDigits

/-- What stands behind the whole part in front of a text. -/
def behind (f : Figure) (rest : List Char) : List Char :=
  (if f.places.isEmpty then [] else '.' :: f.places) ++ (f.powerChars ++ rest)

theorem behind_ends (f : Figure) (hrest : EndsNumber rest) : EndsDigits (f.behind rest) := by
  unfold behind
  by_cases hplaces : f.places = []
  · simp only [hplaces, List.isEmpty_nil, if_true, List.nil_append]
    exact fun c hc => (f.powerChars_ends hrest c hc).1
  · have hempty : f.places.isEmpty = false := by simpa using hplaces
    simp only [hempty, Bool.false_eq_true, if_false, List.cons_append]
    intro c hc
    obtain rfl : '.' = c := Option.some.inj hc
    rfl

/-- The places as they are taken: none if none are written. -/
def places? (f : Figure) : Option (List Char) :=
  if f.places.isEmpty then none else some f.places

theorem readPlaces_behind (f : Figure) (hrest : EndsNumber rest) :
    readPlaces (f.behind rest) = (f.places?, f.powerChars ++ rest) := by
  have hends := f.powerChars_ends hrest
  unfold behind places?
  by_cases hplaces : f.places = []
  · simp only [hplaces, List.isEmpty_nil, if_true, List.nil_append]
    exact readPlaces_none fun c hc => (hends c hc).2
  · have hempty : f.places.isEmpty = false := by simpa using hplaces
    simp only [hempty, Bool.false_eq_true, if_false, List.cons_append]
    exact readPlaces_places hplaces f.places_digit fun c hc => (hends c hc).1

/-- The reader takes all of a figure, unless it is a whole number with too many digits. -/
theorem readNumber_figure (f : Figure) (negative : Bool)
    (short : f.isWhole = true → f.whole.length ≤ maxDigits) (hrest : EndsNumber rest) :
    readNumber negative (f.chars ++ rest) = .ok (f.json negative, rest) := by
  have hchars : f.chars ++ rest = f.whole ++ f.behind rest := by
    simp only [chars, Plain.chars, behind, List.append_assoc]
  have hwhole : readWhole (f.whole ++ f.behind rest) = (f.whole, f.behind rest) := by
    unfold readWhole
    split
    · next cs heq =>
      have hlead : f.whole = ['0'] := by
        apply f.lead
        obtain ⟨d, ds, hds⟩ := List.exists_cons_of_ne_nil f.whole_ne_nil
        rw [hds, List.cons_append] at heq
        rw [hds, List.head?_cons, (List.cons.inj heq).1]
      rw [hlead, List.cons_append, List.nil_append] at heq
      rw [hlead, (List.cons.inj heq).2]
    · exact takeDigits_append f.whole_digit (f.behind_ends hrest)
  rw [hchars]
  unfold readNumber
  split
  next whole tail hfront =>
  obtain ⟨rfl, rfl⟩ := Prod.mk.inj (hfront.symm.trans hwhole)
  have hnonempty : f.whole.isEmpty = false := by simpa using f.whole_ne_nil
  simp only [hnonempty, Bool.false_eq_true, if_false, readPlaces_behind f hrest,
    readExponent_powerChars f hrest, natOfChars_eq]
  unfold places? json decimal exponent isWhole
  cases hplaces : f.places with
  | nil =>
    cases hpower : f.power with
    | none =>
      have hshort := short (by simp [isWhole, hplaces, hpower])
      exact if_neg (Nat.not_lt.mpr hshort)
    | some p => rfl
  | cons d ds => cases f.power <;> rfl

end Figure

/-! ## Printing figures -/

/-- A whole number is printed as its sign and a figure. -/
theorem exists_figure_int (i : Int) :
    ∃ f : Figure, (chars (.int i)) = signText (decide (i < 0)) ++ f.chars ∧
      f.isWhole = true ∧ f.whole = Decimal.digits i.natAbs ∧
      f.json (decide (i < 0)) = .int i := by
  have hlead (n : Nat) : (Decimal.digits n).head? = some '0' → Decimal.digits n = ['0'] := by
    intro h
    by_cases hn : n = 0
    · subst hn
      rfl
    · exact absurd h (Double.head?_digits hn)
  let f : Figure := ⟨⟨Decimal.digits i.natAbs, [], Double.digits_ne_nil _, Double.isDigit_digits,
    List.forall_mem_nil _⟩, hlead _, none⟩
  have hchars : f.chars = Decimal.digits i.natAbs := by
    simp [f, Figure.chars, Figure.powerChars, Plain.chars]
  refine ⟨f, ?_, rfl, rfl, ?_⟩
  · rw [hchars]
    cases i with
    | ofNat n => exact Nat.toList_repr
    | negSucc n =>
      show ("-" ++ toString (n + 1)).toList = _
      rw [String.toList_append, Nat.toString_eq_repr, Nat.toList_repr,
        decide_eq_true (Int.negSucc_lt_zero n)]
      rfl
  · have hwhole : f.isWhole = true := rfl
    simp only [Figure.json, hwhole, if_true, f, Double.ofDigitChars_digits, decide_eq_true_eq,
      Json.int.injEq]
    split <;> omega

/-- The figure of positional notation. -/
theorem exists_figure_positional (c : Nat) (place : Int) (hfront : c ≠ 0 ∨ place = 1) :
    ∃ f : Figure, Decimal.positional true (Decimal.digits c) place = f.chars ∧
      f.isWhole = false ∧ f.decimal.Same ⟨c, place - (Decimal.digits c).length⟩ := by
  obtain ⟨p, hp, hsame, hlead, hplaces, -⟩ := Double.positional_cases true c place
  refine ⟨⟨p, hlead hfront, none⟩, ?_, ?_, ?_⟩
  · rw [hp]
    exact (List.append_nil _).symm
  · have hempty : p.places.isEmpty = false := by simpa using hplaces rfl
    rw [Figure.isWhole, hempty, Bool.false_and]
  · have hvalue : Figure.decimal ⟨p, hlead hfront, none⟩ = p.value := by
      simp [Figure.decimal, Figure.exponent, Plain.value]
    rw [hvalue]
    exact hsame

/-- The power of ten of scientific notation. -/
def Power.ofInt (width : Nat) (n : Int) : Power where
  mark := 'e'
  sign := [if n < 0 then '-' else '+']
  digits := Decimal.padZeros width (Decimal.digits n.natAbs)
  mark_e := .inl rfl
  sign_one := by
    split
    · exact .inr (.inr rfl)
    · exact .inr (.inl rfl)
  digits_ne_nil := by simp [Decimal.padZeros, Double.digits_ne_nil]
  digits_digit := Double.isDigit_append Double.isDigit_replicate Double.isDigit_digits

theorem Power.value_ofInt (width : Nat) (n : Int) : (Power.ofInt width n).value = n := by
  simp only [value, ofInt, Decimal.padZeros, Double.ofDigitChars_zeros, Double.ofDigitChars_digits]
  split
  · rw [if_pos rfl]
    omega
  · rw [if_neg (by decide)]
    omega

/-- The figure of scientific notation. -/
theorem exists_figure_scientific {c : Nat} (hc : c ≠ 0) (width : Nat) (n : Int) :
    ∃ f : Figure, Decimal.scientific width (Decimal.digits c) n = f.chars ∧
      f.isWhole = false ∧ f.decimal = ⟨c, n - ((Decimal.digits c).length - 1 : Nat)⟩ := by
  have hds := Double.ofDigitChars_digits c
  have hdigit := Double.isDigit_digits (n := c)
  have hhead := Double.head?_digits hc
  have hne := Double.digits_ne_nil c
  generalize Decimal.digits c = ds at hds hdigit hhead hne ⊢
  let f : Figure := ⟨⟨ds.take 1, ds.drop 1, by simp [hne],
    fun d hd => hdigit d (List.mem_of_mem_take hd), fun d hd => hdigit d (List.mem_of_mem_drop hd)⟩,
    fun h => absurd ((List.head?_take ..).symm.trans h) hhead, some (.ofInt width n)⟩
  refine ⟨f, ?_, by simp [f, Figure.isWhole], ?_⟩
  · have hplaces : (ds.drop 1).isEmpty = decide (ds.length ≤ 1) := by
      rw [Bool.eq_iff_iff, List.isEmpty_iff, List.drop_eq_nil_iff, decide_eq_true_eq]
    simp only [f, Figure.chars, Figure.powerChars, Plain.chars, hplaces, Decimal.scientific,
      decide_eq_true_eq]
    rfl
  · simp only [f, Figure.decimal, Figure.exponent, List.take_append_drop, hds, Option.map_some,
      Option.getD_some, Power.value_ofInt, List.length_drop]

theorem exists_figure_layOut (d : Decimal) :
    ∃ f : Figure, d.layOut Double.plainLayout = f.chars ∧ f.isWhole = false ∧ f.decimal.Same d := by
  obtain ⟨c, e⟩ := d
  unfold Decimal.layOut
  dsimp only
  split
  · by_cases hc : c = 0
    · subst hc
      obtain ⟨f, hf, hwhole, hsame⟩ := exists_figure_positional 0 1 (.inr rfl)
      refine ⟨f, hf, hwhole, Decimal.same_of_zero ?_ rfl⟩
      obtain ⟨i, j, hzero, -⟩ := hsame
      simpa using hzero
    · rw [if_neg hc]
      obtain ⟨f, hf, hwhole, hsame⟩ :=
        exists_figure_positional c ((Decimal.digits c).length + e) (.inl hc)
      rw [add_sub_cancel_left] at hsame
      exact ⟨f, hf, hwhole, hsame⟩
  · next hscientific =>
    have hc : c ≠ 0 := by
      rintro rfl
      exact hscientific (by simp [Decimal.Layout.isPositional])
    rw [if_neg hc]
    obtain ⟨f, hf, hwhole, hvalue⟩ :=
      exists_figure_scientific hc 2 ((Decimal.digits c).length + e - 1)
    have hlength : 0 < (Decimal.digits c).length := Nat.length_toDigits_pos
    refine ⟨f, hf, hwhole, 0, 0, ?_, ?_⟩
    · rw [hvalue]
    · rw [hvalue]
      dsimp only
      omega

theorem floatChars_finite (negative : Bool) {m shift : Nat} (h : Double.Canonical m shift) :
    floatChars (.finite negative m shift h) =
      signText negative ++
        (Double.finite negative m shift h).shortest.layOut Double.plainLayout := by
  have htext : floatChars (.finite negative m shift h) =
      (Double.finite negative m shift h).text.toList := by
    unfold floatChars
    split
    · next heq => cases heq
    · next heq => cases heq
    · next heq => cases heq
    · rfl
  rw [htext, Double.text]
  generalize Decimal.layOut _ _ = ds
  exact String.toList_ofList

/-- A finite double is printed as its sign and a figure that reads back as the double. -/
theorem exists_figure_float {d : Double} (finite : d.isFinite = true) :
    ∃ (negative : Bool) (f : Figure), chars (.float d) = signText negative ++ f.chars ∧
      f.isWhole = false ∧ f.json negative = .float d := by
  cases d with
  | nan | infinite => cases finite
  | finite negative m shift h =>
    obtain ⟨f, hf, hwhole, hsame⟩ :=
      exists_figure_layOut (Double.finite negative m shift h).shortest
    refine ⟨negative, f, ?_, hwhole, ?_⟩
    · rw [chars, floatChars_finite, hf]
    · rw [Figure.json, hwhole, if_neg Bool.false_ne_true, Double.ofDecimalValue_same negative hsame,
        Double.ofDecimalValue_shortest]

end Json

end TimedText

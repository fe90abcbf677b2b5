import Mathlib.Data.List.Basic
import TimedText.Double.Reader

/-!
# Texts of numbers

The grammar of the texts that are numbers, stated apart from the reader: digits in which single
underscores may stand between two of them (`DigitPart`), a point among them (`Mantissa`), a power of
ten (`PowerPart`), the words for what is no finite number, and a sign in front (`Writes`). Such a
text writes one double. The reader takes just these texts, and answers the double that is written
(`read?_eq_some_iff`), if no character that stands beside the digits is itself a digit (`Apart`).
-/

namespace TimedText

namespace Double

/-! ## The grammar -/

/-- A sign, or none: whether it is a minus. -/
inductive Sign : List Char → Bool → Prop where
  | none : Sign [] false
  | plus : Sign ['+'] false
  | minus : Sign ['-'] true

/-- Digits, at least one, and what they are worth. A single underscore may stand between two. -/
inductive DigitPart (digit : DigitValue) : List Char → List Nat → Prop where
  | one {c : Char} {d : Nat} (hc : digit c = some d) : DigitPart digit [c] [d]
  | next {c : Char} {d : Nat} {cs : List Char} {ds : List Nat} (hc : digit c = some d)
      (rest : DigitPart digit cs ds) : DigitPart digit (c :: cs) (d :: ds)
  | apart {c : Char} {d : Nat} {cs : List Char} {ds : List Nat} (hc : digit c = some d)
      (rest : DigitPart digit cs ds) : DigitPart digit (c :: '_' :: cs) (d :: ds)

/-- Digits, and how many of them stand behind a point. -/
inductive Mantissa (digit : DigitValue) : List Char → List Nat → Nat → Prop where
  | whole {cs : List Char} {ds : List Nat} (hwhole : DigitPart digit cs ds) : Mantissa digit cs ds 0
  | point {cs : List Char} {ds : List Nat} (hwhole : DigitPart digit cs ds) :
      Mantissa digit (cs ++ ['.']) ds 0
  | places {cs : List Char} {ds : List Nat} (hplaces : DigitPart digit cs ds) :
      Mantissa digit ('.' :: cs) ds ds.length
  | both {cs cs' : List Char} {ds ds' : List Nat} (hwhole : DigitPart digit cs ds)
      (hplaces : DigitPart digit cs' ds') :
      Mantissa digit (cs ++ '.' :: cs') (ds ++ ds') ds'.length

/-- A power of ten, or none. -/
inductive PowerPart (digit : DigitValue) : List Char → Int → Prop where
  | empty : PowerPart digit [] 0
  | marked {mark : Char} {sign cs : List Char} {negative : Bool} {ds : List Nat}
      (hmark : mark = 'e' ∨ mark = 'E') (hsign : Sign sign negative)
      (hdigits : DigitPart digit cs ds) :
      PowerPart digit (mark :: (sign ++ cs)) (if negative then -(ofDigits ds) else ofDigits ds)

/-- A word in letters of any case. -/
def Spells (cs : List Char) (word : String) : Prop := String.ofList (cs.map Char.toLower) = word

/-- A number, or one of the words for the others, and the double that it is. -/
inductive Writes (digit : DigitValue) : List Char → Double → Prop where
  | infinite {sign cs : List Char} {negative : Bool} (hsign : Sign sign negative)
      (hword : Spells cs "inf" ∨ Spells cs "infinity") :
      Writes digit (sign ++ cs) (.infinite negative)
  | nan {sign cs : List Char} {negative : Bool} (hsign : Sign sign negative)
      (hword : Spells cs "nan") : Writes digit (sign ++ cs) .nan
  | number {sign cs power : List Char} {negative : Bool} {ds : List Nat} {places : Nat} {p : Int}
      (hsign : Sign sign negative) (hmantissa : Mantissa digit cs ds places)
      (hpower : PowerPart digit power p) :
      Writes digit (sign ++ (cs ++ power)) (ofDecimal negative (ofDigits ds) (p - places))

/-- No character that stands beside digits, and no first letter of a word, is itself a digit. -/
def Apart (digit : DigitValue) : Prop := ∀ c ∈ "+-._eEiInN".toList, digit c = none

variable {digit : DigitValue} {cs rest : List Char} {ds : List Nat} {negative : Bool} {x : Double}

/-- Whatever holds of the characters of a list one by one. -/
theorem forall_mem_of_all {P : Char → Prop} [DecidablePred P]
    (h : cs.all (fun c => decide (P c)) = true) : ∀ c ∈ cs, P c := fun c hc =>
  of_decide_eq_true (List.all_eq_true.mp h c hc)

theorem Apart.ne (h : Apart digit) {c : Char} {d : Nat} (hc : digit c = some d) :
    ∀ c' ∈ "+-._eEiInN".toList, c ≠ c' := by
  rintro c' hc' rfl
  rw [h c hc'] at hc
  cases hc

/-! ## Signs -/

/-- A text that begins with a sign is not read as one without. -/
def Unsigned (cs : List Char) : Prop := ∀ c ∈ cs.head?, c ≠ '-' ∧ c ≠ '+'

theorem readSign_unsigned (h : Unsigned cs) : readSign cs = (false, cs) := by
  unfold readSign
  split
  · exact absurd rfl (h '-' rfl).1
  · exact absurd rfl (h '+' rfl).2
  · rfl

theorem Sign.readSign_append {sign : List Char} (h : Sign sign negative) (hcs : Unsigned cs) :
    readSign (sign ++ cs) = (negative, cs) := by
  cases h with
  | none => exact readSign_unsigned hcs
  | plus => rfl
  | minus => rfl

theorem sign_of_readSign (h : readSign cs = (negative, rest)) :
    ∃ sign, Sign sign negative ∧ cs = sign ++ rest := by
  unfold readSign at h
  split at h
  all_goals obtain ⟨rfl, rfl⟩ := Prod.mk.inj h
  · exact ⟨_, .minus, rfl⟩
  · exact ⟨_, .plus, rfl⟩
  · exact ⟨_, .none, rfl⟩

/-! ## Runs of digits -/

/-- Behind this text a run of digits does not go on. -/
def EndsRun (digit : DigitValue) (cs : List Char) : Prop :=
  ∀ c ∈ cs.head?, digit c = none ∧ c ≠ '_'

theorem DigitPart.exists_cons (h : DigitPart digit cs ds) :
    ∃ c cs' d ds', digit c = some d ∧ cs = c :: cs' ∧ ds = d :: ds' := by
  cases h with
  | one hc => exact ⟨_, _, _, _, hc, rfl, rfl⟩
  | next hc _ => exact ⟨_, _, _, _, hc, rfl, rfl⟩
  | apart hc _ => exact ⟨_, _, _, _, hc, rfl, rfl⟩

theorem digitRun_cons (h : Apart digit) {c : Char} {d : Nat} (hc : digit c = some d) (inside : Bool)
    (cs : List Char) :
    digitRun digit inside (c :: cs) =
      (d :: (digitRun digit true cs).1, (digitRun digit true cs).2) := by
  have hunderscore : c ≠ '_' := h.ne hc '_' (by decide)
  simp [digitRun, hunderscore, hc]

theorem digitRun_underscore (hcs : ∃ c ∈ cs.head?, (digit c).isSome = true) :
    digitRun digit true ('_' :: cs) = digitRun digit false cs := by
  obtain ⟨c, hc, hdigit⟩ := hcs
  have hhead : (cs.head?.bind digit).isSome = true := by
    rw [Option.mem_def.mp hc]
    exact hdigit
  simp [digitRun, hhead]

theorem digitRun_ends (h : EndsRun digit rest) (inside : Bool) :
    digitRun digit inside rest = ([], rest) := by
  cases rest with
  | nil => rfl
  | cons c cs =>
    obtain ⟨hc, hunderscore⟩ := h c rfl
    simp [digitRun, hc, hunderscore]

/-- A run of digits is taken as a whole. -/
theorem DigitPart.digitRun_append (h : Apart digit) (hcs : DigitPart digit cs ds)
    (hrest : EndsRun digit rest) (inside : Bool) :
    digitRun digit inside (cs ++ rest) = (ds, rest) := by
  -- whether the run has begun matters in front of an underscore alone, and none begins it
  induction hcs generalizing inside with
  | one hc =>
    rw [List.cons_append, List.nil_append, digitRun_cons h hc, digitRun_ends hrest]
  | next hc _ ih =>
    rw [List.cons_append, digitRun_cons h hc, ih]
  | apart hc hpart ih =>
    obtain ⟨c', cs', d', ds', hc', rfl, -⟩ := hpart.exists_cons
    have hhead : ∃ c ∈ (c' :: cs' ++ rest).head?, (digit c).isSome = true :=
      ⟨c', rfl, by rw [hc', Option.isSome_some]⟩
    rw [List.cons_append, digitRun_cons h hc, List.cons_append, digitRun_underscore hhead, ih]

/-- What is taken as a run of digits is one, unless nothing is taken. Inside a run an underscore may
stand in front. -/
theorem digitRun_cases (h : Apart digit) (inside : Bool) (cs : List Char) :
    digitRun digit inside cs = ([], cs) ∨
      ∃ part, DigitPart digit part (digitRun digit inside cs).1 ∧
        (cs = part ++ (digitRun digit inside cs).2 ∨
          inside = true ∧ cs = '_' :: (part ++ (digitRun digit inside cs).2)) := by
  induction cs generalizing inside with
  | nil => exact .inl rfl
  | cons c cs ih =>
    by_cases hunderscore : inside = true ∧ c = '_' ∧ (cs.head?.bind digit).isSome = true
    · -- the underscore is passed over, and a run begins behind it
      have hrun : digitRun digit inside (c :: cs) = digitRun digit false cs := by
        rw [digitRun, if_pos hunderscore]
      obtain ⟨hinside, rfl, hhead⟩ := hunderscore
      obtain ⟨c', cs', rfl⟩ : ∃ c' cs', cs = c' :: cs' := by
        cases cs with
        | nil => cases hhead
        | cons c' cs' => exact ⟨c', cs', rfl⟩
      obtain ⟨d, hd⟩ := Option.isSome_iff_exists.mp (show (digit c').isSome = true from hhead)
      rw [hrun]
      rcases ih false with hnone | ⟨part, hpart, heq | ⟨hfalse, -⟩⟩
      · rw [digitRun_cons h hd] at hnone
        cases hnone
      · exact .inr ⟨part, hpart, .inr ⟨hinside, congrArg ('_' :: ·) heq⟩⟩
      · cases hfalse
    · cases hc : digit c with
      | none =>
        left
        rw [digitRun, if_neg hunderscore]
        simp only [hc]
      | some d =>
        right
        rw [digitRun_cons h hc]
        rcases ih true with hnone | ⟨part, hpart, heq | ⟨-, heq⟩⟩
        · exact ⟨[c], by rw [hnone]; exact .one hc, .inl (by rw [hnone]; rfl)⟩
        · exact ⟨c :: part, .next hc hpart, .inl (congrArg (c :: ·) heq)⟩
        · exact ⟨c :: '_' :: part, .apart hc hpart, .inl (congrArg (c :: ·) heq)⟩

/-- What is taken where a number begins is digits, unless nothing is taken. -/
theorem digitPart_of_digitRun (h : Apart digit) (hrun : digitRun digit false cs = (ds, rest)) :
    (ds = [] ∧ cs = rest) ∨ ∃ part, DigitPart digit part ds ∧ cs = part ++ rest := by
  have hcases := digitRun_cases h false cs
  rw [hrun] at hcases
  rcases hcases with hnone | ⟨part, hpart, heq | ⟨hfalse, -⟩⟩
  · obtain ⟨hds, hrest⟩ := Prod.mk.inj hnone
    exact .inl ⟨hds, hrest.symm⟩
  · exact .inr ⟨part, hpart, heq⟩
  · cases hfalse

theorem endsRun_nil : EndsRun digit [] := nofun

theorem DigitPart.unsigned (h : Apart digit) (hcs : DigitPart digit cs ds) : Unsigned cs := by
  obtain ⟨c, cs', d, ds', hc, rfl, -⟩ := hcs.exists_cons
  intro c' hc'
  obtain rfl : c = c' := Option.some.inj hc'
  exact ⟨h.ne hc '-' (by decide), h.ne hc '+' (by decide)⟩

/-! ## Powers -/

theorem PowerPart.readPower (h : Apart digit) {p : Int} (hcs : PowerPart digit cs p) :
    readPower digit cs = some p := by
  cases hcs with
  | empty => rfl
  | marked hmark hsign hdigits =>
    have hunsigned := hdigits.unsigned h
    have hrun := hdigits.digitRun_append h endsRun_nil false
    rw [List.append_nil] at hrun
    obtain ⟨c, cs', d, ds', -, rfl, rfl⟩ := hdigits.exists_cons
    rw [Double.readPower, if_pos hmark, hsign.readSign_append hunsigned]
    simp only [hrun]

theorem powerPart_of_readPower (h : Apart digit) {p : Int} (hread : readPower digit cs = some p) :
    PowerPart digit cs p := by
  cases cs with
  | nil =>
    obtain rfl := Option.some.inj hread
    exact .empty
  | cons mark cs =>
    rw [readPower] at hread
    split at hread
    · next hmark =>
      cases hreadSign : readSign cs with | mk negative rest =>
      obtain ⟨sign, hsign, rfl⟩ := sign_of_readSign hreadSign
      simp only [hreadSign] at hread
      split at hread
      · next d ds hrun =>
        obtain rfl := Option.some.inj hread
        rcases digitPart_of_digitRun h hrun with ⟨hnone, -⟩ | ⟨part, hpart, heq⟩
        · cases hnone
        · rw [heq, List.append_nil]
          exact .marked hmark hsign hpart
      · cases hread
    · cases hread

theorem PowerPart.endsRun (h : Apart digit) {p : Int} (hcs : PowerPart digit cs p) :
    EndsRun digit cs ∧ ∀ c ∈ cs.head?, c ≠ '.' := by
  cases hcs with
  | empty => exact ⟨nofun, nofun⟩
  | marked hmark _ _ =>
    constructor
    · rintro c hc
      cases hc
      rcases hmark with rfl | rfl
      · exact ⟨h 'e' (by decide), by decide⟩
      · exact ⟨h 'E' (by decide), by decide⟩
    · rintro c hc
      cases hc
      rcases hmark with rfl | rfl <;> decide

/-! ## Digits and a point -/

theorem DigitPart.isEmpty_eq_false (h : DigitPart digit cs ds) : ds.isEmpty = false := by
  obtain ⟨_, _, _, _, -, -, rfl⟩ := h.exists_cons
  rfl

theorem endsRun_point (h : Apart digit) (cs : List Char) : EndsRun digit ('.' :: cs) := by
  rintro c hc
  cases hc
  exact ⟨h '.' (by decide), by decide⟩

/-- Without a point, digits are a whole number. -/
theorem readUnsigned_whole {whole : List Nat} (hrun : digitRun digit false cs = (whole, rest))
    (hrest : ∀ c ∈ rest.head?, c ≠ '.') :
    readUnsigned digit negative cs = if whole.isEmpty then none else
      (readPower digit rest).map fun p => ofDecimal negative (ofDigits whole) p := by
  rw [readUnsigned, hrun]
  dsimp only
  split
  · exact absurd rfl (hrest '.' rfl)
  · rfl

theorem readUnsigned_point {whole places : List Nat} {tail : List Char}
    (hrun : digitRun digit false cs = (whole, '.' :: tail))
    (hplaces : digitRun digit false tail = (places, rest)) :
    readUnsigned digit negative cs = if whole.isEmpty && places.isEmpty then none else
      (readPower digit rest).map fun p =>
        ofDecimal negative (ofDigits (whole ++ places)) (p - places.length) := by
  rw [readUnsigned, hrun]
  simp only [hplaces]

theorem Mantissa.readUnsigned (h : Apart digit) {power : List Char} {places : Nat} {p : Int}
    (hcs : Mantissa digit cs ds places) (hpower : PowerPart digit power p) :
    readUnsigned digit negative (cs ++ power) =
      some (ofDecimal negative (ofDigits ds) (p - places)) := by
  obtain ⟨hends, hpoint⟩ := hpower.endsRun h
  have hread := hpower.readPower h
  have hnothing := digitRun_ends hends false
  cases hcs with
  | whole hwhole =>
    have hrun := hwhole.digitRun_append h hends false
    rw [readUnsigned_whole hrun hpoint, hwhole.isEmpty_eq_false, hread]
    simp
  | point hwhole =>
    have hrun := hwhole.digitRun_append h (endsRun_point h power) false
    rw [List.append_assoc, List.singleton_append, readUnsigned_point hrun hnothing,
      hwhole.isEmpty_eq_false, hread]
    simp
  | @places front _ hplaces =>
    have hrun := digitRun_ends (endsRun_point h (front ++ power)) false
    rw [List.cons_append, readUnsigned_point hrun (hplaces.digitRun_append h hends false),
      hplaces.isEmpty_eq_false, hread]
    rfl
  | @both _ behind _ _ hwhole hplaces =>
    have hrun := hwhole.digitRun_append h (endsRun_point h (behind ++ power)) false
    rw [List.append_assoc, List.cons_append,
      readUnsigned_point hrun (hplaces.digitRun_append h hends false), hwhole.isEmpty_eq_false,
      hread]
    rfl

/-- An unsigned number is taken apart as the grammar has it. -/
theorem mantissa_of_readUnsigned (h : Apart digit)
    (hread : readUnsigned digit negative cs = some x) :
    ∃ front power ds places p, cs = front ++ power ∧ Mantissa digit front ds places ∧
      PowerPart digit power p ∧ x = ofDecimal negative (ofDigits ds) (p - (places : Nat)) := by
  cases hrun : digitRun digit false cs with | mk whole rest =>
  by_cases hrest : ∀ c ∈ rest.head?, c ≠ '.'
  · rw [readUnsigned_whole hrun hrest] at hread
    split at hread
    · cases hread
    · next hempty =>
      obtain ⟨p, hp, rfl⟩ := Option.map_eq_some_iff.mp hread
      rcases digitPart_of_digitRun h hrun with ⟨rfl, -⟩ | ⟨part, hpart, rfl⟩
      · exact absurd rfl hempty
      · refine ⟨part, rest, whole, 0, p, rfl, .whole hpart, powerPart_of_readPower h hp, ?_⟩
        rw [Int.natCast_zero, Int.sub_zero]
  · obtain ⟨tail, rfl⟩ : ∃ tail, rest = '.' :: tail := by
      cases rest with
      | nil => exact absurd nofun hrest
      | cons c tail => exact ⟨tail, by simpa using hrest⟩
    cases hplaces : digitRun digit false tail with | mk places power =>
    rw [readUnsigned_point hrun hplaces] at hread
    split at hread
    · cases hread
    · next hempty =>
      obtain ⟨p, hp, rfl⟩ := Option.map_eq_some_iff.mp hread
      have hpower := powerPart_of_readPower h hp
      rcases digitPart_of_digitRun h hrun with ⟨rfl, rfl⟩ | ⟨part, hpart, rfl⟩
      · rcases digitPart_of_digitRun h hplaces with ⟨rfl, rfl⟩ | ⟨part', hpart', rfl⟩
        · exact absurd rfl hempty
        · exact ⟨'.' :: part', power, _, _, p, rfl, .places hpart', hpower, rfl⟩
      · rcases digitPart_of_digitRun h hplaces with ⟨rfl, rfl⟩ | ⟨part', hpart', rfl⟩
        · refine ⟨part ++ ['.'], tail, whole, 0, p, by simp, .point hpart, hpower, ?_⟩
          rw [List.append_nil, List.length_nil]
        · exact ⟨part ++ '.' :: part', power, _, _, p, by simp, .both hpart hpart', hpower, rfl⟩

/-! ## Words -/

theorem eq_of_toLower {c d : Char} (h : c.toLower = d) :
    c = d ∨ c = Char.ofNat (d.toNat - 32) := by
  unfold Char.toLower at h
  split at h
  · next hupper =>
    have hlow : 65 ≤ c.toNat := UInt32.le_iff_toNat_le.mp hupper.1
    have hhigh : c.toNat ≤ 90 := UInt32.le_iff_toNat_le.mp hupper.2
    have hcode : d.toNat = c.toNat + 32 := by
      rw [← h]
      show (c.val + 32).toNat = _
      rw [UInt32.toNat_add]
      show (c.toNat + 32) % 2 ^ 32 = _
      omega
    right
    rw [hcode, Nat.add_sub_cancel, Char.ofNat_toNat]
  · exact .inl h

theorem Spells.exists_cons {word : String} {d : Char} (h : Spells cs word)
    (hword : word.toList.head? = some d) : ∃ c cs', cs = c :: cs' ∧ c.toLower = d := by
  cases cs with
  | nil =>
    rw [← h] at hword
    cases hword
  | cons c cs' =>
    rw [← h, String.toList_ofList] at hword
    exact ⟨c, cs', rfl, Option.some.inj hword⟩

theorem Spells.unsigned {word : String} {d : Char} (h : Spells cs word)
    (hword : word.toList.head? = some d) (hd : d ≠ '-' ∧ d ≠ '+') : Unsigned cs := by
  obtain ⟨c, cs', rfl, rfl⟩ := h.exists_cons hword
  rintro c' hc'
  cases hc'
  constructor
  · rintro rfl
    exact hd.1 rfl
  · rintro rfl
    exact hd.2 rfl

/-- A number begins with a digit or a point. -/
theorem Mantissa.exists_cons {places : Nat} (h : Mantissa digit cs ds places) :
    ∃ c cs', cs = c :: cs' ∧ (c = '.' ∨ ∃ d, digit c = some d) := by
  cases h with
  | whole hwhole =>
    obtain ⟨c, cs', d, _, hc, rfl, -⟩ := hwhole.exists_cons
    exact ⟨c, cs', rfl, .inr ⟨d, hc⟩⟩
  | point hwhole =>
    obtain ⟨c, cs', d, _, hc, rfl, -⟩ := hwhole.exists_cons
    exact ⟨c, _, rfl, .inr ⟨d, hc⟩⟩
  | places _ => exact ⟨'.', _, rfl, .inl rfl⟩
  | both hwhole _ =>
    obtain ⟨c, cs', d, _, hc, rfl, -⟩ := hwhole.exists_cons
    exact ⟨c, _, rfl, .inr ⟨d, hc⟩⟩

/-- The first character of a number is neither a sign nor a letter that begins a word. -/
theorem Mantissa.head_ne (h : Apart digit) {places : Nat} (hcs : Mantissa digit cs ds places)
    (rest : List Char) : ∀ c ∈ (cs ++ rest).head?, ∀ c' ∈ "+-iInN".toList, c ≠ c' := by
  obtain ⟨c, cs', rfl, hc⟩ := hcs.exists_cons
  intro c₁ hc₁ c' hc'
  obtain rfl : c = c₁ := Option.some.inj hc₁
  rcases hc with rfl | ⟨d, hd⟩
  · rintro rfl
    revert hc'
    decide
  · have hsubset : ∀ c ∈ "+-iInN".toList, c ∈ "+-._eEiInN".toList :=
      forall_mem_of_all (by decide)
    exact h.ne hd c' (hsubset c' hc')

theorem Mantissa.unsigned (h : Apart digit) {places : Nat} (hcs : Mantissa digit cs ds places)
    (rest : List Char) : Unsigned (cs ++ rest) := fun c hc =>
  ⟨hcs.head_ne h rest c hc '-' (by decide), hcs.head_ne h rest c hc '+' (by decide)⟩

theorem Mantissa.not_spells (h : Apart digit) {places : Nat} (hcs : Mantissa digit cs ds places)
    (rest : List Char) {word : String} {d : Char} (hword : word.toList.head? = some d)
    (hd : d = 'i' ∨ d = 'n') : ¬ Spells (cs ++ rest) word := by
  intro hspells
  obtain ⟨c, cs', heq, hc⟩ := hspells.exists_cons hword
  have hne := hcs.head_ne h rest c (by rw [heq]; rfl)
  rcases hd with rfl | rfl
  · rcases eq_of_toLower hc with rfl | rfl
    · exact hne 'i' (by decide) rfl
    · exact hne 'I' (by decide) rfl
  · rcases eq_of_toLower hc with rfl | rfl
    · exact hne 'n' (by decide) rfl
    · exact hne 'N' (by decide) rfl

/-! ## Reading -/

theorem Writes.read? (h : Apart digit) (hcs : Writes digit cs x) : read? digit cs = some x := by
  unfold Double.read?
  cases hcs with
  | infinite hsign hword =>
    have hunsigned := hword.elim (·.unsigned rfl (by decide)) (·.unsigned rfl (by decide))
    rw [hsign.readSign_append hunsigned]
    exact if_pos hword
  | nan hsign hword =>
    rw [hsign.readSign_append (hword.unsigned rfl (by decide))]
    dsimp only
    rw [show String.ofList _ = "nan" from hword]
    rfl
  | @number _ front power _ _ _ _ hsign hmantissa hpower =>
    have hinf : ¬ (Spells (front ++ power) "inf" ∨ Spells (front ++ power) "infinity") :=
      not_or.mpr ⟨hmantissa.not_spells h power rfl (.inl rfl),
        hmantissa.not_spells h power rfl (.inl rfl)⟩
    have hnan : ¬ Spells (front ++ power) "nan" := hmantissa.not_spells h power rfl (.inr rfl)
    rw [hsign.readSign_append (hmantissa.unsigned h power)]
    exact (if_neg hinf).trans ((if_neg hnan).trans (hmantissa.readUnsigned h hpower))

theorem writes_of_read? (h : Apart digit) (hread : read? digit cs = some x) :
    Writes digit cs x := by
  unfold read? at hread
  cases hreadSign : readSign cs with | mk negative rest =>
  obtain ⟨sign, hsign, rfl⟩ := sign_of_readSign hreadSign
  simp only [hreadSign] at hread
  split at hread
  · next hword =>
    obtain rfl := Option.some.inj hread
    exact .infinite hsign hword
  · split at hread
    · next hword =>
      obtain rfl := Option.some.inj hread
      exact .nan hsign hword
    · obtain ⟨front, power, ds, places, p, rfl, hmantissa, hpower, rfl⟩ :=
        mantissa_of_readUnsigned h hread
      exact .number hsign hmantissa hpower

/-- The texts that are read are those of the grammar, and the double is the one that is written. -/
theorem read?_eq_some_iff (h : Apart digit) : read? digit cs = some x ↔ Writes digit cs x :=
  ⟨writes_of_read? h, Writes.read? h⟩

end Double

end TimedText

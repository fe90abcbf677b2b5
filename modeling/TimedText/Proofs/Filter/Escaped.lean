import Mathlib.Computability.DFA
import TimedText.Proofs.Filter.Token

/-!
# Which texts are written

A backslash is written in front of each quote and each colon of a text, and nothing tells it from a
backslash of the text itself. Still nothing is lost: a text is written as one in which every quote
and every colon stands directly behind a backslash (`Guarded`), every such text is written for
exactly one text, and that one is left over when the backslashes directly in front of quotes and
colons are taken out (`unescape`). An automaton with three states tells these texts from the others.
-/

namespace TimedText.Filter

/-- The characters that a backslash is written in front of. -/
abbrev IsSpecial (c : Char) : Prop := c = '\'' ∨ c = ':'

/-- The text that was written: without the backslashes directly in front of quotes and colons. -/
def unescape (s : String) : String := String.ofList (unescapeChars s.toList)

/-- What is left of the first character in front of what follows it: nothing if it is a backslash
directly in front of a quote or a colon. -/
def keptOf : List Char → List Char
  | [] => []
  | c :: rest => if c = '\\' ∧ (rest.head? = some '\'' ∨ rest.head? = some ':') then [] else [c]

/-- Behind some characters, every quote and every colon has a backslash directly in front of it. -/
def GuardedBehind (front cs : List Char) : Prop :=
  ∀ before c after, cs = before ++ c :: after → IsSpecial c →
    (front ++ before).getLast? = some '\\'

/-- Every quote and every colon has a backslash directly in front of it. That backslash is its own:
what stands directly behind a backslash is one character. -/
def Guarded (cs : List Char) : Prop :=
  ∀ before c after, cs = before ++ c :: after → IsSpecial c → before.getLast? = some '\\'

variable {front cs : List Char} {c : Char}

/-! ## Taking backslashes out -/

/-- Every character is kept but a backslash directly in front of a quote or a colon. -/
theorem unescapeChars_eq (cs : List Char) : unescapeChars cs = cs.tails.flatMap keptOf := by
  induction cs using unescapeChars.induct with
  | case1 cs ih | case2 cs ih =>
    -- the backslash goes, and what it stood in front of is no backslash
    simp [unescapeChars, keptOf, ih]
  | case3 c cs quote colon ih =>
    have hkept : keptOf (c :: cs) = [c] := by
      apply if_neg
      rintro ⟨rfl, h | h⟩
      · obtain ⟨rest, rfl⟩ := List.head?_eq_some_iff.mp h
        exact quote rest rfl rfl
      · obtain ⟨rest, rfl⟩ := List.head?_eq_some_iff.mp h
        exact colon rest rfl rfl
    rw [unescapeChars, ih, List.tails, List.flatMap_cons, hkept]
    · rfl
    · exact quote
    · exact colon
  | case4 => rfl

/-! ## Guarded texts -/

theorem guardedBehind_nil : GuardedBehind front [] := by
  intro before c after h
  simp at h

theorem guardedBehind_cons :
    GuardedBehind front (c :: cs) ↔
      (IsSpecial c → front.getLast? = some '\\') ∧ GuardedBehind (front ++ [c]) cs := by
  constructor
  · intro h
    refine ⟨fun special => ?_, fun before d after hcs special => ?_⟩
    · have hfirst := h [] c cs rfl special
      rwa [List.append_nil] at hfirst
    · have hlater := h (c :: before) d after (by rw [hcs, List.cons_append]) special
      rwa [List.append_cons] at hlater
  · rintro ⟨first, later⟩ before d after hcs special
    cases before with
    | nil =>
      obtain ⟨rfl, -⟩ := List.cons.inj hcs
      rw [List.append_nil]
      exact first special
    | cons e before =>
      obtain ⟨rfl, hrest⟩ := List.cons.inj hcs
      rw [List.append_cons]
      exact later before d after hrest special

/-- What stands in front matters to the first character alone. -/
theorem guardedBehind_of_head {other : List Char} (head : ∀ d ∈ cs.head?, ¬ IsSpecial d)
    (h : GuardedBehind front cs) : GuardedBehind other cs := by
  intro before d after hcs special
  cases before with
  | nil => exact absurd special (head d (by rw [hcs]; rfl))
  | cons e before =>
    have hlater := h (e :: before) d after hcs special
    rwa [List.getLast?_append_of_ne_nil _ (List.cons_ne_nil _ _)] at hlater ⊢

/-! ## Written texts are the guarded ones -/

theorem guardedBehind_escapeChars (front cs : List Char) :
    GuardedBehind front (escapeChars cs) := by
  induction cs generalizing front with
  | nil => exact guardedBehind_nil
  | cons c cs ih =>
    by_cases special : IsSpecial c
    · rw [escapeChars_cons_special special]
      refine guardedBehind_cons.mpr ⟨fun h => absurd h (by decide), ?_⟩
      exact guardedBehind_cons.mpr ⟨fun _ => List.getLast?_concat, ih _⟩
    · rw [escapeChars_cons_other special]
      exact guardedBehind_cons.mpr ⟨fun h => absurd h special, ih _⟩

/-- Where no backslash stands in front, a guarded text is written for what is left of it. -/
theorem escapeChars_unescapeChars (bare : front.getLast? ≠ some '\\')
    (h : GuardedBehind front cs) : escapeChars (unescapeChars cs) = cs := by
  induction cs using unescapeChars.induct generalizing front with
  | case1 cs ih =>
    obtain ⟨-, hquote⟩ := guardedBehind_cons.mp h
    obtain ⟨-, hrest⟩ := guardedBehind_cons.mp hquote
    rw [unescapeChars, escapeChars_cons_special (.inl rfl), ih (by simp) hrest]
  | case2 cs ih =>
    obtain ⟨-, hcolon⟩ := guardedBehind_cons.mp h
    obtain ⟨-, hrest⟩ := guardedBehind_cons.mp hcolon
    rw [unescapeChars, escapeChars_cons_special (.inr rfl), ih (by simp) hrest]
  | case3 c cs quote colon ih =>
    obtain ⟨hfirst, hrest⟩ := guardedBehind_cons.mp h
    have hc : ¬ IsSpecial c := fun special => bare (hfirst special)
    have hread : unescapeChars (c :: cs) = c :: unescapeChars cs := by
      rw [unescapeChars]
      · exact quote
      · exact colon
    rw [hread, escapeChars_cons_other hc]
    congr 1
    by_cases hbackslash : c = '\\'
    · -- a backslash that is kept: what follows it is neither a quote nor a colon
      have hhead : ∀ d ∈ cs.head?, ¬ IsSpecial d := by
        rintro d hd (rfl | rfl)
        · obtain ⟨rest, rfl⟩ := List.head?_eq_some_iff.mp hd
          exact quote rest hbackslash rfl
        · obtain ⟨rest, rfl⟩ := List.head?_eq_some_iff.mp hd
          exact colon rest hbackslash rfl
      exact ih bare (guardedBehind_of_head hhead hrest)
    · have hbare : (front ++ [c]).getLast? ≠ some '\\' := by
        rw [List.getLast?_concat, Ne, Option.some.injEq]
        exact hbackslash
      exact ih hbare hrest
  | case4 => rfl

theorem guarded_iff : Guarded cs ↔ escapeChars (unescapeChars cs) = cs := by
  constructor
  · have hbare : ([] : List Char).getLast? ≠ some '\\' := nofun
    exact fun h => escapeChars_unescapeChars hbare h
  · intro h
    rw [← h]
    exact guardedBehind_escapeChars [] _

/-! ## An automaton -/

/-- Where a reader of written texts stands. -/
inductive Place where
  | behindBackslash
  | elsewhere
  /-- A quote or a colon had no backslash in front of it. -/
  | astray
  deriving DecidableEq

instance : Fintype Place where
  elems := {.behindBackslash, .elsewhere, .astray}
  complete p := by cases p <;> decide

/-- The place behind a character that may stand where it stands. -/
def Place.behind (c : Char) : Place := if c = '\\' then .behindBackslash else .elsewhere

/-- Reads a text and goes astray at a quote or a colon without a backslash in front of it. -/
def reader : DFA Char Place where
  step
    | .behindBackslash, c => .behind c
    | .elsewhere, c => if IsSpecial c then .astray else .behind c
    | .astray, _ => .astray
  start := .elsewhere
  accept := {p | p ≠ .astray}

theorem evalFrom_astray (cs : List Char) : reader.evalFrom .astray cs = .astray := by
  induction cs with
  | nil => rfl
  | cons c cs ih => exact ih

/-- The place behind some characters: it depends on the last of them. -/
def placeOf (front : List Char) : Place :=
  if front.getLast? = some '\\' then .behindBackslash else .elsewhere

theorem placeOf_concat (front : List Char) (c : Char) : placeOf (front ++ [c]) = .behind c := by
  simp only [placeOf, Place.behind, List.getLast?_concat, Option.some.injEq]

theorem evalFrom_placeOf (front cs : List Char) :
    reader.evalFrom (placeOf front) cs ≠ .astray ↔ GuardedBehind front cs := by
  induction cs generalizing front with
  | nil =>
    refine iff_of_true ?_ guardedBehind_nil
    show placeOf front ≠ .astray
    unfold placeOf
    split <;> decide
  | cons c cs ih =>
    rw [guardedBehind_cons, ← ih, placeOf_concat, DFA.evalFrom_cons]
    unfold placeOf
    by_cases hback : front.getLast? = some '\\'
    · rw [if_pos hback]
      exact (and_iff_right fun _ => hback).symm
    · rw [if_neg hback]
      by_cases special : IsSpecial c
      · have hstep : reader.step .elsewhere c = .astray := if_pos special
        rw [hstep, evalFrom_astray]
        exact iff_of_false (fun h => h rfl) fun h => hback (h.1 special)
      · have hstep : reader.step .elsewhere c = .behind c := if_neg special
        rw [hstep]
        exact (and_iff_right fun h => absurd h special).symm

theorem accepts_reader : reader.accepts = {cs | Guarded cs} := by
  ext cs
  exact evalFrom_placeOf [] cs

/-! ## The main statement -/

/-- Writing a text loses nothing, and what is written can be told by looking at neighbours. Taking
out the backslashes directly in front of quotes and colons, and nothing else, gives back the text
that was written; the texts that are written are those in which every quote and every colon has a
backslash directly in front of it, a regular language; each of them is written for what is left of
it; and texts are written one behind the other. -/
theorem escape_is_bijection_onto_guarded_texts :
    (∀ u, (unescape u).toList = u.toList.tails.flatMap keptOf) ∧
    (∀ s, unescape (escape s) = s) ∧
    (∀ u, Guarded u.toList ↔ escape (unescape u) = u) ∧
    (∀ u, Guarded u.toList ↔ ∃ s, escape s = u) ∧
    Language.IsRegular {cs | Guarded cs} ∧
    ∀ a b, escape (a ++ b) = escape a ++ escape b := by
  have hback (s : String) : unescape (escape s) = s := by
    rw [unescape, escape, String.toList_ofList, unescapeChars_escapeChars, String.ofList_toList]
  have hguarded (u : String) : Guarded u.toList ↔ escape (unescape u) = u := by
    rw [guarded_iff, escape, unescape, String.toList_ofList, ← String.toList_inj,
      String.toList_ofList]
  refine ⟨fun u => ?_, hback, hguarded, fun u => ?_, ?_, fun a b => ?_⟩
  · rw [unescape, String.toList_ofList, unescapeChars_eq]
  · rw [hguarded]
    constructor
    · exact fun h => ⟨_, h⟩
    · rintro ⟨s, rfl⟩
      rw [hback]
  · exact ⟨Place, inferInstance, reader, accepts_reader⟩
  · rw [escape, escape, escape, String.toList_append, escapeChars, List.flatMap_append,
      String.ofList_append]
    rfl

/-- A backslash of the text stays where it is, also in front of one that is written. -/
example : escape "\\'a\\b:" = "\\\\'a\\b\\:" ∧ unescape "\\\\'a\\b\\:" = "\\'a\\b:" := by decide

end TimedText.Filter

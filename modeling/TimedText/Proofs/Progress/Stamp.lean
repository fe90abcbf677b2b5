import TimedText.Progress

/-!
# Stamps in a line

A stamp is `time=HH:MM:SS.CC` in decimal digits of any script. The search goes through a line from
its front, so what it finds is the leftmost stamp, whatever broken stamps stand in front of it
(`findElapsed?_eq_some_iff`), and it finds nothing exactly if no stamp stands anywhere in the line
(`findElapsed?_eq_none_iff`). The word `time=` is in every line that has a stamp
(`word_infix_of_findElapsed?`).
-/

namespace TimedText.Progress

/-- The word that begins a stamp. -/
def stampWord : List Char := ['t', 'i', 'm', 'e', '=']

/-- A text is a stamp, and this is the time that it tells. -/
inductive IsStamp : List Char → Elapsed → Prop
  | mk {h₁ h₂ m₁ m₂ s₁ s₂ c₁ c₂ : Char} {hours minutes seconds hundredths : Nat}
      (hours_eq : twoDigits h₁ h₂ = some hours) (minutes_eq : twoDigits m₁ m₂ = some minutes)
      (seconds_eq : twoDigits s₁ s₂ = some seconds)
      (hundredths_eq : twoDigits c₁ c₂ = some hundredths) :
      IsStamp (stampWord ++ [h₁, h₂, ':', m₁, m₂, ':', s₁, s₂, '.', c₁, c₂])
        ⟨hours, minutes, 100 * seconds + hundredths⟩

/-- The leftmost stamp of a text tells this time: none begins further in front. -/
def Leftmost (cs : List Char) (e : Elapsed) : Prop :=
  ∃ before stamp after, cs = before ++ (stamp ++ after) ∧ IsStamp stamp e ∧
    ∀ before' stamp' after' e', cs = before' ++ (stamp' ++ after') → IsStamp stamp' e' →
      before.length ≤ before'.length

variable {c : Char} {cs : List Char} {e : Elapsed}

theorem elapsedAt?_append {stamp : List Char} (h : IsStamp stamp e) (after : List Char) :
    elapsedAt? (stamp ++ after) = some e := by
  cases h with
  | mk hours_eq minutes_eq seconds_eq hundredths_eq =>
    simp [stampWord, elapsedAt?, hours_eq, minutes_eq, seconds_eq, hundredths_eq]

theorem elapsedAt?_eq_some_iff :
    elapsedAt? cs = some e ↔ ∃ stamp after, cs = stamp ++ after ∧ IsStamp stamp e := by
  constructor
  · intro h
    unfold elapsedAt? at h
    split at h
    · next h₁ h₂ m₁ m₂ s₁ s₂ c₁ c₂ after =>
      simp only [bind, Option.bind_eq_some_iff] at h
      obtain ⟨hours, hh, minutes, hm, seconds, hs, hundredths, hc, h⟩ := h
      cases h
      exact ⟨_, after, rfl, .mk hh hm hs hc⟩
    · cases h
  · rintro ⟨stamp, after, rfl, hstamp⟩
    exact elapsedAt?_append hstamp after

/-! ## The search -/

theorem leftmost_of_elapsedAt? {e' : Elapsed} (h : elapsedAt? cs = some e') :
    Leftmost cs e ↔ e' = e := by
  obtain ⟨stamp, after, hcs, hstamp⟩ := elapsedAt?_eq_some_iff.mp h
  constructor
  · rintro ⟨before, stamp', after', hcs', hstamp', hfirst⟩
    have hbefore : before = [] := List.length_eq_zero_iff.mp
      (Nat.le_zero.mp (hfirst [] stamp after e' hcs hstamp))
    rw [hbefore, List.nil_append] at hcs'
    have hfound := elapsedAt?_append hstamp' after'
    rw [← hcs', h] at hfound
    exact Option.some.inj hfound
  · rintro rfl
    exact ⟨[], stamp, after, hcs, hstamp, fun _ _ _ _ _ _ => Nat.zero_le _⟩

theorem leftmost_cons (h : elapsedAt? (c :: cs) = none) :
    Leftmost (c :: cs) e ↔ Leftmost cs e := by
  -- every stamp of the longer text is one of the shorter, one place further in front
  have hback {before stamp after : List Char} {e' : Elapsed}
      (hcs : c :: cs = before ++ (stamp ++ after)) (hstamp : IsStamp stamp e') :
      ∃ before', before = c :: before' ∧ cs = before' ++ (stamp ++ after) := by
    cases before with
    | nil =>
      rw [List.nil_append] at hcs
      have hfound := elapsedAt?_append hstamp after
      rw [← hcs, h] at hfound
      cases hfound
    | cons d before' =>
      injection hcs with hd hcs
      exact ⟨before', congrArg (· :: before') hd.symm, hcs⟩
  constructor
  · rintro ⟨before, stamp, after, hcs, hstamp, hfirst⟩
    obtain ⟨before', rfl, hcs'⟩ := hback hcs hstamp
    refine ⟨before', stamp, after, hcs', hstamp, ?_⟩
    intro before₂ stamp₂ after₂ e₂ hcs₂ hstamp₂
    have hless := hfirst (c :: before₂) stamp₂ after₂ e₂ (congrArg (c :: ·) hcs₂) hstamp₂
    exact Nat.le_of_succ_le_succ hless
  · rintro ⟨before, stamp, after, hcs, hstamp, hfirst⟩
    refine ⟨c :: before, stamp, after, congrArg (c :: ·) hcs, hstamp, ?_⟩
    intro before₂ stamp₂ after₂ e₂ hcs₂ hstamp₂
    obtain ⟨before', rfl, hcs'⟩ := hback hcs₂ hstamp₂
    exact Nat.succ_le_succ (hfirst before' stamp₂ after₂ e₂ hcs' hstamp₂)

theorem findElapsed?_cons :
    findElapsed? (c :: cs) = (elapsedAt? (c :: cs)).or (findElapsed? cs) := rfl

theorem findElapsed?_eq_some_iff : findElapsed? cs = some e ↔ Leftmost cs e := by
  induction cs with
  | nil =>
    refine iff_of_false nofun ?_
    rintro ⟨before, stamp, after, hcs, hstamp, -⟩
    cases hstamp with
    | mk => simp [stampWord] at hcs
  | cons c cs ih =>
    rw [findElapsed?_cons]
    cases h : elapsedAt? (c :: cs) with
    | none => rw [Option.none_or, leftmost_cons h, ih]
    | some e' => rw [Option.some_or, leftmost_of_elapsedAt? h, Option.some.injEq]

theorem findElapsed?_eq_none_iff :
    findElapsed? cs = none ↔ ∀ stamp e, IsStamp stamp e → ¬ stamp <:+: cs := by
  induction cs with
  | nil =>
    refine iff_of_true rfl ?_
    rintro stamp e hstamp hinfix
    cases hstamp with
    | mk => simp [stampWord] at hinfix
  | cons c cs ih =>
    rw [findElapsed?_cons, Option.or_eq_none_iff, ih]
    constructor
    · rintro ⟨hfront, hrest⟩ stamp e hstamp hinfix
      rcases List.infix_cons_iff.mp hinfix with ⟨after, hafter⟩ | hinfix
      · have hfound := elapsedAt?_append hstamp after
        rw [hafter, hfront] at hfound
        cases hfound
      · exact hrest stamp e hstamp hinfix
    · intro hnone
      refine ⟨?_, fun stamp e hstamp hinfix => ?_⟩
      · apply Option.eq_none_iff_forall_ne_some.mpr
        intro e hfound
        obtain ⟨stamp, after, hcs, hstamp⟩ := elapsedAt?_eq_some_iff.mp hfound
        exact hnone stamp e hstamp ⟨[], after, by rw [hcs, List.nil_append]⟩
      · exact hnone stamp e hstamp (List.infix_cons hinfix)

/-- To look for the word before looking for a stamp rejects no line that has one. -/
theorem word_infix_of_findElapsed? (h : findElapsed? cs = some e) : stampWord <:+: cs := by
  obtain ⟨before, stamp, after, rfl, hstamp, -⟩ := findElapsed?_eq_some_iff.mp h
  cases hstamp with
  | mk => exact ⟨before, _, by rw [List.append_assoc, List.append_assoc]⟩

/-- Without a stamp there is no progress, however long the video is. -/
theorem ofLine?_of_findElapsed? {line : String} (h : findElapsed? line.toList = none)
    (total : Option Double) : ofLine? line total = none := by
  unfold ofLine?
  split
  · rfl
  · rw [h, Option.map_none, ite_self]

end TimedText.Progress

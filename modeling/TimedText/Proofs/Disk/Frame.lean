import TimedText.Disk.Basic

/-!
# What writing leaves alone

Whatever is written, directories stay where they are, so a path that led somewhere goes on leading
there; and what is written at one place is not seen at another. `Leaves` says both of two disks and
one place.
-/

namespace TimedText

namespace Disk

variable {d d' : Disk} {p o place : Path} {data : Bytes}

/-- The contents of the file at a place, if there is one. -/
def held (d : Disk) (o : Path) : Option Bytes :=
  match d.node? o with
  | some (.file data) => some data
  | _ => none

/-! ## Places -/

theorem lookup_put (entries : List (Path × Node)) (p q : Path) (n : Node) :
    (entries.filter (·.1 ≠ p) ++ [(p, n)]).lookup q =
      if q = p then some n else entries.lookup q := by
  induction entries with
  | nil =>
    by_cases hq : q = p
    · simp [hq]
    · have : (q == p) = false := by simp [hq]
      simp [hq, List.lookup_cons, this]
  | cons entry entries ih =>
    obtain ⟨p', n'⟩ := entry
    by_cases hp : p' = p
    · subst hp
      rw [List.filter_cons_of_neg (by simp), ih]
      by_cases hq : q = p'
      · rw [if_pos hq, if_pos hq]
      · have : (q == p') = false := by simp [hq]
        simp [hq, List.lookup_cons, this]
    · rw [List.filter_cons_of_pos (by simp [hp]), List.cons_append]
      by_cases hq : q = p'
      · subst hq
        simp [hp]
      · have : (q == p') = false := by simp [hq]
        simp only [List.lookup_cons, this]
        exact ih

theorem node?_put (d : Disk) (p q : Path) (n : Node) :
    (d.put p n).node? q = if q = p ∧ q ≠ [] then some n else d.node? q := by
  unfold node? put
  rw [lookup_put]
  by_cases hq : q = []
  · simp [hq]
  · simp [hq]

theorem node?_nil (d : Disk) : d.node? [] = some .directory := rfl

theorem held_put_of_ne (h : o ≠ place) (n : Node) : (d.put place n).held o = d.held o := by
  unfold held
  rw [node?_put, if_neg fun hplace => h hplace.1]

theorem held_put_file (h : place ≠ []) (data : Bytes) :
    (d.put place (.file data)).held place = some data := by
  unfold held
  rw [node?_put, if_pos ⟨rfl, h⟩]

/-- A node that is no directory is not the root. -/
theorem ne_nil_of_free (free : d.node? place ≠ some .directory) : place ≠ [] := by
  rintro rfl
  exact free d.node?_nil

/-- Directories stay where they are. -/
def Grows (d d' : Disk) : Prop := ∀ p, d.node? p = some .directory → d'.node? p = some .directory

theorem grows_put (free : d.node? p ≠ some .directory) (n : Node) : d.Grows (d.put p n) := by
  intro q hq
  rw [node?_put]
  split
  · next h => exact absurd (h.1 ▸ hq) free
  · exact hq

theorem locate_cons_ok {here : Path} {name : Name} {rest : Path}
    (h : d.locate here (name :: rest) = .ok place) :
    d.node? here = some .directory ∧
      (name = Name.dots ∧ d.locate here.dropLast rest = .ok place ∨
        name ≠ Name.dots ∧ ¬ maxNameBytes < name.bytes.length ∧
          d.locate (here ++ [name]) rest = .ok place) := by
  rw [locate] at h
  split at h
  · cases h
  · cases h
  · next hhere =>
    refine ⟨hhere, ?_⟩
    split at h
    · next hdots => exact .inl ⟨hdots, h⟩
    · next hdots =>
      split at h
      · cases h
      · next hlength => exact .inr ⟨hdots, hlength, h⟩

/-- Names lead nowhere for one of three reasons. -/
theorem locate_error_cases {here : Path} {names : Path} {cause : Cause}
    (h : d.locate here names = .error cause) :
    cause = .notFound ∨ cause = .notDirectory ∨ cause = .nameTooLong := by
  induction names generalizing here with
  | nil => cases h
  | cons name rest ih =>
    rw [locate] at h
    split at h
    · exact .inl (Except.error.inj h).symm
    · exact .inr (.inl (Except.error.inj h).symm)
    · split at h
      · exact ih h
      · split at h
        · exact .inr (.inr (Except.error.inj h).symm)
        · exact ih h

theorem locate_of_grows (h : d.Grows d') {here : Path} {names : Path}
    (found : d.locate here names = .ok place) : d'.locate here names = .ok place := by
  induction names generalizing here with
  | nil => exact found
  | cons name rest ih =>
    obtain ⟨hhere, ⟨hdots, hrest⟩ | ⟨hdots, hlength, hrest⟩⟩ := locate_cons_ok found
    · rw [locate, h here hhere]
      simp only [if_pos hdots]
      exact ih hrest
    · rw [locate, h here hhere]
      simp only [if_neg hdots, if_neg hlength]
      exact ih hrest

theorem locate_append {here middle : Path} {names rest : Path}
    (found : d.locate here names = .ok middle) :
    d.locate here (names ++ rest) = d.locate middle rest := by
  induction names generalizing here with
  | nil =>
    cases found
    rfl
  | cons name names ih =>
    obtain ⟨hhere, ⟨hdots, hrest⟩ | ⟨hdots, hlength, hrest⟩⟩ := locate_cons_ok found
    · rw [List.cons_append, locate, hhere]
      simp only [if_pos hdots]
      exact ih hrest
    · rw [List.cons_append, locate, hhere]
      simp only [if_neg hdots, if_neg hlength]
      exact ih hrest

/-- Names that lead somewhere lead there by way of a middle. -/
theorem locate_append_ok {here : Path} {names rest : Path}
    (found : d.locate here (names ++ rest) = .ok place) :
    ∃ middle, d.locate here names = .ok middle ∧ d.locate middle rest = .ok place := by
  induction names generalizing here with
  | nil => exact ⟨here, rfl, found⟩
  | cons name names ih =>
    obtain ⟨hhere, ⟨hdots, hrest⟩ | ⟨hdots, hlength, hrest⟩⟩ := locate_cons_ok found
    · obtain ⟨middle, hmiddle, hplace⟩ := ih hrest
      refine ⟨middle, ?_, hplace⟩
      rw [locate, hhere]
      simp only [if_pos hdots]
      exact hmiddle
    · obtain ⟨middle, hmiddle, hplace⟩ := ih hrest
      refine ⟨middle, ?_, hplace⟩
      rw [locate, hhere]
      simp only [if_neg hdots, if_neg hlength]
      exact hmiddle

/-- Names that lead nowhere lead nowhere with more names behind them. -/
theorem locate_append_error {here : Path} {names rest : Path} {cause : Cause}
    (lost : d.locate here names = .error cause) :
    d.locate here (names ++ rest) = .error cause := by
  induction names generalizing here with
  | nil => cases lost
  | cons name names ih =>
    rw [List.cons_append, locate]
    rw [locate] at lost
    cases hhere : d.node? here with
    | none => rw [hhere] at lost; exact lost
    | some n =>
      cases n with
      | file data => rw [hhere] at lost; exact lost
      | directory =>
        rw [hhere] at lost
        simp only at lost ⊢
        split
        · next hdots => rw [if_pos hdots] at lost; exact ih lost
        · next hdots =>
          rw [if_neg hdots] at lost
          split
          · next hlength => rw [if_pos hlength] at lost; exact lost
          · next hlength => rw [if_neg hlength] at lost; exact ih lost

/-- A path without double dots leads to the place of the same names. -/
theorem locate_plain {here : Path} {names : Path} (plain : Name.dots ∉ names)
    (found : d.locate here names = .ok place) : place = here ++ names := by
  induction names generalizing here with
  | nil =>
    cases found
    exact (List.append_nil _).symm
  | cons name rest ih =>
    obtain ⟨hname, hrest⟩ := not_or.mp (mt List.mem_cons.mpr plain)
    obtain ⟨-, ⟨hdots, -⟩ | ⟨-, -, hrest'⟩⟩ := locate_cons_ok found
    · exact absurd hdots.symm hname
    · rw [ih hrest hrest', List.append_assoc, List.singleton_append]

theorem access_eq_ok {n : Option Node} :
    d.access p = .ok (place, n) ↔
      ¬ maxPathBytes < textBytes p ∧ d.locate [] p = .ok place ∧ d.node? place = n := by
  unfold access
  constructor
  · intro h
    by_cases hlength : maxPathBytes < textBytes p
    · rw [if_pos hlength] at h
      cases h
    · rw [if_neg hlength] at h
      cases hplace : d.locate [] p with
      | error cause => rw [hplace] at h; cases h
      | ok found => rw [hplace] at h; cases h; exact ⟨hlength, rfl, rfl⟩
  · rintro ⟨hlength, hplace, rfl⟩
    rw [if_neg hlength, hplace]
    rfl

/-- Why a path cannot be used: its text is too long, or the names on it lead nowhere. -/
theorem access_eq_error {cause : Cause} :
    d.access p = .error cause ↔
      maxPathBytes < textBytes p ∧ cause = .nameTooLong ∨
        ¬ maxPathBytes < textBytes p ∧ d.locate [] p = .error cause := by
  unfold access
  by_cases hlength : maxPathBytes < textBytes p
  · rw [if_pos hlength]
    constructor
    · intro h
      cases h
      exact .inl ⟨hlength, rfl⟩
    · rintro (⟨-, rfl⟩ | ⟨hfits, -⟩)
      · rfl
      · exact absurd hlength hfits
  · rw [if_neg hlength]
    cases hplace : d.locate [] p with
    | error cause' =>
      constructor
      · intro h
        cases h
        exact .inr ⟨hlength, rfl⟩
      · rintro (⟨htoo, -⟩ | ⟨-, h⟩)
        · exact absurd htoo hlength
        · cases h
          rfl
    | ok found =>
      constructor
      · intro h
        cases h
      · rintro (⟨htoo, -⟩ | ⟨-, h⟩)
        · exact absurd htoo hlength
        · cases h

/-- A path at which nothing is found leads nowhere. -/
theorem locate_of_access_notFound (h : d.access p = .error .notFound) :
    d.locate [] p = .error .notFound := by
  rcases access_eq_error.mp h with ⟨-, hlong⟩ | ⟨-, hlost⟩
  · cases hlong
  · exact hlost

/-! ## Writing -/

/-- Where a file is written that a path leads to; nowhere if there is a directory. -/
def target? (d : Disk) (p : Path) : Option Path :=
  match d.access p with
  | .ok (place, n) => if n = some .directory then none else some place
  | .error _ => none

theorem target?_eq_some :
    d.target? p = some place ↔
      ¬ maxPathBytes < textBytes p ∧ d.locate [] p = .ok place ∧
        d.node? place ≠ some .directory := by
  unfold target?
  constructor
  · intro h
    split at h
    · next place' n found =>
      obtain ⟨hlength, hplace, rfl⟩ := access_eq_ok.mp found
      split at h
      · cases h
      · next hfree => cases h; exact ⟨hlength, hplace, hfree⟩
    · cases h
  · rintro ⟨hlength, hplace, hfree⟩
    rw [access_eq_ok.mpr ⟨hlength, hplace, rfl⟩]
    exact if_neg hfree

theorem write_eq_ok (h : d.write p data = .ok d') :
    ∃ place, d.target? p = some place ∧ d' = d.put place (.file data) := by
  unfold write at h
  unfold target?
  cases haccess : d.access p with
  | error cause => rw [haccess] at h; cases h
  | ok found =>
    obtain ⟨place, n⟩ := found
    rw [haccess] at h
    refine ⟨place, ?_⟩
    cases n with
    | none => cases h; exact ⟨rfl, rfl⟩
    | some n =>
      cases n with
      | directory => cases h
      | file old => cases h; exact ⟨rfl, rfl⟩

theorem write_of_target (h : d.target? p = some place) (data : Bytes) :
    d.write p data = .ok (d.put place (.file data)) := by
  obtain ⟨hlength, hplace, hfree⟩ := target?_eq_some.mp h
  unfold write
  rw [access_eq_ok.mpr ⟨hlength, hplace, rfl⟩]
  cases hnode : d.node? place with
  | none => rfl
  | some n =>
    cases n with
    | directory => exact absurd hnode hfree
    | file old => rfl

theorem append_eq_ok (h : d.append p data = .ok d') :
    ∃ place content, d.target? p = some place ∧ d' = d.put place (.file content) := by
  unfold append at h
  unfold target?
  cases haccess : d.access p with
  | error cause => rw [haccess] at h; cases h
  | ok found =>
    obtain ⟨place, n⟩ := found
    rw [haccess] at h
    refine ⟨place, ?_⟩
    cases n with
    | none => cases h; exact ⟨data, rfl, rfl⟩
    | some n =>
      cases n with
      | directory => cases h
      | file old => cases h; exact ⟨old ++ data, rfl, rfl⟩

theorem makeDirectory_eq_ok (h : d.makeDirectory p = .ok d') :
    ∃ place, d.target? p = some place ∧ d' = d.put place .directory := by
  unfold makeDirectory at h
  unfold target?
  cases haccess : d.access p with
  | error cause => rw [haccess] at h; cases h
  | ok found =>
    obtain ⟨place, n⟩ := found
    rw [haccess] at h
    cases n with
    | none => cases h; exact ⟨place, rfl, rfl⟩
    | some n => cases h

/-- A file makes no directory, so that paths lead where they led. -/
theorem target?_put_file (free : d.node? place ≠ some .directory) (data : Bytes) (p : Path) :
    (d.put place (.file data)).target? p = d.target? p := by
  have hback : (d.put place (.file data)).Grows d := by
    intro q hq
    rw [node?_put] at hq
    split at hq
    · cases hq
    · exact hq
  have hgrows := grows_put free (.file data)
  ext q
  simp only [target?_eq_some]
  constructor
  · rintro ⟨hlength, hlocate, hfree⟩
    exact ⟨hlength, locate_of_grows hback hlocate, fun h => hfree (hgrows q h)⟩
  · rintro ⟨hlength, hlocate, hfree⟩
    exact ⟨hlength, locate_of_grows hgrows hlocate, fun h => hfree (hback q h)⟩

/-! ## What is left alone -/

/-- The second disk comes from the first by writing elsewhere than at the place. -/
structure Leaves (d d' : Disk) (o : Path) : Prop where
  grows : d.Grows d'
  same : d'.node? o = d.node? o

namespace Leaves

theorem refl (d : Disk) (o : Path) : d.Leaves d o := ⟨fun _ h => h, rfl⟩

theorem trans {d'' : Disk} (h : d.Leaves d' o) (h' : d'.Leaves d'' o) : d.Leaves d'' o :=
  ⟨fun p hp => h'.grows p (h.grows p hp), h'.same.trans h.same⟩

theorem held (h : d.Leaves d' o) : d'.held o = d.held o := by
  unfold Disk.held
  rw [h.same]

theorem put (free : d.node? place ≠ some .directory) (other : place ≠ o) (n : Node) :
    d.Leaves (d.put place n) o := by
  refine ⟨grows_put free n, ?_⟩
  rw [node?_put, if_neg]
  exact fun h => other h.1.symm

theorem write (h : d.write p data = .ok d') (other : d.target? p ≠ some o) : d.Leaves d' o := by
  obtain ⟨place, htarget, rfl⟩ := write_eq_ok h
  refine .put (target?_eq_some.mp htarget).2.2 ?_ _
  rintro rfl
  exact other htarget

end Leaves

/-- What a path without double dots leads to is not a place that it does not begin with. -/
theorem ne_of_target {place : Path} (plain : Name.dots ∉ p) (other : ¬ o <+: p)
    (h : d.target? p = some place) : place ≠ o := by
  obtain ⟨-, hplace, -⟩ := target?_eq_some.mp h
  rw [locate_plain plain hplace, List.nil_append]
  rintro rfl
  exact other List.prefix_rfl

theorem leaves_makeDirectory (plain : Name.dots ∉ p) (other : ¬ o <+: p)
    (h : d.makeDirectory p = .ok d') : d.Leaves d' o := by
  obtain ⟨place, htarget, rfl⟩ := makeDirectory_eq_ok h
  exact .put (target?_eq_some.mp htarget).2.2 (ne_of_target plain other htarget) _

/-- What holds of a disk, and is kept where a directory is made on the way, holds behind them all. -/
theorem makeDirectories_keeps {P : Disk → Prop} (h : P d)
    (step : ∀ d d' q, q <+: p → d.makeDirectory q = .ok d' → P d → P d') :
    P (d.makeDirectories p).2 := by
  unfold makeDirectories
  -- the directories above are made first, with less room
  induction maxMissing generalizing p with
  | zero => exact h
  | succ room ih =>
    rw [makeWithin]
    cases hmade : d.makeDirectory p with
    | ok d' => exact step d d' p List.prefix_rfl hmade h
    | error cause =>
      cases cause with
      | notFound =>
        by_cases hp : p = []
        · simp only [if_pos hp]
          exact h
        · have habove := ih fun d d' q hq => step d d' q (hq.trans (List.dropLast_prefix p))
          simp only [if_neg hp]
          split
          · next e d' hdirs => rw [hdirs] at habove; exact habove
          · next d' hdirs =>
            rw [hdirs] at habove
            cases hmade' : d'.makeDirectory p with
            | ok d'' => exact step d' d'' p List.prefix_rfl hmade' habove
            | error cause => exact habove
      | _ => exact h

theorem leaves_makeDirectories (d : Disk) (plain : Name.dots ∉ p) (other : ¬ o <+: p) :
    d.Leaves (d.makeDirectories p).2 o := by
  refine makeDirectories_keeps (P := fun d' => d.Leaves d' o) (.refl d o) ?_
  intro d₁ d₂ q above hmade hleaves
  exact hleaves.trans (leaves_makeDirectory (fun h => plain (above.subset h))
    (fun h => other (h.trans above)) hmade)

/-! ## Making directories -/

/-- Why no directory is made at a path: it does not lead anywhere, or something is there. -/
theorem makeDirectory_eq_error {cause : Cause} (h : d.makeDirectory p = .error cause) :
    d.access p = .error cause ∨ cause = .alreadyThere := by
  unfold makeDirectory at h
  cases haccess : d.access p with
  | error cause' => rw [haccess] at h; cases h; exact .inl rfl
  | ok found =>
    obtain ⟨place, n⟩ := found
    rw [haccess] at h
    cases n with
    | none => cases h
    | some n => cases h; exact .inr rfl

theorem held_makeDirectory (h : d.makeDirectory p = .ok d') (o : Path) : d'.held o = d.held o := by
  unfold makeDirectory at h
  cases haccess : d.access p with
  | error cause => rw [haccess] at h; cases h
  | ok found =>
    obtain ⟨place, n⟩ := found
    rw [haccess] at h
    cases n with
    | some n => cases h
    | none =>
      cases h
      obtain ⟨-, -, hnode⟩ := access_eq_ok.mp haccess
      unfold held
      rw [node?_put]
      by_cases ho : o = place ∧ o ≠ []
      · rw [if_pos ho, ho.1, hnode]
      · rw [if_neg ho]

/-- Directories are made where nothing was. -/
theorem held_makeDirectories (d : Disk) (p o : Path) :
    (d.makeDirectories p).2.held o = d.held o := by
  refine makeDirectories_keeps (P := fun d' => d'.held o = d.held o) rfl ?_
  intro d₁ d₂ q _ hmade hheld
  exact (held_makeDirectory hmade o).trans hheld

/-- There is room to make at least one. -/
theorem makeDirectories_eq (d : Disk) (p : Path) :
    d.makeDirectories p = d.makeWithin p (maxMissing - 1 + 1) := rfl

/-- A directory that is there need not be made. -/
theorem makeDirectories_of_isDirectory (h : d.isDirectory p = true) :
    d.makeDirectories p = (.ok (), d) := by
  have hthere : d.makeDirectory p = .error .alreadyThere := by
    unfold isDirectory at h
    unfold makeDirectory
    split at h
    · next haccess =>
      rw [haccess]
      rfl
    · cases h
  rw [makeDirectories_eq, makeWithin, hthere]
  simp only [h, if_true]

/-- A directory that could be made and was not there: nothing was found at its path. -/
theorem access_of_made (made : (d.makeDirectories p).1 = .ok ()) (missing : d.isDirectory p = false) :
    (∃ place, d.access p = .ok (place, none)) ∨ d.access p = .error .notFound := by
  rw [makeDirectories_eq, makeWithin] at made
  cases hmade : d.makeDirectory p with
  | ok d' =>
    left
    unfold makeDirectory at hmade
    cases haccess : d.access p with
    | error cause => rw [haccess] at hmade; cases hmade
    | ok found =>
      obtain ⟨place, n⟩ := found
      rw [haccess] at hmade
      cases n with
      | none => exact ⟨place, rfl⟩
      | some n => cases hmade
  | error cause =>
    right
    rw [hmade] at made
    have hcause : cause = .notFound := by
      cases cause <;> first | rfl | (simp only [missing] at made; cases made)
    subst hcause
    rcases makeDirectory_eq_error hmade with haccess | hthere
    · exact haccess
    · cases hthere

/-- A path and the paths above it lead nowhere, so many that the directories are not made. -/
def IsTooDeep (d : Disk) (p : Path) : Prop :=
  ∀ k < maxMissing, d.access (p.take (p.length - k)) = .error .notFound

theorem makeDirectory_eq_notFound_iff :
    d.makeDirectory p = .error .notFound ↔ d.access p = .error .notFound := by
  constructor
  · intro h
    rcases makeDirectory_eq_error h with haccess | hthere
    · exact haccess
    · cases hthere
  · intro h
    unfold makeDirectory
    rw [h]
    rfl

theorem makeDirectories_eq_tooDeep_iff :
    (d.makeDirectories p).1 = .error .tooDeep ↔ d.IsTooDeep p := by
  unfold makeDirectories IsTooDeep
  induction maxMissing generalizing p with
  | zero => exact iff_of_true rfl nofun
  | succ room ih =>
    rw [Nat.forall_lt_succ_left, Nat.sub_zero, List.take_length, ← makeDirectory_eq_notFound_iff,
      makeWithin]
    cases hmade : d.makeDirectory p with
    | ok d' => exact iff_of_false nofun nofun
    | error cause =>
      cases cause with
      | notFound =>
        have hp : p ≠ [] := by
          rintro rfl
          cases makeDirectory_eq_notFound_iff.mp hmade
        -- one step up, the paths above are the paths above the directory above
        have habove (k : Nat) :
            p.take (p.length - (k + 1)) = p.dropLast.take (p.dropLast.length - k) := by
          rw [List.dropLast_eq_take, List.take_take, List.length_take]
          congr 1
          omega
        simp only [if_neg hp, true_and, habove]
        rw [← ih]
        cases hdirs : d.makeWithin p.dropLast room with
        | mk result d' =>
          cases result with
          | error e => exact Iff.rfl
          | ok =>
            refine iff_of_false ?_ nofun
            simp only
            cases d'.makeDirectory p with
            | ok d'' => nofun
            | error cause =>
              simp only
              cases d'.isDirectory p <;> nofun
      | _ =>
        refine iff_of_false ?_ nofun
        simp only
        cases d.isDirectory p <;> nofun

end Disk

end TimedText

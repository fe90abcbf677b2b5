import TimedText.Disk.PathText
import TimedText.Proofs.Disk.Name

/-!
# Where a path leads

A path that is resolved has no double dots left. It is not resolved for one of these reasons: a null
character in it, the home of a user who has none, a directory to start from that has been removed,
or links that lead round in a circle (`Origin.Loses`).
-/

namespace TimedText

namespace PathText

/-! ## Paths without double dots -/

theorem dots_not_mem_collapse (ns : List String) : ".." ∉ collapse ns := by
  -- the names gathered so far hold no double dots, and none are added
  have hfold : ∀ (ns acc : List String), ".." ∉ acc →
      ".." ∉ ns.foldl (fun acc n => if n = ".." then acc.drop 1 else n :: acc) acc := by
    intro ns
    induction ns with
    | nil => exact fun acc h => h
    | cons n ns ih =>
      intro acc h
      refine ih _ ?_
      show ".." ∉ if n = ".." then acc.drop 1 else n :: acc
      split
      · exact fun hmem => h (List.mem_of_mem_drop hmem)
      · next hn => exact fun hmem => (List.mem_cons.mp hmem).elim (fun heq => hn heq.symm) h
  exact fun h => hfold ns [] List.not_mem_nil (List.mem_reverse.mp h)

theorem dots_not_mem_follow {o : Origin} {isAbsolute : Bool} {ns p : List String}
    (h : o.follow isAbsolute ns = .ok p) : ".." ∉ p := by
  unfold Origin.follow at h
  split at h
  · cases h
  split at h
  · cases h
  simp only at h
  split at h
  · cases h
  · cases h
    exact dots_not_mem_collapse _

/-- A path that starts from a home or from a directory has no double dots left. -/
theorem dots_not_mem_resolve {o : Origin} {s : String} {p : List String}
    (h : o.resolve s = .ok p) : ".." ∉ p := by
  unfold Origin.resolve at h
  split at h
  · split at h
    · split at h
      · cases h
      split at h
      · cases h
      · exact dots_not_mem_follow h
    · exact dots_not_mem_follow h
  · exact dots_not_mem_follow h

/-- Names without double dots are none on a disk either. -/
theorem dots_not_mem_path {p : List String} (h : ".." ∉ p) : Disk.Name.dots ∉ Path.ofTexts p := by
  intro hmem
  obtain ⟨s, hs, heq⟩ := List.mem_map.mp hmem
  exact h (Disk.Name.ofText_inj.mp heq ▸ hs)

/-! ## Paths that lead nowhere -/

variable {o : Origin} {s : String} {isAbsolute : Bool} {ns : List String} {reason : Unresolved}

/-- Why names lead nowhere, from the root or from where relative paths start. -/
inductive Origin.Strays (o : Origin) (isAbsolute : Bool) (ns : List String) : Unresolved → Prop
  /-- One of them has a null character in it, -/
  | nul {name : String} (there : name ∈ ns) (null : '\x00' ∈ name.toList) : Strays o isAbsolute ns .nul
  /-- or they start from a directory that has been removed, -/
  | removed (clean : ∀ name ∈ ns, '\x00' ∉ name.toList) (relative : isAbsolute = false)
      (removed : o.isRemoved = true) : Strays o isAbsolute ns .noDirectory
  /-- or links on the way lead round in a circle. -/
  | circle (clean : ∀ name ∈ ns, '\x00' ∉ name.toList)
      (starts : isAbsolute = true ∨ o.isRemoved = false)
      (circle : o.isCircle (o.target isAbsolute ns) = true) :
      Strays o isAbsolute ns (.circle (o.target isAbsolute ns))

theorem hasNul_eq_true_iff {name : String} : hasNul name = true ↔ '\x00' ∈ name.toList :=
  List.contains_iff_mem

theorem Origin.follow_eq_error_iff :
    o.follow isAbsolute ns = .error reason ↔ o.Strays isAbsolute ns reason := by
  have hnul : ns.any hasNul = true ↔ ∃ name ∈ ns, '\x00' ∈ name.toList := by
    simp only [List.any_eq_true, hasNul_eq_true_iff]
  have hclean (clean : ∀ name ∈ ns, '\x00' ∉ name.toList) : ¬ ns.any hasNul = true := fun hany =>
    let ⟨name, there, null⟩ := hnul.mp hany
    clean name there null
  unfold follow
  constructor
  · intro h
    split at h
    · next hany =>
      cases h
      obtain ⟨name, there, null⟩ := hnul.mp hany
      exact .nul there null
    next hany =>
    have clean : ∀ name ∈ ns, '\x00' ∉ name.toList := fun name there null =>
      hany (hnul.mpr ⟨name, there, null⟩)
    split at h
    · next hremoved =>
      cases h
      rw [Bool.and_eq_true, Bool.not_eq_true'] at hremoved
      exact .removed clean hremoved.1 hremoved.2
    next hthere =>
    rw [Bool.and_eq_true, Bool.not_eq_true', not_and] at hthere
    have starts : isAbsolute = true ∨ o.isRemoved = false := by
      cases isAbsolute with
      | true => exact .inl rfl
      | false => exact .inr (Bool.eq_false_iff.mpr (hthere rfl))
    simp only at h
    split at h
    · next hcircle =>
      cases h
      exact .circle clean starts hcircle
    · cases h
  · intro h
    cases h with
    | nul there null => exact if_pos (hnul.mpr ⟨_, there, null⟩)
    | removed clean relative removed =>
      rw [if_neg (hclean clean), relative, removed]
      rfl
    | circle clean starts circle =>
      have hthere : ¬ (!isAbsolute && o.isRemoved) = true := by
        rcases starts with rfl | hremoved
        · exact Bool.false_ne_true
        · rw [hremoved, Bool.and_false]
          exact Bool.false_ne_true
      rw [if_neg (hclean clean), if_neg hthere]
      exact if_pos circle

/-- The path starts from the home of this user. -/
def IsHomeOf (s : String) (user : List Char) (rest : List String) : Prop :=
  leading s = "" ∧ names s = String.ofList ('~' :: user) :: rest

/-- Why a path that is written as this text is not resolved. -/
inductive Origin.Loses (o : Origin) (s : String) : Unresolved → Prop
  /-- It starts from the home of a user with a null character in the name, -/
  | nulUser {user : List Char} {rest : List String} (home : IsHomeOf s user rest)
      (null : '\x00' ∈ user) : Loses o s .nul
  /-- or of one who has none, -/
  | homeless {user : List Char} {rest : List String} (home : IsHomeOf s user rest)
      (clean : '\x00' ∉ user) (unknown : o.home (String.ofList user) = none) : Loses o s .noHome
  /-- or it leads nowhere from that home, -/
  | fromHome {user : List Char} {rest : List String} {dir : String} {reason : Unresolved}
      (home : IsHomeOf s user rest) (clean : '\x00' ∉ user)
      (known : o.home (String.ofList user) = some dir)
      (strays : o.Strays (!(leading dir).isEmpty) (names dir ++ rest) reason) : Loses o s reason
  /-- or it does not start from a home, and leads nowhere. -/
  | elsewhere {reason : Unresolved} (away : ∀ user rest, ¬ IsHomeOf s user rest)
      (strays : o.Strays (!(leading s).isEmpty) (names s) reason) : Loses o s reason

/-- A path starts from the home of a user, or it does not; that is how it is resolved. -/
theorem Origin.resolve_cases (o : Origin) (s : String) :
    (∃ user rest, IsHomeOf s user rest ∧ o.resolve s =
      if '\x00' ∈ user then .error .nul
      else
        match o.home (String.ofList user) with
        | none => .error .noHome
        | some dir => o.follow (!(leading dir).isEmpty) (names dir ++ rest)) ∨
      (∀ user rest, ¬ IsHomeOf s user rest) ∧
        o.resolve s = o.follow (!(leading s).isEmpty) (names s) := by
  cases hleading : (leading s).isEmpty with
  | false =>
    right
    refine ⟨fun user rest h => ?_, ?_⟩
    · rw [h.1] at hleading
      cases hleading
    · simp only [resolve, hleading]
  | true =>
    cases hnames : names s with
    | nil =>
      right
      refine ⟨fun user rest h => ?_, by simp only [resolve, hleading, hnames]⟩
      rw [h.2] at hnames
      cases hnames
    | cons first rest =>
      by_cases hhome : ∃ user, first.toList = '~' :: user
      · -- what follows the tilde in the first name is the user, and may be empty
        obtain ⟨user, huser⟩ := hhome
        have hfirst : first = String.ofList ('~' :: user) := by rw [← huser, String.ofList_toList]
        left
        refine ⟨user, rest, ⟨String.isEmpty_iff.mp hleading, hnames.trans (by rw [hfirst])⟩, ?_⟩
        cases hdir : o.home (String.ofList user) <;>
          simp only [resolve, hleading, hnames, huser, hdir]
      · right
        refine ⟨fun user rest' h => hhome ⟨user, ?_⟩, ?_⟩
        · rw [(List.cons.inj (hnames.symm.trans h.2)).1, String.toList_ofList]
        · unfold resolve
          simp only [hleading, hnames]
          split
          · next user huser => exact absurd ⟨user, huser⟩ hhome
          · rfl

theorem IsHomeOf.unique {user user' : List Char} {rest rest' : List String}
    (h : IsHomeOf s user rest) (h' : IsHomeOf s user' rest') : user = user' ∧ rest = rest' := by
  obtain ⟨hfirst, hrest⟩ := List.cons.inj (h.2.symm.trans h'.2)
  exact ⟨(List.cons.inj (String.ofList_injective hfirst)).2, hrest⟩

theorem Origin.resolve_eq_error_iff : o.resolve s = .error reason ↔ o.Loses s reason := by
  rcases o.resolve_cases s with ⟨user, rest, home, hresolve⟩ | ⟨away, hresolve⟩
  · rw [hresolve]
    constructor
    · intro h
      split at h
      · next null =>
        cases h
        exact .nulUser home null
      next clean =>
      split at h
      · next unknown =>
        cases h
        exact .homeless home clean unknown
      · next dir known => exact .fromHome home clean known (follow_eq_error_iff.mp h)
    · intro h
      cases h with
      | nulUser home' null =>
        obtain ⟨rfl, rfl⟩ := home.unique home'
        exact if_pos null
      | homeless home' clean unknown =>
        obtain ⟨rfl, rfl⟩ := home.unique home'
        rw [if_neg clean, unknown]
      | fromHome home' clean known strays =>
        obtain ⟨rfl, rfl⟩ := home.unique home'
        rw [if_neg clean, known]
        exact follow_eq_error_iff.mpr strays
      | elsewhere away => exact absurd home (away user rest)
  · rw [hresolve, follow_eq_error_iff]
    constructor
    · exact .elsewhere away
    · intro h
      cases h with
      | nulUser home | homeless home | fromHome home => exact absurd home (away _ _)
      | elsewhere _ strays => exact strays

end PathText

end TimedText

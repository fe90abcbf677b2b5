import Mathlib.Data.List.TakeWhile
import TimedText.Sanitize

/-!
# What is left of a message with paths

`IsPath` says what a path is without saying how one is found, and `Replaced` what it means to put
the mark in the place of paths: where a message has one, the one that begins first is taken, in its
full length, everything in front of it stays, and what follows is treated alike. A message has
exactly one text that is made of it in this way, and that is what is shown (`replaced_iff`).

No path is left in it (`Replaced.clean_out`). A path has no bracket, so that one which reached over
an end of a mark does not exist; what lies between two marks was looked through before; and the mark
itself has no slash.
-/

namespace TimedText.Sanitize

/-- A path: a slash, the name of one of the directories, a slash, and one path character or more. -/
def IsPath (p : List Char) : Prop :=
  ∃ root ∈ roots, ∃ below, p = '/' :: root.toList ++ '/' :: below ∧
    below ≠ [] ∧ ∀ c ∈ below, isPathChar c = true

/-- There is no path in a text. -/
def Clean (cs : List Char) : Prop := ∀ p, p <:+: cs → ¬ IsPath p

/-- The second text is the first one with its paths replaced: from the left to the right, each in
its full length. -/
inductive Replaced : List Char → List Char → Prop
  | clean {cs : List Char} (clean : Clean cs) : Replaced cs cs
  | path {kept path behind out : List Char} (isPath : IsPath path)
      (leftmost : ∀ front p rest, kept ++ path ++ behind = front ++ p ++ rest → IsPath p →
        kept.length ≤ front.length)
      (longest : ∀ p, p <+: path ++ behind → IsPath p → p.length ≤ path.length)
      (others : Replaced behind out) :
      Replaced (kept ++ path ++ behind) (kept ++ mark.toList ++ out)

/-! ## Paths -/

section Paths

variable {cs p rest : List Char} {root : String}

theorem slash_not_mem_root (h : root ∈ roots) : '/' ∉ root.toList := by
  revert root
  decide +kernel

theorem isPathChar_bracket : isPathChar '[' = false ∧ isPathChar ']' = false := by decide +kernel

theorem IsPath.bracket_not_mem (h : IsPath p) : '[' ∉ p ∧ ']' ∉ p := by
  obtain ⟨root, hroot, below, rfl, -, hbelow⟩ := h
  have hnames : ∀ root ∈ roots, '[' ∉ root.toList ∧ ']' ∉ root.toList := by decide +kernel
  obtain ⟨hopening, hclosing⟩ := hnames root hroot
  have hchar (c : Char) (hc : isPathChar c = false) : c ∉ below := by
    intro hmem
    rw [hbelow c hmem] at hc
    cases hc
  have hopening' := hchar '[' isPathChar_bracket.1
  have hclosing' := hchar ']' isPathChar_bracket.2
  constructor <;> simp [*]

theorem IsPath.ne_nil (h : IsPath p) : p ≠ [] := by
  obtain ⟨root, -, below, rfl, -⟩ := h
  exact List.cons_ne_nil _ _

/-- What follows the root does not depend on which name was found, since no name has a slash. -/
theorem below_unique {root' : String} {rest' : List Char} (h : root ∈ roots) (h' : root' ∈ roots)
    (same : '/' :: root.toList ++ '/' :: rest = '/' :: root'.toList ++ '/' :: rest') :
    rest = rest' := by
  have hbehind (root : String) (hroot : root ∈ roots) (rest : List Char) :
      (root.toList ++ '/' :: rest).dropWhile (· ≠ '/') = '/' :: rest := by
    have hname : ∀ c ∈ root.toList, decide (c ≠ '/') = true := by
      intro c hc
      exact decide_eq_true fun hslash => slash_not_mem_root hroot (hslash ▸ hc)
    rw [List.dropWhile_append_of_pos hname, List.dropWhile_cons_of_neg (by decide)]
  have htails : root.toList ++ '/' :: rest = root'.toList ++ '/' :: rest' := (List.cons.inj same).2
  have hslash : '/' :: rest = '/' :: rest' := by
    rw [← hbehind root h rest, htails, hbehind root' h' rest']
  exact (List.cons.inj hslash).2

theorem afterRoot?_eq_some_iff :
    afterRoot? cs = some rest ↔ ∃ root ∈ roots, cs = '/' :: root.toList ++ '/' :: rest := by
  have found {rest : List Char} (h : afterRoot? cs = some rest) :
      ∃ root ∈ roots, cs = '/' :: root.toList ++ '/' :: rest := by
    obtain ⟨root, hroot, hfound⟩ := List.exists_of_findSome?_eq_some h
    refine ⟨root, hroot, ?_⟩
    dsimp only at hfound
    split at hfound
    · next hfront =>
      obtain ⟨rest', rfl⟩ := List.isPrefixOf_iff_prefix.mp hfront
      cases hfound
      simp
    · cases hfound
  refine ⟨found, ?_⟩
  rintro ⟨root, hroot, hcs⟩
  have hsome : (afterRoot? cs).isSome := by
    refine List.findSome?_isSome_iff.mpr ⟨root, hroot, ?_⟩
    have hfront : '/' :: (root.toList ++ ['/']) <+: cs := ⟨rest, by rw [hcs]; simp⟩
    simp [hfront]
  obtain ⟨rest', hrest'⟩ := Option.isSome_iff_exists.mp hsome
  obtain ⟨root', hroot', hcs'⟩ := found hrest'
  rw [hrest', below_unique hroot hroot' (hcs.symm.trans hcs')]

/-- The path at the front of a text goes as far as path characters do. -/
theorem afterPath?_eq_some_iff :
    afterPath? cs = some rest ↔
      ∃ path, cs = path ++ rest ∧ IsPath path ∧ ∀ c ∈ rest.head?, isPathChar c = false := by
  constructor
  · intro h
    unfold afterPath? at h
    split at h
    · next c tail hroot =>
      obtain ⟨root, hmem, rfl⟩ := afterRoot?_eq_some_iff.mp hroot
      split at h
      · next hc =>
        cases h
        refine ⟨'/' :: root.toList ++ '/' :: c :: tail.takeWhile isPathChar, ?_, ?_, ?_⟩
        · simp
        · refine ⟨root, hmem, _, rfl, List.cons_ne_nil _ _, ?_⟩
          intro d hd
          rcases List.mem_cons.mp hd with rfl | hd
          · exact hc
          · exact List.mem_takeWhile_imp hd
        · intro d hd
          have hhead := List.head?_dropWhile_not isPathChar tail
          rw [Option.mem_def.mp hd] at hhead
          exact hhead
      · cases h
    · cases h
  · rintro ⟨path, rfl, ⟨root, hroot, below, rfl, hne, hbelow⟩, hstop⟩
    obtain ⟨c, tail, rfl⟩ := List.exists_cons_of_ne_nil hne
    have hfound : afterRoot? ('/' :: root.toList ++ '/' :: c :: tail ++ rest) =
        some (c :: (tail ++ rest)) := afterRoot?_eq_some_iff.mpr ⟨root, hroot, by simp⟩
    have hc : isPathChar c = true := hbelow c List.mem_cons_self
    have htail : ∀ d ∈ tail, isPathChar d = true := fun d hd => hbelow d (List.mem_cons_of_mem c hd)
    have hrest : rest.dropWhile isPathChar = rest := by
      cases rest with
      | nil => rfl
      | cons d rest => exact List.dropWhile_cons_of_neg (Bool.eq_false_iff.mp (hstop d rfl))
    simp only [afterPath?, hfound, if_pos hc, List.dropWhile_append_of_pos htail, hrest]

theorem IsPath.append {more : List Char} (h : IsPath p)
    (hmore : ∀ c ∈ more, isPathChar c = true) : IsPath (p ++ more) := by
  obtain ⟨root, hroot, below, rfl, hne, hbelow⟩ := h
  refine ⟨root, hroot, below ++ more, by simp, by simp [hne], ?_⟩
  intro c hc
  rcases List.mem_append.mp hc with hc | hc
  · exact hbelow c hc
  · exact hmore c hc

/-- What a path goes on with in a longer one are path characters. -/
theorem IsPath.of_append {c : Char} {more : List Char} (h : IsPath p)
    (hmore : IsPath (p ++ c :: more)) :
    isPathChar c = true := by
  obtain ⟨root, hroot, below, rfl, -, -⟩ := h
  obtain ⟨root', hroot', below', hbelow, -, hchars⟩ := hmore
  rw [List.append_assoc, List.cons_append] at hbelow
  have hsame : below ++ c :: more = below' := below_unique hroot hroot' hbelow
  apply hchars
  rw [← hsame]
  exact List.mem_append_right _ List.mem_cons_self

/-- A path that ends where path characters do is the longest one that begins where it does. -/
theorem IsPath.longest_iff (h : IsPath p) :
    (∀ q, q <+: p ++ rest → IsPath q → q.length ≤ p.length) ↔
      ∀ c ∈ rest.head?, isPathChar c = false := by
  constructor
  · intro longest c hc
    obtain ⟨behind, rfl⟩ := List.head?_eq_some_iff.mp hc
    rw [← Bool.not_eq_true]
    intro hpath
    have hlonger := longest (p ++ [c]) ⟨behind, by simp⟩ (h.append (by simpa using hpath))
    rw [List.length_append, List.length_singleton] at hlonger
    omega
  · intro hstop q hq hpath
    by_contra hlonger
    obtain ⟨more, rfl⟩ := List.prefix_of_prefix_length_le (List.prefix_append p rest) hq (by omega)
    cases more with
    | nil => simp at hlonger
    | cons c more =>
      obtain ⟨behind, rfl⟩ := (List.prefix_append_right_inj p).mp hq
      have hend := hstop c rfl
      rw [h.of_append hpath] at hend
      cases hend

/-- No path is found at the front of a text exactly where there is none. -/
theorem afterPath?_eq_none_iff : afterPath? cs = none ↔ ∀ p, p <+: cs → ¬ IsPath p := by
  constructor
  · rintro none p ⟨rest, rfl⟩ hpath
    have hfound : afterPath? (p ++ rest) = some (rest.dropWhile isPathChar) := by
      refine afterPath?_eq_some_iff.mpr ⟨p ++ rest.takeWhile isPathChar, by simp, ?_, ?_⟩
      · exact hpath.append fun c hc => List.mem_takeWhile_imp hc
      · intro c hc
        have hhead := List.head?_dropWhile_not isPathChar rest
        rw [Option.mem_def.mp hc] at hhead
        exact hhead
    rw [none] at hfound
    cases hfound
  · intro none
    refine Option.eq_none_iff_forall_ne_some.mpr fun rest hfound => ?_
    obtain ⟨path, rfl, hpath, -⟩ := afterPath?_eq_some_iff.mp hfound
    exact none path (List.prefix_append path rest) hpath

end Paths

/-! ## The scan -/

section Scan

variable {cs path rest out : List Char} {c : Char}

theorem chars_of_path (h : afterPath? cs = some rest) : chars cs = mark.toList ++ chars rest := by
  rw [chars]
  split
  · next found => rw [Option.some.inj (h.symm.trans found)]
  · next none => rw [none] at h; cases h

theorem chars_cons (h : afterPath? (c :: cs) = none) : chars (c :: cs) = c :: chars cs := by
  rw [chars]
  split
  · next found => rw [h] at found; cases found
  · rfl

theorem chars_nil : chars [] = [] := by
  rw [chars]
  rfl

theorem clean_nil : Clean [] := by
  intro p hp hpath
  exact hpath.ne_nil (List.infix_nil.mp hp)

theorem clean_cons : Clean (c :: cs) ↔ (∀ p, p <+: c :: cs → ¬ IsPath p) ∧ Clean cs := by
  simp only [Clean, List.infix_cons_iff]
  grind

/-- Where there is no path, nothing is replaced. -/
theorem chars_of_clean (h : Clean cs) : chars cs = cs := by
  induction cs with
  | nil => exact chars_nil
  | cons c cs ih =>
    obtain ⟨hfront, hrest⟩ := clean_cons.mp h
    rw [chars_cons (afterPath?_eq_none_iff.mpr hfront), ih hrest]

theorem Replaced.cons (hfront : ∀ p, p <+: c :: cs → ¬ IsPath p) (h : Replaced cs out) :
    Replaced (c :: cs) (c :: out) := by
  cases h with
  | clean clean => exact .clean (clean_cons.mpr ⟨hfront, clean⟩)
  | @path kept path behind out isPath leftmost longest others =>
    have hleft : ∀ front p rest, c :: kept ++ path ++ behind = front ++ p ++ rest → IsPath p →
        (c :: kept).length ≤ front.length := by
      intro front p rest hsplit hpath
      cases front with
      | nil => exact absurd hpath (hfront p ⟨rest, by simpa using hsplit.symm⟩)
      | cons d front =>
        have htail := (List.cons.inj hsplit).2
        exact Nat.succ_le_succ (leftmost front p rest htail hpath)
    exact @Replaced.path (c :: kept) path behind out isPath hleft longest others

/-- The scan makes of a text what has its paths replaced. -/
theorem replaced_chars (cs : List Char) : Replaced cs (chars cs) := by
  induction cs using chars.induct with
  | case1 cs rest found ih =>
    rw [chars_of_path found]
    obtain ⟨path, rfl, hpath, hstop⟩ := afterPath?_eq_some_iff.mp found
    exact @Replaced.path [] path rest _ hpath (fun _ _ _ _ _ => Nat.zero_le _)
      (hpath.longest_iff.mpr hstop) ih
  | case2 none =>
    rw [chars_nil]
    exact .clean clean_nil
  | case3 c cs none ih =>
    rw [chars_cons none]
    exact ih.cons (afterPath?_eq_none_iff.mp none)

theorem chars_kept {kept : List Char} (isPath : IsPath path)
    (leftmost : ∀ front p behind, kept ++ path ++ rest = front ++ p ++ behind → IsPath p →
      kept.length ≤ front.length)
    (longest : ∀ p, p <+: path ++ rest → IsPath p → p.length ≤ path.length) :
    chars (kept ++ path ++ rest) = kept ++ mark.toList ++ chars rest := by
  induction kept with
  | nil =>
    exact chars_of_path (afterPath?_eq_some_iff.mpr
      ⟨path, rfl, isPath, isPath.longest_iff.mp longest⟩)
  | cons c kept ih =>
    have hfront : ∀ p, p <+: c :: (kept ++ path ++ rest) → ¬ IsPath p := by
      rintro p ⟨behind, hsplit⟩ hpath
      exact absurd (leftmost [] p behind hsplit.symm hpath) (by simp)
    have hrest := ih fun front p behind hsplit hpath =>
      Nat.le_of_succ_le_succ (leftmost (c :: front) p behind (congrArg (c :: ·) hsplit) hpath)
    show chars (c :: (kept ++ path ++ rest)) = _
    rw [chars_cons (afterPath?_eq_none_iff.mpr hfront), hrest]
    rfl

/-- There is one text that has the paths replaced, and the scan finds it. -/
theorem replaced_iff : Replaced cs out ↔ out = chars cs := by
  constructor
  · intro h
    induction h with
    | clean clean => rw [chars_of_clean clean]
    | path isPath leftmost longest others ih => rw [chars_kept isPath leftmost longest, ih]
  · rintro rfl
    exact replaced_chars cs

end Scan

/-! ## The seams -/

section Seams

variable {cs out p a b : List Char} {c : Char}

/-- What does not hold a character lies on one side of it. -/
theorem infix_of_infix_append_cons (hc : c ∉ p) (h : p <:+: a ++ c :: b) : p <:+: a ∨ p <:+: b := by
  obtain ⟨front, rest, hsplit⟩ := h
  rw [List.append_assoc] at hsplit
  rcases List.append_eq_append_iff.mp hsplit with ⟨kept, rfl, hrest⟩ | ⟨more, rfl, hrest⟩
  · rcases List.append_eq_append_iff.mp hrest with ⟨kept', rfl, -⟩ | ⟨more, rfl, hmore⟩
    · exact .inl ⟨front, kept', by simp⟩
    · cases more with
      | nil => exact .inl ⟨front, [], by simp⟩
      | cons d more =>
        obtain rfl := (List.cons.inj hmore).1
        simp at hc
  · cases more with
    | nil =>
      cases p with
      | nil => exact .inr (List.nil_infix)
      | cons d p =>
        obtain rfl := (List.cons.inj hrest).1
        simp at hc
    | cons d more =>
      obtain ⟨-, rfl⟩ := List.cons.inj hrest
      exact .inr ⟨more, rest, by simp⟩

theorem mark_eq : mark.toList = '[' :: ("INTERNAL_PATH".toList ++ [']']) := by decide +kernel

/-- In the mark there is no path, since there is no slash. -/
theorem not_isPath_of_infix_mark (h : p <:+: "INTERNAL_PATH".toList) : ¬ IsPath p := by
  rintro ⟨root, -, below, rfl, -⟩
  have hslash : '/' ∈ "INTERNAL_PATH".toList := h.subset List.mem_cons_self
  revert hslash
  decide +kernel

/-- Where paths were replaced none is left. -/
theorem Replaced.clean_out (h : Replaced cs out) : Clean out := by
  induction h with
  | clean clean => exact clean
  | @path kept path behind out isPath leftmost longest others ih =>
    intro p hp hpath
    obtain ⟨hopening, hclosing⟩ := hpath.bracket_not_mem
    rw [mark_eq, List.append_assoc, List.cons_append, List.append_assoc, List.singleton_append] at hp
    rcases infix_of_infix_append_cons hopening hp with hkept | hbehind
    · -- what is kept was looked through before
      obtain ⟨front, rest, rfl⟩ := hkept
      have hlater := leftmost front p (rest ++ path ++ behind) (by simp) hpath
      have hlength := List.length_pos_iff.mpr hpath.ne_nil
      simp only [List.length_append] at hlater
      omega
    · rcases infix_of_infix_append_cons hclosing hbehind with hmark | hout
      · exact not_isPath_of_infix_mark hmark hpath
      · exact ih p hout hpath

end Seams

/-- Of every message, what is shown has no path in it, and showing it again changes nothing. It is
the one text that is made of the message by putting the mark in the place of each path: of those
that begin first, in their full length, while everything else stays where it is. -/
theorem shown_message_has_paths_replaced (s : String) :
    (∀ p, p <:+: (message s).toList → ¬ IsPath p) ∧
      message (message s) = message s ∧
      ∀ out : String, Replaced s.toList out.toList ↔ out = message s := by
  have hreplaced : Replaced s.toList (message s).toList := by
    rw [message, String.toList_ofList]
    exact replaced_chars _
  have hclean : Clean (message s).toList := hreplaced.clean_out
  refine ⟨hclean, ?_, fun out => ?_⟩
  · show String.ofList (chars (message s).toList) = message s
    rw [chars_of_clean hclean, String.ofList_toList]
  · rw [replaced_iff, message, ← String.toList_inj, String.toList_ofList]

end TimedText.Sanitize

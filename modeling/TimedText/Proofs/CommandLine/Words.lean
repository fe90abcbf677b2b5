import Mathlib.Data.List.TakeDrop
import TimedText.CommandLine.Execution
import TimedText.Proofs.Except

/-!
# The same options behind different commands

What can be said about cues is said in the same words behind every command: whatever `filtergraph`
reads without a rest, `preview` and `render` read alike, in any spelling and any order, besides what
only they can be told (`Reads.behind`). Values are free: any cue, size, colour and position
can be given (`readWords_cueWords`).
-/

namespace TimedText.CommandLine

/-- What can be said about the cues of any command, and the wish for help. -/
abbrev common : List Parameter := Command.filtergraph.parameters

section Options

variable {spelling word : String} {p : Parameter} {said : OptionWord}

theorem optionOf?_parameters (c : Command) (h : optionOf? common spelling = some p) :
    optionOf? c.parameters spelling = some p := by
  have all : ∀ c ∈ Command.all, ∀ p ∈ common, ∀ spelling ∈ p.spellings,
      optionOf? c.parameters spelling = some p := by decide +kernel
  have hspelled : spelling ∈ p.spellings := by simpa using List.find?_some h
  exact all c (by cases c <;> decide) p (List.mem_of_find?_eq_some h) spelling hspelled

theorem longSpellings_parameters (c : Command) (h : spelling ∈ longSpellings common) :
    spelling ∈ longSpellings c.parameters := by
  have all : ∀ c ∈ Command.all, ∀ spelling ∈ longSpellings common,
      spelling ∈ longSpellings c.parameters := by decide +kernel
  exact all c (by cases c <;> decide) spelling h

theorem dashes_of_long (c : Command) (h : spelling ∈ longSpellings c.parameters) :
    "--".toList <+: spelling.toList := by
  have all : ∀ c ∈ Command.all, ∀ spelling ∈ longSpellings c.parameters,
      "--".toList <+: spelling.toList := by decide +kernel
  exact all c (by cases c <;> decide) spelling h

theorem splitAtEquals_prefix (word : String) : (splitAtEquals word).1.toList <+: word.toList := by
  have hprefix : (word.toList.span (· ≠ '=')).1 <+: word.toList := by
    rw [List.span_eq_takeWhile_dropWhile]
    exact List.takeWhile_prefix _
  unfold splitAtEquals
  split <;> next hspan =>
    rw [hspan] at hprefix
    rw [String.toList_ofList]
    exact hprefix

/-- An option of the cues is read alike behind every command. -/
theorem readOption_parameters (c : Command) (h : readOption common word = .ok said) :
    readOption c.parameters word = .ok said := by
  have hprefix := splitAtEquals_prefix word
  unfold readOption at h ⊢
  generalize splitAtEquals word = parts at h hprefix ⊢
  obtain ⟨name, value⟩ := parts
  simp only at h hprefix ⊢
  by_cases hlong : name ∈ longSpellings common
  · rw [if_pos hlong] at h
    rw [if_pos (longSpellings_parameters c hlong)]
    cases hfound : optionOf? common name with
    | some p =>
      rw [hfound] at h
      rw [optionOf?_parameters c hfound]
      exact h
    | none =>
      obtain ⟨p, hp, hspelled⟩ := List.mem_flatMap.mp hlong
      have hunknown := List.find?_eq_none.mp hfound p hp
      exact absurd (by simpa using (List.mem_filter.mp hspelled).1) hunknown
  · rw [if_neg hlong] at h
    simp only at h
    split at h
    · cases h
    · next hdashes =>
      -- a word with one dash is no long option of any command
      have hlong' : name ∉ longSpellings c.parameters := fun hl =>
        hdashes (String.startsWith_string_iff.mpr ((dashes_of_long c hl).trans hprefix))
      rw [if_neg hlong']
      simp only [if_neg hdashes]
      unfold readShort at h ⊢
      cases hfound : optionOf? common (String.ofList (word.toList.take 2)) with
      | none =>
        simp only [hfound] at h
        cases h
      | some p =>
        simp only [hfound] at h
        simp only [optionOf?_parameters c hfound]
        exact h

/-- The option that a word is about. -/
def OptionWord.parameter : OptionWord → Parameter
  | .whole p _ | .waiting p _ => p

theorem parameter_mem {options : List Parameter} (h : readOption options word = .ok said) :
    said.parameter ∈ options := by
  have hlong {p : Parameter} {name : String} {value : Option String}
      (hfound : optionOf? options name = some p) (hread : readLong p name value = .ok said) :
      said.parameter ∈ options := by
    have hp : said.parameter = p := by
      unfold readLong at hread
      split at hread <;> cases hread <;> rfl
    rw [hp]
    exact List.mem_of_find?_eq_some hfound
  have hshort (hread : readShort options word = .ok said) : said.parameter ∈ options := by
    unfold readShort at hread
    simp only at hread
    split at hread
    · cases hread
    · next p hfound =>
      cases hread
      have hp : p ∈ options := List.mem_of_find?_eq_some hfound
      split <;> exact hp
  unfold readOption at h
  simp only at h
  split at h
  · next p hfound =>
    split at hfound
    · exact hlong hfound h
    · cases hfound
  · split at h
    · cases h
    · exact hshort h

end Options

/-! ## All words -/

/-- What words say that are read to their end. -/
inductive Reads (options : List Parameter) : List String → Words → Prop
  | nil : Reads options [] {}
  | rest (free : List String) : Reads options ("--" :: free) { free }
  | whole {word : String} {look : List String} {p : Parameter} {value : String} {said : Words}
      (inside : word ≠ "--") (option : isOption word = true)
      (read : readOption options word = .ok (.whole p value)) (more : Reads options look said) :
      Reads options (word :: look) (said.give p value)
  | waiting {word value : String} {look : List String} {p : Parameter} {spelling : String}
      {said : Words} (inside : word ≠ "--") (option : isOption word = true)
      (read : readOption options word = .ok (.waiting p spelling))
      (more : Reads options look said) : Reads options (word :: value :: look) (said.give p value)
  | free {word : String} {look : List String} {said : Words} (inside : word ≠ "--")
      (plain : isOption word = false) (more : Reads options look said) :
      Reads options (word :: look) (said.addFree word)

section Words

variable {options : List Parameter} {look : List String} {said : Words}

theorem reads_of_readWords (h : readWords options true look = .ok said) :
    Reads options look said := by
  induction look using readWords.induct options true generalizing said with
  | case1 =>
    cases h
    exact .nil
  | case2 rest =>
    rw [readWords, if_pos rfl] at h
    cases h
    exact .rest rest
  | case3 word rest inside option problem hread =>
    rw [readWords, if_neg inside, if_pos option, hread] at h
    cases h
  | case4 word rest inside option p value hread ih =>
    rw [readWords, if_neg inside, if_pos option, hread] at h
    obtain ⟨more, hmore, rfl⟩ := map_eq_ok h
    exact .whole inside option hread (ih hmore)
  | case5 word inside option p spelling hread =>
    rw [readWords, if_neg inside, if_pos option, hread] at h
    cases h
  | case6 word inside option p spelling hread value rest ih =>
    rw [readWords, if_neg inside, if_pos option, hread] at h
    obtain ⟨more, hmore, rfl⟩ := map_eq_ok h
    exact .waiting inside option hread (ih hmore)
  | case7 word rest inside plain mixed ih =>
    rw [readWords, if_neg inside, if_neg plain, if_pos rfl] at h
    obtain ⟨more, hmore, rfl⟩ := map_eq_ok h
    exact .free inside (Bool.eq_false_iff.mpr plain) (ih hmore)
  | case8 word rest inside plain mixed => exact absurd rfl mixed

theorem Reads.readWords (h : Reads options look said) :
    readWords options true look = .ok said := by
  induction h with
  | nil => rfl
  | rest free => rw [CommandLine.readWords, if_pos rfl]
  | whole inside option read more ih =>
    rw [CommandLine.readWords, if_neg inside, if_pos option, read]
    simp only [ih, Except.map]
  | waiting inside option read more ih =>
    rw [CommandLine.readWords, if_neg inside, if_pos option, read]
    simp only [ih, Except.map]
  | free inside plain more ih =>
    rw [CommandLine.readWords, if_neg inside, plain, if_neg Bool.false_ne_true, if_pos rfl, ih]
    rfl

/-- What is read of the cues behind one command is read alike behind every other. -/
theorem Reads.behind (c : Command) (h : Reads common look said) :
    Reads c.parameters look said := by
  induction h with
  | nil => exact .nil
  | rest free => exact .rest free
  | whole inside option read more ih =>
    exact .whole inside option (readOption_parameters c read) ih
  | waiting inside option read more ih =>
    exact .waiting inside option (readOption_parameters c read) ih
  | free inside plain more ih => exact .free inside plain ih

/-- Only options that are known are given. -/
theorem Reads.mem_of_given (h : Reads options look said) :
    ∀ given ∈ said.given, given.1 ∈ options := by
  induction h with
  | nil | rest => nofun
  | whole inside option read more ih | waiting inside option read more ih =>
    exact List.forall_mem_cons.mpr ⟨parameter_mem read, ih⟩
  | free inside plain more ih => exact ih

end Words

/-! ## Words with any values -/

/-- The words that give cues and all of their look. -/
def cueWords (cues : List String) (size color position : String) : List String :=
  cues.flatMap (["--cue", ·]) ++ ["--font-size", size, "--color", color, "--position", position]

/-- What they say. -/
def cueWordsSaid (cues : List String) (size color position : String) : Words where
  given := cues.map (.cue, ·) ++ [(.fontSize, size), (.color, color), (.position, position)]

/-- Any text is taken for a value, also one that looks like an option. -/
theorem readWords_cueWords (cues : List String) (size color position : String) :
    readWords common true (cueWords cues size color position) =
      .ok (cueWordsSaid cues size color position) := by
  have hcue : readOption common "--cue" = .ok (.waiting .cue "--cue") := by decide +kernel
  have hsize : readOption common "--font-size" = .ok (.waiting .fontSize "--font-size") := by
    decide +kernel
  have hcolor : readOption common "--color" = .ok (.waiting .color "--color") := by decide +kernel
  have hposition : readOption common "--position" = .ok (.waiting .position "--position") := by
    decide +kernel
  refine Reads.readWords ?_
  induction cues with
  | nil =>
    exact .waiting (by decide) (by decide) hsize
      (.waiting (by decide) (by decide) hcolor (.waiting (by decide) (by decide) hposition .nil))
  | cons cue cues ih => exact .waiting (by decide) (by decide) hcue ih

theorem values_cueWordsSaid (cues : List String) (size color position : String) :
    (cueWordsSaid cues size color position).values .cue = cues := by
  induction cues with
  | nil => rfl
  | cons cue cues ih => exact congrArg (cue :: ·) ih

end TimedText.CommandLine

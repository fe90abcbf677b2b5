import Mathlib.Data.List.Basic
import TimedText.Workspace
import TimedText.Proofs.Bytes

/-!
# Names of the encoder's directory

A name is accepted by comparing it with the last name of the path that it reads as. Reading a path
drops empty names and single dots, so the comparison fails for every text with a slash: a last name
has none. What is left are the texts that are one name by themselves (`accepts_iff`), and each of
them that the file system can spell leads to a place of its own right below the directory.

Texts without lone halves are spelled differently if they are different (`file?_ofText_inj`). Of
those with halves this does not hold: two of them can stand for the bytes of one character.
-/

namespace TimedText

namespace PathText

variable {α : Type} [DecidableEq α] {slash dot : α} {s n : List α}

theorem slash_not_mem_splitOn (s : List α) : ∀ part ∈ s.splitOn slash, slash ∉ part := by
  induction s with
  | nil => simp
  | cons a s ih =>
    rw [List.splitOn_cons_eq_if_modifyHead]
    by_cases ha : a = slash
    · rw [if_pos (by simpa using ha)]
      intro part hpart
      rcases List.mem_cons.mp hpart with rfl | hpart
      · exact List.not_mem_nil
      · exact ih part hpart
    · rw [if_neg (by simpa using ha)]
      -- the first part grows by `a`, the others stay
      obtain ⟨first, rest, hparts⟩ := List.exists_cons_of_ne_nil (List.splitOn_ne_nil slash s)
      rw [hparts] at ih ⊢
      intro part hpart
      rcases List.mem_cons.mp hpart with rfl | hpart
      · have hfirst := ih first (List.mem_cons_self)
        simpa [Ne.symm ha] using hfirst
      · exact ih part (List.mem_cons_of_mem _ hpart)

theorem slash_not_mem_namesOn (h : n ∈ namesOn slash dot s) : slash ∉ n :=
  slash_not_mem_splitOn s n (List.mem_filter.mp h).1

/-- A text without a slash that is not empty and not a dot is one name. -/
theorem namesOn_of_no_slash (empty : s ≠ []) (noSlash : slash ∉ s) (single : s ≠ [dot]) :
    namesOn slash dot s = [s] := by
  unfold namesOn
  rw [List.splitOn_eq_singleton noSlash]
  simp [empty, single]

end PathText

/-! ## Spelling -/

open Text (Letter)

namespace LooseText

variable {l : Letter} {s : LooseText} {bs : Bytes}

theorem bytes?_cons :
    bytes? (l :: s) = some bs ↔
      ∃ front rest, l.bytes? = some front ∧ bytes? s = some rest ∧ bs = front ++ rest := by
  unfold bytes?
  rw [List.mapM_cons]
  cases l.bytes? with
  | none => simp
  | some front =>
    cases s.mapM Letter.bytes? with
    | none => simp
    | some parts => simp [eq_comm]

/-- The bytes of a text of characters are its bytes in UTF-8. -/
theorem bytes?_ofText (s : String) : bytes? (s : LooseText) = some (Bytes.ofText s) := by
  rw [Bytes.ofText_eq, ofText]
  induction s.toList with
  | nil => rfl
  | cons c cs ih => exact bytes?_cons.mpr ⟨_, _, rfl, ih, rfl⟩

theorem text?_map_char (cs : List Char) : text? (cs.map Letter.char) = some (String.ofList cs) := by
  have hmap (cs : List Char) : (cs.map Letter.char).mapM Letter.char? = some cs := by
    induction cs with
    | nil => rfl
    | cons c cs ih => simp [ih, Letter.char?]
  rw [text?, hmap, Option.map_some]

/-- No text of characters says what a text with lone halves does. -/
theorem text?_eq_none_iff : text? s = none ↔ ∃ l ∈ s, l.isHalf = true := by
  unfold text?
  rw [Option.map_eq_none_iff]
  induction s with
  | nil => simp
  | cons l s ih =>
    rw [List.exists_mem_cons_iff, ← ih, List.mapM_cons]
    cases l with
    | half n => simp [Letter.char?, Letter.isHalf]
    | char c => cases hs : s.mapM Letter.char? <;> simp [Letter.char?, Letter.isHalf]

/-- A half stands for a byte that has its eighth bit set. -/
theorem bytes?_half {n : Fin 2048} :
    (Letter.half n).bytes? = some bs ↔
      (0x480 ≤ n.val ∧ n.val < 0x500) ∧ bs = [UInt8.ofNat (n.val - 0x400)] := by
  show (if _ then some _ else none) = some bs ↔ _
  split
  · next hn => rw [Option.some.injEq, eq_comm, and_iff_right hn]
  · next hn => exact iff_of_false nofun fun h => hn h.1

theorem ne_nil_of_bytes? (h : l.bytes? = some bs) : bs ≠ [] := by
  cases l with
  | char c =>
    rw [← Option.some.inj h]
    exact String.utf8EncodeChar_ne_nil
  | half n =>
    rw [(bytes?_half.mp h).2]
    exact List.cons_ne_nil _ _

/-- A byte of seven bits is spelled by the character of its code alone. -/
theorem eq_char_of_seven (h : l.bytes? = some bs) {b : UInt8} (mem : b ∈ bs) (seven : b.toNat ≤ 127) :
    ∃ c : Char, l = .char c ∧ c.toNat = b.toNat := by
  cases l with
  | char c =>
    obtain rfl : String.utf8EncodeChar c = bs := Option.some.inj h
    exact ⟨c, rfl, (Bytes.mem_utf8EncodeChar_iff seven).mp mem⟩
  | half n =>
    obtain ⟨hn, rfl⟩ := bytes?_half.mp h
    rw [List.mem_singleton.mp mem, UInt8.toNat_ofNat'] at seven
    omega

/-- A text that is spelled by characters of seven bits is the text of these characters. -/
theorem eq_ofText_of_seven {cs : List Char} (seven : ∀ c ∈ cs, c.toNat ≤ 127)
    (h : bytes? s = some (cs.flatMap String.utf8EncodeChar)) : s = cs.map Letter.char := by
  induction cs generalizing s with
  | nil =>
    cases s with
    | nil => rfl
    | cons l s =>
      obtain ⟨front, rest, hfront, -, hbytes⟩ := bytes?_cons.mp h
      exact absurd (List.append_eq_nil_iff.mp hbytes.symm).1 (ne_nil_of_bytes? hfront)
  | cons c cs ih =>
    obtain ⟨hc, hcs⟩ := List.forall_mem_cons.mp seven
    have hencode : String.utf8EncodeChar c = [UInt8.ofNat c.toNat] := by
      unfold String.utf8EncodeChar
      exact if_pos hc
    have hcode : (UInt8.ofNat c.toNat).toNat = c.toNat := by
      rw [UInt8.toNat_ofNat']
      omega
    rw [List.flatMap_cons, hencode, List.singleton_append] at h
    cases s with
    | nil => cases h
    | cons l s =>
      -- the first letter begins with a byte of seven bits, so it is no more than that byte
      obtain ⟨front, rest, hfront, hrest, hbytes⟩ := bytes?_cons.mp h
      cases front with
      | nil => exact absurd rfl (ne_nil_of_bytes? hfront)
      | cons b front =>
        rw [List.cons_append, List.cons.injEq] at hbytes
        obtain ⟨rfl, hbytes⟩ := hbytes
        obtain ⟨c', rfl, hc'⟩ := eq_char_of_seven hfront List.mem_cons_self (by omega)
        obtain rfl : c' = c := Char.toNat_inj.mp (hc'.trans hcode)
        obtain rfl : front = [] := by
          have := (Option.some.inj hfront).symm.trans hencode
          simpa using this
        rw [ih hcs (hrest.trans (congrArg some hbytes.symm)), List.map_cons]

end LooseText

theorem Disk.Name.ofText_inj {s t : String} : Disk.Name.ofText s = Disk.Name.ofText t ↔ s = t := by
  rw [Disk.Name.ofText, Disk.Name.ofText, Disk.Name.mk.injEq, Bytes.ofText_inj]

namespace Workspace

variable {w : Workspace} {name : Name} {file : Disk.Name}

namespace Name

theorem file?_eq_some :
    name.file? = some file ↔ Letter.char '\x00' ∉ name ∧ name.bytes? = some file.bytes := by
  unfold file?
  split
  · next nul => exact iff_of_false nofun fun h => h.1 nul
  · next clean =>
    rw [Option.map_eq_some_iff, and_iff_right clean]
    constructor
    · rintro ⟨bytes, hbytes, rfl⟩
      exact hbytes
    · exact fun hbytes => ⟨_, hbytes, rfl⟩

theorem file?_ofText {s : String} (clean : '\x00' ∉ s.toList) :
    file? (s : Name) = some (s : Disk.Name) := by
  refine file?_eq_some.mpr ⟨fun nul => ?_, LooseText.bytes?_ofText s⟩
  obtain ⟨c, hc, heq⟩ := List.mem_map.mp nul
  cases heq
  exact clean hc

/-- A text without lone halves is spelled as no other such text is. -/
theorem eq_of_file?_ofText {s t : String} (h : file? (s : Name) = some (t : Disk.Name)) : s = t := by
  have hbytes := (LooseText.bytes?_ofText s).symm.trans (file?_eq_some.mp h).2
  exact Bytes.ofText_inj.mp (Option.some.inj hbytes)

/-- Texts without lone halves are spelled differently if they are different. -/
theorem file?_ofText_inj {s t : String} (hs : file? (s : Name) = some file)
    (ht : file? (t : Name) = some file) : s = t := by
  have hbytes := (file?_eq_some.mp hs).2.trans (file?_eq_some.mp ht).2.symm
  rw [LooseText.bytes?_ofText, LooseText.bytes?_ofText, Option.some.injEq] at hbytes
  exact Bytes.ofText_inj.mp hbytes

/-- No other text is spelled as the two dots. -/
theorem eq_dots (h : name.file? = some .dots) : name = (".." : String) := by
  have hbytes := (file?_eq_some.mp h).2
  have hdots : (Disk.Name.dots).bytes = ['.', '.'].flatMap String.utf8EncodeChar :=
    Bytes.ofText_eq ".."
  have hseven : ∀ c ∈ ['.', '.'], c.toNat ≤ 127 :=
    List.forall_mem_cons.mpr ⟨by decide, List.forall_mem_singleton.mpr (by decide)⟩
  rw [hdots] at hbytes
  exact LooseText.eq_ofText_of_seven hseven hbytes

end Name

/-- Whether a text is one name by itself. -/
def IsName (name : Name) : Prop :=
  name ≠ [] ∧ Letter.char '/' ∉ name ∧ name ≠ "." ∧ name ≠ ".."

instance (name : Name) : Decidable (IsName name) :=
  inferInstanceAs (Decidable (_ ∧ _ ∧ _ ∧ _))

theorem IsName.parts (h : IsName name) : name.parts = [name] :=
  PathText.namesOn_of_no_slash h.1 h.2.1 h.2.2.1

theorem accepts_iff : Accepts name ↔ IsName name := by
  constructor
  · rintro ⟨empty, last, dot, dots⟩
    have hmem : name ∈ name.parts := by
      cases hlast : name.parts.getLast? with
      | none =>
        rw [hlast] at last
        exact absurd last.symm empty
      | some part =>
        rw [hlast] at last
        obtain rfl : part = name := last
        exact List.mem_of_getLast? hlast
    exact ⟨empty, PathText.slash_not_mem_namesOn hmem, dot, dots⟩
  · intro h
    refine ⟨h.1, ?_, h.2.2⟩
    rw [h.parts]
    rfl

theorem IsName.pathOf? (h : IsName name) :
    w.pathOf? name = name.file?.map fun file => w.directory ++ [file] := by
  have hfirst : ¬ name.head? = some (.char '/') := fun hhead =>
    h.2.1 (List.mem_of_mem_head? hhead)
  unfold Workspace.pathOf?
  rw [h.parts]
  simp only [if_neg hfirst, List.mapM_cons, List.mapM_nil]
  cases name.file? <;> rfl

/-- A name leads to a place right below the directory. -/
theorem IsName.ne_dots (h : IsName name) (hfile : name.file? = some file) : file ≠ .dots := by
  rintro rfl
  exact h.2.2.2 (Name.eq_dots hfile)

end Workspace

end TimedText

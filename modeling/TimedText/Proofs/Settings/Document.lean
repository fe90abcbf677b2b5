import TimedText.Proofs.Bytes
import TimedText.Proofs.Disk.Frame
import TimedText.Proofs.Disk.Name
import TimedText.Proofs.Settings.Precedence

/-!
# Settings from a TOML file

What the bytes of a file come to depends on the text they encode. Bytes that encode no text stop
everything, and so does a text that the reader does not get through. A text that is no document
names nothing: the settings are those that there are without a file. A document names each field
where it stands first: at the top, in the table `cues`, in the table `render`.
-/

namespace TimedText.Settings

/-! ## Fields of a document -/

section Lookup

variable {entries : Toml.Entries} {k name : String}

theorem lookup_fieldsOf : (fieldsOf entries).lookup k = (entries.lookup k).map rawOf := by
  induction entries with
  | nil => rfl
  | cons entry entries ih =>
    obtain ⟨k', v⟩ := entry
    show List.lookup k ((k', rawOf v) :: fieldsOf entries) = _
    rw [lookup_cons_ite, lookup_cons_ite, ih]
    split <;> rfl

theorem lookup_filter_key {α : Type} {l : List (String × α)} {p : String → Bool} (h : p k = true) :
    (l.filter fun e => p e.1).lookup k = l.lookup k := by
  induction l with
  | nil => rfl
  | cons entry l ih =>
    obtain ⟨k', v⟩ := entry
    rw [List.filter_cons]
    by_cases hp : p k' = true
    · rw [if_pos hp, lookup_cons_ite, lookup_cons_ite, ih]
    · have hk : k ≠ k' := fun heq => hp (heq ▸ h)
      rw [if_neg hp, ih, lookup_cons_ite, if_neg hk]

theorem lookup_filter_other {α : Type} {l : List (String × α)} :
    (l.filter fun e => e.1 ≠ name).lookup name = none := by
  refine List.lookup_eq_none_iff.mpr fun entry hentry => bne_iff_ne.mpr ?_
  exact Ne.symm (of_decide_eq_true (List.mem_filter.mp hentry).2)

/-- The table of a document under a name; an empty one if there is no table. -/
def tableAt (entries : Toml.Entries) (name : String) : Toml.Entries :=
  match entries.lookup name with
  | some (.table _ inner) => inner
  | _ => []

theorem sectionFields_eq : sectionFields entries name = fieldsOf (tableAt entries name) := by
  unfold sectionFields tableAt
  cases entries.lookup name with
  | none => rfl
  | some v => cases v <;> rfl

theorem tableAt_congr {entries' : Toml.Entries} (h : entries'.lookup name = entries.lookup name) :
    tableAt entries' name = tableAt entries name := by
  unfold tableAt
  rw [h]

theorem ofDocument_eq :
    ofDocument entries = fieldsOf (entries.filter fun e => e.1 ∉ sections) ++
      (fieldsOf (tableAt entries "cues") ++ fieldsOf (tableAt entries "render")) := by
  unfold ofDocument
  simp [sections, sectionFields_eq]

/-- A key counts at the top first, then in one table, then in the other. -/
theorem lookup_ofDocument (outside : k ∉ sections) :
    (ofDocument entries).lookup k = ((entries.lookup k).or
      (((tableAt entries "cues").lookup k).or
        ((tableAt entries "render").lookup k))).map rawOf := by
  have htop : (entries.filter fun e => e.1 ∉ sections).lookup k = entries.lookup k :=
    lookup_filter_key (p := fun k => decide (k ∉ sections)) (decide_eq_true outside)
  rw [ofDocument_eq, List.lookup_append, List.lookup_append, lookup_fieldsOf, lookup_fieldsOf,
    lookup_fieldsOf, htop, Option.map_or, Option.map_or]

/-- An entry that is no table adds nothing under the name of one that would. -/
theorem ofDocument_of_no_table (section_name : name ∈ sections)
    (empty : tableAt entries name = []) :
    ofDocument (entries.filter fun e => e.1 ≠ name) = ofDocument entries := by
  have htop : (entries.filter fun e => e.1 ≠ name).filter (fun e => e.1 ∉ sections) =
      entries.filter fun e => e.1 ∉ sections := by
    rw [List.filter_filter]
    refine List.filter_congr fun e _ => ?_
    by_cases he : e.1 ∈ sections
    · simp [he]
    · have hne : e.1 ≠ name := fun heq => he (heq ▸ section_name)
      simp [he, hne]
  have htable (other : String) :
      tableAt (entries.filter fun e => e.1 ≠ name) other = tableAt entries other := by
    by_cases hother : other = name
    · subst hother
      rw [empty]
      unfold tableAt
      rw [lookup_filter_other]
    · exact tableAt_congr (lookup_filter_key (p := fun k => decide (k ≠ name))
        (decide_eq_true hother))
  rw [ofDocument_eq, ofDocument_eq, htop, htable, htable]

end Lookup

/-! ## Bytes of a file -/

section Bytes

variable {data : Bytes} {text : String}

/-- What becomes of a text that is read, or not, as a document. -/
def fieldsRead : Except Toml.ReadError Toml.Entries → Except FileError Fields
  | .ok entries => .ok (ofDocument entries)
  | .error .malformed => .ok []
  | .error (.tooManyDigits n) => .error (.tooManyDigits n)
  | .error .tooDeep => .error .tooDeep

theorem ofFile_ofText (text : String) :
    ofFile (Bytes.ofText text) = fieldsRead (Toml.read text) := by
  unfold ofFile
  rw [Bytes.fromUTF8?_eq_some_iff.mpr rfl]
  rfl

theorem ofFile_of_no_text (h : ∀ text, data ≠ Bytes.ofText text) :
    ofFile data = .error .notText := by
  unfold ofFile
  rw [Bytes.fromUTF8?_eq_none_iff.mpr h]

/-- The reader does not get through the bytes: they encode no text, or a text with a number that is
too long or with values too deep inside one another. -/
def Unreadable (data : Bytes) : Prop :=
  ∀ text, data = Bytes.ofText text →
    (∃ n, Toml.read text = .error (.tooManyDigits n)) ∨ Toml.read text = .error .tooDeep

theorem ofFile_eq_error_iff : (∃ e, ofFile data = .error e) ↔ Unreadable data := by
  by_cases htext : ∃ text, data = Bytes.ofText text
  · obtain ⟨text, rfl⟩ := htext
    have hunique : Unreadable (Bytes.ofText text) ↔
        (∃ n, Toml.read text = .error (.tooManyDigits n)) ∨ Toml.read text = .error .tooDeep := by
      refine ⟨fun h => h text rfl, fun h text' heq => ?_⟩
      rwa [← Bytes.ofText_inj.mp heq]
    rw [hunique, ofFile_ofText]
    cases Toml.read text with
    | ok entries => simp [fieldsRead]
    | error e => cases e <;> simp [fieldsRead]
  · -- bytes of no text are not even given to the reader
    have hnone := not_exists.mp htext
    exact iff_of_true ⟨_, ofFile_of_no_text hnone⟩ fun text heq => absurd heq (hnone text)

end Bytes

/-! ## Answers about a file -/

section Answer

variable {a a' : FileAnswer} {e : FileError} {data : Bytes} {k : Keying} {base : Settings}
  {s : Sources}

theorem Sources.read_eq (s : Sources) : s.read = match s.file.data with
    | .error e => .error e
    | .ok none => .ok []
    | .ok (some data) => ofFile data := by
  unfold Sources.read
  match s.file.data with
  | .error _ => rfl
  | .ok none => rfl
  | .ok (some _) => rfl

/-- Of the answers about a file only the fields count that are read. -/
theorem load_congr_read
    (h : Sources.read { s with file := a } = Sources.read { s with file := a' }) :
    load k base { s with file := a } = load k base { s with file := a' } := by
  unfold load Sources.merged
  rw [h]

theorem load_congr_data (h : a.data = a'.data) :
    load k base { s with file := a } = load k base { s with file := a' } :=
  load_congr_read (by rw [Sources.read_eq, Sources.read_eq, h])

theorem load_of_read_error (h : Sources.read { s with file := a } = .error e) :
    load k base { s with file := a } = .error (.file e) :=
  Sources.load_of_fault (by rw [Sources.fault, h]) k base

theorem load_of_data_error (h : a.data = .error e) :
    load k base { s with file := a } = .error (.file e) :=
  load_of_read_error (by rw [Sources.read_eq, h])

/-- A file that names nothing is as good as none. -/
theorem load_of_nothing (h : ofFile data = .ok []) :
    load k base { s with file := .holding data } = load k base { s with file := .absent } :=
  load_congr_read h

/-- What the two answers come to: a file that is not there or cannot be opened is none, but whether
it is there has to be found out. -/
theorem load_answer (k : Keying) (base : Settings) (s : Sources) (a : FileAnswer) :
    load k base { s with file := a } = match a.looked, a.opened with
      | .error cause, _ =>
        if cause.describe.1 ∈ absences then load k base { s with file := .absent }
        else .error (.file (.notLookedFor cause))
      | .ok (), .error _ => load k base { s with file := .absent }
      | .ok (), .ok data => load k base { s with file := .holding data } := by
  obtain ⟨looked, opened⟩ := a
  match looked, opened with
  | .error cause, _ =>
    simp only
    split
    · next absence => exact load_congr_data (if_pos absence)
    · next absence => exact load_of_data_error (if_neg absence)
  | .ok (), .error _ => exact load_congr_data rfl
  | .ok (), .ok data => rfl

theorem seek_error_cases {d : Disk} {directory : List String} {path : String} {cause : Disk.Cause}
    (h : PathText.seek d directory path = .error cause) :
    cause = .nameTooLong ∨ cause.describe.1 ∈ absences := by
  unfold PathText.seek at h
  split at h
  · exact .inl (Except.error.inj h).symm
  · rcases Disk.locate_error_cases (map_eq_error.mp h) with rfl | rfl | rfl
    · exact .inr (by decide)
    · exact .inr (by decide)
    · exact .inl rfl

/-- At the root nothing is looked for by too long a name. -/
theorem seek_of_long_name (d : Disk) {name : String} (noSlash : '/' ∉ name.toList)
    (long : Disk.maxNameBytes < (Bytes.ofText name).length) :
    PathText.seek d [] name = .error .nameTooLong := by
  -- nothing, a dot and two dots are read in another way, but they are short
  have hne {s : String} (short : (Bytes.ofText s).length ≤ Disk.maxNameBytes) : name ≠ s :=
    fun heq => absurd long (Nat.not_lt.mpr (heq ▸ short))
  have hnames : PathText.names name = [name] := by
    have hempty : name.toList ≠ [] := fun h =>
      hne (s := "") (by decide +kernel) (String.toList_inj.mp h)
    have hdot : name.toList ≠ ['.'] := fun h =>
      hne (s := ".") (by decide +kernel) (String.toList_inj.mp h)
    rw [PathText.names, PathText.namesOn_of_no_slash hempty noSlash hdot, List.map_singleton,
      String.ofList_toList]
  have hdots : Disk.Name.ofText name ≠ Disk.Name.dots := fun h =>
    hne (s := "..") (by decide +kernel) (Disk.Name.ofText_inj.mp h)
  have hhere : (if (PathText.leading name).isEmpty then Path.ofTexts [] else []) = [] := ite_self _
  unfold PathText.seek
  split
  · rfl
  · simp only [hhere, hnames]
    show (d.locate [] [Disk.Name.ofText name]).map d.node? = _
    rw [Disk.locate, show d.node? [] = some .directory from if_pos rfl]
    have htooLong : Disk.maxNameBytes < (Disk.Name.ofText name).bytes.length := long
    simp only [if_neg hdots, if_pos htooLong]
    rfl

/-- On a disk it cannot be found out of a path that is too long, or has too long a name where it
leads to a directory. -/
theorem load_ofDisk (k : Keying) (base : Settings) (s : Sources) (d : Disk)
    (directory : List String) (path : String) :
    load k base { s with file := .ofDisk d directory path } =
      match PathText.hasNul path, PathText.seek d directory path with
      | false, .error .nameTooLong => .error (.file (.notLookedFor .nameTooLong))
      | false, .ok (some (.file data)) => load k base { s with file := .holding data }
      | _, _ => load k base { s with file := .absent } := by
  unfold FileAnswer.ofDisk
  cases hnul : PathText.hasNul path with
  | true => rfl
  | false =>
    cases hseek : PathText.seek d directory path with
    | error cause =>
      rcases seek_error_cases hseek with rfl | absence
      · exact load_of_data_error rfl
      · have hother : cause ≠ .nameTooLong := fun heq => absurd (heq ▸ absence) (by decide)
        have hdata : FileAnswer.data ⟨.error cause, .error cause⟩ = FileAnswer.data .absent :=
          if_pos absence
        refine (load_congr_data hdata).trans ?_
        cases cause with
        | nameTooLong => exact absurd rfl hother
        | _ => rfl
    | ok node =>
      match node with
      | none => rfl
      | some .directory => exact load_congr_data rfl
      | some (.file data) => rfl

end Answer

/-! ## Settings with a file -/

/-- Bytes that the reader does not get through stop everything, and so does a file of which it
cannot be found out whether it is there; nothing else about a file does. Where no file can be read
the settings are those without a file, and so they are where the text of the file is no document. A
document names each field where it stands first: at the top, in the table `cues`, in the table
`render`; what stands under these two names and is no table adds nothing. -/
theorem document_decides_unless_unreadable (k : Keying) (base : Settings) (s : Sources) :
    (∀ data, ((∃ e, ofFile data = .error e) ↔ Unreadable data) ∧
      (Unreadable data → ∃ e, load k base { s with file := .holding data } = .error (.file e)) ∧
      ∀ text, data = Bytes.ofText text →
        (Toml.read text = .error .malformed → ofFile data = .ok [] ∧
          load k base { s with file := .holding data } = load k base { s with file := .absent }) ∧
        ∀ entries, Toml.read text = .ok entries → ∃ fields, ofFile data = .ok fields ∧
          (∀ k ∉ sections, fields.lookup k = ((entries.lookup k).or
            (((tableAt entries "cues").lookup k).or
              ((tableAt entries "render").lookup k))).map rawOf) ∧
          ∀ name ∈ sections, (∀ mark inner, entries.lookup name ≠ some (.table mark inner)) →
            fields = ofDocument (entries.filter fun e => e.1 ≠ name)) ∧
      (∀ a : FileAnswer, load k base { s with file := a } = match a.looked, a.opened with
        | .error cause, _ =>
          if cause.describe.1 ∈ absences then load k base { s with file := .absent }
          else .error (.file (.notLookedFor cause))
        | .ok (), .error _ => load k base { s with file := .absent }
        | .ok (), .ok data => load k base { s with file := .holding data }) ∧
      ∀ d directory path, load k base { s with file := .ofDisk d directory path } =
        match PathText.hasNul path, PathText.seek d directory path with
        | false, .error .nameTooLong => .error (.file (.notLookedFor .nameTooLong))
        | false, .ok (some (.file data)) => load k base { s with file := .holding data }
        | _, _ => load k base { s with file := .absent } := by
  refine ⟨fun data => ⟨ofFile_eq_error_iff, fun h => ?_, ?_⟩, load_answer k base s,
    load_ofDisk k base s⟩
  · obtain ⟨e, he⟩ := ofFile_eq_error_iff.mpr h
    exact ⟨e, load_of_read_error he⟩
  · rintro text rfl
    have hfile := ofFile_ofText text
    refine ⟨fun hmalformed => ?_, fun entries hentries => ?_⟩
    · have hnothing : ofFile (Bytes.ofText text) = .ok [] := by rw [hfile, hmalformed]; rfl
      exact ⟨hnothing, load_of_nothing hnothing⟩
    · rw [hfile, hentries]
      refine ⟨ofDocument entries, rfl, fun k outside => lookup_ofDocument outside, ?_⟩
      intro name hname hno
      refine (ofDocument_of_no_table hname ?_).symm
      unfold tableAt
      split
      · next mark inner hlookup => exact absurd hlookup (hno mark inner)
      · rfl

/-- One byte that belongs to no text is enough, even where nothing asks for the file. And so is the
path of a file that is not there, if its name is too long. -/
theorem file_with_stray_byte_stops_everything :
    let data := Bytes.ofText "box_color = '" ++ [255] ++ Bytes.ofText "'"
    let path := String.ofList (List.replicate 256 'a')
    (ofFile data = .error .notText ∧ Unreadable data ∧
      ∀ k base, load k base { file := .holding data } ≠ load k base {}) ∧
    ∀ k base, load k base { file := .ofDisk {} [] path } ≠ load k base {} := by
  intro data path
  have hstops (k : Keying) (base : Settings) (e : FileError) :
      Except.error (.file e) ≠ load k base {} := by
    rw [Sources.load_of_no_fault rfl]
    cases ofChoices base _ with
    | ok t => exact nofun
    | error issues => exact nofun
  have herror : ofFile data = .error .notText := by decide +kernel
  have hpathList : path.toList = List.replicate 256 'a' := String.toList_ofList
  have hseek : PathText.seek {} [] path = .error .nameTooLong := by
    refine seek_of_long_name _ (hpathList ▸ by decide +kernel) ?_
    rw [Bytes.ofText_eq, hpathList]
    decide +kernel
  have hnul : PathText.hasNul path = false := by
    rw [PathText.hasNul, hpathList]
    decide +kernel
  have hlong : (FileAnswer.ofDisk {} [] path).data = .error (.notLookedFor .nameTooLong) := by
    rw [FileAnswer.ofDisk, hnul, hseek]
    rfl
  have hbytes (k : Keying) (base : Settings) :
      load k base { file := .holding data } = .error (.file .notText) :=
    load_of_read_error (s := {}) herror
  have hpath (k : Keying) (base : Settings) :
      load k base { file := .ofDisk {} [] path } = .error (.file (.notLookedFor .nameTooLong)) :=
    load_of_data_error (s := {}) hlong
  refine ⟨⟨herror, ofFile_eq_error_iff.mp ⟨_, herror⟩, fun k base => ?_⟩, fun k base => ?_⟩
  · rw [hbytes]
    exact hstops k base _
  · rw [hpath]
    exact hstops k base _

end TimedText.Settings

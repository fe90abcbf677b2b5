import TimedText.Settings.Basic
import TimedText.Proofs.Except

/-!
# Settings, entry by entry

Settings are twelve entries. Each has names under which raw fields give it, a reader, and a place in
the record. `build_eq_ofChoices` says what a list of raw fields makes of the settings: for each
entry the value under the strongest of its names is chosen, and nothing but the choices counts. What
they come to is said one entry at a time, by `ofChoices_eq_ok_iff` where all of them can be read and
by `ofChoices_eq_error_iff` where not.
-/

namespace TimedText.Settings

open TimedText.Field (Cause Issue)

/-- The entries of the settings, in order. -/
inductive Entry where
  | environment
  | logLevel
  | projectRoot
  | fontPath
  | encoder
  | prober
  | encodeTimeout
  | metricsEnabled
  | metricsPath
  | cueOffset
  | boxColor
  | boxBorder
  deriving DecidableEq, Repr

/-- What is given for an entry, with the name it is given under; nothing if it is not named. -/
abbrev Choice := Option (String × Raw)

namespace Entry

/-- All entries, in the order in which their issues are reported. -/
def all : List Entry :=
  [environment, logLevel, projectRoot, fontPath, encoder, prober, encodeTimeout, metricsEnabled,
   metricsPath, cueOffset, boxColor, boxBorder]

/-- What an entry holds. -/
def Value : Entry → Type
  | environment => Environment
  | logLevel | projectRoot | fontPath | encoder | prober | boxColor => String
  | encodeTimeout => Option Double
  | metricsEnabled => Option Bool
  | metricsPath => Option String
  | cueOffset => Double
  | boxBorder => Nat

/-- The value of an entry in settings. -/
def value (s : Settings) : (e : Entry) → e.Value
  | environment => s.environment
  | logLevel => s.logLevel
  | projectRoot => s.projectRoot
  | fontPath => s.fontPath
  | encoder => s.encoder
  | prober => s.prober
  | encodeTimeout => s.encodeTimeout
  | metricsEnabled => s.metricsEnabled
  | metricsPath => s.metricsPath
  | cueOffset => s.cueOffset
  | boxColor => s.boxColor
  | boxBorder => s.boxBorder

/-- The name of an entry among the fields. -/
def name : Entry → String
  | environment => "app_env"
  | logLevel => "log_level"
  | projectRoot => "project_root"
  | fontPath => "font_path"
  | encoder => "ffmpeg_binary"
  | prober => "ffprobe_binary"
  | encodeTimeout => "encode_timeout_s"
  | metricsEnabled => "metrics_enabled"
  | metricsPath => "metrics_path"
  | cueOffset => "cue_offset_s"
  | boxColor => "box_color"
  | boxBorder => "box_border_width"

/-- All names that raw fields may have for an entry, the strongest first: only the environment goes
by others than its own. -/
def names : Entry → List String
  | environment => environmentNames
  | e => [e.name]

/-- How the raw value of an entry is read. -/
def read : (e : Entry) → Raw → Except Cause e.Value
  | environment => readEnvironment
  | logLevel | encoder | prober | boxColor => Field.readText
  | projectRoot | fontPath => readPath
  | encodeTimeout => optional Field.readNumber
  | metricsEnabled => optional Field.readBoolean
  | metricsPath => optional readPath
  | cueOffset => readOffset
  | boxBorder => readBorder

/-- The value that a choice gives an entry: its default if it is not named. -/
def readOr (base : Settings) (e : Entry) : Choice → Except Cause e.Value
  | none => .ok (e.value base)
  | some (_, r) => e.read r

/-- What is wrong with a choice, under the name it was given. -/
def issues (e : Entry) : Choice → List Issue
  | none => []
  | some (name, r) => Cue.issueOf name (e.read r)

theorem mem_all (e : Entry) : e ∈ all := by
  cases e <;> decide

/-- Every entry but the environment goes by its own name, and that is none of the environment's. -/
theorem names_plain {e : Entry} (h : e ≠ .environment) :
    e.names = [e.name] ∧ e.name ∉ environmentNames := by
  cases e with
  | environment => exact absurd rfl h
  | _ => exact ⟨rfl, by decide⟩

theorem issues_eq_nil_iff (base : Settings) {e : Entry} {choice : Choice} :
    e.issues choice = [] ↔ ∃ v, e.readOr base choice = .ok v := by
  match choice with
  | none => exact iff_of_true rfl ⟨_, rfl⟩
  | some (name, r) =>
    show Cue.issueOf name (e.read r) = [] ↔ ∃ v, e.read r = .ok v
    cases e.read r with
    | ok v => exact iff_of_true rfl ⟨v, rfl⟩
    | error cause => exact iff_of_false nofun nofun

end Entry

/-! ## The choice among fields -/

/-- What raw fields give an entry: the value under the strongest of its names that is there. -/
def given (fields : Fields) (e : Entry) : Choice :=
  e.names.findSome? fun n => (fields.lookup n).map (n, ·)

section Given

variable {fields : Fields}

theorem given_plain {e : Entry} (h : e ≠ .environment) :
    given fields e = (fields.lookup e.name).map (e.name, ·) := by
  rw [given, (Entry.names_plain h).1, List.findSome?_cons]
  cases fields.lookup e.name <;> rfl

theorem findSome?_lookup (names : List String) :
    (names.findSome? fun n => (fields.lookup n).map (n, ·))
      = (names.find? fun n => (fields.lookup n).isSome).bind fun n =>
          (fields.lookup n).map (n, ·) := by
  induction names with
  | nil => rfl
  | cons n names ih =>
    rw [List.findSome?_cons, List.find?_cons]
    cases h : fields.lookup n with
    | none => exact ih
    | some r =>
      show some (n, r) = (fields.lookup n).map (n, ·)
      rw [h]
      rfl

/-- The environment is looked up under the strongest of its names among the fields. -/
theorem given_environment :
    given fields .environment
      = (fields.lookup (environmentName fields)).map (environmentName fields, ·) := by
  show environmentNames.findSome? _ = _
  rw [findSome?_lookup, environmentName]
  cases h : environmentNames.find? fun n => (fields.lookup n).isSome with
  | some n => rfl
  | none =>
    have hnone : fields.lookup "app_env" = none :=
      Option.not_isSome_iff_eq_none.mp (List.find?_eq_none.mp h "app_env" (by decide))
    rw [Option.bind_none, Option.getD_none, hnone]
    rfl

/-- The name under which an entry is looked up among fields. -/
def nameIn (fields : Fields) : Entry → String
  | .environment => environmentName fields
  | e => e.name

theorem given_eq_lookup (fields : Fields) (e : Entry) :
    given fields e = (fields.lookup (nameIn fields e)).map (nameIn fields e, ·) := by
  cases e with
  | environment => exact given_environment
  | _ => exact given_plain nofun

theorem fieldOr_eq_readOr (base : Settings) (fields : Fields) (e : Entry) :
    Cue.fieldOr fields (nameIn fields e) (e.value base) e.read = e.readOr base (given fields e) := by
  rw [given_eq_lookup, Cue.fieldOr]
  cases fields.lookup (nameIn fields e) <;> rfl

theorem issueOf_eq_issues (base : Settings) (fields : Fields) (e : Entry) :
    Cue.issueOf (nameIn fields e) (e.readOr base (given fields e)) = e.issues (given fields e) := by
  rw [given_eq_lookup]
  cases fields.lookup (nameIn fields e) <;> rfl

end Given

/-! ## Settings from their entries -/

/-- Settings of values that are read one after another. -/
def gather (values : (e : Entry) → Except Cause e.Value) : Except Cause Settings := do
  return ⟨← values .environment, ← values .logLevel, ← values .projectRoot, ← values .fontPath,
    ← values .encoder, ← values .prober, ← values .encodeTimeout, ← values .metricsEnabled,
    ← values .metricsPath, ← values .cueOffset, ← values .boxColor, ← values .boxBorder⟩

/-- Settings come out exactly if every entry can be read, and then they hold what was read. -/
theorem gather_eq_ok_iff {values : (e : Entry) → Except Cause e.Value} {t : Settings} :
    gather values = .ok t ↔ ∀ e, values e = .ok (e.value t) := by
  constructor
  · intro h e
    simp only [gather, bind_eq_ok] at h
    obtain ⟨_, h1, _, h2, _, h3, _, h4, _, h5, _, h6, _, h7, _, h8, _, h9, _, h10, _, h11, _, h12,
      ht⟩ := h
    cases ht
    cases e <;> assumption
  · intro h
    simp only [gather, h]
    rfl

theorem gather_of_all_read {values : (e : Entry) → Except Cause e.Value}
    (h : ∀ e, ∃ v, values e = .ok v) : ∃ t, gather values = .ok t := by
  obtain ⟨v, hv⟩ := Classical.skolem.mp h
  refine ⟨⟨v .environment, v .logLevel, v .projectRoot, v .fontPath, v .encoder, v .prober,
    v .encodeTimeout, v .metricsEnabled, v .metricsPath, v .cueOffset, v .boxColor, v .boxBorder⟩,
    gather_eq_ok_iff.mpr fun e => ?_⟩
  rw [hv e]
  cases e <;> rfl

/-- The settings that choices for the entries make; if one cannot be read, the issues of all. -/
def ofChoices (base : Settings) (choice : Entry → Choice) : Except (List Issue) Settings :=
  match gather fun e => e.readOr base (choice e) with
  | .ok t => .ok t
  | .error _ => .error (Entry.all.flatMap fun e => e.issues (choice e))

theorem build_eq_ofChoices (base : Settings) (fields : Fields) :
    build base fields = ofChoices base (given fields) := by
  unfold ofChoices
  simp only [← fieldOr_eq_readOr, ← issueOf_eq_issues base]
  simp only [Entry.all, List.flatMap_cons, List.flatMap_nil, List.append_nil, ← List.append_assoc]
  rfl

variable {base t : Settings} {choice : Entry → Choice}

theorem ofChoices_eq_ok_iff :
    ofChoices base choice = .ok t ↔ ∀ e : Entry, e.readOr base (choice e) = .ok (e.value t) := by
  rw [ofChoices, ← gather_eq_ok_iff]
  cases gather fun e => e.readOr base (choice e) with
  | ok s => rw [Except.ok.injEq, Except.ok.injEq]
  | error cause => exact iff_of_false nofun nofun

/-- Settings are refused exactly if something is wrong with an entry, and then all that is wrong is
reported. -/
theorem ofChoices_eq_error_iff {issues : List Issue} :
    ofChoices base choice = .error issues
      ↔ issues = Entry.all.flatMap (fun e => e.issues (choice e)) ∧ issues ≠ [] := by
  unfold ofChoices
  cases hgather : gather fun e => e.readOr base (choice e) with
  | ok t =>
    have hnone : Entry.all.flatMap (fun e => e.issues (choice e)) = [] :=
      List.flatMap_eq_nil_iff.mpr fun e _ =>
        (Entry.issues_eq_nil_iff base).mpr ⟨_, gather_eq_ok_iff.mp hgather e⟩
    exact iff_of_false nofun fun h => h.2 (h.1.trans hnone)
  | error cause =>
    have hsome : Entry.all.flatMap (fun e => e.issues (choice e)) ≠ [] := by
      intro hnone
      obtain ⟨t, ht⟩ := gather_of_all_read fun e =>
        (Entry.issues_eq_nil_iff base).mp (List.flatMap_eq_nil_iff.mp hnone e (Entry.mem_all e))
      rw [hgather] at ht
      exact absurd ht nofun
    show Except.error _ = Except.error issues ↔ _
    rw [Except.error.injEq, eq_comm]
    exact ⟨fun h => ⟨h, h ▸ hsome⟩, fun h => h.1⟩

end TimedText.Settings

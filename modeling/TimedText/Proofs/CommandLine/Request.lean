import TimedText.Proofs.CommandLine.Words

/-!
# The same cues asked for by different commands

Behind the words for one command and another the look of the cues is checked in the same order, so
the first problem is the same (`Alike`). What only one command can be told comes in front of the
look, and is taken to be in order here.
-/

namespace TimedText.CommandLine

namespace Words

variable {place : Place} {w w' : Words} {p q : Parameter} {value : String}

/-! ## Options that are given -/

theorem mem_options : p ∈ w.options ↔ ∃ given ∈ w.given, given.1 = p := by
  unfold options
  rw [List.mem_eraseDups, List.mem_map]

theorem values_of_not_given (h : p ∉ w.options) : w.values p = [] :=
  List.filterMap_eq_nil_iff.mpr fun given hgiven =>
    if_neg fun hp => h (mem_options.mpr ⟨given, hgiven, hp⟩)

theorem value?_of_not_given (h : p ∉ w.options) : w.value? p = none := by
  rw [value?, values_of_not_given h]
  rfl

theorem values_give_self : (w.give p value).values p = value :: w.values p :=
  List.filterMap_cons_some (if_pos rfl)

theorem values_give_other (h : p ≠ q) : (w.give p value).values q = w.values q :=
  List.filterMap_cons_none (if_neg h)

theorem value?_give_other (h : p ≠ q) : (w.give p value).value? q = w.value? q := by
  rw [value?, values_give_other h, value?]

theorem value?_give (h : p ∉ w.options) : (w.give p value).value? p = some value := by
  have hvalues : (w.give p value).values p = [value] := by
    rw [values_give_self, values_of_not_given h]
  rw [value?, hvalues]
  rfl

/-- An option that was not given before comes first. -/
theorem options_give (h : p ∉ w.options) : (w.give p value).options = p :: w.options := by
  show (p :: w.given.map Prod.fst).eraseDups = _
  rw [List.eraseDups_cons]
  refine congrArg (fun ps => p :: List.eraseDups ps) (List.filter_eq_self.mpr fun q hq => ?_)
  have hne : q ≠ p := by
    rintro rfl
    exact h (List.mem_eraseDups.mpr hq)
  simpa using hne

/-! ## Checks of values -/

theorem check_of_not_given (hp : p ∈ common) (h : p ∉ w.options) : w.check place p = .ok () := by
  have hnone := value?_of_not_given h
  cases p with
  | fontSize =>
    show w.fontSize.map _ = _
    rw [fontSize, hnone]
    rfl
  | position =>
    show w.position.map _ = _
    rw [position, hnone]
    rfl
  | cue | color | help => rfl
  | _ => exact absurd hp (by decide)

theorem check_congr (hp : p ∈ common) (same : w.value? p = w'.value? p) :
    w.check place p = w'.check place p := by
  cases p with
  | fontSize =>
    show w.fontSize.map _ = w'.fontSize.map _
    rw [fontSize, same, fontSize]
  | position =>
    show w.position.map _ = w'.position.map _
    rw [position, same, position]
  | cue | color | help => rfl
  | _ => exact absurd hp (by decide)

/-- What is not given need not be checked, if that is in order. -/
theorem forM_order {parameters : List Parameter}
    (rest : ∀ p ∈ parameters, p ∉ w.options → w.check place p = .ok ()) :
    (w.order parameters).forM (w.check place) = w.options.forM (w.check place) := by
  refine forM_append_of_ok fun p hp => ?_
  obtain ⟨hmem, hnot⟩ := List.mem_filter.mp hp
  exact rest p hmem (by simpa using hnot)

/-- The look of the cues can be read exactly if all that is given of it is in order. -/
theorem checks_eq_ok_iff (only : ∀ p ∈ w.options, p ∈ common) :
    w.options.forM (w.check place) = .ok () ↔ ∃ style, w.style = .ok style := by
  have hall : (∀ p ∈ w.options, w.check place p = .ok ()) ↔
      w.check place .fontSize = .ok () ∧ w.check place .position = .ok () := by
    constructor
    · intro h
      have hcheck (p : Parameter) (hp : p ∈ common) : w.check place p = .ok () := by
        by_cases hgiven : p ∈ w.options
        · exact h p hgiven
        · exact check_of_not_given hp hgiven
      exact ⟨hcheck .fontSize (by decide), hcheck .position (by decide)⟩
    · rintro ⟨hsize, hposition⟩ p hp
      cases p with
      | fontSize => exact hsize
      | position => exact hposition
      | cue | color | help => rfl
      | _ => exact absurd (only _ hp) (by decide)
  rw [forM_eq_ok_iff, hall]
  show (w.fontSize.map _ = _ ∧ w.position.map _ = _) ↔ _
  unfold style
  cases w.fontSize with
  | error e => exact iff_of_false nofun nofun
  | ok size =>
    cases w.position with
    | error e => exact iff_of_false nofun nofun
    | ok position => exact iff_of_true ⟨rfl, rfl⟩ ⟨_, rfl⟩

theorem style_congr (same : ∀ p ∈ common, w.value? p = w'.value? p) : w.style = w'.style := by
  have hsize := same .fontSize (by decide)
  have hcolor := same .color (by decide)
  have hposition := same .position (by decide)
  unfold style fontSize color position
  rw [hsize, hcolor, hposition]

/-- The words with a time in front, as they are told to `preview`. -/
def forPreview (w : Words) (time : String) : Words := w.give .time time

/-- The words with a video and an output in front, as they are told to `render`. -/
def forRender (w : Words) (video output : String) : Words := (w.give .output output).addFree video

end Words

/-! ## Requests -/

section Requests

variable {place : Place} {said w : Words} {c : Command} {problem : Problem} {p q : Parameter}
  {time video output : String}

theorem Reads.forPreview {look : List String} (h : Reads common look said) (time : String) :
    Reads Command.preview.parameters ("--at" :: time :: look) (said.forPreview time) := by
  have hread : readOption Command.preview.parameters "--at" = .ok (.waiting .time "--at") := by
    decide +kernel
  exact .waiting (by decide) (by decide) hread (h.behind .preview)

theorem Reads.forRender {look : List String} (h : Reads common look said) (output : String)
    (plain : isOption video = false) :
    Reads Command.render.parameters (video :: "--output" :: output :: look)
      (said.forRender video output) := by
  have hread : readOption Command.render.parameters "--output" =
      .ok (.waiting .output "--output") := by decide +kernel
  have hinside : video ≠ "--" := by
    rintro rfl
    cases plain
  exact .free hinside plain (.waiting (by decide) (by decide) hread (h.behind .render))

theorem ofWords_of_error (unasked : w.has .help = false)
    (h : (w.order c.parameters).forM (w.check place) = .error problem) :
    Request.ofWords place c w = .error problem := by
  unfold Request.ofWords
  rw [unasked, if_neg Bool.false_ne_true, h]
  rfl

/-- What a command asks for with words that are in order. -/
def asked (place : Place) (w : Words) : Command → Except Problem Request
  | .render => do
    return .render (← w.video place) (← w.output place) (← w.font place) (w.values .cue)
      (← w.style)
  | .filtergraph => do return .filtergraph (w.values .cue) (← w.style)
  | .preview => do return .preview (← w.time) (w.values .cue) (← w.style)

theorem ofWords_of_ok (unasked : w.has .help = false) (bare : w.extra c = [])
    (h : (w.order c.parameters).forM (w.check place) = .ok ()) :
    Request.ofWords place c w = asked place w c := by
  unfold Request.ofWords
  rw [unasked, if_neg Bool.false_ne_true, h, bare]
  cases c <;> rfl

/-- A command is told of the same cues in the same way, behind something of its own in front. -/
structure Tells (w said : Words) (own : Parameter) : Prop where
  options : w.options = own :: said.options
  values : ∀ p ∈ common, w.values p = said.values p
  help : w.has .help = said.has .help

theorem Tells.value? (h : Tells w said q) (p : Parameter) (hp : p ∈ common) :
    w.value? p = said.value? p := by
  rw [Words.value?, h.values p hp, Words.value?]

theorem Tells.forM_order (h : Tells w said q) (only : ∀ p ∈ said.options, p ∈ common)
    (own : w.check place q = .ok ())
    (rest : ∀ p ∈ c.parameters, p ∉ common → p ≠ q → w.check place p = .ok ()) :
    (w.order c.parameters).forM (w.check place) = said.options.forM (said.check place) := by
  rw [Words.forM_order, h.options, forM_cons_of_ok own]
  · exact forM_congr fun p hp => Words.check_congr (only p hp) (h.value? p (only p hp))
  · intro p hp hnot
    by_cases hcommon : p ∈ common
    · exact Words.check_of_not_given hcommon hnot
    · refine rest p hp hcommon ?_
      rintro rfl
      exact hnot (h.options ▸ List.mem_cons_self)

theorem tells_preview (time : String) (only : ∀ p ∈ said.options, p ∈ common) :
    Tells (said.forPreview time) said .time where
  options := Words.options_give fun h => absurd (only _ h) (by decide)
  values p hp := Words.values_give_other fun h => absurd (h ▸ hp) (by decide)
  help := rfl

theorem tells_render (video output : String) (only : ∀ p ∈ said.options, p ∈ common) :
    Tells (said.forRender video output) said .output where
  options := Words.options_give fun h => absurd (only _ h) (by decide)
  values p hp := Words.values_give_other fun h => absurd (h ▸ hp) (by decide)
  help := rfl

theorem order_filtergraph (place : Place) (said : Words) :
    (said.order Command.filtergraph.parameters).forM (said.check place) =
      said.options.forM (said.check place) :=
  Words.forM_order fun _ hp hnot => Words.check_of_not_given hp hnot

section Alike

variable {t : Double} {file : SourceFile} (only : ∀ p ∈ said.options, p ∈ common)
include only

theorem not_given (h : p ∉ common) : p ∉ said.options := fun hp => h (only p hp)

theorem time_preview (htime : readTime time = .ok t) : (said.forPreview time).time = .ok t := by
  unfold Words.time Words.forPreview
  rw [Words.value?_give (not_given only (by decide))]
  exact htime

theorem output_render (houtput : readTarget place .output output = .ok output) :
    (said.forRender video output).output place = .ok output := by
  show required .output ((said.give .output output).value? .output) _ = _
  rw [Words.value?_give (not_given only (by decide))]
  exact houtput

theorem font_render : (said.forRender video output).font place = .ok none := by
  show optional none ((said.give .output output).value? .font) _ = _
  rw [Words.value?_give_other (by decide), Words.value?_of_not_given (not_given only (by decide))]
  rfl

omit only in
theorem video_render (hfile : readFile place .video video = .ok file) :
    (said.forRender video output).video place = .ok file := hfile

theorem order_preview (place : Place) (htime : readTime time = .ok t) :
    ((said.forPreview time).order Command.preview.parameters).forM
        ((said.forPreview time).check place) = said.options.forM (said.check place) := by
  refine (tells_preview time only).forM_order only ?_ ?_
  · show (said.forPreview time).time.map _ = _
    rw [time_preview only htime]
    rfl
  · have hrest : ∀ p ∈ Command.preview.parameters, p ∉ common → p = .time := by decide
    exact fun p hp hcommon hne => absurd (hrest p hp hcommon) hne

theorem order_render (hfile : readFile place .video video = .ok file)
    (houtput : readTarget place .output output = .ok output) :
    ((said.forRender video output).order Command.render.parameters).forM
        ((said.forRender video output).check place) =
      said.options.forM (said.check place) := by
  refine (tells_render video output only).forM_order only ?_ ?_
  · show (Words.output _ place).map _ = _
    rw [output_render only houtput]
    rfl
  · have hrest : ∀ p ∈ Command.render.parameters, p ∉ common → p ≠ .output →
        p = .video ∨ p = .font := by decide
    intro p hp hcommon hne
    rcases hrest p hp hcommon hne with rfl | rfl
    · show (Words.video _ place).map _ = _
      rw [video_render hfile]
      rfl
    · show (Words.font _ place).map _ = _
      rw [font_render only]
      rfl

/-- All three commands ask for the same cues in the same look, or none of them can, for the same
reason. -/
theorem requests_alike (bare : said.free = []) (unasked : said.has .help = false)
    (htime : readTime time = .ok t) (hfile : readFile place .video video = .ok file)
    (houtput : readTarget place .output output = .ok output) :
    let previewed := said.forPreview time
    let rendered := said.forRender video output
    (∃ style, said.style = .ok style ∧
      Request.ofWords place .filtergraph said = .ok (.filtergraph (said.values .cue) style) ∧
      Request.ofWords place .preview previewed = .ok (.preview t (said.values .cue) style) ∧
      Request.ofWords place .render rendered =
        .ok (.render file output none (said.values .cue) style)) ∨
    (∃ e, said.style = .error e) ∧ ∃ problem,
      Request.ofWords place .filtergraph said = .error problem ∧
      Request.ofWords place .preview previewed = .error problem ∧
      Request.ofWords place .render rendered = .error problem := by
  intro previewed rendered
  have hpreview := tells_preview time only
  have hrender := tells_render video output only
  have hgraph := order_filtergraph place said
  have hlook := order_preview only place htime
  have hvideo := order_render only hfile houtput
  -- what is told in front is in order, so the first problem is one of the look
  cases hchecks : said.options.forM (said.check place) with
  | error problem =>
    right
    refine ⟨?_, problem, ofWords_of_error unasked (hgraph.trans hchecks),
      ofWords_of_error (hpreview.help.trans unasked) (hlook.trans hchecks),
      ofWords_of_error (hrender.help.trans unasked) (hvideo.trans hchecks)⟩
    cases hstyle : said.style with
    | error e => exact ⟨e, rfl⟩
    | ok style =>
      rw [(Words.checks_eq_ok_iff only).mpr ⟨style, hstyle⟩] at hchecks
      cases hchecks
  | ok =>
    left
    obtain ⟨style, hstyle⟩ := (Words.checks_eq_ok_iff only).mp hchecks
    have hcues : .cue ∈ common := by decide
    refine ⟨style, hstyle, ?_, ?_, ?_⟩
    · rw [ofWords_of_ok (c := .filtergraph) unasked bare (hgraph.trans hchecks), asked, hstyle]
      rfl
    · have hasked : Request.ofWords place .preview previewed = asked place previewed .preview :=
        ofWords_of_ok (hpreview.help.trans unasked) bare (hlook.trans hchecks)
      rw [hasked, asked, time_preview only htime, Words.style_congr hpreview.value?, hstyle,
        hpreview.values .cue hcues]
      rfl
    · have hfree : rendered.extra .render = [] := bare
      have hasked : Request.ofWords place .render rendered = asked place rendered .render :=
        ofWords_of_ok (hrender.help.trans unasked) hfree (hvideo.trans hchecks)
      rw [hasked, asked, video_render hfile, output_render only houtput, font_render only,
        Words.style_congr hrender.value?, hstyle, hrender.values .cue hcues]
      rfl

end Alike

end Requests

end TimedText.CommandLine

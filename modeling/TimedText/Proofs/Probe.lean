import TimedText.Probe

/-!
# Which answers tell a duration

The duration is read by following two keys, and most of what can be wrong with an answer only means
that the duration is not known. What an answer tells is said by `Reply.found`, which never fails;
the answers behind which nothing goes on are singled out by `Stops`. Reading comes to just that:
`duration_of_stops`, `duration_of_not_stops`.
-/

namespace TimedText.Probe

/-! ## What there is to find -/

/-- The double that a value converts to, if it does. -/
def toDouble? : Json → Option Double
  | .bool b => some (Double.ofNat b.toNat)
  | .int i => Double.ofInt? i
  | .float d => some d
  | .str s => Double.read? Text.digitValue (Text.trimBy Text.isWhiteSpace s.toList)
  | _ => none

/-- The value at `format.duration`. -/
def durationField (payload : Json) : Option Json := (payload.get? "format").bind (·.get? "duration")

/-- The duration that an answer tells: the number at `format.duration` of what it reads as. -/
def Reply.found : Reply → Option Double
  | .output text =>
    match Json.read .allowed text with
    | .ok payload => (durationField payload).bind toDouble?
    | .error _ => none
  | .failed _ | .notStarted _ => none

/-- Whether a value is an object. -/
def IsObject (j : Json) : Prop := ∃ members, j = .dict members

/-- The values in which no duration is looked for to the end, each with the reason. -/
inductive Unsuited : Json → Error → Prop
  | payload {payload : Json} (other : ¬ IsObject payload) : Unsuited payload .notAnObject
  /-- A `format` that says something, but is no object. -/
  | format {payload format : Json} (there : payload.get? "format" = some format)
      (something : isNothing format = false) (other : ¬ IsObject format) :
      Unsuited payload .notAnObject
  /-- A whole number past the range of doubles. -/
  | number {payload : Json} {i : Int} (there : durationField payload = some (.int i))
      (past : Double.ofInt? i = none) : Unsuited payload .tooLarge

/-- The answers behind which nothing goes on, each with the reason. -/
inductive Stops : Reply → Error → Prop
  | deep {text : String} (read : Json.read .allowed text = .error .tooDeep) :
      Stops (.output text) (.unreadable .tooDeep)
  | unsuited {text : String} {payload : Json} {e : Error}
      (read : Json.read .allowed text = .ok payload) (h : Unsuited payload e) :
      Stops (.output text) e

/-! ## Following the keys -/

section Payload

variable {payload format value : Json} {members : List (String × Json)} {e : Error}

theorem number_eq (value : Json) :
    number value = .ok (toDouble? value) ∨
      number value = .error .tooLarge ∧ ∃ i, value = .int i ∧ Double.ofInt? i = none := by
  cases value with
  | int i =>
    cases hi : Double.ofInt? i with
    | some d => exact .inl (by rw [number, toDouble?, hi]; rfl)
    | none => exact .inr ⟨by rw [number, hi]; rfl, i, rfl, hi⟩
  | _ => exact .inl rfl

theorem isObject_of_get? {key : String} (h : payload.get? key = some value) : IsObject payload := by
  cases payload with
  | dict members => exact ⟨members, rfl⟩
  | _ => cases h

/-- A value that says nothing has no members. -/
theorem get?_of_isNothing (h : isNothing value = true) (key : String) : value.get? key = none := by
  cases value with
  | dict members =>
    rw [List.isEmpty_iff.mp h]
    rfl
  | _ => rfl

/-- What a `format` that says something comes to. -/
def ofFormat : Json → Except Error (Option Double)
  | .dict members => ((members.lookup "duration").elim (.ok none)) number
  | _ => .error .notAnObject

theorem durationOf_dict (there : members.lookup "format" = some format) :
    durationOf (.dict members) = if isNothing format then .ok none else ofFormat format := by
  simp only [durationOf, there, Option.getD_some]
  rfl

theorem durationField_dict (there : members.lookup "format" = some format) :
    durationField (.dict members) = format.get? "duration" := by
  show (members.lookup "format").bind _ = _
  rw [there]
  rfl

theorem durationOf_of_unsuited (h : Unsuited payload e) : durationOf payload = .error e := by
  cases h with
  | payload other =>
    cases payload with
    | dict members => exact absurd ⟨members, rfl⟩ other
    | _ => rfl
  | @format format there something other =>
    obtain ⟨members, rfl⟩ := isObject_of_get? there
    rw [durationOf_dict there, something, if_neg Bool.false_ne_true]
    cases format with
    | dict inner => exact absurd ⟨inner, rfl⟩ other
    | _ => rfl
  | @number i there past =>
    obtain ⟨format, hformat, hduration⟩ := Option.bind_eq_some_iff.mp there
    obtain ⟨members, rfl⟩ := isObject_of_get? hformat
    obtain ⟨inner, rfl⟩ := isObject_of_get? hduration
    have hlookup : inner.lookup "duration" = some (.int i) := hduration
    have hsays : isNothing (.dict inner) = false := by
      cases hnothing : isNothing (.dict inner) with
      | false => rfl
      | true => rw [get?_of_isNothing hnothing] at hduration; cases hduration
    rw [durationOf_dict hformat, hsays, if_neg Bool.false_ne_true, ofFormat, hlookup,
      Option.elim_some, number, past]
    rfl

theorem durationOf_of_suited (h : ∀ e, ¬ Unsuited payload e) :
    durationOf payload = .ok ((durationField payload).bind toDouble?) := by
  obtain ⟨members, rfl⟩ : IsObject payload :=
    Classical.byContradiction fun other => h _ (.payload other)
  cases hformat : members.lookup "format" with
  | none =>
    have hfield : durationField (.dict members) = none := by
      show (members.lookup "format").bind _ = _
      rw [hformat]
      rfl
    rw [hfield]
    simp only [durationOf, hformat]
    rfl
  | some format =>
    rw [durationOf_dict hformat, durationField_dict hformat]
    cases hnothing : isNothing format with
    | true =>
      rw [get?_of_isNothing hnothing]
      rfl
    | false =>
      obtain ⟨inner, rfl⟩ : IsObject format :=
        Classical.byContradiction fun other => h _ (.format hformat hnothing other)
      have hfield : durationField (.dict members) = inner.lookup "duration" :=
        durationField_dict hformat
      rw [if_neg Bool.false_ne_true, ofFormat]
      show _ = Except.ok ((inner.lookup "duration").bind toDouble?)
      cases hvalue : inner.lookup "duration" with
      | none => rfl
      | some value =>
        rw [Option.elim_some, Option.bind_some]
        rcases number_eq value with hok | ⟨-, i, rfl, past⟩
        · exact hok
        · exact absurd (.number (hfield.trans hvalue) past) (h _)

end Payload

/-! ## Reading an answer -/

section Reply

variable {reply : Reply} {e : Error}

theorem read_empty : Json.read .allowed "" = .error .malformed := rfl

/-- Behind an answer that stops everything its reason is reported, and not passed over. -/
theorem duration_of_stops (h : Stops reply e) : duration reply = .error e ∧ e.isTolerated = false := by
  cases h with
  | @deep text read =>
    have hsome : text ≠ "" := by
      rintro rfl
      cases read_empty.symm.trans read
    simp only [duration, if_neg hsome, read]
    exact ⟨trivial, rfl⟩
  | @unsuited text payload _ read h =>
    have hsome : text ≠ "" := by
      rintro rfl
      cases read_empty.symm.trans read
    simp only [duration, if_neg hsome, read]
    refine ⟨durationOf_of_unsuited h, ?_⟩
    cases h <;> rfl

/-- Every other answer tells what is found in it; where nothing is told, the reason is passed
over. -/
theorem duration_of_not_stops (h : ∀ e, ¬ Stops reply e) :
    duration reply = .ok reply.found ∨
      reply.found = none ∧ ∃ e, duration reply = .error e ∧ e.isTolerated = true := by
  cases reply with
  | failed status => exact .inr ⟨rfl, _, rfl, rfl⟩
  | notStarted message => exact .inr ⟨rfl, _, rfl, rfl⟩
  | output text =>
    by_cases hempty : text = ""
    · subst hempty
      exact .inl rfl
    · simp only [duration, if_neg hempty, Reply.found]
      cases hread : Json.read .allowed text with
      | ok payload =>
        left
        exact durationOf_of_suited fun e hunsuited => h e (.unsuited hread hunsuited)
      | error reason =>
        right
        refine ⟨rfl, _, rfl, ?_⟩
        cases reason with
        | tooDeep => exact absurd (.deep hread) (h _)
        | _ => rfl

end Reply

end TimedText.Probe

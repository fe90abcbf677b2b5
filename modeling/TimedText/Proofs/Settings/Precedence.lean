import TimedText.Settings.Source
import TimedText.Proofs.Settings.Entry
import Mathlib.Data.List.Basic
import Mathlib.Data.List.Induction

/-!
# The strongest source decides

Arguments, the environment, the file of variables and the TOML file are asked in this order, entry
by entry: the first of them that names an entry decides it, whichever of its names it uses, and
weaker sources do not matter then (`Sources.first`). Of the dictionary that the sources are put into
this holds for every entry but one. The environment goes by several names, so it is looked up under
several keys, and there it takes a package that puts what arguments and variables say under the
strongest of them (`Keying.Unifies`).

The TOML file can spoil everything: some files that cannot be read stop the program even where
nothing asks for them (`Sources.fault`).
-/

namespace TimedText.Settings

open TimedText.Field (Issue)

/-! ## What one source names -/

/-- The variables of an entry in lower case, the strongest first, each with the name that its text
is a raw field under. The environment has no variable of its own name. -/
def Entry.variableNames : Entry → List (String × String)
  | environment => environmentNames.dropLast.map fun n => (Field.lowerAscii n, n)
  | e => [(variableStart ++ e.name, e.name)]

/-- The text of a variable: its name counts in any case, and of several bindings the last, which may
be one without a value. -/
def textOf? (bindings : List Variables.Binding) (key : String) : Option String :=
  (bindings.filter fun b => Field.lowerAscii b.1 = key).getLast?.bind (·.2)

/-- What variables give an entry: the text of the strongest of its variables that has one. -/
def bound (bindings : List Variables.Binding) (e : Entry) : Choice :=
  e.variableNames.findSome? fun (key, n) => (textOf? bindings key).map fun t => (n, .text t)

theorem Entry.name_mem_plainFields {e : Entry} (h : e ≠ .environment) : e.name ∈ plainFields := by
  cases e with
  | environment => exact absurd rfl h
  | _ => decide

theorem plain_not_environment {n : String} (h : n ∈ plainFields) : n ∉ environmentNames :=
  (by decide : ∀ n ∈ plainFields, n ∉ environmentNames) n h

/-! ## Lookups -/

section Lookup

variable {α ι : Type} {k k' : String} {v : α} {l : List (String × α)}

theorem lookup_cons_ite :
    ((k, v) :: l).lookup k' = if k' = k then some v else l.lookup k' := by
  by_cases h : k' = k
  · rw [if_pos h, h, List.lookup_cons_self]
  · rw [if_neg h, List.lookup_cons, beq_false_of_ne h]

theorem lookup_put : (Json.put k v l).lookup k' = if k' = k then some v else l.lookup k' := by
  induction l with
  | nil => exact lookup_cons_ite
  | cons entry l ih =>
    obtain ⟨k₀, v₀⟩ := entry
    unfold Json.put
    by_cases h₀ : k₀ = k
    · subst h₀
      rw [if_pos rfl, lookup_cons_ite, lookup_cons_ite]
      by_cases h : k' = k₀
      · rw [if_pos h, if_pos h]
      · rw [if_neg h, if_neg h, if_neg h]
    · rw [if_neg h₀, lookup_cons_ite, lookup_cons_ite, ih]
      by_cases h : k' = k₀
      · rw [if_pos h, if_neg (h ▸ h₀), if_pos h]
      · rw [if_neg h, if_neg h]

/-- Of values with keys the first one counts under a key. -/
theorem lookup_filterMap (key : ι → String) (f : ι → Option α) (is : List ι) (k : String) :
    (is.filterMap fun i => (f i).map (key i, ·)).lookup k =
      is.findSome? fun i => if key i = k then f i else none := by
  induction is with
  | nil => rfl
  | cons i is ih =>
    rw [List.findSome?_cons]
    cases hf : f i with
    | none => rw [List.filterMap_cons_none (by rw [hf]; rfl), ih, ite_self]
    | some v =>
      rw [List.filterMap_cons_some (by rw [hf]; rfl), lookup_cons_ite, ih]
      by_cases h : key i = k
      · rw [if_pos h, if_pos h.symm]
      · rw [if_neg h, if_neg (Ne.symm h)]

theorem findSome?_eq_of_mem {f : String → Option α} {is : List String} (h : k ∈ is) :
    (is.findSome? fun i => if i = k then f i else none) = f k := by
  induction is with
  | nil => exact absurd h List.not_mem_nil
  | cons i is ih =>
    rw [List.findSome?_cons]
    by_cases hi : i = k
    · subst hi
      rw [if_pos rfl]
      cases hf : f i with
      | some v => rfl
      | none =>
        refine List.findSome?_eq_none_iff.mpr fun j _ => ?_
        split
        · next hj => exact hj ▸ hf
        · rfl
    · rw [if_neg hi]
      exact ih ((List.mem_cons.mp h).resolve_left (Ne.symm hi))

theorem findSome?_eq_none_of_not_mem {f : String → Option α} {is : List String} (h : k ∉ is) :
    (is.findSome? fun i => if i = k then f i else none) = none :=
  List.findSome?_eq_none_iff.mpr fun _ hi => if_neg (ne_of_mem_of_not_mem hi h)

theorem findSome?_congr {f g : ι → Option α} {is : List ι} (h : ∀ i ∈ is, f i = g i) :
    is.findSome? f = is.findSome? g := by
  induction is with
  | nil => rfl
  | cons i is ih =>
    obtain ⟨hi, his⟩ := List.forall_mem_cons.mp h
    rw [List.findSome?_cons, List.findSome?_cons, hi, ih his]

/-- What only the first can give counts before what all may give. -/
theorem findSome?_cons_or {f : String → Option α} {c : Option α} {ks : List String} (h : k ∉ ks) :
    ((k :: ks).findSome? fun n => (if n = k then c else none).or (f n)) =
      c.or ((k :: ks).findSome? f) := by
  have hrest : (ks.findSome? fun n => (if n = k then c else none).or (f n)) = ks.findSome? f :=
    findSome?_congr fun n hn => by rw [if_neg (ne_of_mem_of_not_mem hn h), Option.none_or]
  rw [List.findSome?_cons, List.findSome?_cons, if_pos rfl, hrest]
  cases c <;> rfl

end Lookup

/-! ## Fields with one name for the environment -/

/-- Fields that name the environment once, if at all, and other fields by their names. -/
def assembled (c : Choice) (f : String → Option Raw) : Fields :=
  c.toList ++ plainFields.filterMap fun n => (f n).map (n, ·)

section Assembled

variable {c : Choice} {f : String → Option Raw} {e : Entry}

theorem lookup_assembled (n : String) : (assembled c f).lookup n =
    (c.bind fun p => if n = p.1 then some p.2 else none).or
      (plainFields.findSome? fun n' => if n' = n then f n' else none) := by
  rw [assembled, List.lookup_append, lookup_filterMap]
  cases c with
  | none => rfl
  | some p => exact congrArg (Option.or · _) lookup_cons_ite

theorem given_assembled_environment (known : ∀ p ∈ c, p.1 ∈ environmentNames) :
    given (assembled c f) .environment = c := by
  have hlookup (n : String) (hn : n ∈ environmentNames) : (assembled c f).lookup n =
      c.bind fun p => if n = p.1 then some p.2 else none := by
    rw [lookup_assembled,
      findSome?_eq_none_of_not_mem fun hplain => plain_not_environment hplain hn, Option.or_none]
  show environmentNames.findSome? _ = c
  rw [findSome?_congr fun n hn => congrArg (Option.map (n, ·)) (hlookup n hn)]
  cases c with
  | none => exact List.findSome?_eq_none_iff.mpr fun _ _ => rfl
  | some p =>
    -- only the name that is there finds it
    refine Eq.trans (findSome?_congr fun n _ => ?_)
      (findSome?_eq_of_mem (f := fun _ => some p) (known p rfl))
    show ((if n = p.1 then some p.2 else none).map (n, ·) : Choice) =
      if n = p.1 then some p else none
    by_cases hn : n = p.1
    · rw [if_pos hn, if_pos hn, hn]
      rfl
    · rw [if_neg hn, if_neg hn]
      rfl

theorem given_assembled_plain (known : ∀ p ∈ c, p.1 ∈ environmentNames) (h : e ≠ .environment) :
    given (assembled c f) e = (f e.name).map (e.name, ·) := by
  have hother : (c.bind fun p => if e.name = p.1 then some p.2 else none) = none := by
    cases c with
    | none => rfl
    | some p => exact if_neg (ne_of_mem_of_not_mem (known p rfl) (Entry.names_plain h).2).symm
  rw [given_plain h, lookup_assembled, hother, Option.none_or,
    findSome?_eq_of_mem (Entry.name_mem_plainFields h)]

end Assembled

/-! ## Fields from variables -/

section Variables

variable {bindings : List Variables.Binding} {e : Entry}

/-- A name in lower case is bound as the last of its spellings is. -/
theorem lookup_foldNames (bindings : List Variables.Binding) (key : String) :
    (foldNames bindings).lookup key
      = (bindings.filter fun b => Field.lowerAscii b.1 = key).getLast?.map (·.2) := by
  induction bindings using List.reverseRecOn with
  | nil => rfl
  | append_singleton bindings b ih =>
    have hfold : foldNames (bindings ++ [b])
        = Json.put (Field.lowerAscii b.1) b.2 (foldNames bindings) := by
      rw [foldNames, List.foldl_append]
      rfl
    rw [hfold, lookup_put, List.filter_append]
    by_cases h : Field.lowerAscii b.1 = key
    · rw [if_pos h.symm, List.filter_cons_of_pos (by simpa using h), List.filter_nil,
        List.getLast?_concat]
      rfl
    · rw [if_neg (Ne.symm h), ih, List.filter_cons_of_neg (by simpa using h), List.filter_nil,
        List.append_nil]

theorem valueOf?_foldNames (bindings : List Variables.Binding) (key : String) :
    valueOf? (foldNames bindings) key = (textOf? bindings key).map Raw.text := by
  rw [valueOf?, lookup_foldNames, textOf?]
  cases (bindings.filter fun b => Field.lowerAscii b.1 = key).getLast? <;> rfl

/-- The fields of variables: that of the environment, and one for each plain entry. -/
theorem ofVariables_eq (bindings : List Variables.Binding) :
    ofVariables bindings = assembled (bound bindings .environment)
      fun n => (textOf? bindings (variableStart ++ n)).map Raw.text := by
  unfold ofVariables bound assembled
  simp only [valueOf?_foldNames, Entry.variableNames, List.findSome?_map, Option.map_map]
  rfl

theorem bound_environment_name {c : String × Raw} (h : bound bindings .environment = some c) :
    c.1 ∈ environmentNames.dropLast := by
  obtain ⟨v, hv, hc⟩ := List.exists_of_findSome?_eq_some h
  obtain ⟨n, hn, rfl⟩ := List.mem_map.mp hv
  obtain ⟨t, -, rfl⟩ := Option.map_eq_some_iff.mp hc
  exact hn

theorem bound_plain (h : e ≠ .environment) :
    bound bindings e
      = ((textOf? bindings (variableStart ++ e.name)).map Raw.text).map (e.name, ·) := by
  have hvariables : e.variableNames = [(variableStart ++ e.name, e.name)] := by
    cases e with
    | environment => exact absurd rfl h
    | _ => rfl
  rw [bound, hvariables, List.findSome?_singleton, Option.map_map]
  rfl

theorem given_ofVariables (bindings : List Variables.Binding) (e : Entry) :
    given (ofVariables bindings) e = bound bindings e := by
  have known : ∀ p ∈ bound bindings .environment, p.1 ∈ environmentNames := fun p hp =>
    List.dropLast_subset _ (bound_environment_name hp)
  rw [ofVariables_eq]
  by_cases h : e = .environment
  · subst h
    exact given_assembled_environment known
  · rw [given_assembled_plain known h, bound_plain h]

end Variables

/-! ## The dictionary -/

section Keyed

variable {key : String → String} {fields : Fields} {k : String} {m m' : Keyed}

/-- What fields put under a key of the environment. -/
def under (key : String → String) (fields : Fields) (k : String) : Choice :=
  environmentNames.findSome? fun n => if key n = k then (fields.lookup n).map (n, ·) else none

theorem lookup_keyed (key : String → String) (fields : Fields) (k : String) :
    (keyed key fields).lookup k = (under key fields k).or
      (plainFields.findSome? fun n => if n = k then (fields.lookup n).map (n, ·) else none) := by
  have hparts : keyed key fields =
      (environmentNames.filterMap fun n => ((fields.lookup n).map (n, ·)).map (key n, ·))
        ++ plainFields.filterMap fun n => ((fields.lookup n).map (n, ·)).map (n, ·) := by
    simp only [keyed, Option.map_map]
    rfl
  rw [hparts, List.lookup_append, lookup_filterMap, lookup_filterMap]
  rfl

theorem lookup_keyed_environment (h : k ∈ environmentNames) :
    (keyed key fields).lookup k = under key fields k := by
  rw [lookup_keyed, findSome?_eq_none_of_not_mem fun hplain => plain_not_environment hplain h,
    Option.or_none]

theorem lookup_keyed_plain (mem : ∀ n ∈ environmentNames, key n ∈ environmentNames)
    (h : k ∈ plainFields) : (keyed key fields).lookup k = (fields.lookup k).map (k, ·) := by
  have hnone : under key fields k = none :=
    List.findSome?_eq_none_iff.mpr fun n hn =>
      if_neg (ne_of_mem_of_not_mem (mem n hn) (plain_not_environment h))
  rw [lookup_keyed, hnone, Option.none_or, findSome?_eq_of_mem h]

/-- Values of the environment have been given under one of its names, and others under their
keys. -/
def Keyed.Sound (m : Keyed) : Prop :=
  (∀ k ∈ environmentNames, ∀ c, m.lookup k = some c → c.1 ∈ environmentNames) ∧
    ∀ k ∈ plainFields, ∀ c, m.lookup k = some c → c.1 = k

theorem sound_keyed (fields : Fields) (mem : ∀ n ∈ environmentNames, key n ∈ environmentNames) :
    Keyed.Sound (keyed key fields) := by
  refine ⟨fun k hk c hc => ?_, fun k hk c hc => ?_⟩
  · rw [lookup_keyed_environment hk] at hc
    obtain ⟨n, hn, hvalue⟩ := List.exists_of_findSome?_eq_some hc
    split at hvalue
    · obtain ⟨r, -, rfl⟩ := Option.map_eq_some_iff.mp hvalue
      exact hn
    · cases hvalue
  · rw [lookup_keyed_plain mem hk] at hc
    obtain ⟨r, -, rfl⟩ := Option.map_eq_some_iff.mp hc
    rfl

theorem Keyed.Sound.append (h : Keyed.Sound m) (h' : Keyed.Sound m') : Keyed.Sound (m ++ m') := by
  refine ⟨fun k hk c hc => ?_, fun k hk c hc => ?_⟩ <;>
    rw [List.lookup_append, Option.or_eq_some_iff] at hc
  · exact hc.elim (h.1 k hk c) fun hc => h'.1 k hk c hc.2
  · exact hc.elim (h.2 k hk c) fun hc => h'.2 k hk c hc.2

/-- What is looked up in the dictionary for an entry. -/
theorem given_lookedUp (sound : Keyed.Sound m) (e : Entry) :
    given (lookedUp m) e = e.names.findSome? fun n => m.lookup n := by
  have hfields : lookedUp m = assembled (environmentNames.findSome? fun n => m.lookup n)
      fun n => (m.lookup n).map (·.2) := by
    refine congrArg (_ ++ ·) (List.filterMap_congr fun n hn => ?_)
    show m.lookup n = ((m.lookup n).map (·.2)).map (n, ·)
    cases hc : m.lookup n with
    | none => rfl
    | some c =>
      show some c = some (n, c.2)
      rw [← sound.2 n hn c hc]
  have known : ∀ p ∈ environmentNames.findSome? fun n => m.lookup n, p.1 ∈ environmentNames := by
    intro p hp
    obtain ⟨n, hn, hc⟩ := List.exists_of_findSome?_eq_some hp
    exact sound.1 n hn p hc
  rw [hfields]
  by_cases h : e = .environment
  · subst h
    exact given_assembled_environment known
  · rw [given_assembled_plain known h, (Entry.names_plain h).1, List.findSome?_singleton]
    cases hc : m.lookup e.name with
    | none => rfl
    | some c =>
      show some (e.name, c.2) = some c
      rw [← sound.2 _ (Entry.name_mem_plainFields h) c hc]

end Keyed

/-! ## The sources together -/

namespace Sources

/-- The bindings of the environment. -/
def bindings (s : Sources) : List Variables.Binding := s.environment.map fun (k, v) => (k, some v)

/-- The bindings of the file of variables. -/
def fileBindings (s : Sources) : List Variables.Binding :=
  match s.variableFile with
  | none => []
  | some text => Variables.read s.environment text

/-- The fields of the TOML file; one that cannot be read names nothing. -/
def document (s : Sources) : Fields := s.read.toOption.getD []

/-- What is wrong with a TOML file that stops everything. -/
def fault (s : Sources) : Option FileError :=
  match s.read with
  | .ok _ => none
  | .error e => some e

/-- What the first source gives that names an entry. -/
def first (s : Sources) (e : Entry) : Choice :=
  (given s.arguments e).or
    ((bound s.bindings e).or ((bound s.fileBindings e).or (given s.document e)))

/-- What is looked up for an entry in the dictionary of the sources: under each of its names, the
strongest first, what the first source has there that has anything. -/
def chosen (s : Sources) (k : Keying) (e : Entry) : Choice :=
  (s.merged k).toOption.bind fun m => e.names.findSome? fun n => m.lookup n

variable {s : Sources} {k : Keying} {base : Settings} {e : Entry}

/-- The dictionary, where the TOML file does not stop everything. -/
theorem merged_eq (s : Sources) (k : Keying) :
    s.merged k = match s.fault with
      | some e => .error e
      | none => .ok (keyed k.ofArgument s.arguments ++ keyed k.ofVariable (ofVariables s.bindings)
          ++ keyed k.ofVariable (ofVariables s.fileBindings) ++ keyed id s.document) := by
  unfold merged fault document
  cases s.read <;> rfl

theorem load_of_fault {fault : FileError} (h : s.fault = some fault) (k : Keying)
    (base : Settings) : load k base s = .error (.file fault) := by
  rw [load, merged_eq, h]

/-- Nothing counts but what is looked up for the entries. -/
theorem load_of_no_fault (h : s.fault = none) (k : Keying) (base : Settings) :
    load k base s = (ofChoices base (s.chosen k)).mapError .invalid := by
  have hdocument : Keyed.Sound (keyed id s.document) := sound_keyed _ fun _ hn => hn
  have sound := (((sound_keyed s.arguments k.ofArgument_mem).append
    (sound_keyed (ofVariables s.bindings) k.ofVariable_mem)).append
    (sound_keyed (ofVariables s.fileBindings) k.ofVariable_mem)).append hdocument
  have hmerged := s.merged_eq k
  rw [h] at hmerged
  have hchosen : s.chosen k = given (lookedUp _) := funext fun e => by
    rw [chosen, hmerged]
    exact (given_lookedUp sound e).symm
  rw [load, hmerged, hchosen]
  show (build base _).mapError _ = _
  rw [build_eq_ofChoices]

theorem chosen_of_no_fault (h : s.fault = none) (k : Keying) (e : Entry) :
    s.chosen k e = e.names.findSome? fun n =>
      ((keyed k.ofArgument s.arguments).lookup n).or
        (((keyed k.ofVariable (ofVariables s.bindings)).lookup n).or
          (((keyed k.ofVariable (ofVariables s.fileBindings)).lookup n).or
            ((keyed id s.document).lookup n))) := by
  rw [chosen, merged_eq, h]
  show (e.names.findSome? fun n => List.lookup n _) = _
  simp only [List.lookup_append, Option.or_assoc]

/-- An entry with one name is decided by the first source that names it, whatever the package
does. -/
theorem chosen_plain (h : s.fault = none) (plain : e ≠ .environment) :
    s.chosen k e = s.first e := by
  have hname := Entry.name_mem_plainFields plain
  have hgiven (fields : Fields) : (fields.lookup e.name).map (e.name, ·) = given fields e :=
    (given_plain plain).symm
  have hdocument : (keyed id s.document).lookup e.name = _ :=
    lookup_keyed_plain (fun _ hn => hn) hname
  rw [chosen_of_no_fault h, (Entry.names_plain plain).1, List.findSome?_singleton,
    lookup_keyed_plain k.ofArgument_mem hname, lookup_keyed_plain k.ofVariable_mem hname,
    lookup_keyed_plain k.ofVariable_mem hname, hdocument, hgiven, hgiven, hgiven, hgiven,
    given_ofVariables, given_ofVariables]
  rfl

end Sources

/-! ## Names of the environment -/

/-- The package puts what arguments and variables say of the environment under its strongest
name. -/
def Keying.Unifies (k : Keying) : Prop :=
  (∀ n ∈ environmentNames, k.ofArgument n = strongestName) ∧
    ∀ n ∈ environmentNames.dropLast, k.ofVariable n = strongestName

section Unified

variable {key : String → String} {fields : Fields} {k : Keying} {s : Sources}

/-- Under the strongest name stands all that fields give the environment, and under no other
anything. -/
theorem under_of_unified
    (h : ∀ n ∈ environmentNames, (fields.lookup n).isSome = true → key n = strongestName)
    (n : String) :
    under key fields n = if n = strongestName then given fields .environment else none := by
  split
  · next hn =>
    subst hn
    refine findSome?_congr fun n hmem => ?_
    cases hlookup : fields.lookup n with
    | none => exact ite_self _
    | some r => exact if_pos (h n hmem (by rw [hlookup]; rfl))
  · next hn =>
    refine List.findSome?_eq_none_iff.mpr fun n' hmem => ?_
    cases hlookup : fields.lookup n' with
    | none => exact ite_self _
    | some r => exact if_neg fun heq => hn (heq.symm.trans (h n' hmem (by rw [hlookup]; rfl)))

/-- Variables name the environment by the names of variables. -/
theorem name_of_variable {bindings : List Variables.Binding} {n : String}
    (hn : n ∈ environmentNames) (there : ((ofVariables bindings).lookup n).isSome = true) :
    n ∈ environmentNames.dropLast := by
  rw [ofVariables_eq, lookup_assembled,
    findSome?_eq_none_of_not_mem fun hplain => plain_not_environment hplain hn,
    Option.or_none] at there
  cases hc : bound bindings .environment with
  | none =>
    rw [hc] at there
    cases there
  | some c =>
    rw [hc, Option.bind_some] at there
    split at there
    · next heq => exact heq ▸ bound_environment_name hc
    · cases there

theorem Keying.Unifies.chosen (unifies : k.Unifies) (h : s.fault = none) :
    s.chosen k = s.first := by
  funext e
  by_cases plain : e = .environment
  swap
  · exact Sources.chosen_plain h plain
  subst plain
  have hvariable (bindings : List Variables.Binding) (n : String) :
      under k.ofVariable (ofVariables bindings) n =
        if n = strongestName then bound bindings .environment else none := by
    rw [under_of_unified fun n hn there => unifies.2 n (name_of_variable hn there),
      given_ofVariables]
  have hargument (n : String) : under k.ofArgument s.arguments n =
      if n = strongestName then given s.arguments .environment else none :=
    under_of_unified (fun n hn _ => unifies.1 n hn) n
  have hdocument (n : String) (hn : n ∈ environmentNames) :
      under id s.document n = (s.document.lookup n).map (n, ·) :=
    findSome?_eq_of_mem hn
  rw [Sources.chosen_of_no_fault h]
  show environmentNames.findSome? _ = _
  -- arguments and variables stand under the strongest name alone, which is looked up first
  calc environmentNames.findSome? _
      = environmentNames.findSome? fun n => (if n = strongestName then
          (given s.arguments .environment).or
            ((bound s.bindings .environment).or (bound s.fileBindings .environment))
          else none).or ((s.document.lookup n).map (n, ·)) := by
        refine findSome?_congr fun n hn => ?_
        rw [lookup_keyed_environment hn, lookup_keyed_environment hn, lookup_keyed_environment hn,
          lookup_keyed_environment hn, hargument, hvariable, hvariable, hdocument n hn]
        split <;> simp only [Option.or_assoc, Option.none_or]
    _ = s.first .environment := by
        rw [environmentNames, findSome?_cons_or (by decide), Option.or_assoc, Option.or_assoc]
        rfl

/-- A TOML file that names the environment by its strongest name. -/
def developing : FileAnswer := .holding (Bytes.ofText "SUBSTUDIO_APP_ENV = 'dev'")

theorem read_developing (h : s.file = developing) :
    s.read = .ok [(strongestName, .text "dev")] := by
  have hfile : ofFile (Bytes.ofText "SUBSTUDIO_APP_ENV = 'dev'") =
      .ok [(strongestName, .text "dev")] := by decide +kernel
  unfold Sources.read
  rw [h]
  exact hfile

/-- The file goes before a stronger source that is put under a weaker name. -/
theorem chosen_developing (hfile : s.file = developing)
    (harguments : (keyed k.ofArgument s.arguments).lookup strongestName = none)
    (hbound : (keyed k.ofVariable (ofVariables s.bindings)).lookup strongestName = none)
    (hvariables : s.variableFile = none) :
    s.chosen k .environment = some (strongestName, .text "dev") := by
  have hread := read_developing hfile
  have hfault : s.fault = none := by rw [Sources.fault, hread]
  have hdocument : s.document = [(strongestName, .text "dev")] := by
    rw [Sources.document, hread]
    rfl
  have hfileBindings : s.fileBindings = [] := by rw [Sources.fileBindings, hvariables]
  have hweakest : (keyed id s.document).lookup strongestName =
      some (strongestName, .text "dev") := by
    rw [hdocument]
    rfl
  rw [Sources.chosen_of_no_fault hfault]
  show environmentNames.findSome? _ = _
  rw [environmentNames, List.findSome?_cons, harguments, hbound, hfileBindings, hweakest]
  rfl

theorem under_singleton {n : String} {r : Raw} (hn : n ∈ environmentNames) (k : String) :
    under key [(n, r)] k = if key n = k then some (n, r) else none := by
  refine Eq.trans (findSome?_congr fun m _ => ?_)
    (findSome?_eq_of_mem (f := fun m => if key m = k then some (m, r) else none) hn)
  rw [lookup_cons_ite]
  by_cases hm : m = n
  · rw [if_pos hm, if_pos hm]
    rfl
  · rw [if_neg hm, if_neg hm]
    exact ite_self _

theorem given_singleton {n : String} {r : Raw} (hn : n ∈ environmentNames) :
    given [(n, r)] .environment = some (n, r) := by
  have hone : given [(n, r)] .environment = under (fun _ => n) [(n, r)] n :=
    findSome?_congr fun m _ => (if_pos rfl).symm
  rw [hone, under_singleton hn, if_pos rfl]

/-- Where the package keeps another name for a stronger source, the TOML file can go before it. -/
theorem Keying.unifies_of_chosen (h : ∀ s : Sources, s.fault = none → s.chosen k = s.first) :
    k.Unifies := by
  have hdiffer {n : String} :
      some (n, Raw.text "production") ≠ some (strongestName, .text "dev") := by
    simp
  have hfault {s : Sources} (hfile : s.file = developing) : s.fault = none := by
    rw [Sources.fault, read_developing hfile]
  have hkeyed {key : String → String} {n : String} {r : Raw} (hn : n ∈ environmentNames)
      (hkey : key n ≠ strongestName) : (keyed key [(n, r)]).lookup strongestName = none := by
    rw [lookup_keyed_environment List.mem_cons_self, under_singleton hn, if_neg hkey]
  -- a source that is put under another name loses to a file that uses the strongest
  constructor
  · intro n hn
    by_contra hkey
    let s : Sources := { arguments := [(n, .text "production")], file := developing }
    have hchosen : s.chosen k .environment = _ :=
      chosen_developing rfl (hkeyed hn hkey) rfl rfl
    have hfirst : s.first .environment = some (n, .text "production") := by
      rw [Sources.first, given_singleton hn]
      rfl
    rw [h s (hfault rfl), hfirst] at hchosen
    exact hdiffer hchosen
  · intro n hn
    by_contra hkey
    let s : Sources := { environment := [(n, "production")], file := developing }
    have hvariables : ofVariables s.bindings = [(n, .text "production")] :=
      (by decide +kernel : ∀ n ∈ environmentNames.dropLast,
        ofVariables [(n, some "production")] = [(n, .text "production")]) n hn
    have hmem : n ∈ environmentNames := List.dropLast_subset _ hn
    have hchosen : s.chosen k .environment = _ :=
      chosen_developing rfl rfl (hvariables ▸ hkeyed hmem hkey) rfl
    have hfirst : s.first .environment = some (n, .text "production") := by
      rw [Sources.first, ← given_ofVariables, hvariables, given_singleton hmem]
      rfl
    rw [h s (hfault rfl), hfirst] at hchosen
    exact hdiffer hchosen

end Unified

theorem unified_unifies : Keying.unified.Unifies := ⟨fun _ _ => rfl, fun _ _ => rfl⟩

theorem asGiven_not_unifies : ¬ Keying.asGiven.Unifies := fun h =>
  absurd (h.1 "app_env" (by decide)) (by decide)

/-! ## The settings that come out -/

/-- A file that cannot be read through stops everything. Else every entry has the value that is
looked up for it in the dictionary of the sources, or its default; what is wrong is what is wrong
with these values, and nothing else that a source says makes a difference. What is looked up is what
the first source gives that names the entry: always for entries of one name, and for the environment
if and only if the package puts what arguments and variables say of it under its strongest name. -/
theorem strongest_source_decides (k : Keying) (base : Settings) :
    (∀ s : Sources, match s.fault with
      | some fault => load k base s = .error (.file fault)
      | none =>
        (∀ t, load k base s = .ok t ↔
            ∀ e : Entry, e.readOr base (s.chosen k e) = .ok (e.value t))
          ∧ (∀ issues, load k base s = .error (.invalid issues)
              ↔ issues = Entry.all.flatMap (fun e => e.issues (s.chosen k e)) ∧ issues ≠ [])
          ∧ (∀ s' : Sources, s'.fault = none → s'.chosen k = s.chosen k →
              load k base s' = load k base s)
          ∧ ∀ e ≠ Entry.environment, s.chosen k e = s.first e)
      ∧ (k.Unifies ↔ ∀ s : Sources, s.fault = none → s.chosen k = s.first) := by
  refine ⟨fun s => ?_, fun unifies s h => unifies.chosen h, Keying.unifies_of_chosen⟩
  cases hfault : s.fault with
  | some fault => exact Sources.load_of_fault hfault k base
  | none =>
    have hload : load k base s = _ := Sources.load_of_no_fault hfault k base
    refine ⟨fun t => ?_, fun issues => ?_, fun s' hfault' hchosen => ?_,
      fun e plain => Sources.chosen_plain hfault plain⟩
    · rw [hload, mapError_eq_ok, ofChoices_eq_ok_iff]
    · rw [hload, mapError_eq_error fun _ _ => LoadError.invalid.inj, ofChoices_eq_error_iff]
    · rw [hload, Sources.load_of_no_fault hfault' k base, hchosen]

/-- A file that is not text stops everything, whatever the package does, also where the environment
gives all that the file could give. And where a package keeps the names that the sources used, a
weaker source goes before an argument that uses a weaker name. -/
theorem unreadable_file_outweighs_environment :
    let unreadable : Sources :=
      { environment := [("SUBSTUDIO_BOX_COLOR", "white")]
        file := .holding (Bytes.ofText "box_color = '" ++ [255] ++ Bytes.ofText "'") }
    let renamed : Sources :=
      { arguments := [("app_env", .text "production")]
        environment := [("SUBSTUDIO_APP_ENV", "dev")] }
    (unreadable.first .boxColor = some ("box_color", .text "white")
        ∧ ∀ k base, load k base unreadable = .error (.file .notText))
      ∧ renamed.first .environment = some ("app_env", .text "production")
      ∧ renamed.chosen .asGiven .environment = some (strongestName, .text "dev")
      ∧ renamed.chosen .unified .environment = renamed.first .environment := by
  intro unreadable renamed
  have hfault : unreadable.fault = some .notText := by decide +kernel
  refine ⟨⟨by decide +kernel, fun k base => Sources.load_of_fault hfault k base⟩, ?_⟩
  exact ⟨by decide +kernel, by decide +kernel, by decide +kernel⟩

end TimedText.Settings

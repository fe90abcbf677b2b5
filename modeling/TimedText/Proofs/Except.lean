/-!
# Steps that may fail

Several steps one after another succeed exactly if each of them does, and else the first fault is
that of all of them.
-/

namespace TimedText

section One

variable {α β ε δ : Type} {x : Except ε α}

theorem bind_eq_ok {f : α → Except ε β} {b : β} :
    x >>= f = .ok b ↔ ∃ a, x = .ok a ∧ f a = .ok b := by
  cases x with
  | ok a => exact ⟨fun h => ⟨a, rfl, h⟩, fun ⟨_, rfl, h⟩ => h⟩
  | error e => exact iff_of_false nofun nofun

theorem bind_eq_error {f : α → Except ε β} {e : ε} :
    x >>= f = .error e ↔ x = .error e ∨ ∃ a, x = .ok a ∧ f a = .error e := by
  cases x with
  | ok a =>
    constructor
    · exact fun h => .inr ⟨a, rfl, h⟩
    · rintro (h | ⟨_, h, hf⟩)
      · cases h
      · cases h
        exact hf
  | error e' =>
    constructor
    · intro h
      cases h
      exact .inl rfl
    · rintro (h | ⟨_, h, -⟩)
      · cases h
        rfl
      · cases h

theorem map_eq_ok {f : α → β} {b : β} (h : x.map f = .ok b) : ∃ a, x = .ok a ∧ f a = b := by
  cases x with
  | error e => cases h
  | ok a => exact ⟨a, rfl, Except.ok.inj h⟩

theorem map_eq_error {f : α → β} {e : ε} : x.map f = .error e ↔ x = .error e := by
  cases x with
  | error e' => exact ⟨fun h => by cases h; rfl, fun h => by cases h; rfl⟩
  | ok a => exact iff_of_false nofun nofun

theorem mapError_eq_ok {f : ε → δ} {a : α} : x.mapError f = .ok a ↔ x = .ok a := by
  cases x with
  | ok b => exact ⟨fun h => by cases h; rfl, fun h => by cases h; rfl⟩
  | error e => exact iff_of_false nofun nofun

theorem mapError_eq_error {f : ε → δ} (distinct : ∀ e e', f e = f e' → e = e') {e : ε} :
    x.mapError f = .error (f e) ↔ x = .error e := by
  cases x with
  | ok a => exact iff_of_false nofun nofun
  | error e' =>
    constructor
    · intro h
      rw [distinct e' e (Except.error.inj h)]
    · intro h
      cases h
      rfl

end One

/-! ## Checks one after another -/

section Checks

variable {ε α : Type} {f g : α → Except ε Unit} {a : α} {l : List α}

theorem forM_cons_of_ok (h : f a = .ok ()) : (a :: l).forM f = l.forM f := by
  show (f a >>= fun _ => l.forM f) = l.forM f
  rw [h]
  rfl

theorem forM_cons_of_error {e : ε} (h : f a = .error e) : (a :: l).forM f = .error e := by
  show (f a >>= fun _ => l.forM f) = .error e
  rw [h]
  rfl

theorem forM_eq_ok_iff : l.forM f = .ok () ↔ ∀ a ∈ l, f a = .ok () := by
  induction l with
  | nil => exact iff_of_true rfl nofun
  | cons a l ih =>
    rw [List.forall_mem_cons]
    cases hfirst : f a with
    | error e =>
      rw [forM_cons_of_error hfirst]
      exact iff_of_false nofun nofun
    | ok =>
      rw [forM_cons_of_ok hfirst, ih]
      exact ⟨fun h => ⟨rfl, h⟩, fun h => h.2⟩

theorem forM_congr (h : ∀ a ∈ l, f a = g a) : l.forM f = l.forM g := by
  induction l with
  | nil => rfl
  | cons a l ih =>
    show (f a >>= fun _ => l.forM f) = (g a >>= fun _ => l.forM g)
    rw [h a List.mem_cons_self, ih fun b hb => h b (List.mem_cons_of_mem a hb)]

/-- Checks at the end that find nothing can be left out. -/
theorem forM_append_of_ok {l' : List α} (h : ∀ a ∈ l', f a = .ok ()) :
    (l ++ l').forM f = l.forM f := by
  induction l with
  | nil => exact forM_eq_ok_iff.mpr h
  | cons a l ih =>
    show (f a >>= fun _ => (l ++ l').forM f) = (f a >>= fun _ => l.forM f)
    rw [ih]

end Checks

/-! ## Answers one after another -/

theorem mapM_eq_ok_iff {ε α β : Type} {f : α → Except ε β} {g : α → β} {P : α → Prop} {l : List α}
    {bs : List β} (h : ∀ a ∈ l, ∀ b, f a = .ok b ↔ P a ∧ g a = b) :
    l.mapM f = .ok bs ↔ (∀ a ∈ l, P a) ∧ l.map g = bs := by
  induction l generalizing bs with
  | nil =>
    rw [List.mapM_nil, List.map_nil]
    exact ⟨fun heq => ⟨nofun, Except.ok.inj heq⟩, fun ⟨_, heq⟩ => congrArg Except.ok heq⟩
  | cons a l ih =>
    have hrest {bs : List β} : l.mapM f = .ok bs ↔ (∀ a ∈ l, P a) ∧ l.map g = bs :=
      ih fun a' ha' => h a' (List.mem_cons_of_mem a ha')
    simp only [List.mapM_cons, bind_eq_ok, h a List.mem_cons_self, hrest, List.forall_mem_cons,
      List.map_cons]
    constructor
    · rintro ⟨_, ⟨ha, rfl⟩, _, ⟨hl, rfl⟩, hbs⟩
      exact ⟨⟨ha, hl⟩, Except.ok.inj hbs⟩
    · rintro ⟨⟨ha, hl⟩, rfl⟩
      exact ⟨_, ⟨ha, rfl⟩, _, ⟨hl, rfl⟩, rfl⟩

/-- What several steps come to is what each of them comes to. -/
theorem exists_of_mapM_eq_ok {ε α β : Type} {f : α → Except ε β} {l : List α} {bs : List β}
    (h : l.mapM f = .ok bs) : ∀ b ∈ bs, ∃ a ∈ l, f a = .ok b := by
  induction l generalizing bs with
  | nil =>
    cases h
    nofun
  | cons a l ih =>
    rw [List.mapM_cons] at h
    obtain ⟨first, hfirst, h⟩ := bind_eq_ok.mp h
    obtain ⟨rest, hrest, h⟩ := bind_eq_ok.mp h
    cases h
    intro b hb
    rcases List.mem_cons.mp hb with rfl | hb
    · exact ⟨a, List.mem_cons_self, hfirst⟩
    · obtain ⟨a', ha', heq⟩ := ih hrest b hb
      exact ⟨a', List.mem_cons_of_mem a ha', heq⟩

/-- The fault of several steps is that of one of them. -/
theorem exists_of_mapM_eq_error {ε α β : Type} {f : α → Except ε β} {l : List α} {e : ε}
    (h : l.mapM f = .error e) : ∃ a ∈ l, f a = .error e := by
  induction l with
  | nil => cases h
  | cons a l ih =>
    rw [List.mapM_cons] at h
    rcases bind_eq_error.mp h with hfirst | ⟨_, -, h⟩
    · exact ⟨a, List.mem_cons_self, hfirst⟩
    · rcases bind_eq_error.mp h with hrest | ⟨_, -, h⟩
      · obtain ⟨a', ha', hfault⟩ := ih hrest
        exact ⟨a', List.mem_cons_of_mem a ha', hfault⟩
      · cases h

end TimedText

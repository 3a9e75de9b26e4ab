/-!
# Computations that can fail

A computation made of steps succeeds if every step does. `Gives` says what is true of the value of a
computation if it succeeds, and `Succeeds` that it does; the rules for both follow the way in which
computations are put together.
-/

namespace ProbeWeave

variable {ε α β : Type}

/-- Whether the value of a computation has a property if there is a value. -/
def Gives (x : Except ε α) (P : α → Prop) : Prop :=
  ∀ a, x = .ok a → P a

/-- Whether a computation gives a value. -/
def Succeeds (x : Except ε α) : Prop :=
  ∃ a, x = .ok a

namespace Outcome

/-- Two steps succeed if the first does and then the second, given what came of the first. -/
theorem bind_eq_ok {x : Except ε α} {f : α → Except ε β} {b : β} :
    x >>= f = .ok b ↔ ∃ a, x = .ok a ∧ f a = .ok b := by
  cases x <;> simp [bind, Except.bind]

theorem pure_eq_ok {a b : α} : (pure a : Except ε α) = .ok b ↔ a = b := by
  simp [pure, Except.pure]

theorem gives_ok {a : α} {P : α → Prop} (holds : P a) : Gives (.ok a : Except ε α) P := by
  intro b success
  cases success
  exact holds

theorem gives_pure {a : α} {P : α → Prop} (holds : P a) : Gives (pure a : Except ε α) P :=
  gives_ok holds

theorem gives_error {e : ε} {P : α → Prop} : Gives (.error e : Except ε α) P := by
  intro b success
  cases success

/-- What the first step gives is what the second step starts from. -/
theorem gives_bind {x : Except ε α} {f : α → Except ε β} {P : α → Prop} {Q : β → Prop}
    (first : Gives x P) (second : ∀ a, P a → Gives (f a) Q) : Gives (x >>= f) Q := by
  intro b success
  obtain ⟨a, found, success⟩ := bind_eq_ok.mp success
  exact second a (first a found) b success

/-- The values of a list of steps have what each step gives its own. -/
theorem gives_mapM {f : α → Except ε β} {P : β → Prop} {as : List α}
    (each : ∀ a ∈ as, Gives (f a) P) : Gives (as.mapM f) fun bs => ∀ b ∈ bs, P b := by
  induction as with
  | nil => exact gives_pure (by simp)
  | cons a rest ih =>
    rw [List.mapM_cons]
    refine gives_bind (each a List.mem_cons_self) fun b holds => ?_
    refine gives_bind (ih fun a' member => each a' (List.mem_cons_of_mem _ member)) fun bs others => ?_
    exact gives_pure (List.forall_mem_cons.mpr ⟨holds, others⟩)

/-- Every step of a list that succeeds gives one of the values. -/
theorem mem_of_mapM_of_mem {f : α → Except ε β} {as : List α} {bs : List β} {a : α}
    (success : as.mapM f = .ok bs) (member : a ∈ as) : ∃ b ∈ bs, f a = .ok b := by
  induction as generalizing bs with
  | nil => simp at member
  | cons first rest ih =>
    rw [List.mapM_cons, bind_eq_ok] at success
    obtain ⟨b, found, success⟩ := success
    obtain ⟨others, later, success⟩ := bind_eq_ok.mp success
    rw [pure_eq_ok] at success
    subst success
    rcases List.mem_cons.mp member with rfl | member
    · exact ⟨b, List.mem_cons_self, found⟩
    · obtain ⟨b', member, found⟩ := ih later member
      exact ⟨b', List.mem_cons_of_mem _ member, found⟩

/-- A list of steps succeeds if every step does. -/
theorem mapM_succeeds {f : α → Except ε β} {as : List α} (each : ∀ a ∈ as, ∃ b, f a = .ok b) :
    ∃ bs, as.mapM f = .ok bs := by
  induction as with
  | nil => exact ⟨[], rfl⟩
  | cons a rest ih =>
    obtain ⟨b, found⟩ := each a List.mem_cons_self
    obtain ⟨bs, later⟩ := ih fun a' member => each a' (List.mem_cons_of_mem _ member)
    exact ⟨b :: bs, by rw [List.mapM_cons, found, later]; rfl⟩

/-- A list of steps gives values if each step gives its own. -/
theorem mapM_eq_ok {f : α → Except ε β} {as : List α} {bs : List β} :
    as.mapM f = .ok bs ↔ as.map f = bs.map Except.ok := by
  induction as generalizing bs with
  | nil => cases bs <;> simp [pure_eq_ok]
  | cons a rest ih =>
    rw [List.mapM_cons, bind_eq_ok]
    simp only [bind_eq_ok, pure_eq_ok, ih, List.map_cons]
    constructor
    · rintro ⟨b, found, others, later, rfl⟩
      rw [found, later, List.map_cons]
    · cases bs with
      | nil => simp
      | cons b others =>
        intro same
        obtain ⟨found, later⟩ := List.cons.inj same
        exact ⟨b, found, others, later, rfl⟩

/-- Steps without values succeed together if each of them does. -/
theorem forM_eq_ok {f : α → Except ε Unit} {as : List α} :
    as.forM f = .ok () ↔ ∀ a ∈ as, f a = .ok () := by
  induction as with
  | nil => simp [List.forM, pure, Except.pure]
  | cons a rest ih =>
    rw [List.forM, bind_eq_ok, List.forall_mem_cons, ← ih]
    exact ⟨fun ⟨_, first, later⟩ => ⟨first, later⟩, fun ⟨first, later⟩ => ⟨(), first, later⟩⟩

@[simp]
theorem mapError_ok {ε' : Type} (rename : ε → ε') (a : α) : (Except.ok a).mapError rename = .ok a := rfl

@[simp]
theorem mapError_error {ε' : Type} (rename : ε → ε') (e : ε) :
    (Except.error e : Except ε α).mapError rename = .error (rename e) := rfl

/-- A computation whose fault is renamed succeeds as before. -/
theorem mapError_eq_ok {ε' : Type} {rename : ε → ε'} {x : Except ε α} {a : α} :
    x.mapError rename = .ok a ↔ x = .ok a := by
  cases x <;> simp

theorem discard_eq_ok {x : Except ε α} : discard x = .ok () ↔ ∃ a, x = .ok a := by
  cases x <;> simp [discard, Functor.mapConst, Except.map]

theorem succeeds_ok (a : α) : Succeeds (.ok a : Except ε α) :=
  ⟨a, rfl⟩

theorem succeeds_pure (a : α) : Succeeds (pure a : Except ε α) :=
  ⟨a, rfl⟩

/-- Two steps of which the second does not depend on the first succeed together if each does. -/
theorem succeeds_bind {x : Except ε α} {f : α → Except ε β} {Q : Prop}
    (second : ∀ a, Succeeds (f a) ↔ Q) : Succeeds (x >>= f) ↔ Succeeds x ∧ Q := by
  constructor
  · rintro ⟨b, success⟩
    obtain ⟨a, found, later⟩ := bind_eq_ok.mp success
    exact ⟨⟨a, found⟩, (second a).mp ⟨b, later⟩⟩
  · rintro ⟨⟨a, rfl⟩, holds⟩
    exact (second a).mpr holds

theorem succeeds_bind_pure {x : Except ε α} {f : α → β} :
    Succeeds (do return f (← x)) ↔ Succeeds x :=
  (succeeds_bind fun a => iff_true_intro (succeeds_pure (f a))).trans (iff_of_eq (and_true _))

/-- Steps whose success does not depend on what came before succeed together if each does. -/
theorem succeeds_foldlM {step : β → α → Except ε β} {Q : α → Prop}
    (each : ∀ b a, Succeeds (step b a) ↔ Q a) (as : List α) (b : β) :
    Succeeds (as.foldlM step b) ↔ ∀ a ∈ as, Q a := by
  induction as generalizing b with
  | nil => exact iff_of_true (succeeds_ok b) (by simp)
  | cons a rest ih =>
    rw [List.foldlM_cons, List.forall_mem_cons]
    constructor
    · rintro ⟨c, success⟩
      obtain ⟨b', found, later⟩ := bind_eq_ok.mp success
      exact ⟨(each b a).mp ⟨b', found⟩, (ih b').mp ⟨c, later⟩⟩
    · rintro ⟨here, others⟩
      obtain ⟨b', found⟩ := (each b a).mpr here
      rw [found]
      exact (ih b').mpr others

theorem succeeds_mapM {f : α → Except ε β} (as : List α) :
    Succeeds (as.mapM f) ↔ ∀ a ∈ as, Succeeds (f a) := by
  constructor
  · rintro ⟨bs, success⟩ a member
    obtain ⟨b, -, found⟩ := mem_of_mapM_of_mem success member
    exact ⟨b, found⟩
  · exact mapM_succeeds

end Outcome

end ProbeWeave

import Criteria.Fault

/-! Outcomes: values or faults. A chain of steps succeeds if every step does, and a list is read if every member is. -/

namespace Criteria
namespace Outcome

variable {α β γ δ : Type}

theorem map_eq_ok {f : α → β} {x : Except Fault α} {b : β} : x.map f = .ok b ↔ ∃ a, x = .ok a ∧ f a = b := by
  cases x <;> simp [Except.map]

theorem map_eq_error {f : α → β} {x : Except Fault α} {fault : Fault} : x.map f = .error fault ↔ x = .error fault := by
  cases x <;> simp [Except.map]

theorem bind_eq_ok {x : Except Fault α} {f : α → Except Fault β} {b : β} :
    x >>= f = .ok b ↔ ∃ a, x = .ok a ∧ f a = .ok b := by
  cases x <;> simp [bind, Except.bind]

theorem pure_eq_ok {a b : α} : (pure a : Except Fault α) = .ok b ↔ a = b := by
  simp [pure, Except.pure]

/-- Two steps that only hand their values on agree if the values do. -/
theorem bind_pure_map {x : Except Fault α} {y : Except Fault γ} {f : α → β} {g : γ → δ} {k : α → γ}
    {l : β → δ} (h : y = x.map k) (hk : ∀ a, g (k a) = l (f a)) :
    (y >>= fun c => pure (g c)) = (x >>= fun a => pure (f a)).map l := by
  subst h
  cases x with
  | error fault => rfl
  | ok a => exact congrArg Except.ok (hk a)

/-! ### Two outcomes

Outcomes are compared as far as a function of their values shows them; faults are compared in full. -/

theorem map_map (f : α → β) (g : β → γ) (x : Except Fault α) : (x.map f).map g = x.map (g ∘ f) := by
  cases x <;> rfl

/-- Outcomes that agree in `k` agree in all that `k` determines. -/
theorem map_congr {x y : Except Fault α} {k : α → β} {l m : α → γ} (h : x.map k = y.map k)
    (hk : ∀ a b, k a = k b → l a = m b) : x.map l = y.map m := by
  cases x with
  | error fault =>
    cases y with
    | error fault' => exact congrArg Except.error (Except.error.inj h)
    | ok b => cases h
  | ok a =>
    cases y with
    | error fault => cases h
    | ok b => exact congrArg Except.ok (hk a b (Except.ok.inj h))

/-- Steps that go on alike from values that agree in `k` come to outcomes that agree. -/
theorem bind_map_congr {x y : Except Fault α} {k : α → β} {f g : α → Except Fault γ} {l : γ → δ}
    (h : x.map k = y.map k) (hk : ∀ a b, k a = k b → (f a).map l = (g b).map l) :
    (x >>= f).map l = (y >>= g).map l := by
  cases x with
  | error fault =>
    cases y with
    | error fault' => exact congrArg Except.error (Except.error.inj h)
    | ok b => cases h
  | ok a =>
    cases y with
    | error fault => cases h
    | ok b => exact hk a b (Except.ok.inj h)

/-- Two outcomes are the same fault, or two values with `r`. -/
def Related (r : α → β → Prop) : Except Fault α → Except Fault β → Prop
  | .ok a, .ok b => r a b
  | .error fault, .error fault' => fault = fault'
  | _, _ => False

theorem Related.map {r : α → β → Prop} {r' : γ → δ → Prop} {x : Except Fault α} {y : Except Fault β} {f : α → γ}
    {g : β → δ} (h : Related r x y) (hr : ∀ a b, r a b → r' (f a) (g b)) : Related r' (x.map f) (y.map g) := by
  cases x with
  | error fault =>
    cases y with
    | error fault' => exact h
    | ok b => exact h
  | ok a =>
    cases y with
    | error fault' => exact h
    | ok b => exact hr a b h

theorem Related.bind {r : α → β → Prop} {r' : γ → δ → Prop} {x : Except Fault α} {y : Except Fault β}
    {f : α → Except Fault γ} {g : β → Except Fault δ} (h : Related r x y)
    (hr : ∀ a b, r a b → Related r' (f a) (g b)) : Related r' (x >>= f) (y >>= g) := by
  cases x with
  | error fault =>
    cases y with
    | error fault' => exact h
    | ok b => exact h.elim
  | ok a =>
    cases y with
    | error fault' => exact h.elim
    | ok b => exact hr a b h

theorem Related.of_ok {r : α → β → Prop} {x : Except Fault α} {y : Except Fault β} {a : α} (h : Related r x y)
    (hx : x = .ok a) : ∃ b, y = .ok b ∧ r a b := by
  subst hx
  cases y with
  | error fault => exact h.elim
  | ok b => exact ⟨b, rfl, h⟩

theorem Related.of_error {r : α → β → Prop} {x : Except Fault α} {y : Except Fault β} {fault : Fault}
    (h : Related r x y) (hx : x = .error fault) : y = .error fault := by
  subst hx
  cases y with
  | error fault' => exact congrArg Except.error (Eq.symm h)
  | ok b => exact h.elim

theorem isOk_iff {x : Except Fault α} : x.isOk = true ↔ ∃ a, x = .ok a := by
  cases x <;> simp [Except.isOk, Except.toBool]

theorem isOk_bind {x : Except Fault α} {f : α → Except Fault β} :
    (x >>= f).isOk = true ↔ ∃ a, x = .ok a ∧ (f a).isOk = true := by
  cases x <;> simp [bind, Except.bind, Except.isOk, Except.toBool]

theorem isOk_bind_pure {x : Except Fault α} {f : α → β} : (x >>= fun a => pure (f a)).isOk = x.isOk := by
  cases x <;> rfl

/-- The fault that an outcome is, if it is one. -/
def fault? : Except Fault α → Option Fault
  | .ok _ => none
  | .error fault => some fault

theorem fault?_eq_some_iff {x : Except Fault α} {fault : Fault} : fault? x = some fault ↔ x = .error fault := by
  cases x <;> simp [fault?]

theorem fault?_eq_none_iff {x : Except Fault α} : fault? x = none ↔ ∃ a, x = .ok a := by
  cases x <;> simp [fault?]

theorem exists_error_iff {x : Except Fault α} : (∃ fault, x = .error fault) ↔ ¬∃ a, x = .ok a := by
  cases x <;> simp

theorem fault?_map (f : α → β) (x : Except Fault α) : fault? (x.map f) = fault? x := by
  cases x <;> rfl

/-- Of two steps the first one that is refused tells the fault. -/
theorem fault?_bind_map (x : Except Fault α) (y : Except Fault β) (f : α → β → γ) :
    fault? (x >>= fun a => y.map (f a)) = (fault? x).or (fault? y) := by
  cases x with
  | error fault => rfl
  | ok a => exact fault?_map (f a) y

theorem bind_eq_error {x : Except Fault α} {f : α → Except Fault β} {fault : Fault} :
    x >>= f = .error fault ↔ x = .error fault ∨ ∃ a, x = .ok a ∧ f a = .error fault := by
  cases x <;> simp [bind, Except.bind]

theorem bind_pure_eq_error {x : Except Fault α} {f : α → β} {fault : Fault} :
    (x >>= fun a => pure (f a)) = .error fault ↔ x = .error fault := by
  cases x <;> simp [bind, Except.bind, pure, Except.pure]

/-! ### Lists -/

theorem mapM_cons {f : α → Except Fault β} {a : α} {rest : List α} :
    (a :: rest).mapM f = f a >>= fun b => rest.mapM f >>= fun bs => pure (b :: bs) := List.mapM_cons

theorem mapM_append_cons {f : α → Except Fault β} {before after : List α} {a : α} :
    (before ++ a :: after).mapM f = before.mapM f >>= fun front => f a >>= fun b =>
      after.mapM f >>= fun back => pure (front ++ b :: back) := by
  rw [List.mapM_append, mapM_cons]
  cases before.mapM f with
  | error fault => rfl
  | ok front =>
    cases f a with
    | error fault => rfl
    | ok b => cases after.mapM f <;> rfl

/-- A list that is read has a first member and the members after it. -/
theorem bind_cons_eq_ok {x : Except Fault α} {y : Except Fault (List α)} {l : List α} :
    (x >>= fun a => y >>= fun rest => pure (a :: rest)) = .ok l ↔ ∃ a rest, x = .ok a ∧ y = .ok rest ∧ l = a :: rest := by
  constructor
  · intro h
    obtain ⟨a, ha, h⟩ := bind_eq_ok.mp h
    obtain ⟨rest, hrest, h⟩ := bind_eq_ok.mp h
    exact ⟨a, rest, ha, hrest, (pure_eq_ok.mp h).symm⟩
  · rintro ⟨a, rest, rfl, rfl, rfl⟩
    rfl

theorem mapM_cons_eq_ok {f : α → Except Fault β} {a : α} {rest : List α} {bs : List β} :
    (a :: rest).mapM f = .ok bs ↔ ∃ b bs', f a = .ok b ∧ rest.mapM f = .ok bs' ∧ bs = b :: bs' := by
  rw [mapM_cons, bind_cons_eq_ok]

/-- A list is read if each of its members is. -/
theorem isOk_mapM {f : α → Except Fault β} {l : List α} : (l.mapM f).isOk = true ↔ ∀ a ∈ l, (f a).isOk = true := by
  induction l with
  | nil => simp [pure, Except.pure, Except.isOk, Except.toBool]
  | cons a rest ih =>
    -- The rest is read after the first member whatever that one gave.
    rw [mapM_cons, isOk_bind, List.forall_mem_cons, ← ih, isOk_iff]
    simp only [isOk_bind_pure, exists_and_right]

/-- Of a list the first member that is refused tells the fault. -/
theorem fault?_mapM (f : α → Except Fault β) (l : List α) : fault? (l.mapM f) = l.findSome? fun a => fault? (f a) := by
  induction l with
  | nil => rfl
  | cons a rest ih =>
    rw [mapM_cons, List.findSome?_cons, ← ih]
    cases f a with
    | error fault => rfl
    | ok b => cases rest.mapM f <;> rfl

/-- A list is refused at a member in front of which all members are read. -/
theorem mapM_eq_error_iff {f : α → Except Fault β} {l : List α} {fault : Fault} : l.mapM f = .error fault ↔
    ∃ before a after, l = before ++ a :: after ∧ (∀ b ∈ before, (f b).isOk = true) ∧ f a = .error fault := by
  rw [← fault?_eq_some_iff, fault?_mapM, List.findSome?_eq_some_iff]
  simp only [fault?_eq_some_iff, fault?_eq_none_iff, ← isOk_iff]
  constructor
  · rintro ⟨before, a, after, hl, ha, hbefore⟩
    exact ⟨before, a, after, hl, hbefore, ha⟩
  · rintro ⟨before, a, after, hl, hbefore, ha⟩
    exact ⟨before, a, after, hl, ha, hbefore⟩

theorem length_of_mapM {f : α → Except Fault β} {l : List α} {bs : List β} (h : l.mapM f = .ok bs) :
    bs.length = l.length := by
  induction l generalizing bs with
  | nil =>
    cases h
    rfl
  | cons a rest ih =>
    obtain ⟨b, bs', -, hbs', rfl⟩ := mapM_cons_eq_ok.mp h
    rw [List.length_cons, List.length_cons, ih hbs']

theorem mapM_congr {f g : α → Except Fault β} {l : List α} (h : ∀ a ∈ l, f a = g a) : l.mapM f = l.mapM g := by
  induction l with
  | nil => rfl
  | cons a rest ih =>
    obtain ⟨ha, hrest⟩ := List.forall_mem_cons.mp h
    rw [mapM_cons, mapM_cons, ha, ih hrest]

/-- Where every step maps its result, so does the whole list. -/
theorem mapM_map {f : α → Except Fault β} {f' : γ → Except Fault δ} {g : α → γ} {k : β → δ} {l : List α}
    (h : ∀ a ∈ l, f' (g a) = (f a).map k) : (l.map g).mapM f' = (l.mapM f).map (List.map k) := by
  induction l with
  | nil => rfl
  | cons a rest ih =>
    rw [List.map_cons, mapM_cons, mapM_cons, h a List.mem_cons_self, ih fun b hb => h b (List.mem_cons_of_mem a hb)]
    cases f a with
    | error fault => rfl
    | ok b => cases rest.mapM f <;> rfl

end Outcome
end Criteria

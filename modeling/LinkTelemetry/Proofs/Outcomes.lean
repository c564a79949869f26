import Mathlib.Data.List.Forall2

/-!
# Computations that may fail

A reader or a constructor that is made of smaller ones succeeds only if each
of them does. These are the laws that take such a computation apart.
-/

namespace LinkTelemetry

@[simp] theorem ok_bind {ε α β : Type} (a : α) (f : α → Except ε β) :
    (Except.ok a : Except ε α) >>= f = f a := rfl

theorem bind_eq_ok {ε α β : Type} {x : Except ε α} {f : α → Except ε β} {b : β} :
    x >>= f = .ok b ↔ ∃ a, x = .ok a ∧ f a = .ok b := by
  cases x with
  | error e => simp [bind, Except.bind]
  | ok a => simp [bind, Except.bind]

theorem bind_eq_error {ε α β : Type} {x : Except ε α} {f : α → Except ε β} {e : ε} :
    x >>= f = .error e ↔ x = .error e ∨ ∃ a, x = .ok a ∧ f a = .error e := by
  cases x with
  | error d => simp [bind, Except.bind]
  | ok a => simp [bind, Except.bind]

theorem map_eq_ok {ε α β : Type} {x : Except ε α} {f : α → β} {b : β} :
    x.map f = .ok b ↔ ∃ a, x = .ok a ∧ f a = b := by
  cases x with
  | error e => simp [Except.map]
  | ok a => simp [Except.map]

theorem map_eq_error {ε α β : Type} {x : Except ε α} {f : α → β} {e : ε} :
    x.map f = .error e ↔ x = .error e := by
  cases x with
  | error d => simp [Except.map]
  | ok a => simp [Except.map]

/-- Reading a list that stands item by item for another one. -/
theorem mapM_eq_ok {α β γ ε : Type} {R : α → β → Prop} {f : β → Except ε γ} {g : α → γ}
    {l : List α} {l' : List β} (h : List.Forall₂ R l l')
    (hf : ∀ a ∈ l, ∀ b, R a b → f b = .ok (g a)) : l'.mapM f = .ok (l.map g) := by
  induction h with
  | nil => rfl
  | @cons a b l l' hab _ ih =>
      have hrest : l'.mapM f = .ok (l.map g) :=
        ih fun a ha => hf a (List.mem_cons_of_mem _ ha)
      rw [List.mapM_cons, hf a List.mem_cons_self b hab, hrest]
      rfl

theorem forall₂_of_mapM_eq_ok {α β ε : Type} {f : α → Except ε β} {l : List α} {l' : List β}
    (h : l.mapM f = .ok l') : List.Forall₂ (fun a b => f a = .ok b) l l' := by
  induction l generalizing l' with
  | nil =>
      cases h
      exact .nil
  | cons a rest ih =>
      rw [List.mapM_cons] at h
      obtain ⟨b, hb, h⟩ := bind_eq_ok.mp h
      obtain ⟨bs, hbs, h⟩ := bind_eq_ok.mp h
      cases h
      exact .cons hb (ih hbs)

/-- The first item that cannot be read is reported. -/
theorem mapM_eq_error {α β ε : Type} {f : α → Except ε β} {l : List α} {e : ε} :
    l.mapM f = .error e ↔ ∃ before a after, l = before ++ a :: after ∧
      (∀ b ∈ before, ∃ x, f b = .ok x) ∧ f a = .error e := by
  induction l with
  | nil =>
      refine ⟨nofun, ?_⟩
      rintro ⟨before, a, after, hl, -⟩
      cases before <;> cases hl
  | cons head rest ih =>
      rw [List.mapM_cons]
      constructor
      · intro h
        rcases bind_eq_error.mp h with hhead | ⟨x, hhead, h⟩
        · exact ⟨[], head, rest, rfl, nofun, hhead⟩
        · rcases bind_eq_error.mp h with hrest | ⟨xs, -, h⟩
          · obtain ⟨before, a, after, rfl, hbefore, ha⟩ := ih.mp hrest
            exact ⟨head :: before, a, after, rfl,
              List.forall_mem_cons.mpr ⟨⟨x, hhead⟩, hbefore⟩, ha⟩
          · cases h
      · rintro ⟨before, a, after, hl, hbefore, ha⟩
        obtain _ | ⟨b, before⟩ := before
        · cases hl
          rw [ha]
          rfl
        · cases hl
          obtain ⟨⟨x, hx⟩, hbefore⟩ := List.forall_mem_cons.mp hbefore
          rw [hx, ok_bind, ih.mpr ⟨before, a, after, rfl, hbefore, ha⟩]
          rfl

/-- Reading a list succeeds if every item can be read, without a word on why not. -/
theorem mapM_eq_some {α β : Type} {f : α → Option β} {l : List α} {l' : List β} :
    l.mapM f = some l' ↔ List.Forall₂ (fun a b => f a = some b) l l' := by
  induction l generalizing l' with
  | nil => simp [eq_comm]
  | cons a rest ih =>
      rw [List.mapM_cons]
      constructor
      · intro h
        obtain ⟨b, hb, h⟩ := Option.bind_eq_some_iff.mp h
        obtain ⟨bs, hbs, h⟩ := Option.bind_eq_some_iff.mp h
        cases h
        exact .cons hb (ih.mp hbs)
      · rintro (_ | ⟨hb, hrest⟩)
        rw [hb, ih.mpr hrest]
        rfl

end LinkTelemetry

/- What is known about the parts of a computation that succeeds, what it can give and how it can
fail. -/
namespace Prepass

variable {ε ε' α β : Type}

theorem bind_eq_ok {x : Except ε α} {f : α → Except ε β} {b : β} :
    (x >>= f) = .ok b ↔ ∃ a, x = .ok a ∧ f a = .ok b := by
  constructor
  · intro h
    cases x with
    | error e => cases h
    | ok a => exact ⟨a, rfl, h⟩
  · rintro ⟨a, rfl, h⟩
    exact h

/-- What follows a computation matters only for the results it can have. -/
theorem bind_congr_ok {x : Except ε α} {f g : α → Except ε β} (h : ∀ a, x = .ok a → f a = g a) :
    (x >>= f) = x >>= g := by
  cases x with
  | error e => rfl
  | ok a => exact h a rfl

theorem map_bind {γ : Type} (x : Except ε α) (f : α → Except ε β) (g : β → γ) :
    (x >>= f).map g = x >>= fun a => (f a).map g := by
  cases x with
  | error e => rfl
  | ok a => rfl

theorem mapM_congr_mem {f g : α → Except ε β} {l : List α} (h : ∀ a ∈ l, f a = g a) :
    l.mapM f = l.mapM g := by
  induction l with
  | nil => rfl
  | cons a rest ih =>
      obtain ⟨ha, hr⟩ := List.forall_mem_cons.mp h
      rw [List.mapM_cons, List.mapM_cons, ha, ih hr]

theorem map_eq_ok {x : Except ε α} {f : α → β} {b : β} :
    x.map f = .ok b ↔ ∃ a, x = .ok a ∧ f a = b := by
  constructor
  · intro h
    cases x with
    | error e => cases h
    | ok a => exact ⟨a, rfl, Except.ok.inj h⟩
  · rintro ⟨a, rfl, rfl⟩
    rfl

/-- A failure is seen whatever is made of a success. -/
theorem error_of_map_eq {x y : Except ε α} {f : α → β} (h : y.map f = x.map f) {e : ε}
    (hx : x = .error e) : y = .error e := by
  rw [hx] at h
  cases y with
  | error found =>
      cases h
      rfl
  | ok a => cases h

theorem mapError_ok (a : α) (f : ε → ε') : (Except.ok a).mapError f = .ok a := rfl

theorem mapError_error (e : ε) (f : ε → ε') :
    (Except.error e : Except ε α).mapError f = .error (f e) := rfl

theorem mapError_eq_ok {x : Except ε α} {f : ε → ε'} {a : α} :
    x.mapError f = .ok a ↔ x = .ok a := by
  constructor
  · intro h
    cases x with
    | error e => cases h
    | ok b => exact congrArg Except.ok (Except.ok.inj h)
  · rintro rfl
    rfl

theorem foldlM_cons_of_ok {f : β → α → Except ε β} {init next : β} {a : α} (h : f init a = .ok next)
    (rest : List α) : (a :: rest).foldlM f init = rest.foldlM f next := by
  rw [List.foldlM_cons, h]
  rfl

theorem foldlM_append_of_ok {f : β → α → Except ε β} {init next : β} {done : List α}
    (h : done.foldlM f init = .ok next) (rest : List α) :
    (done ++ rest).foldlM f init = rest.foldlM f next := by
  rw [List.foldlM_append, h]
  rfl

theorem exists_ok_of_isSome {x : Except ε α} (h : x.toOption.isSome = true) : ∃ a, x = .ok a := by
  cases x with
  | error e => cases h
  | ok a => exact ⟨a, rfl⟩

/-- Every failure of a computation has a property. -/
def FailsOnly (P : ε → Prop) (x : Except ε α) : Prop := ∀ e, x = .error e → P e

namespace FailsOnly

variable {P Q : ε → Prop} {x : Except ε α}

theorem ok (a : α) : FailsOnly P (.ok a) := nofun

theorem error {e : ε} (h : P e) : FailsOnly P (.error e : Except ε α) := by
  rintro _ ⟨⟩
  exact h

theorem mono (h : FailsOnly P x) (hpq : ∀ e, P e → Q e) : FailsOnly Q x :=
  fun e he => hpq e (h e he)

theorem bind_of_ok {f : α → Except ε β} (h : FailsOnly P x)
    (hf : ∀ a, x = .ok a → FailsOnly P (f a)) : FailsOnly P (x >>= f) := by
  intro e he
  cases x with
  | error found =>
      cases he
      exact h e rfl
  | ok a => exact hf a rfl e he

theorem bind {f : α → Except ε β} (h : FailsOnly P x) (hf : ∀ a, FailsOnly P (f a)) :
    FailsOnly P (x >>= f) := h.bind_of_ok fun a _ => hf a

theorem map {f : α → β} (h : FailsOnly P x) : FailsOnly P (x.map f) := by
  intro e he
  cases x with
  | error found =>
      cases he
      exact h e rfl
  | ok a => cases he

/-- Two computations that fail in one way only can be made in either order. -/
theorem bind_comm {γ : Type} {e : ε} {y : Except ε β} (hx : FailsOnly (· = e) x)
    (hy : FailsOnly (· = e) y) (f : α → β → Except ε γ) :
    (x >>= fun a => y >>= fun b => f a b) = y >>= fun b => x >>= fun a => f a b := by
  cases x with
  | ok a =>
      cases y with
      | ok b => rfl
      | error found => rfl
  | error found =>
      cases y with
      | ok b => rfl
      | error other => exact congrArg Except.error ((hx found rfl).trans (hy other rfl).symm)

theorem mapError {R : ε' → Prop} {f : ε → ε'} (h : FailsOnly P x) (hf : ∀ e, P e → R (f e)) :
    FailsOnly R (x.mapError f) := by
  intro e he
  cases x with
  | error found =>
      cases he
      exact hf found (h found rfl)
  | ok a => cases he

theorem mapM {f : α → Except ε β} {l : List α} (h : ∀ a ∈ l, FailsOnly P (f a)) :
    FailsOnly P (l.mapM f) := by
  induction l with
  | nil => exact .ok []
  | cons a rest ih =>
      obtain ⟨hfirst, hrest⟩ := List.forall_mem_cons.mp h
      rw [List.mapM_cons]
      refine .bind hfirst fun b => ?_
      exact .bind (ih hrest) fun bs => .ok (b :: bs)

end FailsOnly

/-- Every result of a computation has a property. -/
def Yields (P : α → Prop) (x : Except ε α) : Prop := ∀ a, x = .ok a → P a

namespace Yields

variable {P : β → Prop} {Q : α → Prop} {x : Except ε α}

theorem ok {b : β} (h : P b) : Yields P (.ok b : Except ε β) := by
  rintro _ ⟨⟩
  exact h

theorem error (e : ε) : Yields P (.error e : Except ε β) := nofun

theorem bind {f : α → Except ε β} (h : Yields Q x) (hf : ∀ a, Q a → Yields P (f a)) :
    Yields P (x >>= f) := by
  intro b hb
  obtain ⟨a, ha, hb⟩ := bind_eq_ok.mp hb
  exact hf a (h a ha) b hb

theorem map {f : α → β} (h : ∀ a, P (f a)) : Yields P (x.map f) := by
  intro b hb
  obtain ⟨a, -, rfl⟩ := map_eq_ok.mp hb
  exact h a

theorem mapM {f : α → Except ε β} (h : ∀ a, Yields P (f a)) (l : List α) :
    Yields (fun bs => ∀ b ∈ bs, P b) (l.mapM f) := by
  induction l with
  | nil => exact .ok (List.forall_mem_nil P)
  | cons a rest ih =>
      rw [List.mapM_cons]
      refine (h a).bind fun b hb => ih.bind fun bs hbs => .ok ?_
      exact List.forall_mem_cons.mpr ⟨hb, hbs⟩

theorem foldlM {f : β → α → Except ε β} {l : List α} (h : ∀ a ∈ l, ∀ b, P b → Yields P (f b a))
    {init : β} (hinit : P init) : Yields P (l.foldlM f init) := by
  induction l generalizing init with
  | nil => exact .ok hinit
  | cons a rest ih =>
      obtain ⟨ha, hrest⟩ := List.forall_mem_cons.mp h
      rw [List.foldlM_cons]
      exact (ha init hinit).bind fun next hnext => ih hrest hnext

end Yields

end Prepass

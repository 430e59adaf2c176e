/-!
# Filling slots in any order

A record is read by filling its slots one after the other.  A slot can be filled once, and its
value has to be readable; otherwise reading fails.  Slots that do not touch each other are
filled to the same effect in either order, also where one of them fails, and a slot that is
filled twice fails in either order.  So steps of this kind can be interchanged, and the order in
which the values of a record are written does not matter (`run_perm`).
-/

namespace QuantumCircuit

set_option autoImplicit false

variable {σ ι α β : Type}

/-! ## Steps in any order -/

/-- Two steps that can fail have the same effect in either order. -/
def Interchange (f g : σ → Option σ) : Prop := ∀ s, (f s).bind g = (g s).bind f

namespace Interchange

variable {f g : σ → Option σ}

theorem symm (interchange : Interchange f g) : Interchange g f := fun s => (interchange s).symm

/-- Doing nothing can be interchanged with every step. -/
theorem nothing (f : σ → Option σ) : Interchange some f := by
  intro s
  rw [Option.bind_some, Option.bind_fun_some]

/-- Failing can be interchanged with every step. -/
theorem failure (f : σ → Option σ) : Interchange (fun _ => none) f := by
  intro s
  rw [Option.bind_none, Option.bind_fun_none]

end Interchange

section Run

variable {step : ι → σ → Option σ} {run : σ → List ι → Option σ}
  (run_cons : ∀ s i rest, run s (i :: rest) = (step i s).bind (run · rest))
include run_cons

/-- **A row of steps that can be interchanged may be run in any order.** -/
theorem run_perm (interchange : ∀ i j, Interchange (step i) (step j)) {row row' : List ι}
    (perm : row.Perm row') (s : σ) : run s row = run s row' := by
  induction perm generalizing s with
  | nil => rfl
  | cons i _ ih =>
      rw [run_cons, run_cons]
      exact congrArg _ (funext ih)
  | swap i j rest =>
      simp only [run_cons]
      rw [← Option.bind_assoc, ← Option.bind_assoc, interchange j i]
  | trans _ _ ih ih' => rw [ih, ih']

end Run

/-! ## Slots -/

/-- A place for a value in a record. -/
structure Slot (σ α : Type) where
  held : σ → Option α
  put : σ → α → σ
  held_put : ∀ s a, held (put s a) = some a

namespace Slot

/-- Fills a slot that is still empty with a value that may not be readable. -/
def fill? (slot : Slot σ α) (value : Option α) (s : σ) : Option σ :=
  if (slot.held s).isSome then none else value.map (slot.put s)

/-- Filling one slot neither fills nor empties the other. -/
structure Apart (slot : Slot σ α) (slot' : Slot σ β) : Prop where
  held_put : ∀ s b, slot.held (slot'.put s b) = slot.held s
  held_put' : ∀ s a, slot'.held (slot.put s a) = slot'.held s
  put_put : ∀ s a b, slot'.put (slot.put s a) b = slot.put (slot'.put s b) a

/-- A slot is not filled twice. -/
theorem fill?_fill? (slot : Slot σ α) (value value' : Option α) (s : σ) :
    (slot.fill? value s).bind (slot.fill? value') = none := by
  unfold fill?
  split
  · rfl
  · cases value with
    | none => rfl
    | some a => simp [slot.held_put]

theorem interchange_self (slot : Slot σ α) (value value' : Option α) :
    Interchange (slot.fill? value) (slot.fill? value') := by
  intro s
  rw [fill?_fill?, fill?_fill?]

theorem Apart.interchange {slot : Slot σ α} {slot' : Slot σ β} (apart : slot.Apart slot')
    (value : Option α) (value' : Option β) :
    Interchange (slot.fill? value) (slot'.fill? value') := by
  intro s
  cases held : slot.held s <;> cases held' : slot'.held s <;> cases value <;> cases value' <;>
    simp [fill?, held, held', apart.held_put, apart.held_put', apart.put_put]

end Slot

end QuantumCircuit

import Mathlib.Tactic.Common

/-!
# Properties a stateful program keeps

Programs that update a state and may stop early with an error are terms of `EStateM ε σ α`. `Ends P m s`
says that `m`, started in `s`, ends in a state with `P`, whether it returns or stops; its rules compute
it along the program. `Keeps I m` says that `m` keeps the property `I` of the state. Sequencing,
branching and counted loops keep what their parts keep.
-/

namespace KTools.Lib

universe u
variable {ε σ α β : Type u}

/-- The state in which a program ends, returned or stopped. -/
def finalState (m : EStateM ε σ α) (s : σ) : σ :=
  match m s with
  | .ok _ s' => s'
  | .error _ s' => s'

theorem bind_ok {m : EStateM ε σ α} {f : α → EStateM ε σ β} {s t : σ} {a : α} (h : m s = .ok a t) :
    (m >>= f) s = f a t := by
  simp only [Bind.bind, EStateM.bind, h]

theorem get_bind_apply (f : σ → EStateM ε σ α) (s : σ) : (get >>= f) s = f s s := rfl

/-- A sequence that returns is a part that returns, and the rest that returns from there. -/
theorem bind_eq_ok {m : EStateM ε σ α} {f : α → EStateM ε σ β} {s s' : σ} {b : β}
    (h : (m >>= f) s = .ok b s') : ∃ a t, m s = .ok a t ∧ f a t = .ok b s' := by
  simp only [Bind.bind, EStateM.bind] at h
  cases hrun : m s with
  | ok a t =>
    rw [hrun] at h
    exact ⟨a, t, rfl, h⟩
  | error e t => rw [hrun] at h; cases h

/-! ### The property of the final state -/

/-- `m`, started in `s`, ends with `P`. -/
def Ends (P : σ → Prop) (m : EStateM ε σ α) (s : σ) : Prop := P (finalState m s)

section ends
variable {P : σ → Prop} {s : σ}

@[simp] theorem ends_pure (a : α) : Ends P (pure a : EStateM ε σ α) s ↔ P s := Iff.rfl

@[simp] theorem ends_throw (e : ε) : Ends P (throw e : EStateM ε σ α) s ↔ P s := Iff.rfl

@[simp] theorem ends_modify (f : σ → σ) : Ends P (modify f : EStateM ε σ PUnit) s ↔ P (f s) := Iff.rfl

@[simp] theorem ends_get_bind (f : σ → EStateM ε σ α) : Ends P (get >>= f) s ↔ Ends P (f s) s := Iff.rfl

@[simp] theorem ends_pure_bind (a : α) (f : α → EStateM ε σ β) :
    Ends P (pure a >>= f) s ↔ Ends P (f a) s := Iff.rfl

@[simp] theorem ends_throw_bind (e : ε) (f : α → EStateM ε σ β) :
    Ends P (throw e >>= f) s ↔ P s := Iff.rfl

@[simp] theorem ends_modify_bind (g : σ → σ) (f : PUnit → EStateM ε σ α) :
    Ends P (modify g >>= f) s ↔ Ends P (f ⟨⟩) (g s) := Iff.rfl

theorem ends_ite {p : Prop} [Decidable p] {m m' : EStateM ε σ α} :
    Ends P (if p then m else m') s ↔ if p then Ends P m s else Ends P m' s := by
  split
  · rfl
  · rfl

/-- After a part that returns, the rest runs from the state it leaves. -/
theorem ends_bind_ok {m : EStateM ε σ α} {f : α → EStateM ε σ β} {a : α} {s' : σ} (h : m s = .ok a s') :
    Ends P (m >>= f) s ↔ Ends P (f a) s' := by
  simp only [Ends, finalState, Bind.bind, EStateM.bind, h]

/-- A part that stops ends the whole program. -/
theorem ends_bind_error {m : EStateM ε σ α} {f : α → EStateM ε σ β} {e : ε} {s' : σ}
    (h : m s = .error e s') : Ends P (m >>= f) s ↔ P s' := by
  simp only [Ends, finalState, Bind.bind, EStateM.bind, h]

/-- Runs with the same result end in the same state. -/
theorem ends_of_eq {m m' : EStateM ε σ α} {s' : σ} (h : m s = m' s') : Ends P m s ↔ Ends P m' s' := by
  simp only [Ends, finalState, h]

theorem ends_ok {m : EStateM ε σ α} {a : α} {s' : σ} (h : m s = .ok a s') : Ends P m s ↔ P s' := by
  simp only [Ends, finalState, h]

theorem ends_error {m : EStateM ε σ α} {e : ε} {s' : σ} (h : m s = .error e s') :
    Ends P m s ↔ P s' := by
  simp only [Ends, finalState, h]

/-- Returning another value ends in the same state. -/
theorem ends_bind_pure (m : EStateM ε σ α) (f : α → β) :
    Ends P (m >>= fun a => pure (f a)) s ↔ Ends P m s := by
  simp only [Ends, finalState, Bind.bind, EStateM.bind]
  cases m s with
  | ok a s' => rfl
  | error e s' => rfl

end ends

/-! ### Kept properties -/

/-- `m` keeps `I`, whether it returns or stops. -/
def Keeps (I : σ → Prop) (m : EStateM ε σ α) : Prop := ∀ s, I s → Ends I m s

namespace Keeps
variable {I : σ → Prop}

theorem pure (a : α) : Keeps I (Pure.pure a : EStateM ε σ α) := fun _ h => h

theorem throw (e : ε) : Keeps I (MonadExcept.throw e : EStateM ε σ α) := fun _ h => h

theorem modify {f : σ → σ} (h : ∀ s, I s → I (f s)) :
    Keeps I (modify f : EStateM ε σ PUnit) := fun s hs => h s hs

theorem get : Keeps I (get : EStateM ε σ σ) := fun _ h => h

/-- What the first part ends with is kept by the rest. -/
theorem ends_bind {m : EStateM ε σ α} {f : α → EStateM ε σ β} {s : σ} (hm : Ends I m s)
    (hf : ∀ a, Keeps I (f a)) : Ends I (m >>= f) s := by
  cases hrun : m s with
  | ok a s' =>
    rw [ends_bind_ok hrun]
    exact hf a s' ((ends_ok hrun).1 hm)
  | error e s' =>
    rw [ends_bind_error hrun]
    exact (ends_error hrun).1 hm

theorem bind {m : EStateM ε σ α} {f : α → EStateM ε σ β} (hm : Keeps I m) (hf : ∀ a, Keeps I (f a)) :
    Keeps I (m >>= f) := fun s hs => ends_bind (hm s hs) hf

theorem ite {p : Prop} [Decidable p] {m m' : EStateM ε σ α} (hm : Keeps I m) (hm' : Keeps I m') :
    Keeps I (if p then m else m') := by
  split
  · exact hm
  · exact hm'

end Keeps

/-- `for (i = start; i < start + n; ++i) body(i)`. -/
def countedLoop (body : Nat → EStateM ε σ PUnit) : Nat → Nat → EStateM ε σ PUnit
  | _, 0 => pure ⟨⟩
  | i, n + 1 => do
    body i
    countedLoop body (i + 1) n

/-- A counted loop keeps what its body keeps at every index of the loop. -/
theorem Keeps.countedLoop {I : σ → Prop} {body : Nat → EStateM ε σ PUnit} (n : Nat) :
    ∀ start, (∀ i, start ≤ i → i < start + n → Keeps I (body i)) →
      Keeps I (KTools.Lib.countedLoop body start n) := by
  induction n with
  | zero => intro start _; exact Keeps.pure _
  | succ n ih =>
    intro start h
    exact Keeps.bind (h start (Nat.le_refl _) (by omega)) fun _ =>
      ih (start + 1) fun i hlow hhigh => h i (by omega) (by omega)

end KTools.Lib

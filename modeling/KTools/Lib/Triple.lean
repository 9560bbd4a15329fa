import KTools.Lib.Keeps
import Mathlib.Order.Defs.Unbundled

/-!
# Triples

`Triple E P m Q`: a program `m` of `EStateM ε σ α`, started with `P`, returns a value and a state with `Q`,
or stops with an error in a state with `E`. There is one rule for each way a program is put together; a
property that is kept is the triple with the same property on all sides. `Returns m s Q`: started in the state
`s`, `m` does not stop, and what it returns has `Q`; `Throws m s e`: it stops with `e`. `Moves R m`: from every
state `m` returns, and the preorder `R` relates the state to the one it leaves. `Mirrors f m m'`: seen through `f`,
the states of `m` are those of `m'`.
-/

namespace KTools.Lib

universe u
variable {ε σ α β : Type u}

/-- `m`, started with `P`, returns with `Q` or stops with `E`. -/
def Triple (E P : σ → Prop) (m : EStateM ε σ α) (Q : α → σ → Prop) : Prop :=
  ∀ s, P s → match m s with
    | .ok a s' => Q a s'
    | .error _ s' => E s'

namespace Triple
variable {E P P' : σ → Prop} {Q Q' : α → σ → Prop}

theorem pure {a : α} (h : ∀ s, P s → Q a s) : Triple E P (Pure.pure a : EStateM ε σ α) Q := h

theorem throw {e : ε} (h : ∀ s, P s → E s) : Triple E P (MonadExcept.throw e : EStateM ε σ α) Q := h

theorem modify {f : σ → σ} {Q : PUnit → σ → Prop} (h : ∀ s, P s → Q ⟨⟩ (f s)) :
    Triple E P (modify f : EStateM ε σ PUnit) Q := h

theorem bind {m : EStateM ε σ α} {f : α → EStateM ε σ β} {R : β → σ → Prop} (hm : Triple E P m Q)
    (hf : ∀ a, Triple E (Q a) (f a) R) : Triple E P (m >>= f) R := by
  intro s hs
  have hs' := hm s hs
  simp only [Bind.bind, EStateM.bind]
  cases hrun : m s with
  | ok a s' =>
    rw [hrun] at hs'
    exact hf a s' hs'
  | error e s' =>
    rw [hrun] at hs'
    exact hs'

/-- The rest after `get` knows the state it got. -/
theorem get_bind {f : σ → EStateM ε σ β} {R : β → σ → Prop}
    (hf : ∀ s, P s → Triple E (fun t => t = s) (f s) R) : Triple E P (get >>= f) R :=
  fun s hs => hf s hs s rfl

/-- The rest after `get` need not know more than what held before. -/
theorem get_bind' {f : σ → EStateM ε σ β} {R : β → σ → Prop} (hf : ∀ s, Triple E P (f s) R) :
    Triple E P (get >>= f) R :=
  fun s hs => hf s s hs

/-- What holds in every state to start from is known of the program. -/
theorem assuming {φ : Prop} {m : EStateM ε σ α} (h : ∀ s, P s → φ) (hm : φ → Triple E P m Q) : Triple E P m Q :=
  fun s hs => hm (h s hs) s hs

theorem ite {c : Prop} [Decidable c] {m m' : EStateM ε σ α} (hm : c → Triple E P m Q)
    (hm' : ¬ c → Triple E P m' Q) : Triple E P (if c then m else m') Q := by
  split
  · rename_i hc
    exact hm hc
  · rename_i hc
    exact hm' hc

theorem conseq {m : EStateM ε σ α} (hm : Triple E P m Q) (hpre : ∀ s, P' s → P s)
    (hpost : ∀ a s, Q a s → Q' a s) : Triple E P' m Q' := by
  intro s hs
  have hs' := hm s (hpre s hs)
  cases hrun : m s with
  | ok a s' =>
    rw [hrun] at hs'
    exact hpost a s' hs'
  | error e s' =>
    rw [hrun] at hs'
    exact hs'

theorem pre {m : EStateM ε σ α} (hm : Triple E P m Q) (hpre : ∀ s, P' s → P s) : Triple E P' m Q :=
  hm.conseq hpre fun _ _ h => h

theorem post {m : EStateM ε σ α} (hm : Triple E P m Q) (hpost : ∀ a s, Q a s → Q' a s) :
    Triple E P m Q' := hm.conseq (fun _ h => h) hpost

/-- Where it stops, less may be known. -/
theorem error {E' : σ → Prop} {m : EStateM ε σ α} (hm : Triple E P m Q) (hE : ∀ s, E s → E' s) :
    Triple E' P m Q := by
  intro s hs
  have hs' := hm s hs
  cases hrun : m s with
  | ok a s' =>
    rw [hrun] at hs'
    exact hs'
  | error e s' =>
    rw [hrun] at hs'
    exact hE s' hs'

/-- Where the program stops or returns, the final state has a common consequence. -/
theorem ends {m : EStateM ε σ α} {F : σ → Prop} (hm : Triple E P m Q) (hE : ∀ s, E s → F s)
    (hQ : ∀ a s, Q a s → F s) {s : σ} (hs : P s) : Ends F m s := by
  have hs' := hm s hs
  unfold Ends finalState
  cases hrun : m s with
  | ok a s' =>
    rw [hrun] at hs'
    exact hQ a s' hs'
  | error e s' =>
    rw [hrun] at hs'
    exact hE s' hs'

/-- A counted loop, with a property that moves with the index. -/
theorem countedLoop {I : Nat → σ → Prop} {f : Nat → EStateM ε σ PUnit} (n : Nat) :
    ∀ start, (∀ i, start ≤ i → i < start + n → Triple E (I i) (f i) fun _ => I (i + 1)) →
      Triple E (I start) (KTools.Lib.countedLoop f start n) fun _ => I (start + n) := by
  induction n with
  | zero => intro start _; exact Triple.pure fun _ h => h
  | succ n ih =>
    intro start h
    refine (h start (Nat.le_refl _) (by omega)).bind fun _ => ?_
    have hrest := ih (start + 1) fun i hlow hhigh => h i (by omega) (by omega)
    rwa [show start + 1 + n = start + (n + 1) by omega] at hrest

end Triple

/-- Started in `s`, `m` returns with `Q`. -/
def Returns (m : EStateM ε σ α) (s : σ) (Q : α → σ → Prop) : Prop := ∃ a s', m s = .ok a s' ∧ Q a s'

namespace Returns
variable {Q Q' : α → σ → Prop} {s : σ}

theorem pure {a : α} (h : Q a s) : Returns (Pure.pure a : EStateM ε σ α) s Q := ⟨a, s, rfl, h⟩

theorem bind {m : EStateM ε σ α} {f : α → EStateM ε σ β} {R : β → σ → Prop} (hm : Returns m s Q)
    (hf : ∀ a s', Q a s' → Returns (f a) s' R) : Returns (m >>= f) s R := by
  obtain ⟨a, s', hrun, hQ⟩ := hm
  obtain ⟨b, s'', hrest, hR⟩ := hf a s' hQ
  exact ⟨b, s'', (bind_ok hrun).trans hrest, hR⟩

theorem get_bind {f : σ → EStateM ε σ β} {R : β → σ → Prop} (h : Returns (f s) s R) :
    Returns (get >>= f) s R := h

theorem modify_bind {g : σ → σ} {f : PUnit → EStateM ε σ β} {R : β → σ → Prop}
    (h : Returns (f ⟨⟩) (g s) R) : Returns (modify g >>= f) s R := h

theorem mono {m : EStateM ε σ α} (hm : Returns m s Q) (h : ∀ a s', Q a s' → Q' a s') : Returns m s Q' := by
  obtain ⟨a, s', hrun, hQ⟩ := hm
  exact ⟨a, s', hrun, h a s' hQ⟩

theorem ite {c : Prop} [Decidable c] {m m' : EStateM ε σ α} (hm : c → Returns m s Q)
    (hm' : ¬ c → Returns m' s Q) : Returns (if c then m else m') s Q := by
  split
  · rename_i hc
    exact hm hc
  · rename_i hc
    exact hm' hc

/-- The result is the one that every run gives. -/
theorem of_ok {m : EStateM ε σ α} (hm : Returns m s Q) {a : α} {s' : σ} (hrun : m s = .ok a s') : Q a s' := by
  obtain ⟨b, t, hrun', hQ⟩ := hm
  obtain ⟨rfl, rfl⟩ := EStateM.Result.ok.inj (hrun.symm.trans hrun')
  exact hQ

/-- What every run has, the run that returns has too. -/
theorem and_triple {E P : σ → Prop} {m : EStateM ε σ α} (hm : Returns m s Q) (ht : Triple E P m Q') (hs : P s) :
    Returns m s fun a s' => Q a s' ∧ Q' a s' := by
  obtain ⟨a, s', hrun, hQ⟩ := hm
  have hQ' := ht s hs
  rw [hrun] at hQ'
  exact ⟨a, s', hrun, hQ, hQ'⟩

end Returns

/-- Started in `s`, `m` stops with the error `e`. -/
def Throws (m : EStateM ε σ α) (s : σ) (e : ε) : Prop := ∃ s', m s = .error e s'

namespace Throws
variable {s : σ} {e : ε}

theorem throw : Throws (MonadExcept.throw e : EStateM ε σ α) s e := ⟨s, rfl⟩

theorem bind {m : EStateM ε σ α} {f : α → EStateM ε σ β} (hm : Throws m s e) : Throws (m >>= f) s e := by
  obtain ⟨s', hrun⟩ := hm
  exact ⟨s', by simp only [Bind.bind, EStateM.bind, hrun]⟩

/-- What comes after a program that returns stops. -/
theorem returns_bind {Q : α → σ → Prop} {m : EStateM ε σ α} {f : α → EStateM ε σ β} (hm : Returns m s Q)
    (hf : ∀ a s', Q a s' → Throws (f a) s' e) : Throws (m >>= f) s e := by
  obtain ⟨a, s', hrun, hQ⟩ := hm
  obtain ⟨s'', hrest⟩ := hf a s' hQ
  exact ⟨s'', (bind_ok hrun).trans hrest⟩

theorem get_bind {f : σ → EStateM ε σ β} (h : Throws (f s) s e) : Throws (get >>= f) s e := h

theorem modify_bind {g : σ → σ} {f : PUnit → EStateM ε σ β} (h : Throws (f ⟨⟩) (g s) e) :
    Throws (modify g >>= f) s e := h

end Throws

theorem Returns.not_throws {Q : α → σ → Prop} {m : EStateM ε σ α} {s : σ} (hm : Returns m s Q) (e : ε) :
    ¬ Throws m s e := by
  rintro ⟨s', hrun⟩
  obtain ⟨a, t, hok, -⟩ := hm
  rw [hrun] at hok
  cases hok

/-- From every state `m` returns, in a state that `R` relates to it. -/
def Moves (R : σ → σ → Prop) (m : EStateM ε σ α) : Prop := ∀ s, Returns m s fun _ s' => R s s'

namespace Moves
variable {R : σ → σ → Prop}

theorem pure [IsPreorder σ R] (a : α) : Moves R (Pure.pure a : EStateM ε σ α) :=
  fun s => Returns.pure (refl_of R s)

theorem modify {f : σ → σ} (h : ∀ s, R s (f s)) : Moves R (modify f : EStateM ε σ PUnit) :=
  fun s => ⟨⟨⟩, f s, rfl, h s⟩

theorem bind [IsPreorder σ R] {m : EStateM ε σ α} {f : α → EStateM ε σ β} (hm : Moves R m)
    (hf : ∀ a, Moves R (f a)) : Moves R (m >>= f) := by
  intro s
  apply (hm s).bind
  intro a t hst
  apply (hf a t).mono
  intro b u htu
  exact trans_of R hst htu

/-- The rest after `get` starts in the state it got. -/
theorem get_bind {f : σ → EStateM ε σ β} (h : ∀ s, Returns (f s) s fun _ s' => R s s') :
    Moves R (get >>= f) := h

theorem ite {c : Prop} [Decidable c] {m m' : EStateM ε σ α} (hm : Moves R m) (hm' : Moves R m') :
    Moves R (if c then m else m') := by
  split
  · exact hm
  · exact hm'

theorem mono {R' : σ → σ → Prop} {m : EStateM ε σ α} (hm : Moves R m) (h : ∀ s s', R s s' → R' s s') :
    Moves R' m := fun s => (hm s).mono fun _ s' => h s s'

/-- What `R` carries from a state to the next one is kept. -/
theorem keeps {I : σ → Prop} {m : EStateM ε σ α} (hm : Moves R m) (h : ∀ s s', R s s' → I s → I s') :
    Keeps I m := by
  intro s hs
  obtain ⟨a, s', hrun, hR⟩ := hm s
  exact (ends_ok hrun).2 (h s s' hR hs)

end Moves

/-- A result, with the state seen through `f`. -/
def through {τ : Type u} (f : σ → τ) : EStateM.Result ε σ α → EStateM.Result ε τ α
  | .ok a s => .ok a (f s)
  | .error e s => .error e (f s)

/-- Seen through `f`, `m` does what `m'` does. -/
def Mirrors {τ : Type u} (f : σ → τ) (m : EStateM ε σ α) (m' : EStateM ε τ α) : Prop := ∀ s, m' (f s) = through f (m s)

namespace Mirrors
variable {τ : Type u} {f : σ → τ}

theorem pure (a : α) : Mirrors f (Pure.pure a : EStateM ε σ α) (Pure.pure a) := fun _ => rfl

theorem throw (e : ε) : Mirrors f (MonadExcept.throw e : EStateM ε σ α) (MonadExcept.throw e) := fun _ => rfl

theorem modify {g : σ → σ} {g' : τ → τ} (h : ∀ s, f (g s) = g' (f s)) :
    Mirrors f (modify g : EStateM ε σ PUnit) (modify g') := by
  intro s
  show EStateM.Result.ok PUnit.unit (g' (f s)) = EStateM.Result.ok PUnit.unit (f (g s))
  rw [h s]

theorem bind {m : EStateM ε σ α} {m' : EStateM ε τ α} {k : α → EStateM ε σ β} {k' : α → EStateM ε τ β}
    (hm : Mirrors f m m') (hk : ∀ a, Mirrors f (k a) (k' a)) : Mirrors f (m >>= k) (m' >>= k') := by
  intro s
  simp only [Bind.bind, EStateM.bind]
  rw [hm s]
  cases m s with
  | ok a t => exact hk a t
  | error e t => rfl

theorem get_bind {k : σ → EStateM ε σ β} {k' : τ → EStateM ε τ β} (h : ∀ s, Mirrors f (k s) (k' (f s))) :
    Mirrors f (get >>= k) (get >>= k') := fun s => h s s

theorem ite {c : Prop} [Decidable c] {m n : EStateM ε σ α} {m' n' : EStateM ε τ α} (hm : Mirrors f m m')
    (hn : Mirrors f n n') : Mirrors f (if c then m else n) (if c then m' else n') := by
  split
  · exact hm
  · exact hn

end Mirrors

/-- A property that is kept as a triple. -/
theorem Keeps.triple {I : σ → Prop} {m : EStateM ε σ α} (h : Keeps I m) : Triple I I m fun _ => I := by
  intro s hs
  have hs' := h s hs
  cases hrun : m s with
  | ok a s' => exact (ends_ok hrun).1 hs'
  | error e s' => exact (ends_error hrun).1 hs'

end KTools.Lib

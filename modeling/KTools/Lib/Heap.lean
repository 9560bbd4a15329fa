import Mathlib.Data.List.Induction
import Mathlib.Logic.Function.Basic
import Mathlib.Tactic.Common

/-!
# Blocks and links

`Heap β` has blocks with a content in `β` at addresses. The address of a freed block is given out again, but
each allocation has a number of its own, and a `Pointer` is an address with the number of the allocation it was
made for: `load` has nothing for a pointer whose block has been freed, whatever lies at its address by then.
The rules of `load` say what `malloc`, `store` and `free` leave; a dead pointer stays dead through all of them.

`Linked next p xs q` says that the links lead from `p` through the nodes `xs` to `q`.
-/

namespace KTools.Lib

universe u
variable {β ν : Type u}

/-! ### Blocks -/

structure Pointer where
  addr : Nat
  alloc : Nat
  deriving DecidableEq

/-- The blocks in use at their addresses, with the numbers of their allocations, and the number of the next
one. -/
structure Heap (β : Type u) where
  blocks : Nat → Option (Nat × β)
  allocs : Nat
  numbered : ∀ addr n b, blocks addr = some (n, b) → n < allocs

namespace Heap

def empty : Heap β where
  blocks := fun _ => none
  allocs := 0
  numbered := nofun

/-- The content of the block that the pointer was made for. -/
def load (h : Heap β) (p : Pointer) : Option β :=
  match h.blocks p.addr with
  | some (n, b) => if n = p.alloc then some b else none
  | none => none

/-- The block is in use. -/
def Live (h : Heap β) (p : Pointer) : Prop := (h.load p).isSome = true

instance (h : Heap β) (p : Pointer) : Decidable (h.Live p) := inferInstanceAs (Decidable (_ = true))

theorem load_eq_some {h : Heap β} {p : Pointer} {b : β} :
    h.load p = some b ↔ h.blocks p.addr = some (p.alloc, b) := by
  unfold load
  split
  · rename_i n c hblock
    rw [hblock]
    by_cases hn : n = p.alloc
    · simp [hn]
    · simp [hn]
  · rename_i hblock
    rw [hblock]
    simp

theorem live_iff {h : Heap β} {p : Pointer} : h.Live p ↔ ∃ b, h.load p = some b := Option.isSome_iff_exists

theorem not_live_iff {h : Heap β} {p : Pointer} : ¬ h.Live p ↔ h.load p = none := by
  unfold Live
  rw [Bool.not_eq_true, Option.isSome_eq_false_iff, Option.isNone_iff_eq_none]

theorem Live.alloc_lt {h : Heap β} {p : Pointer} (hlive : h.Live p) : p.alloc < h.allocs := by
  obtain ⟨b, hb⟩ := live_iff.1 hlive
  exact h.numbered _ _ _ (load_eq_some.1 hb)

/-- Blocks in use have different addresses. -/
theorem Live.eq_of_addr {h : Heap β} {p q : Pointer} (hp : h.Live p) (hq : h.Live q) (haddr : p.addr = q.addr) :
    p = q := by
  obtain ⟨b, hb⟩ := live_iff.1 hp
  obtain ⟨c, hc⟩ := live_iff.1 hq
  rw [load_eq_some] at hb hc
  rw [haddr, hc] at hb
  cases p
  cases q
  simp only [Option.some.injEq, Prod.mk.injEq] at hb
  simp only at haddr
  rw [haddr, hb.1]

/-- An address is taken by a block in use. -/
theorem blocks_isSome {h : Heap β} {addr : Nat} :
    (h.blocks addr).isSome = true ↔ ∃ p, h.Live p ∧ p.addr = addr := by
  constructor
  · intro hsome
    obtain ⟨⟨n, b⟩, hblock⟩ := Option.isSome_iff_exists.1 hsome
    exact ⟨⟨addr, n⟩, live_iff.2 ⟨b, load_eq_some.2 hblock⟩, rfl⟩
  · rintro ⟨p, hlive, rfl⟩
    obtain ⟨b, hb⟩ := live_iff.1 hlive
    rw [load_eq_some.1 hb]
    rfl

/-- What `store` and `free` leave of a block in use: a new content, or none. -/
def put (h : Heap β) (p : Pointer) (content : Option β) : Heap β :=
  if hlive : h.Live p then
    { blocks := Function.update h.blocks p.addr (content.map fun b => (p.alloc, b))
      allocs := h.allocs
      numbered := by
        intro addr n b hblock
        by_cases haddr : addr = p.addr
        · rw [haddr, Function.update_self] at hblock
          obtain ⟨c, -, hc⟩ := Option.map_eq_some_iff.1 hblock
          rw [← (Prod.mk.inj hc).1]
          exact hlive.alloc_lt
        · rw [Function.update_of_ne haddr] at hblock
          exact h.numbered _ _ _ hblock }
  else h

/-- `*p = b`. -/
def store (h : Heap β) (p : Pointer) (b : β) : Heap β := h.put p (some b)

def free (h : Heap β) (p : Pointer) : Heap β := h.put p none

/-- A new block at an address that is not taken. -/
def malloc (h : Heap β) (addr : Nat) (b : β) : Option (Pointer × Heap β) :=
  if (h.blocks addr).isSome then none
  else some (⟨addr, h.allocs⟩,
    { blocks := Function.update h.blocks addr (some (h.allocs, b))
      allocs := h.allocs + 1
      numbered := by
        intro addr' n c hblock
        by_cases haddr : addr' = addr
        · rw [haddr, Function.update_self] at hblock
          rw [← (Prod.mk.inj (Option.some.inj hblock)).1]
          exact Nat.lt_succ_self _
        · rw [Function.update_of_ne haddr] at hblock
          exact Nat.lt_succ_of_lt (h.numbered _ _ _ hblock) })

theorem put_allocs (h : Heap β) (p : Pointer) (content : Option β) : (h.put p content).allocs = h.allocs := by
  unfold put
  split
  · rfl
  · rfl

theorem load_put {h : Heap β} {p : Pointer} (hlive : h.Live p) (content : Option β) (q : Pointer) :
    (h.put p content).load q = if q = p then content else h.load q := by
  unfold put
  rw [dif_pos hlive]
  by_cases haddr : q.addr = p.addr
  · by_cases hq : q = p
    · subst hq
      rw [if_pos rfl]
      unfold load
      dsimp only
      rw [Function.update_self]
      cases content with
      | none => rfl
      | some b => exact if_pos rfl
    · rw [if_neg hq]
      -- the address is that of `p`, so `q` is not in use, and has not been before
      have hdead : ¬ h.Live q := fun hlive' => hq (hlive'.eq_of_addr hlive haddr)
      rw [not_live_iff.1 hdead]
      unfold load
      dsimp only
      rw [haddr, Function.update_self]
      cases content with
      | none => rfl
      | some b =>
        refine if_neg fun halloc => hq ?_
        cases p
        cases q
        simp only at haddr halloc
        rw [haddr, halloc]
  · rw [if_neg fun hq => haddr (congrArg Pointer.addr hq)]
    unfold load
    dsimp only
    rw [Function.update_of_ne haddr]

theorem load_store {h : Heap β} {p : Pointer} (hlive : h.Live p) (b : β) (q : Pointer) :
    (h.store p b).load q = if q = p then some b else h.load q := load_put hlive _ q

/-- What is there behind a store was there before, or has been stored. -/
theorem load_store_cases {h : Heap β} {p q : Pointer} {b c : β} (hlive : h.Live p)
    (hload : (h.store p b).load q = some c) : q = p ∧ c = b ∨ h.load q = some c := by
  rw [load_store hlive] at hload
  split at hload
  · rename_i hq
    exact .inl ⟨hq, (Option.some.inj hload).symm⟩
  · exact .inr hload

theorem load_free {h : Heap β} {p : Pointer} (hlive : h.Live p) (q : Pointer) :
    (h.free p).load q = if q = p then none else h.load q := load_put hlive _ q

theorem live_store {h : Heap β} {p : Pointer} (hlive : h.Live p) (b : β) (q : Pointer) :
    (h.store p b).Live q ↔ h.Live q := by
  unfold Live
  rw [load_store hlive]
  split
  · rename_i hq
    rw [hq]
    exact ⟨fun _ => hlive, fun _ => rfl⟩
  · rfl

section malloc
variable {h h' : Heap β} {addr : Nat} {b : β} {p : Pointer} (hmalloc : h.malloc addr b = some (p, h'))
include hmalloc

theorem malloc_pointer : p = ⟨addr, h.allocs⟩ ∧ h'.allocs = h.allocs + 1 := by
  unfold malloc at hmalloc
  split at hmalloc
  · cases hmalloc
  · obtain ⟨rfl, rfl⟩ := Prod.mk.inj (Option.some.inj hmalloc)
    exact ⟨rfl, rfl⟩

/-- The block is new. -/
theorem malloc_fresh : ¬ h.Live p := by
  intro hlive
  have hlt := hlive.alloc_lt
  rw [(malloc_pointer hmalloc).1] at hlt
  exact absurd hlt (Nat.lt_irrefl _)

theorem load_malloc (q : Pointer) : h'.load q = if q = p then some b else h.load q := by
  obtain ⟨rfl, -⟩ := malloc_pointer hmalloc
  unfold malloc at hmalloc
  split at hmalloc
  · cases hmalloc
  · rename_i hfree
    obtain ⟨-, rfl⟩ := Prod.mk.inj (Option.some.inj hmalloc)
    by_cases haddr : q.addr = addr
    · by_cases hq : q = ⟨addr, h.allocs⟩
      · subst hq
        rw [if_pos rfl]
        exact load_eq_some.2 (Function.update_self _ _ _)
      · rw [if_neg hq]
        have hdead : ¬ h.Live q := fun hlive => hfree (blocks_isSome.2 ⟨q, hlive, haddr⟩)
        rw [not_live_iff.1 hdead]
        unfold load
        dsimp only
        rw [haddr, Function.update_self]
        refine if_neg fun halloc => hq ?_
        cases q
        simp only at haddr halloc
        rw [haddr, halloc]
    · rw [if_neg fun hq => haddr (congrArg Pointer.addr hq)]
      unfold load
      dsimp only
      rw [Function.update_of_ne haddr]

end malloc

/-- `malloc` fails at an address that is taken. -/
theorem malloc_isSome {h : Heap β} {addr : Nat} {b : β} :
    (h.malloc addr b).isSome = true ↔ ¬ ∃ p, h.Live p ∧ p.addr = addr := by
  rw [← blocks_isSome]
  unfold malloc
  split
  · rename_i htaken
    simp [htaken]
  · rename_i hfree
    simp [hfree]

/-- The block has been freed. -/
structure Dead (h : Heap β) (p : Pointer) : Prop where
  made : p.alloc < h.allocs
  freed : ¬ h.Live p

theorem Dead.put {h : Heap β} {p : Pointer} (hdead : h.Dead p) (q : Pointer) (content : Option β) :
    (h.put q content).Dead p := by
  refine ⟨by rw [put_allocs]; exact hdead.made, not_live_iff.2 ?_⟩
  by_cases hlive : h.Live q
  · have hp : p ≠ q := by
      rintro rfl
      exact hdead.freed hlive
    rw [load_put hlive, if_neg hp]
    exact not_live_iff.1 hdead.freed
  · unfold Heap.put
    rw [dif_neg hlive]
    exact not_live_iff.1 hdead.freed

theorem Dead.malloc {h h' : Heap β} {p q : Pointer} {addr : Nat} {b : β} (hdead : h.Dead p)
    (hmalloc : h.malloc addr b = some (q, h')) : h'.Dead p := by
  obtain ⟨hq, hallocs⟩ := malloc_pointer hmalloc
  have hmade := hdead.made
  refine ⟨by omega, not_live_iff.2 ?_⟩
  rw [load_malloc hmalloc, if_neg, not_live_iff.1 hdead.freed]
  rintro rfl
  rw [hq] at hmade
  exact Nat.lt_irrefl _ hmade

end Heap

/-! ### Links -/

/-- The links lead from `p` through the nodes `xs` to `q`; `next x` is the link in the node `x`, if there is
such a node. -/
def Linked (next : ν → Option (Option ν)) : Option ν → List ν → Option ν → Prop
  | p, [], q => p = q
  | p, x :: rest, q => p = some x ∧ ∃ n, next x = some n ∧ Linked next n rest q

section linked
variable {next next' : ν → Option (Option ν)} {p q r : Option ν} {xs ys : List ν}

theorem linked_append : Linked next p (xs ++ ys) r ↔ ∃ q, Linked next p xs q ∧ Linked next q ys r := by
  induction xs generalizing p with
  | nil =>
    constructor
    · intro h
      exact ⟨p, rfl, h⟩
    · rintro ⟨q, rfl, h⟩
      exact h
  | cons x rest ih =>
    constructor
    · rintro ⟨rfl, n, hn, h⟩
      obtain ⟨q, hrest, h⟩ := ih.1 h
      exact ⟨q, ⟨rfl, n, hn, hrest⟩, h⟩
    · rintro ⟨q, ⟨rfl, n, hn, hrest⟩, h⟩
      exact ⟨rfl, n, hn, ih.2 ⟨q, hrest, h⟩⟩

theorem Linked.congr (h : Linked next p xs q) (hnext : ∀ x ∈ xs, next' x = next x) : Linked next' p xs q := by
  induction xs generalizing p with
  | nil => exact h
  | cons x rest ih =>
    obtain ⟨rfl, n, hn, h⟩ := h
    refine ⟨rfl, n, ?_, ih h fun y hy => hnext y (.tail _ hy)⟩
    rw [hnext x (.head _), hn]

/-- A list starts at its first node. -/
theorem Linked.start (h : Linked next p xs none) : p = xs.head? := by
  cases xs with
  | nil => exact h
  | cons x rest => exact h.1

theorem Linked.next_eq {x : ν} (h : Linked next p (xs ++ x :: ys) none) : next x = some ys.head? := by
  obtain ⟨q, -, -, n, hn, h⟩ := linked_append.1 h
  rw [hn, h.start]

/-- The last node is given another link. -/
theorem Linked.relink {x : ν} (h : Linked next p (xs ++ [x]) q) (hnext : ∀ y ∈ xs, next' y = next y)
    (hlast : next' x = some r) : Linked next' p (xs ++ [x]) r := by
  obtain ⟨m, hfirst, rfl, -⟩ := linked_append.1 h
  exact linked_append.2 ⟨some x, hfirst.congr hnext, rfl, r, hlast, rfl⟩

/-- A node behind the last one: only the link of that one changes. -/
theorem Linked.concat {x : ν} (h : Linked next p xs none) (hnodup : xs.Nodup) (hnew : next' x = some none)
    (hlast : ∀ t, xs.getLast? = some t → next' t = some (some x))
    (hrest : ∀ y ∈ xs, xs.getLast? ≠ some y → next' y = next y) :
    Linked next' (xs ++ [x]).head? (xs ++ [x]) none := by
  cases xs using List.reverseRecOn with
  | nil => exact ⟨rfl, none, hnew, rfl⟩
  | append_singleton init t =>
    rw [List.getLast?_concat] at hlast hrest
    have hne : ∀ y ∈ init, y ≠ t := fun y hy => (List.nodup_append.1 hnodup).2.2 y hy t List.mem_cons_self
    have hrelinked : Linked next' p (init ++ [t]) (some x) := h.relink
      (fun y hy => hrest y (List.mem_append_left _ hy) fun hsome => hne y hy (Option.some.inj hsome).symm)
      (hlast t rfl)
    have hall : Linked next' p (init ++ [t] ++ [x]) none :=
      linked_append.2 ⟨some x, hrelinked, rfl, none, hnew, rfl⟩
    rw [← hall.start]
    exact hall

/-- Without the node `x`: the node before it gets its link. -/
theorem Linked.unlink {x : ν} (h : Linked next p (xs ++ x :: ys) none) (hnodup : xs.Nodup)
    (hlast : ∀ t, xs.getLast? = some t → next' t = next x)
    (hrest : ∀ y ∈ xs, xs.getLast? ≠ some y → next' y = next y) (hbehind : ∀ y ∈ ys, next' y = next y) :
    Linked next' (xs ++ ys).head? (xs ++ ys) none := by
  obtain ⟨q, hxs, -, n, hn, hys⟩ := linked_append.1 h
  have hys' : Linked next' n ys none := hys.congr hbehind
  cases xs using List.reverseRecOn with
  | nil => exact hys'.start ▸ hys'
  | append_singleton init t =>
    rw [List.getLast?_concat] at hlast hrest
    have hne : ∀ y ∈ init, y ≠ t := fun y hy => (List.nodup_append.1 hnodup).2.2 y hy t List.mem_cons_self
    have hrelinked : Linked next' p (init ++ [t]) n := hxs.relink
      (fun y hy => hrest y (List.mem_append_left _ hy) fun hsome => hne y hy (Option.some.inj hsome).symm)
      ((hlast t rfl).trans hn)
    have hall := linked_append.2 ⟨n, hrelinked, hys'⟩
    rw [← hall.start]
    exact hall

end linked

end KTools.Lib

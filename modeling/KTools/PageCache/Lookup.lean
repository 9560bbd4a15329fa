import KTools.PageCache.Stat

/-!
# The pages that the statistics look up

The first patch adds `walk_page_table_one_addr`, which walks the four levels of the page table of the current
process to the page of a user address. It looks at the upper entries before it follows them, but takes the
page of the last entry without a look at its present bit. `copyin` asks for the node of the page of its user
buffer, whether the copy succeeded or not, and `generic_perform_write` for the node of the page that
`write_begin` gives, before it looks at the result of `write_begin`.

Each of these sees only the pages it should exactly when the walk meets no huge entry and no last entry of a
page that is not there, and no `write_begin` of a target task fails (`lookups_safe_iff`).
-/

namespace KTools.PageCache

/-! ### Page tables -/

/-- A `struct page *`, by the frame of the page. `unset` is a variable that was not assigned, or made of bytes
that are no entry. -/
inductive Pointer where
  | null
  | page (frame : Nat)
  | unset
  deriving DecidableEq

/-- A last entry: `frame` are the bits that `pte_page` takes for the frame, also when the page was swapped out
or the entry is empty. -/
structure Pte where
  present : Bool
  frame : Nat

/-- An entry of an upper level, which holds a table by address, or maps a huge page. -/
inductive Entry (α : Type) where
  | none
  | bad
  | huge (frame : UInt64 → Nat)
  | table (t : UInt64 → α)

/-- The tables from `pgd_offset(mm, addr)` on; `Option.none` is a NULL of `pte_offset_map`. -/
abbrev Pmd := Entry (Option Pte)
abbrev Pud := Entry Pmd
abbrev Pgd := Entry Pud
abbrev PageTable := UInt64 → Pgd

/-- What the patches use of the kernel: whether `pgd_bad`, `pud_bad` and `pmd_bad` hold of a huge entry, and
`page_to_nid`. -/
structure Kernel where
  hugeIsBad : Bool
  pageToNid : Pointer → Nat

/-! ### `walk_page_table_one_addr` -/

/-- One level: the checks of the entry, and the next level. A huge entry that is not bad is followed into the
page itself, whose bytes are no table. -/
def Entry.walk {α : Type} (k : Kernel) (addr : UInt64) (next : α → Pointer) : Entry α → Pointer
  | .none => .null
  | .bad => .null
  | .huge _ => if k.hugeIsBad then .null else .unset
  | .table t => next (t addr)

/-- `pte_page(*ptep)`. -/
def walkPte : Option Pte → Pointer
  | .none => .null
  | some pte => .page pte.frame

def walkPmd (k : Kernel) (addr : UInt64) : Pmd → Pointer := Entry.walk k addr walkPte

def walkPud (k : Kernel) (addr : UInt64) : Pud → Pointer := Entry.walk k addr (walkPmd k addr)

def walkPageTableOneAddr (k : Kernel) (table : PageTable) (addr : UInt64) : Pointer :=
  Entry.walk k addr (walkPud k addr) (table addr)

/-! ### The page of an address -/

/-- The frame that an entry maps the address to. -/
def Entry.maps {α : Type} (addr : UInt64) (next : α → Option Nat) : Entry α → Option Nat
  | .none => Option.none
  | .bad => Option.none
  | .huge frame => some (frame addr)
  | .table t => next (t addr)

def pteMaps (pte : Option Pte) : Option Nat := (pte.filter Pte.present).map Pte.frame

/-- The frame of a user address, if its page is there. -/
def mapped (table : PageTable) (addr : UInt64) : Option Nat :=
  (table addr).maps addr (Entry.maps addr (Entry.maps addr pteMaps))

def Pointer.ofFrame : Option Nat → Pointer
  | Option.none => .null
  | some frame => .page frame

/-- The way to the address ends at an entry that is absent or bad, or at the last level, with `last`. -/
def Entry.Plain {α : Type} (addr : UInt64) (last : α → Prop) : Entry α → Prop
  | .none => True
  | .bad => True
  | .huge _ => False
  | .table t => last (t addr)

/-- .. and it does not end before the last level. -/
def Entry.Reaches {α : Type} (addr : UInt64) (last : α → Prop) : Entry α → Prop
  | .none => False
  | .bad => False
  | .huge _ => False
  | .table t => last (t addr)

/-- No huge entry is on the way to the address, and the last entry, if the way gets there, is present. -/
def Plain (table : PageTable) (addr : UInt64) : Prop :=
  (table addr).Plain addr (Entry.Plain addr (Entry.Plain addr fun pte => ∀ p, pte = some p → p.present = true))

/-- The way to the address leads through all levels to a present entry. -/
def Reaches (table : PageTable) (addr : UInt64) : Prop :=
  (table addr).Reaches addr (Entry.Reaches addr (Entry.Reaches addr fun pte => ∃ p, pte = some p ∧ p.present = true))

section walk
variable {α : Type} {k : Kernel} {addr : UInt64} {walk : α → Pointer} {maps : α → Option Nat} {last : α → Prop}

/-- A level is walked rightly where the next one is. -/
theorem Entry.walk_eq_iff (h : ∀ a, walk a = .ofFrame (maps a) ↔ last a) (e : Entry α) :
    e.walk k addr walk = .ofFrame (e.maps addr maps) ↔ e.Plain addr last := by
  cases e with
  | none => exact iff_of_true rfl trivial
  | bad => exact iff_of_true rfl trivial
  | huge frame =>
    refine iff_of_false (fun heq => ?_) id
    have hpage : (if k.hugeIsBad then Pointer.null else .unset) = .page (frame addr) := heq
    split at hpage
    · cases hpage
    · cases hpage
  | table t => exact h (t addr)

/-- A page is found where the next level finds it. -/
theorem Entry.walk_page_iff (h : ∀ a, (∃ frame, maps a = some frame ∧ walk a = .page frame) ↔ last a) (e : Entry α) :
    (∃ frame, e.maps addr maps = some frame ∧ e.walk k addr walk = .page frame) ↔ e.Reaches addr last := by
  cases e with
  | none => exact iff_of_false (fun ⟨_, hmaps, _⟩ => nomatch hmaps) id
  | bad => exact iff_of_false (fun ⟨_, hmaps, _⟩ => nomatch hmaps) id
  | huge frame =>
    refine iff_of_false (fun ⟨f, _, hwalk⟩ => ?_) id
    have hpage : (if k.hugeIsBad then Pointer.null else .unset) = .page f := hwalk
    split at hpage
    · cases hpage
    · cases hpage
  | table t => exact h (t addr)

end walk

theorem walkPte_eq_iff (pte : Option Pte) :
    walkPte pte = .ofFrame (pteMaps pte) ↔ ∀ p, pte = some p → p.present = true := by
  cases pte with
  | none => exact iff_of_true rfl nofun
  | some p =>
    cases hpresent : p.present with
    | true =>
      have hmaps : pteMaps (some p) = some p.frame := by simp [pteMaps, hpresent]
      rw [hmaps]
      exact iff_of_true rfl fun q hq => Option.some.inj hq ▸ hpresent
    | false =>
      have hmaps : pteMaps (some p) = Option.none := by simp [pteMaps, hpresent]
      rw [hmaps]
      exact iff_of_false nofun fun h => absurd (hpresent.symm.trans (h p rfl)) (by decide)

theorem walkPte_page_iff (pte : Option Pte) :
    (∃ frame, pteMaps pte = some frame ∧ walkPte pte = .page frame) ↔ ∃ p, pte = some p ∧ p.present = true := by
  cases pte with
  | none => exact iff_of_false (fun ⟨_, hmaps, _⟩ => nomatch hmaps) (fun ⟨_, hp, _⟩ => nomatch hp)
  | some p =>
    cases hpresent : p.present with
    | true =>
      have hmaps : pteMaps (some p) = some p.frame := by simp [pteMaps, hpresent]
      exact iff_of_true ⟨p.frame, hmaps, rfl⟩ ⟨p, rfl, hpresent⟩
    | false =>
      have hmaps : pteMaps (some p) = Option.none := by simp [pteMaps, hpresent]
      refine iff_of_false (fun ⟨_, hframe, _⟩ => ?_) fun ⟨q, hq, hset⟩ => ?_
      · rw [hmaps] at hframe
        cases hframe
      · rw [← Option.some.inj hq, hpresent] at hset
        cases hset

/-- The walk gives the page of the address, or NULL if it has none. -/
theorem walk_eq_iff (k : Kernel) (table : PageTable) (addr : UInt64) :
    walkPageTableOneAddr k table addr = .ofFrame (mapped table addr) ↔ Plain table addr :=
  Entry.walk_eq_iff (Entry.walk_eq_iff (Entry.walk_eq_iff walkPte_eq_iff)) (table addr)

theorem walk_page_iff (k : Kernel) (table : PageTable) (addr : UInt64) :
    (∃ frame, mapped table addr = some frame ∧ walkPageTableOneAddr k table addr = .page frame) ↔
      Reaches table addr :=
  Entry.walk_page_iff (Entry.walk_page_iff (Entry.walk_page_iff walkPte_page_iff)) (table addr)

/-! ### The callers -/

/-- What `write_begin` returns and leaves in `page`; without an error it leaves a page there. -/
structure WriteBegin where
  status : Int
  page : Pointer
  success : 0 ≤ status → ∃ frame, page = .page frame

/-- A pointer that `page_to_nid` is applied to. -/
inductive Use where
  /-- The result of a walk to the address. -/
  | lookup (table : PageTable) (addr : UInt64) (page : Pointer)
  | writeBegin (w : WriteBegin)

def Use.pointer : Use → Pointer
  | .lookup _ _ page => page
  | .writeBegin w => w.page

/-- A call, with what it meets. -/
inductive Call where
  /-- `walk_page_table_one_addr`. -/
  | lookup (table : PageTable) (addr : UInt64)
  /-- `copyin` with the patches up to the fifth one: whether `access_ok` holds, the size, what
  `raw_copy_from_user` leaves of it, `from`, and the page table at the two walks. -/
  | copyin (c : Context) (accessOk : Bool) (n left : Nat) (src : UInt64) (first second : PageTable)
  /-- `copyin` with the patch of the `mm` directory, which prints the node of a buffer that starts with six
  letters: `dst` is `to` after the copy. -/
  | copyinPrint (dst : List UInt8) (accessOk : Bool) (n left : Nat) (src : UInt64) (table : PageTable)
  /-- `generic_perform_write`, with what its calls of `write_begin` give. -/
  | performWrite (c : Context) (writeBegins : List WriteBegin)

/-- The maps of `copyin` and of `generic_perform_write`, and the nodes that are printed; `uses` are the
pointers that were looked up. -/
structure Maps where
  uMap : Nat → Nat → Nat := fun _ _ => 0
  umiss : Nat → Nat := fun _ => 0
  writeOpMap : Nat → Nat → Nat := fun _ _ => 0
  pgcMap : Nat → Nat → Nat := fun _ _ => 0
  pgcWriteOpMap : Nat → Nat → Nat := fun _ _ => 0
  printed : List Nat := []
  uses : List Use := []

/-- `page_to_nid(walk_page_table_one_addr(addr))`. -/
def lookupUse (k : Kernel) (table : PageTable) (addr : UInt64) : Use :=
  .lookup table addr (walkPageTableOneAddr k table addr)

def Kernel.nid (k : Kernel) (use : Use) : Nat := k.pageToNid use.pointer

/-- `"aaaaaa"`. -/
def sixLetters : List UInt8 := [97, 97, 97, 97, 97, 97]

def copiedSize (accessOk : Bool) (n left : Nat) : Nat := if accessOk = true then left else n

/-- The part of `copyin` behind its report, and what it returns. -/
def Maps.copyin (k : Kernel) (s : Maps) (c : Context) (accessOk : Bool) (n left : Nat) (src : UInt64)
    (first second : PageTable) : Maps × Nat :=
  let n := copiedSize accessOk n left
  if c.isTarget = true then
    let firstUse := lookupUse k first src
    let secondUse := lookupUse k second src
    ({ s with
        uMap := bump₂ s.uMap c.pid (k.nid firstUse)
        umiss := if k.nid secondUse ≠ c.node then bump s.umiss c.pid else s.umiss
        writeOpMap := bump₂ s.writeOpMap c.pid c.node
        uses := s.uses ++ [firstUse, secondUse] }, n)
  else (s, n)

def Maps.copyinPrint (k : Kernel) (s : Maps) (dst : List UInt8) (accessOk : Bool) (n left : Nat) (src : UInt64)
    (table : PageTable) : Maps × Nat :=
  let n := copiedSize accessOk n left
  if dst.take 6 = sixLetters then
    let use := lookupUse k table src
    ({ s with printed := s.printed ++ [k.nid use], uses := s.uses ++ [use] }, n)
  else (s, n)

/-- The statistics of a turn of the loop, before the result of `write_begin` is looked at. -/
def Maps.writeBegin (k : Kernel) (s : Maps) (c : Context) (w : WriteBegin) : Maps :=
  if c.isTarget = true then
    { s with
      pgcMap := bump₂ s.pgcMap c.pid (k.nid (.writeBegin w))
      pgcWriteOpMap := bump₂ s.pgcWriteOpMap c.pid c.node
      uses := s.uses ++ [.writeBegin w] }
  else s

/-- The loop of `generic_perform_write`, which ends with the first `write_begin` that fails. -/
def Maps.performWrite (k : Kernel) (c : Context) : Maps → List WriteBegin → Maps
  | s, [] => s
  | s, w :: rest =>
    let s := s.writeBegin k c w
    if w.status < 0 then s else s.performWrite k c rest

def Maps.step (k : Kernel) (s : Maps) : Call → Maps
  | .lookup _ _ => s
  | .copyin c accessOk n left src first second => (s.copyin k c accessOk n left src first second).1
  | .copyinPrint dst accessOk n left src table => (s.copyinPrint k dst accessOk n left src table).1
  | .performWrite c writeBegins => s.performWrite k c writeBegins

def Maps.run (k : Kernel) (calls : List Call) : Maps := calls.foldl (Maps.step k) {}

/-! ### What is looked up -/

/-- The pointer is the page that the address has, or that a successful `write_begin` gave. -/
def Use.Valid : Use → Prop
  | .lookup table addr page => ∃ frame, mapped table addr = some frame ∧ page = .page frame
  | .writeBegin w => 0 ≤ w.status

/-- In a run every walk gives the page of its address or NULL, and `page_to_nid` is applied to pages only. -/
structure Safe (k : Kernel) (calls : List Call) : Prop where
  lookups : ∀ table addr, .lookup table addr ∈ calls →
    walkPageTableOneAddr k table addr = .ofFrame (mapped table addr)
  uses : ∀ use ∈ (Maps.run k calls).uses, use.Valid

/-- The pages that a call looks up are there. -/
def Call.HasPages : Call → Prop
  | .lookup _ _ => True
  | .copyin c _ _ _ src first second => c.isTarget = true → Reaches first src ∧ Reaches second src
  | .copyinPrint dst _ _ _ src table => dst.take 6 = sixLetters → Reaches table src
  | .performWrite c writeBegins => c.isTarget = true → ∀ w ∈ writeBegins, 0 ≤ w.status

/-- What a call must meet for that. -/
structure Call.Meets (call : Call) : Prop where
  plain : ∀ table addr, call = .lookup table addr → Plain table addr
  pages : call.HasPages

theorem lookupUse_valid_iff (k : Kernel) (table : PageTable) (addr : UInt64) :
    (lookupUse k table addr).Valid ↔ Reaches table addr := walk_page_iff k table addr

/-- A valid pointer is one of a page. -/
theorem Use.Valid.page {use : Use} (h : use.Valid) : ∃ frame, use.pointer = .page frame := by
  cases use with
  | lookup table addr page =>
    obtain ⟨frame, -, hpage⟩ := h
    exact ⟨frame, hpage⟩
  | writeBegin w => exact w.success h

/-- The uses of the loop. -/
theorem performWrite_uses (k : Kernel) {c : Context} (writeBegins : List WriteBegin) :
    ∀ s : Maps, ∃ l, (s.performWrite k c writeBegins).uses = s.uses ++ l ∧
      ((∀ use ∈ l, use.Valid) ↔ (c.isTarget = true → ∀ w ∈ writeBegins, 0 ≤ w.status)) := by
  induction writeBegins with
  | nil => exact fun s => ⟨[], (List.append_nil _).symm, iff_of_true (List.forall_mem_nil _)
      fun _ => List.forall_mem_nil _⟩
  | cons w rest ih =>
    intro s
    rw [Maps.performWrite]
    cases htarget : c.isTarget with
    | false =>
      have hsame : s.writeBegin k c w = s := by
        unfold Maps.writeBegin
        rw [htarget, if_neg (by decide)]
      rw [hsame]
      split
      · exact ⟨[], (List.append_nil _).symm, iff_of_true (List.forall_mem_nil _) nofun⟩
      · obtain ⟨l, hl, hiff⟩ := ih s
        rw [htarget] at hiff
        exact ⟨l, hl, iff_of_true (hiff.2 nofun) nofun⟩
    | true =>
      have huses : (s.writeBegin k c w).uses = s.uses ++ [.writeBegin w] := by
        unfold Maps.writeBegin
        rw [htarget, if_pos rfl]
      simp only [true_imp_iff, List.forall_mem_cons]
      split
      · rename_i hfails
        refine ⟨[.writeBegin w], huses, iff_of_false (fun h => ?_) fun h => ?_⟩
        · exact absurd (h _ (.head _)) (Int.not_le.2 hfails)
        · exact absurd h.1 (Int.not_le.2 hfails)
      · rename_i hsucceeds
        obtain ⟨l, hl, hiff⟩ := ih (s.writeBegin k c w)
        rw [htarget] at hiff
        refine ⟨.writeBegin w :: l, by rw [hl, huses, List.append_assoc]; rfl, ?_⟩
        rw [List.forall_mem_cons, hiff]
        simp only [true_imp_iff]
        exact and_congr_left fun _ => iff_of_true (Int.not_lt.1 hsucceeds) (Int.not_lt.1 hsucceeds)

theorem step_uses (k : Kernel) (s : Maps) (call : Call) : ∃ l, (s.step k call).uses = s.uses ++ l ∧
    ((∀ use ∈ l, use.Valid) ↔ call.HasPages) := by
  have hnone : ∀ P : Prop, P → ∃ l, s.uses = s.uses ++ l ∧ ((∀ use ∈ l, use.Valid) ↔ P) :=
    fun P hP => ⟨[], (List.append_nil _).symm, iff_of_true (List.forall_mem_nil _) hP⟩
  cases call with
  | lookup table addr => exact hnone True trivial
  | copyin c accessOk n left src first second =>
    simp only [Maps.step, Maps.copyin, Call.HasPages]
    cases c.isTarget with
    | false => exact hnone _ nofun
    | true =>
      refine ⟨[lookupUse k first src, lookupUse k second src], rfl, ?_⟩
      rw [List.forall_mem_cons, List.forall_mem_singleton, lookupUse_valid_iff, lookupUse_valid_iff]
      exact ⟨fun h _ => h, fun h => h rfl⟩
  | copyinPrint dst accessOk n left src table =>
    simp only [Maps.step, Maps.copyinPrint, Call.HasPages]
    split
    · rename_i hletters
      refine ⟨[lookupUse k table src], rfl, ?_⟩
      rw [List.forall_mem_singleton, lookupUse_valid_iff]
      exact ⟨fun h _ => h, fun h => h hletters⟩
    · rename_i hletters
      exact hnone _ fun h => absurd h hletters
  | performWrite c writeBegins => exact performWrite_uses k writeBegins s

theorem run_uses (k : Kernel) (calls : List Call) : ∀ s : Maps,
    ∃ l, (calls.foldl (Maps.step k) s).uses = s.uses ++ l ∧
      ((∀ use ∈ l, use.Valid) ↔ ∀ call ∈ calls, call.HasPages) := by
  induction calls with
  | nil => exact fun s => ⟨[], (List.append_nil _).symm, iff_of_true (List.forall_mem_nil _) (List.forall_mem_nil _)⟩
  | cons call rest ih =>
    intro s
    obtain ⟨l, hl, hiff⟩ := step_uses k s call
    obtain ⟨m, hm, hrest⟩ := ih (s.step k call)
    refine ⟨l ++ m, hm.trans (by rw [hl, List.append_assoc]), ?_⟩
    rw [List.forall_mem_append, List.forall_mem_cons, hiff, hrest]

/-- **When only pages are looked up**: no walk meets a huge entry or a last entry without its page, the pages
of the buffers are there, and no `write_begin` of a target task fails. -/
theorem lookups_safe_iff (k : Kernel) (calls : List Call) : Safe k calls ↔ ∀ call ∈ calls, call.Meets := by
  obtain ⟨l, hl, hiff⟩ := run_uses k calls {}
  have huses : (Maps.run k calls).uses = l := hl
  constructor
  · intro h call hcall
    refine ⟨fun table addr heq => ?_, hiff.1 (huses ▸ h.uses) call hcall⟩
    exact (walk_eq_iff k table addr).1 (h.lookups table addr (heq ▸ hcall))
  · intro h
    refine ⟨fun table addr hcall => (walk_eq_iff k table addr).2 ((h _ hcall).plain table addr rfl), ?_⟩
    rw [huses]
    exact hiff.2 fun call hcall => (h call hcall).pages

/-- A kernel with every page on node 0. -/
def oneNode : Kernel := ⟨true, fun _ => 0⟩

/-- A `write_begin` that runs out of memory. -/
def noMemory : WriteBegin := ⟨-12, .unset, fun h => absurd h (by decide)⟩

/-- The page of a write that fails is looked up. -/
theorem noMemory_not_safe : ¬ ∀ k calls, Safe k calls := by
  intro h
  have hsafe := h oneNode [.performWrite ⟨targetTask, 7, 0, 1⟩ [noMemory]]
  have hvalid : (Use.writeBegin noMemory).Valid := hsafe.uses _ (List.mem_singleton_self _)
  exact absurd (show (0 : Int) ≤ -12 from hvalid) (by decide)

end KTools.PageCache

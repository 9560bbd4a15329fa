import KTools.Lanplus.RequestInvariant

/-!
# The operations on the list of pending requests

The removal of a request has to repair the head, the tail and the link of the predecessor, and the entry may be
the first one, the last one, both or neither. It keeps `Represents`, as the other operations and the writes of
the callers do, and so does every run (`run_represents`).

The other modules take the list as a `List RqEntry`, with new entries at its end, `ipmiReqLookupEntry`,
`ipmiReqRemoveEntry` and `updateEntry`; that is what the operations do to the requests.
-/

namespace KTools.Lanplus.RequestList
open KTools.Lib

/-! ### Removing -/

/-- The message is freed with its entry, and nothing else changes. -/
theorem freeMessage_run {m : Mem} {p : Pointer} {e : Entry} (hload : m.entries.load p = some e)
    (hmessage : ∀ d, e.msgData = some d → m.messages.Live d) :
    ∃ m', freeMessage (some p) m = .ok ⟨⟩ m' ∧ m'.ipmiReqEntries = m.ipmiReqEntries ∧
      m'.ipmiReqEntriesTail = m.ipmiReqEntriesTail ∧ m'.entries.allocs = m.entries.allocs ∧
      m'.entries.Live p ∧ (∀ q, q ≠ p → m'.entries.load q = m.entries.load q) ∧
      ∀ d, e.msgData ≠ some d → m.messages.Live d → m'.messages.Live d := by
  have hlive : m.entries.Live p := Heap.live_iff.2 ⟨e, hload⟩
  unfold freeMessage
  rw [bind_ok (load_run hload)]
  cases hdata : e.msgData with
  | none => exact ⟨m, rfl, rfl, rfl, rfl, hlive, fun _ _ => rfl, fun _ _ h => h⟩
  | some d =>
    have hd := hmessage d hdata
    have hassign := assign_run (m := { m with messages := m.messages.free d }) hload
      fun x => { x with msgData := none }
    refine ⟨{ m with
        messages := m.messages.free d
        entries := m.entries.store p { e with msgData := none } }, ?_, rfl, rfl, Heap.put_allocs _ _ _,
      (Heap.live_store hlive _ p).2 hlive, fun q hq => ?_, fun d' hne hd' => ?_⟩
    · show (if m.messages.Live d then do
          modify fun m => { m with messages := m.messages.free d }
          assign (some p) fun x => { x with msgData := none }
        else throw .invalidPointer : ListM PUnit) m = _
      rw [if_pos hd]
      exact hassign
    · rw [Heap.load_store hlive, if_neg hq]
    · have hother : d' ≠ d := fun heq => hne (congrArg some heq.symm)
      show (m.messages.free d).Live d'
      unfold Heap.Live
      rw [Heap.load_free hd, if_neg hother]
      exact hd'

theorem pointers_split {s : Requests} {pre post : List Item} {x : Item} (hsplit : s.items = pre ++ x :: post) :
    s.pointers = pre.map Item.pointer ++ x.pointer :: post.map Item.pointer := by
  unfold Requests.pointers
  rw [hsplit, List.map_append, List.map_cons]

section removing
variable {m : Mem} {s : Requests} (h : Represents m s)
include h

theorem Represents.samePointer_eq {p q : Pointer} (hp : p ∈ s.pointers) (hq : q ∈ s.pointers) :
    samePointer (some p) (some q) = decide (p = q) := by
  rw [Bool.eq_iff_iff, decide_eq_true_eq]
  exact samePointer_iff (h.live hp) (h.live hq)

variable {pre post : List Item} {x : Item} (hsplit : s.items = pre ++ x :: post)
include hsplit

/-- The other requests are not the removed one. -/
theorem Represents.ne_removed {q : Pointer}
    (hq : q ∈ pre.map Item.pointer ∨ q ∈ post.map Item.pointer) : q ≠ x.pointer := by
  have hnodup := h.nodup
  rw [pointers_split hsplit, List.nodup_middle, List.nodup_cons, List.mem_append] at hnodup
  rintro rfl
  exact hnodup.1 hq

/-- The head moves on when the first request is removed. -/
theorem Represents.fixHead_eq {m₁ : Mem} (hhead : m₁.ipmiReqEntries = m.ipmiReqEntries) :
    Mem.fixHead (((pre.map Item.pointer).getLast?).or (some x.pointer)) (some x.pointer)
        (post.map Item.pointer).head? m₁ =
      { m₁ with ipmiReqEntries := ((pre ++ post).map Item.pointer).head? } := by
  have hpointers := pointers_split hsplit
  have hstart : m₁.ipmiReqEntries = s.pointers.head? := hhead.trans h.lists.links.start
  have hx : x.pointer ∈ s.pointers := by simp [hpointers]
  rw [hpointers] at hstart
  unfold Mem.fixHead
  cases pre with
  | nil =>
    have hsame : samePointer m₁.ipmiReqEntries (some x.pointer) = true := by
      rw [hstart]
      exact (h.samePointer_eq hx hx).trans (decide_eq_true rfl)
    show (if samePointer m₁.ipmiReqEntries (some x.pointer) = true then
      if (!samePointer m₁.ipmiReqEntries (some x.pointer)) = true then _ else _ else _) = _
    rw [hsame, if_pos rfl, if_neg (by decide)]
    rfl
  | cons a init =>
    have ha : a.pointer ∈ s.pointers := by simp [hpointers]
    have hne : a.pointer ≠ x.pointer := h.ne_removed hsplit (.inl (List.mem_map_of_mem List.mem_cons_self))
    have hsame : samePointer m₁.ipmiReqEntries (some x.pointer) = false := by
      rw [hstart]
      exact (h.samePointer_eq ha hx).trans (decide_eq_false hne)
    rw [hsame, if_neg Bool.false_ne_true]
    show m₁ = { m₁ with ipmiReqEntries := some a.pointer }
    rw [show some a.pointer = m₁.ipmiReqEntries from hstart.symm]

/-- The tail moves back when the last request is removed. -/
theorem Represents.fixTail_eq {m₁ : Mem} (htail : m₁.ipmiReqEntriesTail = m.ipmiReqEntriesTail) :
    Mem.fixTail (((pre.map Item.pointer).getLast?).or (some x.pointer)) (some x.pointer) m₁ =
      { m₁ with ipmiReqEntriesTail := ((pre ++ post).map Item.pointer).getLast? } := by
  have hpointers := pointers_split hsplit
  have hlast : m₁.ipmiReqEntriesTail = s.pointers.getLast? := htail.trans h.tail
  have hx : x.pointer ∈ s.pointers := by simp [hpointers]
  rw [hpointers] at hlast
  unfold Mem.fixTail
  cases post using List.reverseRecOn with
  | nil =>
    replace hlast : m₁.ipmiReqEntriesTail = some x.pointer := hlast.trans List.getLast?_concat
    have hsame : samePointer m₁.ipmiReqEntriesTail (some x.pointer) = true := by
      rw [hlast]
      exact (h.samePointer_eq hx hx).trans (decide_eq_true rfl)
    rw [hsame, if_pos rfl, List.append_nil]
    cases pre using List.reverseRecOn with
    | nil =>
      show (if (!samePointer m₁.ipmiReqEntriesTail (some x.pointer)) = true then _ else _) = _
      rw [hsame]
      rfl
    | append_singleton init a =>
      have ha : a.pointer ∈ s.pointers := by simp [hpointers]
      have hne : x.pointer ≠ a.pointer :=
        (h.ne_removed hsplit (.inl (List.mem_map_of_mem (List.mem_append_right _ List.mem_cons_self)))).symm
      have hother : samePointer m₁.ipmiReqEntriesTail (some a.pointer) = false := by
        rw [hlast]
        exact (h.samePointer_eq hx ha).trans (decide_eq_false hne)
      rw [List.map_append, List.map_singleton, List.getLast?_concat, Option.some_or, hother]
      rfl
  | append_singleton rest t =>
    have ht : t.pointer ∈ s.pointers := by simp [hpointers]
    have hne : t.pointer ≠ x.pointer :=
      h.ne_removed hsplit (.inr (List.mem_map_of_mem (List.mem_append_right _ List.mem_cons_self)))
    replace hlast : m₁.ipmiReqEntriesTail = some t.pointer := by
      rw [hlast, List.map_append, List.map_singleton, ← List.cons_append, ← List.append_assoc, List.getLast?_concat]
    have hsame : samePointer m₁.ipmiReqEntriesTail (some x.pointer) = false := by
      rw [hlast]
      exact (h.samePointer_eq ht hx).trans (decide_eq_false hne)
    rw [hsame, if_neg Bool.false_ne_true, ← List.append_assoc, List.map_append, List.map_singleton,
      List.getLast?_concat, ← hlast]

/-- The memory without an entry whose predecessor points to the next one. -/
theorem Represents.removed {m' : Mem} (hhead : m'.ipmiReqEntries = ((pre ++ post).map Item.pointer).head?)
    (htail : m'.ipmiReqEntriesTail = ((pre ++ post).map Item.pointer).getLast?)
    (hallocs : m'.entries.allocs = m.entries.allocs)
    (hmessages : ∀ d, (∀ e, m.entries.load x.pointer = some e → e.msgData ≠ some d) → m.messages.Live d →
      m'.messages.Live d)
    (hload : ∀ q, m'.entries.load q = if q = x.pointer then none
      else if some q = (pre.map Item.pointer).getLast? then
        (m.entries.load q).map fun e => { e with next := (post.map Item.pointer).head? }
      else m.entries.load q) : Represents m' { s with items := pre ++ post } := by
  have hpointers := pointers_split hsplit
  have hnodup := h.nodup
  have hlists := h.lists
  rw [hpointers, List.nodup_middle, List.nodup_cons] at hnodup
  have hdisjoint := (List.nodup_append.1 hnodup.2).2.2
  have hlinks : Linked m.next m.ipmiReqEntries s.pointers none := hlists.links
  rw [hpointers] at hlinks
  have hunlinked : Linked m'.next m'.ipmiReqEntries (pre.map Item.pointer ++ post.map Item.pointer) none := by
    rw [hhead, List.map_append]
    refine hlinks.unlink (List.nodup_append.1 hnodup.2).1 (fun t ht => ?_) (fun y hy hlast => ?_) fun y hy => ?_
    · have hmem : t ∈ pre.map Item.pointer := List.mem_of_getLast? ht
      obtain ⟨e, he⟩ := Heap.live_iff.1 (h.live (p := t) (hpointers ▸ List.mem_append_left _ hmem))
      rw [hlinks.next_eq, Mem.next, hload, if_neg (h.ne_removed hsplit (.inl hmem)), if_pos ht.symm, he]
      rfl
    · have hnot : ¬ some y = (pre.map Item.pointer).getLast? := fun heq => hlast heq.symm
      rw [Mem.next, Mem.next, hload, if_neg (h.ne_removed hsplit (.inl hy)), if_neg hnot]
    · -- the links behind the entry are as before
      have hnot : ¬ some y = (pre.map Item.pointer).getLast? := fun hlast =>
        hdisjoint y (List.mem_of_getLast? hlast.symm) y hy rfl
      rw [Mem.next, Mem.next, hload, if_neg (h.ne_removed hsplit (.inr hy)), if_neg hnot]
  have hfound : ∀ y ∈ pre ++ post,
      (m'.entries.load y.pointer).map (Entry.rq y.entry.alloc) = some y.entry := by
    intro y hy
    have hne : y.pointer ≠ x.pointer := by
      rcases List.mem_append.1 hy with hy | hy
      · exact h.ne_removed hsplit (.inl (List.mem_map_of_mem hy))
      · exact h.ne_removed hsplit (.inr (List.mem_map_of_mem hy))
    have hmem : y ∈ s.items := by
      rw [hsplit]
      rcases List.mem_append.1 hy with hy | hy
      · exact List.mem_append_left _ hy
      · exact List.mem_append_right _ (.tail _ hy)
    rw [hload, if_neg hne, ← hlists.content y hmem]
    split
    · rw [Option.map_map]
      rfl
    · rfl
  have hbefore : ∀ q e, m'.entries.load q = some e →
      q ≠ x.pointer ∧ ∃ e', m.entries.load q = some e' ∧ e'.msgData = e.msgData := by
    intro q e hq
    rw [hload] at hq
    split at hq
    · cases hq
    · rename_i hne
      refine ⟨hne, ?_⟩
      split at hq
      · obtain ⟨e', he', rfl⟩ := Option.map_eq_some_iff.1 hq
        exact ⟨e', he', rfl⟩
      · exact ⟨e, hq, rfl⟩
  constructor
  · refine ⟨?_, hfound, ?_⟩
    · rw [List.map_append]
      exact hunlinked
    · rw [List.map_append]
      exact hnodup.2
  · exact htail
  · intro q hlive
    obtain ⟨e, he⟩ := Heap.live_iff.1 hlive
    obtain ⟨hne, e', he', -⟩ := hbefore q e he
    have hq := h.used q (Heap.live_iff.2 ⟨e', he'⟩)
    rw [hpointers] at hq
    show q ∈ (pre ++ post).map Item.pointer
    rw [List.map_append, List.mem_append]
    rcases List.mem_append.1 hq with hq | hq
    · exact .inl hq
    · exact .inr ((List.mem_cons.1 hq).resolve_left hne)
  · have horder := h.order
    rw [hsplit] at horder
    refine horder.sublist (List.Sublist.map _ ?_)
    exact (List.Sublist.refl pre).append (List.sublist_cons_self x post)
  · exact hallocs.trans h.allocs
  · constructor
    · intro p e d hp hdata
      obtain ⟨hne, e', he', hsame⟩ := hbefore p e hp
      rw [← hsame] at hdata
      refine hmessages d (fun c hc hcd => hne ?_) (h.owned.live p e' d he' hdata)
      exact h.owned.unique p x.pointer e' c d he' hc hdata hcd
    · intro p q e c d hp hq hdata hdata'
      obtain ⟨-, e', he', hsame⟩ := hbefore p e hp
      obtain ⟨-, c', hc', hsame'⟩ := hbefore q c hq
      exact h.owned.unique p q e' c' d he' hc' (hsame.trans hdata) (hsame'.trans hdata')

/-- The link in the removed entry leads to the request behind it. -/
theorem Represents.removed_next {e : Entry} (hload : m.entries.load x.pointer = some e) :
    e.next = (post.map Item.pointer).head? := by
  have hlinks : Linked m.next m.ipmiReqEntries s.pointers none := h.lists.links
  rw [pointers_split hsplit] at hlinks
  have hnext := hlinks.next_eq
  rw [Mem.next, hload] at hnext
  exact Option.some.inj hnext

/-- The assignment to `p->next`: `p` is the predecessor, or the entry itself when it is the first one. -/
theorem Represents.prev_next {e : Entry} (hload : m.entries.load x.pointer = some e) :
    ∃ p y, ((pre.map Item.pointer).getLast?).or (some x.pointer) = some p ∧ m.entries.load p = some y ∧
      (p = x.pointer → y = e) ∧
      ∀ q, q ≠ x.pointer →
        (m.entries.store p { y with next := if samePointer y.next e.next then none else e.next }).load q =
          if some q = (pre.map Item.pointer).getLast? then
            (m.entries.load q).map fun e => { e with next := (post.map Item.pointer).head? }
          else m.entries.load q := by
  have hpointers := pointers_split hsplit
  have hlinks : Linked m.next m.ipmiReqEntries s.pointers none := h.lists.links
  rw [hpointers] at hlinks
  have hnext := h.removed_next hsplit hload
  cases pre using List.reverseRecOn with
  | nil =>
    refine ⟨x.pointer, e, rfl, hload, fun _ => rfl, fun q hq => ?_⟩
    rw [Heap.load_store (Heap.live_iff.2 ⟨e, hload⟩), if_neg hq]
    exact (if_neg (Option.some_ne_none q)).symm
  | append_singleton init a =>
    rw [List.map_append, List.map_singleton] at hlinks hpointers ⊢
    have ha : a.pointer ∈ s.pointers := by simp [hpointers]
    have hx : x.pointer ∈ s.pointers := by simp [hpointers]
    have hne : a.pointer ≠ x.pointer :=
      h.ne_removed hsplit (.inl (List.mem_map_of_mem (List.mem_append_right _ List.mem_cons_self)))
    obtain ⟨y, hy⟩ := Heap.live_iff.1 (h.live ha)
    have hynext : y.next = some x.pointer := by
      rw [List.append_assoc] at hlinks
      have hlink := hlinks.next_eq
      rw [Mem.next, hy] at hlink
      exact Option.some.inj hlink
    have hother : samePointer y.next e.next = false := by
      rw [hynext, hnext]
      cases post with
      | nil => rfl
      | cons z rest =>
        have hz : z.pointer ∈ s.pointers := by simp [hpointers]
        refine (h.samePointer_eq hx hz).trans (decide_eq_false fun heq => ?_)
        exact h.ne_removed hsplit (.inr (List.mem_map_of_mem List.mem_cons_self)) heq.symm
    refine ⟨a.pointer, y, ?_, hy, fun heq => absurd heq hne, fun q hq => ?_⟩
    · rw [List.getLast?_concat]
      rfl
    · rw [Heap.load_store (Heap.live_iff.2 ⟨y, hy⟩), List.getLast?_concat, hother, if_neg Bool.false_ne_true,
        hnext]
      by_cases hqa : q = a.pointer
      · rw [if_pos hqa, if_pos (congrArg some hqa), hqa, hy]
        rfl
      · rw [if_neg hqa, if_neg fun hsome => hqa (Option.some.inj hsome)]

/-- **Unlinking** an entry, whether it is the first one, the last one, both or neither. -/
theorem unlinkEntry_run : ∃ m', unlinkEntry (((pre.map Item.pointer).getLast?).or (some x.pointer))
    (some x.pointer) m = .ok ⟨⟩ m' ∧ Represents m' { s with items := pre ++ post } := by
  have hx : x.pointer ∈ s.pointers := by simp [pointers_split hsplit]
  obtain ⟨e, he⟩ := Heap.live_iff.1 (h.live hx)
  have hnext := h.removed_next hsplit he
  obtain ⟨p, y, hp, hy, hsame, hstored⟩ := h.prev_next hsplit he
  have hylive : m.entries.Live p := Heap.live_iff.2 ⟨y, hy⟩
  obtain ⟨y', hy'⟩ : ∃ y' : Entry,
      y' = { y with next := if samePointer y.next e.next then none else e.next } := ⟨_, rfl⟩
  rw [← hy'] at hstored
  have hassign : assign (some p)
      (fun z => { z with next := if samePointer y.next e.next then none else e.next }) m =
      .ok ⟨⟩ { m with entries := m.entries.store p y' } := by
    rw [hy']
    exact assign_run hy fun z => { z with next := if samePointer y.next e.next then none else e.next }
  -- the memory with the links that have been repaired
  obtain ⟨m₁, hm₁⟩ : ∃ m₁ : Mem, m₁ =
      { m with
        entries := m.entries.store p y'
        ipmiReqEntries := ((pre ++ post).map Item.pointer).head?
        ipmiReqEntriesTail := ((pre ++ post).map Item.pointer).getLast? } := ⟨_, rfl⟩
  have hfixed : Mem.fixTail (some p) (some x.pointer) (Mem.fixHead (some p) (some x.pointer) e.next
      { m with entries := m.entries.store p y' }) = m₁ := by
    rw [← hp, hnext, h.fixHead_eq hsplit, h.fixTail_eq hsplit, hm₁]
    · rfl
    · rfl
  obtain ⟨e', he', hdata⟩ : ∃ e', m₁.entries.load x.pointer = some e' ∧ e'.msgData = e.msgData := by
    rw [hm₁]
    show ∃ e', (m.entries.store p y').load x.pointer = some e' ∧ _
    rw [Heap.load_store hylive]
    by_cases hpx : x.pointer = p
    · rw [if_pos hpx]
      refine ⟨y', rfl, ?_⟩
      rw [hy', hsame hpx.symm]
    · rw [if_neg hpx]
      exact ⟨e, he, rfl⟩
  have hmessage : ∀ d, e'.msgData = some d → m₁.messages.Live d := by
    intro d hd
    rw [hm₁]
    exact h.owned.live x.pointer e d he (hdata ▸ hd)
  obtain ⟨m₂, hfreed, hhead, htail, hallocs, hlive, hrest, hmessages⟩ := freeMessage_run he' hmessage
  obtain ⟨c, hc⟩ := Heap.live_iff.1 hlive
  refine ⟨{ m₂ with entries := m₂.entries.free x.pointer }, ?_, ?_⟩
  · rw [hp]
    unfold unlinkEntry
    rw [bind_ok (load_run he), bind_ok (load_run hy), bind_ok hassign]
    show (freeMessage (some x.pointer) >>= fun _ => free (some x.pointer)) (Mem.fixTail (some p) (some x.pointer)
      (Mem.fixHead (some p) (some x.pointer) e.next { m with entries := m.entries.store p y' })) = _
    rw [hfixed, bind_ok hfreed]
    exact free_run hc
  · refine h.removed hsplit ?_ ?_ ?_ (fun d hother hd => ?_) fun q => ?_
    · rw [hhead, hm₁]
    · rw [htail, hm₁]
    · show (m₂.entries.free x.pointer).allocs = _
      rw [Heap.free, Heap.put_allocs, hallocs, hm₁]
      exact Heap.put_allocs _ _ _
    · refine hmessages d ?_ (hm₁ ▸ hd)
      rw [hdata]
      exact hother e he
    · show (m₂.entries.free x.pointer).load q = _
      rw [Heap.load_free hlive]
      by_cases hq : q = x.pointer
      · rw [if_pos hq, if_pos hq]
      · rw [if_neg hq, if_neg hq, hrest q hq, hm₁]
        exact hstored q hq

end removing

/-- **Removing** the first request with the key. -/
theorem ipmiReqRemoveEntry_run {m : Mem} {s : Requests} (h : Represents m s) {fuel : Nat}
    (hfuel : s.items.length < fuel) (seq cmd : UInt8) : ∃ m', ipmiReqRemoveEntry fuel seq cmd m = .ok ⟨⟩ m' ∧
      Represents m' { s with items := s.items.eraseP (Item.hasKey seq cmd) } := by
  obtain ⟨hnone, hfound⟩ := removeLoop_run seq cmd (q := m.ipmiReqEntries) hfuel h.lists
  unfold ipmiReqRemoveEntry
  rw [get_bind_apply]
  cases hfind : s.items.find? (Item.hasKey seq cmd) with
  | none =>
    obtain ⟨q, hloop⟩ := hnone hfind
    rw [List.eraseP_of_forall_not (List.find?_eq_none.1 hfind), bind_ok hloop]
    exact ⟨m, rfl, h⟩
  | some x =>
    obtain ⟨hx, pre, post, hsplit, hpre⟩ := List.find?_eq_some_iff_append.1 hfind
    have hskipped : ∀ y ∈ pre, ¬ y.hasKey seq cmd = true := by
      intro y hy hkey
      have hnot := hpre y hy
      rw [hkey] at hnot
      cases hnot
    have hprev : ((pre.map Item.pointer).getLast?).or m.ipmiReqEntries =
        ((pre.map Item.pointer).getLast?).or (some x.pointer) := by
      cases pre using List.reverseRecOn with
      | nil =>
        rw [h.lists.links.start, hsplit]
        rfl
      | append_singleton init a => rw [List.map_append, List.map_singleton, List.getLast?_concat]; rfl
    have hloop := hfound pre x post hsplit hskipped hx
    rw [hprev] at hloop
    have herased : s.items.eraseP (Item.hasKey seq cmd) = pre ++ post := by
      rw [hsplit, List.eraseP_append_right _ hskipped, List.eraseP_cons_of_pos hx]
    rw [herased, bind_ok hloop]
    exact unlinkEntry_run h hsplit

/-! ### Clearing, and the writes of the callers -/

/-- The loop frees every entry of the list. -/
theorem clearLoop_run {items : List Item} : ∀ {m : Mem} {fuel : Nat} {p : Option Pointer}, items.length < fuel →
    Lists m p items → ∃ entries, clearLoop fuel p m = .ok ⟨⟩ { m with entries := entries } ∧
      entries.allocs = m.entries.allocs ∧
      ∀ q, entries.load q = if q ∈ items.map Item.pointer then none else m.entries.load q := by
  induction items with
  | nil =>
    intro m fuel p hfuel h
    obtain ⟨fuel, rfl⟩ := exists_fuel hfuel
    obtain rfl : p = none := h.links
    exact ⟨m.entries, rfl, rfl, fun q => rfl⟩
  | cons x rest ih =>
    intro m fuel p hfuel h
    obtain ⟨fuel, rfl⟩ := exists_fuel hfuel
    obtain ⟨rfl, e, hload, -, hrest, -⟩ := h.cons
    have hlive : m.entries.Live x.pointer := h.live List.mem_cons_self
    have hfree := Heap.load_free hlive
    have hfresh : ∀ y ∈ rest.map Item.pointer, y ≠ x.pointer := by
      rintro y hy rfl
      exact (List.nodup_cons.1 h.nodup).1 hy
    have hrest' : Lists { m with entries := m.entries.free x.pointer } e.next rest := by
      refine ⟨hrest.links.congr fun y hy => ?_, fun y hy => ?_, hrest.nodup⟩
      · show ((m.entries.free x.pointer).load y).map Entry.next = _
        rw [hfree, if_neg (hfresh y hy)]
        rfl
      · show ((m.entries.free x.pointer).load y.pointer).map _ = _
        rw [hfree, if_neg (hfresh _ (List.mem_map_of_mem hy))]
        exact hrest.content y hy
    obtain ⟨entries, hrun, hallocs, hloads⟩ := ih (Nat.lt_of_succ_lt_succ hfuel) hrest'
    refine ⟨entries, ?_, hallocs.trans (Heap.put_allocs _ _ _), fun q => ?_⟩
    · rw [clearLoop_some hload]
      exact hrun
    · rw [hloads]
      dsimp only
      rw [hfree, List.map_cons]
      by_cases hq : q = x.pointer
      · simp [hq]
      · simp [hq]

/-- The memory without entries. -/
theorem represents_empty {m : Mem} (hhead : m.ipmiReqEntries = none) (htail : m.ipmiReqEntriesTail = none)
    (hempty : ∀ q, m.entries.load q = none) : Represents m ⟨[], m.entries.allocs⟩ where
  lists := ⟨hhead, List.forall_mem_nil _, List.nodup_nil⟩
  tail := htail
  used := fun q hlive => absurd hlive (Heap.not_live_iff.2 (hempty q))
  order := List.Pairwise.nil
  allocs := rfl
  owned := by
    refine ⟨fun p e d hp => ?_, fun p q e e' d hp => ?_⟩
    · exact absurd (hp.symm.trans (hempty p)) (Option.some_ne_none e)
    · exact absurd (hp.symm.trans (hempty p)) (Option.some_ne_none e)

theorem ipmiReqClearEntries_run {m : Mem} {s : Requests} (h : Represents m s) {fuel : Nat}
    (hfuel : s.items.length < fuel) : ∃ m', ipmiReqClearEntries fuel m = .ok ⟨⟩ m' ∧
      Represents m' { s with items := [] } := by
  obtain ⟨entries, hrun, hallocs, hloads⟩ := clearLoop_run hfuel h.lists
  have hempty : ∀ q, entries.load q = none := by
    intro q
    rw [hloads]
    split
    · rfl
    · rename_i hq
      exact Heap.not_live_iff.1 fun hlive => hq (h.used q hlive)
  refine ⟨{ m with entries := entries, ipmiReqEntries := none, ipmiReqEntriesTail := none }, ?_, ?_⟩
  · unfold ipmiReqClearEntries
    rw [get_bind_apply, bind_ok hrun]
    rfl
  · rw [← h.allocs, ← hallocs]
    exact represents_empty rfl rfl hempty

/-- The memory with other contents, but the same link, in one entry. -/
theorem Represents.rewritten {m m' : Mem} {s s' : Requests} (h : Represents m s) {p : Pointer} {e : Entry}
    (he : m.entries.load p = some e) (e' : Entry) (hnext : e'.next = e.next)
    (hitems : s'.items = s.items.map fun x => if x.pointer = p then { x with entry := e'.rq x.entry.alloc } else x)
    (hallocs : s'.allocs = s.allocs) (hhead : m'.ipmiReqEntries = m.ipmiReqEntries)
    (htail : m'.ipmiReqEntriesTail = m.ipmiReqEntriesTail) (hentries : m'.entries = m.entries.store p e')
    (howned : Owned m') : Represents m' s' := by
  have hlive : m.entries.Live p := Heap.live_iff.2 ⟨e, he⟩
  have hload : ∀ q, m'.entries.load q = if q = p then some e' else m.entries.load q := by
    intro q
    rw [hentries, Heap.load_store hlive]
  have hsame : ∀ x : Item, (if x.pointer = p then { x with entry := e'.rq x.entry.alloc } else x).pointer =
      x.pointer ∧ (if x.pointer = p then { x with entry := e'.rq x.entry.alloc } else x).entry.alloc =
      x.entry.alloc := by
    intro x
    split
    · exact ⟨rfl, rfl⟩
    · exact ⟨rfl, rfl⟩
  have hpointers : s'.items.map Item.pointer = s.items.map Item.pointer := by
    rw [hitems, List.map_map]
    exact List.map_congr_left fun x _ => (hsame x).1
  have hlink : ∀ q, m'.next q = m.next q := by
    intro q
    rw [Mem.next, Mem.next, hload]
    split
    · rename_i hq
      rw [hq, he]
      exact congrArg some hnext
    · rfl
  constructor
  · refine ⟨?_, fun y hy => ?_, ?_⟩
    · rw [hpointers, hhead]
      exact h.lists.links.congr fun q _ => hlink q
    · rw [hitems] at hy
      obtain ⟨x, hx, rfl⟩ := List.mem_map.1 hy
      rw [(hsame x).1, (hsame x).2, hload]
      split
      · rfl
      · exact h.lists.content x hx
    · rw [hpointers]
      exact h.nodup
  · rw [htail, h.tail]
    exact congrArg List.getLast? hpointers.symm
  · intro q hq
    show q ∈ s'.items.map Item.pointer
    rw [hpointers]
    refine h.used q ?_
    rwa [hentries, Heap.live_store hlive] at hq
  · have horder : (s'.items.map fun x => x.entry.alloc) = s.items.map fun x => x.entry.alloc := by
      rw [hitems, List.map_map]
      exact List.map_congr_left fun x _ => (hsame x).2
    rw [horder]
    exact h.order
  · rw [hallocs, ← h.allocs, hentries]
    exact Heap.put_allocs _ _ _
  · exact howned

/-- A pointer that no request has. -/
theorem write_of_not_mem {s : Requests} {p : Pointer} (hp : p ∉ s.pointers) (msg : RqMsg) (seq : UInt8)
    (level : Nat) : s.write p msg seq level = s := by
  unfold Requests.write
  congr 1
  refine (List.map_congr_left fun x hx => if_neg ?_).trans (List.map_id _)
  rintro rfl
  exact hp (List.mem_map_of_mem hx)

theorem writeEntry_run {m : Mem} {s : Requests} (h : Represents m s) (p : Pointer) (msg : RqMsg) (seq : UInt8)
    (level : Nat) : ∃ m', writeEntry p msg seq level m = .ok ⟨⟩ m' ∧
      Represents m' (s.write p msg seq level) := by
  unfold writeEntry
  rw [get_bind_apply]
  by_cases hlive : m.entries.Live p
  · obtain ⟨e, he⟩ := Heap.live_iff.1 hlive
    rw [if_pos hlive]
    refine ⟨_, assign_run he _,
      h.rewritten he { e with msg := msg, rqSeq := seq, bridgingLevel := level } rfl rfl rfl rfl rfl rfl ?_⟩
    refine h.owned.mono rfl fun q c d hq hd => ?_
    rcases Heap.load_store_cases hlive hq with ⟨rfl, rfl⟩ | hq
    · exact ⟨e, he, hd⟩
    · exact ⟨c, hq, hd⟩
  · rw [if_neg hlive, write_of_not_mem fun hp => hlive (h.live hp)]
    exact ⟨m, rfl, h⟩

/-- A new message for one entry. -/
theorem Owned.attached {m m' : Mem} (h : Owned m) {p d : Pointer} {addr : Nat} {message : List UInt8}
    {messages : Heap (List UInt8)} (hlive : m.entries.Live p)
    (hmalloc : m.messages.malloc addr message = some (d, messages)) (e : Entry) (hdata : e.msgData = some d)
    (hentries : m'.entries = m.entries.store p e) (hmessages : m'.messages = messages) : Owned m' := by
  have hload : ∀ q c, m'.entries.load q = some c → q = p ∧ c = e ∨ m.entries.load q = some c := by
    intro q c hq
    rw [hentries] at hq
    exact Heap.load_store_cases hlive hq
  -- the other messages were in use before, so the new one is none of them
  have hold : ∀ q c d', m.entries.load q = some c → c.msgData = some d' → d' ≠ d ∧ m.messages.Live d' := by
    intro q c d' hq hd'
    have hlive' := h.live q c d' hq hd'
    refine ⟨?_, hlive'⟩
    rintro rfl
    exact Heap.malloc_fresh hmalloc hlive'
  constructor
  · intro q c d' hq hd'
    rw [hmessages]
    unfold Heap.Live
    rw [Heap.load_malloc hmalloc]
    rcases hload q c hq with ⟨-, rfl⟩ | hq
    · rw [if_pos (Option.some.inj (hd'.symm.trans hdata))]
      rfl
    · obtain ⟨hne, hlive'⟩ := hold q c d' hq hd'
      rw [if_neg hne]
      exact hlive'
  · intro q r c c' d' hq hr hd' hd''
    rcases hload q c hq with ⟨rfl, rfl⟩ | hq
    · rcases hload r c' hr with ⟨rfl, rfl⟩ | hr
      · rfl
      · exact absurd (Option.some.inj (hd'.symm.trans hdata)) (hold r c' d' hr hd'').1
    · rcases hload r c' hr with ⟨rfl, rfl⟩ | hr
      · exact absurd (Option.some.inj (hd''.symm.trans hdata)) (hold q c d' hq hd').1
      · exact h.unique q r c c' d' hq hr hd' hd''

theorem attachMessage_run {m : Mem} {s : Requests} (h : Represents m s) (p : Pointer) (message : List UInt8)
    (choice : Option Nat) : ∃ m', attachMessage p message choice m = .ok ⟨⟩ m' ∧ Represents m' s := by
  unfold attachMessage
  rw [get_bind_apply]
  by_cases hlive : m.entries.Live p
  · obtain ⟨e, he⟩ := Heap.live_iff.1 hlive
    rw [if_pos hlive]
    cases hmalloc : choice.bind fun addr => m.messages.malloc addr message with
    | none => exact ⟨m, rfl, h⟩
    | some r =>
      obtain ⟨d, messages⟩ := r
      obtain ⟨addr, -, haddr⟩ := Option.bind_eq_some_iff.1 hmalloc
      have hassign := assign_run (m := { m with messages := messages }) he fun x => { x with msgData := some d }
      refine ⟨_, hassign, h.rewritten he { e with msgData := some d } rfl ?_ rfl rfl rfl rfl ?_⟩
      · refine ((List.map_congr_left fun x hx => ?_).trans (List.map_id _)).symm
        split
        · rename_i hx'
          have hcontent := h.lists.content x hx
          rw [hx', he] at hcontent
          have hrq : e.rq x.entry.alloc = x.entry := Option.some.inj hcontent
          show { x with entry := e.rq x.entry.alloc } = x
          rw [hrq]
        · rfl
      · exact h.owned.attached hlive haddr _ rfl rfl rfl
  · rw [if_neg hlive]
    exact ⟨m, rfl, h⟩

/-! ### Runs -/

/-- **An operation** does to the memory what it does to the list. -/
theorem step_represents {m : Mem} {s : Requests} (h : Represents m s) {fuel : Nat}
    (hfuel : s.items.length < fuel) (op : Op) :
    ∃ m', op.run fuel m = .ok (s.step op).1 m' ∧ Represents m' (s.step op).2 := by
  cases op with
  | add msg seq choice => exact ipmiReqAddEntry_run h msg seq choice
  | lookup seq cmd =>
    refine ⟨m, ?_, h⟩
    exact lookupLoop_run seq cmd hfuel h.lists
  | remove seq cmd =>
    obtain ⟨m', hrun, hm'⟩ := ipmiReqRemoveEntry_run h hfuel seq cmd
    exact ⟨m', bind_ok hrun, hm'⟩
  | clear =>
    obtain ⟨m', hrun, hm'⟩ := ipmiReqClearEntries_run h hfuel
    exact ⟨m', bind_ok hrun, hm'⟩
  | write p msg seq level =>
    obtain ⟨m', hrun, hm'⟩ := writeEntry_run h p msg seq level
    exact ⟨m', bind_ok hrun, hm'⟩
  | attach p message choice =>
    obtain ⟨m', hrun, hm'⟩ := attachMessage_run h p message choice
    exact ⟨m', bind_ok hrun, hm'⟩

theorem initial_represents : Represents .initial .initial := represents_empty rfl rfl fun _ => rfl

/-- An operation adds at most one request. -/
theorem length_step_le (s : Requests) (op : Op) : (s.step op).2.items.length ≤ s.items.length + 1 := by
  cases op with
  | add msg seq choice =>
    show ((s.malloc choice).elim s fun p => s.add p msg seq).items.length ≤ _
    cases s.malloc choice with
    | none => exact Nat.le_succ _
    | some p => exact Nat.le_of_eq (List.length_append ..)
  | lookup seq cmd => exact Nat.le_succ _
  | remove seq cmd => exact Nat.le_succ_of_le List.length_eraseP_le
  | clear => exact Nat.zero_le _
  | write p msg seq level => exact Nat.le_succ_of_le (Nat.le_of_eq (List.length_map ..))
  | attach p message choice => exact Nat.le_succ _

/-- A run from a memory that holds requests. -/
theorem run_from {fuel : Nat} (ops : List Op) : ∀ {m : Mem} {s : Requests}, Represents m s →
    s.items.length + ops.length ≤ fuel →
      ∃ m', run fuel ops m = .ok (s.run ops).1 m' ∧ Represents m' (s.run ops).2 := by
  induction ops with
  | nil => exact fun h _ => ⟨_, rfl, h⟩
  | cons op rest ih =>
    intro m s h hfuel
    have hlength := length_step_le s op
    rw [List.length_cons] at hfuel
    have hbound : s.items.length < fuel := by omega
    obtain ⟨m₁, hstep, h₁⟩ := step_represents h hbound op
    obtain ⟨m₂, hrest, h₂⟩ := ih h₁ (by omega)
    refine ⟨m₂, ?_, h₂⟩
    show (op.run fuel >>= fun p => run fuel rest >>= fun ps => return p :: ps) m = _
    rw [bind_ok hstep, bind_ok hrest]
    rfl

/-- Through a pointer to a block that has been freed there is no access. -/
theorem load_dead {m : Mem} {p : Pointer} (hdead : m.entries.Dead p) :
    load (some p) m = .error .invalidPointer m := by
  rw [load, get_bind_apply, Heap.not_live_iff.1 hdead.freed]
  rfl

/-- A request that is not in the list any more has been freed. -/
theorem Represents.dead {m : Mem} {s : Requests} (h : Represents m s) {p : Pointer} (hmade : p.alloc < s.allocs)
    (hgone : p ∉ s.pointers) : m.entries.Dead p where
  made := h.allocs ▸ hmade
  freed := fun hlive => hgone (h.used p hlive)

/-- **The list of pending requests**: every run returns, without an access to NULL or to a freed entry, what the
operations on the list return, and leaves a memory that represents the list; what is not in the list any more
has been freed, so that an access would have stopped the run. -/
theorem run_represents (ops : List Op) {fuel : Nat} (hfuel : ops.length ≤ fuel) :
    ∃ m, run fuel ops .initial = .ok (Requests.initial.run ops).1 m ∧ Represents m (Requests.initial.run ops).2 ∧
      ∀ p, p.alloc < (Requests.initial.run ops).2.allocs → p ∉ (Requests.initial.run ops).2.pointers →
        load (some p) m = .error .invalidPointer m := by
  have hlength : Requests.initial.items.length + ops.length ≤ fuel := by
    rw [show Requests.initial.items.length = 0 from rfl, Nat.zero_add]
    exact hfuel
  obtain ⟨m, hrun, hm⟩ := run_from ops initial_represents hlength
  exact ⟨m, hrun, hm, fun p hmade hgone => load_dead (hm.dead hmade hgone)⟩

/-- Two requests with one key, whose first one is removed, and a third one at its address. -/
def reused : List Op :=
  [.add ⟨1, 0⟩ 4 (some 100), .add ⟨1, 0⟩ 4 (some 200), .remove 4 1, .lookup 4 1, .add ⟨2, 0⟩ 5 (some 100)]

theorem reused_represents : ∃ m,
    run 5 reused .initial = .ok [some ⟨100, 0⟩, some ⟨200, 1⟩, none, some ⟨200, 1⟩, some ⟨100, 2⟩] m ∧
      Represents m ⟨[⟨200, ⟨1, ⟨1, 0⟩, 4, 0⟩⟩, ⟨100, ⟨2, ⟨2, 0⟩, 5, 0⟩⟩], 3⟩ ∧
      load (some ⟨100, 0⟩) m = .error .invalidPointer m := by
  obtain ⟨m, hrun, hm, hgone⟩ := run_represents reused (show reused.length ≤ 5 by decide)
  exact ⟨m, hrun, hm, hgone ⟨100, 0⟩ (by decide) (by decide)⟩

/-! ### The list of the other modules -/

theorem entries_remove (s : Requests) (seq cmd : UInt8) :
    (s.step (.remove seq cmd)).2.entries = Lanplus.ipmiReqRemoveEntry seq cmd s.entries := by
  unfold Requests.entries Lanplus.ipmiReqRemoveEntry
  rw [List.eraseP_map]
  rfl

theorem lookup_alloc (s : Requests) (seq cmd : UInt8) : (s.step (.lookup seq cmd)).1.map Pointer.alloc =
    (Lanplus.ipmiReqLookupEntry seq cmd s.entries).map RqEntry.alloc := by
  unfold Requests.entries Lanplus.ipmiReqLookupEntry
  rw [List.find?_map, Option.map_map]
  show ((s.items.find? (Item.hasKey seq cmd)).map Item.pointer).map Pointer.alloc = _
  rw [Option.map_map]
  rfl

/-- The caller fills in the request that it has added. -/
theorem entries_add {m : Mem} {s : Requests} (h : Represents m s) {choice : Option Nat} {p : Pointer}
    (hmalloc : s.malloc choice = some p) (msg msg' : RqMsg) (seq seq' : UInt8) (level : Nat) :
    ((s.step (.add msg seq choice)).2.step (.write p msg' seq' level)).2.entries =
      s.entries ++ [⟨s.allocs, msg', seq', level⟩] := by
  have halloc : p.alloc = s.allocs := by
    obtain ⟨addr, -, haddr⟩ := Option.bind_eq_some_iff.1 hmalloc
    split at haddr
    · cases haddr
    · cases haddr
      rfl
  have hadded : (s.step (.add msg seq choice)).2 = s.add p msg seq := by
    show (s.malloc choice).elim s (fun p => s.add p msg seq) = _
    rw [hmalloc]
    rfl
  -- the requests before it have other pointers
  have hold : ∀ x ∈ s.items, x.pointer ≠ p := by
    rintro x hx rfl
    have hlt := h.alloc_lt (List.mem_map_of_mem hx)
    rw [halloc] at hlt
    exact Nat.lt_irrefl _ hlt
  rw [hadded]
  show (List.map _ (s.items ++ [_])).map Item.entry = _
  rw [List.map_append, List.map_append, List.map_congr_left fun x hx => if_neg (hold x hx), List.map_id',
    ← halloc]
  exact congrArg (s.entries ++ ·) (congrArg (fun x : Item => [x.entry]) (if_pos rfl))

/-- A write to the first request with the key, by induction on the list. -/
theorem write_first {seq cmd : UInt8} {f : RqEntry → RqEntry} {x : Item} {msg : RqMsg} {seq' : UInt8} {level : Nat}
    (hf : f x.entry = ⟨x.entry.alloc, msg, seq', level⟩) : ∀ {items : List Item},
      (items.map Item.pointer).Nodup → items.find? (Item.hasKey seq cmd) = some x →
        (items.map fun y =>
          if y.pointer = x.pointer then { y with entry := ⟨y.entry.alloc, msg, seq', level⟩ } else y).map Item.entry =
            updateEntry seq cmd f (items.map Item.entry) := by
  intro items hnodup hfind
  induction items with
  | nil => cases hfind
  | cons y rest ih =>
    rw [List.map_cons, List.nodup_cons] at hnodup
    simp only [List.map_cons, updateEntry]
    by_cases hkey : y.hasKey seq cmd = true
    · rw [List.find?_cons_of_pos hkey] at hfind
      obtain rfl := Option.some.inj hfind
      have hentry : y.entry.hasKey seq cmd = true := hkey
      rw [if_pos rfl, if_pos hentry, hf]
      -- the requests behind it have other pointers
      have hrest : ∀ z ∈ rest, z.pointer ≠ y.pointer := fun z hz hsame =>
        hnodup.1 (hsame ▸ List.mem_map_of_mem hz)
      rw [List.map_congr_left fun z hz => if_neg (hrest z hz), List.map_id']
    · rw [List.find?_cons_of_neg hkey] at hfind
      have hne : y.pointer ≠ x.pointer := fun hsame =>
        hnodup.1 (hsame ▸ List.mem_map_of_mem (List.mem_of_find?_eq_some hfind))
      have hentry : ¬ y.entry.hasKey seq cmd = true := hkey
      rw [if_neg hne, if_neg hentry, ih hnodup.2 hfind]

/-- A write of a caller through the pointer of a lookup is `updateEntry`. -/
theorem entries_write {m : Mem} {s : Requests} (h : Represents m s) {seq cmd : UInt8} {x : Item}
    (hfind : s.items.find? (Item.hasKey seq cmd) = some x) {f : RqEntry → RqEntry} {e : RqEntry}
    (hf : f x.entry = e) (halloc : e.alloc = x.entry.alloc) :
    (s.step (.write x.pointer e.msg e.rqSeq e.bridgingLevel)).2.entries = updateEntry seq cmd f s.entries := by
  refine write_first ?_ h.nodup hfind
  rw [hf, ← halloc]

end KTools.Lanplus.RequestList

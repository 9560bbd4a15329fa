import Mathlib.Data.List.Basic
import Mathlib.Tactic.Common

/-!
# Stop and wait over a channel that loses

A sender has one packet at a time on its way and sends copies of it until it is acknowledged; a later copy may
have more text at its end. Neighbouring packets have different sequence numbers, and that is all a receiver
sees of them. The channels in both directions keep the order and may lose anything. Between the copies travel
items of other kinds.

`Step` is what sender and channels do, `Serves` a whole run of them against a receiver that takes some of the
items delivered and acknowledges their copies. The copies taken then form a `Chain`: each is of the packet of
the one before it, which it extends, or of the next packet. So the sequence number tells the two cases apart,
and a receiver that writes what a copy has more than the one before it writes every packet once (`log_chain`).
-/

namespace KTools.Lib.StopAndWait

universe u
variable {σ α ι : Type u}

/-- A copy of packet `index`. -/
structure Copy (σ α : Type u) where
  index : Nat
  seq : σ
  text : List α

/-! ### Chains -/

/-- The copy that is taken after `last`: of the same packet, or of the next one. -/
def Continues : Option (Copy σ α) → Copy σ α → Prop
  | none, c => c.index = 0
  | some b, c => c.index = b.index ∧ b.seq = c.seq ∧ b.text <+: c.text ∨
      c.index = b.index + 1 ∧ b.seq ≠ c.seq

/-- Copies that are taken one after the other, the first one after `last`. -/
inductive Chain : Option (Copy σ α) → List (Copy σ α) → Prop where
  | nil {last : Option (Copy σ α)} : Chain last []
  | cons {last : Option (Copy σ α)} {c : Copy σ α} {rest : List (Copy σ α)} (hfirst : Continues last c)
      (hrest : Chain (some c) rest) : Chain last (c :: rest)

/-! ### Sender and channels -/

/-- The packets sent so far and the last copy of the current one, whether it has been acknowledged, and what is
on its way to the receiver and back. -/
structure Link (σ α ι : Type u) where
  sent : Nat
  text : List α
  acked : Bool
  down : List ι
  up : List (Copy σ α)

/-- Nothing has been sent. -/
def Link.start : Link σ α ι := ⟨0, [], false, [], []⟩

section link
variable (seq : Nat → σ) (copy : ι → Option (Copy σ α)) (ok : ι → Prop)

/-- A step of the sender or of a channel. -/
inductive Step : Link σ α ι → Link σ α ι → Prop where
  | new {l : Link σ α ι} {d : ι} {text : List α} (hready : l.sent = 0 ∨ l.acked = true) (hok : ok d)
      (hcopy : copy d = some ⟨l.sent, seq l.sent, text⟩) :
      Step l { l with sent := l.sent + 1, text := text, acked := false, down := l.down ++ [d] }
  | again {l : Link σ α ι} {d : ι} {text : List α} {n : Nat} (hcurrent : l.sent = n + 1) (hwaits : l.acked = false)
      (hok : ok d) (hcopy : copy d = some ⟨n, seq n, text⟩) (hextends : l.text <+: text) :
      Step l { l with text := text, down := l.down ++ [d] }
  | other {l : Link σ α ι} {d : ι} (hok : ok d) (hcopy : copy d = none) : Step l { l with down := l.down ++ [d] }
  | lose {l : Link σ α ι} {down : List ι} {up : List (Copy σ α)} (hdown : down.Sublist l.down)
      (hup : up.Sublist l.up) : Step l { l with down := down, up := up }
  | ack {l : Link σ α ι} {a : Copy σ α} {rest : List (Copy σ α)} {n : Nat} (hup : l.up = a :: rest)
      (hcurrent : l.sent = n + 1) (hseq : a.seq = seq n) : Step l { l with acked := true, up := rest }

/-- A run against a receiver that polls: a poll gives the next item, or none. The receiver takes the items of
the polls in `taken`, and acknowledges their copies. -/
inductive Serves (taken : Nat → Bool) : Nat → Link σ α ι → List (Option ι) → Prop where
  | done {k : Nat} {l : Link σ α ι} : Serves taken k l []
  | step {k : Nat} {l l' : Link σ α ι} {polls : List (Option ι)} (hstep : Step seq copy ok l l')
      (hrest : Serves taken k l' polls) : Serves taken k l polls
  | timeout {k : Nat} {l : Link σ α ι} {polls : List (Option ι)} (hrest : Serves taken (k + 1) l polls) :
      Serves taken k l (none :: polls)
  | deliver {k : Nat} {l : Link σ α ι} {d : ι} {down : List ι} {polls : List (Option ι)} (hdown : l.down = d :: down)
      (hrest : Serves taken (k + 1)
        { l with down := down, up := l.up ++ if taken k then (copy d).toList else [] } polls) :
      Serves taken k l (some d :: polls)

/-- The copies that are taken. -/
def copies (taken : Nat → Bool) : Nat → List (Option ι) → List (Copy σ α)
  | _, [] => []
  | k, none :: polls => copies taken (k + 1) polls
  | k, some d :: polls => (if taken k then (copy d).toList else []) ++ copies taken (k + 1) polls

/-- A copy that is taken is among them. -/
theorem mem_copies {taken : Nat → Bool} {d : ι} {c : Copy σ α} (hcopy : copy d = some c) (later : List (Option ι)) :
    ∀ {k : Nat} (earlier : List (Option ι)), taken (k + earlier.length) = true →
      c ∈ copies copy taken k (earlier ++ some d :: later) := by
  intro k earlier
  induction earlier generalizing k with
  | nil =>
    intro htaken
    have htaken : taken k = true := htaken
    refine List.mem_append_left _ ?_
    rw [if_pos htaken, hcopy]
    exact List.mem_singleton_self c
  | cons first earlier ih =>
    intro htaken
    rw [List.length_cons, show k + (earlier.length + 1) = k + 1 + earlier.length by omega] at htaken
    cases first with
    | none => exact ih htaken
    | some first => exact List.mem_append_right _ (ih htaken)

end link

/-! ### The order of the copies -/

/-- `d` was sent after `c`. -/
def Follows (c d : Copy σ α) : Prop := c.index < d.index ∨ c.index = d.index ∧ c.text <+: d.text

theorem Follows.index_le {c d : Copy σ α} (h : Follows c d) : c.index ≤ d.index := by
  rcases h with h | h
  · omega
  · omega

section sound
variable {seq : Nat → σ} {copy : ι → Option (Copy σ α)} {ok : ι → Prop} {l l' : Link σ α ι} {last : Option (Copy σ α)}

/-- A copy of one of `n` packets; if it is of the last one, `text` extends it. -/
structure Sent (seq : Nat → σ) (n : Nat) (text : List α) (c : Copy σ α) : Prop where
  seq : c.seq = seq c.index
  index : c.index < n
  text : c.index + 1 = n → c.text <+: text

/-- The state of a link whose receiver took `last` last. All copies on their way were sent after it, it is of
the current packet or of the one before, and of the current one if that has been acknowledged. -/
structure Sound (seq : Nat → σ) (copy : ι → Option (Copy σ α)) (l : Link σ α ι) (last : Option (Copy σ α)) : Prop where
  down : ∀ c ∈ l.down.filterMap copy, Sent seq l.sent l.text c
  ordered : (l.down.filterMap copy).Pairwise Follows
  after : ∀ b ∈ last, ∀ c ∈ l.down.filterMap copy, Follows b c
  taken : ∀ b ∈ last, Sent seq l.sent l.text b
  recent : ∀ b ∈ last, l.sent ≤ b.index + 2
  acked : l.acked = true → ∀ b ∈ last, l.sent = b.index + 1
  first : last = none → l.sent ≤ 1 ∧ l.acked = false ∧ l.up = []
  up : ∀ a ∈ l.up, a.seq = seq a.index ∧ l.sent ≤ a.index + 2 ∧ ∀ b ∈ last, a.index ≤ b.index
  up_acked : l.acked = true → ∀ a ∈ l.up, l.sent ≤ a.index + 1
  up_ordered : l.up.Pairwise fun a b => a.index ≤ b.index

theorem sound_start : Sound seq copy (Link.start : Link σ α ι) none where
  down := List.forall_mem_nil _
  ordered := .nil
  after := nofun
  taken := nofun
  recent := nofun
  acked := nofun
  first := fun _ => ⟨Nat.zero_le _, rfl, rfl⟩
  up := List.forall_mem_nil _
  up_acked := nofun
  up_ordered := .nil

/-- Losing keeps the order. -/
theorem Sound.lose (h : Sound seq copy l last) {down : List ι} {up : List (Copy σ α)} (hdown : down.Sublist l.down)
    (hup : up.Sublist l.up) : Sound seq copy { l with down := down, up := up } last where
  down := fun c hc => h.down c ((hdown.filterMap copy).subset hc)
  ordered := h.ordered.sublist (hdown.filterMap copy)
  after := fun b hb c hc => h.after b hb c ((hdown.filterMap copy).subset hc)
  taken := h.taken
  recent := h.recent
  acked := h.acked
  first := fun hnone => ⟨(h.first hnone).1, (h.first hnone).2.1, List.sublist_nil.1 ((h.first hnone).2.2 ▸ hup)⟩
  up := fun a ha => h.up a (hup.subset ha)
  up_acked := fun hacked a ha => h.up_acked hacked a (hup.subset ha)
  up_ordered := h.up_ordered.sublist hup

theorem forall_mem_sent {P : Copy σ α → Prop} {down : List ι} {d : ι} {c : Copy σ α} (hcopy : copy d = some c)
    (hdown : ∀ b ∈ down.filterMap copy, P b) (hc : P c) : ∀ b ∈ (down ++ [d]).filterMap copy, P b := by
  intro b hb
  rw [List.filterMap_append] at hb
  rcases List.mem_append.1 hb with hb | hb
  · exact hdown b hb
  · rw [List.filterMap_cons_some hcopy] at hb
    rw [List.mem_singleton.1 hb]
    exact hc

theorem ordered_sent {down : List ι} {d : ι} {c : Copy σ α} (hcopy : copy d = some c)
    (hordered : (down.filterMap copy).Pairwise Follows) (hlast : ∀ b ∈ down.filterMap copy, Follows b c) :
    ((down ++ [d]).filterMap copy).Pairwise Follows := by
  rw [List.filterMap_append, List.filterMap_cons_some hcopy]
  exact List.pairwise_append.2 ⟨hordered, List.pairwise_singleton _ _,
    fun b hb c' hc' => List.mem_singleton.1 hc' ▸ hlast b hb⟩

/-- A new packet. -/
theorem Sound.new (h : Sound seq copy l last) {d : ι} {text : List α} (hready : l.sent = 0 ∨ l.acked = true)
    (hcopy : copy d = some ⟨l.sent, seq l.sent, text⟩) :
    Sound seq copy { l with sent := l.sent + 1, text := text, acked := false, down := l.down ++ [d] } last := by
  have hold : ∀ {c}, Sent seq l.sent l.text c → Sent seq (l.sent + 1) text c := fun {c} hc =>
    ⟨hc.seq, Nat.lt_succ_of_lt hc.index, fun heq => absurd heq (by have := hc.index; omega)⟩
  have hfollows : ∀ {c}, Sent seq l.sent l.text c → Follows c ⟨l.sent, seq l.sent, text⟩ := fun hc => .inl hc.index
  have hrecent : ∀ b ∈ last, l.sent ≤ b.index + 1 := by
    intro b hb
    rcases hready with hzero | hacked
    · omega
    · have hcurrent := h.acked hacked b hb
      omega
  constructor
  case down =>
    exact forall_mem_sent hcopy (fun c hc => hold (h.down c hc))
      ⟨rfl, Nat.lt_succ_self _, fun _ => List.prefix_refl _⟩
  case ordered => exact ordered_sent hcopy h.ordered fun c hc => hfollows (h.down c hc)
  case after => exact fun b hb => forall_mem_sent hcopy (h.after b hb) (hfollows (h.taken b hb))
  case taken => exact fun b hb => hold (h.taken b hb)
  case recent => exact fun b hb => Nat.succ_le_succ (hrecent b hb)
  case acked => exact nofun
  case first =>
    intro hnone
    obtain ⟨-, hacked, hup⟩ := h.first hnone
    rcases hready with hzero | hyes
    · exact ⟨Nat.succ_le_succ (Nat.le_of_eq hzero), rfl, hup⟩
    · rw [hacked] at hyes
      cases hyes
  case up =>
    intro a ha
    obtain ⟨hseq, -, hle⟩ := h.up a ha
    refine ⟨hseq, ?_, hle⟩
    rcases hready with hzero | hacked
    · show l.sent + 1 ≤ a.index + 2
      omega
    · exact Nat.succ_le_succ (h.up_acked hacked a ha)
  case up_acked => exact nofun
  case up_ordered => exact h.up_ordered

/-- Another copy of the current packet. -/
theorem Sound.again (h : Sound seq copy l last) {d : ι} {text : List α} {n : Nat} (hcurrent : l.sent = n + 1)
    (hcopy : copy d = some ⟨n, seq n, text⟩) (hextends : l.text <+: text) :
    Sound seq copy { l with text := text, down := l.down ++ [d] } last := by
  have hold : ∀ {c}, Sent seq l.sent l.text c → Sent seq l.sent text c := fun hc =>
    ⟨hc.seq, hc.index, fun heq => (hc.text heq).trans hextends⟩
  have hfollows : ∀ {c}, Sent seq l.sent l.text c → Follows c ⟨n, seq n, text⟩ := by
    intro c hc
    have hindex := hc.index
    by_cases heq : c.index = n
    · exact .inr ⟨heq, (hc.text (by omega)).trans hextends⟩
    · exact .inl (show c.index < n by omega)
  constructor
  case down =>
    exact forall_mem_sent hcopy (fun c hc => hold (h.down c hc))
      ⟨rfl, by show n < l.sent; omega, fun _ => List.prefix_refl _⟩
  case ordered => exact ordered_sent hcopy h.ordered fun c hc => hfollows (h.down c hc)
  case after => exact fun b hb => forall_mem_sent hcopy (h.after b hb) (hfollows (h.taken b hb))
  case taken => exact fun b hb => hold (h.taken b hb)
  case recent => exact h.recent
  case acked => exact h.acked
  case first => exact h.first
  case up => exact h.up
  case up_acked => exact h.up_acked
  case up_ordered => exact h.up_ordered

/-- The sender gets an acknowledgement of the current packet. -/
theorem Sound.ack (hseqs : ∀ n, seq n ≠ seq (n + 1)) (h : Sound seq copy l last) {a : Copy σ α}
    {rest : List (Copy σ α)} {n : Nat} (hup : l.up = a :: rest) (hcurrent : l.sent = n + 1) (hseq : a.seq = seq n) :
    Sound seq copy { l with acked := true, up := rest } last := by
  have hrest : rest.Sublist l.up := by
    rw [hup]
    exact List.sublist_cons_self a rest
  have hlose := h.lose (List.Sublist.refl l.down) hrest
  obtain ⟨haseq, hrecent, hle⟩ := h.up a (by rw [hup]; exact .head _)
  have hordered := h.up_ordered
  rw [hup, List.pairwise_cons] at hordered
  -- it is not a late one of the packet before
  have hindex : n ≤ a.index := by
    by_contra hlate
    obtain rfl : n = a.index + 1 := by omega
    exact hseqs a.index (haseq.symm.trans hseq)
  have hlast : last ≠ none := by
    intro hnone
    rw [(h.first hnone).2.2] at hup
    cases hup
  exact { hlose with
    acked := fun _ b hb => by
      have hbefore := (h.taken b hb).index
      have hafter := hle b hb
      show l.sent = b.index + 1
      omega
    first := fun hnone => absurd hnone hlast
    up_acked := fun _ b hb => by
      have hafter := hordered.1 b hb
      show l.sent ≤ b.index + 1
      omega }

theorem Step.sound (hseqs : ∀ n, seq n ≠ seq (n + 1)) (hstep : Step seq copy ok l l') (h : Sound seq copy l last) :
    Sound seq copy l' last := by
  cases hstep with
  | new hready _ hcopy => exact h.new hready hcopy
  | again hcurrent _ _ hcopy hextends => exact h.again hcurrent hcopy hextends
  | @other d _ hcopy =>
    have hsame : (l.down ++ [d]).filterMap copy = l.down.filterMap copy := by
      rw [List.filterMap_append, List.filterMap_cons_none hcopy, List.filterMap_nil, List.append_nil]
    exact { h with
      down := fun c hc => h.down c (hsame ▸ hc)
      ordered := hsame.symm ▸ h.ordered
      after := fun b hb c hc => h.after b hb c (hsame ▸ hc) }
  | lose hdown hup => exact h.lose hdown hup
  | ack hup hcurrent hseq => exact h.ack hseqs hup hcurrent hseq

/-- The next copy that is taken. -/
theorem Sound.take (hseqs : ∀ n, seq n ≠ seq (n + 1)) (h : Sound seq copy l last) {d : ι} {down : List ι}
    {c : Copy σ α} (hdown : l.down = d :: down) (hcopy : copy d = some c) :
    Continues last c ∧ c.seq = seq c.index ∧ Sound seq copy { l with down := down, up := l.up ++ [c] } (some c) := by
  have hcopies : l.down.filterMap copy = c :: down.filterMap copy := by
    rw [hdown, List.filterMap_cons_some hcopy]
  have hordered := h.ordered
  rw [hcopies, List.pairwise_cons] at hordered
  have hsent := h.down c (by rw [hcopies]; exact .head _)
  have hfollows : ∀ b ∈ last, Follows b c := fun b hb => h.after b hb c (by rw [hcopies]; exact .head _)
  have hindex := hsent.index
  have hrecent : l.sent ≤ c.index + 2 := by
    cases last with
    | none =>
      have hone := (h.first rfl).1
      omega
    | some b =>
      have hle := (hfollows b rfl).index_le
      have hb := h.recent b rfl
      omega
  have hacked : l.acked = true → l.sent = c.index + 1 := by
    intro hyes
    cases last with
    | none =>
      rw [(h.first rfl).2.1] at hyes
      cases hyes
    | some b =>
      have hle := (hfollows b rfl).index_le
      have hb := h.acked hyes b rfl
      omega
  have hup : ∀ a ∈ l.up, a.index ≤ c.index := by
    intro a ha
    cases last with
    | none =>
      rw [(h.first rfl).2.2] at ha
      exact absurd ha List.not_mem_nil
    | some b => exact Nat.le_trans ((h.up a ha).2.2 b rfl) (hfollows b rfl).index_le
  refine ⟨?_, hsent.seq, ?_⟩
  · cases last with
    | none =>
      have hone := (h.first rfl).1
      show c.index = 0
      omega
    | some b =>
      have hb := h.recent b rfl
      rcases hfollows b rfl with hless | ⟨heq, hprefix⟩
      · have hnext : c.index = b.index + 1 := by omega
        refine .inr ⟨hnext, ?_⟩
        rw [(h.taken b rfl).seq, hsent.seq, hnext]
        exact hseqs b.index
      · refine .inl ⟨heq.symm, ?_, hprefix⟩
        rw [(h.taken b rfl).seq, hsent.seq, heq]
  · constructor
    case down => exact fun b hb => h.down b (by rw [hcopies]; exact .tail _ hb)
    case ordered => exact hordered.2
    case after =>
      rintro _ ⟨⟩ b hb
      exact hordered.1 b hb
    case taken =>
      rintro _ ⟨⟩
      exact hsent
    case recent =>
      rintro _ ⟨⟩
      exact hrecent
    case acked =>
      rintro hyes _ ⟨⟩
      exact hacked hyes
    case first => exact nofun
    case up =>
      intro a ha
      rcases List.mem_append.1 ha with ha | ha
      · refine ⟨(h.up a ha).1, (h.up a ha).2.1, ?_⟩
        rintro _ ⟨⟩
        exact hup a ha
      · rw [List.mem_singleton.1 ha]
        refine ⟨hsent.seq, hrecent, ?_⟩
        rintro _ ⟨⟩
        exact Nat.le_refl _
    case up_acked =>
      intro hyes a ha
      rcases List.mem_append.1 ha with ha | ha
      · exact h.up_acked hyes a ha
      · rw [List.mem_singleton.1 ha]
        exact Nat.le_of_eq (hacked hyes)
    case up_ordered =>
      refine List.pairwise_append.2 ⟨h.up_ordered, List.pairwise_singleton _ _, fun a ha b hb => ?_⟩
      rw [List.mem_singleton.1 hb]
      exact hup a ha

/-- **The copies taken form a chain**, and have the sequence numbers of their packets. -/
theorem Serves.chain (hseqs : ∀ n, seq n ≠ seq (n + 1)) {taken : Nat → Bool} {k : Nat} {polls : List (Option ι)}
    (hserves : Serves seq copy ok taken k l polls) : ∀ {last : Option (Copy σ α)}, Sound seq copy l last →
      Chain last (copies copy taken k polls) ∧ ∀ c ∈ copies copy taken k polls, c.seq = seq c.index := by
  induction hserves with
  | done => exact fun _ => ⟨.nil, List.forall_mem_nil _⟩
  | step hstep _ ih => exact fun h => ih (hstep.sound hseqs h)
  | timeout _ ih => exact fun h => ih h
  | @deliver k l d down polls hdown _ ih =>
    intro last h
    have hlost : Sound seq copy { l with down := down, up := l.up ++ [] } last := by
      rw [List.append_nil]
      exact h.lose (hdown ▸ List.sublist_cons_self d down) (List.Sublist.refl _)
    unfold copies
    cases htaken : taken k with
    | false =>
      rw [htaken] at ih
      exact ih hlost
    | true =>
      rw [htaken, if_pos rfl] at ih
      cases hcopy : copy d with
      | none =>
        rw [hcopy] at ih
        exact ih hlost
      | some c =>
        rw [hcopy] at ih
        obtain ⟨hfirst, hseq, hsound⟩ := h.take hseqs hdown hcopy
        obtain ⟨hchain, hrest⟩ := ih hsound
        exact ⟨.cons hfirst hchain, List.forall_mem_cons.2 ⟨hseq, hrest⟩⟩

/-- The first polls of a run. -/
theorem Serves.take {taken : Nat → Bool} {k : Nat} {polls : List (Option ι)}
    (hserves : Serves seq copy ok taken k l polls) : ∀ n, Serves seq copy ok taken k l (polls.take n) := by
  induction hserves with
  | done =>
    intro n
    rw [List.take_nil]
    exact .done
  | step hstep _ ih => exact fun n => .step hstep (ih n)
  | timeout _ ih =>
    intro n
    cases n with
    | zero => exact .done
    | succ n => exact .timeout (ih n)
  | deliver hdown _ ih =>
    intro n
    cases n with
    | zero => exact .done
    | succ n => exact .deliver hdown (ih n)

/-- What is delivered is what the sender may send. -/
theorem Serves.forall_ok {taken : Nat → Bool} {k : Nat} {polls : List (Option ι)}
    (hserves : Serves seq copy ok taken k l polls) : (∀ d ∈ l.down, ok d) → ∀ d, some d ∈ polls → ok d := by
  induction hserves with
  | done => exact fun _ _ h => absurd h List.not_mem_nil
  | step hstep _ ih =>
    intro h
    apply ih
    cases hstep with
    | new _ hok _ => exact List.forall_mem_append.2 ⟨h, List.forall_mem_singleton.2 hok⟩
    | again _ _ hok _ _ => exact List.forall_mem_append.2 ⟨h, List.forall_mem_singleton.2 hok⟩
    | other hok _ => exact List.forall_mem_append.2 ⟨h, List.forall_mem_singleton.2 hok⟩
    | lose hdown _ => exact fun d hd => h d (hdown.subset hd)
    | ack _ _ _ => exact h
  | timeout _ ih =>
    intro h d hd
    rcases List.mem_cons.1 hd with heq | hd
    · cases heq
    · exact ih h d hd
  | @deliver k l d down polls hdown _ ih =>
    intro h d' hd'
    rw [hdown] at h
    obtain ⟨hd, hrest⟩ := List.forall_mem_cons.1 h
    rcases List.mem_cons.1 hd' with heq | hd'
    · obtain rfl := Option.some.inj heq
      exact hd
    · exact ih hrest d' hd'

end sound

/-! ### What the receiver writes -/

/-- The text of packet `i` in its last copy. -/
def textOf (copies : List (Copy σ α)) (i : Nat) : List α :=
  ((copies.filter fun c => c.index == i).getLast?).elim [] Copy.text

/-- The texts of the first `n` packets, one behind the other. -/
def log (n : Nat) (copies : List (Copy σ α)) : List α := (List.range n).flatMap (textOf copies)

/-- What a copy has more than the one before it. -/
def newText : Option (Copy σ α) → Copy σ α → List α
  | none, c => c.text
  | some b, c => if b.index = c.index then c.text.drop b.text.length else c.text

/-- All new text. -/
def newTexts : Option (Copy σ α) → List (Copy σ α) → List α
  | _, [] => []
  | last, c :: rest => newText last c ++ newTexts (some c) rest

theorem textOf_append_self (done : List (Copy σ α)) (c : Copy σ α) : textOf (done ++ [c]) c.index = c.text := by
  unfold textOf
  rw [List.filter_append, List.filter_cons_of_pos (by exact beq_self_eq_true c.index), List.filter_nil,
    List.getLast?_concat]
  rfl

theorem textOf_append_of_ne (done : List (Copy σ α)) {c : Copy σ α} {i : Nat} (h : c.index ≠ i) :
    textOf (done ++ [c]) i = textOf done i := by
  unfold textOf
  rw [List.filter_append, List.filter_cons_of_neg (by exact fun heq => h (beq_iff_eq.1 heq)), List.filter_nil,
    List.append_nil]

/-- Of a packet behind the last copy there is no text. -/
theorem textOf_nil {done : List (Copy σ α)} {i : Nat} (h : ∀ c ∈ done, c.index ≠ i) : textOf done i = [] := by
  unfold textOf
  rw [List.filter_eq_nil_iff.2 fun c hc heq => h c hc (beq_iff_eq.1 heq)]
  rfl

/-- A concatenation whose parts behind part `j` are empty. -/
theorem flatMap_range {f : Nat → List α} {n j : Nat} (hj : j < n) (hbehind : ∀ i, j < i → f i = []) :
    (List.range n).flatMap f = (List.range j).flatMap f ++ f j := by
  obtain ⟨k, rfl⟩ := Nat.exists_eq_add_of_le (Nat.succ_le_of_lt hj)
  induction k with
  | zero =>
    rw [Nat.add_zero, List.range_succ, List.flatMap_append, List.flatMap_singleton]
  | succ k ih =>
    rw [← Nat.add_assoc, List.range_succ, List.flatMap_append, List.flatMap_singleton, hbehind _ (by omega),
      List.append_nil]
    exact ih (by omega)

/-- The copies up to `last` are of its packet and of packets before. -/
structure UpTo (done : List (Copy σ α)) (last : Option (Copy σ α)) : Prop where
  none : last = none → done = []
  text : ∀ b ∈ last, textOf done b.index = b.text
  index : ∀ b ∈ last, ∀ c ∈ done, c.index ≤ b.index

theorem upTo_nil : UpTo ([] : List (Copy σ α)) none := ⟨fun _ => rfl, nofun, nofun⟩

theorem UpTo.append {done : List (Copy σ α)} {last : Option (Copy σ α)} {c : Copy σ α} (h : UpTo done last)
    (hc : Continues last c) : UpTo (done ++ [c]) (some c) := by
  refine ⟨nofun, ?_, ?_⟩
  · rintro _ ⟨⟩
    exact textOf_append_self done c
  · rintro _ ⟨⟩ d hd
    rcases List.mem_append.1 hd with hd | hd
    · cases last with
      | none =>
        rw [h.none rfl] at hd
        exact absurd hd List.not_mem_nil
      | some b =>
        have hle := h.index b rfl d hd
        rcases hc with ⟨heq, -⟩ | ⟨heq, -⟩
        · omega
        · omega
    · exact Nat.le_of_eq (congrArg Copy.index (List.mem_singleton.1 hd))

/-- One more copy adds its new text to the log. -/
theorem log_append {done : List (Copy σ α)} {last : Option (Copy σ α)} {c : Copy σ α} {n : Nat}
    (h : UpTo done last) (hc : Continues last c) (hn : c.index < n) :
    log n (done ++ [c]) = log n done ++ newText last c := by
  have hup := h.append hc
  have hbehind : ∀ i, c.index < i → textOf (done ++ [c]) i = [] := by
    intro i hi
    apply textOf_nil
    intro d hd
    have hle := hup.index c rfl d hd
    omega
  have hbefore : (List.range c.index).flatMap (textOf (done ++ [c])) = (List.range c.index).flatMap (textOf done) := by
    apply List.flatMap_congr
    intro i hi
    exact textOf_append_of_ne done (Nat.ne_of_gt (List.mem_range.1 hi))
  have hnew : log n (done ++ [c]) = (List.range c.index).flatMap (textOf done) ++ c.text := by
    unfold log
    rw [flatMap_range hn hbehind, hbefore, textOf_append_self]
  have hold : log n done = (List.range c.index).flatMap (textOf done) ++ textOf done c.index := by
    apply flatMap_range hn
    intro i hi
    rw [← hbehind i hi, textOf_append_of_ne done (Nat.ne_of_lt hi)]
  rw [hnew, hold, List.append_assoc]
  congr 1
  cases last with
  | none =>
    rw [h.none rfl]
    rfl
  | some b =>
    rcases hc with ⟨heq, -, hprefix⟩ | ⟨heq, -⟩
    · obtain ⟨more, hmore⟩ := hprefix
      have hsame : newText (some b) c = c.text.drop b.text.length := if_pos heq.symm
      rw [hsame, heq, h.text b rfl, ← hmore, List.drop_left]
    · have hnone : textOf done c.index = [] := by
        apply textOf_nil
        intro d hd
        have hle := h.index b rfl d hd
        omega
      have hother : b.index ≠ c.index := by omega
      have hwhole : newText (some b) c = c.text := if_neg hother
      rw [hnone, hwhole]
      rfl

theorem log_of_chain {last : Option (Copy σ α)} {rest : List (Copy σ α)} (h : Chain last rest) :
    ∀ {done : List (Copy σ α)} {n : Nat}, UpTo done last → (∀ c ∈ rest, c.index < n) →
      log n (done ++ rest) = log n done ++ newTexts last rest := by
  induction h with
  | nil =>
    intro done n _ _
    rw [List.append_nil]
    exact (List.append_nil _).symm
  | @cons last c rest hfirst _ ih =>
    intro done n hdone hn
    obtain ⟨hc, hrest⟩ := List.forall_mem_cons.1 hn
    rw [← List.singleton_append, ← List.append_assoc, ih (hdone.append hfirst) hrest, log_append hdone hfirst hc,
      List.append_assoc]
    rfl

/-- **Every packet is written once.** The new texts of a chain are the texts of the packets in their order. -/
theorem log_chain {copies : List (Copy σ α)} {n : Nat} (h : Chain none copies) (hn : ∀ c ∈ copies, c.index < n) :
    newTexts none copies = log n copies := by
  have hnil : log n ([] : List (Copy σ α)) = [] := List.flatMap_eq_nil_iff.2 fun _ _ => rfl
  have hlog := log_of_chain h upTo_nil hn
  rw [hnil] at hlog
  exact hlog.symm

/-- The text of a copy is part of the text of its packet. -/
theorem text_of_chain {last : Option (Copy σ α)} {rest : List (Copy σ α)} (h : Chain last rest) :
    ∀ {done : List (Copy σ α)}, UpTo done last → (∀ c ∈ done, c.text <+: textOf done c.index) →
      ∀ c ∈ done ++ rest, c.text <+: textOf (done ++ rest) c.index := by
  induction h with
  | nil =>
    intro done _ htext
    rw [List.append_nil]
    exact htext
  | @cons last c rest hfirst _ ih =>
    intro done hdone htext
    have hsplit : done ++ c :: rest = done ++ [c] ++ rest := by
      rw [List.append_assoc]
      rfl
    rw [hsplit]
    apply ih (hdone.append hfirst)
    intro d hd
    rcases List.mem_append.1 hd with hd | hd
    · by_cases heq : c.index = d.index
      · rw [← heq, textOf_append_self]
        refine (htext d hd).trans ?_
        cases last with
        | none =>
          rw [hdone.none rfl] at hd
          exact absurd hd List.not_mem_nil
        | some b =>
          have hle := hdone.index b rfl d hd
          rcases hfirst with ⟨hsame, -, hprefix⟩ | ⟨hnext, -⟩
          · rw [← heq, hsame, hdone.text b rfl]
            exact hprefix
          · omega
      · rw [textOf_append_of_ne done heq]
        exact htext d hd
    · obtain rfl := List.mem_singleton.1 hd
      have hself := textOf_append_self done d
      exact hself.symm ▸ List.prefix_refl d.text

end KTools.Lib.StopAndWait

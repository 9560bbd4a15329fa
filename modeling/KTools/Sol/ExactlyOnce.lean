import KTools.Lib.StopAndWait
import KTools.Sol.Receiver

/-!
# The console log has every packet once

The BMC sends its console packets by stop and wait over channels that lose, with acknowledgements and command
responses between them, and the console receives in its main loop and in keepalives, in any order. Both receive
paths remember the last packet by its sequence number and by the number of its characters, which is enough to
write every character once.
-/

namespace KTools.Sol
open KTools.Lanplus KTools.Lib KTools.Lib.Bytes KTools.Lib.StopAndWait

/-! ### Runs of the console -/

/-- What the console logger does: it receives, when `select` reports its socket, or it sends a keepalive. -/
inductive Op where
  | receive
  | keepalive
  deriving DecidableEq

def Op.run (e : Env) : Op → SolM PUnit
  | receive => do
    let _ ← readBmc e .start
  | keepalive => do
    let _ ← Sol.keepalive e

def runOps (e : Env) : List Op → SolM PUnit
  | [] => return ⟨⟩
  | op :: rest => do
    op.run e
    runOps e rest

theorem runOps_append (e : Env) (before after : List Op) :
    runOps e (before ++ after) = runOps e before >>= fun _ => runOps e after := by
  induction before with
  | nil => rfl
  | cons op rest ih =>
    show (op.run e >>= fun _ => runOps e (rest ++ after)) = (op.run e >>= fun _ => runOps e rest) >>= _
    rw [ih, bind_assoc]

theorem went_runOps (e : Env) (ops : List Op) : Moves (Went e) (runOps e ops) := by
  induction ops with
  | nil => exact .pure _
  | cons op rest ih =>
    have hop : Moves (Went e) (op.run e) := by
      cases op with
      | receive => exact (went_readBmc e .start).bind fun _ => .pure _
      | keepalive => exact (went_keepalive e).bind fun _ => .pure _
    exact hop.bind fun _ => ih

/-! ### The BMC -/

/-- A packet on its way to the console. `index` is the number of a console packet among those of the BMC. -/
structure Delivery where
  index : Nat
  rsp : Rs

/-- A console packet. -/
def Delivery.copy (d : Delivery) : Option (Copy UInt8 UInt8) :=
  if d.rsp.isNumbered then some ⟨d.index, d.rsp.solPacket.packetSequenceNumber, d.rsp.chars⟩ else none

/-- A console packet has at most 255 characters, and a SOL packet without a sequence number has none. -/
structure Delivery.Proper (d : Delivery) : Prop where
  numbered : d.rsp.isNumbered = true → 0 ≤ d.rsp.dataLen ∧ d.rsp.dataLen ≤ 255
  ackOnly : d.rsp.isSolPacket = true → d.rsp.isNumbered = false → d.rsp.dataLen = 0

/-- The response to poll `k` was acknowledged. -/
def Console.acknowledged (c : Console) (k : Nat) : Bool := c.received.any fun x => x.1 == k

/-- A run of the console against a BMC: `script` are the packets polled, which the BMC has sent by stop and wait
in view of the acknowledgements of this run. `seq n` is the sequence number of packet `n`. The notes begin with
the run, and no packet has been received, or the first one has another number than the last one received. -/
structure Logging where
  env : Env
  console : Console
  ops : List Op
  seq : Nat → UInt8
  script : List (Option Delivery)
  seq_ne : ∀ n, seq n ≠ seq (n + 1)
  polls_eq : console.polls = script.map (Option.map Delivery.rsp)
  polled_zero : console.polled = 0
  received_nil : console.received = []
  written_nil : console.written = []
  sent_nil : console.sent = []
  fresh : console.lastReceivedByteCount = 0 ∨ console.lastReceivedSequenceNumber ≠ seq 0
  serves : Serves seq Delivery.copy Delivery.Proper
    (finalState (runOps env ops) console).acknowledged 0 Link.start
    (script.take (finalState (runOps env ops) console).polled)

/-- The bytes written for the first `n` results of polling. -/
def Console.writtenBefore (c : Console) (n : Nat) : List UInt8 := (c.written.filter fun w => w.1 < n).map Prod.snd

namespace Logging
variable (x : Logging)

def final : Console := finalState (runOps x.env x.ops) x.console

/-- The copies of console packets that were acknowledged among the first `n` results of polling. -/
def handled (n : Nat) : List (Copy UInt8 UInt8) := copies Delivery.copy x.final.acknowledged 0 (x.script.take n)

/-- **Exactly once.** After each result of polling the log is the texts of the packets in their order, each in
the last copy that was handled; the characters of every copy that was acknowledged are part of it, and every
acknowledgement counts the characters of such a copy. -/
structure ExactlyOnce : Prop where
  written : ∀ n ≤ x.final.polled, ∀ m, (∀ c ∈ x.handled n, c.index < m) →
    x.final.writtenBefore n = log m (x.handled n)
  texts : ∀ n ≤ x.final.polled, ∀ c ∈ x.handled n, c.text <+: textOf (x.handled n) c.index
  acknowledged : ∀ p ∈ x.final.sent, ∃ c ∈ x.handled x.final.polled,
    p.ackedPacketNumber = c.seq ∧ p.acceptedCharacterCount.toNat = c.text.length
  all : x.final.writtenBefore x.final.polled = x.final.written.map Prod.snd

end Logging

/-! ### What the receiver writes -/

namespace Receiver
variable {e : Env} {r : Receiver}

/-- The notes are numbered by the results of polling. -/
structure Marked (r : Receiver) : Prop where
  received : ∀ x ∈ r.received, x.1 < r.polled
  written : ∀ w ∈ r.written, w.1 < r.polled

/-- `r'` comes after `r`: its new notes are numbered from there on. -/
structure Before (r r' : Receiver) : Prop where
  polled : r.polled ≤ r'.polled
  received : ∃ l, r'.received = r.received ++ l ∧ ∀ x ∈ l, r.polled ≤ x.1 ∧ x.1 < r'.polled
  written : ∃ l, r'.written = r.written ++ l ∧ ∀ w ∈ l, r.polled ≤ w.1 ∧ w.1 < r'.polled

theorem hear_polled (h : Heard) : (r.hear e h).polled = r.polled + 1 := by
  obtain ⟨rsp, taken⟩ := h
  cases rsp with
  | none => rfl
  | some rsp =>
    cases taken with
    | true => rfl
    | false => rfl

/-- Polls without new notes. -/
theorem before_polled {n : Nat} (h : r.polled ≤ n) : Before r { r with polled := n } :=
  ⟨h, ⟨[], (List.append_nil _).symm, List.forall_mem_nil _⟩, [], (List.append_nil _).symm, List.forall_mem_nil _⟩

theorem drop_before (r : Receiver) : Before r r.drop := before_polled (Nat.le_succ _)

theorem take_before (rsp : Rs) : Before r (r.take e rsp) := by
  refine ⟨Nat.le_succ _, ⟨_, rfl, fun x hx => ?_⟩, _, rfl, fun w hw => ?_⟩
  · split at hx
    · rw [List.mem_singleton.1 hx]
      exact ⟨Nat.le_refl _, Nat.lt_succ_self _⟩
    · exact absurd hx List.not_mem_nil
  · split at hw
    · obtain ⟨ch, -, rfl⟩ := List.mem_map.1 hw
      exact ⟨Nat.le_refl _, Nat.lt_succ_self _⟩
    · exact absurd hw List.not_mem_nil

theorem hear_before (h : Heard) : Before r (r.hear e h) := by
  obtain ⟨rsp, taken⟩ := h
  cases rsp with
  | none => exact drop_before r
  | some rsp =>
    cases taken with
    | true => exact take_before rsp
    | false => exact drop_before r

theorem Before.trans {r' r'' : Receiver} (h : Before r r') (h' : Before r' r'') : Before r r'' := by
  obtain ⟨hpolled, ⟨l, hl, hlow⟩, m, hm, hmlow⟩ := h
  obtain ⟨hpolled', ⟨l', hl', hlow'⟩, m', hm', hmlow'⟩ := h'
  refine ⟨by omega, ⟨l ++ l', by rw [hl', hl, List.append_assoc], ?_⟩, m ++ m', by rw [hm', hm, List.append_assoc], ?_⟩
  · refine List.forall_mem_append.2 ⟨fun x hx => ?_, fun x hx => ?_⟩
    · have hbounds := hlow x hx
      omega
    · have hbounds := hlow' x hx
      omega
  · refine List.forall_mem_append.2 ⟨fun w hw => ?_, fun w hw => ?_⟩
    · have hbounds := hmlow w hw
      omega
    · have hbounds := hmlow' w hw
      omega

theorem foldl_before (hs : List Heard) : ∀ r : Receiver, Before r (hs.foldl (hear e) r) := by
  induction hs with
  | nil => exact fun _ => before_polled (Nat.le_refl _)
  | cons h rest ih => exact fun r => (hear_before h).trans (ih (r.hear e h))

theorem foldl_polled (hs : List Heard) : ∀ r : Receiver, (hs.foldl (hear e) r).polled = r.polled + hs.length := by
  induction hs with
  | nil => exact fun _ => rfl
  | cons h rest ih =>
    intro r
    refine (ih (r.hear e h)).trans ?_
    rw [hear_polled, List.length_cons]
    omega

theorem Marked.before {r' : Receiver} (hr : r.Marked) (h : Before r r') : r'.Marked := by
  obtain ⟨hpolled, ⟨l, hl, hlow⟩, m, hm, hmlow⟩ := h
  constructor
  · rw [hl]
    refine List.forall_mem_append.2 ⟨fun x hx => ?_, fun x hx => (hlow x hx).2⟩
    exact Nat.lt_of_lt_of_le (hr.received x hx) hpolled
  · rw [hm]
    refine List.forall_mem_append.2 ⟨fun w hw => ?_, fun w hw => (hmlow w hw).2⟩
    exact Nat.lt_of_lt_of_le (hr.written w hw) hpolled

/-! ### One packet -/

/-- The receiver remembers the copy taken last; before the first one it remembers nothing that matters. -/
structure Tracks (seq : Nat → UInt8) (r : Receiver) (last : Option (Copy UInt8 UInt8)) : Prop where
  some : ∀ b ∈ last, r.lastReceivedSequenceNumber = b.seq ∧ r.lastReceivedByteCount.toNat = b.text.length
  none : last = none → r.lastReceivedByteCount = 0 ∨ r.lastReceivedSequenceNumber ≠ seq 0

theorem length_chars (rsp : Rs) : rsp.chars.length = rsp.dataLen.toNat := length_slice _ _ _

/-- What is left of a packet behind its first characters. -/
theorem chars_trim {rsp : Rs} (h : 0 ≤ rsp.dataLen) (n : UInt8) : (rsp.trim n).chars = rsp.chars.drop n.toNat := by
  obtain ⟨len, hlen⟩ := Int.eq_ofNat_of_zero_le h
  unfold Rs.trim Rs.chars
  dsimp only
  rw [hlen]
  by_cases hnew : n.toNat < len
  · have hmore : (len : Int) - n.toNat > 0 := by omega
    have hoff : ((len : Int) - ((len : Int) - n.toNat)).toNat = n.toNat := by omega
    have hcount : ((len : Int) - n.toNat).toNat = len - n.toNat := by omega
    rw [if_pos hmore, hoff, hcount]
    have hstored := slice_store rsp.data 0 (slice rsp.data n.toNat (len - n.toNat))
    rw [length_slice] at hstored
    rw [hstored, show ((len : Int)).toNat = len from rfl, drop_slice _ _ (by omega), Nat.zero_add]
  · have hcount : ((len : Int) - n.toNat).toNat = 0 := by omega
    have hall : (slice rsp.data 0 ((len : Int)).toNat).drop n.toNat = [] := by
      apply List.drop_eq_nil_of_le
      rw [length_slice]
      omega
    rw [hcount, hall]
    rfl

theorem toNat_ofInt {n : Int} (hlow : 0 ≤ n) (hhigh : n ≤ 255) : (UInt8.ofInt n).toNat = n.toNat := by
  unfold UInt8.ofInt
  rw [UInt8.toNat_ofNat']
  omega

variable {seq : Nat → UInt8} {last : Option (Copy UInt8 UInt8)} {d : Delivery} {c : Copy UInt8 UInt8}

theorem copy_of_isNumbered (h : d.rsp.isNumbered = true) :
    d.copy = some ⟨d.index, d.rsp.solPacket.packetSequenceNumber, d.rsp.chars⟩ := if_pos h

/-- The characters of a console packet that are new. -/
theorem newChars_eq (htracks : Tracks seq r last) (hproper : d.Proper) (hnumbered : d.rsp.isNumbered = true)
    (hcopy : d.copy = some c) (hcontinues : Continues last c) (hseq : c.seq = seq c.index) :
    r.newChars d.rsp = newText last c := by
  rw [copy_of_isNumbered hnumbered] at hcopy
  obtain rfl := Option.some.inj hcopy
  have hsol : d.rsp.isSolPacket = true := (Bool.and_eq_true_iff.1 hnumbered).1
  have htrim := chars_trim (hproper.numbered hnumbered).1 r.lastReceivedByteCount
  unfold newChars
  cases last with
  | none =>
    change d.index = 0 at hcontinues
    change d.rsp.solPacket.packetSequenceNumber = seq d.index at hseq
    show _ = d.rsp.chars
    rcases htracks.none rfl with hzero | hother
    · have hsame : (d.rsp.trim r.lastReceivedByteCount).chars = d.rsp.chars := by
        rw [htrim, hzero]
        rfl
      rw [hsame, ite_self]
    · rw [if_neg]
      rintro ⟨-, heq⟩
      rw [hseq, hcontinues] at heq
      exact hother heq.symm
  | some b =>
    obtain ⟨hlast, hcount⟩ := htracks.some b rfl
    rcases hcontinues with ⟨hindex, hsame, -⟩ | ⟨hindex, hother⟩
    · have hnew : newText (some b) ⟨d.index, d.rsp.solPacket.packetSequenceNumber, d.rsp.chars⟩ =
          d.rsp.chars.drop b.text.length := if_pos hindex.symm
      rw [if_pos ⟨hsol, by rw [hlast]; exact hsame.symm⟩, htrim, hcount, hnew]
    · have hne : b.index ≠ d.index := by
        change d.index = b.index + 1 at hindex
        omega
      have hnew : newText (some b) ⟨d.index, d.rsp.solPacket.packetSequenceNumber, d.rsp.chars⟩ = d.rsp.chars :=
        if_neg hne
      rw [if_neg fun hand => hother (hlast.symm.trans hand.2.symm), hnew]

/-- The packet taken is the one that is remembered. -/
theorem tracks_take (hproper : d.Proper) (hnumbered : d.rsp.isNumbered = true) (hcopy : d.copy = some c) :
    Tracks seq (r.take e d.rsp) (some c) := by
  rw [copy_of_isNumbered hnumbered] at hcopy
  obtain rfl := Option.some.inj hcopy
  refine ⟨?_, nofun⟩
  rintro _ ⟨⟩
  obtain ⟨hlow, hhigh⟩ := hproper.numbered hnumbered
  unfold take
  simp only [hnumbered, if_true, toNat_ofInt hlow hhigh, length_chars, and_self]

/-- Another SOL packet or a response is not remembered. -/
theorem Tracks.take_other (h : Tracks seq r last) (hnot : d.rsp.isNumbered = false) :
    Tracks seq (r.take e d.rsp) last := by
  unfold take
  simp only [hnot, Bool.false_eq_true, if_false]
  exact ⟨h.some, h.none⟩

theorem Tracks.drop (h : Tracks seq r last) : Tracks seq r.drop last := ⟨h.some, h.none⟩

/-- Nothing of it is written. -/
theorem take_other_written (hproper : d.Proper) (hnot : d.rsp.isNumbered = false) :
    (r.take e d.rsp).written = r.written := by
  rw [take_written]
  cases hsol : d.rsp.isSolPacket with
  | false => exact List.append_nil _
  | true =>
    have hempty := hproper.ackOnly hsol hnot
    have hchars : d.rsp.chars = [] := chars_of_dataLen hempty
    have hnone : r.newChars d.rsp = [] := by
      unfold newChars
      rw [chars_trim (Int.le_of_eq hempty.symm), hchars, List.drop_nil, ite_self]
    rw [if_pos rfl, hnone]
    exact List.append_nil _

/-! ### All packets -/

/-- `taken` tells which of the results are acknowledged. -/
def Agrees (e : Env) (taken : Nat → Bool) (r : Receiver) (hs : List Heard) : Prop :=
  ∀ k, r.polled ≤ k → k < r.polled + hs.length → taken k = (hs.foldl (hear e) r).received.any fun x => x.1 == k

theorem Agrees.tail {taken : Nat → Bool} {h : Heard} {hs : List Heard} (hagrees : Agrees e taken r (h :: hs)) :
    Agrees e taken (r.hear e h) hs := by
  intro k hlow hhigh
  rw [hear_polled] at hlow hhigh
  apply hagrees k (by omega)
  rw [List.length_cons]
  omega

/-- The first result is acknowledged if it is a console packet that is taken. -/
theorem Agrees.head {taken : Nat → Bool} {rsp : Rs} {b : Bool} {hs : List Heard} (hmarked : r.Marked)
    (hagrees : Agrees e taken r (⟨some rsp, b⟩ :: hs)) : taken r.polled = (b && rsp.isNumbered) := by
  have hfirst := hagrees r.polled (Nat.le_refl _) (by rw [List.length_cons]; omega)
  obtain ⟨-, ⟨l, hl, hlow⟩, -⟩ := foldl_before (e := e) hs (r.hear e ⟨some rsp, b⟩)
  have hlater : (l.any fun x => x.1 == r.polled) = false := by
    apply List.any_eq_false.2
    intro x hx heq
    have hbounds := (hlow x hx).1
    rw [hear_polled] at hbounds
    have hsame := beq_iff_eq.1 heq
    omega
  have hearlier : (r.received.any fun x => x.1 == r.polled) = false := by
    apply List.any_eq_false.2
    intro x hx heq
    exact Nat.ne_of_lt (hmarked.received x hx) (beq_iff_eq.1 heq)
  rw [hfirst]
  show (((hs.foldl (hear e) (r.hear e ⟨some rsp, b⟩)).received).any fun x => x.1 == r.polled) = _
  rw [hl, List.any_append, hlater, Bool.or_false]
  cases b with
  | false => exact hearlier
  | true =>
    show ((r.received ++ if rsp.isNumbered then [(r.polled, r.newChars rsp)] else []).any _) = _
    rw [List.any_append, hearlier]
    cases rsp.isNumbered with
    | false => rfl
    | true => simp

/-- The packets that are heard one after the other, with those acknowledged in `taken`. -/
inductive Hears (e : Env) (taken : Nat → Bool) : Receiver → List Heard → List (Option Delivery) → Prop where
  | nil {r : Receiver} : Hears e taken r [] []
  | timeout {r : Receiver} {b : Bool} {hs : List Heard} {script : List (Option Delivery)}
      (hrest : Hears e taken r.drop hs script) : Hears e taken r (⟨none, b⟩ :: hs) (none :: script)
  | packet {r : Receiver} {d : Delivery} {b : Bool} {hs : List Heard} {script : List (Option Delivery)}
      (hproper : d.Proper) (htaken : taken r.polled = (b && d.rsp.isNumbered))
      (hrest : Hears e taken (r.hear e ⟨some d.rsp, b⟩) hs script) :
      Hears e taken r (⟨some d.rsp, b⟩ :: hs) (some d :: script)

theorem hears {taken : Nat → Bool} (hs : List Heard) : ∀ {r : Receiver} {script : List (Option Delivery)},
    r.Marked → script.map (Option.map Delivery.rsp) = hs.map Heard.response → Agrees e taken r hs →
    (∀ d, some d ∈ script → d.Proper) → Hears e taken r hs script := by
  induction hs with
  | nil =>
    intro r script _ hscript _ _
    obtain rfl := List.map_eq_nil_iff.1 hscript
    exact .nil
  | cons h hs ih =>
    intro r script hmarked hscript hagrees hproper
    cases script with
    | nil => cases hscript
    | cons first script =>
      obtain ⟨hfirst, hrest⟩ := List.cons.inj hscript
      have hlater := ih (hmarked.before (hear_before (e := e) h)) hrest hagrees.tail fun d hd => hproper d (.tail _ hd)
      obtain ⟨rsp, b⟩ := h
      cases first with
      | none =>
        obtain rfl : none = rsp := hfirst
        exact .timeout hlater
      | some d =>
        obtain rfl : some d.rsp = rsp := hfirst
        exact .packet (hproper d (.head _)) (hagrees.head hmarked) hlater

/-- **The log.** What is written for a chain of copies are their new texts. -/
theorem Hears.written {taken : Nat → Bool} {hs : List Heard} {script : List (Option Delivery)}
    (h : Hears e taken r hs script) : ∀ {last : Option (Copy UInt8 UInt8)}, Tracks seq r last →
    Chain last (copies Delivery.copy taken r.polled script) →
    (∀ c ∈ copies Delivery.copy taken r.polled script, c.seq = seq c.index) →
    (hs.foldl (hear e) r).written.map Prod.snd =
      r.written.map Prod.snd ++ newTexts last (copies Delivery.copy taken r.polled script) := by
  induction h with
  | nil =>
    intro last _ _ _
    exact (List.append_nil _).symm
  | timeout _ ih => exact fun htracks hchain hseqs => ih htracks.drop hchain hseqs
  | @packet r d b hs script hproper htaken _ ih =>
    intro last htracks hchain hseqs
    rw [hear_polled] at ih
    unfold copies at hchain hseqs ⊢
    rw [htaken] at hchain hseqs ⊢
    cases hnumbered : d.rsp.isNumbered with
    | false =>
      rw [hnumbered, Bool.and_false] at hchain hseqs
      have hsame : (r.hear e ⟨some d.rsp, b⟩).written = r.written := by
        cases b with
        | false => rfl
        | true => exact take_other_written hproper hnumbered
      have htracks' : Tracks seq (r.hear e ⟨some d.rsp, b⟩) last := by
        cases b with
        | false => exact htracks.drop
        | true => exact htracks.take_other hnumbered
      rw [hsame] at ih
      rw [Bool.and_false]
      exact ih htracks' hchain hseqs
    | true =>
      cases b with
      | false =>
        rw [Bool.false_and] at hchain hseqs
        exact ih htracks.drop hchain hseqs
      | true =>
        have hcopy := copy_of_isNumbered hnumbered
        rw [hnumbered, Bool.and_true, if_pos rfl, hcopy] at hchain hseqs
        obtain ⟨hseq, hseqs'⟩ := List.forall_mem_cons.1 hseqs
        rw [Bool.and_true, if_pos rfl, hcopy]
        cases hchain with
        | cons hcontinues hchain' =>
          have hnew := newChars_eq htracks hproper hnumbered hcopy hcontinues hseq
          have hsol : d.rsp.isSolPacket = true := (Bool.and_eq_true_iff.1 hnumbered).1
          have hlog : (r.hear e ⟨some d.rsp, true⟩).written.map Prod.snd =
              r.written.map Prod.snd ++ r.newChars d.rsp := by
            show (r.take e d.rsp).written.map Prod.snd = _
            rw [take_written, hsol, if_pos rfl, List.map_append, List.map_map]
            exact congrArg _ (List.map_id _)
          refine (ih (tracks_take hproper hnumbered hcopy) hchain' hseqs').trans ?_
          rw [hlog, hnew, List.append_assoc]
          rfl

/-- **The acknowledgements.** Each is of a copy, and counts its characters. -/
theorem Hears.sent {taken : Nat → Bool} {hs : List Heard} {script : List (Option Delivery)}
    (h : Hears e taken r hs script) : ∀ p ∈ (hs.foldl (hear e) r).sent, p ∈ r.sent ∨
      ∃ c ∈ copies Delivery.copy taken r.polled script,
        p.ackedPacketNumber = c.seq ∧ p.acceptedCharacterCount.toNat = c.text.length := by
  induction h with
  | nil => exact fun p hp => .inl hp
  | timeout _ ih => exact ih
  | @packet r d b hs script hproper htaken _ ih =>
    intro p hp
    rw [hear_polled] at ih
    unfold copies
    rw [htaken]
    rcases ih p hp with hsent | ⟨c, hc, hcount⟩
    · cases b with
      | false => exact .inl hsent
      | true =>
        rcases List.mem_append.1 (show p ∈ r.sent ++ _ from hsent) with hsent | hsent
        · exact .inl hsent
        · split at hsent
          · rename_i hack
            have hnumbered := hack.1
            refine .inr ⟨⟨d.index, d.rsp.solPacket.packetSequenceNumber, d.rsp.chars⟩, ?_, ?_⟩
            · rw [hnumbered, Bool.and_true, if_pos rfl, copy_of_isNumbered hnumbered]
              exact .head _
            · obtain ⟨hlow, hhigh⟩ := hproper.numbered hnumbered
              rw [List.mem_singleton.1 hsent]
              exact ⟨rfl, (toNat_ofInt hlow hhigh).trans (length_chars d.rsp).symm⟩
          · exact absurd hsent List.not_mem_nil
    · exact .inr ⟨c, List.mem_append_right _ hc, hcount⟩

theorem any_append_of_le {l l' : List (Nat × List UInt8)} {k n : Nat} (hk : k < n) (hl' : ∀ x ∈ l', n ≤ x.1) :
    ((l ++ l').any fun x => x.1 == k) = l.any fun x => x.1 == k := by
  have hnone : (l'.any fun x => x.1 == k) = false := by
    apply List.any_eq_false.2
    intro x hx heq
    have hle := hl' x hx
    have hsame := beq_iff_eq.1 heq
    omega
  rw [List.any_append, hnone, Bool.or_false]

/-- The first results of polling, and those after them. -/
theorem foldl_take (hs : List Heard) (n : Nat) (r : Receiver) :
    hs.foldl (hear e) r = (hs.drop n).foldl (hear e) ((hs.take n).foldl (hear e) r) := by
  conv_lhs => rw [← List.take_append_drop n hs, List.foldl_append]

theorem Agrees.take {taken : Nat → Bool} {hs : List Heard} (h : Agrees e taken r hs) (n : Nat) :
    Agrees e taken r (hs.take n) := by
  intro k hlow hhigh
  have hle : (hs.take n).length ≤ hs.length := List.length_take_le' n hs
  obtain ⟨-, ⟨l, hl, hlater⟩, -⟩ := foldl_before (e := e) (hs.drop n) ((hs.take n).foldl (hear e) r)
  rw [h k hlow (by omega), foldl_take hs n, hl]
  apply any_append_of_le (n := r.polled + (hs.take n).length) hhigh
  intro x hx
  rw [← foldl_polled (e := e)]
  exact (hlater x hx).1

/-- The bytes of the first results are those written until then. -/
theorem foldl_writtenBefore (hs : List Heard) {n : Nat} (hn : n ≤ hs.length) (hmarked : r.Marked) :
    ((hs.foldl (hear e) r).written.filter fun w => w.1 < r.polled + n) = ((hs.take n).foldl (hear e) r).written := by
  have hpolled : ((hs.take n).foldl (hear e) r).polled = r.polled + n := by
    rw [foldl_polled, List.length_take_of_le hn]
  obtain ⟨-, -, l, hl, hlater⟩ := foldl_before (e := e) (hs.drop n) ((hs.take n).foldl (hear e) r)
  have hmarked' := hmarked.before (foldl_before (e := e) (hs.take n) r)
  rw [foldl_take hs n, hl, List.filter_append]
  have hall : (((hs.take n).foldl (hear e) r).written.filter fun w => w.1 < r.polled + n) =
      ((hs.take n).foldl (hear e) r).written := by
    apply List.filter_eq_self.2
    intro w hw
    exact decide_eq_true (hpolled ▸ hmarked'.written w hw)
  have hnone : (l.filter fun w => w.1 < r.polled + n) = [] := by
    apply List.filter_eq_nil_iff.2
    intro w hw hless
    have hbounds := (hlater w hw).1
    have hless := of_decide_eq_true hless
    omega
  rw [hall, hnone, List.append_nil]

end Receiver

/-! ### The run -/

namespace Logging
variable (x : Logging)

theorem marked : x.console.receiver.Marked := by
  constructor
  · rw [show x.console.receiver.received = [] from x.received_nil]
    exact List.forall_mem_nil _
  · rw [show x.console.receiver.written = [] from x.written_nil]
    exact List.forall_mem_nil _

theorem tracks : x.console.receiver.Tracks x.seq none := ⟨nofun, fun _ => x.fresh⟩

/-- The run as a fold over what is polled. -/
theorem heard : ∃ hs : List Heard, x.final.receiver = hs.foldl (Receiver.hear x.env) x.console.receiver ∧
    x.final.polled = hs.length ∧
    ∀ n ≤ hs.length, (x.script.take n).map (Option.map Delivery.rsp) = (hs.take n).map Heard.response := by
  obtain ⟨_, c, hrun, hs, hplays⟩ := went_runOps x.env x.ops x.console
  have hfinal : x.final = c := by
    unfold final finalState
    rw [hrun]
  have hzero : x.console.receiver.polled = 0 := x.polled_zero
  refine ⟨hs, by rw [hfinal]; exact hplays.receiver, ?_, fun n hn => ?_⟩
  · have hpolled := congrArg Receiver.polled hplays.receiver
    rw [Receiver.foldl_polled, hzero, Nat.zero_add] at hpolled
    rw [hfinal]
    exact hpolled
  · rw [List.map_take, ← x.polls_eq, hplays.polls, List.take_append_of_le_length (by rw [List.length_map]; exact hn),
      List.map_take]

theorem handled_chain {n : Nat} (hn : n ≤ x.final.polled) : Chain none (x.handled n) ∧
    (∀ c ∈ x.handled n, c.seq = x.seq c.index) ∧ ∀ d, some d ∈ x.script.take n → d.Proper := by
  have hserves : Serves x.seq Delivery.copy Delivery.Proper x.final.acknowledged 0 Link.start
      ((x.script.take x.final.polled).take n) := x.serves.take n
  rw [List.take_take, Nat.min_eq_left hn] at hserves
  obtain ⟨hchain, hseqs⟩ := hserves.chain x.seq_ne sound_start
  exact ⟨hchain, hseqs, hserves.forall_ok (List.forall_mem_nil _)⟩

/-- **Every numbered packet that the main loop polls** is among the copies that are handled; for the keepalives
`keepaliveLoop_handles` says the same. -/
theorem receive_handled {before after : List Op} {c : Console} {rsp : Rs} {rest : List (Option Rs)}
    (hops : x.ops = before ++ .receive :: after) (hbefore : runOps x.env before x.console = .ok ⟨⟩ c)
    (hpolls : c.polls = some rsp :: rest) (hnumbered : rsp.isNumbered = true) :
    ∃ index, ⟨index, rsp.solPacket.packetSequenceNumber, rsp.chars⟩ ∈ x.handled x.final.polled := by
  have hzero : x.console.receiver.polled = 0 := x.polled_zero
  -- what has been polled before, and what the packet is in the script
  obtain ⟨_, c', hbefore', hs, hplays⟩ := went_runOps x.env before x.console
  obtain ⟨-, rfl⟩ := EStateM.Result.ok.inj (hbefore.symm.trans hbefore')
  have hpolled : c.polled = hs.length := by
    have hpolled := congrArg Receiver.polled hplays.receiver
    rwa [Receiver.foldl_polled, hzero, Nat.zero_add] at hpolled
  have hscript : x.script.map (Option.map Delivery.rsp) = hs.map Heard.response ++ some rsp :: rest := by
    rw [← x.polls_eq, hplays.polls, hpolls]
  obtain ⟨earlier, later, hsplit, hearlier, hlater⟩ := List.map_eq_append_iff.1 hscript
  have hlength : earlier.length = c.polled := by
    rw [hpolled, ← List.length_map (f := Option.map Delivery.rsp), hearlier, List.length_map]
  obtain ⟨d, later, rfl, hd, -⟩ := List.map_eq_cons_iff.1 hlater
  obtain ⟨d, rfl, rfl⟩ := Option.map_eq_some_iff.1 hd
  -- it is handled, and stays so
  obtain ⟨_, c₁, hrun₁, hhandles⟩ := readBmc_handles (e := x.env) .start hpolls hnumbered
  obtain ⟨_, c₂, hrun₂, hwent⟩ := went_runOps x.env after c₁
  have hfinal : x.final = c₂ := by
    have hreceive : Op.run x.env .receive c = .ok ⟨⟩ c₁ := bind_ok hrun₁
    have hrun : runOps x.env x.ops x.console = .ok ⟨⟩ c₂ := by
      rw [hops, runOps_append, bind_ok hbefore]
      exact (bind_ok hreceive).trans hrun₂
    unfold final finalState
    rw [hrun]
  obtain ⟨⟨chars, hnoted⟩, -⟩ := hwent.handles hhandles
  rw [← hfinal] at hnoted
  have htaken : x.final.acknowledged (0 + earlier.length) = true := by
    rw [Nat.zero_add, hlength]
    exact List.any_eq_true.2 ⟨_, hnoted, beq_self_eq_true _⟩
  have hmarked : x.final.receiver.Marked := by
    obtain ⟨hs', hreceiver, -⟩ := x.heard
    rw [hreceiver]
    exact x.marked.before (Receiver.foldl_before hs' _)
  have hbound : earlier.length < x.final.polled := hlength ▸ hmarked.received _ hnoted
  obtain ⟨n, hn⟩ := Nat.exists_eq_add_of_lt hbound
  refine ⟨d.index, ?_⟩
  unfold handled
  rw [hsplit, hn, List.take_append, List.take_of_length_le (by omega),
    show earlier.length + n + 1 - earlier.length = n + 1 by omega, List.take_succ_cons]
  exact mem_copies _ (Receiver.copy_of_isNumbered hnumbered) _ earlier htaken

/-- **The console log has every packet once.** -/
theorem exactlyOnce : x.ExactlyOnce := by
  obtain ⟨hs, hreceiver, hpolled, hscript⟩ := x.heard
  have hzero : x.console.receiver.polled = 0 := x.polled_zero
  have hagrees : Receiver.Agrees x.env x.final.acknowledged x.console.receiver hs := by
    intro k _ _
    rw [← hreceiver]
    rfl
  constructor
  case written =>
    intro n hn m hm
    obtain ⟨hchain, hseqs, hproper⟩ := x.handled_chain hn
    rw [hpolled] at hn
    have hbefore := Receiver.foldl_writtenBefore (e := x.env) hs hn x.marked
    rw [← hreceiver, hzero, Nat.zero_add] at hbefore
    have hwritten := (Receiver.hears _ x.marked (hscript n hn) (hagrees.take n) hproper).written x.tracks
    rw [hzero] at hwritten
    rw [← log_chain hchain hm]
    unfold Console.writtenBefore
    refine (congrArg _ hbefore).trans ((hwritten hchain hseqs).trans ?_)
    rw [show x.console.receiver.written = [] from x.written_nil]
    rfl
  case texts =>
    intro n hn
    obtain ⟨hchain, -, -⟩ := x.handled_chain hn
    exact text_of_chain hchain upTo_nil (List.forall_mem_nil _)
  case acknowledged =>
    intro p hp
    obtain ⟨-, -, hproper⟩ := x.handled_chain (Nat.le_refl _)
    rw [hpolled] at hproper
    have hheard := hscript hs.length (Nat.le_refl _)
    rw [List.take_length] at hheard
    have hsent := (Receiver.hears hs x.marked hheard hagrees hproper).sent p
    rw [← hreceiver, hzero] at hsent
    rcases hsent hp with hold | hcopy
    · rw [show x.console.receiver.sent = [] from x.sent_nil] at hold
      exact absurd hold List.not_mem_nil
    · unfold handled
      rw [hpolled]
      exact hcopy
  case all =>
    have hbefore := Receiver.foldl_writtenBefore (e := x.env) hs (Nat.le_refl _) x.marked
    rw [← hreceiver, hzero, Nat.zero_add, List.take_length, ← hreceiver] at hbefore
    unfold Console.writtenBefore
    rw [hpolled]
    exact congrArg _ hbefore

/-- A SOL packet with the sequence number 1. -/
def firstPacket (chars : Nat) : Delivery where
  index := 0
  rsp :=
    { number := 0, authtype := authtypeRmcpPlus, payloadtype := payloadTypeSol, ccode := 0
      solPacket := ⟨1, 0, 0, false, false, false, false, false⟩
      data := fun i => UInt8.ofNat (0x61 + i), dataLen := chars }

theorem firstPacket_proper {chars : Nat} (h : chars ≤ 255) : (firstPacket chars).Proper :=
  ⟨fun _ => ⟨Int.natCast_nonneg chars, Int.ofNat_le.2 h⟩, fun _ hnot => absurd hnot (by show ¬ (true = false); decide)⟩

/-- The main loop gets a packet, and a keepalive gets it again with one more character. -/
def sentTwice : Logging where
  env :=
    { name := "lanplus", fd := 3, opened := true, noanswer := false, retry := 4, port := 623
      solEscapeChar := 0x7E, intelplus := false, i82571spt := false, disableKeepalive := false
      useSolForKeepalive := false, isatty := false }
  console :=
    { polls := [some (firstPacket 2).rsp, some (firstPacket 3).rsp], attempts := []
      lastReceivedSequenceNumber := 1, lastReceivedByteCount := 0, sequenceNumber := 1, startKeepalive := 0
      escapePending := false, lastWasCr := true, inRawMode := false, polled := 0, received := [], written := []
      sent := [], deactivations := [], reads := [], userInputs := [], messages := [] }
  ops := [.receive, .keepalive]
  seq := fun n => if n % 2 = 0 then 1 else 2
  script := [some (firstPacket 2), some (firstPacket 3)]
  seq_ne := by
    intro n
    rcases Nat.mod_two_eq_zero_or_one n with heven | hodd
    · rw [if_pos heven, if_neg (by omega)]
      decide
    · rw [if_neg (by omega), if_pos (by omega)]
      decide
  polls_eq := rfl
  polled_zero := rfl
  received_nil := rfl
  written_nil := rfl
  sent_nil := rfl
  fresh := .inl rfl
  serves := by
    refine .step (.new (.inl rfl) (firstPacket_proper (by decide : 2 ≤ 255)) rfl) ?_
    refine .step (.again rfl rfl (firstPacket_proper (by decide : 3 ≤ 255)) rfl (by decide)) ?_
    exact Serves.take (.deliver rfl (.deliver rfl .done)) _

example : sentTwice.final.written.map Prod.snd = [0x61, 0x62, 0x63] := by decide +kernel

end Logging

end KTools.Sol

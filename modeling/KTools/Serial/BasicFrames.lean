import Mathlib.Data.List.Basic
import KTools.Serial.BasicMode

/-!
# Frames in the basic mode

A line carries messages when they come as frames, with handshakes in them and noise between them (`Carries`).
Whatever the reads return and whenever the line is silent, the messages that are received are messages of the line
in their order (`recvMsgs_sublist`): a message is lost when the line gets silent within its frame, and no other one
is affected. Without silence nothing is lost (`recvMsgs_complete`), except that a frame which is in the buffer
already is not looked at before there is something more to read.
-/

namespace KTools.Serial.BasicMode
open KTools.Lib.Bytes

/-! ### Escapes -/

theorem escaped_mem {c : UInt8} (h : serialBmGetEscapedChar c ≠ c) :
    (c, serialBmGetEscapedChar c) ∈ characters := by
  unfold serialBmGetEscapedChar at h ⊢
  cases hfind : characters.find? fun x => x.1 == c with
  | none =>
    rw [hfind] at h
    exact absurd rfl h
  | some x =>
    have hc : x.1 = c := by simpa using List.find?_some hfind
    have hx := List.mem_of_find?_eq_some hfind
    rw [← hc]
    exact hx

/-- The substitutes are no special characters, and each gives its character back. -/
theorem characters_spec : ∀ x ∈ characters, serialBmGetUnescapedChar x.2 = x.1 ∧ x.1 ≠ x.2 ∧ x.2 ≠ bmStart := by
  intro x hx
  simp only [characters, List.mem_cons, List.not_mem_nil, or_false] at hx
  rcases hx with rfl | rfl | rfl | rfl | rfl <;> decide

/-- The characters that a frame is built with are among the special ones. -/
theorem escapes_special : ∀ c ∈ [bmStart, bmStop, bmHandshake, bmEscape], serialBmGetEscapedChar c ≠ c := by
  intro c hc
  simp only [List.mem_cons, List.not_mem_nil, or_false] at hc
  rcases hc with rfl | rfl | rfl | rfl <;> decide

/-! ### What a line carries -/

/-- The bytes between start and stop: those of the message, escaped or not special, and handshakes. -/
inductive Body : List UInt8 → List UInt8 → Prop where
  | nil : Body [] []
  | handshake {m b : List UInt8} (h : Body m b) : Body m (bmHandshake :: b)
  | plain {m b : List UInt8} (c : UInt8) (hc : c ∉ [bmStart, bmStop, bmHandshake, bmEscape]) (h : Body m b) :
      Body (c :: m) (c :: b)
  | escape {m b : List UInt8} (c : UInt8) (hc : serialBmGetEscapedChar c ≠ c) (h : Body m b) :
      Body (c :: m) (bmEscape :: serialBmGetEscapedChar c :: b)

/-- The line carries these messages, in this order. -/
inductive Carries : List UInt8 → List (List UInt8) → Prop where
  | noise {n : List UInt8} (hn : bmStart ∉ n) : Carries n []
  | frame {n m b rest : List UInt8} {ms : List (List UInt8)} (hn : bmStart ∉ n) (hb : Body m b)
      (h : Carries rest ms) : Carries (n ++ bmStart :: (b ++ bmStop :: rest)) (m :: ms)

theorem body_escaped (m : List UInt8) : Body m (m.flatMap escaped) := by
  induction m with
  | nil => exact .nil
  | cons c rest ih =>
    rw [List.flatMap_cons]
    unfold escaped
    by_cases hc : serialBmGetEscapedChar c = c
    · rw [if_neg (not_not.2 hc), hc]
      exact .plain c (fun hmem => escapes_special c hmem hc) ih
    · rw [if_pos hc]
      exact .escape c hc ih

/-- A message as `serial_bm_send_msg` writes it. -/
theorem Carries.sent {m rest : List UInt8} {ms : List (List UInt8)} (h : Carries rest ms) :
    Carries (serialBmSendMsg m ++ rest) (m :: ms) := by
  have hframe : Carries ([] ++ bmStart :: (m.flatMap escaped ++ bmStop :: rest)) (m :: ms) :=
    .frame List.not_mem_nil (body_escaped m) h
  have hbytes : serialBmSendMsg m ++ rest = bmStart :: (m.flatMap escaped ++ bmStop :: rest) := by
    rw [serialBmSendMsg, List.cons_append, List.append_assoc]
    rfl
  rw [hbytes]
  exact hframe

theorem Body.not_start {m b : List UInt8} (h : Body m b) : bmStart ∉ b := by
  induction h with
  | nil => exact List.not_mem_nil
  | handshake h ih => exact List.not_mem_cons_of_ne_of_not_mem (by decide) ih
  | plain c hc h ih =>
    refine List.not_mem_cons_of_ne_of_not_mem ?_ ih
    rintro rfl
    exact hc List.mem_cons_self
  | escape c hc h ih =>
    have hne := (characters_spec _ (escaped_mem hc)).2.2
    exact List.not_mem_cons_of_ne_of_not_mem (by decide) (List.not_mem_cons_of_ne_of_not_mem hne.symm ih)

/-- Noise may come before everything. -/
theorem Carries.skip {n bs : List UInt8} {ms : List (List UInt8)} (hn : bmStart ∉ n) (h : Carries bs ms) :
    Carries (n ++ bs) ms := by
  cases h with
  | noise hn' => exact .noise fun hmem => (List.mem_append.1 hmem).elim hn hn'
  | frame hn' hb h =>
    rw [← List.append_assoc]
    exact .frame (fun hmem => (List.mem_append.1 hmem).elim hn hn') hb h

/-! ### The parser on such a line -/

/-- Where the parser is, the bytes that it has not seen, and the messages that are still to come: it skips, or it
is within a frame, or between an escape and its substitute. -/
inductive Stage (ctx : ParseCtx) : List UInt8 → List (List UInt8) → Prop where
  | skipping {bs : List UInt8} {ms : List (List UInt8)} (hstate : ctx.state = .none) (h : Carries bs ms) :
      Stage ctx bs ms
  | within {m b rest : List UInt8} {ms : List (List UInt8)} (hstate : ctx.state = .inProgress)
      (hescape : ctx.escape = false) (hb : Body m b) (h : Carries rest ms) :
      Stage ctx (b ++ bmStop :: rest) ((ctx.msg ++ m) :: ms)
  | escaping {m b rest : List UInt8} {ms : List (List UInt8)} (hstate : ctx.state = .inProgress)
      (hescape : ctx.escape = true) (c : UInt8) (hc : serialBmGetEscapedChar c ≠ c) (hb : Body m b)
      (h : Carries rest ms) : Stage ctx (serialBmGetEscapedChar c :: (b ++ bmStop :: rest)) ((ctx.msg ++ c :: m) :: ms)

theorem Stage.not_done {ctx : ParseCtx} {bs : List UInt8} {ms : List (List UInt8)} (h : Stage ctx bs ms) :
    ctx.state ≠ .done := by
  cases h with
  | skipping hstate _ => rw [hstate]; decide
  | within hstate _ _ _ => rw [hstate]; decide
  | escaping hstate _ _ _ _ _ => rw [hstate]; decide

/-- A parser that skips has lost nothing. -/
theorem Stage.skipped {ctx : ParseCtx} {bs : List UInt8} {ms : List (List UInt8)} (h : Stage ctx bs ms)
    (hnone : ctx.state = .none) : Carries bs ms := by
  cases h with
  | skipping _ h => exact h
  | within hstate _ _ _ =>
    rw [hnone] at hstate
    cases hstate
  | escaping hstate _ _ _ _ _ =>
    rw [hnone] at hstate
    cases hstate

/-- When the parser starts again, it may have lost the message that it was in. -/
theorem Stage.restart {ctx : ParseCtx} {bs : List UInt8} {ms : List (List UInt8)} (h : Stage ctx bs ms) :
    ∃ ms', ms'.Sublist ms ∧ Carries bs ms' ∧ (bs = [] → ms' = ms) := by
  cases h with
  | skipping _ h => exact ⟨ms, .refl _, h, fun _ => rfl⟩
  | @within m b rest ms _ _ hb h =>
    refine ⟨ms, List.sublist_cons_self _ _, ?_, fun hnil => absurd hnil (by simp)⟩
    have hnoise : bmStart ∉ b ++ [bmStop] := by
      rw [List.mem_append, List.mem_singleton]
      exact fun hmem => hmem.elim hb.not_start (by decide)
    have hskipped := Carries.skip hnoise h
    rw [List.append_assoc] at hskipped
    exact hskipped
  | @escaping m b rest ms _ _ c hc hb h =>
    refine ⟨ms, List.sublist_cons_self _ _, ?_, fun hnil => absurd hnil (List.cons_ne_nil _ _)⟩
    have hnoise : bmStart ∉ serialBmGetEscapedChar c :: (b ++ [bmStop]) := by
      refine List.not_mem_cons_of_ne_of_not_mem (characters_spec _ (escaped_mem hc)).2.2.symm ?_
      rw [List.mem_append, List.mem_singleton]
      exact fun hmem => hmem.elim hb.not_start (by decide)
    have hskipped := Carries.skip hnoise h
    rw [List.cons_append, List.append_assoc] at hskipped
    exact hskipped

/-- What the parser does with one byte of such a line. -/
theorem parseByte_stage {ctx : ParseCtx} {c : UInt8} {bs : List UInt8} {ms : List (List UInt8)}
    (h : Stage ctx (c :: bs) ms) (hfit : ∀ m ∈ ms, m.length ≤ ctx.maxLen) :
    (∃ ctx', parseByte ctx c = (ctx', .next) ∧ ctx'.maxLen = ctx.maxLen ∧ Stage ctx' bs ms) ∨
      ∃ ctx' ms', parseByte ctx c = (ctx', .finished) ∧ ctx'.state = .done ∧ ms = ctx'.msg :: ms' ∧
        Carries bs ms' := by
  generalize hbytes : c :: bs = bytes at h
  cases h with
  | skipping hstate h =>
    refine .inl ?_
    by_cases hc : c = bmStart
    · refine ⟨{ ctx with state := .inProgress, escape := false, msg := [] }, by simp [parseByte, hc], rfl, ?_⟩
      cases h with
      | noise hn =>
        rw [← hbytes, hc] at hn
        exact absurd List.mem_cons_self hn
      | @frame n m b rest ms hn hb h =>
        cases n with
        | nil =>
          obtain rfl := (List.cons.inj hbytes).2
          exact @Stage.within { ctx with state := .inProgress, escape := false, msg := [] } _ _ _ _ rfl rfl hb h
        | cons x n =>
          obtain rfl := (List.cons.inj hbytes).1
          exact absurd (hc ▸ List.mem_cons_self) hn
    · refine ⟨ctx, by simp [parseByte, hc, hstate], rfl, .skipping hstate ?_⟩
      cases h with
      | noise hn =>
        refine .noise fun hmem => hn ?_
        rw [← hbytes]
        exact .tail _ hmem
      | @frame n m b rest ms hn hb h =>
        cases n with
        | nil => exact absurd (List.cons.inj hbytes).1 hc
        | cons x n =>
          obtain rfl := (List.cons.inj hbytes).2
          exact .frame (fun hmem => hn (.tail _ hmem)) hb h
  | @within m b rest ms hstate hescape hb h =>
    cases hb with
    | nil =>
      obtain ⟨rfl, rfl⟩ := List.cons.inj hbytes
      refine .inr ⟨{ ctx with state := .done }, ms, ?_, rfl, by rw [List.append_nil], h⟩
      have hne : bmStop ≠ bmStart ∧ bmStop ≠ bmEscape := by decide
      simp [parseByte, hstate, hescape, hne]
    | @handshake m b hb =>
      obtain ⟨rfl, rfl⟩ := List.cons.inj hbytes
      refine .inl ⟨ctx, ?_, rfl, .within hstate hescape hb h⟩
      have hne : bmHandshake ≠ bmStart ∧ bmHandshake ≠ bmEscape ∧ bmHandshake ≠ bmStop := by decide
      simp [parseByte, hstate, hescape, hne]
    | @plain m b x hx hb =>
      obtain ⟨rfl, rfl⟩ := List.cons.inj hbytes
      simp only [List.mem_cons, List.not_mem_nil, or_false, not_or] at hx
      have hlen := hfit _ List.mem_cons_self
      rw [List.length_append, List.length_cons] at hlen
      have hroom : ¬ ctx.maxLen ≤ ctx.msg.length := by omega
      refine .inl ⟨{ ctx with msg := ctx.msg ++ [c] }, ?_, rfl, ?_⟩
      · simp [parseByte, hstate, hescape, hx, hroom]
      · rw [show ctx.msg ++ c :: m = ctx.msg ++ [c] ++ m from List.append_cons ..]
        exact @Stage.within { ctx with msg := ctx.msg ++ [c] } _ _ _ _ hstate hescape hb h
    | @escape m b x hx hb =>
      obtain ⟨rfl, rfl⟩ := List.cons.inj hbytes
      refine .inl ⟨{ ctx with escape := true }, ?_, rfl,
        @Stage.escaping { ctx with escape := true } _ _ _ _ hstate rfl x hx hb h⟩
      have hne : bmEscape ≠ bmStart := by decide
      simp [parseByte, hstate, hescape, hne]
  | @escaping m b rest ms hstate hescape x hx hb h =>
    obtain ⟨rfl, rfl⟩ := List.cons.inj hbytes
    obtain ⟨hback, hne, hstart⟩ := characters_spec _ (escaped_mem hx)
    have hlen := hfit _ List.mem_cons_self
    rw [List.length_append, List.length_cons] at hlen
    have hroom : ¬ ctx.maxLen ≤ ctx.msg.length := by omega
    refine .inl ⟨{ ctx with msg := ctx.msg ++ [x], escape := false }, ?_, rfl, ?_⟩
    · simp only at hback hne hstart
      simp [parseByte, hstate, hescape, hstart, hback, hne, hroom]
    · rw [show ctx.msg ++ x :: m = ctx.msg ++ [x] ++ m from List.append_cons ..]
      exact @Stage.within { ctx with msg := ctx.msg ++ [x], escape := false } _ _ _ _ hstate rfl hb h

/-- What the parser does with the first bytes of such a line: it takes all of them, or it finds the end of a
message and leaves the bytes behind it. -/
theorem parseFrom_stage {xs ys : List UInt8} : ∀ {ctx : ParseCtx} {ms : List (List UInt8)} (i : Nat),
    Stage ctx (xs ++ ys) ms → (∀ m ∈ ms, m.length ≤ ctx.maxLen) →
      (∃ ctx', parseFrom i xs ctx = (((i + xs.length : Nat) : Int), ctx') ∧ ctx'.maxLen = ctx.maxLen ∧
        Stage ctx' ys ms) ∨
      ∃ ctx' ms' pre post, xs = pre ++ post ∧ parseFrom i xs ctx = (((i + pre.length : Nat) : Int), ctx') ∧
        ctx'.state = .done ∧ ms = ctx'.msg :: ms' ∧ Carries (post ++ ys) ms' := by
  induction xs with
  | nil => exact fun i h _ => .inl ⟨_, rfl, rfl, h⟩
  | cons c rest ih =>
    intro ctx ms i h hfit
    rcases parseByte_stage h hfit with ⟨ctx', hstep, hmax, hstage⟩ | ⟨ctx', ms', hstep, hdone, hms, hrest⟩
    · rcases ih (i + 1) hstage (hmax ▸ hfit) with
        ⟨ctx'', hrun, hmax', hstage'⟩ | ⟨ctx'', ms', pre, post, hsplit, hrun, hdone, hms, hrest⟩
      · refine .inl ⟨ctx'', ?_, hmax'.trans hmax, hstage'⟩
        simp only [parseFrom, hstep, hrun, List.length_cons]
        rw [Nat.add_right_comm, ← Nat.add_assoc]
      · refine .inr ⟨ctx'', ms', c :: pre, post, by rw [hsplit]; rfl, ?_, hdone, hms, hrest⟩
        simp only [parseFrom, hstep, hrun, List.length_cons]
        rw [Nat.add_right_comm, ← Nat.add_assoc]
    · refine .inr ⟨ctx', ms', [c], rest, rfl, ?_, hdone, hms, hrest⟩
      simp only [parseFrom, hstep]
      rfl

/-! ### The receive buffer -/

theorem RecvCtx.length_content (r : RecvCtx) : r.content.length = r.bufferSize := length_slice ..

theorem RecvCtx.content_fill (r : RecvCtx) (bytes : List UInt8) : (r.fill bytes).content = r.content ++ bytes := by
  show slice (store r.buffer r.bufferSize bytes) 0 (r.bufferSize + bytes.length) = _
  rw [slice_add, Nat.zero_add, slice_store, slice_store_of_disjoint _ (.inl (Nat.le_of_eq (Nat.zero_add _)))]
  rfl

theorem consume_ofNat (r : RecvCtx) (n : Nat) : r.consume n =
    if n < r.bufferSize then
      { r with
        buffer := store r.buffer 0 (slice r.buffer n (r.bufferSize - n))
        bufferSize := r.bufferSize - n }
    else { r with bufferSize := r.bufferSize - n } := rfl

/-- What has been parsed is taken out of the buffer. -/
theorem consume_spec {r : RecvCtx} {pre post : List UInt8} (h : r.content = pre ++ post) :
    (r.consume (pre.length : Nat)).content = post ∧
      (r.consume (pre.length : Nat)).bufferSize ≤ r.bufferSize ∧
      (r.consume (pre.length : Nat)).maxBufferSize = r.maxBufferSize := by
  have hlength : r.bufferSize = pre.length + post.length := by
    rw [← r.length_content, h, List.length_append]
  rw [consume_ofNat]
  by_cases hlt : pre.length < r.bufferSize
  · rw [if_pos hlt]
    refine ⟨?_, Nat.sub_le _ _, rfl⟩
    have hmoved : slice r.buffer pre.length (r.bufferSize - pre.length) = post := by
      have hdrop : r.content.drop pre.length = post := by rw [h, List.drop_left]
      rw [RecvCtx.content, drop_slice _ _ (Nat.le_of_lt hlt), Nat.zero_add] at hdrop
      exact hdrop
    have hstored := slice_store r.buffer 0 (slice r.buffer pre.length (r.bufferSize - pre.length))
    rw [length_slice] at hstored
    exact hstored.trans hmoved
  · rw [if_neg hlt]
    refine ⟨?_, Nat.sub_le _ _, rfl⟩
    have hnil : post = [] := List.length_eq_zero_iff.1 (by omega)
    rw [hnil]
    exact List.length_eq_zero_iff.1 (by rw [RecvCtx.length_content]; simp only; omega)

theorem consume_maxBufferSize (r : RecvCtx) (rv : Int) : (r.consume rv).maxBufferSize = r.maxBufferSize := by
  cases rv with
  | ofNat n =>
    unfold RecvCtx.consume
    dsimp only
    split <;> rfl
  | negSucc n => rfl

theorem recvTurn_maxBufferSize (r : RecvCtx) (ctx : ParseCtx) (bytes : List UInt8) :
    (recvTurn r ctx bytes).1.maxBufferSize = r.maxBufferSize := consume_maxBufferSize _ _

/-! ### A call -/

/-- The buffer is used within its size. -/
def RecvCtx.Fits (r : RecvCtx) : Prop := r.bufferSize ≤ r.maxBufferSize

/-- The bytes that have not been parsed. -/
def Received.rest (x : Received) : List UInt8 := x.recv.content ++ x.line.stream

/-- What a call does on a line that carries messages: it returns the next one, or none. Without one, the next one
may be lost, but only as long as there are bytes to come. -/
def Received.Proper (ms : List (List UInt8)) (x : Received) : Prop :=
  x.recv.Fits ∧
    match x.result with
    | .message m => ∃ ms', ms = m :: ms' ∧ Carries x.rest ms'
    | .timeout | .error => ∃ ms', ms'.Sublist ms ∧ Carries x.rest ms' ∧ (x.line.stream = [] → ms' = ms)
    | .overrun => False

section call
variable {r : RecvCtx} {ctx : ParseCtx} {ms : List (List UInt8)}

/-- The call ends without a message. -/
theorem Stage.silent {stream : List UInt8} (h : Stage ctx (r.content ++ stream) ms)
    (hparsed : r.content = [] ∨ ctx.state = .none) :
    ∃ ms', ms'.Sublist ms ∧ Carries (r.content ++ stream) ms' ∧ (stream = [] → ms' = ms) := by
  rcases hparsed with hnil | hnone
  · obtain ⟨ms', hsub, hcarries, hsame⟩ := h.restart
    refine ⟨ms', hsub, hcarries, fun hstream => hsame ?_⟩
    rw [hnil, hstream]
    rfl
  · refine ⟨ms, List.Sublist.refl _, h.skipped hnone, fun _ => rfl⟩

/-- A turn parses everything, or it finds the end of the next message. -/
theorem recvTurn_stage {bytes rest : List UInt8} (hfits : r.bufferSize + bytes.length ≤ r.maxBufferSize)
    (h : Stage ctx (r.content ++ (bytes ++ rest)) ms) (hmax : ∀ m ∈ ms, m.length ≤ ctx.maxLen) :
    ∃ r' ctx', recvTurn r ctx bytes = (r', ctx') ∧ r'.Fits ∧
      ((ctx'.maxLen = ctx.maxLen ∧ r'.content = [] ∧ Stage ctx' rest ms) ∨
        ctx'.state = .done ∧ ∃ ms', ms = ctx'.msg :: ms' ∧ Carries (r'.content ++ rest) ms') := by
  have hcontent := r.content_fill bytes
  have hfits' : (r.fill bytes).bufferSize ≤ (r.fill bytes).maxBufferSize := hfits
  rw [← List.append_assoc, ← hcontent] at h
  rcases parseFrom_stage 0 h hmax with
    ⟨ctx', hrun, hmax', hstage⟩ | ⟨ctx', ms', pre, post, hsplit, hrun, hdone, hms, hrest⟩
  · rw [Nat.zero_add] at hrun
    obtain ⟨hnil, hsize, hmaxSize⟩ := consume_spec (r := r.fill bytes) (List.append_nil _).symm
    refine ⟨_, ctx', ?_, Nat.le_trans hsize (hmaxSize ▸ hfits'), .inl ⟨hmax', hnil, hstage⟩⟩
    rw [recvTurn, serialBmParseBuffer, hrun]
  · rw [Nat.zero_add] at hrun
    obtain ⟨hpost, hsize, hmaxSize⟩ := consume_spec hsplit
    refine ⟨_, ctx', ?_, Nat.le_trans hsize (hmaxSize ▸ hfits'), .inr ⟨hdone, ms', hms, ?_⟩⟩
    · rw [recvTurn, serialBmParseBuffer, hrun]
    · rw [hpost]
      exact hrest

theorem recvLoop_proper (events : List Event) : ∀ {stream : List UInt8} {r : RecvCtx} {ctx : ParseCtx}, r.Fits →
    Stage ctx (r.content ++ stream) ms → (r.content = [] ∨ ctx.state = .none) →
      (∀ m ∈ ms, m.length ≤ ctx.maxLen) → (recvLoop stream r ctx events).Proper ms := by
  induction events with
  | nil => exact fun hfits h hparsed _ => ⟨hfits, h.silent hparsed⟩
  | cons event rest ih =>
    intro stream r ctx hfits h hparsed hmax
    cases event with
    | timeout => exact ⟨hfits, h.silent hparsed⟩
    | error => exact ⟨hfits, h.silent hparsed⟩
    | read n =>
      rw [recvLoop, if_neg (Nat.not_lt.2 hfits)]
      generalize hcount : min n (r.maxBufferSize - r.bufferSize) = count
      have hroom : (stream.take count).length ≤ r.maxBufferSize - r.bufferSize :=
        Nat.le_trans (List.length_take_le ..) (hcount ▸ Nat.min_le_right ..)
      have hread : r.bufferSize + (stream.take count).length ≤ r.maxBufferSize := by
        unfold RecvCtx.Fits at hfits
        omega
      rw [← List.take_append_drop count stream] at h
      obtain ⟨r', ctx', hturn, hfits', hnext⟩ := recvTurn_stage hread h hmax
      dsimp only
      rw [hturn]
      dsimp only
      rcases hnext with ⟨hmax', hnil, hstage⟩ | ⟨hdone, ms', hms, hrest⟩
      · rw [if_neg hstage.not_done]
        refine ih hfits' ?_ (.inl hnil) (hmax' ▸ hmax)
        rw [hnil]
        exact hstage
      · rw [if_pos hdone]
        exact ⟨hfits', ms', hms, hrest⟩

/-- **A call** on a line that carries messages. -/
theorem serialBmRecvMsg_proper {maxLen : Nat} {line : Line} (hfits : r.Fits)
    (h : Carries (r.content ++ line.stream) ms) (hmax : ∀ m ∈ ms, m.length ≤ maxLen) :
    (serialBmRecvMsg r maxLen line).Proper ms :=
  recvLoop_proper _ hfits (.skipping rfl h) (.inr rfl) hmax

theorem Stage.not_nil {m : List UInt8} (h : Stage ctx [] (m :: ms)) : False := by
  obtain ⟨ms', -, hcarries, hsame⟩ := h.restart
  obtain rfl := hsame rfl
  generalize hnil : ([] : List UInt8) = bs at hcarries
  cases hcarries with
  | frame hn hb h => simp at hnil

/-- When every read returns something and there are enough of them, the next message is received. -/
theorem recvLoop_delivers {m : List UInt8} (events : List Event) : ∀ {stream : List UInt8} {r : RecvCtx}
    {ctx : ParseCtx}, 0 < r.maxBufferSize → r.content = [] → Stage ctx stream (m :: ms) →
      (∀ m' ∈ m :: ms, m'.length ≤ ctx.maxLen) → (∀ event ∈ events, ∃ n, event = .read (n + 1)) →
        stream.length ≤ events.length → (recvLoop stream r ctx events).result = .message m := by
  induction events with
  | nil =>
    intro stream r ctx _ _ h _ _ hlength
    rw [List.length_eq_zero_iff.1 (Nat.le_zero.1 hlength)] at h
    exact h.not_nil.elim
  | cons event rest ih =>
    intro stream r ctx hbuffer hempty h hmax hreads hlength
    obtain ⟨n, rfl⟩ := hreads event List.mem_cons_self
    have hsize : r.bufferSize = 0 := by rw [← r.length_content, hempty, List.length_nil]
    rw [recvLoop, if_neg (by omega)]
    generalize hcount : min (n + 1) (r.maxBufferSize - r.bufferSize) = count
    have hread : r.bufferSize + (stream.take count).length ≤ r.maxBufferSize := by
      have htake := List.length_take_le count stream
      omega
    rw [← List.take_append_drop count stream, ← List.nil_append (_ ++ _), ← hempty] at h
    obtain ⟨r', ctx', hturn, hfits', hnext⟩ := recvTurn_stage hread h hmax
    have hbuffer' : 0 < r'.maxBufferSize := by
      have hsame := recvTurn_maxBufferSize r ctx (stream.take count)
      rw [hturn] at hsame
      rw [hsame]
      exact hbuffer
    dsimp only
    rw [hturn]
    dsimp only
    rcases hnext with ⟨hmax', hnil, hstage⟩ | ⟨hdone, ms', hms, hrest⟩
    · rw [if_neg hstage.not_done]
      refine ih hbuffer' hnil hstage (hmax' ▸ hmax) (fun event hevent => hreads event (.tail _ hevent)) ?_
      have hdrop : (stream.drop count).length < stream.length ∨ stream = [] := by
        rw [List.length_drop, ← List.length_eq_zero_iff]
        omega
      rcases hdrop with hlt | rfl
      · rw [List.length_cons] at hlength
        omega
      · rw [List.drop_nil]
        exact Nat.zero_le _
    · rw [if_pos hdone]
      exact congrArg RecvEnd.message (List.cons.inj hms).1.symm

end call

/-! ### Call after call -/

/-- The messages that the calls have returned. -/
def messagesOf (ends : List RecvEnd) : List (List UInt8) :=
  ends.filterMap fun
    | .message m => some m
    | _ => none

section calls
variable {maxLen : Nat}

/-- **Whatever the line does**, where its messages fit into `maxLen` bytes, the calls return messages of the line,
unchanged and in their order, and do not overrun the buffer. -/
theorem recvMsgs_sublist (calls : Nat) : ∀ {r : RecvCtx} {line : Line} {ms : List (List UInt8)}, r.Fits →
    Carries (r.content ++ line.stream) ms → (∀ m ∈ ms, m.length ≤ maxLen) →
      (messagesOf (recvMsgs maxLen calls r line).1).Sublist ms ∧
        RecvEnd.overrun ∉ (recvMsgs maxLen calls r line).1 := by
  induction calls with
  | zero => exact fun _ _ _ => ⟨List.nil_sublist _, List.not_mem_nil⟩
  | succ calls ih =>
    intro r line ms hfits h hmax
    have hcall := serialBmRecvMsg_proper hfits h hmax
    obtain ⟨x, hx⟩ : ∃ x, serialBmRecvMsg r maxLen line = x := ⟨_, rfl⟩
    rw [hx] at hcall
    obtain ⟨hfits', hend⟩ := hcall
    rw [recvMsgs, hx]
    cases hresult : x.result with
    | message m =>
      rw [hresult] at hend
      obtain ⟨ms', rfl, hrest⟩ := hend
      obtain ⟨hsub, hover⟩ := ih hfits' hrest fun m hm => hmax m (.tail _ hm)
      exact ⟨hsub.cons_cons m, List.not_mem_cons_of_ne_of_not_mem (fun h => by cases h) hover⟩
    | timeout =>
      rw [hresult] at hend
      obtain ⟨ms', hsub', hrest, -⟩ := hend
      obtain ⟨hsub, hover⟩ := ih hfits' hrest fun m hm => hmax m (hsub'.subset hm)
      exact ⟨hsub.trans hsub', List.not_mem_cons_of_ne_of_not_mem (fun h => by cases h) hover⟩
    | error =>
      rw [hresult] at hend
      obtain ⟨ms', hsub', hrest, -⟩ := hend
      obtain ⟨hsub, hover⟩ := ih hfits' hrest fun m hm => hmax m (hsub'.subset hm)
      exact ⟨hsub.trans hsub', List.not_mem_cons_of_ne_of_not_mem (fun h => by cases h) hover⟩
    | overrun =>
      rw [hresult] at hend
      exact hend.elim

/-- Noise and two messages; the line gets silent within the first one. -/
def brokenLine (events : List Event) : Line :=
  ⟨[0x55] ++ (serialBmSendMsg [1, bmStart] ++ (serialBmSendMsg [2] ++ [])), events⟩

theorem carries_brokenLine (events : List Event) : Carries (brokenLine events).stream [[1, bmStart], [2]] :=
  .skip (by decide) (.sent (.sent (.noise List.not_mem_nil)))

theorem recvMsgs_sublist_broken :
    (messagesOf (recvMsgs serialBmMaxMsgSize 3 (.start fun _ => 0)
        (brokenLine [.read 3, .timeout, .read 100])).1).Sublist [[1, bmStart], [2]] ∧
      RecvEnd.overrun ∉ (recvMsgs serialBmMaxMsgSize 3 (.start fun _ => 0)
        (brokenLine [.read 3, .timeout, .read 100])).1 :=
  recvMsgs_sublist 3 (Nat.zero_le _) (carries_brokenLine [.read 3, .timeout, .read 100]) (by decide)

/-- The line is never silent before its events are over. -/
def ReadsOnly (events : List Event) : Prop := ∀ event ∈ events, ∃ n, event = .read n

/-- A call without a message has used up the events, if they are reads. -/
theorem recvLoop_reads (events : List Event) : ∀ {stream : List UInt8} {r : RecvCtx} {ctx : ParseCtx},
    ReadsOnly events → ReadsOnly (recvLoop stream r ctx events).line.events ∧
      (recvLoop stream r ctx events).result ≠ .error ∧
        ((recvLoop stream r ctx events).result = .timeout → (recvLoop stream r ctx events).line.events = []) := by
  induction events with
  | nil => exact fun h => ⟨h, nofun, fun _ => rfl⟩
  | cons event rest ih =>
    intro stream r ctx h
    have hrest : ReadsOnly rest := fun e he => h e (.tail _ he)
    obtain ⟨n, rfl⟩ := h event List.mem_cons_self
    unfold recvLoop
    dsimp only
    split
    · exact ⟨hrest, nofun, nofun⟩
    · split
      · exact ⟨hrest, nofun, nofun⟩
      · exact ih hrest

/-- Behind the last event every call times out, and nothing changes. -/
theorem recvMsgs_over (calls : Nat) (r : RecvCtx) (stream : List UInt8) :
    ∃ ends, recvMsgs maxLen calls r ⟨stream, []⟩ = (ends, r, ⟨stream, []⟩) ∧ messagesOf ends = [] := by
  induction calls with
  | zero => exact ⟨[], rfl, rfl⟩
  | succ calls ih =>
    obtain ⟨ends, hrun, hnone⟩ := ih
    refine ⟨.timeout :: ends, ?_, hnone⟩
    show (RecvEnd.timeout :: (recvMsgs maxLen calls r ⟨stream, []⟩).1, (recvMsgs maxLen calls r ⟨stream, []⟩).2) = _
    rw [hrun]

/-- **Without silence** no message that fits is lost: those that have come completely have been received, or their
bytes are in the buffer, where nothing looks at them before there is more to read. -/
theorem recvMsgs_complete (calls : Nat) : ∀ {r : RecvCtx} {line : Line} {ms : List (List UInt8)}, r.Fits →
    Carries (r.content ++ line.stream) ms → (∀ m ∈ ms, m.length ≤ maxLen) → ReadsOnly line.events →
      ∃ pending, ms = messagesOf (recvMsgs maxLen calls r line).1 ++ pending ∧
        ((recvMsgs maxLen calls r line).2.2.stream = [] →
          Carries (recvMsgs maxLen calls r line).2.1.content pending) := by
  induction calls with
  | zero =>
    intro r line ms _ h _ _
    refine ⟨ms, rfl, fun hstream => ?_⟩
    change line.stream = [] at hstream
    rw [hstream, List.append_nil] at h
    exact h
  | succ calls ih =>
    intro r line ms hfits h hmax hreads
    have hcall := serialBmRecvMsg_proper hfits h hmax
    obtain ⟨hreads', herror, hover⟩ : ReadsOnly (serialBmRecvMsg r maxLen line).line.events ∧
        (serialBmRecvMsg r maxLen line).result ≠ .error ∧
          ((serialBmRecvMsg r maxLen line).result = .timeout →
            (serialBmRecvMsg r maxLen line).line.events = []) := recvLoop_reads line.events hreads
    obtain ⟨x, hx⟩ : ∃ x, serialBmRecvMsg r maxLen line = x := ⟨_, rfl⟩
    rw [hx] at hcall hreads' herror hover
    obtain ⟨hfits', hend⟩ := hcall
    rw [recvMsgs, hx]
    cases hresult : x.result with
    | message m =>
      rw [hresult] at hend
      obtain ⟨ms', rfl, hrest⟩ := hend
      obtain ⟨pending, hsplit, hpending⟩ := ih hfits' hrest (fun m hm => hmax m (.tail _ hm)) hreads'
      exact ⟨pending, congrArg (m :: ·) hsplit, hpending⟩
    | timeout =>
      rw [hresult] at hend
      obtain ⟨ms', -, hrest, hsame⟩ := hend
      have hline : x.line = ⟨x.line.stream, []⟩ := by rw [← hover hresult]
      obtain ⟨ends, hrun, hnone⟩ := recvMsgs_over calls x.recv x.line.stream
      rw [if_neg nofun, hline, hrun]
      refine ⟨ms, ?_, fun hstream => ?_⟩
      · show ms = messagesOf ends ++ ms
        rw [hnone]
        rfl
      · change x.line.stream = [] at hstream
        rw [Received.rest, hstream, List.append_nil, hsame hstream] at hrest
        exact hrest
    | error => exact absurd hresult herror
    | overrun =>
      rw [hresult] at hend
      exact hend.elim

theorem recvMsgs_complete_broken :
    ∃ pending, [[1, bmStart], [2]] = messagesOf (recvMsgs serialBmMaxMsgSize 3 (.start fun _ => 0)
        (brokenLine [.read 3, .read 100])).1 ++ pending ∧
      ((recvMsgs serialBmMaxMsgSize 3 (.start fun _ => 0) (brokenLine [.read 3, .read 100])).2.2.stream = [] →
        Carries (recvMsgs serialBmMaxMsgSize 3 (.start fun _ => 0)
          (brokenLine [.read 3, .read 100])).2.1.content pending) :=
  recvMsgs_complete 3 (Nat.zero_le _) (carries_brokenLine [.read 3, .read 100]) (by decide) (by
    intro event hevent
    rcases List.mem_pair.1 hevent with rfl | rfl
    · exact ⟨3, rfl⟩
    · exact ⟨100, rfl⟩)

end calls

end KTools.Serial.BasicMode

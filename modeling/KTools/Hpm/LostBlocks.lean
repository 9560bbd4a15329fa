import KTools.Hpm.Rules

/-!
# Lost blocks

On a network a block without an answer may be one that was too large, and `HpmfwupgSendCmd` makes up the answer that
lets its caller try a shorter one, up to 6 times while no block has been answered. But the answer that is made up then
counts as one: it marks the size as valid, and from the next lost block on there is none
(`hpmfwupgUpgradeStage_madeUpOnce`).
-/

namespace KTools.Hpm
open KTools.Lib KTools.Lanplus

/-- At most one answer has been made up since there were `n`, and then the size is marked as valid. -/
def MadeUpOnce (n : Nat) (s : State) : Prop := s.resizeErrors ≤ n ∨ s.resizeErrors = n + 1 ∧ s.isValidSize = true

/-- The answer has just been made up. -/
structure MadeUp (n : Nat) (req : IpmiRq) (rsp : Option Reply) (s : State) : Prop where
  rsp : rsp = some (.fake reqDataInvLength)
  netfn : req.netfn = netfnPicmg
  cmd : req.cmd = uploadFirmwareBlockCmd
  errors : s.resizeErrors ≤ n + 1

section lost
variable {n : Nat} {host : Host} {intf : Intf} {cap : TargetCap}

theorem madeUpOnce_aloof : Aloof (MadeUpOnce n) := fun _ _ _ _ h => h

theorem reopenTurns_madeUp (limit : UInt32) (opens : List Bool) :
    ∀ w, Keeps (MadeUpOnce n) (reopenTurns host limit opens w) := by
  induction opens with
  | nil => intro w; exact Keeps.throw _
  | cons opened opens ih =>
    intro w
    refine Keeps.bind (Keeps.modify ?_) fun _ => Keeps.ite ?_ (Keeps.pure _)
    · exact fun _ h => h
    · exact madeUpOnce_aloof.time.bind fun _ => madeUpOnce_aloof.time.bind fun _ => ih _

/-- An answer is made up only before the size is marked as valid. -/
theorem noticed_madeUp (limit : UInt32) (req : IpmiRq) (w : Waited) (answer : Option Reply) :
    Triple (MadeUpOnce n) (MadeUpOnce n) (noticed host intf limit req w answer)
      fun x s => MadeUpOnce n s ∨ MadeUp n req x.1 s := by
  cases answer with
  | some r => exact Triple.pure fun _ h => .inl h
  | none =>
    refine Triple.get_bind fun s hs => Triple.ite (fun _ => Triple.pure fun t ht => .inl (ht ▸ hs)) fun _ =>
      Triple.ite (fun hupload => ?_) fun _ => Triple.ite (fun _ => Triple.pure fun t ht => .inl (ht ▸ hs)) fun _ =>
      Triple.ite (fun _ => ?_) fun _ => Triple.pure fun t ht => .inl (ht ▸ hs)
    · have hfew : s.resizeErrors ≤ n := hs.resolve_right fun h => by
        rw [hupload.2.2.2] at h
        exact absurd h.2 (by decide)
      refine Triple.bind (Triple.modify (Q := fun _ t => t.resizeErrors ≤ n + 1) fun t ht => ?_) fun _ =>
        Triple.pure fun t ht => .inr ⟨rfl, hupload.1, hupload.2.1, ht⟩
      rw [ht]
      exact Nat.succ_le_succ hfew
    · refine Triple.bind ((reopenTurns_madeUp limit s.opens w).triple.pre fun t ht => ?_) fun _ =>
        Triple.pure fun t ht => .inl ht
      rw [ht]
      exact hs

theorem sendTurns_madeUp (limit limit' : UInt32) (req : IpmiRq) (answers : List (Option Reply)) :
    ∀ w, Triple (MadeUpOnce n) (MadeUpOnce n) (sendTurns host intf limit limit' req answers w)
      fun _ => MadeUpOnce n := by
  induction answers with
  | nil =>
    intro w
    exact Triple.bind (Triple.modify (Q := fun _ => MadeUpOnce n) fun s hs => hs) fun _ => Triple.throw fun _ h => h
  | cons answer answers ih =>
    intro w
    refine Triple.bind (Triple.modify (Q := fun _ => MadeUpOnce n) fun s hs => hs) fun _ =>
      (noticed_madeUp limit req w answer).bind fun x => ?_
    obtain ⟨rsp, w⟩ := x
    have hagain : ∀ (m : HpmM Waited), Keeps (MadeUpOnce n) m → Triple (MadeUpOnce n) (MadeUpOnce n)
        (m >>= fun w => sendTurns host intf limit limit' req answers w) fun _ => MadeUpOnce n :=
      fun m hm => hm.triple.bind fun w => ih w
    -- the answer that has been made up is neither of those that are waited on
    intro s hs
    rcases hs with hs | hmade
    · refine Triple.ite (fun _ => Triple.ite (fun _ => ?_) fun _ => Triple.pure fun _ h => h) (fun _ => ?_) s hs
      · exact hagain _ (madeUpOnce_aloof.time.bind fun _ => Keeps.ite (madeUpOnce_aloof.time.bind fun _ => Keeps.pure _)
          (Keeps.pure _))
      · cases rsp with
        | none => exact Triple.pure fun _ h => h
        | some r =>
          refine Triple.ite (fun _ => Triple.ite (fun _ => ?_) fun _ => Triple.pure fun _ h => h) fun _ => ?_
          · exact hagain _ (madeUpOnce_aloof.time.bind fun _ => Keeps.ite
              (madeUpOnce_aloof.time.bind fun _ => Keeps.pure _) (Keeps.pure _))
          · refine Triple.bind (Triple.modify (Q := fun _ => MadeUpOnce n) fun t ht => ?_) fun _ =>
              Triple.pure fun _ h => h
            exact ht.imp id fun h => ⟨h.1, by rw [State.answered, h.2, Bool.true_or]⟩
    · have hrsp : rsp = some (.fake reqDataInvLength) := hmade.rsp
      subst hrsp
      have hvalid : (s.answered req (.fake reqDataInvLength)).isValidSize = true := by
        rw [State.answered, decide_eq_true ⟨hmade.netfn, hmade.cmd⟩, Bool.or_true]
      show MadeUpOnce n (s.answered req (.fake reqDataInvLength))
      rcases Nat.lt_or_eq_of_le hmade.errors with hlt | heq
      · exact .inl (Nat.le_of_lt_succ hlt)
      · exact .inr ⟨heq, hvalid⟩

theorem madeUpOnce_kept : Kept host intf cap (MadeUpOnce n) where
  aloof := madeUpOnce_aloof
  notes := fun _ _ h => h
  commands := fun req s hs => by
    have hsend : Triple (MadeUpOnce n) (MadeUpOnce n) (hpmfwupgSendCmd host intf cap req) fun _ => MadeUpOnce n :=
      madeUpOnce_aloof.time.triple.bind fun _ => Triple.get_bind' fun _ => sendTurns_madeUp _ _ _ _ _
    exact hsend.ends (fun _ h => h) (fun _ _ h => h) hs

/-- **At most one** length error is made up in an upgrade stage, however many blocks are lost. -/
theorem hpmfwupgUpgradeStage_madeUpOnce (host : Host) (intf : Intf) (up : Upgrade) (image : Nat → UInt8)
    (imageSize : Nat) (s : State) :
    Ends (MadeUpOnce s.resizeErrors) (hpmfwupgUpgradeStage host intf up image imageSize) s :=
  madeUpOnce_kept.stage imageSize s (.inl (Nat.le_refl _))

end lost

end KTools.Hpm

import KTools.Lib.Triple
import KTools.Lanplus.Handshake

/-!
# When an open session is an authenticated one

Each function of the handshake ends in one of three ways, and which one is a matter of what the pass of the
loop meets (`TimesOut`, `Finishes`). A session that `ipmi_lanplus_open` returns is established (`Established`)
exactly when the first pass that does not time out checks both HMACs or gets the right ones (`Sound`): when
all passes time out, the code behind the loop runs without a session, and where `malloc` fails in an HMAC
check, the check passes.
-/

namespace KTools.Lanplus
open KTools.Lib

/-! ### What a pass meets -/

def Reply.Unanswered {α : Type} : Reply α → Prop
  | .message _ => False
  | _ => True

/-- Open Session is accepted with `m`: it grants the requested algorithms. -/
structure Opens (p : SsnParams) (t : HandshakeTry) (m : OpenSessionResponse) : Prop where
  allocated : t.openAllocated = true
  reply : t.openSession = .message m
  noError : m.rakpReturnCode = rakpStatusNoErrors
  algorithms : lanplusGetRequestedCiphers p.cipherSuiteId = some ⟨m.authAlg, m.integrityAlg, m.cryptAlg⟩

structure OpenUnanswered (p : SsnParams) (t : HandshakeTry) : Prop where
  allocated : t.openAllocated = true
  supported : (lanplusGetRequestedCiphers p.cipherSuiteId).isSome = true
  reply : t.openSession.Unanswered

/-- The session data that the messages of a pass determine. -/
def exchangedV2 (p : SsnParams) (rand : List UInt8) (m : OpenSessionResponse) (m2 : Rakp2Message) : V2Data :=
  { (V2Data.initial.opened m).exchanged m2 with
    consoleId := consoleSessionId
    consoleRand := rand
    requestedRole := p.privlvl ||| p.lookupbit }

/-- The session integrity key. -/
def sikOf (c : Crypto) (p : SsnParams) (v2 : V2Data) : List UInt8 :=
  if v2.authAlg = authRakpNone then []
  else (lanplusHMAC c v2.authAlg (sikKey p) (v2.consoleRand ++ v2.bmcRand ++ roleAndName p v2)).getD []

section pass
variable (c : Crypto) (p : SsnParams) (t : HandshakeTry)

/-- The code of the RAKP 2 message is the HMAC that the console computes. -/
def Rakp2Right (rand : List UInt8) (m : OpenSessionResponse) (m2 : Rakp2Message) : Prop :=
  rakp2Right c p (exchangedV2 p rand m m2) m2.keyExchangeAuthCode = some true

def Rakp4Right (rand : List UInt8) (m : OpenSessionResponse) (m2 : Rakp2Message) (m4 : Rakp4Message) : Prop :=
  rakp4Right c { exchangedV2 p rand m m2 with sik := sikOf c p (exchangedV2 p rand m m2) }
    m4.integrityCheckValue = some true

/-- A RAKP 1 message is sent. -/
structure SendsRakp1 (rand : List UInt8) (m : OpenSessionResponse) : Prop where
  opens : Opens p t m
  allocated : t.rakp1Allocated = true
  random : t.consoleRand = some rand
  name : p.username.length ≤ ipmiMaxUserNameLength

/-- RAKP 2 is accepted: its code is right, or it is not looked at. -/
structure Authenticates (rand : List UInt8) (m : OpenSessionResponse) (m2 : Rakp2Message) : Prop where
  sends : SendsRakp1 p t rand m
  reply : t.rakp2 = .message m2
  noError : m2.rakpReturnCode = rakpStatusNoErrors
  code : m.authAlg = authRakpNone ∨ t.rakp2MacAllocated = false ∨ Rakp2Right c p rand m m2

/-- A RAKP 3 message is sent. -/
structure SendsRakp3 (rand : List UInt8) (m : OpenSessionResponse) (m2 : Rakp2Message) : Prop where
  authenticates : Authenticates c p t rand m m2
  allocated : t.rakp3Allocated = true
  keys : m.authAlg = authRakpNone ∨ t.authcodeAllocated = true ∧ t.sikAllocated = true

/-- RAKP 4 is accepted, and the session is ACTIVE. -/
structure Finishes (rand : List UInt8) (m : OpenSessionResponse) (m2 : Rakp2Message) (m4 : Rakp4Message) :
    Prop where
  sends : SendsRakp3 c p t rand m m2
  reply : t.rakp4 = .message m4
  noError : m4.rakpReturnCode = rakpStatusNoErrors
  code : m.authAlg = authRakpNone ∨ t.rakp4MacAllocated = false ∨ Rakp4Right c p rand m m2 m4

/-- A message of the pass goes unanswered. -/
inductive TimesOut : Prop where
  | openSession (h : OpenUnanswered p t)
  | rakp1 {rand : List UInt8} {m : OpenSessionResponse} (h : SendsRakp1 p t rand m) (reply : t.rakp2.Unanswered)
  | rakp3 {rand : List UInt8} {m : OpenSessionResponse} {m2 : Rakp2Message} (h : SendsRakp3 c p t rand m m2)
      (reply : t.rakp4.Unanswered)

end pass

/-! ### The session data along a pass -/

/-- The algorithms and ids are those of the Open Session Response, and the algorithms were requested. -/
structure Agreed (m : OpenSessionResponse) (v2 : V2Data) : Prop where
  consoleId : v2.consoleId = consoleSessionId
  bmcId : v2.bmcId = m.bmcId
  algorithms : (⟨v2.authAlg, v2.integrityAlg, v2.cryptAlg⟩ : Algorithms) = ⟨m.authAlg, m.integrityAlg, m.cryptAlg⟩
  requested : (⟨v2.requestedAuthAlg, v2.requestedIntegrityAlg, v2.requestedCryptAlg⟩ : Algorithms) =
    ⟨m.authAlg, m.integrityAlg, m.cryptAlg⟩

theorem Agreed.auth {m : OpenSessionResponse} {v2 : V2Data} (h : Agreed m v2) : v2.authAlg = m.authAlg :=
  congrArg Algorithms.auth h.algorithms

/-- What RAKP 1 and RAKP 2 have exchanged. -/
structure Exchanged (p : SsnParams) (rand : List UInt8) (m : OpenSessionResponse) (m2 : Rakp2Message)
    (v2 : V2Data) : Prop where
  agreed : Agreed m v2
  consoleRand : v2.consoleRand = rand
  bmcRand : v2.bmcRand = m2.bmcRand
  bmcGuid : v2.bmcGuid = m2.bmcGuid
  requestedRole : v2.requestedRole = p.privlvl ||| p.lookupbit

section congr
variable {c : Crypto} {p : SsnParams} {rand : List UInt8} {m : OpenSessionResponse} {m2 : Rakp2Message}
  {v2 : V2Data}

theorem Exchanged.roleAndName (h : Exchanged p rand m m2 v2) :
    roleAndName p v2 = Lanplus.roleAndName p (exchangedV2 p rand m m2) := by
  unfold Lanplus.roleAndName
  rw [h.requestedRole]
  rfl

theorem Exchanged.rakp2Right (h : Exchanged p rand m m2 v2) (code : List UInt8) :
    rakp2Right c p v2 code = Lanplus.rakp2Right c p (exchangedV2 p rand m m2) code := by
  unfold Lanplus.rakp2Right rakp2MacInput
  rw [h.roleAndName, h.agreed.auth, h.agreed.consoleId, h.agreed.bmcId, h.consoleRand, h.bmcRand, h.bmcGuid]
  rfl

theorem Exchanged.sikOf (h : Exchanged p rand m m2 v2) :
    sikOf c p v2 = Lanplus.sikOf c p (exchangedV2 p rand m m2) := by
  unfold Lanplus.sikOf
  rw [h.roleAndName, h.agreed.auth, h.consoleRand, h.bmcRand]
  rfl

theorem Exchanged.rakp4Right (h : Exchanged p rand m m2 v2) (hsik : v2.sik = Lanplus.sikOf c p v2)
    (code : List UInt8) : rakp4Right c v2 code = Lanplus.rakp4Right c
      { exchangedV2 p rand m m2 with sik := Lanplus.sikOf c p (exchangedV2 p rand m m2) } code := by
  unfold Lanplus.rakp4Right rakp4MacInput
  rw [hsik, h.sikOf, h.agreed.auth, h.agreed.bmcId, h.consoleRand, h.bmcGuid]
  rfl

end congr

/-! ### Assertions that hold -/

theorem requestedCiphers_auth {id : UInt8} {a : Algorithms} (h : lanplusGetRequestedCiphers id = some a) :
    a.auth = authRakpNone ∨ isRakpHmac a.auth = true := by
  unfold lanplusGetRequestedCiphers at h
  split at h
  case h_19 => cases h
  all_goals
    obtain rfl := Option.some.inj h
    decide

theorem isRakpHmac_iff (authAlg : UInt8) : isRakpHmac authAlg = true ↔
    authAlg = authRakpHmacSha1 ∨ authAlg = authRakpHmacMd5 ∨ authAlg = authRakpHmacSha256 := by
  unfold isRakpHmac
  simp only [Bool.or_eq_true, beq_iff_eq, or_assoc]

theorem lanplusHMAC_some (c : Crypto) {authAlg : UInt8} (h : isRakpHmac authAlg = true) (key d : List UInt8) :
    ∃ mac, lanplusHMAC c authAlg key d = some mac := by
  rcases (isRakpHmac_iff authAlg).1 h with rfl | rfl | rfl
  · exact ⟨_, rfl⟩
  · exact ⟨_, rfl⟩
  · exact ⟨_, rfl⟩

theorem hmacMatches_some {authAlg : UInt8} (hauth : authAlg = authRakpNone ∨ isRakpHmac authAlg = true)
    (allocated : Bool) {right : Option Bool} (hright : isRakpHmac authAlg = true → ∃ b, right = some b) :
    ∃ b, hmacMatches authAlg allocated right = some b ∧
      (b = true ↔ authAlg = authRakpNone ∨ allocated = false ∨ right = some true) := by
  unfold hmacMatches
  by_cases hnone : authAlg = authRakpNone
  · exact ⟨true, if_pos hnone, by simp [hnone]⟩
  · have hhmac := hauth.resolve_left hnone
    obtain ⟨b, rfl⟩ := hright hhmac
    rw [if_neg hnone]
    cases allocated with
    | false => exact ⟨true, by simp [hhmac], by simp⟩
    | true => exact ⟨b, by simp [hhmac], by simp [hnone]⟩

theorem rakp2Matches_some (c : Crypto) (p : SsnParams) {v2 : V2Data} (allocated : Bool) (code : List UInt8)
    (hauth : v2.authAlg = authRakpNone ∨ isRakpHmac v2.authAlg = true) :
    ∃ b, lanplusRakp2HmacMatches c p v2 allocated code = some b ∧
      (b = true ↔ v2.authAlg = authRakpNone ∨ allocated = false ∨ rakp2Right c p v2 code = some true) := by
  refine hmacMatches_some hauth allocated fun hhmac => ?_
  obtain ⟨mac, hmac⟩ := lanplusHMAC_some c hhmac p.authcode (rakp2MacInput p v2)
  exact ⟨_, by rw [rakp2Right, hmac]; rfl⟩

theorem rakp4Matches_some (c : Crypto) {v2 : V2Data} (allocated : Bool) (code : List UInt8)
    (hauth : v2.authAlg = authRakpNone ∨ isRakpHmac v2.authAlg = true) :
    ∃ b, lanplusRakp4HmacMatches c v2 allocated code = some b ∧
      (b = true ↔ v2.authAlg = authRakpNone ∨ allocated = false ∨ rakp4Right c v2 code = some true) := by
  refine hmacMatches_some hauth allocated fun hhmac => ?_
  obtain ⟨mac, hmac⟩ := lanplusHMAC_some c hhmac v2.sik (rakp4MacInput v2)
  have hlen : ∃ len, rakp4CodeLength v2.authAlg = some len := by
    rcases (isRakpHmac_iff v2.authAlg).1 hhmac with h | h | h
    · exact ⟨_, by rw [h]; rfl⟩
    · exact ⟨_, by rw [h]; rfl⟩
    · exact ⟨_, by rw [h]; rfl⟩
  obtain ⟨len, hlen⟩ := hlen
  exact ⟨_, by rw [rakp4Right, hmac, hlen]; rfl⟩

/-! ### How the functions end -/

section run
variable {α : Type} {c : Crypto} {p : SsnParams} {t : HandshakeTry} {s : Handshake}

theorem unanswered_message {reply : Reply α} {m : α} (h : reply.Unanswered) (hreply : reply = .message m) :
    False := by
  rw [hreply] at h
  exact h

theorem message_inj {reply : Reply α} {m m' : α} (h : reply = .message m) (h' : reply = .message m') :
    m = m' := Reply.message.inj (h.symm.trans h')

/-- A message of the handshake is answered, or it is not. -/
inductive SendEnd (s : Handshake) (sentState : LanplusState) (reply : Reply α) : Option α → Handshake → Prop where
  | message {m : α} {s' : Handshake} (h : reply = .message m)
      (hv2 : s'.v2 = { s.v2 with sessionState := sentState }) (hrakp2 : s'.rakp2 = s.rakp2) :
      SendEnd s sentState reply (some m) s'
  | unanswered {s' : Handshake} (h : reply.Unanswered)
      (hstate : s'.v2.sessionState = s.v2.sessionState ∨ s'.v2.sessionState = sentState) :
      SendEnd s sentState reply none s'

theorem sendHandshake_run {payload : V2Payload} {may : LanplusState → Bool} {sentState : LanplusState}
    {reply : Reply α} (hmay : may s.v2.sessionState = true) :
    Returns (sendHandshake payload may sentState reply) s (SendEnd s sentState reply) := by
  refine .get_bind (.ite (fun h => ?_) fun _ => .modify_bind ?_)
  · rw [hmay] at h
    cases h
  · cases reply with
    | notSent => exact .pure (.unanswered trivial (.inl rfl))
    | silent => exact .modify_bind (.pure (.unanswered trivial (.inr rfl)))
    | message m => exact .modify_bind (.pure (.message rfl rfl rfl))

inductive OpenSessionEnd (p : SsnParams) (t : HandshakeTry) : Rc → Handshake → Prop where
  | error {s' : Handshake} (hopens : ∀ m, ¬ Opens p t m) (hanswered : ¬ OpenUnanswered p t) :
      OpenSessionEnd p t .error s'
  | timeout {s' : Handshake} (h : OpenUnanswered p t) (hstate : s'.v2.sessionState ≠ .active) :
      OpenSessionEnd p t .timeout s'
  | success {m : OpenSessionResponse} {s' : Handshake} (h : Opens p t m) (hagreed : Agreed m s'.v2)
      (hstate : s'.v2.sessionState = .openSessionReceived) : OpenSessionEnd p t .success s'

theorem openSession_run (hstate : s.v2.sessionState = .presession) :
    Returns (ipmiLanplusOpenSession p t) s (OpenSessionEnd p t) := by
  refine .ite (fun halloc => .pure (.error (fun m h => ?_) fun h => ?_)) fun halloc => .modify_bind ?_
  · rw [h.allocated] at halloc
    cases halloc
  · rw [h.allocated] at halloc
    cases halloc
  have halloc : t.openAllocated = true := by simpa using halloc
  cases hrequested : lanplusGetRequestedCiphers p.cipherSuiteId with
  | none =>
    refine .pure (.error (fun m h => ?_) fun h => ?_)
    · cases hrequested.symm.trans h.algorithms
    · have hsome := h.supported
      rw [hrequested] at hsome
      cases hsome
  | some a =>
    have hmay : mayOpenSession s.v2.sessionState = true := by
      rw [hstate]
      rfl
    refine .modify_bind (.get_bind (.bind (sendHandshake_run hmay) fun r s₁ hend => ?_))
    cases hend with
    | unanswered hreply hstate₁ =>
      refine .pure (.timeout ⟨halloc, by rw [hrequested]; rfl, hreply⟩ ?_)
      rcases hstate₁ with h | h
      · rw [h]
        exact fun hactive => by cases hstate.symm.trans hactive
      · rw [h]
        decide
    | @message m _ hreply hv2 _ =>
      have hanswered : ¬ OpenUnanswered p t := fun h => unanswered_message h.reply hreply
      have hfail : ∀ {s' : Handshake}, (m.rakpReturnCode = rakpStatusNoErrors →
          (⟨m.authAlg, m.integrityAlg, m.cryptAlg⟩ : Algorithms) ≠ a) → OpenSessionEnd p t .error s' := by
        intro s' hne
        refine .error (fun m' h => ?_) hanswered
        obtain rfl := message_inj h.reply hreply
        exact hne h.noError (Option.some.inj (h.algorithms.symm.trans hrequested))
      refine .ite (fun hcode => .pure (hfail fun h => absurd h hcode)) fun hcode => .modify_bind ?_
      refine .ite (fun hauth => .pure (hfail fun _ h => hauth (congrArg Algorithms.auth h))) fun hauth => ?_
      refine .ite (fun hint => .pure (hfail fun _ h => hint (congrArg Algorithms.integrity h))) fun hint => ?_
      refine .ite (fun hcrypt => .pure (hfail fun _ h => hcrypt (congrArg Algorithms.crypt h))) fun hcrypt => ?_
      have ha : a = ⟨m.authAlg, m.integrityAlg, m.cryptAlg⟩ := by
        rw [not_not.1 hauth, not_not.1 hint, not_not.1 hcrypt]
      refine .pure (.success ⟨halloc, hreply, not_not.1 hcode, hrequested.trans (congrArg some ha)⟩ ⟨?_, rfl, rfl, ?_⟩ rfl)
      · show s₁.v2.consoleId = consoleSessionId
        rw [hv2]
        rfl
      · show (⟨s₁.v2.requestedAuthAlg, s₁.v2.requestedIntegrityAlg, s₁.v2.requestedCryptAlg⟩ : Algorithms) = _
        rw [hv2]
        exact ha

theorem Opens.auth {m : OpenSessionResponse} (h : Opens p t m) {v2 : V2Data} (hagreed : Agreed m v2) :
    v2.authAlg = authRakpNone ∨ isRakpHmac v2.authAlg = true := by
  rw [hagreed.auth]
  exact requestedCiphers_auth h.algorithms

inductive Rakp1End (c : Crypto) (p : SsnParams) (t : HandshakeTry) (m : OpenSessionResponse) :
    Rc → Handshake → Prop where
  | error {s' : Handshake} (hauthenticates : ∀ rand m2, ¬ Authenticates c p t rand m m2)
      (hanswered : ∀ rand, SendsRakp1 p t rand m → ¬ t.rakp2.Unanswered) : Rakp1End c p t m .error s'
  | timeout {rand : List UInt8} {s' : Handshake} (h : SendsRakp1 p t rand m) (hreply : t.rakp2.Unanswered)
      (hstate : s'.v2.sessionState ≠ .active) : Rakp1End c p t m .timeout s'
  | success {rand : List UInt8} {m2 : Rakp2Message} {s' : Handshake} (h : Authenticates c p t rand m m2)
      (hexchanged : Exchanged p rand m m2 s'.v2) (hstate : s'.v2.sessionState = .rakp2Received)
      (hrakp2 : s'.rakp2 = some m2) (hcode : s'.v2.rakp2ReturnCode = rakpStatusNoErrors) :
      Rakp1End c p t m .success s'

theorem asserted_run {a : Option α} {b : α} (h : a = some b) : Returns (asserted a) s fun x s' => x = b ∧ s' = s := by
  subst h
  exact .pure ⟨rfl, rfl⟩

theorem rakp1_run {m : OpenSessionResponse} (hopens : Opens p t m) (hagreed : Agreed m s.v2)
    (hstate : s.v2.sessionState = .openSessionReceived) :
    Returns (ipmiLanplusRakp1 c p t) s (Rakp1End c p t m) := by
  have hunsent : ∀ {s' : Handshake}, (∀ rand, ¬ SendsRakp1 p t rand m) → Rakp1End c p t m .error s' :=
    fun h => .error (fun rand m2 hauth => h rand hauth.sends) fun rand hsends => absurd hsends (h rand)
  refine .ite (fun halloc => .pure (hunsent fun rand h => ?_)) fun halloc => ?_
  · rw [h.allocated] at halloc
    cases halloc
  have halloc : t.rakp1Allocated = true := by simpa using halloc
  cases hrand : t.consoleRand with
  | none => exact .pure (hunsent fun rand h => by cases hrand.symm.trans h.random)
  | some rand =>
    refine .modify_bind (.ite (fun hname => .pure (hunsent fun _ h => Nat.not_lt.2 h.name hname)) fun hname => ?_)
    have hsends : SendsRakp1 p t rand m := ⟨hopens, halloc, hrand, Nat.not_lt.1 hname⟩
    have hmay : (s.v2.sessionState == .openSessionReceived) = true := beq_iff_eq.2 hstate
    refine .get_bind (.bind (sendHandshake_run hmay) fun r s₁ hend => ?_)
    cases hend with
    | unanswered hreply hstate₁ =>
      refine .pure (.timeout hsends hreply ?_)
      rcases hstate₁ with h | h
      · rw [h]
        exact fun hactive => by cases hstate.symm.trans hactive
      · rw [h]
        decide
    | @message m2 _ hreply hv2 _ =>
      have hanswered : ∀ rand, SendsRakp1 p t rand m → ¬ t.rakp2.Unanswered := fun _ _ h =>
        unanswered_message h hreply
      refine .modify_bind (.modify_bind ?_)
      refine .ite (fun hcode => .pure (.error (fun _ m2' h => ?_) hanswered)) fun hcode => ?_
      · obtain rfl := message_inj h.reply hreply
        exact hcode h.noError
      refine .modify_bind (.get_bind ?_)
      have hexchanged : Exchanged p rand m m2
          ({ s₁.v2 with sessionState := .rakp2Received }.exchanged m2) := by
        rw [hv2]
        exact ⟨⟨hagreed.consoleId, hagreed.bmcId, hagreed.algorithms, hagreed.requested⟩, rfl, rfl, rfl, rfl⟩
      obtain ⟨b, hmatches, hb⟩ := rakp2Matches_some c p t.rakp2MacAllocated m2.keyExchangeAuthCode
        (hopens.auth hexchanged.agreed)
      rw [hexchanged.rakp2Right, hexchanged.agreed.auth] at hb
      refine .bind (asserted_run hmatches) ?_
      rintro matched _ ⟨rfl, rfl⟩
      cases matched with
      | false =>
        refine .modify_bind (.pure (.error (fun rand' m2' h => ?_) hanswered))
        obtain rfl := message_inj h.reply hreply
        obtain rfl : rand = rand' := Option.some.inj (hrand.symm.trans h.sends.random)
        exact Bool.false_ne_true (hb.2 h.code)
      | true =>
        refine .modify_bind (.pure (.success ⟨hsends, hreply, not_not.1 hcode, hb.1 rfl⟩ ?_ rfl rfl rfl))
        exact ⟨⟨hexchanged.agreed.consoleId, hexchanged.agreed.bmcId, hexchanged.agreed.algorithms,
          hexchanged.agreed.requested⟩, hexchanged.consoleRand, hexchanged.bmcRand, hexchanged.bmcGuid,
          hexchanged.requestedRole⟩

/-- The session after RAKP 2 has been accepted, and then with its integrity key. -/
structure Ready (p : SsnParams) (rand : List UInt8) (m : OpenSessionResponse) (m2 : Rakp2Message)
    (s : Handshake) : Prop where
  exchanged : Exchanged p rand m m2 s.v2
  state : s.v2.sessionState = .rakp2Received
  rakp2 : s.rakp2 = some m2
  code : s.v2.rakp2ReturnCode = rakpStatusNoErrors

structure Keyed (c : Crypto) (p : SsnParams) (rand : List UInt8) (m : OpenSessionResponse) (m2 : Rakp2Message)
    (s : Handshake) : Prop where
  ready : Ready p rand m m2 s
  sik : s.v2.sik = sikOf c p s.v2

section keys
variable {rand : List UInt8} {m : OpenSessionResponse} {m2 : Rakp2Message}

theorem authcode_run {v2 : V2Data} (hauth : v2.authAlg = authRakpNone ∨ isRakpHmac v2.authAlg = true)
    (allocated : Bool) : Returns (lanplusGenerateRakp3Authcode c p v2 allocated) s fun r s' =>
      s' = s ∧ (r.isSome = true ↔ v2.authAlg = authRakpNone ∨ allocated = true) := by
  refine .ite (fun hnone => .pure ⟨rfl, by simp [hnone]⟩) fun hnone => ?_
  have hhmac := hauth.resolve_left hnone
  refine .ite (fun h => absurd h (by simp [hhmac])) fun _ => ?_
  refine .ite (fun halloc => .pure ⟨rfl, by simpa [hnone] using halloc⟩) fun halloc => ?_
  obtain ⟨mac, hmac⟩ := lanplusHMAC_some c hhmac p.authcode
    (v2.bmcRand ++ le32 v2.consoleId ++ roleAndName p v2)
  refine .bind (asserted_run hmac) ?_
  rintro _ _ ⟨rfl, rfl⟩
  exact .pure ⟨rfl, by simpa [hnone] using halloc⟩

theorem sik_run (hready : Ready p rand m m2 s) (hauth : s.v2.authAlg = authRakpNone ∨ isRakpHmac s.v2.authAlg = true)
    (allocated : Bool) : Returns (lanplusGenerateSik c p allocated) s fun b s' =>
      (b = true ↔ s.v2.authAlg = authRakpNone ∨ allocated = true) ∧ (b = true → Keyed c p rand m m2 s') := by
  obtain ⟨⟨⟨hconsole, hbmc, halgorithms, hrequested⟩, hrand, hbmcRand, hguid, hrole⟩, hstate, hrakp2, hcode⟩ := hready
  have hkeyed : ∀ sik, sik = sikOf c p s.v2 → Keyed c p rand m m2 { s with v2 := { s.v2 with sik := sik } } :=
    fun sik hsik => ⟨⟨⟨⟨hconsole, hbmc, halgorithms, hrequested⟩, hrand, hbmcRand, hguid, hrole⟩, hstate, hrakp2,
      hcode⟩, hsik⟩
  refine .modify_bind (.get_bind (.ite (fun hnone => .pure ⟨?_, fun _ => hkeyed [] ?_⟩) fun hnone => ?_))
  · have hnone' : s.v2.authAlg = authRakpNone := hnone
    simp [hnone']
  · exact (if_pos hnone).symm
  have hnone' : ¬ s.v2.authAlg = authRakpNone := hnone
  have hhmac := hauth.resolve_left hnone'
  refine .ite (fun h => absurd h (by simp [hhmac])) fun _ => ?_
  refine .ite (fun halloc => .pure ⟨by simpa [hnone'] using halloc, nofun⟩) fun halloc => ?_
  obtain ⟨mac, hmac⟩ := lanplusHMAC_some c hhmac (sikKey p) (s.v2.consoleRand ++ s.v2.bmcRand ++ roleAndName p s.v2)
  refine .bind (asserted_run hmac) ?_
  rintro _ _ ⟨rfl, rfl⟩
  refine .modify_bind (.pure ⟨by simpa [hnone'] using halloc, fun _ => hkeyed _ ?_⟩)
  rw [sikOf, if_neg hnone', hmac]
  rfl

theorem generatedKey_some {v2 : V2Data} (hauth : v2.authAlg = authRakpNone ∨ isRakpHmac v2.authAlg = true)
    (old : List UInt8) (const : UInt8) : ∃ key, generatedKey c v2 old const = some key := by
  unfold generatedKey
  by_cases hnone : v2.authAlg = authRakpNone
  · exact ⟨_, if_pos hnone⟩
  · rw [if_neg hnone]
    exact lanplusHMAC_some c (hauth.resolve_left hnone) _ _

theorem Keyed.auth (hkeyed : Keyed c p rand m m2 s) (hopens : Opens p t m) :
    s.v2.authAlg = authRakpNone ∨ isRakpHmac s.v2.authAlg = true :=
  hopens.auth hkeyed.ready.exchanged.agreed

/-- `K1` and `K2` are not read before the session is ACTIVE. -/
theorem Keyed.withKeys (hkeyed : Keyed c p rand m m2 s) (k1 k2 : List UInt8) :
    Keyed c p rand m m2 { s with v2 := { s.v2 with k1 := k1, k2 := k2 } } := by
  obtain ⟨⟨⟨⟨hconsole, hbmc, halgorithms, hrequested⟩, hrand, hbmcRand, hguid, hrole⟩, hstate, hrakp2, hcode⟩,
    hsik⟩ := hkeyed
  exact ⟨⟨⟨⟨hconsole, hbmc, halgorithms, hrequested⟩, hrand, hbmcRand, hguid, hrole⟩, hstate, hrakp2, hcode⟩,
    hsik⟩

theorem k1_run (hopens : Opens p t m) (hkeyed : Keyed c p rand m m2 s) :
    Returns (lanplusGenerateK1 c) s fun _ s' => Keyed c p rand m m2 s' := by
  obtain ⟨key, hkey⟩ := generatedKey_some (c := c) (hkeyed.auth hopens) s.v2.k1 0x01
  refine .get_bind (.bind (asserted_run hkey) ?_)
  rintro key s ⟨rfl, rfl⟩
  exact ⟨⟨⟩, _, rfl, hkeyed.withKeys key s.v2.k2⟩

theorem k2_run (hopens : Opens p t m) (hkeyed : Keyed c p rand m m2 s) :
    Returns (lanplusGenerateK2 c) s fun _ s' => Keyed c p rand m m2 s' := by
  obtain ⟨key, hkey⟩ := generatedKey_some (c := c) (hkeyed.auth hopens) s.v2.k2 0x02
  refine .get_bind (.bind (asserted_run hkey) ?_)
  rintro key s ⟨rfl, rfl⟩
  exact ⟨⟨⟩, _, rfl, hkeyed.withKeys s.v2.k1 key⟩

theorem rakp3Keys_run (hopens : Opens p t m) (hready : Ready p rand m m2 s) :
    Returns (rakp3Keys c p t) s fun r s' =>
      (r.isSome = true ↔ m.authAlg = authRakpNone ∨ t.authcodeAllocated = true ∧ t.sikAllocated = true) ∧
        (r.isSome = true → Keyed c p rand m m2 s') := by
  have hauth := hopens.auth hready.exchanged.agreed
  have heq := hready.exchanged.agreed.auth
  refine .get_bind (.ite (fun h => absurd hready.code h) fun _ => .bind (authcode_run hauth _) ?_)
  rintro r _ ⟨rfl, hr⟩
  cases r with
  | none =>
    have hfails : ¬ (m.authAlg = authRakpNone ∨ t.authcodeAllocated = true) := by
      rw [← heq]
      simpa using hr
    exact .pure ⟨⟨nofun, fun h => absurd (h.imp_right And.left) hfails⟩, nofun⟩
  | some authcode =>
    have hauthcode : m.authAlg = authRakpNone ∨ t.authcodeAllocated = true := by
      rw [← heq]
      exact hr.1 rfl
    refine .bind (sik_run hready hauth t.sikAllocated) fun b s₁ ⟨hb, hkeyed⟩ => .ite (fun hsik => ?_) fun hsik => ?_
    · refine .bind (k1_run hopens (hkeyed hsik)) fun _ s₂ hkeyed => .bind (k2_run hopens hkeyed) fun _ s₃ hkeyed =>
        .pure ⟨⟨fun _ => ?_, fun _ => rfl⟩, fun _ => hkeyed⟩
      rw [heq] at hb
      exact or_and_left.2 ⟨hauthcode, hb.1 hsik⟩
    · rw [heq] at hb
      exact .pure ⟨⟨nofun, fun h => absurd (hb.2 (h.imp_right And.right)) hsik⟩, nofun⟩

end keys

inductive Rakp3End (c : Crypto) (p : SsnParams) (t : HandshakeTry) (rand : List UInt8) (m : OpenSessionResponse)
    (m2 : Rakp2Message) : Rc → Handshake → Prop where
  | error {s' : Handshake} (hfinishes : ∀ m4, ¬ Finishes c p t rand m m2 m4)
      (hanswered : SendsRakp3 c p t rand m m2 → ¬ t.rakp4.Unanswered) : Rakp3End c p t rand m m2 .error s'
  | timeout {s' : Handshake} (h : SendsRakp3 c p t rand m m2) (hreply : t.rakp4.Unanswered)
      (hstate : s'.v2.sessionState ≠ .active) : Rakp3End c p t rand m m2 .timeout s'
  | success {m4 : Rakp4Message} {s' : Handshake} (h : Finishes c p t rand m m2 m4)
      (hexchanged : Exchanged p rand m m2 s'.v2) (hsik : s'.v2.sik = sikOf c p s'.v2)
      (hstate : s'.v2.sessionState = .active) (hrakp2 : s'.rakp2 = some m2) (hrakp4 : s'.rakp4 = some m4) :
      Rakp3End c p t rand m m2 .success s'

theorem rakp3_run {rand : List UInt8} {m : OpenSessionResponse} {m2 : Rakp2Message}
    (hauthenticates : Authenticates c p t rand m m2) (hready : Ready p rand m m2 s) :
    Returns (ipmiLanplusRakp3 c p t) s (Rakp3End c p t rand m m2) := by
  have hopens := hauthenticates.sends.opens
  have hunsent : ∀ {s' : Handshake}, ¬ SendsRakp3 c p t rand m m2 → Rakp3End c p t rand m m2 .error s' :=
    fun h => .error (fun m4 hfinishes => h hfinishes.sends) fun hsends => absurd hsends h
  refine .get_bind (.ite (fun h => absurd hready.state h) fun _ =>
    .ite (fun halloc => .pure (hunsent fun h => ?_)) fun halloc => ?_)
  · rw [h.allocated] at halloc
    cases halloc
  have halloc : t.rakp3Allocated = true := by simpa using halloc
  refine .bind (rakp3Keys_run hopens hready) fun r s₁ ⟨hkeys, hkeyed⟩ => ?_
  cases r with
  | none => exact .pure (hunsent fun h => by simpa using hkeys.2 h.keys)
  | some authcode =>
    have hsends : SendsRakp3 c p t rand m m2 := ⟨hauthenticates, halloc, hkeys.1 rfl⟩
    obtain ⟨⟨hexchanged, hstate, hrakp2, hcode⟩, hsik⟩ := hkeyed rfl
    have hmay : (s₁.v2.sessionState == .rakp2Received) = true := beq_iff_eq.2 hstate
    refine .get_bind (.bind (sendHandshake_run hmay) fun reply s₂ hend => .ite (fun h => absurd hcode h) fun _ => ?_)
    cases hend with
    | unanswered hreply hstate₂ =>
      refine .pure (.timeout hsends hreply ?_)
      rcases hstate₂ with h | h
      · rw [h, hstate]
        decide
      · rw [h]
        decide
    | @message m4 _ hreply hv2 hrakp2₂ =>
      have hanswered : SendsRakp3 c p t rand m m2 → ¬ t.rakp4.Unanswered := fun _ h => unanswered_message h hreply
      refine .modify_bind (.ite (fun hcode => .pure (.error (fun m4' h => ?_) hanswered)) fun hcode => .get_bind ?_)
      · obtain rfl := message_inj h.reply hreply
        exact hcode h.noError
      have hexchanged₂ : Exchanged p rand m m2 s₂.v2 := by
        rw [hv2]
        obtain ⟨⟨hconsole, hbmc, halgorithms, hrequested⟩, hrand, hbmcRand, hguid, hrole⟩ := hexchanged
        exact ⟨⟨hconsole, hbmc, halgorithms, hrequested⟩, hrand, hbmcRand, hguid, hrole⟩
      have hsik₂ : s₂.v2.sik = sikOf c p s₂.v2 := by
        rw [hv2]
        exact hsik
      obtain ⟨b, hmatches, hb⟩ := rakp4Matches_some c t.rakp4MacAllocated m4.integrityCheckValue
        (hopens.auth hexchanged₂.agreed)
      rw [hexchanged₂.rakp4Right hsik₂, hexchanged₂.agreed.auth] at hb
      refine .bind (asserted_run hmatches) ?_
      rintro matched _ ⟨rfl, rfl⟩
      refine .ite (fun h => ?_) fun h => .pure (.error (fun m4' hfinishes => ?_) hanswered)
      · obtain ⟨⟨hconsole, hbmc, halgorithms, hrequested⟩, hrand, hbmcRand, hguid, hrole⟩ := hexchanged₂
        refine .modify_bind (.pure (.success ⟨hsends, hreply, not_not.1 hcode, hb.1 h⟩ ?_ hsik₂ rfl ?_ rfl))
        · exact ⟨⟨hconsole, hbmc, halgorithms, hrequested⟩, hrand, hbmcRand, hguid, hrole⟩
        · exact hrakp2₂.trans hrakp2
      · obtain rfl := message_inj hfinishes.reply hreply
        exact h (hb.2 hfinishes.code)

end run

/-! ### The retry loop -/

section loop
variable {c : Crypto} {p : SsnParams} {t : HandshakeTry} {s : Handshake}

inductive TryEnd (c : Crypto) (p : SsnParams) (t : HandshakeTry) : Rc → Handshake → Prop where
  | error {s' : Handshake} (htimesOut : ¬ TimesOut c p t) (hfinishes : ∀ rand m m2 m4, ¬ Finishes c p t rand m m2 m4) :
      TryEnd c p t .error s'
  | timeout {s' : Handshake} (h : TimesOut c p t) (hstate : s'.v2.sessionState ≠ .active) : TryEnd c p t .timeout s'
  | success {rand : List UInt8} {m : OpenSessionResponse} {m2 : Rakp2Message} {m4 : Rakp4Message} {s' : Handshake}
      (h : Finishes c p t rand m m2 m4) (hexchanged : Exchanged p rand m m2 s'.v2)
      (hsik : s'.v2.sik = sikOf c p s'.v2) (hstate : s'.v2.sessionState = .active) (hrakp2 : s'.rakp2 = some m2)
      (hrakp4 : s'.rakp4 = some m4) : TryEnd c p t .success s'

/-- The messages of a pass are the ones it meets. -/
theorem Authenticates.unique {rand rand' : List UInt8} {m m' : OpenSessionResponse} {m2 m2' : Rakp2Message}
    (h : Authenticates c p t rand m m2) (h' : Authenticates c p t rand' m' m2') :
    rand = rand' ∧ m = m' ∧ m2 = m2' :=
  ⟨Option.some.inj (h.sends.random.symm.trans h'.sends.random),
    message_inj h.sends.opens.reply h'.sends.opens.reply, message_inj h.reply h'.reply⟩

theorem handshakeTry_run : Returns (handshakeTry c p t) s (TryEnd c p t) := by
  refine .modify_bind (.bind (openSession_run rfl) fun rc s₁ hend => ?_)
  cases hend with
  | error hopens hanswered =>
    refine .pure (.error (fun h => ?_) fun _ m _ _ h => hopens m h.sends.authenticates.sends.opens)
    cases h with
    | openSession h => exact hanswered h
    | rakp1 h => exact hopens _ h.opens
    | rakp3 h => exact hopens _ h.authenticates.sends.opens
  | timeout h hstate => exact .pure (.timeout (.openSession h) hstate)
  | @success m _ hopens hagreed hstate =>
    have hnotOpen : ¬ OpenUnanswered p t := fun h => unanswered_message h.reply hopens.reply
    refine .bind (rakp1_run hopens hagreed hstate) fun rc s₂ hend => ?_
    cases hend with
    | error hauthenticates hanswered =>
      have hnone : ∀ rand m' m2, ¬ Authenticates c p t rand m' m2 := fun rand m' m2 h => by
        obtain rfl := message_inj h.sends.opens.reply hopens.reply
        exact hauthenticates rand m2 h
      refine .pure (.error (fun h => ?_) fun _ _ _ _ h => hnone _ _ _ h.sends.authenticates)
      cases h with
      | openSession h => exact hnotOpen h
      | rakp1 h hreply =>
        obtain rfl := message_inj h.opens.reply hopens.reply
        exact hanswered _ h hreply
      | rakp3 h => exact hnone _ _ _ h.authenticates
    | timeout h hreply hstate => exact .pure (.timeout (.rakp1 h hreply) hstate)
    | @success rand m2 _ hauthenticates hexchanged hstate hrakp2 hcode =>
      refine (rakp3_run hauthenticates ⟨hexchanged, hstate, hrakp2, hcode⟩).mono fun rc s₃ hend => ?_
      cases hend with
      | error hfinishes hanswered =>
        refine .error (fun h => ?_) fun _ _ _ m4 h => ?_
        swap
        · obtain ⟨rfl, rfl, rfl⟩ := hauthenticates.unique h.sends.authenticates
          exact hfinishes m4 h
        cases h with
        | openSession h => exact hnotOpen h
        | rakp1 h hreply => exact unanswered_message hreply hauthenticates.reply
        | rakp3 h hreply =>
          obtain ⟨rfl, rfl, rfl⟩ := hauthenticates.unique h.authenticates
          exact hanswered h hreply
      | timeout h hreply hstate => exact .timeout (.rakp3 h hreply) hstate
      | success h hexchanged hsik hstate hrakp2 hrakp4 => exact .success h hexchanged hsik hstate hrakp2 hrakp4

theorem Finishes.not_timesOut {rand : List UInt8} {m : OpenSessionResponse} {m2 : Rakp2Message}
    {m4 : Rakp4Message} (h : Finishes c p t rand m m2 m4) : ¬ TimesOut c p t := by
  intro htimesOut
  cases htimesOut with
  | openSession h' => exact unanswered_message h'.reply h.sends.authenticates.sends.opens.reply
  | rakp1 _ hreply => exact unanswered_message hreply h.sends.authenticates.reply
  | rakp3 _ hreply => exact unanswered_message hreply h.reply

/-- A command can be built with the algorithms of the session. -/
def UsableAlgorithms (m : OpenSessionResponse) : Prop :=
  (m.cryptAlg = cryptNone ∨ m.cryptAlg = cryptAesCbc128) ∧
    (m.integrityAlg = integrityNone ∨ (authcodeLength m.integrityAlg).isSome = true)

/-- Where a pass makes the session ACTIVE, each HMAC is checked, or it is right all the same. -/
def Checked (c : Crypto) (p : SsnParams) (t : HandshakeTry) : Prop :=
  ∀ rand m m2 m4, Finishes c p t rand m m2 m4 → UsableAlgorithms m → m.authAlg ≠ authRakpNone →
    (t.rakp2MacAllocated = true ∨ Rakp2Right c p rand m m2) ∧
      (t.rakp4MacAllocated = true ∨ Rakp4Right c p rand m m2 m4)

/-- Some pass does not time out, and the first such pass checks the HMACs. -/
inductive Sound (c : Crypto) (p : SsnParams) : List HandshakeTry → Prop where
  | later {t : HandshakeTry} {rest : List HandshakeTry} (h : TimesOut c p t) (hrest : Sound c p rest) :
      Sound c p (t :: rest)
  | here {t : HandshakeTry} {rest : List HandshakeTry} (h : ¬ TimesOut c p t) (hchecked : Checked c p t) :
      Sound c p (t :: rest)

inductive LoopOutcome (c : Crypto) (p : SsnParams) (tries : List HandshakeTry) : Bool → Handshake → Prop where
  | fail {s' : Handshake} (h : Sound c p tries) : LoopOutcome c p tries false s'
  | exhausted {s' : Handshake} (h : ¬ Sound c p tries) (hstate : s'.v2.sessionState ≠ .active) :
      LoopOutcome c p tries true s'
  | active {t : HandshakeTry} {rand : List UInt8} {m : OpenSessionResponse} {m2 : Rakp2Message}
      {m4 : Rakp4Message} {s' : Handshake} (hsound : Sound c p tries ↔ Checked c p t)
      (h : Finishes c p t rand m m2 m4) (hexchanged : Exchanged p rand m m2 s'.v2)
      (hsik : s'.v2.sik = sikOf c p s'.v2) (hstate : s'.v2.sessionState = .active) (hrakp2 : s'.rakp2 = some m2)
      (hrakp4 : s'.rakp4 = some m4) : LoopOutcome c p tries true s'

/-- **The loop**, by induction on the passes that are left. -/
theorem handshakeLoop_run (tries : List HandshakeTry) : ∀ {s : Handshake}, s.v2.sessionState ≠ .active →
    Returns (handshakeLoop c p tries) s (LoopOutcome c p tries) := by
  induction tries with
  | nil => exact fun hstate => .pure (.exhausted nofun hstate)
  | cons t rest ih =>
    intro s _
    refine .bind handshakeTry_run fun rc s₁ hend => ?_
    cases hend with
    | error htimesOut hfinishes =>
      exact .pure (.fail (.here htimesOut fun rand m m2 m4 h => absurd h (hfinishes rand m m2 m4)))
    | timeout h hstate =>
      have hsound : Sound c p (t :: rest) ↔ Sound c p rest := by
        refine ⟨fun hsound => ?_, .later h⟩
        cases hsound with
        | later _ hrest => exact hrest
        | here hnot _ => exact absurd h hnot
      refine (ih hstate).mono fun b s' houtcome => ?_
      cases houtcome with
      | fail h => exact .fail (hsound.2 h)
      | exhausted hnot hstate => exact .exhausted (fun hs => hnot (hsound.1 hs)) hstate
      | active hiff h hexchanged hsik hstate hrakp2 hrakp4 =>
        exact .active (hsound.trans hiff) h hexchanged hsik hstate hrakp2 hrakp4
    | success h hexchanged hsik hstate hrakp2 hrakp4 =>
      refine .pure (.active ⟨fun hsound => ?_, .here h.not_timesOut⟩ h hexchanged hsik hstate hrakp2 hrakp4)
      cases hsound with
      | later htimesOut _ => exact absurd htimesOut h.not_timesOut
      | here _ hchecked => exact hchecked

end loop

/-! ### `ipmi_lanplus_open` -/

/-- **An established session**: ACTIVE with the requested algorithms, and with authentication the codes of
RAKP 2 and RAKP 4, received in the same pass, are the HMACs that the console computes. -/
structure Established (c : Crypto) (p : SsnParams) (s : Handshake) : Prop where
  active : s.v2.sessionState = .active
  requested : lanplusGetRequestedCiphers p.cipherSuiteId = some ⟨s.v2.authAlg, s.v2.integrityAlg, s.v2.cryptAlg⟩
  authenticated : s.v2.authAlg ≠ authRakpNone → ∃ m2 m4, s.rakp2 = some m2 ∧ s.rakp4 = some m4 ∧
    rakp2Right c p s.v2 m2.keyExchangeAuthCode = some true ∧
    rakp4Right c s.v2 m4.integrityCheckValue = some true

/-- Wherever `ipmi_lanplus_open` returns a non-negative value, the session is established. -/
def Opening.Establishes (o : Opening) : Prop :=
  ∀ (result : Int) (s : Handshake), ipmiLanplusOpen o .start = .ok result s → 0 ≤ result →
    Established o.crypto o.ssnParams s

/-- What is asked before the loop and behind it is granted. -/
structure Opening.Granted (o : Opening) : Prop where
  hostname : o.hostname = true
  connected : o.fd.isSome = true
  allocated : o.sessionAllocated = true
  authCap : o.authCap = some true
  privlvl : o.ssnParams.privlvl ≤ sessionPrivUser ∨ o.privlvlReply = .message 0

section finish
variable {o : Opening} {s : Handshake} {fd : Nat}

theorem setSessionPrivlvl_run (hbuilds : buildsCommand s.v2 = true) (p : SsnParams) (reply : Reply UInt8) :
    Returns (ipmiSetSessionPrivlvlCmd p reply) s fun b s' =>
      s' = s ∧ (b = true ↔ p.privlvl ≤ sessionPrivUser ∨ reply = .message 0) := by
  refine .ite (fun h => .pure ⟨rfl, by simp [h]⟩) fun h => ?_
  have hsend : Returns (sendCommand reply) s fun r s' => r = reply ∧ s' = s :=
    .get_bind (.ite (fun hnot => absurd hnot (by simp [hbuilds])) fun _ => .pure ⟨rfl, rfl⟩)
  refine .bind hsend ?_
  rintro r s ⟨rfl, rfl⟩
  cases r with
  | notSent => exact .pure ⟨rfl, by simp [h]⟩
  | silent => exact .pure ⟨rfl, by simp [h]⟩
  | message ccode => exact .pure ⟨rfl, by simp [h]⟩

/-- Where commands can be built, the result is the socket exactly when the privilege level is granted. -/
theorem finish_run (hbuilds : buildsCommand s.v2 = true) : Returns (o.finish fd) s fun result s' =>
    s' = s ∧ (0 ≤ result ↔ o.ssnParams.privlvl ≤ sessionPrivUser ∨ o.privlvlReply = .message 0) := by
  refine .bind (setSessionPrivlvl_run hbuilds _ _) ?_
  rintro b s ⟨rfl, hb⟩
  refine .ite (fun h => ?_) fun h => .pure ⟨rfl, by simpa using fun hgranted => h (hb.2 hgranted)⟩
  have hsend : Returns (sendCommand o.hpm2Reply) s fun _ s' => s' = s :=
    .get_bind (.ite (fun hnot => absurd hnot (by simp [hbuilds])) fun _ => .pure rfl)
  refine .bind hsend ?_
  rintro _ s rfl
  exact .pure ⟨rfl, iff_of_true (Int.natCast_nonneg fd) (hb.1 h)⟩

/-- Where no command can be built, the run ends in a failed assertion, or the result is negative. -/
theorem finish_stops (hbuilds : buildsCommand s.v2 = false) {result : Int} {s' : Handshake}
    (hrun : o.finish fd s = .ok result s') : False := by
  have hsend : ∀ reply : Reply UInt8, sendCommand reply s = .error .assertion s := by
    intro reply
    show (if !buildsCommand s.v2 then throw .assertion else return reply : Hs (Reply UInt8)) s = _
    rw [hbuilds]
    rfl
  unfold Opening.finish at hrun
  obtain ⟨b, s₁, hprivlvl, hrest⟩ := bind_eq_ok hrun
  unfold ipmiSetSessionPrivlvlCmd at hprivlvl
  split at hprivlvl
  · cases hprivlvl
    simp only [if_true] at hrest
    obtain ⟨_, _, hsent, -⟩ := bind_eq_ok hrest
    rw [hsend] at hsent
    cases hsent
  · obtain ⟨_, _, hsent, -⟩ := bind_eq_ok hprivlvl
    rw [hsend] at hsent
    cases hsent

end finish

theorem buildsCommand_iff {m : OpenSessionResponse} {v2 : V2Data} (hagreed : Agreed m v2)
    (hstate : v2.sessionState = .active) : buildsCommand v2 = true ↔ UsableAlgorithms m := by
  have hintegrity : v2.integrityAlg = m.integrityAlg := congrArg Algorithms.integrity hagreed.algorithms
  have hcrypt : v2.cryptAlg = m.cryptAlg := congrArg Algorithms.crypt hagreed.algorithms
  unfold buildsCommand UsableAlgorithms
  simp [hstate, hintegrity, hcrypt]

/-- The session that a pass has made ACTIVE is established exactly when the HMACs of the pass are right. -/
theorem established_iff {c : Crypto} {p : SsnParams} {t : HandshakeTry} {rand : List UInt8}
    {m : OpenSessionResponse} {m2 : Rakp2Message} {m4 : Rakp4Message} {s : Handshake}
    (h : Finishes c p t rand m m2 m4) (hexchanged : Exchanged p rand m m2 s.v2)
    (hsik : s.v2.sik = sikOf c p s.v2) (hstate : s.v2.sessionState = .active) (hrakp2 : s.rakp2 = some m2)
    (hrakp4 : s.rakp4 = some m4) :
    Established c p s ↔ (m.authAlg ≠ authRakpNone → Rakp2Right c p rand m m2 ∧ Rakp4Right c p rand m m2 m4) := by
  have hrequested := h.sends.authenticates.sends.opens.algorithms
  rw [← hexchanged.agreed.algorithms] at hrequested
  have hright2 : rakp2Right c p s.v2 m2.keyExchangeAuthCode = some true ↔ Rakp2Right c p rand m m2 := by
    rw [hexchanged.rakp2Right]
    rfl
  have hright4 : rakp4Right c s.v2 m4.integrityCheckValue = some true ↔ Rakp4Right c p rand m m2 m4 := by
    rw [hexchanged.rakp4Right hsik]
    rfl
  constructor
  · intro hestablished hauth
    rw [← hexchanged.agreed.auth] at hauth
    obtain ⟨m2', m4', h2, h4, hr2, hr4⟩ := hestablished.authenticated hauth
    obtain rfl : m2 = m2' := Option.some.inj (hrakp2.symm.trans h2)
    obtain rfl : m4 = m4' := Option.some.inj (hrakp4.symm.trans h4)
    exact ⟨hright2.1 hr2, hright4.1 hr4⟩
  · intro hright
    refine ⟨hstate, hrequested, fun hauth => ⟨m2, m4, hrakp2, hrakp4, ?_⟩⟩
    rw [hexchanged.agreed.auth] at hauth
    exact ⟨hright2.2 (hright hauth).1, hright4.2 (hright hauth).2⟩

/-- The passes of a finished one are right as far as they are checked. -/
theorem checked_iff {c : Crypto} {p : SsnParams} {t : HandshakeTry} {rand : List UInt8} {m : OpenSessionResponse}
    {m2 : Rakp2Message} {m4 : Rakp4Message} (h : Finishes c p t rand m m2 m4) (husable : UsableAlgorithms m) :
    Checked c p t ↔ (m.authAlg ≠ authRakpNone → Rakp2Right c p rand m m2 ∧ Rakp4Right c p rand m m2 m4) := by
  constructor
  · intro hchecked hauth
    obtain ⟨h2, h4⟩ := hchecked rand m m2 m4 h husable hauth
    refine ⟨h2.elim (fun halloc => ?_) id, h4.elim (fun halloc => ?_) id⟩
    · rcases h.sends.authenticates.code with hnone | hfalse | hright
      · exact absurd hnone hauth
      · exact absurd (halloc.symm.trans hfalse) (by decide)
      · exact hright
    · rcases h.code with hnone | hfalse | hright
      · exact absurd hnone hauth
      · exact absurd (halloc.symm.trans hfalse) (by decide)
      · exact hright
  · intro hright rand' m' m2' m4' h' _ hauth
    obtain ⟨rfl, rfl, rfl⟩ := h.sends.authenticates.unique h'.sends.authenticates
    obtain rfl := message_inj h.reply h'.reply
    exact ⟨.inr (hright hauth).1, .inr (hright hauth).2⟩

/-- A non-negative result needs what is asked before the loop. -/
theorem open_nonneg {o : Opening} {s s' : Handshake} {result : Int} (hrun : ipmiLanplusOpen o s = .ok result s')
    (hresult : 0 ≤ result) :
    o.hostname = true ∧ (∃ fd, o.fd = some fd) ∧ o.sessionAllocated = true ∧ o.authCap = some true := by
  have hnot : ∀ {u : Handshake}, (return -1 : Hs Int) u ≠ .ok result s' := by
    rintro u ⟨⟩
    exact absurd hresult (by decide)
  unfold ipmiLanplusOpen at hrun
  cases hhost : o.hostname with
  | false =>
    rw [hhost] at hrun
    exact absurd hrun hnot
  | true =>
    rw [hhost] at hrun
    cases hfd : o.fd with
    | none =>
      rw [hfd] at hrun
      exact absurd hrun hnot
    | some fd =>
      rw [hfd] at hrun
      cases halloc : o.sessionAllocated with
      | false =>
        rw [halloc] at hrun
        exact absurd hrun hnot
      | true =>
        rw [halloc] at hrun
        by_cases hcap : o.authCap = some true
        · exact ⟨rfl, ⟨fd, rfl⟩, rfl, hcap⟩
        · simp only [Bool.not_true, Bool.false_eq_true, if_false, if_pos hcap] at hrun
          exact absurd hrun hnot

/-- **Session establishment.** What `ipmi_lanplus_open` returns is an established session exactly when
something else is not granted, or some pass of the loop does not time out and the first such pass checks the
HMACs or gets the right ones. -/
theorem Opening.establishes_iff (o : Opening) :
    o.Establishes ↔ (o.Granted → Sound o.crypto o.ssnParams o.tries) := by
  by_cases hbefore : o.hostname = true ∧ (∃ fd, o.fd = some fd) ∧ o.sessionAllocated = true ∧ o.authCap = some true
  swap
  · refine iff_of_true (fun result s hrun hresult => absurd (open_nonneg hrun hresult) hbefore) fun h => ?_
    exact absurd ⟨h.hostname, Option.isSome_iff_exists.1 h.connected, h.allocated, h.authCap⟩ hbefore
  obtain ⟨hhost, ⟨fd, hfd⟩, halloc, hcap⟩ := hbefore
  have hopen : ∀ s, ipmiLanplusOpen o s = (handshakeLoop o.crypto o.ssnParams o.tries >>= fun b =>
      if b then o.finish fd else return -1) s := by
    intro s
    simp only [ipmiLanplusOpen, hhost, hfd, halloc, hcap]
    rfl
  have hgranted : o.Granted ↔ o.ssnParams.privlvl ≤ sessionPrivUser ∨ o.privlvlReply = .message 0 :=
    ⟨Opening.Granted.privlvl, fun h => ⟨hhost, by rw [hfd]; rfl, halloc, hcap, h⟩⟩
  obtain ⟨b, s, hloop, houtcome⟩ := handshakeLoop_run (c := o.crypto) (p := o.ssnParams) o.tries
    (s := .start) (by decide)
  have hestablishes : o.Establishes ↔ ∀ result s', (if b then o.finish fd else return -1 : Hs Int) s = .ok result s' →
      0 ≤ result → Established o.crypto o.ssnParams s' := by
    unfold Opening.Establishes
    rw [hopen, bind_ok hloop]
  rw [hestablishes, hgranted]
  -- where commands can be built, the result is decided by the privilege level
  have hfinish : buildsCommand s.v2 = true → b = true →
      ((∀ result s', (if b then o.finish fd else return -1 : Hs Int) s = .ok result s' → 0 ≤ result →
        Established o.crypto o.ssnParams s') ↔
      (o.ssnParams.privlvl ≤ sessionPrivUser ∨ o.privlvlReply = .message 0 → Established o.crypto o.ssnParams s)) := by
    rintro hbuilds rfl
    rw [if_pos rfl]
    have hreturns : Returns (o.finish fd) s _ := finish_run hbuilds
    obtain ⟨result, _, hrun, rfl, hresult⟩ := hreturns
    rw [← hresult, hrun]
    refine ⟨fun h => h result _ rfl, fun h result' s' heq hpos => ?_⟩
    obtain ⟨rfl, rfl⟩ := EStateM.Result.ok.inj heq
    exact h hpos
  cases houtcome with
  | fail h =>
    refine iff_of_true (fun result s' hrun hresult => ?_) fun _ => h
    cases hrun
    exact absurd hresult (by decide)
  | exhausted hnot hstate =>
    have hbuilds : buildsCommand s.v2 = true := by
      unfold buildsCommand
      rw [bne_iff_ne.2 hstate]
      rfl
    rw [hfinish hbuilds rfl]
    exact forall_congr' fun _ => iff_of_false (fun h => hstate h.active) hnot
  | @active t rand m m2 m4 _ hsound h hexchanged hsik hstate hrakp2 hrakp4 =>
    by_cases husable : UsableAlgorithms m
    · rw [hfinish ((buildsCommand_iff hexchanged.agreed hstate).2 husable) rfl, hsound, checked_iff h husable,
        established_iff h hexchanged hsik hstate hrakp2 hrakp4]
    · have hstops : buildsCommand s.v2 = false := by
        rw [← Bool.not_eq_true, buildsCommand_iff hexchanged.agreed hstate]
        exact husable
      refine iff_of_true (fun result s' hrun _ => (finish_stops hstops hrun).elim) fun _ => hsound.2 ?_
      intro rand' m' m2' m4' h' husable' _
      obtain ⟨rfl, rfl, rfl⟩ := h.sends.authenticates.unique h'.sends.authenticates
      exact absurd husable' husable

/-! ### A session that was never opened -/

/-- A BMC that does not answer the handshake; the requested privilege level is USER. -/
def Opening.silent : Opening where
  crypto := .plain
  params :=
    { username := [], authcode := List.replicate 20 0, kg := List.replicate 20 0, privlvl := sessionPrivUser
      lookupbit := 0x10, cipherSuiteId := 3 }
  hostname := true
  fd := some 3
  sessionAllocated := true
  authCap := some true
  bestCipherSuite := 3
  tries := List.replicate ipmiLanRetry
    { openAllocated := true, openSession := .silent, rakp1Allocated := true, consoleRand := none
      rakp2 := .silent, rakp2MacAllocated := true, rakp3Allocated := true, authcodeAllocated := true
      sikAllocated := true, rakp4 := .silent, rakp4MacAllocated := true }
  length_tries := List.length_replicate
  privlvlReply := .silent
  hpm2Reply := .silent

/-- After four timeouts the socket is returned, in the state OPEN_SESSION_SENT. -/
theorem Opening.silent_not_establishes : ¬ ∀ o : Opening, o.Establishes := by
  intro h
  have hresult : (match ipmiLanplusOpen silent .start with
      | .ok result s => decide (0 ≤ result) && decide (s.v2.sessionState = .openSessionSent)
      | .error _ _ => false) = true := by decide +kernel
  have hestablishes := h silent
  unfold Establishes at hestablishes
  cases hrun : ipmiLanplusOpen silent .start with
  | error e s =>
    rw [hrun] at hresult
    cases hresult
  | ok result s =>
    rw [hrun] at hresult
    simp only [Bool.and_eq_true, decide_eq_true_eq] at hresult
    have hactive := (hestablishes result s hrun hresult.1).active
    rw [hresult.2] at hactive
    cases hactive

end KTools.Lanplus

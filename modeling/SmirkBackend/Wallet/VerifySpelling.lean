import SmirkBackend.LetterCase
import SmirkBackend.Wallet.VerifyOutage

/-!
# The spelling of a transaction

A peer may spell the hexadecimal digits of a transaction with capitals: the check of the request
accepts them, and the upstream looks a transaction up by value.  Grin commitments are compared
without regard to case.  The ids of the other two families are compared as texts with a list that
the upstream writes in lower case, and what is not in the list counts as not found.

* `verifyUtxo_unlisted`, `verdict_of_utxoListed` and their likes : what the comparison decides.
* `verdict_spelling_iff` : two spellings get one verdict exactly when the list has both or neither.
* `capitals_not_found` : a payment that is verified in lower case is not found in capitals.
-/

namespace SmirkBackend

open Lib (Remote)

/-- The upstream writes the ids of transactions in lower case. -/
structure LowerCaseIds (answers : (q : UpstreamRead) → Except AppError q.Reply) : Prop where
  /-- Electrum, in a history. -/
  history : ∀ {coin scripthash : String} {call : ElectrumCall (List ElectrumHistoryEntry)}
    {history : List ElectrumHistoryEntry}, answers (.history coin scripthash) = .ok call →
      call.run = .ok history → ∀ e ∈ history, InLowerCase e.txHash
  /-- The light-wallet server. -/
  addressTxs : ∀ {coin address viewKey : String} {resp : AddressTxsResponse},
    answers (.addressTxs coin address viewKey) = .ok resp →
      ∀ t ∈ resp.transactions, InLowerCase t.hash

/-- The same request about another spelling. -/
def VerifyRequest.withRef (req : VerifyRequest) (txRef : String) : VerifyRequest :=
  { req with txRef := txRef }

/-- Verdict and reason of an answer. -/
def verdictOf (answer : Except AppError VerifyResponse) :
    Except AppError (Bool × Option String) :=
  (fun resp => (resp.verified, resp.reason)) <$> answer

theorem SameLetters.validateHex_eq {s t : String} (h : SameLetters s t) (field : String)
    (max : ℕ) : validateHex s field max = validateHex t field max := by
  unfold validateHex isHexText
  rw [h.isEmpty_eq, h.utf8ByteSize_eq, h.all_hex_eq]

section Families

variable (inst : VerifyInstance) (answers : (q : UpstreamRead) → Except AppError q.Reply)
  (coin : String) (req : VerifyRequest)

/-! ### Bitcoin and Litecoin -/

/-- The history that a well-formed request is compared with has the transaction. -/
def UtxoListed : Prop :=
  ∃ electrum destAddress history, inst.electrumFor coin = .ok electrum ∧
    req.destAddress = some destAddress ∧ validateHex req.txRef "tx_ref" 64 = .ok () ∧
    (Verify.getHistory coin electrum destAddress).answered answers = .ok history ∧
    ∃ e ∈ history, e.txHash = req.txRef

/-- What is answered about a transaction that no history has. -/
def utxoMissing : VerifyProgram VerifyResponse := do
  let electrum ← .ofExcept (inst.electrumFor coin)
  match req.destAddress with
  | none => return .failed destinationMismatchReason
  | some destAddress => do
    .ofExcept (validateHex req.txRef "tx_ref" 64)
    let _ ← Verify.getHistory coin electrum destAddress
    return .failed notFoundReason

variable {inst answers coin req} {expected : UInt64}

theorem verifyUtxo_unlisted (h : ¬ UtxoListed inst answers coin req) :
    (verifyUtxo inst coin req expected).answered answers =
      (utxoMissing inst coin req).answered answers := by
  unfold verifyUtxo utxoMissing
  cases helectrum : inst.electrumFor coin with
  | error e => rfl
  | ok electrum =>
    cases hdest : req.destAddress with
    | none => rfl
    | some destAddress =>
      cases hvalid : validateHex req.txRef "tx_ref" 64 with
      | error e => rfl
      | ok u =>
        cases hread : (Verify.getHistory coin electrum destAddress).answered answers with
        | error e =>
          exact (Remote.answered_bind_of_error hread _).trans
            (Remote.answered_bind_of_error hread _).symm
        | ok history =>
          have hnone : history.find? (fun e => e.txHash = req.txRef) = none := by
            refine List.find?_eq_none.mpr fun e he heq => h ?_
            exact ⟨electrum, destAddress, history, helectrum, hdest, hvalid, hread, e, he,
              of_decide_eq_true heq⟩
          refine (Remote.answered_bind_of_ok hread _).trans ?_
          refine Eq.trans ?_ (Remote.answered_bind_of_ok hread _).symm
          simp only [hnone]

theorem verdict_ofOutcome_ne {outcome : Except String UInt64}
    (h : outcome ≠ .error notFoundReason) :
    verdictOf (.ok (.ofOutcome outcome)) ≠ .ok (false, some notFoundReason) := by
  intro heq
  cases outcome with
  | ok observed => cases heq
  | error reason =>
    obtain rfl := Option.some.inj (Prod.mk.inj (Except.ok.inj heq)).2
    exact h rfl

theorem utxoAmountOutcome_ne (paidToDest expected : UInt64) :
    utxoAmountOutcome paidToDest expected ≠ .error notFoundReason := by
  unfold utxoAmountOutcome
  split_ifs <;> simp [destinationMismatchReason, amountTooLowReason, notFoundReason]

/-- A listed transaction is found, whatever else is wrong with it. -/
theorem verdict_of_utxoListed (h : UtxoListed inst answers coin req) :
    (utxoMissing inst coin req).answered answers = .ok (.failed notFoundReason) ∧
      verdictOf ((verifyUtxo inst coin req expected).answered answers) ≠
        .ok (false, some notFoundReason) := by
  obtain ⟨electrum, destAddress, history, helectrum, hdest, hvalid, hread, e, he, hid⟩ := h
  unfold verifyUtxo utxoMissing
  rw [helectrum, hdest, hvalid]
  constructor
  · exact Remote.answered_bind_of_ok hread _
  · obtain ⟨entry, hfind⟩ : ∃ entry, history.find? (fun e => e.txHash = req.txRef) = some entry :=
      Option.isSome_iff_exists.mp (List.find?_isSome.mpr ⟨e, he, decide_eq_true hid⟩)
    refine ne_of_eq_of_ne (congrArg verdictOf (Remote.answered_bind_of_ok hread _)) ?_
    simp only [hfind]
    split_ifs
    · exact @verdict_ofOutcome_ne (.error notConfirmedReason) (by decide)
    · cases hfetch : (Verify.getTransactionVerbose coin req.txRef).answered answers with
      | error e =>
        rw [Remote.answered_bind_of_error hfetch]
        exact fun heq => nomatch heq
      | ok tx =>
        rw [Remote.answered_bind_of_ok hfetch]
        cases tx.totalReceivedAt destAddress with
        | error e => exact fun heq => nomatch heq
        | ok paidToDest => exact verdict_ofOutcome_ne (utxoAmountOutcome_ne paidToDest expected)

/-! ### Monero and Wownero -/

/-- The transactions that a well-formed request is compared with have this one. -/
def CnListed (inst : VerifyInstance) (answers : (q : UpstreamRead) → Except AppError q.Reply)
    (coin : String) (req : VerifyRequest) : Prop :=
  ∃ lws viewKey destAddress txs, inst.lwsFor coin = .ok lws ∧ req.viewKey = some viewKey ∧
    req.destAddress = some destAddress ∧ validateHex req.txRef "tx_ref" 64 = .ok () ∧
    validateViewKey viewKey = .ok () ∧ validateCnAddress destAddress = .ok () ∧
    (Verify.getAddressTxs coin lws destAddress viewKey).answered answers = .ok txs ∧
    ∃ t ∈ txs.transactions, t.hash = req.txRef

/-- What is answered about a transaction that no list has. -/
def cnMissing (inst : VerifyInstance) (coin : String) (req : VerifyRequest) :
    VerifyProgram VerifyResponse := do
  let lws ← .ofExcept (inst.lwsFor coin)
  match req.viewKey with
  | none => return .failed notFoundReason
  | some viewKey =>
    match req.destAddress with
    | none => return .failed destinationMismatchReason
    | some destAddress => do
      .ofExcept (validateHex req.txRef "tx_ref" 64)
      .ofExcept (validateViewKey viewKey)
      .ofExcept (validateCnAddress destAddress)
      let _ ← Verify.getAddressTxs coin lws destAddress viewKey
      return .failed notFoundReason

theorem verifyCryptonote_unlisted (h : ¬ CnListed inst answers coin req) :
    (verifyCryptonote inst coin req expected).answered answers =
      (cnMissing inst coin req).answered answers := by
  unfold verifyCryptonote cnMissing
  cases hlws : inst.lwsFor coin with
  | error e => rfl
  | ok lws =>
    cases hkey : req.viewKey with
    | none => rfl
    | some viewKey =>
      cases hdest : req.destAddress with
      | none => rfl
      | some destAddress =>
        cases hvalid : validateHex req.txRef "tx_ref" 64 with
        | error e => rfl
        | ok u =>
          cases hvalidKey : validateViewKey viewKey with
          | error e =>
            simp only [hvalidKey]
            rfl
          | ok u =>
            cases hvalidDest : validateCnAddress destAddress with
            | error e =>
              simp only [hvalidKey, hvalidDest]
              rfl
            | ok u =>
              simp only [hvalidKey, hvalidDest]
              cases hread : (Verify.getAddressTxs coin lws destAddress viewKey).answered
                  answers with
              | error e =>
                exact (Remote.answered_bind_of_error hread _).trans
                  (Remote.answered_bind_of_error hread _).symm
              | ok txs =>
                have hnone : txs.transactions.find? (fun t => t.hash = req.txRef) = none := by
                  refine List.find?_eq_none.mpr fun t ht heq => h ?_
                  exact ⟨lws, viewKey, destAddress, txs, hlws, hkey, hdest, hvalid, hvalidKey,
                    hvalidDest, hread, t, ht, of_decide_eq_true heq⟩
                refine (Remote.answered_bind_of_ok hread _).trans ?_
                refine Eq.trans ?_ (Remote.answered_bind_of_ok hread _).symm
                simp only [hnone]

theorem verdict_of_cnListed (h : CnListed inst answers coin req) :
    (cnMissing inst coin req).answered answers = .ok (.failed notFoundReason) ∧
      verdictOf ((verifyCryptonote inst coin req expected).answered answers) ≠
        .ok (false, some notFoundReason) := by
  obtain ⟨lws, viewKey, destAddress, txs, hlws, hkey, hdest, hvalid, hvalidKey, hvalidDest, hread,
    t, ht, hid⟩ := h
  unfold verifyCryptonote cnMissing
  rw [hlws, hkey, hdest, hvalid]
  simp only [hvalidKey, hvalidDest]
  constructor
  · exact Remote.answered_bind_of_ok hread _
  · obtain ⟨tx, hfind⟩ : ∃ tx, txs.transactions.find? (fun t => t.hash = req.txRef) = some tx :=
      Option.isSome_iff_exists.mp (List.find?_isSome.mpr ⟨t, ht, decide_eq_true hid⟩)
    refine ne_of_eq_of_ne (congrArg verdictOf (Remote.answered_bind_of_ok hread _)) ?_
    have hunconfirmed : verdictOf (.ok (.failed notConfirmedReason)) ≠
        .ok (false, some notFoundReason) := by decide
    simp only [hfind]
    split_ifs
    · exact hunconfirmed
    · unfold verifyDepth
      cases hcount : (Verify.getTransactionConfirmations coin lws req.txRef).answered answers with
      | error e =>
        rw [Remote.answered_bind_of_error hcount]
        exact fun heq => nomatch heq
      | ok confirmations =>
        rw [Remote.answered_bind_of_ok hcount]
        split_ifs
        · exact @verdict_ofOutcome_ne (.error amountTooLowReason) (by decide)
        · exact @verdict_ofOutcome_ne (.ok tx.totalReceived) (fun h => nomatch h)
        · exact hunconfirmed

end Families

/-! ### Two spellings -/

/-- The list that a well-formed request is compared with has its transaction.  There is no such list
for Grin. -/
def Listed (inst : VerifyInstance) (answers : (q : UpstreamRead) → Except AppError q.Reply)
    (req : VerifyRequest) : Prop :=
  (parseU64 req.amount).isSome ∧
    (inst.lowercase req.family = "utxo" ∧ UtxoListed inst answers (inst.lowercase req.coin) req ∨
      inst.lowercase req.family = "cryptonote" ∧
        CnListed inst answers (inst.lowercase req.coin) req)

section Spellings

variable {inst : VerifyInstance} {answers : (q : UpstreamRead) → Except AppError q.Reply}
  {coin : String} {req : VerifyRequest} {s t : String}

theorem lowerCase_of_utxoListed (hlower : LowerCaseIds answers)
    (h : UtxoListed inst answers coin req) : InLowerCase req.txRef := by
  obtain ⟨electrum, destAddress, history, -, -, -, hread, e, he, hid⟩ := h
  obtain ⟨scripthash, -, hread⟩ := Remote.answered_bind_eq_ok.mp hread
  obtain ⟨call, hcall, hrun⟩ := Remote.answered_bind_eq_ok.mp hread
  rw [ask, Remote.answered_question] at hcall
  rw [Remote.answered_ofExcept] at hrun
  exact hid ▸ hlower.history hcall hrun e he

theorem lowerCase_of_cnListed (hlower : LowerCaseIds answers)
    (h : CnListed inst answers coin req) : InLowerCase req.txRef := by
  obtain ⟨lws, viewKey, destAddress, txs, -, -, -, -, -, -, hread, tx, htx, hid⟩ := h
  obtain ⟨resp, hresp, hread⟩ := Remote.answered_bind_eq_ok.mp hread
  rw [ask, Remote.answered_question] at hresp
  split_ifs at hread
  · cases hread
  · obtain rfl := Except.ok.inj hread
    exact hid ▸ hlower.addressTxs hresp tx htx

theorem verifyGrin_spelling (h : SameLetters s t) (expected : UInt64) :
    verifyGrin inst coin (req.withRef s) expected =
      verifyGrin inst coin (req.withRef t) expected := by
  have hfind : (fun o : ViewWalletOutput =>
        decide (toLowercase o.commit = toLowercase (req.withRef s).txRef)) =
      fun o => decide (toLowercase o.commit = toLowercase (req.withRef t).txRef) :=
    funext fun o => decide_eq_decide.mpr (Eq.congr_right h)
  have hvalid : validateHex (req.withRef s).txRef "tx_ref" 66 =
      validateHex (req.withRef t).txRef "tx_ref" 66 := h.validateHex_eq "tx_ref" 66
  have hkey : ∀ u, (req.withRef u).viewKey = req.viewKey := fun _ => rfl
  unfold verifyGrin
  simp only [hkey, hvalid, hfind]

theorem verdict_eq_iff {listed listed' : Prop}
    {answer answer' missing : Except AppError VerifyResponse}
    (hun : ¬ listed → answer = missing) (hun' : ¬ listed' → answer' = missing)
    (hon : listed → missing = .ok (.failed notFoundReason) ∧
      verdictOf answer ≠ .ok (false, some notFoundReason))
    (hon' : listed' → missing = .ok (.failed notFoundReason) ∧
      verdictOf answer' ≠ .ok (false, some notFoundReason))
    (hboth : listed → listed' → answer = answer') :
    verdictOf answer = verdictOf answer' ↔ (listed ↔ listed') := by
  by_cases h : listed <;> by_cases h' : listed'
  · simp [h, h', hboth h h']
  · obtain ⟨hmissing, hne⟩ := hon h
    rw [hun' h', hmissing]
    exact iff_of_false hne (by simp [h, h'])
  · obtain ⟨hmissing, hne⟩ := hon' h'
    rw [hun h, hmissing]
    exact iff_of_false hne.symm (by simp [h, h'])
  · simp [h, h', hun h, hun' h']

theorem verdict_utxo_iff (hlower : LowerCaseIds answers) (h : SameLetters s t)
    (expected : UInt64) :
    verdictOf ((verifyUtxo inst coin (req.withRef s) expected).answered answers) =
        verdictOf ((verifyUtxo inst coin (req.withRef t) expected).answered answers) ↔
      (UtxoListed inst answers coin (req.withRef s) ↔
        UtxoListed inst answers coin (req.withRef t)) := by
  have hmissing :
      utxoMissing inst coin (req.withRef s) = utxoMissing inst coin (req.withRef t) := by
    unfold utxoMissing
    dsimp only [VerifyRequest.withRef]
    rw [h.validateHex_eq]
  refine verdict_eq_iff verifyUtxo_unlisted (fun ht => ?_) verdict_of_utxoListed (fun ht => ?_)
    fun hs ht => ?_
  · rw [hmissing]
    exact verifyUtxo_unlisted ht
  · rw [hmissing]
    exact verdict_of_utxoListed ht
  · obtain rfl : s = t := h.eq_of_lowerCase (lowerCase_of_utxoListed hlower hs)
      (lowerCase_of_utxoListed hlower ht)
    rfl

theorem verdict_cryptonote_iff (hlower : LowerCaseIds answers) (h : SameLetters s t)
    (expected : UInt64) :
    verdictOf ((verifyCryptonote inst coin (req.withRef s) expected).answered answers) =
        verdictOf ((verifyCryptonote inst coin (req.withRef t) expected).answered answers) ↔
      (CnListed inst answers coin (req.withRef s) ↔
        CnListed inst answers coin (req.withRef t)) := by
  have hmissing : cnMissing inst coin (req.withRef s) = cnMissing inst coin (req.withRef t) := by
    unfold cnMissing
    dsimp only [VerifyRequest.withRef]
    rw [h.validateHex_eq]
  refine verdict_eq_iff verifyCryptonote_unlisted (fun ht => ?_) verdict_of_cnListed
    (fun ht => ?_) fun hs ht => ?_
  · rw [hmissing]
    exact verifyCryptonote_unlisted ht
  · rw [hmissing]
    exact verdict_of_cnListed ht
  · obtain rfl : s = t := h.eq_of_lowerCase (lowerCase_of_cnListed hlower hs)
      (lowerCase_of_cnListed hlower ht)
    rfl

/-- Two spellings of a transaction get one verdict with one reason exactly when the list that the
request is compared with has both spellings, or neither. -/
theorem verdict_spelling_iff (hlower : LowerCaseIds answers) (h : SameLetters s t) :
    verdictOf ((verifyHandler inst (req.withRef s)).answered answers) =
        verdictOf ((verifyHandler inst (req.withRef t)).answered answers) ↔
      (Listed inst answers (req.withRef s) ↔ Listed inst answers (req.withRef t)) := by
  have hfamily : ∀ u, (req.withRef u).family = req.family := fun _ => rfl
  have hcoin : ∀ u, (req.withRef u).coin = req.coin := fun _ => rfl
  have hparsed : ∀ u, (req.withRef u).amount = req.amount := fun _ => rfl
  unfold verifyHandler Listed
  simp only [hfamily, hcoin, hparsed]
  cases hamount : parseU64 req.amount with
  | none => simp
  | some expected =>
    by_cases hutxo : inst.lowercase req.family = "utxo"
    · simpa [hutxo] using verdict_utxo_iff hlower h expected
    · by_cases hcn : inst.lowercase req.family = "cryptonote"
      · simpa [hcn] using verdict_cryptonote_iff hlower h expected
      · -- Grin, or a family that is refused: nothing is listed
        by_cases hgrin : inst.lowercase req.family = "grin"
        · simp [hgrin, verifyGrin_spelling h]
        · simp [hutxo, hcn]

end Spellings

/-- The daemon has the transaction in a block. -/
def deepAnswers : (q : UpstreamRead) → Except AppError q.Reply :=
  paidAnswers (.ok ⟨some [⟨some 100, some false⟩], "OK"⟩)

theorem lowerCaseIds_deepAnswers : LowerCaseIds deepAnswers where
  history h := nomatch h
  addressTxs h t ht := by
    obtain rfl := Except.ok.inj h
    obtain rfl := List.mem_singleton.mp ht
    exact (by decide : toLowercase "ab" = "ab")

theorem verdict_spelling_capitals :
    verdictOf ((verifyHandler xmrInstance (sevenPaid.withRef "AB")).answered deepAnswers) =
      verdictOf ((verifyHandler xmrInstance (sevenPaid.withRef "Ab")).answered deepAnswers) := by
  have hunlisted : ∀ u, ¬ InLowerCase u →
      ¬ Listed xmrInstance deepAnswers (sevenPaid.withRef u) := by
    rintro u hu ⟨-, ⟨hfamily, -⟩ | ⟨-, h⟩⟩
    · have hother : toLowercase "cryptonote" ≠ "utxo" := by decide
      exact hother hfamily
    · exact hu (lowerCase_of_cnListed lowerCaseIds_deepAnswers h)
  have hsame : SameLetters "AB" "Ab" := by
    unfold SameLetters
    decide
  refine (verdict_spelling_iff lowerCaseIds_deepAnswers hsame).mpr (iff_of_false ?_ ?_)
  · exact hunlisted _ (by unfold InLowerCase; decide)
  · exact hunlisted _ (by unfold InLowerCase; decide)

/-- A payment that is verified in lower case is not found in capitals. -/
theorem capitals_not_found :
    ¬ ∀ (inst : VerifyInstance) (answers : (q : UpstreamRead) → Except AppError q.Reply)
      (req : VerifyRequest) (s t : String), LowerCaseIds answers → SameLetters s t →
      validateHex s "tx_ref" 64 = .ok () → validateHex t "tx_ref" 64 = .ok () →
        verdictOf ((verifyHandler inst (req.withRef s)).answered answers) =
          verdictOf ((verifyHandler inst (req.withRef t)).answered answers) := by
  intro hclaim
  have hsame : SameLetters "ab" "AB" := by
    unfold SameLetters
    decide
  have hlower : verdictOf ((verifyHandler xmrInstance (sevenPaid.withRef "ab")).answered
      deepAnswers) = .ok (true, none) := by decide +kernel
  have hcapitals : verdictOf ((verifyHandler xmrInstance (sevenPaid.withRef "AB")).answered
      deepAnswers) = .ok (false, some notFoundReason) := by decide +kernel
  have h :=
    hclaim xmrInstance deepAnswers sevenPaid "ab" "AB" lowerCaseIds_deepAnswers hsame rfl rfl
  rw [hlower, hcapitals] at h
  cases h

end SmirkBackend

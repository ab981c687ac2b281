import SmirkBackend.Tips.DepthGate

/-!
# Upstream failures in the sweep reconciler

A probe that fails must not move money: the passes may only note that they looked.  An upstream
failure is a read of the probe that brought no answer: a disabled chain, an exchange or an
envelope that failed, a transaction whose amounts are refused, an error answer to `get_kernel`
other than "not found", or a height that the daemon gives with a status other than "OK".

All failures but the last two stop the probe.  The error of `get_kernel` is read as an absent
kernel, on which the reorg pass reverts a settled tip (`UndatedSpend`).  The status of the height is
not read at all, so the probe goes on, and both passes act on what it reports (`StatusUnread`).  And
even where the passes only stamp `last_confirmation_check`, the table's trigger stamps `updated_at`
with it.  `sweepPass_failureIsolated_iff` says exactly when a pass is isolated all the same.
-/

namespace SmirkBackend

open Lib (Table)

/-! ### Failures -/

/-- The result is an error. -/
def Failed {α : Type} (x : Except AppError α) : Prop := ∃ e, x = .error e

/-- A read of `probe_electrum_spends` failed. -/
def ElectrumFailure (chains : ChainClients) (tip : SocialTipRow) (asset : String) : Prop :=
  chains.electrum asset = none ∨
  ∃ c address, chains.electrum asset = some c ∧ tip.tipAddress = some address ∧
    (Failed (c.getHistory address) ∨ Failed c.getTipHeight ∨
      ∃ history entry, c.getHistory address = .ok history ∧ entry ∈ history ∧ 0 < entry.height ∧
        (Failed (c.getTransactionVerbose entry.txHash) ∨
          ∃ tx, c.getTransactionVerbose entry.txHash = .ok tx ∧ Failed (tx.totalReceivedAt address)))

/-- A read of `probe_lws_spends` failed. -/
def LwsFailure (chains : ChainClients) (tip : SocialTipRow) (asset : String) : Prop :=
  chains.lws asset = none ∨
  ∃ c address viewKey, chains.lws asset = some c ∧ tip.tipAddress = some address ∧
    tip.tipViewKey = some viewKey ∧
    (Failed (c.getAddressTxs address viewKey) ∨
      ∃ txs, c.getAddressTxs address viewKey = .ok txs ∧ ¬ 0 < txs.blockchainHeight ∧
        (Failed c.getBlockchainHeight ∨ ∃ info, c.getInfo = .ok info ∧ info.status ≠ "OK"))

/-- The node's word for an unknown kernel. -/
def isNotFound : Lib.Json → Bool
  | .str "NotFound" => true
  | _ => false

/-- The node answered `get_kernel` with an error that is not "not found". -/
def KernelError (exchange : Except AppError (RpcEnvelope (Option GrinKernelInfo))) : Prop :=
  ∃ env reason, exchange = .ok env ∧ env.error = none ∧ env.result = some (.err reason) ∧
    ¬ isNotFound reason

/-- The node answered `get_kernel` that there is no such kernel. -/
def KernelAbsent (exchange : Except AppError (RpcEnvelope (Option GrinKernelInfo))) : Prop :=
  ∃ env, exchange = .ok env ∧ env.error = none ∧
    (env.result = some (.ok none) ∨ ∃ reason, env.result = some (.err reason) ∧ isNotFound reason)

/-- The reads of `probe_grin_spends` up to the output set succeeded, and the voucher is not in
it. -/
def VoucherGone (c : GrinClient) (commit : String) : Prop :=
  ¬ Failed c.getHeight ∧
    ∃ outputs, c.getOutputs [commit] = .ok outputs ∧ ¬ outputs.any fun o => o.commit = commit

/-- A read of `probe_grin_spends` failed. -/
def GrinFailure (chains : ChainClients) (tip : SocialTipRow) : Prop :=
  chains.grin = none ∨
  ∃ c commit, chains.grin = some c ∧ grinCommitment tip = some commit ∧
    (Failed c.getHeight ∨ Failed (c.getOutputs [commit]) ∨
      (VoucherGone c commit ∧ ∃ excess, sweepExcess tip = some excess ∧
        (Failed (c.getKernel excess) ∨ KernelError (c.kernel excess))))

/-- Some read the probe of this tip needs brought no answer. -/
def UpstreamFailure (chains : ChainClients) (tip : SocialTipRow) : Prop :=
  match toLowercase tip.asset with
  | "btc" => ElectrumFailure chains tip "btc"
  | "ltc" => ElectrumFailure chains tip "ltc"
  | "xmr" => LwsFailure chains tip "xmr"
  | "wow" => LwsFailure chains tip "wow"
  | "grin" => GrinFailure chains tip
  | _ => False

/-- The voucher of a Grin tip left the output set and nothing dates its spend: no excess is on
record, or the node answered `get_kernel` with an error. -/
def UndatedSpend (chains : ChainClients) (tip : SocialTipRow) : Prop :=
  toLowercase tip.asset = "grin" ∧
  ∃ c commit, chains.grin = some c ∧ grinCommitment tip = some commit ∧ VoucherGone c commit ∧
    (tip.sweepTxid = some "" ∨
      ∃ excess, sweepExcess tip = some excess ∧ KernelError (c.kernel excess))

/-- The spends that `probe_lws_spends` finds among the transactions of an address. -/
def AddressTxsResponse.spends (txs : AddressTxsResponse) : List ConfirmedSpend :=
  (txs.transactions.filter fun t =>
    !t.mempool && 0 < t.height && 0 < t.totalSent && t.totalReceived = 0).map fun t =>
      ⟨t.hash, t.height.toInt64, none⟩

/-- The probe of an XMR or WOW tip reads these spends, and this height from a daemon that gives it
with a status other than "OK". -/
def StatusUnread (chains : ChainClients) (tip : SocialTipRow) (spends : List ConfirmedSpend)
    (tipHeight : Int64) : Prop :=
  (toLowercase tip.asset = "xmr" ∨ toLowercase tip.asset = "wow") ∧
  ∃ c address viewKey txs height status, chains.lws (toLowercase tip.asset) = some c ∧
    tip.tipAddress = some address ∧ tip.tipViewKey = some viewKey ∧
    c.getAddressTxs address viewKey = .ok txs ∧ ¬ 0 < txs.blockchainHeight ∧
    c.daemonConfigured ∧ c.getInfo = .ok ⟨some height, status, false⟩ ∧ status ≠ "OK" ∧
    spends = txs.spends ∧ tipHeight = height.toInt64

/-- Such a probe finds a winner that passes the depth gate. -/
def UnreadWinner (chains : ChainClients) (tip : SocialTipRow) (winner : ConfirmedSpend) : Prop :=
  ∃ spends tipHeight, StatusUnread chains tip spends tipHeight ∧ pickWinner spends = some winner ∧
    ¬ (confirmationsOf tipHeight winner).toUInt64 < sweepConfirmThreshold (toLowercase tip.asset)

/-- Such a probe misses the recorded sweep. -/
def UnreadMissing (chains : ChainClients) (tip : SocialTipRow) : Prop :=
  ∃ spends tipHeight txid, StatusUnread chains tip spends tipHeight ∧ tip.sweepTxid = some txid ∧
    ¬ spends.any fun s => s.txid = txid

/-- The node affirmed that the voucher is unspent or that the recorded kernel does not exist. -/
def SpendDenied (chains : ChainClients) (tip : SocialTipRow) : Prop :=
  ∃ c commit, chains.grin = some c ∧ grinCommitment tip = some commit ∧
    ((∃ outputs, c.getOutputs [commit] = .ok outputs ∧ outputs.any fun o => o.commit = commit) ∨
      ∃ excess, sweepExcess tip = some excess ∧ KernelAbsent (c.kernel excess))

/-! ### Failures stop the probe -/

@[simp] theorem failed_ok {α : Type} (a : α) : ¬ Failed (.ok a : Except AppError α) := by
  rintro ⟨e, h⟩
  cases h

@[simp] theorem failed_error {α : Type} (e : AppError) : Failed (.error e : Except AppError α) :=
  ⟨e, rfl⟩

theorem exists_ok_of_not_failed {α : Type} {x : Except AppError α} (h : ¬ Failed x) :
    ∃ a, x = .ok a := by
  cases x with
  | error e => exact absurd (failed_error e) h
  | ok a => exact ⟨a, rfl⟩

theorem failed_bind {α β : Type} {x : Except AppError α} {f : α → Except AppError β} :
    Failed (x >>= f) ↔ Failed x ∨ ∃ a, x = .ok a ∧ Failed (f a) := by
  cases x with
  | error e => simp [bind, Except.bind]
  | ok a => simp [bind, Except.bind]

theorem failed_spendsAmong {c : ElectrumClient} {address : String}
    {entries : List ElectrumHistoryEntry} {entry : ElectrumHistoryEntry} (hmem : entry ∈ entries)
    (h : Failed (c.getTransactionVerbose entry.txHash) ∨
      ∃ tx, c.getTransactionVerbose entry.txHash = .ok tx ∧ Failed (tx.totalReceivedAt address)) :
    Failed (spendsAmong c address entries) := by
  induction entries with
  | nil => cases hmem
  | cons e rest ih =>
    simp only [spendsAmong, failed_bind]
    rcases List.mem_cons.mp hmem with rfl | hrest
    · rcases h with h | ⟨tx, htx, hr⟩
      · exact .inl h
      · exact .inr ⟨tx, htx, .inl (by simpa only [isVerboseTxSpendOf, failed_bind] using .inl hr)⟩
    · by_cases hx : Failed (c.getTransactionVerbose e.txHash)
      · exact .inl hx
      · obtain ⟨tx, htx⟩ := exists_ok_of_not_failed hx
        by_cases hs : Failed (isVerboseTxSpendOf tx address)
        · exact .inr ⟨tx, htx, .inl hs⟩
        · obtain ⟨b, hb⟩ := exists_ok_of_not_failed hs
          exact .inr ⟨tx, htx, .inr ⟨b, hb, .inl (ih hrest)⟩⟩

theorem failed_enabledOr {α : Type} {client : Option α} {e : AppError} :
    Failed (enabledOr client e) ↔ client = none := by
  cases client <;> simp [enabledOr]

theorem enabledOr_some {α : Type} (a : α) (e : AppError) : enabledOr (some a) e = .ok a := rfl

theorem failed_probeElectrumSpends {chains : ChainClients} {tip : SocialTipRow} {asset : String}
    (h : ElectrumFailure chains tip asset) : Failed (probeElectrumSpends chains tip asset) := by
  unfold probeElectrumSpends
  rcases h with hnone | ⟨c, address, hc, haddr, hread⟩
  · simp only [failed_bind, failed_enabledOr, hnone, true_or]
  · simp only [hc, haddr, failed_bind, failed_enabledOr, reduceCtorEq, false_or]
    refine ⟨c, enabledOr_some _ _, address, enabledOr_some _ _, ?_⟩
    by_cases hh : Failed (c.getHistory address)
    · exact .inl hh
    obtain ⟨history, hhistory⟩ := exists_ok_of_not_failed hh
    refine .inr ⟨history, hhistory, ?_⟩
    by_cases ht : Failed c.getTipHeight
    · exact .inl ht
    obtain ⟨tipHeight, htip⟩ := exists_ok_of_not_failed ht
    refine .inr ⟨tipHeight, htip, .inl ?_⟩
    rcases hread with hread | hread | ⟨history', entry, hhistory', hmem, hpos, hread⟩
    · exact absurd hread hh
    · exact absurd hread ht
    · obtain rfl := Except.ok.inj (hhistory.symm.trans hhistory')
      exact failed_spendsAmong (List.mem_filter.mpr ⟨hmem, by simpa using hpos⟩) hread

/-- A height that was read is that of a successful answer, whatever its status. -/
theorem getInfo_of_getBlockchainHeight {c : LwsClient} {height : UInt64}
    (h : c.getBlockchainHeight = .ok height) :
    c.daemonConfigured ∧ ∃ status, c.getInfo = .ok ⟨some height, status, false⟩ := by
  unfold LwsClient.getBlockchainHeight at h
  split_ifs at h with hdaemon
  obtain ⟨⟨result, status, error⟩, hinfo, h⟩ := bind_eq_ok_iff.mp h
  cases error with
  | true => cases h
  | false =>
    cases result with
    | none => cases h
    | some found =>
      obtain rfl := Except.ok.inj h
      exact ⟨by simpa using hdaemon, status, hinfo⟩

theorem probeLwsSpends_of_height {chains : ChainClients} {tip : SocialTipRow} {asset : String}
    {c : LwsClient} {address viewKey : String} {txs : AddressTxsResponse}
    (hc : chains.lws asset = some c) (haddr : tip.tipAddress = some address)
    (hkey : tip.tipViewKey = some viewKey) (htxs : c.getAddressTxs address viewKey = .ok txs)
    (hzero : ¬ 0 < txs.blockchainHeight) :
    probeLwsSpends chains tip asset =
      c.getBlockchainHeight.map fun height => (txs.spends, height.toInt64) := by
  simp only [probeLwsSpends, hc, haddr, hkey, enabledOr_some, htxs, hzero, bind, Except.bind,
    if_false]
  cases c.getBlockchainHeight <;> rfl

/-- A failed read of an XMR or WOW probe stops it, unless it is a status. -/
theorem probeLwsSpends_of_failure {chains : ChainClients} {tip : SocialTipRow}
    (hasset : toLowercase tip.asset = "xmr" ∨ toLowercase tip.asset = "wow")
    (h : LwsFailure chains tip (toLowercase tip.asset)) :
    Failed (probeLwsSpends chains tip (toLowercase tip.asset)) ∨
      ∃ spends tipHeight, StatusUnread chains tip spends tipHeight := by
  rcases h with hnone | ⟨c, address, viewKey, hc, haddr, hkey, hread⟩
  · left
    simp only [probeLwsSpends, failed_bind, failed_enabledOr, hnone, true_or]
  rcases hread with ⟨e, he⟩ | ⟨txs, htxs, hzero, hheight⟩
  · left
    simp [probeLwsSpends, hc, haddr, hkey, enabledOr_some, he, bind, Except.bind]
  cases hread : c.getBlockchainHeight with
  | error e =>
    left
    rw [probeLwsSpends_of_height hc haddr hkey htxs hzero, hread]
    exact failed_error e
  | ok height =>
    right
    obtain ⟨hdaemon, status, hinfo⟩ := getInfo_of_getBlockchainHeight hread
    rcases hheight with hfail | ⟨info, hinfo', hstatus⟩
    · rw [hread] at hfail
      exact absurd hfail (failed_ok _)
    · obtain rfl := Except.ok.inj (hinfo.symm.trans hinfo')
      exact ⟨_, _, hasset, c, address, viewKey, txs, height, status, hc, haddr, hkey, htxs, hzero,
        hdaemon, hinfo, hstatus, rfl, rfl⟩

/-- An unread status is a failure, and the probe goes on. -/
theorem probe_of_statusUnread {chains : ChainClients} {tip : SocialTipRow}
    {spends : List ConfirmedSpend} {tipHeight : Int64}
    (h : StatusUnread chains tip spends tipHeight) :
    UpstreamFailure chains tip ∧ probeConfirmedSpends chains tip = .ok (spends, tipHeight) := by
  obtain ⟨hasset, c, address, viewKey, txs, height, status, hc, haddr, hkey, htxs, hzero, hdaemon,
    hinfo, hstatus, rfl, rfl⟩ := h
  have hfail : LwsFailure chains tip (toLowercase tip.asset) := .inr ⟨c, address, viewKey, hc, haddr,
    hkey, .inr ⟨txs, htxs, hzero, .inr ⟨_, hinfo, hstatus⟩⟩⟩
  have hread : c.getBlockchainHeight = .ok height := by
    simp [LwsClient.getBlockchainHeight, hdaemon, hinfo, bind, Except.bind, pure, Except.pure]
  have hprobe := probeLwsSpends_of_height hc haddr hkey htxs hzero
  rw [hread] at hprobe
  rcases hasset with hxmr | hwow
  · rw [hxmr] at hfail hprobe
    simp only [UpstreamFailure, probeConfirmedSpends, hxmr]
    exact ⟨hfail, hprobe⟩
  · rw [hwow] at hfail hprobe
    simp only [UpstreamFailure, probeConfirmedSpends, hwow]
    exact ⟨hfail, hprobe⟩

/-! ### The kernel answer -/

theorem getKernel_of_kernelError {c : GrinClient} {excess : String}
    (h : KernelError (c.kernel excess)) : c.getKernel excess = .ok none := by
  obtain ⟨env, reason, hex, herr, hres, -⟩ := h
  simp [GrinClient.getKernel, GrinClient.nodeRpcOptional, RpcEnvelope.intoOptional, hex, herr, hres,
    bind, Except.bind, pure, Except.pure]

/-- A kernel that is read as absent was denied by the node, or its answer was an error. -/
theorem kernel_of_getKernel_none {c : GrinClient} {excess : String}
    (h : c.getKernel excess = .ok none) :
    KernelAbsent (c.kernel excess) ∨ KernelError (c.kernel excess) := by
  cases hex : c.kernel excess with
  | error e =>
    simp [GrinClient.getKernel, GrinClient.nodeRpcOptional, hex, bind, Except.bind] at h
  | ok env =>
    obtain ⟨result, error⟩ := env
    cases error with
    | some code =>
      simp [GrinClient.getKernel, GrinClient.nodeRpcOptional, RpcEnvelope.intoOptional, hex, bind,
        Except.bind] at h
    | none =>
      rcases result with - | ((- | info) | reason)
      · simp [GrinClient.getKernel, GrinClient.nodeRpcOptional, RpcEnvelope.intoOptional, hex, bind,
          Except.bind] at h
      · exact .inl ⟨_, rfl, rfl, .inl rfl⟩
      · simp [GrinClient.getKernel, GrinClient.nodeRpcOptional, RpcEnvelope.intoOptional, hex, bind,
          Except.bind, pure, Except.pure] at h
      · by_cases hnf : isNotFound reason
        · exact .inl ⟨_, rfl, rfl, .inr ⟨reason, rfl, hnf⟩⟩
        · exact .inr ⟨_, reason, rfl, rfl, rfl, hnf⟩

theorem probeGrinSpends_of_voucherGone {chains : ChainClients} {tip : SocialTipRow}
    {c : GrinClient} {commit : String} (hc : chains.grin = some c)
    (hcommit : grinCommitment tip = some commit) (hgone : VoucherGone c commit) :
    ∃ tipHeight : Int64, probeGrinSpends chains tip =
      match sweepExcess tip with
      | none => .ok ([], tipHeight)
      | some excess =>
        c.getKernel excess >>= fun k =>
          match k with
          | some height => .ok ([⟨excess, height.toInt64, none⟩], tipHeight)
          | none => .ok ([], tipHeight) := by
  obtain ⟨hheight, outputs, houts, habsent⟩ := hgone
  obtain ⟨height, hh⟩ := exists_ok_of_not_failed hheight
  refine ⟨height.toInt64, ?_⟩
  simp only [probeGrinSpends, hc, hcommit, enabledOr_some, hh, houts, bind, Except.bind, habsent,
    Bool.false_eq_true, ↓reduceIte]
  rfl

theorem failed_probeGrinSpends {chains : ChainClients} {tip : SocialTipRow} {c : GrinClient}
    {commit : String} (hc : chains.grin = some c) (hcommit : grinCommitment tip = some commit)
    (h : Failed c.getHeight ∨ Failed (c.getOutputs [commit])) :
    Failed (probeGrinSpends chains tip) := by
  simp only [probeGrinSpends, hc, hcommit, enabledOr_some, failed_bind]
  refine .inr ⟨c, rfl, .inr ⟨commit, rfl, ?_⟩⟩
  by_cases hheight : Failed c.getHeight
  · exact .inl hheight
  · obtain ⟨height, hh⟩ := exists_ok_of_not_failed hheight
    exact .inr ⟨height, hh, .inl (h.resolve_left hheight)⟩

theorem probeGrinSpends_of_failure {chains : ChainClients} {tip : SocialTipRow}
    (h : GrinFailure chains tip) :
    Failed (probeGrinSpends chains tip) ∨
      ∃ c commit excess, chains.grin = some c ∧ grinCommitment tip = some commit ∧
        VoucherGone c commit ∧ sweepExcess tip = some excess ∧ KernelError (c.kernel excess) := by
  rcases h with hnone | ⟨c, commit, hc, hcommit, hread⟩
  · left
    simp only [probeGrinSpends, failed_bind, failed_enabledOr, hnone, true_or]
  rcases hread with hheight | houts | ⟨hgone, excess, hexcess, hkernel⟩
  · exact .inl (failed_probeGrinSpends hc hcommit (.inl hheight))
  · exact .inl (failed_probeGrinSpends hc hcommit (.inr houts))
  · rcases hkernel with hfail | herror
    · left
      obtain ⟨tipHeight, heq⟩ := probeGrinSpends_of_voucherGone hc hcommit hgone
      rw [heq, hexcess]
      exact failed_bind.mpr (.inl hfail)
    · exact .inr ⟨c, commit, excess, hc, hcommit, hgone, hexcess, herror⟩

theorem sweepExcess_of_empty {tip : SocialTipRow} (h : tip.sweepTxid = some "") :
    sweepExcess tip = none := by
  rw [sweepExcess, h]
  rfl

theorem probe_of_undatedSpend {chains : ChainClients} {tip : SocialTipRow}
    (h : UndatedSpend chains tip) :
    ∃ tipHeight, probeConfirmedSpends chains tip = .ok ([], tipHeight) := by
  obtain ⟨hasset, c, commit, hc, hcommit, hgone, hundated⟩ := h
  obtain ⟨tipHeight, heq⟩ := probeGrinSpends_of_voucherGone hc hcommit hgone
  refine ⟨tipHeight, ?_⟩
  simp only [probeConfirmedSpends, hasset, heq]
  rcases hundated with hempty | ⟨excess, hexcess, herror⟩
  · rw [sweepExcess_of_empty hempty]
  · rw [hexcess]
    simp only [getKernel_of_kernelError herror]
    rfl

/-- **A failure stops the probe**, or is the folded kernel error, or an unread status. -/
theorem probe_of_upstreamFailure {chains : ChainClients} {tip : SocialTipRow}
    (h : UpstreamFailure chains tip) :
    Failed (probeConfirmedSpends chains tip) ∨ UndatedSpend chains tip ∨
      ∃ spends tipHeight, StatusUnread chains tip spends tipHeight := by
  unfold UpstreamFailure at h
  unfold probeConfirmedSpends
  split at h <;> rename_i hasset <;> simp only [hasset]
  · exact .inl (failed_probeElectrumSpends h)
  · exact .inl (failed_probeElectrumSpends h)
  · have hlws := probeLwsSpends_of_failure (.inl hasset) (hasset ▸ h)
    rw [hasset] at hlws
    exact hlws.imp_right .inr
  · have hlws := probeLwsSpends_of_failure (.inr hasset) (hasset ▸ h)
    rw [hasset] at hlws
    exact hlws.imp_right .inr
  · rcases probeGrinSpends_of_failure h with hfail | ⟨c, commit, excess, hc, hcommit, hgone, hx, hk⟩
    · exact .inl hfail
    · exact .inr (.inl ⟨hasset, c, commit, hc, hcommit, hgone, .inr ⟨excess, hx, hk⟩⟩)
  · exact h.elim

/-- A Grin probe that no longer reports the recorded sweep heard the node deny the spend, or
could not date it. -/
theorem denied_or_undated {chains : ChainClients} {tip : SocialTipRow}
    {spends : List ConfirmedSpend} {tipHeight : Int64} {txid : String}
    (hasset : toLowercase tip.asset = "grin") (htxid : tip.sweepTxid = some txid)
    (hprobe : probeConfirmedSpends chains tip = .ok (spends, tipHeight))
    (hmissing : ¬ spends.any fun s => s.txid = txid) :
    SpendDenied chains tip ∨ UndatedSpend chains tip := by
  simp only [probeConfirmedSpends, hasset] at hprobe
  have hok : ¬ Failed (probeGrinSpends chains tip) := by
    rw [hprobe]
    exact failed_ok _
  cases hc : chains.grin with
  | none =>
    exact absurd (by simp only [probeGrinSpends, failed_bind, failed_enabledOr, hc, true_or]) hok
  | some c =>
    cases hcommit : grinCommitment tip with
    | none =>
      refine absurd ?_ hok
      simp only [probeGrinSpends, hc, failed_bind, failed_enabledOr, hcommit, true_or, and_true]
      exact .inr ⟨c, rfl⟩
    | some commit =>
      have hheight : ¬ Failed c.getHeight := fun hf =>
        hok (failed_probeGrinSpends hc hcommit (.inl hf))
      have houts : ¬ Failed (c.getOutputs [commit]) := fun hf =>
        hok (failed_probeGrinSpends hc hcommit (.inr hf))
      obtain ⟨outputs, ho⟩ := exists_ok_of_not_failed houts
      by_cases hany : outputs.any fun o => o.commit = commit
      · exact .inl ⟨c, commit, hc, hcommit, .inl ⟨outputs, ho, hany⟩⟩
      · have hgone : VoucherGone c commit := ⟨hheight, outputs, ho, hany⟩
        cases hx : sweepExcess tip with
        | none =>
          -- a recorded sweep without an excess is the empty string
          have hempty : txid = "" := by simpa [sweepExcess, htxid, Option.filter] using hx
          exact .inr ⟨hasset, c, commit, hc, hcommit, hgone, .inl (hempty ▸ htxid)⟩
        | some excess =>
          have hsame : excess = txid := by
            simp only [sweepExcess, htxid, Option.filter] at hx
            split_ifs at hx
            exact (Option.some.inj hx).symm
          obtain ⟨tipHeight', heq⟩ := probeGrinSpends_of_voucherGone hc hcommit hgone
          rw [hprobe, hx] at heq
          cases hk : c.getKernel excess with
          | error e => simp [hk, bind, Except.bind] at heq
          | ok k =>
            cases k with
            | some height =>
              simp only [hk, bind, Except.bind, Except.ok.injEq, Prod.mk.injEq] at heq
              simp [heq.1, hsame] at hmissing
            | none =>
              rcases kernel_of_getKernel_none hk with habsent | herror
              · exact .inl ⟨c, commit, hc, hcommit, .inr ⟨excess, hx, habsent⟩⟩
              · exact .inr ⟨hasset, c, commit, hc, hcommit, hgone, .inr ⟨excess, hx, herror⟩⟩

/-! ### What the passes write -/

/-- The row without the column the passes may always write. -/
def SocialTipRow.withoutCheck (r : SocialTipRow) : SocialTipRow :=
  { r with lastConfirmationCheck := none }

/-- No row differs but in `last_confirmation_check`. -/
def SameButLastCheck (db db' : SocialTips) : Prop :=
  ∀ id, (db'.get? id).map SocialTipRow.withoutCheck = (db.get? id).map SocialTipRow.withoutCheck

section Passes

variable (faults : SweepFaults) (now : Timestamp) (tip : SocialTipRow) (db : SocialTips)

/-- The touch runs on a stored row and its trigger moves `updated_at`. -/
def TouchMoves : Prop :=
  faults .touchTipLastCheck = none ∧ ∃ r, db.get? tip.id = some r ∧ r.updatedAt ≠ now

/-- The stored row is settled and the revert runs. -/
def CanRevert : Prop :=
  faults .revertSweepOnReorg = none ∧ ∃ r, db.get? tip.id = some r ∧ SocialTips.settled r

theorem sameButLastCheck_touchAfter_iff :
    SameButLastCheck db (touchAfter faults now tip db) ↔ ¬ TouchMoves faults now tip db := by
  unfold touchAfter SweepFaults.run TouchMoves
  cases hf : faults .touchTipLastCheck with
  | some e => simp [SameButLastCheck]
  | none =>
    simp only [true_and, SameButLastCheck, SocialTips.touchTipLastCheck,
      SocialTips.get?_guardedUpdate, and_true, Option.map_map]
    constructor
    · rintro hsame ⟨r, hr, hne⟩
      have h := hsame tip.id
      simp only [hr, Option.map_some, Function.comp_apply, ↓reduceIte, Option.some.injEq] at h
      exact hne (congrArg SocialTipRow.updatedAt h).symm
    · intro hnot id
      cases hr : db.get? id with
      | none => rfl
      | some r =>
        by_cases hid : id = tip.id
        · have hnow : r.updatedAt = now := by
            by_contra hne
            exact hnot ⟨r, hid ▸ hr, hne⟩
          subst hnow
          simp [hid, SocialTipRow.withoutCheck]
        · simp [hid]

theorem get?_sendReorgDmIfNeeded_status (reverted : SocialTipRow) (id : Uuid) :
    ((sendReorgDmIfNeeded faults now reverted db).get? id).map SocialTipRow.status =
      (db.get? id).map SocialTipRow.status := by
  unfold sendReorgDmIfNeeded SweepFaults.run
  split_ifs
  · rfl
  · split
    · rfl
    · simp only [SocialTips.stampReorgNotified, SocialTips.get?_guardedUpdate, Option.map_map]
      congr 1
      funext r
      simp only [Function.comp_apply]
      split_ifs <;> rfl

theorem revertTip_of_canRevert (h : CanRevert faults tip db) :
    ((revertTip faults now tip db).2.get? tip.id).map SocialTipRow.status = some .claiming := by
  obtain ⟨hf, r, hr, hg⟩ := h
  obtain ⟨hret, hget⟩ := SocialTips.guardedUpdate_of_guard now _ hr hg
  have hrun : faults.run .revertSweepOnReorg db (db.revertSweepOnReorg now tip.id) =
      (.ok (db.revertSweepOnReorg now tip.id).1, (db.revertSweepOnReorg now tip.id).2) := by
    rw [SweepFaults.run, hf]
  rw [revertTip, hrun]
  simp only [SocialTips.revertSweepOnReorg] at hret hget ⊢
  rw [hret]
  simp only [get?_sendReorgDmIfNeeded_status, hget]
  rfl

theorem revertTip_of_not_canRevert (h : ¬ CanRevert faults tip db) (id : Uuid) :
    (revertTip faults now tip db).2.get? id = db.get? id := by
  unfold revertTip SweepFaults.run
  cases hf : faults .revertSweepOnReorg with
  | some e => rfl
  | none =>
    have hguard : ∀ r, db.get? tip.id = some r → ¬ SocialTips.settled r := fun r hr hg =>
      h ⟨hf, r, hr, hg⟩
    obtain ⟨hnone, hsame⟩ := SocialTips.guardedUpdate_of_not_guard now _ hguard
    simp only [SocialTips.revertSweepOnReorg] at hnone hsame ⊢
    rw [hnone]
    exact hsame id

end Passes

/-! ### Isolation -/

/-- The two passes of the reconciler. -/
inductive SweepPass
  | awaiting
  | settled

/-- The table after one row of a pass. -/
def SweepPass.run (pass : SweepPass) (faults : SweepFaults) (now : Timestamp)
    (chains : ChainClients) (tip : SocialTipRow) (db : SocialTips) : SocialTips :=
  match pass with
  | .awaiting => (processAwaitingTip faults now chains tip db).2
  | .settled => (processSettledTip faults now chains tip db).2

/-- Some row went from `claimed` back to `claiming`. -/
def Reverted (db db' : SocialTips) : Prop :=
  ∃ id r r', db.get? id = some r ∧ db'.get? id = some r' ∧ r.status = .claimed ∧
    r'.status = .claiming

section Isolation

variable (faults : SweepFaults) (now : Timestamp) (chains : ChainClients) (tip : SocialTipRow)
  (db : SocialTips)

/-- The pass is isolated from upstream failures: after one it has written nothing but
`last_confirmation_check`, and a settled Grin tip is reverted only on the node's word. -/
def FailureIsolated (pass : SweepPass) : Prop :=
  (UpstreamFailure chains tip → SameButLastCheck db (pass.run faults now chains tip db)) ∧
  (pass = .settled → toLowercase tip.asset = "grin" →
    Reverted db (pass.run faults now chains tip db) → SpendDenied chains tip)

/-- What breaks the isolation: a touch whose trigger moves `updated_at`, a settlement on a height
whose status went unread, and, in the reorg pass, the revert of a settled row whose spend nothing
dates, or which was missed on such a height. -/
def IsolationBroken : SweepPass → Prop
  | .awaiting =>
    (UpstreamFailure chains tip ∧ (¬ ∃ winner, UnreadWinner chains tip winner) ∧
      TouchMoves faults now tip db) ∨
      ∃ winner, UnreadWinner chains tip winner ∧ CanSettle faults tip winner db
  | .settled =>
    (UpstreamFailure chains tip ∧ ¬ (UndatedSpend chains tip ∨ UnreadMissing chains tip) ∧
      TouchMoves faults now tip db) ∨
      ((UndatedSpend chains tip ∨ UnreadMissing chains tip) ∧ CanRevert faults tip db)

variable {chains tip}

theorem sweepTxid_of_undatedSpend (h : UndatedSpend chains tip) :
    ∃ txid, tip.sweepTxid = some txid := by
  obtain ⟨-, c, commit, -, -, -, hempty | ⟨excess, hx, -⟩⟩ := h
  · exact ⟨"", hempty⟩
  · cases htxid : tip.sweepTxid with
    | none => simp [sweepExcess, htxid] at hx
    | some txid => exact ⟨txid, rfl⟩

/-- The node cannot have denied a spend that nothing dates. -/
theorem not_spendDenied_of_undatedSpend (h : UndatedSpend chains tip) :
    ¬ SpendDenied chains tip := by
  obtain ⟨-, c, commit, hc, hcommit, ⟨-, outputs, ho, habsent⟩, hundated⟩ := h
  rintro ⟨c', commit', hc', hcommit', hdenied⟩
  obtain rfl := Option.some.inj (hc.symm.trans hc')
  obtain rfl := Option.some.inj (hcommit.symm.trans hcommit')
  rcases hdenied with ⟨outputs', ho', hany⟩ | ⟨excess, hx, env, henv, -, hres⟩
  · obtain rfl := Except.ok.inj (ho.symm.trans ho')
    exact habsent hany
  · rcases hundated with hempty | ⟨excess', hx', env', reason, henv', -, hres', hnf⟩
    · have hnone : sweepExcess tip = none := sweepExcess_of_empty hempty
      simp [hnone] at hx
    · obtain rfl := Option.some.inj (hx.symm.trans hx')
      obtain rfl := Except.ok.inj (henv.symm.trans henv')
      rcases hres with hres | ⟨reason', hres, hnf'⟩
      · simp [hres] at hres'
      · rw [hres] at hres'
        obtain rfl : reason' = reason := by simpa using hres'
        exact hnf hnf'

theorem processAwaitingTip_of_failure (h : UpstreamFailure chains tip)
    (hread : ¬ ∃ winner, UnreadWinner chains tip winner) :
    (processAwaitingTip faults now chains tip db).2 = touchAfter faults now tip db := by
  rcases probe_of_upstreamFailure h with ⟨e, he⟩ | hundated | ⟨spends, tipHeight, hunread⟩
  · simp [processAwaitingTip, he]
  · obtain ⟨tipHeight, hprobe⟩ := probe_of_undatedSpend hundated
    simp [processAwaitingTip, hprobe, pickWinner]
  · obtain ⟨-, hprobe⟩ := probe_of_statusUnread hunread
    cases hwinner : pickWinner spends with
    | none => simp only [processAwaitingTip, hprobe, hwinner]
    | some winner =>
      have hshallow : (confirmationsOf tipHeight winner).toUInt64 <
          sweepConfirmThreshold (toLowercase tip.asset) := by
        by_contra hdeep
        exact hread ⟨winner, spends, tipHeight, hunread, hwinner, hdeep⟩
      simp only [processAwaitingTip, hprobe, hwinner, hshallow, if_true]

/-- On an unread status the pass settles the winner, if the settlement takes effect. -/
theorem sameButLastCheck_unreadWinner_iff {winner : ConfirmedSpend}
    (h : UnreadWinner chains tip winner) :
    SameButLastCheck db (processAwaitingTip faults now chains tip db).2 ↔
      ¬ CanSettle faults tip winner db := by
  obtain ⟨spends, tipHeight, hunread, hwinner, hdeep⟩ := h
  obtain ⟨-, hprobe⟩ := probe_of_statusUnread hunread
  constructor
  · intro hsame hcan
    obtain ⟨r', hclaimed, -, hget⟩ := settleWinner_of_canSettle now hcan
    obtain ⟨⟨r, hr, hg⟩, -⟩ := hcan
    have hafter := congrArg (Option.map Prod.fst)
      (processAwaitingTip_of_passes faults now db hprobe hwinner hdeep tip.id)
    have hbefore := congrArg (Option.map SocialTipRow.status) (hsame tip.id)
    simp only [hget, hr, Option.map_map, Option.map_some] at hafter hbefore
    have hstatus : r'.status = r.status := Option.some.inj (hafter.symm.trans hbefore)
    simp [SocialTips.awaitingSettlement, ← hstatus, hclaimed] at hg
  · intro hcannot id
    obtain ⟨hresult, hget⟩ := get?_settleWinner_of_not_canSettle now hcannot
    have hend : (processAwaitingTip faults now chains tip db).2 =
        (settleWinner faults now tip winner db).2 := by
      simp only [processAwaitingTip, hprobe, hwinner, if_neg hdeep]
      generalize settleWinner faults now tip winner db = res at hresult
      obtain ⟨r, db'⟩ := res
      rcases hresult with rfl | ⟨e, rfl⟩ <;> rfl
    rw [hend, hget id]

theorem processSettledTip_of_misread (h : UndatedSpend chains tip ∨ UnreadMissing chains tip) :
    (processSettledTip faults now chains tip db).2 = (revertTip faults now tip db).2 := by
  rcases h with hundated | ⟨spends, tipHeight, txid, hunread, htxid, hmissing⟩
  · obtain ⟨txid, htxid⟩ := sweepTxid_of_undatedSpend hundated
    obtain ⟨tipHeight, hprobe⟩ := probe_of_undatedSpend hundated
    simp [processSettledTip, htxid, hprobe]
  · obtain ⟨-, hprobe⟩ := probe_of_statusUnread hunread
    simp only [processSettledTip, htxid, hprobe, if_neg hmissing]

theorem processSettledTip_of_failure (h : UpstreamFailure chains tip)
    (hread : ¬ (UndatedSpend chains tip ∨ UnreadMissing chains tip)) :
    (processSettledTip faults now chains tip db).2 = touchAfter faults now tip db := by
  cases htxid : tip.sweepTxid with
  | none => simp [processSettledTip, htxid]
  | some txid =>
    rcases probe_of_upstreamFailure h with ⟨e, he⟩ | hundated | ⟨spends, tipHeight, hunread⟩
    · simp [processSettledTip, htxid, he]
    · exact absurd (.inl hundated) hread
    · have hfound : spends.any fun s => s.txid = txid := by
        by_contra hmissing
        exact hread (.inr ⟨spends, tipHeight, txid, hunread, htxid, hmissing⟩)
      obtain ⟨-, hprobe⟩ := probe_of_statusUnread hunread
      simp only [processSettledTip, htxid, hprobe, if_pos hfound]

theorem processSettledTip_cases :
    (processSettledTip faults now chains tip db).2 = touchAfter faults now tip db ∨
      ∃ txid spends tipHeight, tip.sweepTxid = some txid ∧
        probeConfirmedSpends chains tip = .ok (spends, tipHeight) ∧
        (¬ spends.any fun s => s.txid = txid) ∧
        (processSettledTip faults now chains tip db).2 = (revertTip faults now tip db).2 := by
  cases htxid : tip.sweepTxid with
  | none => exact .inl (by simp [processSettledTip, htxid])
  | some txid =>
    cases hprobe : probeConfirmedSpends chains tip with
    | error e => exact .inl (by simp [processSettledTip, htxid, hprobe])
    | ok result =>
      obtain ⟨spends, tipHeight⟩ := result
      by_cases hany : spends.any fun s => s.txid = txid
      · exact .inl (by simp only [processSettledTip, htxid, hprobe, hany, ↓reduceIte])
      · refine .inr ⟨txid, spends, tipHeight, rfl, rfl, hany, ?_⟩
        simp only [processSettledTip, htxid, hprobe, hany, Bool.false_eq_true, ↓reduceIte]

theorem not_reverted_of_status {db' : SocialTips}
    (h : ∀ id, (db'.get? id).map SocialTipRow.status = (db.get? id).map SocialTipRow.status) :
    ¬ Reverted db db' := by
  rintro ⟨id, r, r', hr, hr', hclaimed, hclaiming⟩
  have := h id
  simp [hr, hr', hclaimed, hclaiming] at this

theorem not_reverted_touchAfter : ¬ Reverted db (touchAfter faults now tip db) := by
  apply not_reverted_of_status
  intro id
  have h := congrArg (Option.map Prod.fst) (sameSettlement_touchAfter faults now tip db id)
  simpa [Option.map_map, Function.comp_def, SocialTipRow.settlement] using h

theorem reverted_of_canRevert (h : CanRevert faults tip db) :
    Reverted db (revertTip faults now tip db).2 := by
  have hstatus := revertTip_of_canRevert faults now tip db h
  obtain ⟨-, r, hr, hg⟩ := h
  obtain ⟨r', hr', hclaiming⟩ := Option.map_eq_some_iff.mp hstatus
  simp only [SocialTips.settled, Bool.and_eq_true, decide_eq_true_eq] at hg
  exact ⟨tip.id, r, r', hr, hr', hg.1, hclaiming⟩

theorem not_sameButLastCheck_of_reverted {db' : SocialTips} (h : Reverted db db') :
    ¬ SameButLastCheck db db' := by
  intro hsame
  refine not_reverted_of_status db (fun id => ?_) h
  have hrow := congrArg (Option.map SocialTipRow.status) (hsame id)
  rwa [Option.map_map, Option.map_map] at hrow

variable (chains tip)

/-- **Isolation from upstream failures.**  A pass is isolated exactly when no failure reaches a
touch that moves `updated_at`, no winner is settled on a height whose status went unread, and, in
the reorg pass, no settled tip is reverted on a kernel error or on such a height. -/
theorem sweepPass_failureIsolated_iff (pass : SweepPass) :
    FailureIsolated faults now chains tip db pass ↔
      ¬ IsolationBroken faults now chains tip db pass := by
  cases pass with
  | awaiting =>
    simp only [FailureIsolated, IsolationBroken, SweepPass.run, reduceCtorEq, false_implies,
      and_true, not_or]
    constructor
    · intro hsame
      refine ⟨fun ⟨hfail, hread, hmoves⟩ => ?_, fun ⟨winner, hunread, hcan⟩ => ?_⟩
      · have h := hsame hfail
        rw [processAwaitingTip_of_failure faults now db hfail hread] at h
        exact (sameButLastCheck_touchAfter_iff faults now tip db).mp h hmoves
      · obtain ⟨spends, tipHeight, hstatus, -, -⟩ := id hunread
        have hfail := (probe_of_statusUnread hstatus).1
        exact (sameButLastCheck_unreadWinner_iff faults now db hunread).mp (hsame hfail) hcan
    · rintro ⟨htouch, hsettle⟩ hfail
      by_cases hread : ∃ winner, UnreadWinner chains tip winner
      · obtain ⟨winner, hunread⟩ := hread
        exact (sameButLastCheck_unreadWinner_iff faults now db hunread).mpr fun hcan =>
          hsettle ⟨winner, hunread, hcan⟩
      · rw [processAwaitingTip_of_failure faults now db hfail hread]
        exact (sameButLastCheck_touchAfter_iff faults now tip db).mpr fun hmoves =>
          htouch ⟨hfail, hread, hmoves⟩
  | settled =>
    simp only [FailureIsolated, IsolationBroken, SweepPass.run, forall_const, not_or (p := _ ∧ _),
      not_and]
    constructor
    · rintro ⟨hsame, hdenied⟩
      refine ⟨fun hfail hread => ?_, fun hmisread hcan => ?_⟩
      · have h := hsame hfail
        rw [processSettledTip_of_failure faults now db hfail hread] at h
        exact (sameButLastCheck_touchAfter_iff faults now tip db).mp h
      · have hrev := reverted_of_canRevert faults now db hcan
        rw [← processSettledTip_of_misread faults now db hmisread] at hrev
        rcases hmisread with hundated | ⟨spends, tipHeight, txid, hunread, -, -⟩
        · exact not_spendDenied_of_undatedSpend hundated (hdenied hundated.1 hrev)
        · exact not_sameButLastCheck_of_reverted db hrev (hsame (probe_of_statusUnread hunread).1)
    · rintro ⟨htouch, hrevert⟩
      constructor
      · intro hfail
        by_cases hmisread : UndatedSpend chains tip ∨ UnreadMissing chains tip
        · rw [processSettledTip_of_misread faults now db hmisread]
          intro id
          rw [revertTip_of_not_canRevert faults now tip db (hrevert hmisread)]
        · rw [processSettledTip_of_failure faults now db hfail hmisread]
          exact (sameButLastCheck_touchAfter_iff faults now tip db).mpr (htouch hfail hmisread)
      · intro hasset hrev
        rcases processSettledTip_cases faults now db with
          heq | ⟨txid, spends, tipHeight, htxid, hprobe, hmissing, heq⟩
        · rw [heq] at hrev
          exact absurd hrev (not_reverted_touchAfter faults now db)
        · rcases denied_or_undated hasset htxid hprobe hmissing with hden | hundated
          · exact hden
          · rw [heq] at hrev
            refine absurd hrev (not_reverted_of_status db fun id => ?_)
            rw [revertTip_of_not_canRevert faults now tip db (hrevert (.inl hundated))]

end Isolation

/-! ### A node that answers `get_kernel` with an internal error -/

/-- A node that has lost the voucher from its output set and fails on the kernel lookup. -/
def GrinClient.kernelFault : GrinClient where
  status := .ok ⟨some (.ok 200), none⟩
  outputs _ := .ok ⟨some (.ok []), none⟩
  kernel _ := .ok ⟨some (.err (.str "Internal error")), none⟩

/-- A settled Grin tip. -/
def SocialTipRow.sampleSettled : SocialTipRow :=
  { SocialTipRow.sampleClaiming with
    status := .claimed
    sweepConfirmedAt := some 3
    sweepBlockHeight := some 101
    updatedAt := 3 }

/-- The reorg pass reverts the settled sample tip on an error answer of the node. -/
theorem sampleSettled_not_failureIsolated :
    ¬ FailureIsolated (fun _ => none) 5 (.grinOnly .kernelFault) .sampleSettled
      (.singleton .sampleSettled) .settled := by
  rintro ⟨hsame, -⟩
  have hfail : UpstreamFailure (.grinOnly .kernelFault) .sampleSettled := by
    refine .inr ⟨.kernelFault, "08aa", rfl, rfl, .inr (.inr ⟨⟨?_, [], rfl, by decide⟩, ?_⟩)⟩
    · exact failed_ok _
    · exact ⟨"5e", rfl, .inr ⟨_, _, rfl, rfl, rfl, by decide⟩⟩
  have hstatus := congrArg (Option.map SocialTipRow.status) (hsame hfail 1)
  exact absurd hstatus (by decide)

end SmirkBackend

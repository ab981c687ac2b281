import Mathlib
import SmirkBackend.Tips.Attribution

/-!
# The canonical winner

A server returns the history of an address in an order of its own, and a reorg makes the
reconciler probe an address it has probed before.  The winner is the least spend by height and
then by transaction id, so what a probe settles to depends on the set of spends alone.

* `pickWinner_eq_argmin` : the loop keeps the first least spend.
* `pickWinner_canonical` : the winner is least, and no order of the list and no later spend changes
  its rank.
* `processAwaitingTip_of_perm` : a confirm call does the same whatever the order of the history.
-/

namespace SmirkBackend

/-- What `pick_winner` compares: the height, then the transaction id.  Strings are ordered by code
points, which is the order of their UTF-8 bytes. -/
def ConfirmedSpend.rank (s : ConfirmedSpend) : ℤ ×ₗ String := toLex (s.blockHeight.toInt, s.txid)

theorem ConfirmedSpend.rank_eq_iff {a b : ConfirmedSpend} :
    a.rank = b.rank ↔ a.txid = b.txid ∧ a.blockHeight = b.blockHeight := by
  rw [rank, rank, toLex.injective.eq_iff, Prod.mk.injEq, Int64.toInt_inj]
  exact And.comm

theorem ConfirmedSpend.precedes_iff (a b : ConfirmedSpend) : a.precedes b ↔ a.rank < b.rank := by
  rw [rank, rank, Prod.Lex.toLex_lt_toLex]
  simp [precedes, Int64.lt_iff_toInt_lt, Int64.toInt_inj]

theorem pickWinner_eq_argmin (spends : List ConfirmedSpend) :
    pickWinner spends = spends.argmin ConfirmedSpend.rank := by
  cases spends with
  | nil => rfl
  | cons s rest =>
    -- from its first element on, the fold of `argmin` is the fold of `pickWinner`
    have hfold : ∀ (l : List ConfirmedSpend) (s : ConfirmedSpend),
        some (l.foldl (fun best x => if x.precedes best then x else best) s) =
          l.foldl (List.argAux fun b c => b.rank < c.rank) (some s) := by
      intro l
      induction l with
      | nil => intro s; rfl
      | cons x l ih =>
        intro s
        rw [List.foldl_cons, List.foldl_cons, ih]
        congr 1
        by_cases hx : x.rank < s.rank
        · simp [List.argAux, hx, (x.precedes_iff s).mpr hx]
        · simp [List.argAux, hx, mt (x.precedes_iff s).mp hx]
    exact hfold rest s

theorem pickWinner_eq_none {spends : List ConfirmedSpend} :
    pickWinner spends = none ↔ spends = [] := by
  rw [pickWinner_eq_argmin, List.argmin_eq_none]

theorem rank_le_of_pickWinner {spends : List ConfirmedSpend} {winner s : ConfirmedSpend}
    (h : pickWinner spends = some winner) (hs : s ∈ spends) : winner.rank ≤ s.rank := by
  rw [pickWinner_eq_argmin] at h
  exact List.le_of_mem_argmin hs h

/-- The winners of two lists that bound each other have one rank. -/
theorem map_rank_pickWinner (spends spends' : List ConfirmedSpend)
    (h : ∀ s ∈ spends, ∃ s' ∈ spends', s'.rank ≤ s.rank)
    (h' : ∀ s' ∈ spends', ∃ s ∈ spends, s.rank ≤ s'.rank) :
    (pickWinner spends).map ConfirmedSpend.rank = (pickWinner spends').map ConfirmedSpend.rank := by
  cases hw : pickWinner spends with
  | none =>
    obtain rfl := pickWinner_eq_none.mp hw
    have hnil : spends' = [] := List.eq_nil_iff_forall_not_mem.mpr fun s' hs' => by
      obtain ⟨s, hs, -⟩ := h' s' hs'
      exact List.not_mem_nil hs
    rw [pickWinner_eq_none.mpr hnil]
  | some w =>
    obtain ⟨s', hs', hle⟩ := h w (pickWinner_mem hw)
    obtain ⟨w', hw'⟩ := exists_pickWinner (List.ne_nil_of_mem hs')
    obtain ⟨s, hs, hle'⟩ := h' w' (pickWinner_mem hw')
    rw [hw']
    refine congrArg some (le_antisymm ?_ ?_)
    · exact (rank_le_of_pickWinner hw hs).trans hle'
    · exact (rank_le_of_pickWinner hw' hs').trans hle

theorem map_rank_pickWinner_of_perm {spends spends' : List ConfirmedSpend}
    (h : spends'.Perm spends) :
    (pickWinner spends').map ConfirmedSpend.rank = (pickWinner spends).map ConfirmedSpend.rank :=
  map_rank_pickWinner spends' spends (fun s hs => ⟨s, h.mem_iff.mp hs, le_rfl⟩)
    fun s hs => ⟨s, h.mem_iff.mpr hs, le_rfl⟩

/-- The winner is the least spend by height and then by transaction id, `none` for the empty list
only; a permutation, and spends that are not smaller put in anywhere, leave its height and
transaction id as they are. -/
theorem pickWinner_canonical (spends : List ConfirmedSpend) :
    (pickWinner spends = none ↔ spends = []) ∧
      (∀ winner, pickWinner spends = some winner →
        winner ∈ spends ∧ ∀ s ∈ spends, winner.rank ≤ s.rank) ∧
      (∀ spends', spends'.Perm spends →
        (pickWinner spends').map (fun w => (w.txid, w.blockHeight)) =
          (pickWinner spends).map fun w => (w.txid, w.blockHeight)) ∧
      ∀ winner more spends', pickWinner spends = some winner →
        (∀ s ∈ more, ¬ s.rank < winner.rank) → spends'.Perm (spends ++ more) →
        (pickWinner spends').map (fun w => (w.txid, w.blockHeight)) =
          some (winner.txid, winner.blockHeight) := by
  -- one rank is one transaction id and one height
  have hpair : ∀ {o o' : Option ConfirmedSpend},
      o.map ConfirmedSpend.rank = o'.map ConfirmedSpend.rank →
      o.map (fun w => (w.txid, w.blockHeight)) = o'.map fun w => (w.txid, w.blockHeight) := by
    rintro (_ | a) (_ | b) h
    · rfl
    · cases h
    · cases h
    · obtain ⟨ht, hh⟩ := ConfirmedSpend.rank_eq_iff.mp (Option.some.inj h)
      simp only [Option.map_some, ht, hh]
  refine ⟨pickWinner_eq_none, fun winner h => ⟨pickWinner_mem h, fun s => rank_le_of_pickWinner h⟩,
    fun spends' hperm => hpair (map_rank_pickWinner_of_perm hperm),
    fun winner more spends' h hmore hperm => ?_⟩
  have hrank := map_rank_pickWinner spends' spends
    (fun s hs => ?_) fun s hs => ⟨s, hperm.mem_iff.mpr (List.mem_append_left more hs), le_rfl⟩
  · rw [hpair hrank, h]
    rfl
  · rcases List.mem_append.mp (hperm.mem_iff.mp hs) with hs | hs
    · exact ⟨s, hs, le_rfl⟩
    · exact ⟨winner, pickWinner_mem h, not_lt.mp (hmore s hs)⟩

theorem pickWinner_canonical_two :
    (pickWinner [⟨"bb", 7, none⟩, ⟨"aa", 7, none⟩, ⟨"cc", 9, none⟩]).map
      (fun w => (w.txid, w.blockHeight)) = some ("aa", 7) := by
  have h : pickWinner [⟨"bb", 7, none⟩, ⟨"aa", 7, none⟩] = some ⟨"aa", 7, none⟩ := by decide
  refine (pickWinner_canonical [⟨"bb", 7, none⟩, ⟨"aa", 7, none⟩]).2.2.2 _ [⟨"cc", 9, none⟩] _ h
    (fun s hs => ?_) (List.Perm.refl _)
  rw [List.mem_singleton.mp hs, ← ConfirmedSpend.precedes_iff]
  decide

/-! ### The order of a history -/

theorem blockHash_of_spendsAmong {c : ElectrumClient} {address : String}
    {es : List ElectrumHistoryEntry} {spends : List ConfirmedSpend}
    (h : spendsAmong c address es = .ok spends) : ∀ s ∈ spends, s.blockHash = none := by
  induction es generalizing spends with
  | nil =>
    obtain rfl := Except.ok.inj h
    exact fun s hs => absurd hs List.not_mem_nil
  | cons e es ih =>
    simp only [spendsAmong] at h
    obtain ⟨tx, -, h⟩ := bind_eq_ok_iff.mp h
    obtain ⟨isSpend, -, h⟩ := bind_eq_ok_iff.mp h
    obtain ⟨rest, hrest, h⟩ := bind_eq_ok_iff.mp h
    obtain rfl := Except.ok.inj h
    intro s hs
    by_cases hi : isSpend
    · rw [if_pos hi] at hs
      rcases List.mem_cons.mp hs with rfl | hs
      · rfl
      · exact ih hrest s hs
    · rw [if_neg hi] at hs
      exact ih hrest s hs

/-- No probe fetches the hash of a block. -/
theorem blockHash_of_probe {chains : ChainClients} {tip : SocialTipRow}
    {spends : List ConfirmedSpend} {tipHeight : Int64}
    (h : probeConfirmedSpends chains tip = .ok (spends, tipHeight)) :
    ∀ s ∈ spends, s.blockHash = none := by
  have helectrum : ∀ {asset}, probeElectrumSpends chains tip asset = .ok (spends, tipHeight) →
      ∀ s ∈ spends, s.blockHash = none := by
    intro asset h
    obtain ⟨electrum, -, h⟩ := bind_eq_ok_iff.mp h
    obtain ⟨address, -, h⟩ := bind_eq_ok_iff.mp h
    obtain ⟨history, -, h⟩ := bind_eq_ok_iff.mp h
    obtain ⟨height, -, h⟩ := bind_eq_ok_iff.mp h
    obtain ⟨among, hamong, h⟩ := bind_eq_ok_iff.mp h
    obtain ⟨rfl, -⟩ := Prod.mk.inj (Except.ok.inj h)
    exact blockHash_of_spendsAmong hamong
  have hlws : ∀ {asset}, probeLwsSpends chains tip asset = .ok (spends, tipHeight) →
      ∀ s ∈ spends, s.blockHash = none := by
    intro asset h
    obtain ⟨lws, -, h⟩ := bind_eq_ok_iff.mp h
    obtain ⟨address, -, h⟩ := bind_eq_ok_iff.mp h
    obtain ⟨viewKey, -, h⟩ := bind_eq_ok_iff.mp h
    obtain ⟨txs, -, h⟩ := bind_eq_ok_iff.mp h
    -- either source of the chain height leads to the same list
    dsimp only at h
    split_ifs at h <;>
      · obtain ⟨height, -, h⟩ := bind_eq_ok_iff.mp h
        obtain ⟨rfl, -⟩ := Prod.mk.inj (Except.ok.inj h)
        intro s hs
        obtain ⟨t, -, rfl⟩ := List.mem_map.mp hs
        rfl
  simp only [probeConfirmedSpends] at h
  split at h
  · exact helectrum h
  · exact helectrum h
  · exact hlws h
  · exact hlws h
  · obtain ⟨grin, -, h⟩ := bind_eq_ok_iff.mp h
    obtain ⟨commit, -, h⟩ := bind_eq_ok_iff.mp h
    obtain ⟨height, -, h⟩ := bind_eq_ok_iff.mp h
    obtain ⟨outputs, -, h⟩ := bind_eq_ok_iff.mp h
    split at h
    · cases h
      exact fun s hs => absurd hs List.not_mem_nil
    · split at h
      · cases h
        exact fun s hs => absurd hs List.not_mem_nil
      · obtain ⟨kernel, -, h⟩ := bind_eq_ok_iff.mp h
        cases kernel <;> cases h
        · exact fun s hs => absurd hs List.not_mem_nil
        · exact fun s hs => by rw [List.mem_singleton.mp hs]
  · cases h

/-- A confirm call does the same whatever the order in which the server returns the history. -/
theorem processAwaitingTip_of_perm (faults : SweepFaults) (now : Timestamp)
    {chains chains' : ChainClients} {tip : SocialTipRow} {spends spends' : List ConfirmedSpend}
    {tipHeight : Int64} (db : SocialTips)
    (h : probeConfirmedSpends chains tip = .ok (spends, tipHeight))
    (h' : probeConfirmedSpends chains' tip = .ok (spends', tipHeight))
    (hperm : spends'.Perm spends) :
    processAwaitingTip faults now chains' tip db = processAwaitingTip faults now chains tip db := by
  have hsame : pickWinner spends' = pickWinner spends := by
    have hrank := map_rank_pickWinner_of_perm hperm
    cases hw : pickWinner spends with
    | none => simpa [hw] using hrank
    | some w =>
      cases hw' : pickWinner spends' with
      | none => simp [hw, hw'] at hrank
      | some w' =>
        rw [hw, hw'] at hrank
        obtain ⟨ht, hh⟩ := ConfirmedSpend.rank_eq_iff.mp (Option.some.inj hrank)
        have hb := blockHash_of_probe h w (pickWinner_mem hw)
        have hb' := blockHash_of_probe h' w' (pickWinner_mem hw')
        obtain ⟨txid, height, hash⟩ := w
        obtain ⟨txid', height', hash'⟩ := w'
        simp_all
  simp only [processAwaitingTip, h, h', hsame]

end SmirkBackend

import SmirkBackend.Tips.World

/-!
# Rotation of the worker polls

Each poll takes the first fifty eligible rows by their creation, claim or settlement time, and
leaves out those that were looked at in the last thirty seconds.  The stamp is meant to make room
for the rows behind the first fifty, but the cycles are further apart than the stamp lasts: when a
cycle starts, every stamp has expired.  As long as the rows stay eligible, each cycle polls the same
fifty.

`polled_eq_of_quiet` proves the last, and `never_starves_iff` that no row starves exactly when they
fit in one batch.
-/

namespace SmirkBackend

open Lib (Table Patch)

/-! ### Polls -/

namespace TipPass

/-- The confirmations of a tip of the asset are still counted. -/
def counting (asset : String) (r : SocialTipRow) : Bool :=
  (r.status = .pending || r.status = .pendingConfirmation) &&
    r.asset = asset &&
    0 < r.confirmationsRequired &&
    r.fundingConfirmations < r.confirmationsRequired &&
    r.fundingTxid.isSome

/-- The rows a pass is for, whatever the rate limit says. -/
def eligible (pass : TipPass) (r : SocialTipRow) : Bool :=
  match pass with
  | countXmr => counting "xmr" r
  | countWow => counting "wow" r
  | countGrin => counting "grin" r
  | verify =>
    r.status = .pendingConfirmation &&
      !r.fundingAmountVerified &&
      r.confirmationsRequired ≤ r.fundingConfirmations
  | confirm => r.status = .claiming && r.sweepConfirmedAt.isNone && r.fundingAmountVerified
  | reorg => r.status = .claimed && r.sweepConfirmedAt.isSome && r.sweepBlockHeight.isSome

/-- The order of a poll. -/
def before (pass : TipPass) (a b : SocialTipRow) : Bool :=
  match pass with
  | countXmr | countWow | countGrin | verify => SocialTips.oldestFirst a b
  | confirm => SocialTips.nullsLast a.claimedAt b.claimedAt
  | reorg => SocialTips.nullsLast a.sweepConfirmedAt b.sweepConfirmedAt

/-- The rows a pass is for, in its order. -/
def candidates (pass : TipPass) (t : SocialTips) : List SocialTipRow :=
  t.select pass.eligible pass.before

variable {pass : TipPass} {now : Timestamp} {t : SocialTips}

theorem poll_eq : pass.poll now t =
    (t.select (fun r => pass.eligible r && SocialTips.notJustChecked now r) pass.before).take 50 := by
  cases pass <;> rfl

theorem poll_of_rested
    (h : ∀ r ∈ t.rows, pass.eligible r = true → SocialTips.notJustChecked now r = true) :
    pass.poll now t = (pass.candidates t).take 50 := by
  have hfilter : (t.rows.filter fun r => pass.eligible r && SocialTips.notJustChecked now r) =
      t.rows.filter pass.eligible := by
    refine List.filter_congr fun r hr => ?_
    cases heligible : pass.eligible r with
    | true => rw [h r hr heligible, Bool.and_self]
    | false => rw [Bool.false_and]
  rw [poll_eq, candidates, Table.select, Table.select, hfilter]

end TipPass

/-! ### Stamps -/

/-- One cycle of a worker. -/
structure PollCycle where
  /-- When it polls. -/
  now : Timestamp
  /-- When it is done. -/
  finish : Timestamp
  /-- The polled rows. -/
  polled : List SocialTipRow
  /-- When the probe of a row has stamped it, if it did. -/
  stamp : SocialTipRow → Option Timestamp

namespace PollCycle

variable (c : PollCycle)

/-- The table after the probes of a cycle. -/
def probe (t : SocialTips) : SocialTips :=
  c.polled.foldl
    (fun db tip => (c.stamp tip).elim db fun checkedAt => (db.touchTipLastCheck checkedAt tip.id).2) t

/-- The cycle does not end before it begins, and stamps are from then. -/
structure WellTimed : Prop where
  /-- The cycle takes time. -/
  le : c.now ≤ c.finish
  /-- Stamps. -/
  stamps : ∀ tip checkedAt, c.stamp tip = some checkedAt → c.now ≤ checkedAt ∧ checkedAt ≤ c.finish

/-- A row that was left alone, or stamped during the cycle. -/
def Stamped (r r' : SocialTipRow) : Prop :=
  r' = r ∨ ∃ checkedAt updated, checkedAt ≤ c.finish ∧
    r' = { r with lastConfirmationCheck := some checkedAt, updatedAt := updated }

end PollCycle

namespace PollCycle

variable {c : PollCycle} {r r₁ r' : SocialTipRow}

theorem Stamped.refl : c.Stamped r r := .inl rfl

theorem Stamped.trans (h : c.Stamped r r₁) (h' : c.Stamped r₁ r') : c.Stamped r r' := by
  rcases h with rfl | ⟨at₁, updated₁, h₁, rfl⟩
  · exact h'
  · rcases h' with rfl | ⟨at₂, updated₂, h₂, rfl⟩
    · exact .inr ⟨at₁, updated₁, h₁, rfl⟩
    · exact .inr ⟨at₂, updated₂, h₂, rfl⟩

theorem Stamped.id_eq (h : c.Stamped r r') : r'.id = r.id := by
  rcases h with rfl | ⟨at₁, updated, -, rfl⟩ <;> rfl

theorem Stamped.eligible_eq (h : c.Stamped r r') (pass : TipPass) :
    pass.eligible r' = pass.eligible r := by
  rcases h with rfl | ⟨at₁, updated, -, rfl⟩
  · rfl
  · cases pass <;> rfl

theorem Stamped.before_eq {a a' b b' : SocialTipRow} (ha : c.Stamped a a') (hb : c.Stamped b b')
    (pass : TipPass) : pass.before a' b' = pass.before a b := by
  rcases ha with rfl | ⟨at₁, updated₁, -, rfl⟩ <;> rcases hb with rfl | ⟨at₂, updated₂, -, rfl⟩ <;>
    cases pass <;> rfl

theorem touch_rows (t : SocialTips) (checkedAt : Timestamp) (id : Uuid) :
    (t.touchTipLastCheck checkedAt id).2.rows = t.rows.map fun r =>
      if r.id = id then { r with lastConfirmationCheck := some checkedAt, updatedAt := checkedAt }
      else r := by
  simp [SocialTips.touchTipLastCheck, SocialTips.guardedUpdate, Table.updateOne, Table.updateWhere,
    SocialTips.touchUpdatedAt]

theorem probe_rows (hc : c.WellTimed) (t : SocialTips) :
    ∃ f, (∀ r, c.Stamped r (f r)) ∧ (c.probe t).rows = t.rows.map f := by
  unfold probe
  induction c.polled generalizing t with
  | nil => exact ⟨_, fun _ => .refl, (List.map_id _).symm⟩
  | cons tip rest ih =>
    rw [List.foldl_cons]
    cases hstamp : c.stamp tip with
    | none => exact ih t
    | some checkedAt =>
      obtain ⟨f, hf, hrows⟩ := ih (t.touchTipLastCheck checkedAt tip.id).2
      rw [touch_rows, List.map_map] at hrows
      refine ⟨_, fun r => ?_, hrows⟩
      refine Stamped.trans ?_ (hf _)
      change c.Stamped r (if r.id = tip.id then _ else r)
      split_ifs
      · exact .inr ⟨checkedAt, checkedAt, (hc.stamps tip checkedAt hstamp).2, rfl⟩
      · exact .refl

end PollCycle

/-! ### Runs -/

/-- The table between two cycles. -/
structure PollState where
  /-- The table. -/
  table : SocialTips
  /-- The next cycle begins later than this. -/
  ready : Timestamp

/-- The rows with these ids are what the pass is for, and none was looked at in the thirty seconds
before the next cycle. -/
structure Awaiting (pass : TipPass) (ids : List Uuid) (s : PollState) : Prop where
  /-- No id is listed twice. -/
  nodup : ids.Nodup
  /-- They are eligible, and no other row is. -/
  eligible : ∀ k, k ∈ ids ↔ ∃ r, s.table.get? k = some r ∧ pass.eligible r = true
  /-- Their stamps have expired. -/
  rested : ∀ r ∈ s.table.rows, pass.eligible r = true →
    ∀ checkedAt ∈ r.lastConfirmationCheck, checkedAt + seconds 30 ≤ s.ready

/-- A cycle that leaves these rows eligible: its probes do no more than stamp them.  The other rows
may change, but do not become eligible. -/
structure CycleStep (pass : TipPass) (ids : List Uuid) (s : PollState) (c : PollCycle)
    (s' : PollState) : Prop where
  /-- More than thirty seconds lie between the cycles. -/
  spaced : s.ready < c.now
  /-- The clock does not run back. -/
  timed : c.WellTimed
  /-- The poll. -/
  polled : c.polled = pass.poll c.now s.table
  /-- What becomes of the rows. -/
  kept : ∀ k ∈ ids, s'.table.get? k = (c.probe s.table).get? k
  /-- No other row becomes eligible. -/
  others : ∀ k r, s'.table.get? k = some r → pass.eligible r = true → k ∈ ids
  /-- When the next cycle may begin. -/
  ready : s'.ready = c.finish + seconds 30

/-- The cycles of a pass while these rows stay eligible. -/
def pollSystem (pass : TipPass) (ids : List Uuid) : Lib.System PollState PollCycle where
  step := CycleStep pass ids

/-- In every run, each row is polled within any ⌈n / 50⌉ consecutive cycles. -/
def NeverStarves (pass : TipPass) (ids : List Uuid) (s : PollState) : Prop :=
  ∀ earlier window later s', (pollSystem pass ids).Run s (earlier ++ window ++ later) s' →
    window.length = (ids.length + 49) / 50 → ∀ k ∈ ids, ∃ c ∈ window, k ∈ c.polled.map (·.id)

section Runs

variable {pass : TipPass} {ids : List Uuid} {s s' : PollState} {c : PollCycle}

theorem Awaiting.notJustChecked (h : Awaiting pass ids s) {now : Timestamp} (hnow : s.ready < now)
    {r : SocialTipRow} (hr : r ∈ s.table.rows) (heligible : pass.eligible r = true) :
    SocialTips.notJustChecked now r = true := by
  unfold SocialTips.notJustChecked
  cases hcheck : r.lastConfirmationCheck with
  | none => rfl
  | some checkedAt =>
    have hold := h.rested r hr heligible checkedAt hcheck
    have hlt : checkedAt < now - seconds 30 := Int.lt_sub_right_of_add_lt (hold.trans_lt hnow)
    simpa using hlt

theorem CycleStep.polled_eq (h : CycleStep pass ids s c s') (hs : Awaiting pass ids s) :
    c.polled = (pass.candidates s.table).take 50 := by
  rw [h.polled]
  exact TipPass.poll_of_rested fun r hr => hs.notJustChecked h.spaced hr

theorem PollCycle.get?_probe (hc : c.WellTimed) (t : SocialTips) (k : Uuid) :
    ∃ f, (∀ r, c.Stamped r (f r)) ∧ (c.probe t).get? k = (t.get? k).map f := by
  obtain ⟨f, hf, hrows⟩ := PollCycle.probe_rows hc t
  refine ⟨f, hf, ?_⟩
  have hid (r : SocialTipRow) : (f r).id = r.id := (hf r).id_eq
  simp only [Table.get?, hrows, List.find?_map, Function.comp_def, SocialTipRow.key_eq, hid]

/-- The rows go on waiting. -/
theorem CycleStep.awaiting (h : CycleStep pass ids s c s') (hs : Awaiting pass ids s) :
    Awaiting pass ids s' := by
  have hrow : ∀ k ∈ ids, ∃ r r', s.table.get? k = some r ∧ pass.eligible r = true ∧
      c.Stamped r r' ∧ s'.table.get? k = some r' := by
    intro k hk
    obtain ⟨r, hr, heligible⟩ := (hs.eligible k).mp hk
    obtain ⟨f, hf, hget⟩ := PollCycle.get?_probe h.timed s.table k
    exact ⟨r, f r, hr, heligible, hf r, by rw [h.kept k hk, hget, hr, Option.map_some]⟩
  refine ⟨hs.nodup, ?_, ?_⟩
  · intro k
    constructor
    · intro hk
      obtain ⟨r, r', -, heligible, hstamped, hr'⟩ := hrow k hk
      exact ⟨r', hr', (hstamped.eligible_eq pass).trans heligible⟩
    · rintro ⟨r', hr', heligible⟩
      exact h.others k r' hr' heligible
  · intro r' hr' heligible checkedAt hcheck
    have hget : s'.table.get? r'.id = some r' := Table.get?_of_mem hr'
    obtain ⟨r, r₁, hr, heligible₀, hstamped, hr₁⟩ := hrow _ (h.others _ _ hget heligible)
    obtain rfl := Option.some.inj (hget.symm.trans hr₁)
    have hlater : s.ready ≤ c.finish := h.spaced.le.trans h.timed.le
    rw [h.ready]
    rcases hstamped with rfl | ⟨at₁, updated, hat, rfl⟩
    · have hold := hs.rested _ (Table.mem_of_get? hr) heligible₀ checkedAt hcheck
      exact (hold.trans hlater).trans (Int.le_add_of_nonneg_right (by decide))
    · obtain rfl := Option.some.inj hcheck
      exact Int.add_le_add_right hat _

theorem awaiting_run {cs : List PollCycle} (h : (pollSystem pass ids).Run s cs s')
    (hs : Awaiting pass ids s) : Awaiting pass ids s' :=
  h.invariant (I := Awaiting pass ids) (fun _ _ _ hstep => CycleStep.awaiting hstep) hs

theorem Awaiting.mem_candidates (hs : Awaiting pass ids s) (k : Uuid) :
    k ∈ (pass.candidates s.table).map (·.id) ↔ k ∈ ids := by
  rw [hs.eligible k, List.mem_map]
  constructor
  · rintro ⟨r, hr, rfl⟩
    obtain ⟨hrow, heligible⟩ := Table.mem_select.mp hr
    exact ⟨r, Table.get?_of_mem hrow, heligible⟩
  · rintro ⟨r, hr, heligible⟩
    exact ⟨r, Table.mem_select.mpr ⟨Table.mem_of_get? hr, heligible⟩, Table.key_of_get? hr⟩

theorem Awaiting.perm_candidates (hs : Awaiting pass ids s) :
    ((pass.candidates s.table).map (·.id)).Perm ids :=
  (List.perm_ext_iff_of_nodup (Table.nodup_select _ _ _) hs.nodup).mpr hs.mem_candidates

theorem Awaiting.length_candidates (hs : Awaiting pass ids s) :
    (pass.candidates s.table).length = ids.length := by
  have hlength := hs.perm_candidates.length_eq
  rwa [List.length_map] at hlength

/-! ### One batch -/

theorem CycleStep.polls_all (h : CycleStep pass ids s c s') (hs : Awaiting pass ids s)
    (hfits : ids.length ≤ 50) {k : Uuid} (hk : k ∈ ids) : k ∈ c.polled.map (·.id) := by
  have hlength := hs.length_candidates
  rw [h.polled_eq hs, List.take_of_length_le (by omega)]
  exact (hs.mem_candidates k).mpr hk

theorem neverStarves_of_le (hs : Awaiting pass ids s) (hfits : ids.length ≤ 50) :
    NeverStarves pass ids s := by
  intro earlier window later s' hrun hlength k hk
  have hpos := List.length_pos_of_mem hk
  cases window with
  | nil =>
    rw [List.length_nil] at hlength
    omega
  | cons c window =>
    rw [List.append_assoc] at hrun
    obtain ⟨s₁, hearlier, hrest⟩ := hrun.split
    obtain ⟨s₂, hstep, -⟩ := Lib.System.Run.cons_iff.mp hrest
    exact ⟨c, List.mem_cons_self, hstep.polls_all (awaiting_run hearlier hs) hfits hk⟩

/-! ### More than one batch -/

/-- Nothing happens to the table but the probes. -/
def ProbesOnly (s : PollState) (c : PollCycle) (s' : PollState) : Prop := s'.table = c.probe s.table

theorem candidates_probe (hc : c.WellTimed) (t : SocialTips) :
    (pass.candidates (c.probe t)).map (·.id) = (pass.candidates t).map (·.id) := by
  obtain ⟨f, hf, hrows⟩ := PollCycle.probe_rows hc t
  have hfilter : (t.rows.map f).filter pass.eligible = (t.rows.filter pass.eligible).map f := by
    rw [List.filter_map]
    refine congrArg (List.map f) (List.filter_congr fun r _ => ?_)
    exact (hf r).eligible_eq pass
  have hsort : pass.candidates (c.probe t) = (pass.candidates t).map f := by
    unfold TipPass.candidates Table.select
    rw [hrows, hfilter]
    symm
    refine List.map_insertionSort _ _ f _ fun a _ b _ => ?_
    rw [(hf a).before_eq (hf b) pass]
  rw [hsort, List.map_map]
  exact List.map_congr_left fun r _ => (hf r).id_eq

/-- **Starvation**: in a run in which nothing else happens, each cycle polls the same rows, whatever
the outcomes of the probes. -/
theorem polled_eq_of_quiet {cs : List PollCycle} (hs : Awaiting pass ids s)
    (h : ((pollSystem pass ids).only ProbesOnly).Run s cs s') :
    ∀ c ∈ cs, c.polled.map (·.id) = ((pass.candidates s.table).map (·.id)).take 50 := by
  induction h with
  | nil s => exact nofun
  | @cons s s₁ s' c cs hstep hrun ih =>
    obtain ⟨hstep, hquiet⟩ := hstep
    refine List.forall_mem_cons.mpr ⟨?_, fun c' hc' => ?_⟩
    · rw [hstep.polled_eq hs, List.map_take]
    · rw [ih (hstep.awaiting hs) c' hc', hquiet, candidates_probe hstep.timed]

theorem exists_quiet_run (hs : Awaiting pass ids s) (n : ℕ) :
    ∃ cs s', cs.length = n ∧ ((pollSystem pass ids).only ProbesOnly).Run s cs s' := by
  induction n generalizing s with
  | zero => exact ⟨[], s, rfl, .nil s⟩
  | succ n ih =>
    -- the worker stamps every row at once
    let now := s.ready + 1
    let c : PollCycle := ⟨now, now, pass.poll now s.table, fun _ => some now⟩
    have hc : c.WellTimed := ⟨le_rfl, fun _ _ h => Option.some.inj h ▸ ⟨le_rfl, le_rfl⟩⟩
    have hstep : CycleStep pass ids s c ⟨c.probe s.table, now + seconds 30⟩ := by
      refine ⟨Int.lt_succ s.ready, hc, rfl, fun _ _ => rfl, fun k r hr heligible => ?_, rfl⟩
      obtain ⟨f, hf, hget⟩ := PollCycle.get?_probe hc s.table k
      rw [hget] at hr
      obtain ⟨r₀, hr₀, rfl⟩ := Option.map_eq_some_iff.mp hr
      exact (hs.eligible k).mpr ⟨r₀, hr₀, ((hf r₀).eligible_eq pass).symm.trans heligible⟩
    obtain ⟨cs, s', hlength, hrun⟩ := ih (hstep.awaiting hs)
    exact ⟨c :: cs, s', congrArg (· + 1) hlength, .cons ⟨hstep, rfl⟩ hrun⟩

theorem starves_of_lt (hs : Awaiting pass ids s) (hmany : 50 < ids.length) :
    ¬ NeverStarves pass ids s := by
  intro hclaim
  obtain ⟨cs, s', hlength, hrun⟩ := exists_quiet_run hs ((ids.length + 49) / 50)
  have hpolled := polled_eq_of_quiet hs hrun
  have hsubset : ids ⊆ ((pass.candidates s.table).map (·.id)).take 50 := by
    intro k hk
    obtain ⟨c, hc, hk'⟩ := hclaim [] cs [] s' (by simpa using hrun.of_only) hlength k hk
    rwa [hpolled c hc] at hk'
  have hle := (List.subperm_of_subset hs.nodup hsubset).length_le
  rw [List.length_take] at hle
  omega

end Runs

/-- **Rotation of the polls**: whatever the cycles and the probes, no row starves exactly when the
waiting rows fit in one batch. -/
theorem never_starves_iff {pass : TipPass} {ids : List Uuid} {s : PollState}
    (hs : Awaiting pass ids s) : NeverStarves pass ids s ↔ ids.length ≤ 50 := by
  constructor
  · intro h
    by_contra hmany
    exact starves_of_lt hs (by omega) h
  · exact neverStarves_of_le hs

/-! ### Vouchers that do not confirm -/

/-- A voucher that waits for its confirmations; the `i`-th is created at the time `i`. -/
def waitingTip (i : ℕ) : SocialTipRow :=
  .ofNew (BitVec.ofNat 128 i) i .grinSample .pendingConfirmation

theorem waitingTip_eligible (i : ℕ) : TipPass.countGrin.eligible (waitingTip i) = true := rfl

theorem nodup_waitingTips {n : ℕ} (hn : n ≤ 2 ^ 128) :
    (((List.range n).map waitingTip).map (·.id)).Nodup := by
  rw [List.map_map]
  refine List.Nodup.map_on ?_ List.nodup_range
  intro i hi j hj hij
  have hval := congrArg BitVec.toNat hij
  have hi := List.mem_range.mp hi
  have hj := List.mem_range.mp hj
  simp only [Function.comp_apply, waitingTip, SocialTipRow.ofNew, BitVec.toNat_ofNat] at hval
  rwa [Nat.mod_eq_of_lt (by omega), Nat.mod_eq_of_lt (by omega)] at hval

/-- So many of them, all created before the next cycle. -/
def waiting (n : ℕ) (hn : n ≤ 2 ^ 128) : PollState :=
  ⟨⟨(List.range n).map waitingTip, nodup_waitingTips hn⟩, n⟩

theorem waiting_awaiting {n : ℕ} (hn : n ≤ 2 ^ 128) :
    Awaiting .countGrin (((List.range n).map waitingTip).map (·.id)) (waiting n hn) where
  nodup := nodup_waitingTips hn
  eligible k := by
    rw [List.mem_map]
    constructor
    · rintro ⟨r, hr, rfl⟩
      obtain ⟨i, -, rfl⟩ := List.mem_map.mp hr
      exact ⟨_, Table.get?_of_mem hr, waitingTip_eligible i⟩
    · rintro ⟨r, hr, -⟩
      exact ⟨r, Table.mem_of_get? hr, Table.key_of_get? hr⟩
  rested r hr _ := by
    obtain ⟨i, -, rfl⟩ := List.mem_map.mp hr
    exact nofun

theorem fifty_never_starve :
    NeverStarves .countGrin (((List.range 50).map waitingTip).map (·.id))
      (waiting 50 (by decide)) := by
  refine (never_starves_iff (waiting_awaiting (by decide))).mpr ?_
  rw [List.length_map, List.length_map, List.length_range]

theorem fifty_one_starve :
    ¬ ∀ (pass : TipPass) (ids : List Uuid) (s : PollState), Awaiting pass ids s →
      NeverStarves pass ids s := by
  intro hclaim
  have hs := waiting_awaiting (n := 51) (by decide)
  refine starves_of_lt hs ?_ (hclaim _ _ _ hs)
  rw [List.length_map, List.length_map, List.length_range]
  decide

end SmirkBackend

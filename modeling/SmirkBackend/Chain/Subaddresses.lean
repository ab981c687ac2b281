import SmirkBackend.Chain.LwsImport
import SmirkBackend.Lib.Coverage

/-!
# The confirmed ceiling of subaddresses

The light-wallet server lists the subaddress ranges of an account in any order, and they may
overlap, touch or be inverted.  The client reports the last index of the run that starts at 0: a
wallet that hands out an index beyond it receives funds that nobody scans for.

`confirmed_ceiling_exact` proves that the ceiling is the greatest index with a provisioned prefix,
and that a provisioning that succeeds covers what was asked for.
-/

namespace SmirkBackend

open Lib (Covers RunEnd sweep Remote)
open Lib.Remote (Trace)

namespace ProvisionSubaddrsResponse

/-- The index lies in a range of account 0 that is not inverted. -/
def Provisions (resp : ProvisionSubaddrsResponse) (n : UInt32) : Prop :=
  ∃ e ∈ resp.allSubaddrs, e.key = 0 ∧ ∃ r ∈ e.value, r.1 ≤ r.2 ∧ r.1 ≤ n ∧ n ≤ r.2

/-! ### Sorted ranges -/

instance : Std.Total rangeLe where
  total a b := by
    unfold rangeLe
    grind

instance : IsTrans (UInt32 × UInt32) rangeLe where
  trans a b c hab hbc := by
    unfold rangeLe at *
    grind

/-- A range of words as a range of numbers. -/
def span (r : UInt32 × UInt32) : ℕ × ℕ := (r.1.toNat, r.2.toNat)

theorem toNat_max (a b : UInt32) : (max a b).toNat = max a.toNat b.toNat := by
  change (if a ≤ b then b else a).toNat = _
  split_ifs with h
  · have hle := UInt32.le_iff_toNat_le.mp h
    omega
  · have hlt := mt UInt32.le_iff_toNat_le.mpr h
    omega

/-- The extension of a run is the sweep: at the top of the range the successor saturates, but no
range starts beyond it. -/
theorem toNat_extendCeiling (ceiling : UInt32) (ranges : List (UInt32 × UInt32)) :
    (extendCeiling ceiling ranges).toNat = sweep ceiling.toNat (ranges.map span) := by
  induction ranges generalizing ceiling with
  | nil => rfl
  | cons r rest ih =>
    have hgap : Lib.saturatingAdd32 ceiling 1 < r.1 ↔ ceiling.toNat + 1 < (span r).1 := by
      have hstart := r.1.toNat_lt
      rw [UInt32.lt_iff_toNat_lt, Lib.toNat_saturatingAdd32, UInt32.toNat_one, span]
      omega
    rw [extendCeiling, List.map_cons, sweep]
    by_cases h : ceiling.toNat + 1 < (span r).1
    · rw [if_pos (hgap.mpr h), if_pos h]
    · rw [if_neg (mt hgap.mp h), if_neg h, ih, toNat_max]
      rfl

/-- The ceiling of the ranges of one account. -/
def ceilingOf (value : List (UInt32 × UInt32)) : Option UInt32 :=
  match (value.filter fun r => r.1 ≤ r.2).insertionSort rangeLe with
  | [] => none
  | first :: rest => if first.1 ≠ 0 then none else some (extendCeiling first.2 rest)

theorem confirmedMinorMax_eq (resp : ProvisionSubaddrsResponse) :
    resp.confirmedMinorMax =
      (resp.allSubaddrs.find? fun e => e.key = 0).bind fun e => ceilingOf e.value := rfl

/-- The ranges of an account, as ranges of numbers. -/
def spans (value : List (UInt32 × UInt32)) : List (ℕ × ℕ) :=
  (value.filter fun r => r.1 ≤ r.2).map span

theorem covers_spans {value : List (UInt32 × UInt32)} {n : UInt32} :
    Covers (spans value) n.toNat ↔ ∃ r ∈ value, r.1 ≤ r.2 ∧ r.1 ≤ n ∧ n ≤ r.2 := by
  simp only [Covers, spans, span, List.mem_map, List.mem_filter, decide_eq_true_eq,
    UInt32.le_iff_toNat_le]
  constructor
  · rintro ⟨-, ⟨r, ⟨hr, hle⟩, rfl⟩, hstart, hend⟩
    exact ⟨r, hr, hle, hstart, hend⟩
  · rintro ⟨r, hr, hle, hstart, hend⟩
    exact ⟨_, ⟨r, ⟨hr, hle⟩, rfl⟩, hstart, hend⟩

theorem lt_of_covers_spans {value : List (UInt32 × UInt32)} {n : ℕ} (h : Covers (spans value) n) :
    n < 2 ^ 32 := by
  simp only [Covers, spans, List.mem_map] at h
  obtain ⟨-, ⟨r, -, rfl⟩, -, hend⟩ := h
  exact lt_of_le_of_lt hend r.2.toNat_lt

theorem prefix_iff {value : List (UInt32 × UInt32)} {m : UInt32} :
    (∀ n ≤ m, Covers (spans value) n.toNat) ↔ ∀ n ≤ m.toNat, Covers (spans value) n := by
  refine ⟨fun h n hn => ?_, fun h n hn => h _ (UInt32.le_iff_toNat_le.mp hn)⟩
  have hword : (UInt32.ofNat n).toNat = n :=
    UInt32.toNat_ofNat_of_lt' (lt_of_le_of_lt hn m.toNat_lt)
  rw [← hword]
  exact h _ (UInt32.le_iff_toNat_le.mpr (by rw [hword]; exact hn))

theorem runEnd_iff {value : List (UInt32 × UInt32)} {m : UInt32} :
    RunEnd (spans value) m.toNat ↔ (∀ n ≤ m, Covers (spans value) n.toNat) ∧
      ∀ m' : UInt32, (∀ n ≤ m', Covers (spans value) n.toNat) → m' ≤ m := by
  simp only [RunEnd.iff_greatest, prefix_iff]
  refine and_congr_right fun _ => ⟨fun h m' hm' => UInt32.le_iff_toNat_le.mpr (h _ hm'),
    fun h m' hm' => ?_⟩
  have hword : (UInt32.ofNat m').toNat = m' :=
    UInt32.toNat_ofNat_of_lt' (lt_of_covers_spans (hm' m' le_rfl))
  rw [← hword]
  exact UInt32.le_iff_toNat_le.mp (h _ (hword.symm ▸ hm'))

/-- The ceiling is the end of the run, and there is none exactly when 0 is not covered. -/
theorem ceilingOf_spec (value : List (UInt32 × UInt32)) :
    match ceilingOf value with
    | none => ¬ Covers (spans value) 0
    | some m => RunEnd (spans value) m.toNat := by
  have hsorted := List.pairwise_insertionSort rangeLe (value.filter fun r => r.1 ≤ r.2)
  have hmem (n : ℕ) : Covers (spans value) n ↔
      Covers (((value.filter fun r => r.1 ≤ r.2).insertionSort rangeLe).map span) n :=
    Covers.congr (fun r => by simp [spans]) n
  unfold ceilingOf
  cases hsort : (value.filter fun r => r.1 ≤ r.2).insertionSort rangeLe with
  | nil => exact fun h => by simpa [hsort] using (hmem 0).mp h
  | cons first rest =>
    rw [hsort] at hsorted hmem
    have hstart : ((first :: rest).map span).Pairwise fun a b => a.1 ≤ b.1 := by
      rw [List.pairwise_map]
      refine hsorted.imp fun {a b} hab => UInt32.le_iff_toNat_le.mp ?_
      rcases hab with hlt | ⟨heq, -⟩
      · exact UInt32.le_of_lt hlt
      · exact UInt32.le_of_eq heq
    rw [List.map_cons] at hstart hmem
    simp only
    split_ifs with hzero
    · -- no range starts before the first
      intro h
      obtain ⟨r, hr, hle, -⟩ := (hmem 0).mp h
      have hfirst : (span first).1 ≤ r.1 := by
        rcases List.mem_cons.mp hr with rfl | hr
        · exact le_rfl
        · exact (List.pairwise_cons.mp hstart).1 r hr
      exact hzero (UInt32.toNat_inj.mp (by simp only [span] at hfirst; simp; omega))
    · have hfirst : (span first).1 = 0 := by simp [span, not_not.mp hzero]
      simp only [RunEnd, hmem]
      rw [toNat_extendCeiling]
      exact Lib.runEnd_sweep hfirst hstart

/-! ### The response -/

/-- Where account 0 is listed once at most, its entry is the one that is found. -/
theorem provisions_iff {resp : ProvisionSubaddrsResponse}
    (hone : (resp.allSubaddrs.filter fun e => e.key = 0).length ≤ 1) (n : UInt32) :
    resp.Provisions n ↔ ∃ e, (resp.allSubaddrs.find? fun e => e.key = 0) = some e ∧
      Covers (spans e.value) n.toNat := by
  constructor
  · rintro ⟨e, he, hkey, hr⟩
    obtain ⟨found, hfound⟩ : ∃ found, (resp.allSubaddrs.find? fun e => e.key = 0) = some found :=
      Option.isSome_iff_exists.mp (List.find?_isSome.mpr ⟨e, he, by simpa using hkey⟩)
    -- both entries are in a list of one element
    have hsame : found = e := by
      have hin : found ∈ resp.allSubaddrs.filter fun e => e.key = 0 :=
        List.mem_filter.mpr ⟨List.mem_of_find?_eq_some hfound, by simpa using List.find?_some hfound⟩
      have hin' : e ∈ resp.allSubaddrs.filter fun e => e.key = 0 :=
        List.mem_filter.mpr ⟨he, by simpa using hkey⟩
      obtain ⟨x, hx⟩ := List.length_eq_one_iff.mp
        (le_antisymm hone (List.length_pos_of_mem hin))
      rw [hx, List.mem_singleton] at hin hin'
      exact hin.trans hin'.symm
    exact ⟨found, hfound, hsame ▸ covers_spans.mpr hr⟩
  · rintro ⟨e, hfound, hcovers⟩
    exact ⟨e, List.mem_of_find?_eq_some hfound, by simpa using List.find?_some hfound,
      covers_spans.mp hcovers⟩

theorem provisions_of_le {resp : ProvisionSubaddrsResponse} {m n : UInt32}
    (h : resp.confirmedMinorMax = some m) (hn : n ≤ m) : resp.Provisions n := by
  rw [confirmedMinorMax_eq] at h
  obtain ⟨e, hfound, hceiling⟩ := Option.bind_eq_some_iff.mp h
  have hspec := ceilingOf_spec e.value
  simp only [hceiling] at hspec
  exact ⟨e, List.mem_of_find?_eq_some hfound, by simpa using List.find?_some hfound,
    covers_spans.mp (hspec.1 _ (UInt32.le_iff_toNat_le.mp hn))⟩

end ProvisionSubaddrsResponse

open ProvisionSubaddrsResponse

/-- **The ceiling of the subaddresses is exact.**  Where account 0 is listed once at most, the
ceiling is the greatest index up to which all indices are provisioned, and there is none exactly
when index 0 is not.  A provisioning that succeeds has read a reply in which all indices it asked
for are. -/
theorem confirmed_ceiling_exact {resp : ProvisionSubaddrsResponse}
    (hone : (resp.allSubaddrs.filter fun e => e.key = 0).length ≤ 1) :
    (∀ m, resp.confirmedMinorMax = some m ↔ (∀ n ≤ m, resp.Provisions n) ∧
      ∀ m', (∀ n ≤ m', resp.Provisions n) → m' ≤ m) ∧
    (resp.confirmedMinorMax = none ↔ ¬ resp.Provisions 0) ∧
    ∀ (c : LwsClient) (cached : Option UInt32) (address viewKey : String) (nMin m : UInt32)
      (t : List LwsExchange),
      Trace (c.provisionAccount0Covering cached address viewKey nMin) t (.ok (some m)) →
        ∃ resp' : ProvisionSubaddrsResponse,
          (⟨.provisionSubaddrs address viewKey 0 0 1 nMin true, .ok resp'⟩ : LwsExchange) ∈ t ∧
            ∀ n < nMin, resp'.Provisions n := by
  refine ⟨fun m => ?_, ?_, fun c cached address viewKey nMin m t h => ?_⟩
  · simp only [provisions_iff hone, confirmedMinorMax_eq]
    cases hfound : resp.allSubaddrs.find? fun e => e.key = 0 with
    | none =>
      refine ⟨nofun, fun h => ?_⟩
      obtain ⟨e, he, -⟩ := h.1 m (UInt32.le_refl m)
      cases he
    | some e =>
      have hspec := ceilingOf_spec e.value
      simp only [Option.bind_some, Option.some.injEq, exists_eq_left']
      rw [← runEnd_iff]
      cases hceiling : ceilingOf e.value with
      | none =>
        simp only [hceiling] at hspec
        refine ⟨nofun, fun hend => (hspec (hend.1 0 (Nat.zero_le _))).elim⟩
      | some m' =>
        simp only [hceiling] at hspec
        rw [Option.some.injEq]
        exact ⟨fun heq => heq ▸ hspec, fun hend => UInt32.toNat_inj.mp (hspec.unique hend)⟩
  · simp only [provisions_iff hone, confirmedMinorMax_eq]
    cases hfound : resp.allSubaddrs.find? fun e => e.key = 0 with
    | none => simp
    | some e =>
      have hspec := ceilingOf_spec e.value
      simp only [Option.bind_some, Option.some.injEq, exists_eq_left']
      cases hceiling : ceilingOf e.value with
      | none =>
        simp only [hceiling] at hspec
        simpa using hspec
      | some m' =>
        simp only [hceiling] at hspec
        simpa using hspec.1 0 (Nat.zero_le _)
  · rcases (LwsClient.trace_provisionAccount0Covering h).2 _ rfl with
      rfl | ⟨resp', ceiling, hread, hceiling, hwide⟩
    · -- nothing is asked for when nothing is to be provisioned
      obtain ⟨-, hret⟩ := Remote.trace_ret.mp h
      cases hret
    · refine ⟨resp', hread, fun n hn => provisions_of_le hceiling (UInt32.le_iff_toNat_le.mpr ?_)⟩
      have hlt := UInt32.lt_iff_toNat_lt.mp hn
      omega

/-- Ranges out of order that overlap, touch and leave a gap, and an inverted one. -/
def sampleRanges : ProvisionSubaddrsResponse :=
  ⟨[⟨3, [(0, 999)]⟩, ⟨0, [(100, 149), (9, 1), (0, 99), (50, 120), (200, 299)]⟩]⟩

theorem sampleRanges_ceiling :
    sampleRanges.confirmedMinorMax = some 149 ∧ (∀ n ≤ 149, sampleRanges.Provisions n) := by
  have hceiling : sampleRanges.confirmedMinorMax = some 149 := by decide +kernel
  have hone : (sampleRanges.allSubaddrs.filter fun e => e.key = 0).length ≤ 1 := by decide
  obtain ⟨hexact, -⟩ := confirmed_ceiling_exact hone
  exact ⟨hceiling, ((hexact 149).mp hceiling).1⟩

end SmirkBackend

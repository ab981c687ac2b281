import Mathlib.Data.Finset.Max
import SmirkBackend.Auth.RestoreCheck
import SmirkBackend.Lib.Rely

/-!
# The restore governors under concurrency

A restore check counts the attempts of the last hour, looks the wallet up, and records its own
attempt: three statements, with others in between, and the failure of the last is ignored.  So
requests that overlap all count the same attempts, and an attempt that is not recorded is never
counted.

What a limit is worth is decided when attempts are recorded: it is kept by the requests that are
below it then (`length_le_of_recorded`), since the last of them finds all the others recorded.  A
request is undisturbed if it is recorded, and is still below its limits then in case others were
recorded since it counted (`UndisturbedCheck`).  Both governors hold in every run whose answered
requests are undisturbed (`restore_governors_hold`).
-/

namespace SmirkBackend

open Lib (Table Prog Rely)

variable {ι : Type} [DecidableEq ι]

/-! ### The limits -/

/-- Call `i` was answered with `resp`; its last action found the state `w`. -/
structure AnsweredAt (es : List (Prog.Event ι RestoreWorld))
    (c : RestoreWorld × (ι → RestoreHandler CheckRestoreResponse)) (i : ι)
    (resp : CheckRestoreResponse) (w : RestoreWorld) : Prop where
  /-- It returned. -/
  returned : c.2 i = .ret resp
  /-- Then it did nothing more. -/
  last : ∃ w', (Prog.eventsOf i es).getLast? = some (w, w')

/-- In every hour, at most so many requests from one address, and at most so many failed attempts
against one fingerprint, get a lookup result. -/
structure GovernorsHold (env : RestoreEnv) (req : ι → CheckRestoreRequest)
    (es : List (Prog.Event ι RestoreWorld))
    (c : RestoreWorld × (ι → RestoreHandler CheckRestoreResponse)) : Prop where
  /-- From one address. -/
  ip : ∀ (ip : IpAddr) (T : Timestamp) (calls : List ι), calls.Nodup →
    (∀ i ∈ calls, (req i).ip env = ip ∧ ∃ resp w, AnsweredAt es c i resp w ∧
      T - hour < w.world.now ∧ w.world.now ≤ T) →
    calls.length ≤ restoreIpThreshold
  /-- Against one fingerprint. -/
  fingerprint : ∀ (fingerprint : String) (T : Timestamp) (calls : List ι), calls.Nodup →
    (∀ i ∈ calls, (req i).fingerprint = fingerprint ∧ ∃ resp w, AnsweredAt es c i resp w ∧
      resp.failed = true ∧ T - hour < w.world.now ∧ w.world.now ≤ T) →
    calls.length ≤ restoreFailThreshold

/-! ### Undisturbed requests -/

/-- The selected attempts of the last hour that were not there in `x`. -/
def newSince (sel : RestoreAttemptRow → Bool) (x w : RestoreWorld) : List RestoreAttemptRow :=
  (w.recent sel).filter fun r => r ∉ x.attempts.rows

/-- An answered request whose actions are `t` was undisturbed: it was recorded, and if others were
recorded since it counted, the limit was not reached with them. -/
structure UndisturbedCheck (env : RestoreEnv) (req : CheckRestoreRequest) (resp : CheckRestoreResponse)
    (t : List (RestoreWorld × RestoreWorld)) : Prop where
  /-- The recording succeeded. -/
  recorded : ∀ w w', t.getLast? = some (w, w') → w' ≠ w
  /-- From the count of its address on. -/
  ip : ∀ x x' w w', t[0]? = some (x, x') → t.getLast? = some (w, w') →
    newSince (fromIp env (req.ip env).text) x w ≠ [] →
    (w.recent (fromIp env (req.ip env).text)).length < restoreIpThreshold
  /-- From the count of its fingerprint on. -/
  fingerprint : resp.failed = true → ∀ y y' w w', t[1]? = some (y, y') →
    t.getLast? = some (w, w') → newSince (failedAgainst env req.fingerprint) y w ≠ [] →
    (w.recent (failedAgainst env req.fingerprint)).length < restoreFailThreshold

theorem undisturbedCheck_of_below {env : RestoreEnv} {req : CheckRestoreRequest}
    {resp : CheckRestoreResponse} {t : List (RestoreWorld × RestoreWorld)} {w w' : RestoreWorld}
    (hlast : t.getLast? = some (w, w')) (hne : w' ≠ w)
    (hip : (w.recent (fromIp env (req.ip env).text)).length < restoreIpThreshold)
    (hfingerprint : (w.recent (failedAgainst env req.fingerprint)).length < restoreFailThreshold) :
    UndisturbedCheck env req resp t := by
  have hsame : ∀ {v v'}, t.getLast? = some (v, v') → v = w ∧ v' = w' := by
    intro v v' hv
    exact Prod.mk.inj (Option.some.inj (hv.symm.trans hlast))
  refine ⟨fun v v' hv => ?_, fun _ _ v v' _ hv _ => ?_, fun _ _ _ v v' _ hv _ => ?_⟩
  · obtain ⟨rfl, rfl⟩ := hsame hv
    exact hne
  · obtain ⟨rfl, -⟩ := hsame hv
    exact hip
  · obtain ⟨rfl, -⟩ := hsame hv
    exact hfingerprint

theorem length_recent_le {sel : RestoreAttemptRow → Bool} {x w : RestoreWorld}
    (hnow : x.world.now ≤ w.world.now) (h : newSince sel x w = []) :
    (w.recent sel).length ≤ (x.recent sel).length := by
  have hnodup : (w.recent sel).Nodup := (List.Nodup.of_map _ w.attempts.nodup).filter _
  refine (List.subperm_of_subset hnodup fun r hr => ?_).length_le
  have hold : r ∈ x.attempts.rows := by
    by_contra hnew
    have hmem : r ∈ newSince sel x w := List.mem_filter.mpr ⟨hr, by simpa using hnew⟩
    simp [h] at hmem
  obtain ⟨-, hsel⟩ := List.mem_filter.mp hr
  simp only [Bool.and_eq_true, decide_eq_true_eq] at hsel
  refine List.mem_filter.mpr ⟨hold, ?_⟩
  simp only [Bool.and_eq_true, decide_eq_true_eq]
  exact ⟨hsel.1, (sub_le_sub_right hnow hour).trans_lt hsel.2⟩

/-! ### Attempts last -/

/-- Time passes, and the attempts of the last seven days are kept. -/
def restoreRely : Rely RestoreWorld where
  rel w w' := w.world.now ≤ w'.world.now ∧
    ∀ r ∈ w.attempts.rows, w'.world.now - days 7 ≤ r.createdAt → r ∈ w'.attempts.rows
  refl _ := ⟨le_rfl, fun _ hr _ => hr⟩
  trans h h' := ⟨h.1.trans h'.1, fun r hr hlate =>
    h'.2 r (h.2 r hr ((sub_le_sub_right h'.1 _).trans hlate)) hlate⟩

theorem RestoreStep.rely {w w' : RestoreWorld} (h : RestoreStep w w') : restoreRely.rel w w' :=
  ⟨h.1.ge, fun _ hr _ => h.2 hr⟩

theorem RestoreIdle.rely {w w' : RestoreWorld} (h : RestoreIdle w w') : restoreRely.rel w w' := by
  obtain ⟨hnow, hsame | hswept⟩ := h
  · exact ⟨hnow, fun r hr _ => hsame ▸ hr⟩
  · refine ⟨hnow, fun r hr hlate => ?_⟩
    rw [hswept]
    refine List.mem_filter.mpr ⟨hr, ?_⟩
    have hkept : w.world.now - days 7 ≤ r.createdAt := (sub_le_sub_right hnow _).trans hlate
    simpa using hkept

section Runs

variable {env : RestoreEnv} {gen : ι → Uuid} {req : ι → CheckRestoreRequest} {w₀ : RestoreWorld}
  {es : List (Prog.Event ι RestoreWorld)}
  {c : RestoreWorld × (ι → RestoreHandler CheckRestoreResponse)}

theorem rely_of_restore
    (h : (Prog.pool RestoreIdle).Run (w₀, fun i => checkRestore env (gen i) (req i)) es c) :
    ∀ e ∈ es, restoreRely.rel e.pre e.post := by
  intro e he
  obtain ⟨henv, hcall⟩ := Prog.event_of_run (R := fun _ => RestoreStep) (fun _ => .refl) h
    (fun i => restoreSteps_checkRestore env (gen i) (req i)) e he
  cases hwho : e.who with
  | none => exact (henv hwho).rely
  | some i => exact (hcall i hwho).rely

/-- Call `i` recorded its attempt, a selected one, in the hour before `T`, with `n` events before;
fewer than `limit` others were there. -/
structure RecordedBelow (es : List (Prog.Event ι RestoreWorld)) (sel : RestoreAttemptRow → Bool)
    (limit : ℕ) (T : Timestamp) (id : Uuid) (i : ι) (n : ℕ) : Prop where
  /-- The recording. -/
  recording : ∃ es₁ e es₂ r, es = es₁ ++ e :: es₂ ∧ es₁.length = n ∧ e.who = some i ∧
    e.pre.attempts.get? id = none ∧ r ∈ e.post.attempts.rows ∧ r.id = id ∧ sel r = true ∧
    T - hour < r.createdAt ∧ e.pre.world.now ≤ T ∧ (e.pre.recent sel).length < limit

omit [DecidableEq ι] in
theorem RecordedBelow.inj {sel : RestoreAttemptRow → Bool} {limit : ℕ} {T : Timestamp}
    {id id' : Uuid} {i j : ι} {n : ℕ} (h : RecordedBelow es sel limit T id i n)
    (h' : RecordedBelow es sel limit T id' j n) : i = j := by
  obtain ⟨es₁, e, es₂, -, hes, hlen, hwho, -⟩ := h
  obtain ⟨es₃, e', es₄, -, hes', hlen', hwho', -⟩ := h'
  have hget : es[n]? = some e := by simp [hes, ← hlen]
  have hget' : es[n]? = some e' := by simp [hes', ← hlen']
  obtain rfl := Option.some.inj (hget.symm.trans hget')
  exact Option.some.inj (hwho.symm.trans hwho')

/-- An earlier attempt of the hour is there, and counts, when a later one is recorded. -/
theorem RecordedBelow.seen
    (h : (Prog.pool RestoreIdle).Run (w₀, fun i => checkRestore env (gen i) (req i)) es c)
    {sel : RestoreAttemptRow → Bool} {limit : ℕ} {T : Timestamp} {id : Uuid} {i : ι} {n : ℕ}
    (hrec : RecordedBelow es sel limit T id i n) {es₃ es₄ : List (Prog.Event ι RestoreWorld)}
    {e' : Prog.Event ι RestoreWorld} (hes' : es = es₃ ++ e' :: es₄) (hlt : n < es₃.length)
    (hnow : e'.pre.world.now ≤ T) :
    ∃ r ∈ e'.pre.attempts.rows, r.id = id ∧ r ∈ e'.pre.recent sel := by
  obtain ⟨es₁, e, es₂, r, hes, rfl, -, -, hr, hid, hsel, hlate, -⟩ := hrec
  have hrely := Prog.rel_between h (rely_of_restore h) hes hes' hlt
  have hcount : e'.pre.world.now - hour < r.createdAt := (sub_le_sub_right hnow _).trans_lt hlate
  have hkept : r ∈ e'.pre.attempts.rows := by
    refine hrely.2 r hr (le_of_lt (lt_of_le_of_lt ?_ hcount))
    exact sub_le_sub_left (by decide) _
  refine ⟨r, hkept, hid, List.mem_filter.mpr ⟨hkept, ?_⟩⟩
  simpa [hsel] using hcount

theorem RecordedBelow.fresh
    (h : (Prog.pool RestoreIdle).Run (w₀, fun i => checkRestore env (gen i) (req i)) es c)
    {sel : RestoreAttemptRow → Bool} {limit : ℕ} {T : Timestamp} {id id' : Uuid} {i j : ι}
    {m n : ℕ} (hrec : RecordedBelow es sel limit T id i m)
    (hrec' : RecordedBelow es sel limit T id' j n) (hlt : m < n) : id ≠ id' := by
  obtain ⟨es₃, e', es₄, -, hes', rfl, -, hfree, -, -, -, -, hnow, -⟩ := hrec'
  obtain ⟨r, hr, hid, -⟩ := hrec.seen h hes' hlt hnow
  rw [Table.get?_eq_none_iff] at hfree
  exact fun heq => hfree r hr (hid.trans heq)

/-- **A limit is kept** by requests that are below it when they record. -/
theorem length_le_of_recorded
    (h : (Prog.pool RestoreIdle).Run (w₀, fun i => checkRestore env (gen i) (req i)) es c)
    (sel : RestoreAttemptRow → Bool) (limit : ℕ) (T : Timestamp) {calls : List ι}
    (hnodup : calls.Nodup)
    (hcalls : ∀ i ∈ calls, ∃ n, RecordedBelow es sel limit T (gen i) i n) :
    calls.length ≤ limit := by
  by_cases hempty : calls = []
  · simp [hempty]
  choose! n hn using hcalls
  -- the last of them saw all the others
  obtain ⟨last, hlast, hmax⟩ := Finset.exists_max_image calls.toFinset n
    (List.toFinset_nonempty_iff calls |>.mpr hempty)
  rw [List.mem_toFinset] at hlast
  have hother : ∀ i ∈ calls.erase last, i ∈ calls ∧ n i < n last := by
    intro i hi
    obtain ⟨hne, hmem⟩ := hnodup.mem_erase_iff.mp hi
    refine ⟨hmem, lt_of_le_of_ne (hmax i (List.mem_toFinset.mpr hmem)) fun heq => hne ?_⟩
    exact (hn i hmem).inj (heq ▸ hn last hlast)
  obtain ⟨es₃, e', es₄, -, hes', hlen, -, -, -, -, -, -, hnow, hbelow⟩ := hn last hlast
  have hids : ((calls.erase last).map gen).Nodup := by
    refine List.Nodup.map_on (fun i hi j hj heq => ?_) (hnodup.erase last)
    have hi' := hn i (hother i hi).1
    have hj' := hn j (hother j hj).1
    rcases lt_trichotomy (n i) (n j) with hlt | hsame | hlt
    · exact absurd heq (hi'.fresh h hj' hlt)
    · exact hi'.inj (hsame ▸ hj')
    · exact absurd heq.symm (hj'.fresh h hi' hlt)
  have hseen : (calls.erase last).map gen ⊆ (e'.pre.recent sel).map RestoreAttemptRow.id := by
    intro id hid
    obtain ⟨i, hi, rfl⟩ := List.mem_map.mp hid
    obtain ⟨r, -, hrid, hrecent⟩ :=
      (hn i (hother i hi).1).seen h hes' (hlen ▸ (hother i hi).2) hnow
    exact List.mem_map.mpr ⟨r, hrecent, hrid⟩
  have hle := (List.subperm_of_subset hids hseen).length_le
  rw [List.length_map, List.length_map, List.length_erase_of_mem hlast] at hle
  omega

theorem now_le_of_eventsOf
    (h : (Prog.pool RestoreIdle).Run (w₀, fun i => checkRestore env (gen i) (req i)) es c)
    {es₁ es₂ : List (Prog.Event ι RestoreWorld)} {e : Prog.Event ι RestoreWorld} {i : ι}
    {x : RestoreWorld} (hes : es = es₁ ++ e :: es₂) (hx : (x, x) ∈ Prog.eventsOf i es₁) :
    x.world.now ≤ e.pre.world.now := by
  obtain ⟨e', he', -, hpair⟩ := Prog.mem_eventsOf.mp hx
  obtain ⟨-, rfl⟩ := Prod.mk.inj hpair
  obtain ⟨c₁, _, hbefore, hpre, -, -⟩ := Prog.run_at (hes ▸ h)
  have hrely : ∀ e ∈ es₁, restoreRely.rel e.pre e.post := fun e he =>
    rely_of_restore h e (hes ▸ List.mem_append_left _ he)
  rw [← hpre]
  exact (Prog.rel_of_mem hbefore hrely he').1

/-- An answered request that was undisturbed was below both limits when it was recorded. -/
theorem recordedBelow_of_answered
    (h : (Prog.pool RestoreIdle).Run (w₀, fun i => checkRestore env (gen i) (req i)) es c)
    {i : ι} {resp : CheckRestoreResponse} {w : RestoreWorld} (hanswered : AnsweredAt es c i resp w)
    (hquiet : UndisturbedCheck env (req i) resp (Prog.eventsOf i es)) {T : Timestamp}
    (hlate : T - hour < w.world.now) (hnow : w.world.now ≤ T) :
    (∃ n, RecordedBelow es (fromIp env ((req i).ip env).text) restoreIpThreshold T (gen i) i n) ∧
      (resp.failed = true → ∃ n, RecordedBelow es (failedAgainst env (req i).fingerprint)
        restoreFailThreshold T (gen i) i n) := by
  obtain ⟨hreturned, w', hlast⟩ := hanswered
  have hpath := Prog.path_of_run h i (t := []) (r := .ok resp) (by rw [hreturned]; exact .ret resp)
  rw [List.append_nil] at hpath
  obtain ⟨x, y, t, w₁, w₁', hevents, hx, hy, hrecord⟩ := path_checkRestore hpath
  obtain ⟨rfl, rfl⟩ : w₁ = w ∧ w₁' = w' := by
    rw [hevents, List.getLast?_concat] at hlast
    exact Prod.mk.inj (Option.some.inj hlast)
  have hne := hquiet.recorded _ _ hlast
  obtain rfl := hrecord.resolve_right hne
  obtain ⟨hfree, hrows⟩ := record_ne hne
  obtain ⟨es₁, e, es₂, hes, hwho, hpair, hbefore⟩ := Prog.eventsOf_split hevents
  obtain ⟨rfl, hpost⟩ := Prod.mk.inj hpair
  have hrow : restoreAttemptRow env (gen i) (req i).fingerprint ((req i).ip env).text
      (!resp.failed) e.pre.world.now ∈ e.post.attempts.rows := by
    rw [hpost, hrows]
    exact List.mem_append_right _ (List.mem_singleton_self _)
  have hnowx : x.world.now ≤ e.pre.world.now :=
    now_le_of_eventsOf h hes (i := i) (by simp [hbefore])
  have hnowy : y.world.now ≤ e.pre.world.now :=
    now_le_of_eventsOf h hes (i := i) (by simp [hbefore])
  have hfirst : (Prog.eventsOf i es)[0]? = some (x, x) := by simp [hevents]
  have hsecond : (Prog.eventsOf i es)[1]? = some (y, y) := by simp [hevents]
  constructor
  · refine ⟨_, es₁, e, es₂, _, hes, rfl, hwho, hfree, hrow, rfl, ?_, hlate, hnow, ?_⟩
    · simp [fromIp, restoreAttemptRow]
    · by_cases hnew : newSince (fromIp env ((req i).ip env).text) x e.pre = []
      · exact (length_recent_le hnowx hnew).trans_lt hx
      · exact hquiet.ip _ _ _ _ hfirst hlast hnew
  · intro hfailed
    refine ⟨_, es₁, e, es₂, _, hes, rfl, hwho, hfree, hrow, rfl, ?_, hlate, hnow, ?_⟩
    · simp [failedAgainst, restoreAttemptRow, hfailed]
    · by_cases hnew : newSince (failedAgainst env (req i).fingerprint) y e.pre = []
      · exact (length_recent_le hnowy hnew).trans_lt hy
      · exact hquiet.fingerprint hfailed _ _ _ _ hsecond hlast hnew

/-- **The governors under concurrency**: they hold in every run in which the requests that are
answered were undisturbed. -/
theorem restore_governors_hold
    (h : (Prog.pool RestoreIdle).Run (w₀, fun i => checkRestore env (gen i) (req i)) es c)
    (hquiet : ∀ i resp, c.2 i = .ret resp →
      UndisturbedCheck env (req i) resp (Prog.eventsOf i es)) :
    GovernorsHold env req es c where
  ip ip T calls hnodup hcalls := by
    refine length_le_of_recorded h (fromIp env ip.text) _ T hnodup fun i hi => ?_
    obtain ⟨rfl, resp, w, hanswered, hlate, hnow⟩ := hcalls i hi
    exact (recordedBelow_of_answered h hanswered (hquiet i resp hanswered.returned) hlate hnow).1
  fingerprint fingerprint T calls hnodup hcalls := by
    refine length_le_of_recorded h (failedAgainst env fingerprint) _ T hnodup
      fun i hi => ?_
    obtain ⟨rfl, resp, w, hanswered, hfailed, hlate, hnow⟩ := hcalls i hi
    exact (recordedBelow_of_answered h hanswered (hquiet i resp hanswered.returned)
      hlate hnow).2 hfailed

end Runs

/-! ### Probes of one fingerprint -/

/-- An instance without proxies. -/
def sampleRestoreEnv : RestoreEnv := ⟨fun column value => column ++ ":" ++ value, id, []⟩

/-- A probe of an unknown fingerprint. -/
def restoreProbe : CheckRestoreRequest := ⟨none, .v4 0x0A000005#32, "0123456789abcdef", []⟩

/-- No user, no attempt. -/
def restoreWorld : RestoreWorld := ⟨⟨Db.empty, 0⟩, ⟨[], by simp⟩⟩

/-- Four probes, about to begin. -/
def probeStart : RestoreWorld × (Fin 4 → RestoreHandler CheckRestoreResponse) :=
  (restoreWorld, fun i => checkRestore sampleRestoreEnv (BitVec.ofFin (i.castLE (by decide)))
    restoreProbe)

/-- The second probe counts before the first is recorded, and the third before the second; the
fourth counts all of them. -/
def belowLimitTurns : List (Fin 4 × ℕ) :=
  [(0, 3), (1, 3), (0, 1), (2, 3), (1, 1), (2, 1), (3, 2)]

/-- Probes overlap below the limit, and one more is refused. -/
theorem overlapping_probes_governed :
    GovernorsHold sampleRestoreEnv (fun _ => restoreProbe)
      (Prog.playTrace belowLimitTurns probeStart) (Prog.play belowLimitTurns probeStart) ∧
    (∀ i : Fin 3, (Prog.play belowLimitTurns probeStart).2 i.castSucc =
      .ret ⟨false, none, none, none⟩) ∧
    (Prog.play belowLimitTurns probeStart).2 3 = .fail .rateLimited := by
  have hbelow : ∀ i : Fin 3, ∃ w w',
      (Prog.eventsOf i.castSucc (Prog.playTrace belowLimitTurns probeStart)).getLast? = some (w, w') ∧
      w'.attempts.rows.length ≠ w.attempts.rows.length ∧
      (w.recent (fromIp sampleRestoreEnv (restoreProbe.ip sampleRestoreEnv).text)).length <
        restoreIpThreshold ∧
      (w.recent (failedAgainst sampleRestoreEnv restoreProbe.fingerprint)).length <
        restoreFailThreshold
    | 0 => ⟨_, _, rfl, by decide, by decide, by decide⟩
    | 1 => ⟨_, _, rfl, by decide, by decide, by decide⟩
    | 2 => ⟨_, _, rfl, by decide, by decide, by decide⟩
  refine ⟨restore_governors_hold (Prog.run_play RestoreIdle belowLimitTurns probeStart) ?_, ?_, rfl⟩
  · intro i resp hret
    cases i using Fin.lastCases with
    | last => cases hret
    | cast i =>
      obtain ⟨w, w', hlast, hrecorded, hip, hfingerprint⟩ := hbelow i
      exact undisturbedCheck_of_below hlast (fun hsame => hrecorded (by rw [hsame])) hip hfingerprint
  · rintro ⟨_ | _ | _ | n, h⟩
    · rfl
    · rfl
    · rfl
    · omega

/-- All four count before any is recorded. -/
def probeTurns : List (Fin 4 × ℕ) :=
  [(0, 3), (1, 3), (2, 3), (3, 3), (0, 1), (1, 1), (2, 1), (3, 1)]

/-- Four failed probes of one fingerprint are answered. -/
theorem overlapping_probes_answered :
    ¬ ∀ (gen : Fin 4 → Uuid) (req : Fin 4 → CheckRestoreRequest)
      (es : List (Prog.Event (Fin 4) RestoreWorld))
      (c : RestoreWorld × (Fin 4 → RestoreHandler CheckRestoreResponse)),
      (Prog.pool RestoreIdle).Run
        (restoreWorld, fun i => checkRestore sampleRestoreEnv (gen i) (req i)) es c →
        GovernorsHold sampleRestoreEnv req es c := by
  intro hclaim
  have hholds := hclaim _ (fun _ => restoreProbe) _ _ (Prog.run_play RestoreIdle probeTurns probeStart)
  have hle := hholds.fingerprint restoreProbe.fingerprint 0 [0, 1, 2, 3] (by decide) fun i hi => by
    refine ⟨rfl, ⟨false, none, none, none⟩, ?_⟩
    simp only [List.mem_cons, List.not_mem_nil, or_false] at hi
    rcases hi with rfl | rfl | rfl | rfl
    · exact ⟨_, ⟨rfl, _, rfl⟩, rfl, by decide, by decide⟩
    · exact ⟨_, ⟨rfl, _, rfl⟩, rfl, by decide, by decide⟩
    · exact ⟨_, ⟨rfl, _, rfl⟩, rfl, by decide, by decide⟩
    · exact ⟨_, ⟨rfl, _, rfl⟩, rfl, by decide, by decide⟩
  exact absurd hle (by decide)

end SmirkBackend

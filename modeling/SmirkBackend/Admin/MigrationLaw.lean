import SmirkBackend.Admin.MigrateLegacy

/-!
# What a migration promises

An import of legacy users should leave every one of them in the target, create nothing when it is
run again, and do what its dry run said.  The second always holds.  The keys of a row stay marked
as seen when the row itself is skipped, so a later row with one of them is passed over though
nobody has its identity; and a dry run does not see the names and Nostr keys that earlier rows of
the batch take.  The three hold together exactly if no row of the batch meets either case.

`outcomes_eq_iff` says when the commit run does to each row what the dry run said, and
`migration_lawful_iff` when the migration keeps all it promises (`Lawful`).
-/

namespace SmirkBackend

open Lib (Prog)

/-! ### Values taken by the batch -/

/-- The values taken once some users are created. -/
def Taken.insertAll (taken : Taken) (pepper : Pepper) (ins : List NewUser) : Taken :=
  ins.foldl (fun taken a => taken.insert pepper a) taken

theorem Taken.insertAll_iff {taken : Taken} {pepper : Pepper} {ins : List NewUser}
    {c : UniqueColumn} {v : String} :
    taken.insertAll pepper ins c v ↔ taken c v ∨ ∃ a ∈ ins, a.value pepper c = some v := by
  induction ins generalizing taken with
  | nil => simp [insertAll]
  | cons a rest ih =>
    have hcons : taken.insertAll pepper (a :: rest) =
        (taken.insert pepper a).insertAll pepper rest := rfl
    rw [hcons, ih]
    simp [insert, or_assoc]

theorem Taken.insertAll_concat (taken : Taken) (pepper : Pepper) (ins : List NewUser)
    (a : NewUser) :
    taken.insertAll pepper (ins ++ [a]) = (taken.insertAll pepper ins).insert pepper a := by
  simp [insertAll]

/-- The second user has no unique value of the first. -/
def Apart (pepper : Pepper) (a b : NewUser) : Prop :=
  ∀ c v, b.value pepper c = some v → a.value pepper c ≠ some v

/-! ### One row, before and after others are created -/

/-- A value that no user may have in a column. -/
def UniqueColumn.unusable : UniqueColumn → String → Bool
  | .username, name => !(Users.validateUsername name).isOk
  | _, _ => false

namespace MigrateEnv

variable (env : MigrateEnv) (taken : Taken) (u : LegacyUser)

/-- The value that a row offers for a column. -/
def offered : UniqueColumn → Option String
  | .username => env.normalized u.username
  | .pubkeyHash => some (env.pepper "pubkey_hash" u.pubkeyHash)
  | .nostrPubkey => env.normalized u.nostrPubkey
  | .seedFingerprint => u.seedFingerprint.map (env.pepper "seed_fingerprint")

/-- The value that a row offers for a column cannot be used. -/
def blocked (c : UniqueColumn) : Bool := (env.offered u c).any fun v => c.unusable v || taken c v

theorem present_eq :
    env.present taken u =
      (env.blocked taken u .pubkeyHash || env.blocked taken u .seedFingerprint) := by
  cases hfp : u.seedFingerprint <;> simp [present, blocked, offered, UniqueColumn.unusable, hfp]

theorem dropsUsername_eq : env.dropsUsername taken u = env.blocked taken u .username := rfl

theorem dropsNostr_eq : env.dropsNostr taken u = env.blocked taken u .nostrPubkey := by
  simp [dropsNostr, blocked, offered, UniqueColumn.unusable]

variable {env taken u}

theorem planned_value (hnot : env.present taken u = false) (c : UniqueColumn) :
    (env.planned taken u).value env.pepper c =
      if env.blocked taken u c then none else env.offered u c := by
  obtain ⟨hkey, hseed⟩ := Bool.or_eq_false_iff.mp ((env.present_eq taken u).symm.trans hnot)
  cases c with
  | username => rfl
  | pubkeyHash => rw [hkey]; rfl
  | nostrPubkey => rw [← dropsNostr_eq]; rfl
  | seedFingerprint => rw [hseed]; rfl

/-- An absent row has the same outcome on other values exactly if these block the same columns. -/
theorem outcomeOn_eq_iff {taken' : Taken} (hnot : env.present taken u = false) :
    env.outcomeOn taken' u = env.outcomeOn taken u ↔
      ∀ c, env.blocked taken' u c = env.blocked taken u c := by
  obtain ⟨hkey, hseed⟩ := Bool.or_eq_false_iff.mp ((env.present_eq taken u).symm.trans hnot)
  have hout : env.outcomeOn taken u =
      .created (env.blocked taken u .username) (env.blocked taken u .nostrPubkey) := by
    rw [outcomeOn, hnot, dropsNostr_eq]
    rfl
  rw [hout, outcomeOn, dropsUsername_eq, dropsNostr_eq]
  constructor
  · intro heq
    split_ifs at heq with hpresent
    obtain ⟨hkey', hseed'⟩ := Bool.or_eq_false_iff.mp
      ((env.present_eq taken' u).symm.trans (Bool.not_eq_true _ ▸ hpresent))
    obtain ⟨hname, hnpub⟩ := ImportOutcome.created.inj heq
    intro c
    cases c with
    | username => exact hname
    | pubkeyHash => exact hkey'.trans hkey.symm
    | nostrPubkey => exact hnpub
    | seedFingerprint => exact hseed'.trans hseed.symm
  · intro hall
    have hnot' : env.present taken' u = false := by
      rw [present_eq, hall, hall, hkey, hseed]
      rfl
    rw [hnot', hall, hall]
    rfl

/-- On more values, a column is blocked as before exactly if the value used in it is not among
them. -/
theorem blocked_insertAll_iff {ins : List NewUser} {c : UniqueColumn} :
    env.blocked (taken.insertAll env.pepper ins) u c = env.blocked taken u c ↔
      ∀ v, (if env.blocked taken u c then none else env.offered u c) = some v →
        ∀ a ∈ ins, a.value env.pepper c ≠ some v := by
  unfold blocked
  cases env.offered u c with
  | none => simp
  | some v =>
    simp only [Option.any_some]
    by_cases hblocked : (c.unusable v || taken c v) = true
    · have hstill : (c.unusable v || taken.insertAll env.pepper ins c v) = true := by
        rw [Bool.or_eq_true] at hblocked ⊢
        exact hblocked.imp_right fun h => Taken.insertAll_iff.mpr (.inl h)
      simp [hstill, hblocked]
    · have hfree : c.unusable v = false ∧ taken c v = false := by simpa using hblocked
      have hlater : taken.insertAll env.pepper ins c v = false ↔
          ∀ a ∈ ins, a.value env.pepper c ≠ some v := by
        rw [← Bool.not_eq_true, Taken.insertAll_iff]
        simp [hfree.2]
      simpa [hfree] using hlater

/-- An absent row has the same outcome later exactly if no user created since has a unique value
that it would get. -/
theorem outcomeOn_insertAll_iff {ins : List NewUser} (hnot : env.present taken u = false) :
    env.outcomeOn (taken.insertAll env.pepper ins) u = env.outcomeOn taken u ↔
      ∀ a ∈ ins, Apart env.pepper a (env.planned taken u) := by
  rw [outcomeOn_eq_iff hnot]
  simp only [blocked_insertAll_iff, Apart, planned_value hnot]
  exact ⟨fun h a ha c v hv => h c v hv a ha, fun h c v hv a ha => h a ha c v hv⟩

theorem planned_eq {taken' : Taken} (hnot : env.present taken u = false)
    (heq : env.outcomeOn taken' u = env.outcomeOn taken u) :
    env.planned taken' u = env.planned taken u ∧ env.present taken' u = false := by
  have hall := (outcomeOn_eq_iff hnot).mp heq
  constructor
  · rw [planned, planned, dropsUsername_eq, dropsUsername_eq, dropsNostr_eq, dropsNostr_eq, hall,
      hall]
  · rw [present_eq, hall, hall, ← present_eq, hnot]

end MigrateEnv

/-! ### Counts -/

/-- What an outcome loses: a row that is skipped counts for more than all that can be left out. -/
def ImportOutcome.loss : ImportOutcome → ℕ
  | .skipped => 3
  | .created usernameDropped nostrDropped => usernameDropped.toNat + nostrDropped.toNat

/-- What a summary counts as lost. -/
def Summary.loss (s : Summary) : ℕ := 3 * s.skipped + s.usernameDropped + s.nostrDropped

theorem Summary.loss_addAll (s : Summary) (os : List ImportOutcome) :
    (s.addAll os).loss = s.loss + (os.map ImportOutcome.loss).sum := by
  induction os generalizing s with
  | nil => rfl
  | cons o rest ih =>
    have hcons : s.addAll (o :: rest) = (s.add (.ok o)).addAll rest := rfl
    rw [hcons, ih, List.map_cons, List.sum_cons]
    cases o <;> simp only [add, loss, ImportOutcome.loss] <;> omega

theorem Summary.errors_addAll (s : Summary) (os : List ImportOutcome) :
    (s.addAll os).errors = s.errors := by
  induction os generalizing s with
  | nil => rfl
  | cons o rest ih => exact (ih _).trans (by cases o <;> rfl)

namespace MigrateEnv

variable (env : MigrateEnv) {taken taken' : Taken} (u : LegacyUser)

theorem blocked_mono (c : UniqueColumn) (h : ∀ c v, taken c v → taken' c v)
    (hblocked : env.blocked taken u c) : env.blocked taken' u c := by
  rw [blocked, Option.any_eq_true] at hblocked ⊢
  obtain ⟨v, hv, hor⟩ := hblocked
  rw [Bool.or_eq_true] at hor
  exact ⟨v, hv, Bool.or_eq_true _ _ ▸ hor.imp_right (h c v)⟩

theorem present_mono (h : ∀ c v, taken c v → taken' c v) (hpresent : env.present taken u) :
    env.present taken' u := by
  rw [present_eq, Bool.or_eq_true] at hpresent ⊢
  exact hpresent.imp (blocked_mono env u _ h) (blocked_mono env u _ h)

theorem loss_outcomeOn_le (h : ∀ c v, taken c v → taken' c v) :
    (env.outcomeOn taken u).loss ≤ (env.outcomeOn taken' u).loss ∧
      ((env.outcomeOn taken u).loss = (env.outcomeOn taken' u).loss →
        env.outcomeOn taken' u = env.outcomeOn taken u) := by
  have hpresent := present_mono env u h
  have hname := blocked_mono env u .username h
  have hnpub := blocked_mono env u .nostrPubkey h
  simp only [outcomeOn, dropsUsername_eq, dropsNostr_eq]
  revert hpresent hname hnpub
  generalize env.present taken u = b₁
  generalize env.present taken' u = b₁'
  generalize env.blocked taken u .username = b₂
  generalize env.blocked taken' u .username = b₂'
  generalize env.blocked taken u .nostrPubkey = b₃
  generalize env.blocked taken' u .nostrPubkey = b₃'
  revert b₁ b₁' b₂ b₂' b₃ b₃'
  decide

variable {env u}

theorem takenAfter_mono {commit : Bool} : ∀ c v, taken c v → env.takenAfter taken u commit c v := by
  intro c v h
  unfold takenAfter
  split_ifs
  · simp [Taken.insert, h]
  · exact h

/-- The commit run loses no less than the dry run; if no more, each row has the same outcome. -/
theorem loss_outcomes_le (seen : List String) (rows : List LegacyUser)
    (h : ∀ c v, taken c v → taken' c v) :
    ((env.outcomes false taken seen rows).1.map ImportOutcome.loss).sum ≤
        ((env.outcomes true taken' seen rows).1.map ImportOutcome.loss).sum ∧
      (((env.outcomes false taken seen rows).1.map ImportOutcome.loss).sum =
          ((env.outcomes true taken' seen rows).1.map ImportOutcome.loss).sum →
        (env.outcomes true taken' seen rows).1 = (env.outcomes false taken seen rows).1) := by
  induction rows generalizing seen taken taken' with
  | nil => simp [outcomes]
  | cons u rest ih =>
    simp only [outcomes]
    cases (claimKeys seen u).1 with
    | false =>
      obtain ⟨hle, heq⟩ := ih (claimKeys seen u).2 h
      simp only [Bool.false_eq_true, if_false, List.map_cons, List.sum_cons, List.cons.injEq,
        true_and]
      exact ⟨by omega, fun hsum => heq (by omega)⟩
    | true =>
      have hafter : env.takenAfter taken u false = taken := rfl
      have hmono (c : UniqueColumn) (v : String) (hv : taken c v) :
          env.takenAfter taken' u true c v := takenAfter_mono c v (h c v hv)
      obtain ⟨hle, heq⟩ := ih (claimKeys seen u).2 hmono
      obtain ⟨hle₀, heq₀⟩ := loss_outcomeOn_le env u h
      simp only [if_true, List.map_cons, List.sum_cons, List.cons.injEq, hafter]
      exact ⟨by omega, fun hsum => ⟨heq₀ (by omega), heq (by omega)⟩⟩

/-! ### When the dry run is right -/

/-- The users to create, by the dry run, for the rows of a batch. -/
def importsFrom (env : MigrateEnv) (taken : Taken) (seen : List String) (rows : List LegacyUser) :
    List NewUser :=
  ((batch seen rows).filter fun u => !env.present taken u).map (env.planned taken)

/-- **When the dry run is right.**  After some users were created, the commit run does to each row
what the dry run said before exactly if no row that is imported has a unique value of another one,
or of a user created since; then it creates these users. -/
theorem outcomes_eq_iff (env : MigrateEnv) (taken : Taken) (seen : List String)
    (ins : List NewUser) (rows : List LegacyUser) :
    ((env.outcomes true (taken.insertAll env.pepper ins) seen rows).1 =
        (env.outcomes false taken seen rows).1 ↔
      (env.importsFrom taken seen rows).Pairwise (Apart env.pepper) ∧
        ∀ a ∈ ins, ∀ b ∈ env.importsFrom taken seen rows, Apart env.pepper a b) ∧
    ((env.outcomes true (taken.insertAll env.pepper ins) seen rows).1 =
        (env.outcomes false taken seen rows).1 →
      (env.outcomes true (taken.insertAll env.pepper ins) seen rows).2 =
        taken.insertAll env.pepper (ins ++ env.importsFrom taken seen rows)) := by
  induction rows generalizing seen ins with
  | nil => simp [outcomes, importsFrom, batch]
  | cons u rest ih =>
    cases hkeys : (claimKeys seen u).1 with
    | false =>
      have himports : env.importsFrom taken seen (u :: rest) =
          env.importsFrom taken (claimKeys seen u).2 rest := by
        simp [importsFrom, batch, hkeys]
      simpa [outcomes, hkeys, himports] using ih (claimKeys seen u).2 ins
    | true =>
      have hafter : env.takenAfter taken u false = taken := rfl
      simp only [outcomes, hkeys, if_true, hafter, List.cons.injEq]
      cases hpresent : env.present taken u with
      | true =>
        have himports : env.importsFrom taken seen (u :: rest) =
            env.importsFrom taken (claimKeys seen u).2 rest := by
          simp [importsFrom, batch, hkeys, hpresent]
        have hlater : env.present (taken.insertAll env.pepper ins) u = true :=
          present_mono env u (fun c v hv => Taken.insertAll_iff.mpr (.inl hv)) hpresent
        simpa [outcomeOn, takenAfter, hpresent, hlater, himports] using
          ih (claimKeys seen u).2 ins
      | false =>
        have himports : env.importsFrom taken seen (u :: rest) =
            env.planned taken u :: env.importsFrom taken (claimKeys seen u).2 rest := by
          simp [importsFrom, batch, hkeys, hpresent]
        rw [outcomeOn_insertAll_iff hpresent, himports]
        -- once the row keeps its outcome, the user it creates is one more of those created since
        have hstep (hhead : ∀ a ∈ ins, Apart env.pepper a (env.planned taken u)) :
            env.takenAfter (taken.insertAll env.pepper ins) u true =
              taken.insertAll env.pepper (ins ++ [env.planned taken u]) := by
          obtain ⟨hplan, hnot⟩ := planned_eq hpresent ((outcomeOn_insertAll_iff hpresent).mpr hhead)
          rw [Taken.insertAll_concat, takenAfter, hnot, hplan]
          rfl
        obtain ⟨hiff, hfinal⟩ := ih (claimKeys seen u).2
          (ins ++ [env.planned taken u])
        rw [List.append_assoc] at hfinal
        constructor
        · constructor
          · rintro ⟨hhead, htail⟩
            rw [hstep hhead] at htail
            obtain ⟨hpairs, hcross⟩ := hiff.mp htail
            have hown := hcross (env.planned taken u) (by simp)
            refine ⟨List.pairwise_cons.mpr ⟨hown, hpairs⟩, fun a ha b hb => ?_⟩
            rcases List.mem_cons.mp hb with rfl | hb
            · exact hhead a ha
            · exact hcross a (List.mem_append_left _ ha) b hb
          · rintro ⟨hpairs, hcross⟩
            obtain ⟨hown, hpairs⟩ := List.pairwise_cons.mp hpairs
            have hhead := fun a ha => hcross a ha _ List.mem_cons_self
            refine ⟨hhead, ?_⟩
            rw [hstep hhead]
            refine hiff.mpr ⟨hpairs, fun a ha b hb => ?_⟩
            rcases List.mem_append.mp ha with ha | ha
            · exact hcross a ha b (List.mem_cons_of_mem _ hb)
            · obtain rfl := List.mem_singleton.mp ha
              exact hown b hb
        · rintro ⟨hhead, htail⟩
          rw [hstep hhead] at htail ⊢
          exact hfinal htail

/-- Every row whose keys are new in the batch is there after it. -/
theorem present_after (taken : Taken) (seen : List String) (rows : List LegacyUser) :
    (∀ c v, taken c v → (env.outcomes true taken seen rows).2 c v) ∧
      ∀ u ∈ batch seen rows, env.present (env.outcomes true taken seen rows).2 u := by
  induction rows generalizing seen taken with
  | nil => simp [outcomes, batch]
  | cons u rest ih =>
    cases hkeys : (claimKeys seen u).1 with
    | false => simpa [outcomes, batch, hkeys] using ih taken (claimKeys seen u).2
    | true =>
      simp only [outcomes, batch, hkeys, if_true]
      obtain ⟨hmono, hrest⟩ := ih (env.takenAfter taken u true)
        (claimKeys seen u).2
      refine ⟨fun c v hv => hmono c v (takenAfter_mono c v hv), fun u' hu' => ?_⟩
      rcases List.mem_cons.mp hu' with rfl | hu'
      · refine present_mono env u' hmono ?_
        cases hpresent : env.present taken u' with
        | true => exact present_mono env u' takenAfter_mono hpresent
        | false =>
          have hkey : (env.planned taken u').value env.pepper .pubkeyHash =
              some (env.pepper "pubkey_hash" u'.pubkeyHash) := rfl
          rw [takenAfter, hpresent]
          simp [present, Taken.insert, hkey]
      · exact hrest u' hu'

end MigrateEnv

/-! ### The law -/

/-- The user has the identity of the row: its key, or its seed. -/
def SameIdentity (pepper : Pepper) (a : NewUser) (u : LegacyUser) : Prop :=
  a.value pepper .pubkeyHash = some (pepper "pubkey_hash" u.pubkeyHash) ∨
    ∃ fp, u.seedFingerprint = some fp ∧
      a.value pepper .seedFingerprint = some (pepper "seed_fingerprint" fp)

namespace MigrateEnv

variable (env : MigrateEnv)

/-- The users that a dry run counts: one for each row that is not there and whose keys are new in
the batch, without what cannot be used. -/
def imports (taken : Taken) (rows : List LegacyUser) : List NewUser :=
  env.importsFrom taken [] rows

/-- No row of the batch gets in the way of another. -/
structure Foreseen (rows : List LegacyUser) (w : World) : Prop where
  /-- A row that is not there has the identity of a row that is imported. -/
  covered : ∀ u ∈ rows, env.present w.taken u ∨
    ∃ a ∈ env.imports w.taken rows, SameIdentity env.pepper a u
  /-- No two rows that are imported have a unique value in common. -/
  apart : (env.imports w.taken rows).Pairwise (Apart env.pepper)

/-- What a commit run that reports `s` and ends in `w'` promises. -/
structure Kept (rows : List LegacyUser) (w : World) (s : Summary) (w' : World) : Prop where
  /-- Every row is there. -/
  complete : ∀ u ∈ rows, (env.identityPresent u).run w' = (.ok true, w')
  /-- Another run creates nothing. -/
  idempotent : ∀ ids, ∃ s', (env.migrateLegacy true ids rows).run w' = (.ok s', w') ∧ s'.created = 0
  /-- The dry run reports the same counts. -/
  predicted : ∀ ids, (env.migrateLegacy false ids rows).run w = (.ok s, w)

/-- The commit run reports no error and keeps what it promises. -/
def Lawful (ids : ℕ → RowIds) (rows : List LegacyUser) (w : World) : Prop :=
  ∃ s w', (env.migrateLegacy true ids rows).run w = (.ok s, w') ∧ s.errors = 0 ∧
    env.Kept rows w s w'

variable {env} {rows : List LegacyUser} {w : World} {ids : ℕ → RowIds}

/-- **A second run creates nothing**, whatever the batch. -/
theorem second_run (env : MigrateEnv) (hids : NewIds ids 0 rows.length w) :
    ∃ s w', (env.migrateLegacy true ids rows).run w = (.ok s, w') ∧ ∀ ids',
      (env.migrateLegacy true ids' rows).run w' =
        (.ok { Summary.zero with skipped := rows.length }, w') := by
  obtain ⟨w', hrun, htaken, -⟩ := migrateLegacy_run env true ids rows fun _ => hids
  refine ⟨_, w', hrun, fun ids' => ?_⟩
  have hpresent : ∀ u ∈ batch [] rows, env.present w'.taken u := by
    rw [htaken]
    exact (present_after _ _ rows).2
  rw [migrateLegacy, importRows_present hpresent]
  simp [Summary.zero]

theorem addAll_outcomes_eq_iff {taken : Taken} :
    Summary.zero.addAll (env.outcomes false taken [] rows).1 =
        Summary.zero.addAll (env.outcomes true taken [] rows).1 ↔
      (env.outcomes true taken [] rows).1 = (env.outcomes false taken [] rows).1 := by
  constructor
  · intro heq
    refine (loss_outcomes_le [] rows fun _ _ h => h).2 ?_
    have hloss := congrArg Summary.loss heq
    rw [Summary.loss_addAll, Summary.loss_addAll] at hloss
    omega
  · exact fun heq => by rw [heq]

/-- With the users created that the dry run counts, a row is there exactly if it was before or one
of them has its identity. -/
theorem present_insertAll_iff {taken : Taken} {ins : List NewUser} {u : LegacyUser} :
    env.present (taken.insertAll env.pepper ins) u ↔
      env.present taken u ∨ ∃ a ∈ ins, SameIdentity env.pepper a u := by
  cases hfp : u.seedFingerprint with
  | none => simp [present, hfp, SameIdentity, Taken.insertAll_iff]
  | some fp =>
    simp only [present, hfp, SameIdentity, Bool.or_eq_true, Option.any_some, Taken.insertAll_iff,
      Option.some.injEq, exists_eq_left', and_or_left, exists_or]
    exact or_or_or_comm

/-- **When the migration is lawful.**  With new identifiers, and no failing statement, the commit
run reports no error; it leaves every row of the batch in the target, creates nothing when it is run
again, and does what the dry run reports exactly if no row gets in the way of another. -/
theorem migration_lawful_iff (hids : NewIds ids 0 rows.length w) :
    env.Lawful ids rows w ↔ env.Foreseen rows w := by
  obtain ⟨w', hrun, htaken, -⟩ := migrateLegacy_run env true ids rows fun _ => hids
  have hdry (ids' : ℕ → RowIds) : (env.migrateLegacy false ids' rows).run w =
      (.ok (Summary.zero.addAll (env.outcomes false w.taken [] rows).1), w) := by
    obtain ⟨w₁, hrun₁, -, hsame⟩ := migrateLegacy_run env false ids' rows (w := w) (by simp)
    rw [hrun₁, hsame rfl]
  have hiff := outcomes_eq_iff env w.taken [] [] rows
  have hnil : w.taken.insertAll env.pepper [] = w.taken := rfl
  simp only [List.not_mem_nil, false_implies, implies_true, and_true, List.nil_append, hnil] at hiff
  obtain ⟨hpairs, hfinal⟩ := hiff
  constructor
  · rintro ⟨s, w₁, hrun₁, -, hlaw⟩
    obtain ⟨rfl, rfl⟩ : _ = s ∧ w' = w₁ := by simpa [hrun] using hrun₁
    have heq : (env.outcomes true w.taken [] rows).1 = (env.outcomes false w.taken [] rows).1 := by
      refine addAll_outcomes_eq_iff.mp ?_
      simpa [hdry] using hlaw.predicted ids
    refine ⟨fun u hu => ?_, hpairs.mp heq⟩
    have hthere : env.present w'.taken u = true := by
      simpa [identityPresent_run] using hlaw.complete u hu
    rwa [htaken, hfinal heq, present_insertAll_iff] at hthere
  · intro h
    have heq := hpairs.mpr h.apart
    refine ⟨_, w', hrun, Summary.errors_addAll _ _, fun u hu => ?_, fun ids' => ?_, fun ids' => ?_⟩
    · have hthere : env.present w'.taken u = true := by
        rw [htaken, hfinal heq, present_insertAll_iff]
        exact h.covered u hu
      rw [identityPresent_run, hthere]
    · obtain ⟨s, w₁, hrun₁, hagain⟩ := second_run env hids
      obtain ⟨-, rfl⟩ : _ = s ∧ w' = w₁ := by simpa [hrun] using hrun₁
      exact ⟨_, hagain ids', rfl⟩
    · rw [hdry, addAll_outcomes_eq_iff.mpr heq]

end MigrateEnv

/-- A pepper that shows what it was given. -/
def sampleMigrateEnv : MigrateEnv where
  pepper column value := column ++ ":" ++ value
  lowercase := toLowercase

/-- A legacy user with a name, a key and a seed. -/
def legacyUser (username pubkeyHash : String) (seedFingerprint : Option String) : LegacyUser where
  username := some username
  pubkeyHash := pubkeyHash
  nostrPubkey := none
  seedFingerprint := seedFingerprint
  walletBirthday := none
  xmrStartHeight := none
  wowStartHeight := none

/-- Identifiers that count from 1. -/
def sampleIds (n : ℕ) : RowIds := ⟨BitVec.ofNat 128 (2 * n + 1), BitVec.ofNat 128 (2 * n + 2)⟩

/-- A target without users. -/
def emptyTarget : World := ⟨Db.empty, 0⟩

/-- A user before and after a rotation of keys. -/
def rotated : List LegacyUser :=
  [legacyUser "bob" "pk1" (some "fp1"), legacyUser "bob" "pk2" (some "fp1")]

deriving instance DecidableEq for NewUser

theorem rotated_lawful : sampleMigrateEnv.Lawful sampleIds rotated emptyTarget := by
  refine (MigrateEnv.migration_lawful_iff ⟨fun _ _ _ => rfl, fun i j _ hij hj => ?_⟩).mpr ?_
  · obtain ⟨rfl, rfl⟩ : i = 0 ∧ j = 1 := by
      have hlength : rotated.length = 2 := rfl
      omega
    decide
  · have himports : sampleMigrateEnv.imports emptyTarget.taken rotated =
        [MigrateEnv.newUser (legacyUser "bob" "pk1" (some "fp1")) (some "bob") none] := by
      decide +kernel
    refine ⟨fun u hu => .inr ⟨_, himports ▸ List.mem_cons_self, .inr ⟨"fp1", ?_, rfl⟩⟩, ?_⟩
    · simp only [rotated, List.mem_cons, List.not_mem_nil, or_false] at hu
      rcases hu with rfl | rfl <;> rfl
    · rw [himports]
      exact List.pairwise_singleton _ _

/-- Two users whose names differ in a capital. -/
def namesakes : List LegacyUser := [legacyUser "Alice" "pk1" none, legacyUser "alice" "pk2" none]

/-- A target with a user who has the key of `rotated` before the rotation, and no seed. -/
def keyTarget : World where
  db := { Db.empty with
    users := ⟨[(MigrateEnv.newUser (legacyUser "bob" "pk1" none) none none).row
      sampleMigrateEnv.pepper 0], by decide⟩ }
  now := 0

/-- The dry run on two namesakes counts no name that is left out, and the commit run leaves one
out; and after a commit run the key of the rotated user is not there. -/
theorem migrations_not_lawful : ¬ sampleMigrateEnv.Lawful sampleIds namesakes emptyTarget ∧
    ¬ sampleMigrateEnv.Lawful sampleIds rotated keyTarget := by
  constructor
  · have hcommit : ((sampleMigrateEnv.migrateLegacy true sampleIds namesakes).run
        emptyTarget).1.toOption = some ⟨2, 0, 1, 0, 0⟩ := by decide +kernel
    have hdry : ((sampleMigrateEnv.migrateLegacy false sampleIds namesakes).run
        emptyTarget).1.toOption = some ⟨2, 0, 0, 0, 0⟩ := by decide +kernel
    rintro ⟨s, w', hrun, -, hkept⟩
    rw [hrun] at hcommit
    rw [hkept.predicted sampleIds] at hdry
    cases hcommit.symm.trans hdry
  · have hlost : ((sampleMigrateEnv.identityPresent (legacyUser "bob" "pk2" (some "fp1"))).run
        ((sampleMigrateEnv.migrateLegacy true sampleIds rotated).run keyTarget).2).1.toOption =
          some false := by decide +kernel
    rintro ⟨s, w', hrun, -, hkept⟩
    rw [hrun, hkept.complete _ (List.mem_cons_of_mem _ List.mem_cons_self)] at hlost
    cases hlost

end SmirkBackend

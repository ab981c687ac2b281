import SmirkBackend.Auth.PrimaryKeys
import SmirkBackend.Auth.RestoreGovernors

/-!
# The keys a restore check compares

A user may hold several keys of one asset: the primary key, the `enc` key and the `slatepack`
address.  A restore check is to compare what is submitted with the primary keys.  It compares with
the first row of the asset, and the query orders the rows by asset only.

* `exists_getUserKeys` : the query may return the rows of an asset in any order.
* `restoreReports_iff` : the report is right exactly when the first row of every asset carries its
  primary key.
* `slatepack_first` : the report about a wallet whose slatepack address comes first.
-/

namespace SmirkBackend

open Lib (Table Prog)

/-- Rows in the order of `get_user_keys`. -/
def AssetOrder (k k' : UserKeyRow) : Prop := k.asset.ctorIdx ≤ k'.asset.ctorIdx

/-- Any order by asset is the answer about some arrangement of the table. -/
theorem exists_getUserKeys (db : Db) (u : Uuid) {stored : List UserKeyRow}
    (hperm : stored.Perm (db.userKeys.rows.filter fun k => k.userId = u))
    (horder : stored.Pairwise AssetOrder) :
    ∃ keys : Table UserKeyRow, keys.rows.Perm db.userKeys.rows ∧
      { db with userKeys := keys }.getUserKeys u = stored := by
  let others := db.userKeys.rows.filter fun k => ! decide (k.userId = u)
  have hrows : (stored ++ others).Perm db.userKeys.rows :=
    (hperm.append_right others).trans (List.filter_append_perm _ _)
  refine ⟨⟨stored ++ others, (hrows.map _).nodup_iff.mpr db.userKeys.nodup⟩, hrows, ?_⟩
  have hmine : stored.filter (fun k => decide (k.userId = u)) = stored :=
    List.filter_eq_self.mpr fun k hk => (List.mem_filter.mp (hperm.mem_iff.mp hk)).2
  have hnone : others.filter (fun k => decide (k.userId = u)) = [] := by
    simp [others, List.filter_filter]
  rw [Db.getUserKeys, List.filter_append, hmine, hnone, List.append_nil]
  exact List.Pairwise.insertionSort_eq horder

/-- A submitted entry names a known asset and is the user's primary key of it. -/
def MatchesPrimary (db : Db) (u : Uuid) (submitted : AssetPublicKey) : Prop :=
  ∃ asset, parseAsset submitted.asset = .ok asset ∧
    db.primary u asset = some submitted.publicKey

/-- Every answered check of the user reports whether all entries are primary keys. -/
def RestoreReports (env : RestoreEnv) (db : Db) (u : UserRow) : Prop :=
  ∀ (id : Uuid) (req : CheckRestoreRequest) (w w' : RestoreWorld) (resp : CheckRestoreResponse),
    w.world.db = db → db.getUserBySeedFingerprint env.pepper req.fingerprint = some u →
    req.keys ≠ [] → (checkRestore env id req).Outcome w (.ok resp) w' →
    (resp.keysValid = some true ↔ ∀ submitted ∈ req.keys, MatchesPrimary db u.id submitted)

/-- The public key of the first row of an asset. -/
def Db.firstKey (db : Db) (u : Uuid) (asset : AssetType) : Option String :=
  ((db.getUserKeys u).find? fun k => k.asset = asset).map UserKeyRow.publicKey

theorem allMatch_iff {db : Db} {u : Uuid} {keys : List AssetPublicKey} :
    allMatch (db.getUserKeys u) keys = true ↔ keys ≠ [] ∧ ∀ submitted ∈ keys, ∃ asset,
      parseAsset submitted.asset = .ok asset ∧
        db.firstKey u asset = some submitted.publicKey := by
  simp only [allMatch, Bool.and_eq_true, Bool.not_eq_true', List.isEmpty_eq_false_iff,
    List.all_eq_true]
  refine and_congr_right fun _ => forall₂_congr fun submitted _ => ?_
  cases hasset : parseAsset submitted.asset with
  | error e => simp
  | ok asset =>
    cases hfirst : (db.getUserKeys u).find? fun k => k.asset = asset <;>
      simp [Db.firstKey, hfirst]

/-- What a check of a known user answers. -/
theorem keysValid_of_outcome {env : RestoreEnv} {id : Uuid} {req : CheckRestoreRequest}
    {w w' : RestoreWorld} {resp : CheckRestoreResponse} {u : UserRow}
    (hu : w.world.db.getUserBySeedFingerprint env.pepper req.fingerprint = some u)
    (h : (checkRestore env id req).Outcome w (.ok resp) w') :
    resp.keysValid = some (allMatch (w.world.db.getUserKeys u.id) req.keys) := by
  unfold checkRestore at h
  split_ifs at h
  · cases h
  rcases Prog.outcome_read_bind h with ⟨hr, -⟩ | h
  · cases hr
  split_ifs at h
  · cases h
  rcases Prog.outcome_read_bind h with ⟨hr, -⟩ | h
  · cases hr
  split_ifs at h
  · cases h
  rcases Prog.outcome_read_bind h with ⟨hr, -⟩ | h
  · cases hr
  rw [hu] at h
  rcases Prog.outcome_read_bind h with ⟨hr, -⟩ | h
  · cases hr
  -- the recording may fail, and the answer is the same
  rcases Prog.outcome_bind h with ⟨e, -, hr⟩ | ⟨_, w₁, -, h⟩
  · cases hr
  · cases h
    rfl

/-- Where nothing was attempted yet, a check of a known user is answered. -/
theorem exists_answer {env : RestoreEnv} {db : Db} {u : UserRow} {req : CheckRestoreRequest}
    (hvalid : validFingerprint req.fingerprint = true)
    (hu : db.getUserBySeedFingerprint env.pepper req.fingerprint = some u) (id : Uuid) :
    ∃ resp w', (checkRestore env id req).Outcome ⟨⟨db, 0⟩, .empty⟩ (.ok resp) w' := by
  have hread {α : Type} (f : RestoreWorld → α) (w : RestoreWorld) :
      (Prog.read dbFault f : RestoreHandler α).Outcome w (.ok (f w)) w := .act (.ret _ _)
  have hnone (sel : RestoreAttemptRow → Bool) :
      (RestoreWorld.recent ⟨⟨db, 0⟩, .empty⟩ sel).length = 0 := rfl
  let valid := allMatch (db.getUserKeys u.id) req.keys
  refine ⟨⟨true, some valid, u.xmrStartHeight, u.wowStartHeight⟩,
    .record env id req.fingerprint (req.ip env).text valid ⟨⟨db, 0⟩, .empty⟩, ?_⟩
  unfold checkRestore
  rw [if_neg (by simp [hvalid])]
  refine (hread _ _).bind ?_
  rw [if_neg (by rw [hnone]; decide)]
  refine (hread _ _).bind ?_
  rw [if_neg (by rw [hnone]; decide)]
  refine (hread _ _).bind ?_
  rw [hu]
  refine (hread _ _).bind ?_
  exact Prog.Outcome.bind (.act (.ret _ _)) (.ret _ _)

theorem parseAsset_asStr (asset : AssetType) : parseAsset asset.asStr = .ok asset := by
  cases asset <;> rfl

/-- The report on a known user is right exactly when the first row that the query returns for an
asset carries the asset's primary key, or there is neither. -/
theorem restoreReports_iff {env : RestoreEnv} {db : Db} {u : UserRow} {fingerprint : String}
    (hvalid : validFingerprint fingerprint = true)
    (hu : db.getUserBySeedFingerprint env.pepper fingerprint = some u) :
    RestoreReports env db u ↔ ∀ asset, db.firstKey u.id asset = db.primary u.id asset := by
  constructor
  · intro h asset
    -- one entry tells the two keys apart
    have hone : ∀ publicKey, db.firstKey u.id asset = some publicKey ↔
        db.primary u.id asset = some publicKey := by
      intro publicKey
      let req : CheckRestoreRequest :=
        ⟨none, .v4 0#32, fingerprint, [⟨asset.asStr, publicKey, none⟩]⟩
      obtain ⟨resp, w', hout⟩ := @exists_answer env db u req hvalid hu 0
      have hreport := h 0 req _ w' resp rfl hu (List.cons_ne_nil _ _) hout
      rw [keysValid_of_outcome hu hout, Option.some.injEq, allMatch_iff] at hreport
      simpa [req, MatchesPrimary, parseAsset_asStr] using hreport
    exact Option.ext hone
  · intro hfirst id req w w' resp hdb hfound hkeys hout
    subst hdb
    rw [keysValid_of_outcome hfound hout, Option.some.injEq, allMatch_iff]
    simp only [MatchesPrimary, hfirst]
    exact and_iff_right hkeys

/-- A wallet that is known by its fingerprint. -/
def restoredUser : UserRow :=
  ⟨1, none, none, none, none, some "seed_fingerprint:0123456789abcdef", none, none, none⟩

/-- That wallet, with these keys. -/
def walletWith (keys : Table UserKeyRow) : Db :=
  { Db.empty with users := ⟨[restoredUser], by simp⟩, userKeys := keys }

/-- A check of one Grin key. -/
def grinCheck (publicKey : String) : CheckRestoreRequest :=
  ⟨none, .v4 0#32, "0123456789abcdef", [⟨"grin", publicKey, none⟩]⟩

/-- A wallet whose primary keys were stored first. -/
def primaryFirst : Db :=
  walletWith ⟨[⟨1, .btc, "02bb", none, "primary"⟩, ⟨1, .grin, "02aa", none, "primary"⟩,
    ⟨1, .btc, "02cc", none, "enc"⟩, ⟨1, .grin, "grin1address", none, "slatepack"⟩], by decide⟩

/-- The report on it is right. -/
theorem restoreReports_primary_first :
    RestoreReports sampleRestoreEnv primaryFirst restoredUser := by
  have hvalid : validFingerprint "0123456789abcdef" = true := by decide
  refine (restoreReports_iff hvalid (by decide)).mpr ?_
  rintro (_ | _ | _ | _ | _) <;> rfl

/-- The slatepack address was stored before the primary key. -/
def slatepackFirst : Db :=
  walletWith ⟨[⟨1, .grin, "grin1address", none, "slatepack"⟩, ⟨1, .grin, "02aa", none, "primary"⟩],
    by decide⟩

/-- The primary key is reported as wrong, and the address, which signs nothing, as right. -/
theorem slatepack_first :
    ((checkRestore sampleRestoreEnv 0 (grinCheck "02aa")).run ⟨⟨slatepackFirst, 0⟩, .empty⟩).1 =
      .ok ⟨true, some false, none, none⟩ ∧
    ((checkRestore sampleRestoreEnv 0 (grinCheck "grin1address")).run
      ⟨⟨slatepackFirst, 0⟩, .empty⟩).1 = .ok ⟨true, some true, none, none⟩ ∧
    ¬ RestoreReports sampleRestoreEnv slatepackFirst restoredUser := by
  have hrun : ((checkRestore sampleRestoreEnv 0 (grinCheck "grin1address")).run
      ⟨⟨slatepackFirst, 0⟩, .empty⟩).1 = .ok ⟨true, some true, none, none⟩ := by decide +kernel
  refine ⟨by decide +kernel, hrun, fun h => ?_⟩
  have hout := Prog.outcome_run (checkRestore sampleRestoreEnv 0 (grinCheck "grin1address"))
    ⟨⟨slatepackFirst, 0⟩, .empty⟩
  rw [hrun] at hout
  have hreport := h 0 _ _ _ _ rfl (by decide) (by simp [grinCheck]) hout
  obtain ⟨asset, hasset, hprimary⟩ := hreport.mp rfl _ (List.mem_singleton.mpr rfl)
  obtain rfl : AssetType.grin = asset := Except.ok.inj hasset
  exact absurd hprimary (by decide)

end SmirkBackend

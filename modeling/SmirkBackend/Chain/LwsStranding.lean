import SmirkBackend.Chain.LwsImport

/-!
# Wallets stranded at the chain tip

A light-wallet server adds an account at the chain tip; only the import that adds it lowers it to
its birthday, since a later one finds the account listed and leaves its scan alone.  So the account
is stranded by whatever keeps that one import from its rescan once the add is processed
(`Strands`): the answer to the add is lost, the read of the scan height fails, or three requests to
rescan are not processed.

The server is honest, but every request may be lost, refused, or processed with its answer lost
(`Serves`).  Imports follow one another (`importSystem`), and after one that succeeds the account is
covered exactly if none so far met those failures (`covered_iff`).
-/

namespace SmirkBackend

/-! ### An honest server -/

/-- An account at the server. -/
structure LwsAccount where
  /-- Height it is scanned up to. -/
  scanHeight : UInt64
  /-- Lowest height it was created at or rescanned from. -/
  since : UInt64

/-- A request with what became of it. -/
structure Served where
  /-- The request and the answer the client met. -/
  exchange : LwsExchange
  /-- The server processed the request, whether or not its answer arrived. -/
  processed : Bool
  /-- Chain tip at that time. -/
  tip : UInt64

/-- Scanning goes on between requests. -/
inductive Scans : Option LwsAccount → Option LwsAccount → Prop
  | unknown : Scans none none
  | scan {a : LwsAccount} {height : UInt64} (h : a.scanHeight ≤ height) :
      Scans (some a) (some { a with scanHeight := height })

/-- What the server replies about an address, and what becomes of its account: an account is added
once, at the tip, and a rescan lowers it. -/
inductive Processes (address : String) (tip : UInt64) :
    (q : LwsRequest) → Option LwsAccount → q.Reply → Option LwsAccount → Prop
  | getVersion {s : Option LwsAccount} (reply : LwsVersionResponse) :
      Processes address tip .getVersion s reply s
  | listAccounts {s : Option LwsAccount} {accounts : ListAccountsResponse}
      (h : accounts.scanHeight address = s.map (·.scanHeight)) :
      Processes address tip .listAccounts s accounts s
  | addAccount {viewKey : String} :
      Processes address tip (.addAccount address viewKey) none () (some ⟨tip, tip⟩)
  | provisionSubaddrs {viewKey : String} {majI minI nMaj nMin : UInt32} {getAll : Bool}
      {s : Option LwsAccount} (reply : ProvisionSubaddrsResponse) :
      Processes address tip (.provisionSubaddrs address viewKey majI minI nMaj nMin getAll) s reply s
  | rescan {a : LwsAccount} {height : UInt64} :
      Processes address tip (.rescan [address] height) (some a) () (some ⟨height, min a.since height⟩)

/-- A request is lost or refused, or processed; the reply may then be lost. -/
inductive Serves (address : String) : Option LwsAccount → Served → Option LwsAccount → Prop
  | lost {s s' : Option LwsAccount} {q : LwsRequest} {e : AppError} {tip : UInt64} :
      Scans s s' → Serves address s ⟨⟨q, .error e⟩, false, tip⟩ s'
  | unanswered {s s₁ s' : Option LwsAccount} {q : LwsRequest} {e : AppError} {tip : UInt64}
      {reply : q.Reply} : Scans s s₁ → Processes address tip q s₁ reply s' →
      Serves address s ⟨⟨q, .error e⟩, true, tip⟩ s'
  | answered {s s₁ s' : Option LwsAccount} {q : LwsRequest} {tip : UInt64} {reply : q.Reply} :
      Scans s s₁ → Processes address tip q s₁ reply s' →
      Serves address s ⟨⟨q, .ok reply⟩, true, tip⟩ s'

/-- The server, as far as one address goes. -/
def lwsServer (address : String) : Lib.System (Option LwsAccount) Served := ⟨Serves address⟩

/-! ### Imports one after the other -/

/-- An import with what its requests met. -/
structure ImportCall where
  /-- View key. -/
  viewKey : String
  /-- Subaddresses to provision. -/
  provisionMinors : UInt32
  /-- The capacity the client has cached. -/
  cached : Option UInt32
  /-- The requests. -/
  served : List Served
  /-- What the import returns. -/
  result : Except AppError Unit

/-- Imports of one address with one birthday. -/
def importSystem (c : LwsClient) (address : String) (startHeight : UInt64) :
    Lib.System (Option LwsAccount) ImportCall where
  step s call s' :=
    Lib.Remote.Trace
      (c.importAccount call.cached address call.viewKey startHeight call.provisionMinors)
      (call.served.map (·.exchange)) call.result ∧
    (lwsServer address).Run s call.served s'

/-- The client met an error: the request was lost or refused, or its answer was lost. -/
def Served.Failed (x : Served) : Prop := ∃ e, x.exchange.answer = .error e

/-- The failures of an import that strand its account.  The account is added at a tip above the
birthday, and then the answer to the add is lost, or the read of the scan height fails, or the last
three requests ask to rescan and none of them is processed. -/
def Strands (startHeight : UInt64) (served : List Served) : Prop :=
  ∃ (before : List Served) (add : Served) (rest : List Served), served = before ++ add :: rest ∧
    add.exchange.question.adds ∧ add.processed ∧ startHeight < add.tip ∧
    (add.Failed ∨ (∃ x ∈ rest, x.exchange.question = .listAccounts ∧ x.Failed) ∨
      ∃ earlier attempts : List Served, rest = earlier ++ attempts ∧ attempts.length = 3 ∧
        ∀ x ∈ attempts, x.exchange.question.rescans ∧ ¬ x.processed)

theorem min_le_height (a b : UInt64) : min a b ≤ b := by
  rw [UInt64.min_def]
  split
  · assumption
  · exact UInt64.le_refl b

section Runs

variable {address : String} {startHeight : UInt64} {c : LwsClient}

/-- What one request does to a known account. -/
theorem serves_some {a : LwsAccount} {x : Served} {s' : Option LwsAccount}
    (h : Serves address (some a) x s')
    (hrescan : x.exchange.question.rescans →
      x.exchange.question = .rescan [address] startHeight) :
    ∃ a', s' = some a' ∧
      (startHeight < a'.since ↔
        startHeight < a.since ∧ (x.processed → ¬ x.exchange.question.rescans)) ∧
      (x.processed → ¬ x.exchange.question.adds) := by
  have hprocess : ∀ {q : LwsRequest} {tip : UInt64} {s₁ : Option LwsAccount} {reply : q.Reply},
      (q.rescans → q = .rescan [address] startHeight) → Scans (some a) s₁ →
      Processes address tip q s₁ reply s' →
      ∃ a', s' = some a' ∧ (startHeight < a'.since ↔ startHeight < a.since ∧ ¬ q.rescans) ∧
        ¬ q.adds := by
    intro q tip s₁ reply hq hscan hprocess
    cases hscan
    cases hprocess with
    | getVersion => exact ⟨_, rfl, by simp [LwsRequest.rescans], Bool.false_ne_true⟩
    | listAccounts => exact ⟨_, rfl, by simp [LwsRequest.rescans], Bool.false_ne_true⟩
    | provisionSubaddrs => exact ⟨_, rfl, by simp [LwsRequest.rescans], Bool.false_ne_true⟩
    | rescan =>
      obtain ⟨-, rfl⟩ := LwsRequest.rescan.inj (hq rfl)
      refine ⟨_, rfl, ?_, Bool.false_ne_true⟩
      simpa [LwsRequest.rescans] using min_le_height _ _
  cases h with
  | lost hscan =>
    cases hscan
    exact ⟨_, rfl, by simp, by simp⟩
  | unanswered hscan hp => simpa using hprocess hrescan hscan hp
  | answered hscan hp => simpa using hprocess hrescan hscan hp

/-- Above the birthday a known account stays, unless some rescan is processed. -/
theorem run_some {a : LwsAccount} {l : List Served} {s' : Option LwsAccount}
    (h : (lwsServer address).Run (some a) l s')
    (hrescan : ∀ x ∈ l, x.exchange.question.rescans →
      x.exchange.question = .rescan [address] startHeight) :
    ∃ a', s' = some a' ∧
      (startHeight < a'.since ↔
        startHeight < a.since ∧ ∀ x ∈ l, x.processed → ¬ x.exchange.question.rescans) ∧
      ∀ x ∈ l, x.processed → ¬ x.exchange.question.adds := by
  induction l generalizing a with
  | nil =>
    cases h
    exact ⟨a, rfl, by simp, by simp⟩
  | cons x l ih =>
    cases h with
    | cons hstep hrun =>
      obtain ⟨hx, hl⟩ := List.forall_mem_cons.mp hrescan
      obtain ⟨a₁, rfl, hsince, hadds⟩ := serves_some hstep hx
      obtain ⟨a', rfl, hsince', hadds'⟩ := ih hrun hl
      refine ⟨a', rfl, ?_, List.forall_mem_cons.mpr ⟨hadds, hadds'⟩⟩
      rw [hsince', hsince, List.forall_mem_cons, and_assoc]

theorem serves_scans {a : LwsAccount} {x : Served} {s' : Option LwsAccount}
    (h : Serves address (some a) x s') (hquiet : ¬ x.exchange.question.rescans) :
    ∃ a', s' = some a' ∧ a.scanHeight ≤ a'.scanHeight := by
  cases h with
  | lost hscan =>
    cases hscan with
    | scan hle => exact ⟨_, rfl, hle⟩
  | unanswered hscan hp | answered hscan hp =>
    cases hscan with
    | scan hle =>
      cases hp with
      | rescan => exact absurd rfl hquiet
      | _ => exact ⟨_, rfl, hle⟩

theorem scanHeight_of_run {a : LwsAccount} {l : List Served} {s' : Option LwsAccount}
    (h : (lwsServer address).Run (some a) l s')
    (hquiet : ∀ x ∈ l, ¬ x.exchange.question.rescans) :
    ∃ a', s' = some a' ∧ a.scanHeight ≤ a'.scanHeight := by
  induction l generalizing a with
  | nil =>
    cases h
    exact ⟨a, rfl, UInt64.le_refl _⟩
  | cons x l ih =>
    cases h with
    | cons hstep hrun =>
      obtain ⟨hx, hl⟩ := List.forall_mem_cons.mp hquiet
      obtain ⟨a₁, rfl, hle⟩ := serves_scans hstep hx
      obtain ⟨a', rfl, hle'⟩ := ih hrun hl
      exact ⟨a', rfl, UInt64.le_trans hle hle'⟩

theorem failed_of_run {l : List Served} {s s' : Option LwsAccount}
    (h : (lwsServer address).Run s l s') : ∀ x ∈ l, ¬ x.processed → x.Failed := by
  induction h with
  | nil => exact List.forall_mem_nil _
  | cons hstep _ ih =>
    refine List.forall_mem_cons.mpr ⟨fun hnot => ?_, ih⟩
    cases hstep with
    | lost => exact ⟨_, rfl⟩
    | unanswered | answered => exact absurd rfl hnot

theorem serves_none {x : Served} {s' : Option LwsAccount} (h : Serves address none x s')
    (hadds : ¬ x.exchange.question.adds) : s' = none := by
  cases h with
  | lost hscan =>
    cases hscan
    rfl
  | unanswered hscan hp | answered hscan hp =>
    cases hscan
    cases hp with
    | addAccount => exact absurd rfl hadds
    | _ => rfl

theorem serves_list {s s' : Option LwsAccount} {x : Served} {accounts : ListAccountsResponse}
    (h : Serves address s x s') (hx : x.exchange = ⟨.listAccounts, .ok accounts⟩) :
    Scans s s' ∧ accounts.scanHeight address = s'.map (·.scanHeight) := by
  cases h with
  | lost => cases hx
  | unanswered => cases hx
  | answered hscan hp =>
    cases hx
    cases hp with
    | listAccounts h => exact ⟨hscan, h⟩

theorem serves_add {x : Served} {s' : Option LwsAccount} {viewKey : String}
    (h : Serves address none x s')
    (hx : x.exchange.question = .addAccount address viewKey) :
    (s' = none ∧ x.processed = false ∧ x.Failed) ∨
      s' = some ⟨x.tip, x.tip⟩ ∧ x.processed = true := by
  cases h with
  | lost hscan =>
    cases hscan
    exact .inl ⟨rfl, rfl, _, rfl⟩
  | unanswered hscan hp | answered hscan hp =>
    cases hscan
    cases hx
    cases hp
    exact .inr ⟨rfl, rfl⟩

/-- Where a list ends in as many rescans as it has, there are no others. -/
theorem not_rescans_of_length {lp la earlier attempts : List Served} {y : Served}
    (hsplit : lp ++ y :: la = earlier ++ attempts)
    (hquiet : ∀ x ∈ lp, ¬ x.exchange.question.rescans) (hy : ¬ y.exchange.question.rescans)
    (hlength : la.length ≤ attempts.length)
    (hattempts : ∀ x ∈ attempts, x.exchange.question.rescans) :
    ∀ x ∈ earlier, ¬ x.exchange.question.rescans := by
  refine List.countP_eq_zero.mp ?_
  have hwhole := congrArg (List.countP fun x : Served => x.exchange.question.rescans) hsplit
  have hcount := List.countP_eq_length.mpr hattempts
  have hnone := List.countP_eq_zero.mpr hquiet
  have hle := List.countP_le_length (p := fun x : Served => x.exchange.question.rescans) (l := la)
  simp only [List.countP_append, List.countP_cons, hy, hnone, hcount, Bool.false_eq_true,
    if_false] at hwhole
  omega

/-- After the add: no rescan is processed exactly if the read of the scan height fails or three
requests to rescan are not processed. -/
theorem unscanned_iff {a : LwsAccount} {l : List Served} {s' : Option LwsAccount}
    {tp tr : List LwsExchange} {rr : Except AppError Unit}
    (hrun : (lwsServer address).Run (some a) l s') (habove : startHeight < a.scanHeight)
    (hmap : l.map (·.exchange) = tp ++ tr) (hprovisions : ∀ x ∈ tp, x.question.provisions)
    (htrace : Lib.Remote.Trace (LwsClient.rescanBackTo address startHeight) tr rr) :
    (∀ x ∈ l, x.processed → ¬ x.exchange.question.rescans) ↔
      (∃ x ∈ l, x.exchange.question = .listAccounts ∧ x.Failed) ∨
      ∃ earlier attempts : List Served, l = earlier ++ attempts ∧ attempts.length = 3 ∧
        ∀ x ∈ attempts, x.exchange.question.rescans ∧ ¬ x.processed := by
  obtain ⟨answer, tries, rfl, hlength, hask, hread, hdue, hthree, -⟩ :=
    LwsClient.rescan_attempts htrace
  obtain ⟨lp, lr, rfl, rfl, hrest⟩ := List.map_eq_append_iff.mp hmap
  obtain ⟨y, la, rfl, hy, rfl⟩ := List.map_eq_cons_iff.mp hrest
  have hyq : y.exchange.question = .listAccounts := by rw [hy]
  have hlp : ∀ x ∈ lp, x.exchange.question.provisions := fun x hx =>
    hprovisions _ (List.mem_map_of_mem hx)
  have hla : ∀ x ∈ la, x.exchange.question = .rescan [address] startHeight := fun x hx =>
    hask _ (List.mem_map_of_mem hx)
  have hquiet : ∀ x ∈ lp, ¬ x.exchange.question.rescans := fun x hx =>
    (LwsRequest.provisions_only (hlp x hx)).1
  constructor
  · intro hnone
    cases answer with
    | error e =>
      refine .inl ⟨y, by simp, hyq, ?_⟩
      rw [Served.Failed, hy]
      exact ⟨e, rfl⟩
    | ok accounts =>
      -- the account is listed where it is, which is above the birthday
      obtain ⟨s₁, hbefore, hafter⟩ := hrun.split
      obtain ⟨a₁, rfl, hle₁⟩ := scanHeight_of_run hbefore hquiet
      have hfailed := failed_of_run hafter
      have hdueNow : RescanDue startHeight (accounts.scanHeight address) := by
        cases hafter with
        | cons hstep _ =>
          obtain ⟨hscan, hlists⟩ := serves_list hstep hy
          cases hscan with
          | scan hle =>
            rw [hlists]
            exact UInt64.lt_of_lt_of_le habove (UInt64.le_trans hle₁ hle)
      have hlost : ∀ x ∈ la, ¬ x.processed := by
        intro x hx hprocessed
        refine hnone x (by simp [hx]) hprocessed ?_
        rw [hla x hx]
        rfl
      have hthree' : la.map (·.exchange) = [] ∨ (la.map (·.exchange)).length = 3 := by
        refine hthree fun x hx => ?_
        obtain ⟨z, hz, rfl⟩ := List.mem_map.mp hx
        exact hfailed z (by simp [hz]) (hlost z hz)
      refine .inr ⟨lp ++ [y], la, by simp, ?_, ?_⟩
      · simpa using hthree'.resolve_left (hdue accounts rfl hdueNow)
      · intro x hx
        refine ⟨?_, hlost x hx⟩
        rw [hla x hx]
        rfl
  · rintro (⟨x, hx, hxq, hfail⟩ | ⟨earlier, attempts, hsplit, hcount, hlost⟩)
    · -- the only read is `y`, and without its answer nothing is rescanned
      have hxy : x = y := by
        rcases List.mem_append.mp hx with hx | hx
        · have hkind := hlp x hx
          rw [hxq] at hkind
          cases hkind
        · rcases List.mem_cons.mp hx with rfl | hx
          · rfl
          · have hkind := hla x hx
            rw [hxq] at hkind
            cases hkind
      subst hxy
      have hnil : la.map (·.exchange) = [] := by
        by_contra hne
        obtain ⟨accounts, rfl, -⟩ := hread hne
        rw [Served.Failed, hy] at hfail
        obtain ⟨e, he⟩ := hfail
        cases he
      obtain rfl := List.map_eq_nil_iff.mp hnil
      intro z hz _
      rcases List.mem_append.mp hz with hz | hz
      · exact hquiet z hz
      · rw [List.mem_singleton.mp hz, hyq]
        exact Bool.false_ne_true
    · have hothers : ∀ x ∈ earlier, ¬ x.exchange.question.rescans := by
        refine not_rescans_of_length hsplit hquiet ?_ ?_ fun x hx => (hlost x hx).1
        · rw [hyq]
          exact Bool.false_ne_true
        · rw [List.length_map] at hlength
          omega
      intro x hx hprocessed
      rw [hsplit] at hx
      rcases List.mem_append.mp hx with hx | hx
      · exact hothers x hx
      · exact absurd hprocessed (hlost x hx).2

/-- An import of a known account rescans nothing. -/
theorem import_some {a : LwsAccount} {call : ImportCall} {s' : Option LwsAccount}
    (h : (importSystem c address startHeight).step (some a) call s') :
    ∃ a', s' = some a' ∧ (startHeight < a'.since ↔ startHeight < a.since) ∧
      ¬ Strands startHeight call.served := by
  obtain ⟨htrace, hrun⟩ := h
  have hquiet : ∀ x ∈ call.served, ¬ x.exchange.question.rescans := by
    -- the server lists the account, so the import takes one of the branches without a rescan
    have hlisted : ∀ accounts rest, call.served.map (·.exchange) =
        ⟨.listAccounts, .ok accounts⟩ :: rest → (accounts.scanHeight address).isSome := by
      intro accounts rest hmap
      obtain ⟨x, l, hl, hx, -⟩ := List.map_eq_cons_iff.mp hmap
      rw [hl] at hrun
      cases hrun with
      | cons hstep _ =>
        obtain ⟨hscan, hlists⟩ := serves_list hstep hx
        rw [hlists]
        cases hscan
        rfl
    have hmem : ∀ x ∈ call.served, x.exchange ∈ call.served.map (·.exchange) := fun x hx =>
      List.mem_map_of_mem hx
    have hdiscipline := import_discipline htrace
    obtain ⟨answer, rest, hreads⟩ := hdiscipline.reads
    cases answer with
    | ok accounts =>
      intro x hx
      exact hdiscipline.listed accounts rest hreads (hlisted accounts rest hreads) _ (hmem x hx)
    | error e =>
      rcases LwsClient.trace_importAccount htrace with ⟨e, ht, -⟩ | ⟨_, _, _, _, -, ht, -, -⟩ |
        ⟨_, _, -, ht, -⟩ | ⟨_, _, _, _, _, -, ht, -, -, -⟩
      · intro x hx
        have hone := hmem x hx
        rw [ht, List.mem_singleton] at hone
        rw [hone]
        exact Bool.false_ne_true
      all_goals
        rw [hreads] at ht
        have hanswer := (List.cons.inj ht).1
        simp at hanswer
  obtain ⟨a', rfl, hsince, hadds⟩ := run_some hrun fun x hx hr => absurd hr (hquiet x hx)
  refine ⟨a', rfl, ?_, ?_⟩
  · rw [hsince]
    exact and_iff_left fun x hx _ => hquiet x hx
  · rintro ⟨before, add, rest, hserved, hadd, hprocessed, -⟩
    exact hadds add (by simp [hserved]) hprocessed hadd

/-- What becomes of an unknown account when an import reads the accounts and then adds it. -/
theorem run_of_add {l : List Served} {s' : Option LwsAccount} {accounts : ListAccountsResponse}
    {viewKey : String} {answer : Except AppError Unit} {t : List LwsExchange}
    (hrun : (lwsServer address).Run none l s')
    (hmap : l.map (·.exchange) =
      ⟨.listAccounts, .ok accounts⟩ :: ⟨.addAccount address viewKey, answer⟩ :: t) :
    ∃ x y rest, l = x :: y :: rest ∧ x.exchange.question = .listAccounts ∧
      y.exchange = ⟨.addAccount address viewKey, answer⟩ ∧ rest.map (·.exchange) = t ∧
      ((y.processed = false ∧ y.Failed ∧ (lwsServer address).Run none rest s') ∨
        y.processed ∧ (lwsServer address).Run (some ⟨y.tip, y.tip⟩) rest s') := by
  obtain ⟨x, l, rfl, hx, hrest⟩ := List.map_eq_cons_iff.mp hmap
  obtain ⟨y, rest, rfl, hy, hrest⟩ := List.map_eq_cons_iff.mp hrest
  have hxq : x.exchange.question = .listAccounts := by rw [hx]
  have hyq : y.exchange.question = .addAccount address viewKey := by rw [hy]
  refine ⟨x, y, rest, rfl, hxq, hy, hrest, ?_⟩
  cases hrun with
  | cons hstep hrun =>
    obtain rfl := serves_none hstep (by simp [hxq, LwsRequest.adds])
    cases hrun with
    | cons hstep hrun =>
      rcases serves_add hstep hyq with ⟨rfl, hlost, hfailed⟩ | ⟨rfl, hprocessed⟩
      · exact .inl ⟨hlost, hfailed, hrun⟩
      · exact .inr ⟨hprocessed, hrun⟩

/-- The one add of an import is where it strands its account. -/
theorem strands_iff_of_add {x y : Served} {rest : List Served} (hx : ¬ x.exchange.question.adds)
    (hy : y.exchange.question.adds)
    (hrest : ∀ z ∈ rest, z.processed → ¬ z.exchange.question.adds) :
    Strands startHeight (x :: y :: rest) ↔ y.processed ∧ startHeight < y.tip ∧
      (y.Failed ∨ (∃ z ∈ rest, z.exchange.question = .listAccounts ∧ z.Failed) ∨
        ∃ earlier attempts : List Served, rest = earlier ++ attempts ∧ attempts.length = 3 ∧
          ∀ z ∈ attempts, z.exchange.question.rescans ∧ ¬ z.processed) := by
  constructor
  · rintro ⟨before, add, after, hserved, hadd, hadded, htip, hfailures⟩
    cases before with
    | nil =>
      obtain ⟨rfl, -⟩ := List.cons.inj hserved
      exact absurd hadd hx
    | cons x' before =>
      obtain ⟨-, hserved⟩ := List.cons.inj hserved
      cases before with
      | nil =>
        obtain ⟨rfl, rfl⟩ := List.cons.inj hserved
        exact ⟨hadded, htip, hfailures⟩
      | cons y' before =>
        obtain ⟨-, rfl⟩ := List.cons.inj hserved
        exact absurd hadd (hrest add (by simp) hadded)
  · rintro ⟨hprocessed, htip, hfailures⟩
    exact ⟨[x], y, rest, rfl, hy, hprocessed, htip, hfailures⟩

/-- An import of an unknown account fails and leaves it unknown, or makes it known: above the
birthday exactly if it met the failures that strand it. -/
theorem import_none {call : ImportCall} {s' : Option LwsAccount}
    (h : (importSystem c address startHeight).step none call s') :
    (s' = none ∧ call.result ≠ .ok () ∧ ¬ Strands startHeight call.served) ∨
      ∃ a', s' = some a' ∧ (startHeight < a'.since ↔ Strands startHeight call.served) := by
  obtain ⟨htrace, hrun⟩ := h
  rcases LwsClient.trace_importAccount htrace with ⟨e, ht, hr⟩ |
    ⟨accounts, height, tp, rp, hlisted, ht, -, hr⟩ | ⟨accounts, e, -, ht, hr⟩ |
    ⟨accounts, tp, tr, rp, rr, -, ht, hp, hrescan, hr⟩
  · -- only the read, which failed
    obtain ⟨x, hl, hx⟩ := List.map_eq_singleton_iff.mp ht
    have hquestion : x.exchange.question = .listAccounts := by rw [hx]
    rw [hl] at hrun
    cases hrun with
    | cons hstep hrest =>
      cases hrest
      refine .inl ⟨serves_none hstep (by simp [hquestion, LwsRequest.adds]), by simp [hr], ?_⟩
      rintro ⟨before, add, rest, hserved, hadd, -⟩
      have hmem : add ∈ call.served := by simp [hserved]
      rw [hl, List.mem_singleton] at hmem
      rw [hmem, hquestion] at hadd
      cases hadd
  · -- an honest server does not list an unknown account
    obtain ⟨x, l, hl, hx, -⟩ := List.map_eq_cons_iff.mp ht
    rw [hl] at hrun
    cases hrun with
    | cons hstep _ =>
      obtain ⟨hscan, hlists⟩ := serves_list hstep hx
      cases hscan
      rw [hlisted] at hlists
      cases hlists
  · -- the read and an add that was not answered
    obtain ⟨x, y, rest, hl, hxq, hy, hmap, hadd⟩ := run_of_add hrun ht
    obtain rfl := List.map_eq_nil_iff.mp hmap
    have hstrands : Strands startHeight call.served ↔ y.processed ∧ startHeight < y.tip := by
      rw [hl, strands_iff_of_add (by simp [hxq, LwsRequest.adds]) (by simp [hy, LwsRequest.adds])
        (by simp)]
      have hfailed : y.Failed := ⟨e, by rw [hy]⟩
      simp [hfailed]
    rw [hstrands]
    rcases hadd with ⟨hlost, -, hrest⟩ | ⟨hprocessed, hrest⟩
    · cases hrest
      exact .inl ⟨rfl, by simp [hr], by simp [hlost]⟩
    · cases hrest
      exact .inr ⟨_, rfl, by simp [hprocessed]⟩
  · -- the read, the add, and whatever follows it
    obtain ⟨x, y, rest, hl, hxq, hy, hmap, hadd⟩ := run_of_add hrun ht
    have hyok : ¬ y.Failed := by
      rw [Served.Failed, hy]
      rintro ⟨e, he⟩
      cases he
    rcases hadd with ⟨-, hfailed, -⟩ | ⟨hprocessed, hrest⟩
    · exact absurd hfailed hyok
    obtain ⟨hprovisions, -⟩ := LwsClient.trace_provisionAccount0Covering hp
    have hasks : ∀ z ∈ rest, z.exchange.question.rescans →
        z.exchange.question = .rescan [address] startHeight := by
      intro z hz hzr
      obtain ⟨before, after, hsplit⟩ := List.append_of_mem hz
      have hwhole : call.served.map (·.exchange) =
          (x :: y :: before).map (·.exchange) ++ z.exchange :: after.map (·.exchange) := by
        rw [hl, hsplit]
        simp
      exact ((import_discipline htrace).lowers _ _ _ hwhole hzr).1
    obtain ⟨a', rfl, hsince, hadds⟩ := run_some hrest hasks
    refine .inr ⟨a', rfl, hsince.trans ?_⟩
    rw [hl, strands_iff_of_add (by simp [hxq, LwsRequest.adds]) (by simp [hy, LwsRequest.adds])
      hadds, or_iff_right hyok]
    constructor
    · rintro ⟨htip, hnone⟩
      exact ⟨hprocessed, htip, (unscanned_iff hrest htip hmap hprovisions hrescan).mp hnone⟩
    · rintro ⟨-, htip, hfailures⟩
      exact ⟨htip, (unscanned_iff hrest htip hmap hprovisions hrescan).mpr hfailures⟩

/-- Along every run from an unknown account: it is unknown and no import has succeeded or stranded
it, or it is above its birthday exactly if some import stranded it. -/
theorem run_imports {calls : List ImportCall} {s : Option LwsAccount}
    (hrun : (importSystem c address startHeight).Run none calls s) :
    (s = none ∧ ∀ call ∈ calls, call.result ≠ .ok () ∧ ¬ Strands startHeight call.served) ∨
      ∃ a, s = some a ∧
        (startHeight < a.since ↔ ∃ call ∈ calls, Strands startHeight call.served) := by
  refine hrun.history (I := fun calls s =>
    (s = none ∧ ∀ call ∈ calls, call.result ≠ .ok () ∧ ¬ Strands startHeight call.served) ∨
      ∃ a, s = some a ∧
        (startHeight < a.since ↔ ∃ call ∈ calls, Strands startHeight call.served))
    (.inl ⟨rfl, by simp⟩) ?_
  rintro past s₁ call s₂ hstep (⟨rfl, hpast⟩ | ⟨a, rfl, hsince⟩)
  · have hnever : ¬ ∃ call ∈ past, Strands startHeight call.served := by
      rintro ⟨earlier, hmem, hstrands⟩
      exact (hpast earlier hmem).2 hstrands
    rcases import_none hstep with ⟨rfl, hresult, hstrands⟩ | ⟨a', rfl, hsince⟩
    · refine .inl ⟨rfl, List.forall_mem_append.mpr ⟨hpast, ?_⟩⟩
      exact List.forall_mem_singleton.mpr ⟨hresult, hstrands⟩
    · refine .inr ⟨a', rfl, ?_⟩
      rw [hsince]
      simp only [List.mem_append, List.mem_singleton, or_and_right, exists_or, exists_eq_left,
        or_iff_right hnever]
  · obtain ⟨a', rfl, hsame, hstrands⟩ := import_some hstep
    refine .inr ⟨a', rfl, ?_⟩
    rw [hsame, hsince]
    simp only [List.mem_append, List.mem_singleton, or_and_right, exists_or, exists_eq_left,
      or_iff_left hstrands]

/-- **When a registered wallet is covered.**  After an import that succeeded, the account exists,
and it was created or rescanned at or below the birthday exactly if no import so far met the
failures that strand it. -/
theorem covered_iff {calls : List ImportCall} {call : ImportCall} {s : Option LwsAccount}
    (hrun : (importSystem c address startHeight).Run none (calls ++ [call]) s)
    (hok : call.result = .ok ()) :
    (∃ a, s = some a ∧ a.since ≤ startHeight) ↔
      ∀ earlier ∈ calls ++ [call], ¬ Strands startHeight earlier.served := by
  rcases run_imports hrun with ⟨-, hfail⟩ | ⟨a, rfl, hsince⟩
  · exact absurd hok (hfail call (by simp)).1
  · constructor
    · rintro ⟨_, heq, hle⟩ earlier hmem hstrands
      obtain rfl := Option.some.inj heq
      exact absurd (hsince.mpr ⟨earlier, hmem, hstrands⟩) (UInt64.not_lt.mpr hle)
    · intro hnone
      refine ⟨a, rfl, UInt64.not_lt.mp fun hlt => ?_⟩
      obtain ⟨earlier, hmem, hstrands⟩ := hsince.mp hlt
      exact hnone earlier hmem hstrands

end Runs

/-! ### A lost answer -/

/-- An import whose add is processed and not answered. -/
def ImportCall.unanswered : ImportCall where
  viewKey := "77"
  provisionMinors := 0
  cached := none
  served := [⟨⟨.listAccounts, .ok .empty⟩, true, 1000⟩,
    ⟨⟨.addAccount "4a" "77", .error (.nodeError "monero LWS add_account request failed: timeout")⟩,
      true, 1000⟩]
  result := .error (.nodeError "monero LWS add_account request failed: timeout")

/-- An import that finds the account at the tip. -/
def ImportCall.again : ImportCall where
  viewKey := "77"
  provisionMinors := 0
  cached := none
  served := [⟨⟨.listAccounts, .ok (.sample 1000)⟩, true, 1000⟩]
  result := .ok ()

/-- An import whose add is lost. -/
def ImportCall.unadded : ImportCall where
  viewKey := "77"
  provisionMinors := 2
  cached := none
  served := [⟨⟨.listAccounts, .ok .empty⟩, true, 900⟩,
    ⟨⟨.addAccount "4a" "77", .error (.nodeError "monero LWS add_account request failed: timeout")⟩,
      false, 900⟩]
  result := .error (.nodeError "monero LWS add_account request failed: timeout")

/-- An import that adds the account and rescans it at the third attempt. -/
def ImportCall.rescued : ImportCall where
  viewKey := "77"
  provisionMinors := 2
  cached := none
  served := importSampleTrace.map fun x => ⟨x, x.answer.isOk, 1000⟩
  result := .ok ()

/-- The second import succeeds and the account stays at the tip, five hundred blocks above its
birthday. -/
theorem unanswered_add_strands :
    ∃ (calls : List ImportCall) (call : ImportCall) (s : Option LwsAccount),
      (importSystem .importSample "4a" 500).Run none (calls ++ [call]) s ∧ call.result = .ok () ∧
      s = some ⟨1000, 1000⟩ ∧ ¬ ∃ a, s = some a ∧ a.since ≤ 500 := by
  have hscan : Scans (some ⟨1000, 1000⟩) (some ⟨1000, 1000⟩) := .scan (UInt64.le_refl 1000)
  refine ⟨[.unanswered], .again, some ⟨1000, 1000⟩, ?_, rfl, rfl, ?_⟩
  · have hfirst : (lwsServer "4a").Run none ImportCall.unanswered.served (some ⟨1000, 1000⟩) :=
      .cons (.answered .unknown (.listAccounts rfl))
        (.cons (.unanswered .unknown .addAccount) (.nil _))
    have hsecond : (lwsServer "4a").Run (some ⟨1000, 1000⟩) ImportCall.again.served
        (some ⟨1000, 1000⟩) := .cons (.answered hscan (.listAccounts rfl)) (.nil _)
    exact .cons ⟨.ask _ (.ask _ (.fail _)), hfirst⟩ (.cons ⟨.ask _ (.ret ()), hsecond⟩ (.nil _))
  · rintro ⟨_, heq, hle⟩
    obtain rfl := Option.some.inj heq
    exact absurd hle (by decide)

theorem not_strands_unadded : ¬ Strands 500 ImportCall.unadded.served := by
  rintro ⟨before, add, rest, hserved, hadds, hprocessed, -⟩
  have hnone : ∀ x ∈ ImportCall.unadded.served, x.exchange.question.adds → ¬ x.processed := by
    decide
  exact hnone add (by simp [hserved]) hadds hprocessed

/-- Its add and its read were answered, and one of the last three requests was processed. -/
theorem not_strands_rescued : ¬ Strands 500 ImportCall.rescued.served := by
  have hanswered : ∀ x ∈ ImportCall.rescued.served,
      x.exchange.question.adds ∨ x.exchange.question = .listAccounts → x.exchange.answer.isOk := by
    decide
  rintro ⟨before, add, rest, hserved, hadds, -, -, ⟨e, he⟩ | ⟨x, hx, hread, e, he⟩ |
    ⟨earlier, attempts, rfl, hcount, hlost⟩⟩
  · have hok := hanswered add (by simp [hserved]) (.inl hadds)
    rw [he] at hok
    cases hok
  · have hok := hanswered x (by simp [hserved, hx]) (.inr hread)
    rw [he] at hok
    cases hok
  · -- the last request is one of the three
    have hne : attempts ≠ [] := by
      rintro rfl
      cases hcount
    have hlast : attempts.getLast? = ImportCall.rescued.served.getLast? := by
      rw [hserved]
      simp [List.getLast?_eq_getLast_of_ne_nil, hne]
    have hmem : (⟨⟨.rescan ["4a"] 500, .ok ()⟩, true, 1000⟩ : Served) ∈ attempts :=
      List.mem_of_getLast? hlast
    exact (hlost _ hmem).2 rfl

/-- An account that is added by the second import and rescanned at the third attempt is covered. -/
theorem rescued_covers :
    ∃ s : Option LwsAccount,
      (importSystem .importSample "4a" 500).Run none ([.unadded] ++ [.rescued]) s ∧
      ∃ a, s = some a ∧ a.since ≤ 500 := by
  have hscan : Scans (some ⟨1000, 1000⟩) (some ⟨1000, 1000⟩) := .scan (UInt64.le_refl 1000)
  have hfirst : (lwsServer "4a").Run none ImportCall.unadded.served none :=
    .cons (.answered .unknown (.listAccounts rfl)) (.cons (.lost .unknown) (.nil _))
  have hsecond : (lwsServer "4a").Run none ImportCall.rescued.served
      (some ⟨500, min 1000 500⟩) :=
    .cons (.answered .unknown (.listAccounts rfl))
      (.cons (.answered .unknown .addAccount)
        (.cons (.answered hscan (.getVersion _))
          (.cons (.lost hscan)
            (.cons (.answered hscan (.provisionSubaddrs _))
              (.cons (.answered hscan (.listAccounts rfl))
                (.cons (.lost hscan) (.cons (.lost hscan)
                  (.cons (.answered hscan .rescan) (.nil _)))))))))
  have hrun : (importSystem .importSample "4a" 500).Run none ([.unadded] ++ [.rescued])
      (some ⟨500, min 1000 500⟩) :=
    .cons ⟨.ask _ (.ask _ (.fail _)), hfirst⟩ (.cons ⟨trace_importSample, hsecond⟩ (.nil _))
  refine ⟨_, hrun, (covered_iff hrun rfl).mpr ?_⟩
  intro call hcall
  rcases List.mem_append.mp hcall with hcall | hcall
  · obtain rfl := List.mem_singleton.mp hcall
    exact not_strands_unadded
  · obtain rfl := List.mem_singleton.mp hcall
    exact not_strands_rescued

end SmirkBackend

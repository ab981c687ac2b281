import SmirkBackend.Admin.Login
import SmirkBackend.Lib.JsonText

/-!
# Keyed hashes of the operator's tables

Rows of the operator's tables carry a keyed hash of their columns under one secret.  A domain
separates the tables, and each table has a canonical text for its columns.  The keyed hash is a
parameter; that the messages of different rows differ is proved.

A message has one domain and one value (`pepperedMessage_inj`), and the covered columns can be read
off it (`keyMessage_injective`, `latchMessage_inj`, `chainMessage_inj`).
-/

namespace SmirkBackend

open Lib

/-! ### Domains -/

/-- The separator of the parts of a message. -/
def unitSeparator : Char := '\x1f'

/-- What is hashed for a value under a domain. -/
def pepperedMessage (domain value : String) : String :=
  domain ++ String.singleton unitSeparator ++ value

/-- `peppered_hex` under the integrity secret. -/
def pepperedHex (hmac : String → String) (domain value : String) : String :=
  hmac (pepperedMessage domain value)

theorem split_first {α : Type*} {c : α} {a a' s s' : List α} (ha : c ∉ a) (ha' : c ∉ a')
    (h : a ++ c :: s = a' ++ c :: s') : a = a' ∧ s = s' := by
  induction a generalizing a' with
  | nil =>
    cases a' with
    | nil => exact ⟨rfl, (List.cons.inj h).2⟩
    | cons x a' => exact absurd (List.cons.inj h).1 (by rintro rfl; simp at ha')
  | cons x a ih =>
    cases a' with
    | nil => exact absurd (List.cons.inj h).1 (by rintro rfl; simp at ha)
    | cons y a' =>
      obtain ⟨rfl, htail⟩ := List.cons.inj h
      obtain ⟨rfl, rfl⟩ := ih (by simp_all) (by simp_all) htail
      exact ⟨rfl, rfl⟩

theorem split_last {α : Type*} {c : α} {a a' s s' : List α} (hs : c ∉ s) (hs' : c ∉ s')
    (h : a ++ c :: s = a' ++ c :: s') : a = a' ∧ s = s' := by
  have hrev := congrArg List.reverse h
  simp only [List.reverse_append, List.reverse_cons, List.append_assoc, List.singleton_append]
    at hrev
  obtain ⟨hs_eq, ha_eq⟩ := split_first (by simpa using hs) (by simpa using hs') hrev
  exact ⟨List.reverse_inj.mp ha_eq, List.reverse_inj.mp hs_eq⟩

theorem notMem_of_printable {s : List Char} (h : Printable s) : unitSeparator ∉ s := by
  intro hmem
  exact absurd (h _ hmem) (by decide)

/-- A message has one domain and one value. -/
theorem pepperedMessage_inj {d d' v v' : String} (hd : unitSeparator ∉ d.toList)
    (hd' : unitSeparator ∉ d'.toList) (h : pepperedMessage d v = pepperedMessage d' v') :
    d = d' ∧ v = v' := by
  have hlist := congrArg String.toList h
  simp only [pepperedMessage, String.toList_append, String.toList_singleton, List.append_assoc,
    List.singleton_append] at hlist
  obtain ⟨hd_eq, hv_eq⟩ := split_first hd hd' hlist
  exact ⟨String.toList_inj.mp hd_eq, String.toList_inj.mp hv_eq⟩

/-! ### The allowlist -/

/-- The canonical text of the covered columns of an allowlist entry. -/
def adminKeyCanonical (i : AdminKeyMacInput) : List Char :=
  bracketText (commaText quoted (commaText quoted (commaText quoted (commaText intText
    (commaText (optionText intText) (commaText (optionText intText) (optionText intText)))))))
    (uuidText i.id, i.pubkey, i.scope, i.createdAt, i.activatedAt, i.activationDeadline,
      i.revokedAt)

/-- What is hashed for an allowlist entry. -/
def keyMessage (i : AdminKeyMacInput) : String :=
  pepperedMessage "admin_key_mac" (String.ofList (adminKeyCanonical i))

/-- `compute_admin_key_mac`. -/
def computeAdminKeyMac (hmac : String → String) (i : AdminKeyMacInput) : String :=
  pepperedHex hmac "admin_key_mac" (String.ofList (adminKeyCanonical i))

theorem adminKeyCanonical_injective {i i' : AdminKeyMacInput}
    (h : adminKeyCanonical i = adminKeyCanonical i') : i = i' := by
  have hcancels := cancels_commaText cancels_quoted (cancels_commaText cancels_quoted
    (cancels_commaText cancels_quoted (cancels_commaText cancels_intText
      (cancels_commaText cancels_optionText_intText
        (cancels_commaText cancels_optionText_intText cancels_optionText_intText)))))
  have htuple := bracketText_injective hcancels h
  simp only [Prod.mk.injEq] at htuple
  obtain ⟨hid, hpubkey, hscope, hcreated, hactivated, hdeadline, hrevoked⟩ := htuple
  obtain ⟨id, pubkey, scope, createdAt, activatedAt, activationDeadline, revokedAt⟩ := i
  obtain rfl := uuidText_injective hid
  simp_all

/-- The covered columns of an entry can be read off the message. -/
theorem keyMessage_injective {i i' : AdminKeyMacInput} (h : keyMessage i = keyMessage i') :
    i = i' := by
  obtain ⟨-, hvalue⟩ := pepperedMessage_inj (by decide) (by decide) h
  exact adminKeyCanonical_injective (String.ofList_inj.mp hvalue)

/-! ### The latch -/

/-- What is hashed for the latch. -/
def latchMessage (setupState : String) (completed : Option Timestamp) : String :=
  pepperedMessage "server_config"
    (setupState ++ String.singleton unitSeparator ++ String.ofList (optionText intText completed))

/-- `latch_mac`. -/
def latchMac (hmac : String → String) (setupState : String) (completed : Option Timestamp) :
    String :=
  pepperedHex hmac "server_config"
    (setupState ++ String.singleton unitSeparator ++ String.ofList (optionText intText completed))

theorem printable_optionText_intText (completed : Option Timestamp) :
    Printable (optionText intText completed) := by
  cases completed with
  | none => simp [optionText]
  | some t =>
    refine printable_of_isNumberChar fun c hc => ?_
    rcases mem_intText hc with hdigit | rfl
    · simp [isNumberChar, hdigit]
    · decide

/-- The covered columns of the latch can be read off the message. -/
theorem latchMessage_inj {s s' : String} {t t' : Option Timestamp}
    (h : latchMessage s t = latchMessage s' t') : s = s' ∧ t = t' := by
  obtain ⟨-, hvalue⟩ := pepperedMessage_inj (by decide) (by decide) h
  have hlist := congrArg String.toList hvalue
  simp only [String.toList_append, String.toList_singleton, List.append_assoc,
    List.singleton_append, String.toList_ofList] at hlist
  -- no separator occurs in the instant, so the last one ends the state
  obtain ⟨hs, ht⟩ := split_last (notMem_of_printable (printable_optionText_intText t))
    (notMem_of_printable (printable_optionText_intText t')) hlist
  have hend : ∀ t t' : Option Timestamp, optionText intText t ++ [] = optionText intText t' ++ [] →
      t = t' := fun t t' heq => (cancels_optionText_intText (by simp [Ends]) (by simp [Ends]) heq).1
  exact ⟨String.toList_inj.mp hs, hend t t' (by simpa using ht)⟩

/-! ### The audit chain -/

/-- The canonical text of an audit row. -/
def auditCanonical (ft : FloatText) (seq : Int64) (e : NewAdminAudit) (createdAt : Timestamp) :
    List Char :=
  bracketText (commaText intText (commaText quoted (commaText quoted (commaText (optionText quoted)
    (commaText (optionText quoted) (commaText (Json.text ft) (commaText (optionText quoted)
      intText)))))))
    (seq.toInt, e.action, e.actorKind, e.actorPubkeyPrefix, e.target, e.details.getD .null,
      e.ipAddress, createdAt)

/-- What is hashed for an audit row. -/
def chainMessage (ft : FloatText) (prevHash : String) (seq : Int64) (e : NewAdminAudit)
    (createdAt : Timestamp) : String :=
  pepperedMessage "admin_audit" (prevHash ++ String.singleton unitSeparator ++
    String.ofList (auditCanonical ft seq e createdAt))

/-- `chain_hash`. -/
def chainHash (ft : FloatText) (hmac : String → String) : ChainHash :=
  fun prevHash seq e createdAt => pepperedHex hmac "admin_audit"
    (prevHash ++ String.singleton unitSeparator ++
      String.ofList (auditCanonical ft seq e createdAt))

/-- The columns of an entry that the chain covers: absent details are hashed like `null`. -/
def NewAdminAudit.covered (e : NewAdminAudit) :
    String × String × Option String × Option String × Json × Option String :=
  (e.action, e.actorKind, e.actorPubkeyPrefix, e.target, e.details.getD .null, e.ipAddress)

theorem printable_auditCanonical (ft : FloatText) (seq : Int64) (e : NewAdminAudit)
    (createdAt : Timestamp) : Printable (auditCanonical ft seq e createdAt) := by
  have hint : ∀ n : ℤ, Printable (intText n) := fun n => printable_optionText_intText (some n)
  have hquoted : ∀ s : Option String, Printable (optionText quoted s) := by
    intro s
    cases s with
    | none => simp [optionText]
    | some s => exact printable_quoted s
  simp [auditCanonical, bracketText, commaText, hint, hquoted, printable_quoted, printable_text]

/-- The covered columns of an audit row can be read off the message. -/
theorem chainMessage_inj {ft : FloatText} {prev prev' : String} {seq seq' : Int64}
    {e e' : NewAdminAudit} {t t' : Timestamp}
    (h : chainMessage ft prev seq e t = chainMessage ft prev' seq' e' t') :
    prev = prev' ∧ seq = seq' ∧ e.covered = e'.covered ∧ t = t' := by
  obtain ⟨-, hvalue⟩ := pepperedMessage_inj (by decide) (by decide) h
  have hlist := congrArg String.toList hvalue
  simp only [String.toList_append, String.toList_singleton, List.append_assoc,
    List.singleton_append, String.toList_ofList] at hlist
  obtain ⟨hprev, hcanonical⟩ := split_last
    (notMem_of_printable (printable_auditCanonical ft seq e t))
    (notMem_of_printable (printable_auditCanonical ft seq' e' t')) hlist
  have hcancels := cancels_commaText cancels_intText (cancels_commaText cancels_quoted
    (cancels_commaText cancels_quoted (cancels_commaText cancels_optionText_quoted
      (cancels_commaText cancels_optionText_quoted (cancels_commaText (cancels_text ft)
        (cancels_commaText cancels_optionText_quoted cancels_intText))))))
  have htuple := bracketText_injective hcancels hcanonical
  simp only [Prod.mk.injEq] at htuple
  obtain ⟨hseq, haction, hkind, hactor, htarget, hdetails, hip, htime⟩ := htuple
  refine ⟨String.toList_inj.mp hprev, Int64.toInt_inj.mp hseq, ?_, htime⟩
  simp [NewAdminAudit.covered, haction, hkind, hactor, htarget, hdetails, hip]

end SmirkBackend

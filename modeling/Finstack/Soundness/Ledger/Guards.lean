import Finstack.Foundation.Pending
import Finstack.Model.Ledger.Service
import Finstack.Soundness.Ledger.Consistency

/-! # What the ledger's locks cover

Each INSERT into the ledger writes within the locks it takes, and what it checks only depends on
what those locks guard. So a check that passed when the statement ran passes again on the state the
transaction is committed to.
-/

namespace Finstack

open Foundation Discipline LedgerService

/-! ## New accounts -/

/-- An account that exists already is left alone. -/
theorem insertOrIgnore_ok {account : LedgerAccount} {db : Db} {write : Db → Db}
    (done : insertOrIgnore account db = .ok ((), write)) : write db = db ∨
      (db.ledger.checkNewAccount account = .ok () ∧
        write = Db.onLedger (Ledger.insertAccount account)) := by
  unfold insertOrIgnore at done
  cases checked : db.ledger.checkNewAccount account with
  | ok _ =>
    rw [checked] at done
    obtain rfl : Db.onLedger (Ledger.insertAccount account) = write := by
      simpa [databaseCheck] using done
    exact .inr ⟨rfl, rfl⟩
  | error e =>
    rw [checked] at done
    cases e with
    | uniqueViolation constraint =>
      obtain rfl : (fun db => db) = write := (Prod.mk.inj (Except.ok.inj done)).2
      exact .inl rfl
    | _ => simp [databaseCheck] at done

theorem mem_accountLocks (account : LedgerAccount) :
    RowLock.account account.id ∈ accountLocks account := by
  simp [accountLocks]

theorem code_mem_accountLocks {account : LedgerAccount} {code : String}
    (named : account.code = some code) : RowLock.accountCode code ∈ accountLocks account := by
  simp [accountLocks, named]

theorem writes_insertAccount (account : LedgerAccount) :
    Writes (accountLocks account) (Db.onLedger (Ledger.insertAccount account)) := by
  constructor
  · intro c c' same l here
    have own := same _ (mem_accountLocks account)
    simp only [Db.same_observed, Db.observe, Db.Observed.account.injEq] at own
    cases l with
    | account id =>
      simp only [Db.same_observed, Db.observe, Db.Observed.account.injEq] at here ⊢
      obtain ⟨row, entries⟩ := here
      refine ⟨?_, entries⟩
      simp only [Db.onLedger, Ledger.insertAccount, Table.find?_insert, row]
    | accountCode code =>
      simp only [Db.same_observed, Db.observe, Db.Observed.index.injEq] at here ⊢
      have absent : c.ledger.accounts.find? (key account) = c'.ledger.accounts.find? (key account) :=
        own.1
      simp only [Ledger.findAccountByCode] at here
      simp only [Db.onLedger, Ledger.insertAccount, Ledger.findAccountByCode, Table.index_insert,
        here, absent]
    | _ => exact here
  · intro c l free
    cases l with
    | account id =>
      have other : account.id ≠ id := fun same =>
        RowLock.ne_of_free free (mem_accountLocks account) rfl (congrArg RowLock.account same)
      simp only [Db.same_observed, Db.observe, Db.onLedger, Ledger.insertAccount]
      have same : (c.ledger.accounts.insert account).find? id = c.ledger.accounts.find? id :=
        Table.find?_insert_ne other
      rw [same]
      rfl
    | accountCode code =>
      have other : account.code ≠ some code := fun named =>
        RowLock.ne_of_free free (code_mem_accountLocks named) rfl rfl
      simp [Db.same_observed, Db.observe, Db.onLedger, Ledger.insertAccount, Ledger.findAccountByCode,
        Table.index_insert, other]
    | _ => rfl

theorem guarded_checkNewAccount (account : LedgerAccount) (result : Except DatabaseError Unit) :
    GuardedBy (accountLocks account) fun db : Db => db.ledger.checkNewAccount account = result := by
  intro c c' same checked
  have own := same _ (mem_accountLocks account)
  simp only [Db.same_observed, Db.observe, Db.Observed.account.injEq] at own
  have named : (account.code.bind c.ledger.findAccountByCode).isSome =
      (account.code.bind c'.ledger.findAccountByCode).isSome := by
    cases code : account.code with
    | none => rfl
    | some code =>
      have index := same _ (code_mem_accountLocks code)
      simp only [Db.same_observed, Db.observe, Db.Observed.index.injEq] at index
      have some_iff := congrArg Option.isSome index
      simpa using some_iff
  simp only [Ledger.checkNewAccount] at checked ⊢
  rw [← own.1, ← named]
  exact checked

/-! ## New transactions -/

theorem mem_transactionLocks (transaction : LedgerTransaction) :
    RowLock.ledgerTransaction transaction.id false ∈ transactionLocks transaction := by
  simp [transactionLocks]

theorem reference_mem_transactionLocks (transaction : LedgerTransaction) :
    RowLock.ledgerReference transaction.reference ∈ transactionLocks transaction := by
  simp [transactionLocks]

theorem reversal_mem_transactionLocks {transaction : LedgerTransaction} {original : Uuid}
    (reverses : transaction.reversalOfId = some original) :
    RowLock.ledgerReversal original ∈ transactionLocks transaction ∧
      RowLock.ledgerTransaction original true ∈ transactionLocks transaction := by
  simp [transactionLocks, reverses]

theorem writes_insertTransaction (transaction : LedgerTransaction) :
    Writes (transactionLocks transaction) (Db.onLedger (Ledger.insertTransaction transaction)) := by
  constructor
  · intro c c' same l here
    have own := same _ (mem_transactionLocks transaction)
    simp only [Db.same_observed, Db.observe, Db.Observed.ledgerTransaction.injEq] at own
    have absent : c.ledger.transactions.find? (key transaction) =
        c'.ledger.transactions.find? (key transaction) := own.1
    cases l with
    | ledgerTransaction id shared =>
      simp only [Db.same_observed, Db.observe, Db.Observed.ledgerTransaction.injEq] at here ⊢
      obtain ⟨row, entries⟩ := here
      refine ⟨?_, entries⟩
      simp only [Db.onLedger, Ledger.insertTransaction, Table.find?_insert, row]
    | ledgerReference reference =>
      simp only [Db.same_observed, Db.observe, Db.Observed.index.injEq,
        Ledger.findTransactionByReference] at here ⊢
      simp only [Db.onLedger, Ledger.insertTransaction, Table.index_insert, here, absent]
    | ledgerReversal original =>
      simp only [Db.same_observed, Db.observe, Db.Observed.index.injEq,
        Ledger.findReversalOf] at here ⊢
      simp only [Db.onLedger, Ledger.insertTransaction, Table.index_insert, here, absent]
    | _ => exact here
  · intro c l free
    cases l with
    | ledgerTransaction id shared =>
      have other : transaction.id ≠ id := fun same =>
        RowLock.ne_of_free free (mem_transactionLocks transaction) rfl
          (congrArg (RowLock.ledgerTransaction · false) same)
      simp only [Db.same_observed, Db.observe, Db.onLedger, Ledger.insertTransaction]
      have same : (c.ledger.transactions.insert transaction).find? id =
          c.ledger.transactions.find? id := Table.find?_insert_ne other
      rw [same]
      rfl
    | ledgerReference reference =>
      have other : transaction.reference ≠ reference := fun same =>
        RowLock.ne_of_free free (reference_mem_transactionLocks transaction) rfl
          (congrArg RowLock.ledgerReference same)
      simp [Db.same_observed, Db.observe, Db.onLedger, Ledger.insertTransaction,
        Ledger.findTransactionByReference, Table.index_insert, other]
    | ledgerReversal original =>
      have other : transaction.reversalOfId ≠ some original := fun reverses =>
        RowLock.ne_of_free free (reversal_mem_transactionLocks reverses).1 rfl rfl
      simp [Db.same_observed, Db.observe, Db.onLedger, Ledger.insertTransaction,
        Ledger.findReversalOf, Table.index_insert, other]
    | _ => rfl

theorem guarded_checkNewTransaction (transaction : LedgerTransaction)
    (result : Except DatabaseError Unit) :
    GuardedBy (transactionLocks transaction) fun db : Db =>
      db.ledger.checkNewTransaction transaction = result := by
  intro c c' same checked
  have own := same _ (mem_transactionLocks transaction)
  simp only [Db.same_observed, Db.observe, Db.Observed.ledgerTransaction.injEq] at own
  have reference := same _ (reference_mem_transactionLocks transaction)
  simp only [Db.same_observed, Db.observe, Db.Observed.index.injEq] at reference
  have named := congrArg Option.isSome reference
  simp only [Option.isSome_map] at named
  have reversal : (transaction.reversalOfId.bind c.ledger.findReversalOf).isSome =
      (transaction.reversalOfId.bind c'.ledger.findReversalOf).isSome ∧
      (transaction.reversalOfId.any fun id => (c.ledger.transactions.find? id).isNone) =
        (transaction.reversalOfId.any fun id => (c'.ledger.transactions.find? id).isNone) := by
    cases reverses : transaction.reversalOfId with
    | none => simp
    | some original =>
      obtain ⟨index, row⟩ := reversal_mem_transactionLocks reverses
      have first := same _ index
      have second := same _ row
      simp only [Db.same_observed, Db.observe, Db.Observed.index.injEq,
        Db.Observed.ledgerTransaction.injEq] at first second
      have some_iff := congrArg Option.isSome first
      exact ⟨by simpa using some_iff, by simp [second.1]⟩
  simp only [Ledger.checkNewTransaction] at checked ⊢
  rw [← own.1, ← named, ← reversal.1, ← reversal.2]
  exact checked

/-! ## New entries -/

theorem mem_entryLocks (transaction : LedgerTransaction) (entries : List LedgerEntry) :
    RowLock.ledgerTransaction transaction.id false ∈ entryLocks transaction entries := by
  simp [entryLocks]

theorem account_mem_entryLocks (transaction : LedgerTransaction) {entries : List LedgerEntry}
    {entry : LedgerEntry} (member : entry ∈ entries) :
    RowLock.account entry.ledgerAccountId ∈ entryLocks transaction entries :=
  List.mem_cons_of_mem _ (List.mem_map.mpr ⟨entry, member, rfl⟩)

theorem moved_elsewhere {account : LedgerAccount} {entries : List LedgerEntry}
    (elsewhere : ∀ entry ∈ entries, entry.ledgerAccountId ≠ account.id) :
    Ledger.moved account entries = 0 := by
  induction entries with
  | nil => rfl
  | cons entry rest ih =>
    rw [Ledger.moved_cons, ih fun e later => elsewhere e (List.mem_cons_of_mem _ later)]
    simp [elsewhere entry List.mem_cons_self]

/-- Balances move no account in the index of codes. -/
theorem index_applyBalances (entries : List LedgerEntry) (accounts : Table LedgerAccount)
    (code : String) :
    ((entries.foldl Ledger.applyBalance accounts).rows.find? fun a => a.code = some code).map key =
      (accounts.rows.find? fun a => a.code = some code).map key := by
  induction entries generalizing accounts with
  | nil => rfl
  | cons entry rest ih =>
    rw [List.foldl_cons, ih]
    unfold Ledger.applyBalance
    cases target : accounts.find? entry.ledgerAccountId with
    | none => rfl
    | some account =>
      have own : account.id = entry.ledgerAccountId := (Table.find?_some target).2
      refine Table.rows_find?_replace (s := account) ?_ rfl
      change accounts.find? account.id = some account
      rw [own, target]

theorem writes_insertEntries (transaction : LedgerTransaction) {entries : List LedgerEntry}
    (ours : ∀ entry ∈ entries, entry.ledgerTransactionId = transaction.id) :
    Writes (entryLocks transaction entries) (Db.onLedger (Ledger.insertEntries entries)) := by
  constructor
  · intro c c' same l here
    cases l with
    | account id =>
      simp only [Db.same_observed, Db.observe, Db.Observed.account.injEq] at here ⊢
      obtain ⟨row, on⟩ := here
      refine ⟨?_, ?_⟩
      · simp only [Db.onLedger, Ledger.insertEntries, Ledger.find?_applyBalances, row]
      · simp only [Db.onLedger, Ledger.entriesOn_append, on]
    | accountCode code =>
      simp only [Db.same_observed, Db.observe, Db.Observed.index.injEq,
        Ledger.findAccountByCode] at here ⊢
      simp only [Db.onLedger, Ledger.insertEntries, index_applyBalances, here]
    | ledgerTransaction id shared =>
      simp only [Db.same_observed, Db.observe, Db.Observed.ledgerTransaction.injEq] at here ⊢
      obtain ⟨row, of⟩ := here
      exact ⟨row, by simp only [Db.onLedger, Ledger.entriesOf_append, of]⟩
    | _ => exact here
  · intro c l free
    cases l with
    | account id =>
      have elsewhere : ∀ entry ∈ entries, entry.ledgerAccountId ≠ id := by
        intro entry member same
        exact RowLock.ne_of_free free (account_mem_entryLocks transaction member) rfl
          (congrArg RowLock.account same)
      have none : (entries.filter fun entry => entry.ledgerAccountId = id) = [] :=
        List.filter_eq_nil_iff.mpr fun entry member => by simpa using elsewhere entry member
      have rows : (c.ledger.accounts.find? id).map
          (fun account => account.credited (Ledger.moved account entries)) =
          c.ledger.accounts.find? id := by
        cases found : c.ledger.accounts.find? id with
        | none => rfl
        | some account =>
          have own : account.id = id := (Table.find?_some found).2
          rw [Option.map_some, moved_elsewhere (by rwa [own]), LedgerAccount.credited_zero]
      simp only [Db.same_observed, Db.observe, Db.onLedger, Ledger.entriesOn_append, none,
        List.append_nil]
      simp only [Ledger.insertEntries, Ledger.find?_applyBalances, rows]
    | accountCode code =>
      simp only [Db.same_observed, Db.observe, Db.onLedger, Ledger.findAccountByCode,
        Ledger.insertEntries, index_applyBalances]
    | ledgerTransaction id shared =>
      have other : transaction.id ≠ id := fun same =>
        RowLock.ne_of_free free (mem_entryLocks transaction entries) rfl
          (congrArg (RowLock.ledgerTransaction · false) same)
      have none : (entries.filter fun entry => entry.ledgerTransactionId = id) = [] :=
        List.filter_eq_nil_iff.mpr fun entry member => by
          simpa [ours entry member] using other
      simp only [Db.same_observed, Db.observe, Db.onLedger, Ledger.entriesOf_append, none,
        List.append_nil]
      rfl
    | _ => rfl

/-- The row-by-row check looks at the entries' own accounts. -/
theorem checkBalances_congr {entries : List LedgerEntry} {accounts accounts' : Table LedgerAccount}
    (same : ∀ entry ∈ entries, accounts.find? entry.ledgerAccountId =
      accounts'.find? entry.ledgerAccountId) :
    Ledger.checkBalances entries accounts = Ledger.checkBalances entries accounts' := by
  induction entries generalizing accounts accounts' with
  | nil => rfl
  | cons entry rest ih =>
    have first : Ledger.checkApplied accounts entry = Ledger.checkApplied accounts' entry := by
      unfold Ledger.checkApplied
      rw [same entry List.mem_cons_self]
    have tail : Ledger.checkBalances rest (Ledger.applyBalance accounts entry) =
        Ledger.checkBalances rest (Ledger.applyBalance accounts' entry) := by
      refine ih fun e later => ?_
      rw [Ledger.find?_applyBalance, Ledger.find?_applyBalance,
        same e (List.mem_cons_of_mem _ later)]
    rw [Ledger.checkBalances, Ledger.checkBalances, first, tail]

theorem guarded_checkNewEntries (transaction : LedgerTransaction) {entries : List LedgerEntry}
    (ours : ∀ entry ∈ entries, entry.ledgerTransactionId = transaction.id)
    (result : Except DatabaseError Unit) :
    GuardedBy (entryLocks transaction entries) fun db : Db =>
      db.ledger.checkNewEntries entries = result := by
  intro c c' same checked
  have own := same _ (mem_entryLocks transaction entries)
  simp only [Db.same_observed, Db.observe, Db.Observed.ledgerTransaction.injEq] at own
  have account : ∀ entry ∈ entries, c.ledger.accounts.find? entry.ledgerAccountId =
      c'.ledger.accounts.find? entry.ledgerAccountId := by
    intro entry member
    have row := same _ (account_mem_entryLocks transaction member)
    simp only [Db.same_observed, Db.observe, Db.Observed.account.injEq] at row
    exact row.1
  have each : ∀ entry ∈ entries, c.ledger.checkEntry entry = c'.ledger.checkEntry entry := by
    intro entry member
    unfold Ledger.checkEntry
    rw [account entry member, ours entry member, own.1]
  simp only [Ledger.checkNewEntries] at checked ⊢
  rw [← Ledger.forM_congr each, ← checkBalances_congr account]
  exact checked

/-! ## Commit -/

theorem writes_clearDeferred : Writes [] (Db.onLedger Ledger.clearDeferred) :=
  ⟨fun c c' _ l here => by cases l <;> exact here, fun c l _ => by cases l <;> rfl⟩

theorem guarded_checkBalanced {ids : List Uuid} :
    GuardedBy (ids.map (RowLock.ledgerTransaction · false)) fun db : Db =>
      ∀ id ∈ ids, db.ledger.checkBalanced id = .ok () := by
  intro c c' same checked id member
  have row := same _ (List.mem_map.mpr ⟨id, member, rfl⟩)
  simp only [Db.same_observed, Db.observe, Db.Observed.ledgerTransaction.injEq] at row
  have passed := checked id member
  simp only [Ledger.checkBalanced] at passed ⊢
  rw [← row.1, ← row.2]
  exact passed

end Finstack
